import Slotwise.Proofs.Execution
import Slotwise.Proofs.Verdicts
/-!
# Unions of selections

What is selected together can be selected apart. The union of two selections has the choices of
both, and each choice brings its jobs along whatever else is chosen: the jobs that it needs beside
its own, and the traits that mark its types. All else that a request says stays the same, and a
request for fewer jobs has no more conflicts.

Main statement: a request with a plan for the union of two selections has a plan for each of them,
and the jobs of the union are those of both (`union_planned`).
-/

namespace Slotwise

namespace Selection

variable {first second : Selection} {choices : List Choice}

/-- The union of two selections has the choices of both. -/
theorem exists_of_simplify_union (h : (first.union second).simplify = .ok choices) :
    ∃ left right, first.simplify = .ok left ∧ second.simplify = .ok right ∧
      ∀ choice, choice ∈ choices ↔ choice ∈ left ∨ choice ∈ right := by
  obtain ⟨gathered, found, members⟩ := mem_of_simplify h
  -- the union hands no location down to its members
  rw [union, gather] at found
  obtain ⟨left, foundLeft, found⟩ := Outcome.bind_eq_ok_iff.1 found
  obtain ⟨others, foundOthers, found⟩ := Outcome.bind_eq_ok_iff.1 found
  obtain ⟨right, foundRight, none⟩ := Outcome.bind_eq_ok_iff.1 foundOthers
  cases none
  cases found
  have sorted (own : List Choice) (choice : Choice) :
      choice ∈ Ordered.sortedSet Choice.compare own ↔ choice ∈ own :=
    Ordered.mem_sortedSet_iff fun _ _ _ _ => Choice.eq_of_compare
  refine ⟨Ordered.sortedSet Choice.compare left, Ordered.sortedSet Choice.compare right, ?_, ?_, ?_⟩
  · rw [simplify, show first.gather .anywhere = .ok left from foundLeft]
    rfl
  · rw [simplify, show second.gather .anywhere = .ok right from foundRight]
    rfl
  · intro choice
    rw [members, sorted, sorted, List.append_nil, List.mem_append]

end Selection

namespace Check

variable {request : Request} {capability : Capability} {first second : Selection}

/-- What passes in a union passes alone. -/
theorem selection_of_union (passed : selection (first.union second) = .ok ()) :
    selection first = .ok () ∧ selection second = .ok () := by
  obtain ⟨choices, simplified, located⟩ := selection_eq_ok_iff.1 passed
  obtain ⟨left, right, foundLeft, foundRight, members⟩ :=
    Selection.exists_of_simplify_union simplified
  constructor
  · exact selection_eq_ok_iff.2 ⟨left, foundLeft, fun choice member =>
      located choice ((members choice).2 (.inl member))⟩
  · exact selection_eq_ok_iff.2 ⟨right, foundRight, fun choice member =>
      located choice ((members choice).2 (.inr member))⟩

/-- A request stays sound if something else that passes is selected. -/
theorem request_selecting {asked : Option Selection} {other : Selection}
    (checked : Check.request (request.selecting capability asked) = .ok ())
    (passed : selection other = .ok ()) :
    Check.request (request.selecting capability (some other)) = .ok () := by
  have before := @Request.sameBeside_selecting request capability asked
  have after := @Request.sameBeside_selecting request capability (some other)
  obtain ⟨selections, module, output, records, variantSets, keys⟩ := request_eq_ok_iff.1 checked
  rw [before.module, before.output, before.records, before.variantSets, before.keys] at *
  refine request_eq_ok_iff.2 ⟨?_, ?_⟩
  · intro chosen member
    obtain ⟨own, given⟩ := Request.mem_selections_iff.1 member
    by_cases same : own = capability
    · subst same
      rw [Request.selection_selecting] at given
      cases given
      exact passed
    · rw [Request.selection_selecting_of_ne same] at given
      refine selections chosen (Request.mem_selections_iff.2 ⟨own, ?_⟩)
      rw [Request.selection_selecting_of_ne same, given]
  · rw [after.module, after.output, after.records, after.variantSets, after.keys]
    exact ⟨module, output, records, variantSets, keys⟩

end Check

/-! ## What stays the same -/

namespace Propagation

/-- Selections have no part in the spreading of serialization. -/
theorem propagated_selecting (request : Request) (capability : Capability)
    (asked : Option Selection) :
    (request.selecting capability asked).propagated =
      request.propagated.selecting capability asked := by
  refine @propagated_of_beside (·.selecting capability asked) ?_ ?_ request ?_ ?_ ?_
  · intro request target
    cases capability <;> cases target <;> rfl
  · intro request
    cases capability <;> rfl
  · cases capability <;> rfl
  · cases capability <;> rfl
  · cases capability <;> rfl

end Propagation

namespace Plan

open Naming

variable {request : Request} {capability : Capability} {first second : Selection} {job : Job}

theorem familyPlace_congr {other : Request} (same : request.SameBeside other) (kind : Kind)
    (location : Location) :
    familyPlace other kind location = familyPlace request kind location := by
  rw [familyPlace, familyPlace, same.output]

/-- Declarations do not depend on selections. -/
theorem ForDeclaration.congr {other : Request} (same : request.SameBeside other)
    (declared : ForDeclaration other job) : ForDeclaration request job := by
  cases declared with
  | keys kept among => exact .keys (keyJobs_congr same.output same.keys ▸ kept) among
  | lens found among =>
    rw [lensJobs, same.output] at among
    exact .lens (same.records ▸ found) among
  | prism found among =>
    rw [prismJobs, same.output] at among
    exact .prism (same.variantSets ▸ found) among

theorem forDeclaration_selecting_iff {asked : Option Selection} :
    ForDeclaration (request.selecting capability asked) job ↔ ForDeclaration request job := by
  constructor
  · intro declared
    exact declared.congr Request.sameBeside_selecting
  · intro declared
    obtain ⟨output, module, keys, records, variantSets⟩ :=
      @Request.sameBeside_selecting request capability asked
    exact declared.congr ⟨output.symm, module.symm, keys.symm, records.symm, variantSets.symm⟩

/-! ## What a selection brings along -/

section Chosen

variable {other : Capability} {asked : Option Selection} {dimension : Nat} {place : Place}

theorem chosen_selecting_of_ne (differ : other ≠ capability) :
    Chosen (request.selecting capability asked) other dimension place ↔
      Chosen request other dimension place := by
  have same := @Request.sameBeside_selecting request capability asked
  simp only [chosen_iff, Request.selection_selecting_of_ne differ, familyPlace_congr same,
    same.module]

theorem chosen_selecting_iff {selection : Selection} {choices : List Choice}
    (simplified : selection.simplify = .ok choices) :
    Chosen (request.selecting capability (some selection)) capability dimension place ↔
      ∃ choice ∈ choices, dimension = choice.dimension ∧
        place = familyPlace request capability.kind
          (choice.location.overriddenBy request.module) := by
  have same := @Request.sameBeside_selecting request capability (some selection)
  simp only [chosen_iff, Request.selection_selecting, Option.some.injEq, familyPlace_congr same,
    same.module, exists_and_left, exists_eq_left', simplified, Except.ok.injEq]

/-- For the union of two selections is chosen what is chosen for one of them. -/
theorem chosen_union_iff (succeeds : Outcome.Succeeds (first.union second).simplify) :
    Chosen (request.selecting capability (some (first.union second))) other dimension place ↔
      Chosen (request.selecting capability (some first)) other dimension place ∨
        Chosen (request.selecting capability (some second)) other dimension place := by
  -- only the capability whose selection is the union has other choices than before
  by_cases own : other = capability
  · subst own
    obtain ⟨choices, simplified⟩ := succeeds
    obtain ⟨left, right, foundLeft, foundRight, members⟩ :=
      Selection.exists_of_simplify_union simplified
    simp only [chosen_selecting_iff simplified, chosen_selecting_iff foundLeft,
      chosen_selecting_iff foundRight, members, or_and_right, exists_or]
  · simp only [chosen_selecting_of_ne own, or_self]

end Chosen

/-- For the union of two selections is requested what is requested for one of them. -/
theorem requested_union_iff (succeeds : Outcome.Succeeds (first.union second).simplify) :
    Requested (request.selecting capability (some (first.union second))) job ↔
      Requested (request.selecting capability (some first)) job ∨
        Requested (request.selecting capability (some second)) job := by
  simp only [requested_iff, chosen_union_iff succeeds, forDeclaration_selecting_iff, or_and_right,
    exists_or]
  constructor
  · intro requested
    rcases requested with (left | right) | declared
    · exact .inl (.inl left)
    · exact .inr (.inl right)
    · exact .inl (.inr declared)
  · intro requested
    rcases requested with (left | declared) | (right | declared)
    · exact .inl (.inl left)
    · exact .inr declared
    · exact .inl (.inr right)
    · exact .inr declared

/-- The traits that mark types distribute as the types do. -/
theorem includes_union_iff (succeeds : Outcome.Succeeds (first.union second).simplify) :
    Includes (request.selecting capability (some (first.union second))) job ↔
      Includes (request.selecting capability (some first)) job ∨
        Includes (request.selecting capability (some second)) job := by
  simp only [Includes, requested_union_iff succeeds, or_and_right, exists_or]
  exact or_or_or_comm

/-! ## Plans for parts -/

theorem corresponding_eq : Corresponding (· = ·) where
  refl _ := rfl
  marks same := same ▸ rfl
  path same := same ▸ rfl

/-- A request for fewer jobs has a plan, if it passes its check and has the same key groups. -/
theorem Planned.exists_fewer {whole part : Request} {plan : Plan} (planned : Planned whole plan)
    (checked : Check.request part = .ok ()) (same : whole.SameBeside part)
    (fewer : ∀ job, Requested part.propagated job → Requested whole.propagated job) :
    ∃ plan', ofRequest part = .ok plan' := by
  have agree : ¬KeysConflict part := by
    obtain ⟨-, keys⟩ := succeeds_allJobs_iff.1 (Outcome.succeeds_of_eq planned.jobs)
    rw [succeeds_keyJobs_iff, countsAgree_iff, planned.request_eq, keysConflict_propagated] at keys
    simpa only [KeysConflict, same.keys, familyPlace_congr same] using keys
  obtain ⟨jobs, listed, -⟩ := ofRequest_of_keysAgree checked agree
  -- each of its jobs is one of the plan, so no two of them write one file
  refine ⟨_, planned.accepts_corresponding corresponding_eq checked listed ?_ ?_⟩
  · intro job requested
    exact ⟨job, planned.request_eq ▸ fewer job requested, rfl⟩
  · intro other a b first second _ _
    exact first.symm.trans second

/-- A request that has a plan for the union of two selections, in the place of any of its six
selections, has a plan for each of the two there. The jobs of its plan are the jobs of both of
these: those for the dimensions that are selected, those that come along with them, and the traits
that mark their types. -/
theorem union_planned {plan : Plan}
    (h : ofRequest (request.selecting capability (some (first.union second))) = .ok plan) :
    ∃ plan₁ plan₂,
      ofRequest (request.selecting capability (some first)) = .ok plan₁ ∧
      ofRequest (request.selecting capability (some second)) = .ok plan₂ ∧
      ∀ job, job ∈ plan.jobs ↔ job ∈ plan₁.jobs ∨ job ∈ plan₂.jobs := by
  have planned := planned_of_ofRequest h
  have both : Check.selection (first.union second) = .ok () := by
    refine (Check.request_eq_ok_iff.1 planned.checked).1 _ (Request.mem_selections_iff.2 ?_)
    exact ⟨capability, Request.selection_selecting⟩
  obtain ⟨choices, simplified, -⟩ := Check.selection_eq_ok_iff.1 both
  have succeeds : Outcome.Succeeds (first.union second).simplify := ⟨choices, simplified⟩
  obtain ⟨passes, passes'⟩ := Check.selection_of_union both
  have part {own : Selection} (passed : Check.selection own = .ok ())
      (fewer : ∀ job, Requested (request.propagated.selecting capability (some own)) job →
        Requested (request.propagated.selecting capability (some (first.union second))) job) :
      ∃ plan', ofRequest (request.selecting capability (some own)) = .ok plan' := by
    refine planned.exists_fewer (Check.request_selecting planned.checked passed) ?_ ?_
    · cases capability <;> exact ⟨rfl, rfl, rfl, rfl, rfl⟩
    · rw [Propagation.propagated_selecting, Propagation.propagated_selecting]
      exact fewer
  obtain ⟨plan₁, h₁⟩ := part passes fun job requested =>
    (requested_union_iff succeeds).2 (.inl requested)
  obtain ⟨plan₂, h₂⟩ := part passes' fun job requested =>
    (requested_union_iff succeeds).2 (.inr requested)
  refine ⟨plan₁, plan₂, h₁, h₂, fun job => ?_⟩
  have planned₁ := planned_of_ofRequest h₁
  have planned₂ := planned_of_ofRequest h₂
  rw [planned.mem_jobs_iff, planned₁.mem_jobs_iff, planned₂.mem_jobs_iff, planned.request_eq,
    planned₁.request_eq, planned₂.request_eq, Propagation.propagated_selecting,
    Propagation.propagated_selecting, Propagation.propagated_selecting]
  exact includes_union_iff succeeds

/-- A request for the evolution of products, all in one domain. -/
def evolving (products : Selection) : Request :=
  ({ Request.empty with module := ⟨none, some "app", none⟩ } : Request).selecting .evolvingProducts
    (some products)

/-- Apart, each dimension brings along its own product and the trait that marks it; together, they
share the trait. -/
theorem union_planned_evolving :
    ∃ plan plan₁ plan₂,
      ofRequest (evolving ((Selection.single 2 .anywhere).union (.single 3 .anywhere))) = .ok plan ∧
      ofRequest (evolving (.single 2 .anywhere)) = .ok plan₁ ∧
      ofRequest (evolving (.single 3 .anywhere)) = .ok plan₂ ∧ plan.jobs.length = 5 ∧
      ∀ job, job ∈ plan.jobs ↔ job ∈ plan₁.jobs ∨ job ∈ plan₂.jobs := by
  have works : passes
      (ofRequest (evolving ((Selection.single 2 .anywhere).union (.single 3 .anywhere))))
      (fun plan => plan.jobs.length = 5) = true := by
    simp only [ofRequest, Check.request, funext Check.selection.eq_def, allJobs, familyJobs, selected,
      Selection.simplify, Ordered.sortedSet_eq_foldr]
    decide +kernel
  obtain ⟨plan, planned, count⟩ := exists_of_passes works
  obtain ⟨plan₁, plan₂, planned₁, planned₂, members⟩ := union_planned planned
  exact ⟨plan, plan₁, plan₂, planned, planned₁, planned₂, of_decide_eq_true count, members⟩

end Plan

end Slotwise
