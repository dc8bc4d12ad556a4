import Slotwise.Proofs.Alike
import Slotwise.Proofs.ByName
import Slotwise.Proofs.KeyGroups
/-!
# The order of declarations

Jobs name records and variant sets by their numbers, and are sorted by them. Where the names of all
records and variant sets differ, another order gives the same jobs under other numbers, so the same
files. Only indexes can differ: the first job that leads to a directory decides how it is written.

Main statement: declarations with different names can be given in any order (`declarations_permuted`).
-/

namespace Slotwise.Plan

open Outcome

variable {request other : Request} {plan : Plan}

/-! ## The same jobs under other numbers -/

theorem keyJobs_of_reordered (reordered : request.Reordered other) :
    keyJobs other = keyJobs request :=
  keyJobs_congr reordered.output reordered.keys

theorem familyJobs_of_reordered (reordered : request.Reordered other) :
    familyJobs other = familyJobs request := by
  obtain ⟨-, -⟩ := reordered
  rfl

/-- What is requested of declarations is requested of them in another order, under another number. -/
theorem Requested.reordered (reordered : request.Reordered other) {job : Job}
    (requested : Requested other job) : ∃ same, Requested request same ∧ same.shown = job.shown := by
  have keyJobs_eq := keyJobs_of_reordered reordered
  obtain ⟨perm, perm'⟩ := reordered
  cases requested with
  | product chosen member => exact ⟨_, .product chosen member, rfl⟩
  | sum chosen member => exact ⟨_, .sum chosen member, rfl⟩
  | arithmetic chosen member among => exact ⟨_, .arithmetic chosen member among, rfl⟩
  | duality chosen member among => exact ⟨_, .duality chosen member among, rfl⟩
  | evolvingProduct chosen member among => exact ⟨_, .evolvingProduct chosen member among, rfl⟩
  | evolvingSum chosen member among => exact ⟨_, .evolvingSum chosen member among, rfl⟩
  | keys kept among => exact ⟨_, .keys (keyJobs_eq ▸ kept) among, rfl⟩
  | lens found among =>
    obtain ⟨i, found'⟩ := List.mem_iff_getElem?.1 (perm.mem_iff.1 (List.mem_of_getElem? found))
    obtain ⟨wide, rfl⟩ | rfl | rfl := mem_lensJobs_iff.1 among
    · exact ⟨_, .lens found' (mem_lensJobs_iff.2 (.inl ⟨wide, rfl⟩)), rfl⟩
    · exact ⟨_, .lens found' (mem_lensJobs_iff.2 (.inr (.inl rfl))), rfl⟩
    · exact ⟨_, .lens found' (mem_lensJobs_iff.2 (.inr (.inr rfl))), rfl⟩
  | prism found among =>
    obtain ⟨i, found'⟩ := List.mem_iff_getElem?.1 (perm'.mem_iff.1 (List.mem_of_getElem? found))
    obtain rfl | ⟨variant, member, wide, rfl⟩ | rfl | rfl := mem_prismJobs_iff.1 among
    · exact ⟨_, .prism found' (mem_prismJobs_iff.2 (.inl rfl)), rfl⟩
    · exact ⟨_, .prism found' (mem_prismJobs_iff.2 (.inr (.inl ⟨variant, member, wide, rfl⟩))), rfl⟩
    · exact ⟨_, .prism found' (mem_prismJobs_iff.2 (.inr (.inr (.inl rfl)))), rfl⟩
    · exact ⟨_, .prism found' (mem_prismJobs_iff.2 (.inr (.inr (.inr rfl)))), rfl⟩

theorem Includes.reordered (reordered : request.Reordered other) {job : Job}
    (included : Includes other job) : ∃ same, Includes request same ∧ same.shown = job.shown :=
  included.exists_corresponding corresponding_shown fun _ requested => requested.reordered reordered

/-! ## Jobs and what shows of them -/

/-- A member of a list without repetitions has one number. -/
theorem number_unique {α : Type} {name : α → String} {xs : List α} (distinct : (xs.map name).Nodup)
    {i j : Nat} {x : α} (found : xs[i]? = some x) (found' : xs[j]? = some x) : i = j :=
  (List.getElem?_inj (List.getElem?_eq_some_iff.1 found).1 (distinct.of_map name)).1
    (found.trans found'.symm)

theorem eq_of_parts {job other : Job} (task : other.task = job.task) (place : other.place = job.place) :
    other = job := by
  cases job
  cases other
  exact congrArg₂ Job.mk task place

/-- Where names differ, jobs of which the same shows are the same. -/
theorem Includes.eq_of_shown (distinct : request.names.Nodup) {job other : Job}
    (included : Includes request job) (included' : Includes request other)
    (same : other.shown = job.shown) : other = job := by
  have numbered := included.numbered
  have numbered' := included'.numbered
  obtain ⟨records, variantSets, -⟩ := List.nodup_append.1 distinct
  obtain equal | ⟨place, keys | lens | prism⟩ := eq_or_of_shown same
  · exact equal
  · obtain ⟨i, j, group, group', task, task', stem⟩ := keys
    obtain ⟨jobs, kept, member⟩ := included.exists_keyJobs task
    obtain ⟨jobs', kept', member'⟩ := included'.exists_keyJobs task'
    cases kept.symm.trans kept'
    refine eq_of_mem_keyJobs kept member member' ?_ place
    rw [task, task']
    exact stem
  · obtain ⟨i, j, record, task, task'⟩ := lens
    rw [task] at numbered
    rw [task'] at numbered'
    rw [number_unique records numbered' numbered, ← task] at task'
    exact eq_of_parts task' place
  · obtain ⟨i, j, set, task, task'⟩ := prism
    rw [task] at numbered
    rw [task'] at numbered'
    rw [number_unique variantSets numbered' numbered, ← task] at task'
    exact eq_of_parts task' place

/-! ## Declarations in another order -/

theorem check_of_reordered (reordered : request.Reordered other)
    (checked : Check.request request = .ok ()) : Check.request other = .ok () := by
  obtain ⟨perm, perm'⟩ := reordered
  obtain ⟨selections, module, output, records, variantSets, keys⟩ :=
    Check.request_eq_ok_iff.1 checked
  exact Check.request_eq_ok_iff.2 ⟨selections, module, output,
    fun record member => records record (perm.mem_iff.1 member),
    fun set member => variantSets set (perm'.mem_iff.1 member), keys⟩

/-- Declarations with different names in another order have a plan that is alike. -/
theorem Planned.exists_reordered (planned : Planned request plan) (distinct : request.names.Nodup)
    (reordered : request.Reordered other) :
    ∃ plan', ofRequest other = .ok plan' ∧ Alike plan plan' := by
  have spread := Propagation.reordered_propagated reordered distinct
  have jobs := planned.jobs
  have members : ∀ job, job ∈ plan.jobs ↔ Includes request.propagated job :=
    fun job => planned.request_eq ▸ planned.mem_jobs_iff
  rw [planned.request_eq] at jobs
  obtain ⟨jobs', listed⟩ : Succeeds (allJobs other.propagated) := by
    rw [succeeds_allJobs_iff, familyJobs_of_reordered spread, keyJobs_of_reordered spread,
      ← succeeds_allJobs_iff]
    exact ⟨_, jobs⟩
  have names : other.propagated.names.Nodup := by
    rw [Propagation.names_propagated (reordered.nodup_names distinct)]
    exact reordered.nodup_names distinct
  have accepted := planned.accepts_corresponding corresponding_shown
    (check_of_reordered reordered planned.checked) listed
    (fun job requested => planned.request_eq ▸ requested.reordered spread)
    fun related related' included included' =>
      included'.eq_of_shown names included (related'.symm.trans related).symm
  refine ⟨_, accepted, ?_, fun job => ?_⟩
  · rw [planned.request_eq, ← spread.output]
  · rw [List.mem_map, List.mem_map]
    constructor
    · rintro ⟨job, member, rfl⟩
      obtain ⟨same, included, shown⟩ := ((mem_allJobs_iff listed).1 member).reordered spread
      exact ⟨same, (members same).2 included, shown⟩
    · rintro ⟨job, member, rfl⟩
      obtain ⟨same, included, shown⟩ := ((members job).1 member).reordered spread.symm
      exact ⟨same, (mem_allJobs_iff listed).2 included, shown⟩

/-- Records and variant sets whose names are all different can be given in any order: the request is
accepted all the same, its artifacts can be made just if they could be before, and those of them that
are no indexes are the same. -/
theorem declarations_permuted (h : ofRequest request = .ok plan) (distinct : request.names.Nodup)
    {records : List Record} (perm : records.Perm request.records)
    {variantSets : List VariantSet} (perm' : variantSets.Perm request.variantSets) :
    ∃ plan', ofRequest { request with records, variantSets } = .ok plan' ∧
      (Succeeds plan'.artifacts ↔ Succeeds plan.artifacts) ∧
      ∀ artifacts artifacts', plan.artifacts = .ok artifacts → plan'.artifacts = .ok artifacts' →
        artifacts'.filter (·.kind ≠ .index) = artifacts.filter (·.kind ≠ .index) := by
  have planned := planned_of_ofRequest h
  obtain ⟨plan', accepted, alike⟩ := planned.exists_reordered distinct (.mk perm perm')
  refine ⟨plan', accepted, ⟨alike.symm.succeeds_artifacts, alike.succeeds_artifacts⟩, ?_⟩
  intro artifacts artifacts' made made'
  exact alike.files_eq planned (planned_of_ofRequest accepted) made made'

/-- A serializable record that refers to another one, which is declared behind it, and a variant set. -/
def lineAndPoint : Request :=
  declaring [(single "Line" (TypeRef.named "Point")).withSerialization,
    single "Point" (TypeRef.named "f64")] [based "x" "1.0" "2.0"]

/-- Its plan. -/
def lineAndPointPlan : { plan : Plan // ofRequest lineAndPoint = .ok plan ∧
    decide (plan.jobs.map (·.task.title) = ["sum", "2", "functions", "Line", "Point", "S"]) = true } :=
  passing <| by
    simp only [ofRequest, allJobs, Ordered.sortedSet_eq_foldr]
    decide +kernel

/-- The record that is referred to can be declared first; the records have other numbers then. -/
theorem declarations_permuted_lineAndPoint :
    ∃ plan plan', ofRequest lineAndPoint = .ok plan ∧
      ofRequest { lineAndPoint with records := lineAndPoint.records.reverse } = .ok plan' ∧
      plan.jobs.map (·.task.title) = ["sum", "2", "functions", "Line", "Point", "S"] ∧
      (Succeeds plan'.artifacts ↔ Succeeds plan.artifacts) ∧
      ∀ artifacts artifacts', plan.artifacts = .ok artifacts → plan'.artifacts = .ok artifacts' →
        artifacts'.filter (·.kind ≠ .index) = artifacts.filter (·.kind ≠ .index) := by
  obtain ⟨plan, planned, titles⟩ := lineAndPointPlan
  obtain ⟨plan', planned', rest⟩ := declarations_permuted planned (by decide)
    (List.reverse_perm lineAndPoint.records) (List.Perm.refl lineAndPoint.variantSets)
  exact ⟨plan, plan', planned, planned', of_decide_eq_true titles, rest⟩

end Slotwise.Plan
