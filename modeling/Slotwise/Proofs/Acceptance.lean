import Slotwise.Proofs.Distinct
/-!
# Requests that are accepted together

A request is accepted if its parts pass their checks, its jobs can be listed, and no two of them write
one file. Where each job of a request corresponds to one of an accepted request that writes the same
file, and no two to the same one, the paths of the jobs need no other check.

Main statement: a request whose jobs correspond to those of a plan is accepted
(`Planned.accepts_corresponding`).
-/

namespace Slotwise

/-- What the check of a request asks of its parts. -/
theorem Check.request_eq_ok_iff {request : Request} : Check.request request = .ok () ↔
    (∀ selection ∈ request.selections, Check.selection selection = .ok ()) ∧
      Check.location "module" request.module = .ok () ∧
      Check.location "output" ⟨none, some request.output.domain, none⟩ = .ok () ∧
      (∀ record ∈ request.records, Check.record record = .ok ()) ∧
      (∀ set ∈ request.variantSets, Check.variantSet set = .ok ()) ∧
      ∀ group ∈ request.keys, Check.keyGroup group = .ok () := by
  simp only [← Outcome.forM_eq_ok_iff, Check.request, Outcome.bind_eq_ok_iff]
  constructor
  · rintro ⟨_, selections, _, module, _, output, _, records, _, sets, keys⟩
    exact ⟨selections, module, output, records, sets, keys⟩
  · rintro ⟨selections, module, output, records, sets, keys⟩
    exact ⟨(), selections, (), module, (), output, (), records, (), sets, keys⟩

/-- A selection passes if it can be simplified and all of its choices are at locations that pass. -/
theorem Check.selection_eq_ok_iff {selection : Selection} : Check.selection selection = .ok () ↔
    ∃ choices, selection.simplify = .ok choices ∧
      ∀ choice ∈ choices, Check.location "selection" choice.location = .ok () := by
  rw [Check.selection]
  cases selection.simplify with
  | error e =>
    constructor
    · intro passed
      cases passed
    · intro simplified
      obtain ⟨_, found, -⟩ := simplified
      cases found
  | ok choices =>
    simp only [Outcome.forM_eq_ok_iff, Except.ok.injEq, exists_eq_left']

namespace Plan

variable {request request' : Request} {plan : Plan}

/-! ## The jobs of a request -/

theorem succeeds_allJobs_iff : Outcome.Succeeds (allJobs request) ↔
    Outcome.Succeeds (familyJobs request) ∧ Outcome.Succeeds (keyJobs request) := by
  rw [allJobs, Outcome.succeeds_bind_iff]
  simp only [Outcome.succeeds_bind_pure_iff, exists_and_right]
  rfl

theorem pairwise_allJobs {jobs : List Job} (h : allJobs request = .ok jobs) :
    jobs.Pairwise (Job.compare · · = .lt) := by
  obtain ⟨families, -, h⟩ := Outcome.bind_eq_ok_iff.1 h
  obtain ⟨keys, -, h⟩ := Outcome.bind_eq_ok_iff.1 h
  rw [← Outcome.pure_eq_ok_iff.1 h]
  exact Ordered.pairwise_sortedSet _

theorem Includes.numbered {job : Job} (included : Includes request job) :
    Numbered request job.task := by
  obtain requested | ⟨other, -, marks⟩ := included
  · exact requested.numbered
  · obtain ⟨_, -, rfl⟩ | ⟨_, -, rfl⟩ := mem_markerJobs_iff.1 marks <;> trivial

/-- Jobs of a plan are the same if neither comes before the other. -/
theorem Planned.eq_of_compare (planned : Planned request plan) {a b : Job} (member : a ∈ plan.jobs)
    (member' : b ∈ plan.jobs) (same : a.compare b = .eq) : a = b :=
  Job.eq_of_compare (planned.mem_jobs_iff.1 member).numbered
    (planned.mem_jobs_iff.1 member').numbered same

theorem checkPathsAfter_of_pairwise {seen entries : List (List FilePath.Component × Job)}
    (apart : entries.Pairwise fun a b => a.1 ≠ b.1)
    (unseen : ∀ entry ∈ entries, ∀ other ∈ seen, other.1 ≠ entry.1) :
    checkPathsAfter seen entries = .ok () := by
  induction entries generalizing seen with
  | nil => rfl
  | cons entry rest ih =>
    obtain ⟨differs, apart⟩ := List.pairwise_cons.1 apart
    obtain ⟨new, unseen⟩ := List.forall_mem_cons.1 unseen
    have found : seen.find? (fun other => other.1 == entry.1) = none :=
      List.find?_eq_none.2 fun other among => by simpa using new other among
    rw [checkPathsAfter, found]
    refine ih apart fun other member => List.forall_mem_cons.2 ⟨differs other member, ?_⟩
    exact unseen other member

/-! ## Jobs that correspond -/

/-- A correspondence of jobs that write one file. -/
structure Corresponding (R : Job → Job → Prop) : Prop where
  /-- Each job corresponds to itself. -/
  refl : ∀ job, R job job
  /-- The types of both jobs are marked alike. -/
  marks : ∀ {job other}, R other job → markerJobs other = markerJobs job
  /-- Both jobs write one file. -/
  path : ∀ {job other}, R other job → other.path = job.path

variable {R : Job → Job → Prop}

theorem Includes.exists_corresponding (corresponding : Corresponding R)
    (each : ∀ job, Requested request' job → ∃ other, Requested request other ∧ R other job)
    {job : Job} (included : Includes request' job) : ∃ other, Includes request other ∧ R other job := by
  obtain requested | ⟨marked, requested, member⟩ := included
  · obtain ⟨other, requested, related⟩ := each job requested
    exact ⟨other, .inl requested, related⟩
  · obtain ⟨other, requested, related⟩ := each marked requested
    exact ⟨job, .inr ⟨other, requested, corresponding.marks related ▸ member⟩,
      corresponding.refl job⟩

/-- Jobs write different files if they correspond to different ones that do. -/
theorem pairwise_paths_of_corresponding (corresponding : Corresponding R) {jobs jobs' : List Job}
    (apart : jobs.Pairwise fun a b => a.path.components ≠ b.path.components)
    (differ : jobs'.Nodup) (among : ∀ job ∈ jobs', ∃ other ∈ jobs, R other job)
    (once : ∀ {other a b}, R other a → R other b → a ∈ jobs' → b ∈ jobs' → a = b) :
    jobs'.Pairwise fun a b => a.path.components ≠ b.path.components := by
  refine List.Pairwise.imp_of_mem (fun {a b} member member' differ same => differ ?_) differ
  obtain ⟨first, inside, related⟩ := among a member
  obtain ⟨second, inside', related'⟩ := among b member'
  rw [← corresponding.path related, ← corresponding.path related'] at same
  have equal : first = second :=
    List.inj_on_of_nodup_map (List.pairwise_map.2 apart) inside inside' same
  exact once related (equal ▸ related') member member'

/-- A request is accepted if its parts pass their checks and its jobs correspond to those of a plan, no
two to the same one. -/
theorem Planned.accepts_corresponding (planned : Planned request plan)
    (corresponding : Corresponding R) (checked : Check.request request' = .ok ()) {jobs : List Job}
    (listed : allJobs request'.propagated = .ok jobs)
    (each : ∀ job, Requested request'.propagated job →
      ∃ other, Requested plan.request other ∧ R other job)
    (once : ∀ {other a b}, R other a → R other b → Includes request'.propagated a →
      Includes request'.propagated b → a = b) :
    ofRequest request' = .ok ⟨request'.propagated, jobs⟩ := by
  have members : ∀ job, job ∈ jobs ↔ Includes request'.propagated job :=
    fun job => mem_allJobs_iff listed
  have paths := pairwise_paths_of_corresponding corresponding planned.pairwise_paths
    (Ordered.nodup_of_pairwise (pairwise_allJobs listed))
    (fun job member => by
      obtain ⟨other, included, related⟩ :=
        ((members job).1 member).exists_corresponding corresponding each
      exact ⟨other, planned.mem_jobs_iff.2 included, related⟩)
    fun related related' member member' =>
      once related related' ((members _).1 member) ((members _).1 member')
  have apart : checkPaths jobs = .ok () :=
    checkPathsAfter_of_pairwise (List.pairwise_map.2 paths) fun _ _ _ none =>
      absurd none List.not_mem_nil
  rw [ofRequest, checked]
  refine Outcome.bind_eq_ok_iff.2 ⟨(), rfl, Outcome.bind_eq_ok_iff.2 ⟨jobs, listed, ?_⟩⟩
  exact Outcome.bind_eq_ok_iff.2 ⟨(), apart, rfl⟩

end Plan

end Slotwise
