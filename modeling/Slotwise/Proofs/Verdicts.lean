import Slotwise.Proofs.Acceptance
import Slotwise.Proofs.Capabilities
import Slotwise.Proofs.KeyGroups
/-!
# Why a request is refused

A request that passed its check can still be refused for two reasons: declarations of one key group
disagree on the number of keys, or two jobs write one file. The check simplifies every selection
without the location that the request forces onto all of them, but planning simplifies them with it.
Both find the same faults, so no selection is refused after the check.

Main statement: a location can be forced onto a selection before or after it is simplified, and a
checked request has a plan unless its key groups or else its files are in conflict
(`checked_verdict`).
-/

namespace Slotwise.Plan

variable {request : Request} {jobs : List Job} {failure : Failure}

/-! ## Conflicts -/

/-- Two declarations of one key group have different numbers of keys. -/
def KeysConflict (request : Request) : Prop :=
  ∃ first ∈ request.keys, ∃ second ∈ request.keys, first.stem = second.stem ∧
    familyPlace request .keys first.location = familyPlace request .keys second.location ∧
    first.count ≠ second.count

/-- Two different jobs write one file. -/
def FilesClash (jobs : List Job) : Prop :=
  ∃ first ∈ jobs, ∃ second ∈ jobs, first ≠ second ∧
    first.path.components = second.path.components

theorem countsAgree_iff : CountsAgree request request.keys ↔ ¬KeysConflict request := by
  unfold CountsAgree KeysConflict
  simp only [identity, Prod.mk.injEq]
  constructor
  · intro agree conflict
    obtain ⟨first, member, second, member', stem, place, differ⟩ := conflict
    exact differ (agree second member' first member ⟨stem, place⟩)
  · intro free group member other member' same
    by_contra differ
    exact free ⟨other, member', group, member, same.1, same.2, differ⟩

/-- A group that is refused is one of two declarations that disagree, and the failure tells both
numbers. -/
theorem exists_of_keyJobsAfter_eq_error {known : List KeyGroup} {groups : List (KeyGroup × Nat)}
    (h : keyJobsAfter request (known.map (placed request)) groups = .error failure) :
    ∃ first ∈ known ++ groups.map (·.1), ∃ second ∈ groups.map (·.1),
      failure = .conflictingKeyGroup second.stem first.count second.count := by
  induction groups generalizing known with
  | nil => cases h
  | cons head rest ih =>
    obtain ⟨group, index⟩ := head
    rw [keyJobsAfter_cons] at h
    cases found : known.find? (fun other => identity request other = identity request group) with
    | some first =>
      rw [found] at h
      simp only at h
      split at h
      · obtain ⟨other, member, second, member', named⟩ := ih h
        refine ⟨other, ?_, second, List.mem_cons_of_mem _ member', named⟩
        simp only [List.map_cons, List.mem_append, List.mem_cons] at member ⊢
        exact member.imp_right .inr
      · cases h
        exact ⟨first, List.mem_append_left _ (List.mem_of_find?_eq_some found), group,
          List.mem_cons_self, rfl⟩
    | none =>
      rw [found] at h
      -- the group gets its job, so one behind it is refused
      obtain h | ⟨_, -, h⟩ := Outcome.bind_eq_error_iff.1 h
      · obtain ⟨other, member, second, member', named⟩ := ih h
        rw [List.append_assoc] at member
        exact ⟨other, member, second, List.mem_cons_of_mem _ member', named⟩
      · cases h

/-- The first of two jobs that write one file comes first in the failure. -/
theorem exists_of_checkPathsAfter_eq_error {seen entries : List (List FilePath.Component × Job)}
    (h : checkPathsAfter seen entries = .error failure) :
    ∃ first second, [first, second].Sublist (seen.reverse ++ entries) ∧ first.1 = second.1 ∧
      failure = .clashingFiles first.2.task.title second.2.task.title second.2.path.text := by
  induction entries generalizing seen with
  | nil => cases h
  | cons entry rest ih =>
    rw [checkPathsAfter] at h
    split at h
    · next first found =>
      cases h
      have member := List.mem_reverse.2 (List.mem_of_find?_eq_some found)
      have same := List.find?_some found
      have before : [(_, first)].Sublist seen.reverse := List.singleton_sublist.2 member
      have behind : [entry].Sublist (entry :: rest) := List.singleton_sublist.2 List.mem_cons_self
      exact ⟨_, entry, before.append behind, beq_iff_eq.1 same, rfl⟩
    · obtain ⟨first, second, both, rest⟩ := ih h
      rw [List.reverse_cons, List.append_assoc] at both
      exact ⟨first, second, both, rest⟩

theorem exists_of_checkPaths_eq_error (h : checkPaths jobs = .error failure) :
    ∃ first second, [first, second].Sublist jobs ∧
      first.path.components = second.path.components ∧
      failure = .clashingFiles first.task.title second.task.title second.path.text := by
  obtain ⟨a, b, both, same, named⟩ := exists_of_checkPathsAfter_eq_error h
  obtain ⟨pair, inside, shown⟩ := List.sublist_map_iff.1 both
  obtain ⟨first, rest, rfl, rfl, last⟩ := List.map_eq_cons_iff.1 shown.symm
  obtain ⟨second, rest, rfl, rfl, none⟩ := List.map_eq_cons_iff.1 last
  cases List.map_eq_nil_iff.1 none
  exact ⟨first, second, inside, same, named⟩

/-- Jobs in strict order pass just if no two of them write one file. -/
theorem checkPaths_eq_ok_iff (sorted : jobs.Pairwise (Job.compare · · = .lt)) :
    checkPaths jobs = .ok () ↔ ¬FilesClash jobs := by
  constructor
  · intro passed clash
    obtain ⟨first, member, second, member', differ, same⟩ := clash
    have apart := List.pairwise_map.1 (pairwise_of_checkPathsAfter passed).1
    exact differ (List.inj_on_of_nodup_map (List.pairwise_map.2 apart) member member' same)
  · intro free
    refine checkPathsAfter_of_pairwise (List.pairwise_map.2 ?_) fun _ _ _ none =>
      absurd none List.not_mem_nil
    have differ : jobs.Pairwise (· ≠ ·) := Ordered.nodup_of_pairwise sorted
    refine differ.imp_of_mem fun {first second} member member' differ same => ?_
    exact free ⟨first, member, second, member', differ, same⟩

/-! ## Checked requests -/

/-- After the check only the jobs and their files count. -/
theorem ofRequest_of_check (checked : Check.request request = .ok ()) :
    ofRequest request = do
      let jobs ← allJobs request.propagated
      checkPaths jobs
      return ⟨request.propagated, jobs⟩ := by
  rw [ofRequest, checked]
  rfl

theorem succeeds_familyJobs_of_check (checked : Check.request request = .ok ()) :
    Outcome.Succeeds (familyJobs request.propagated) := by
  have sound := (soundRequest_of_check checked).propagated
  refine succeeds_familyJobs_iff.2 fun selection member => ?_
  obtain ⟨choices, simplified, -⟩ := sound.selections selection member
  exact ⟨choices, simplified⟩

/-- Spreading serialization changes no key group and no place. -/
theorem keysConflict_propagated : KeysConflict request.propagated ↔ KeysConflict request := by
  rw [Propagation.sameFrame_propagated request]
  exact Iff.rfl

theorem exists_keyJobs (free : ¬KeysConflict request) : Outcome.Succeeds (keyJobs request) :=
  succeeds_keyJobs_iff.2 (countsAgree_iff.2 free)

/-- Key groups in conflict are refused before any file is looked at. -/
theorem ofRequest_of_keysConflict (checked : Check.request request = .ok ())
    (conflict : KeysConflict request) : ∃ stem first second,
      ofRequest request = .error (.conflictingKeyGroup stem first second) := by
  obtain ⟨families, listed⟩ := succeeds_familyJobs_of_check checked
  have refused : ¬Outcome.Succeeds (keyJobs request.propagated) := by
    rw [succeeds_keyJobs_iff, countsAgree_iff, keysConflict_propagated]
    exact not_not_intro conflict
  cases keys : keyJobs request.propagated with
  | ok kept => exact absurd ⟨kept, keys⟩ refused
  | error failure =>
    obtain ⟨first, -, second, -, rfl⟩ := @exists_of_keyJobsAfter_eq_error _ failure [] _ keys
    refine ⟨second.stem, first.count, second.count, ?_⟩
    have failed : allJobs request.propagated =
        .error (.conflictingKeyGroup second.stem first.count second.count) := by
      rw [allJobs, listed, keys]
      rfl
    rw [ofRequest_of_check checked, failed]
    rfl

/-- Where key groups agree, the jobs can be listed, and their files decide. -/
theorem ofRequest_of_keysAgree (checked : Check.request request = .ok ())
    (free : ¬KeysConflict request) : ∃ jobs, allJobs request.propagated = .ok jobs ∧
      (FilesClash jobs → ∃ first second path,
        ofRequest request = .error (.clashingFiles first second path)) ∧
      (¬FilesClash jobs → ofRequest request = .ok ⟨request.propagated, jobs⟩) := by
  obtain ⟨jobs, listed⟩ := succeeds_allJobs_iff.2 ⟨succeeds_familyJobs_of_check checked,
    exists_keyJobs (mt keysConflict_propagated.1 free)⟩
  have decides := checkPaths_eq_ok_iff (pairwise_allJobs listed)
  refine ⟨jobs, listed, ?_, ?_⟩ <;> rw [ofRequest_of_check checked, listed]
  · intro clash
    cases paths : checkPaths jobs with
    | ok _ => exact absurd clash (decides.1 paths)
    | error failure =>
      obtain ⟨first, second, -, -, rfl⟩ := exists_of_checkPaths_eq_error paths
      exact ⟨first.task.title, second.task.title, second.path.text,
        Outcome.bind_eq_error_iff.2 (.inr ⟨jobs, rfl,
          Outcome.bind_eq_error_iff.2 (.inl paths)⟩)⟩
  · intro apart
    exact Outcome.bind_eq_ok_iff.2 ⟨jobs, rfl, Outcome.bind_eq_ok_iff.2 ⟨(), decides.2 apart, rfl⟩⟩

/-- Key groups with different stems clash if their files are called alike and have the same place.
-/
theorem filesClash_of_keys (listed : allJobs request = .ok jobs) {first second : KeyGroup}
    (member : first ∈ request.keys) (member' : second ∈ request.keys)
    (differ : first.stem ≠ second.stem)
    (called : Naming.keysModule first.stem = Naming.keysModule second.stem)
    (same : familyPlace request .keys first.location = familyPlace request .keys second.location) :
    FilesClash jobs := by
  obtain ⟨kept, found⟩ := (succeeds_allJobs_iff.1 ⟨jobs, listed⟩).2
  -- each group has a job, perhaps that of an earlier declaration
  have planned {group : KeyGroup} (member : group ∈ request.keys) : ∃ job ∈ jobs,
      job.task.title = group.stem ∧ job.path =
        (familyPlace request .keys group.location).directory.push
          (Naming.keysModule group.stem ++ ".rs") := by
    obtain ⟨own, index, -, identical, inside⟩ := exists_keyJob found member
    obtain ⟨stem, place⟩ := Prod.mk.inj identical
    refine ⟨_, (mem_allJobs_iff listed).2 (.inl (.keys found inside)), stem, ?_⟩
    rw [← stem, ← place]
    rfl
  obtain ⟨job, inside, title, path⟩ := planned member
  obtain ⟨other, inside', title', path'⟩ := planned member'
  refine ⟨job, inside, other, inside', fun equal => differ ?_, ?_⟩
  · rw [← title, equal, title']
  · rw [path, path', same, called]

/-- Simplifying a selection with a location forced onto its nodes gives its choices with the
location forced onto each, and fails as the selection itself does. So a request that passed its
check is never refused for a selection. It is refused for its key groups just if two declarations of
one group have different numbers of keys; if none have, its jobs can be listed, and it is refused
for its files just if two jobs write one file. In every other case it has a plan of these jobs. -/
theorem checked_verdict :
    (∀ (forced : Location) (selection : Selection),
      (selection.modularize forced).simplify =
        selection.simplify.map fun choices =>
          Ordered.sortedSet Choice.compare (choices.map (·.overriddenBy forced))) ∧
    ∀ request : Request, Check.request request = .ok () →
      (∀ error, ofRequest request ≠ .error (.model error)) ∧
      ((∃ stem first second,
          ofRequest request = .error (.conflictingKeyGroup stem first second)) ↔
        KeysConflict request) ∧
      (¬KeysConflict request → ∃ jobs, allJobs request.propagated = .ok jobs ∧
        ((∃ first second path, ofRequest request = .error (.clashingFiles first second path)) ↔
          FilesClash jobs) ∧
        (ofRequest request = .ok ⟨request.propagated, jobs⟩ ↔ ¬FilesClash jobs)) := by
  refine ⟨Selection.simplify_modularize, fun request checked => ?_⟩
  by_cases conflict : KeysConflict request
  · obtain ⟨stem, first, second, refused⟩ := ofRequest_of_keysConflict checked conflict
    simp [refused, conflict]
  · obtain ⟨jobs, listed, clashes, accepted⟩ := ofRequest_of_keysAgree checked conflict
    by_cases clash : FilesClash jobs
    · obtain ⟨first, second, path, refused⟩ := clashes clash
      simp [refused, conflict, listed, clash]
    · simp [accepted clash, conflict, listed, clash]

/-- The request for one key of each of these stems. -/
def keyed (stems : List (String × Nat)) : Request :=
  { Request.empty with keys := stems.map fun (stem, count) => KeyGroup.new stem count }

/-- Stems that are the same need the same number of keys, and others need files that are called
differently. -/
theorem checked_verdict_keyed :
    Check.request (keyed [("New", 1), ("New", 2)]) = .ok () ∧
    (∃ stem first second, ofRequest (keyed [("New", 1), ("New", 2)]) =
      .error (.conflictingKeyGroup stem first second)) ∧
    Check.request (keyed [("New", 1), ("new", 1)]) = .ok () ∧
    ∃ first second path, ofRequest (keyed [("New", 1), ("new", 1)]) =
      .error (.clashingFiles first second path) := by
  have checked (groups : List (String × Nat)) (known : groups ∈ [[("New", 1), ("New", 2)],
      [("New", 1), ("new", 1)]]) : Check.request (keyed groups) = .ok () := by
    have works : ∀ groups ∈ [[("New", 1), ("New", 2)], [("New", 1), ("new", 1)]],
        (Check.request (keyed groups)).isOk = true := by decide +kernel
    obtain ⟨_, checked⟩ := Outcome.exists_of_isOk (works groups known)
    exact checked
  have torn := checked [("New", 1), ("New", 2)] (by simp)
  have alike := checked [("New", 1), ("new", 1)] (by simp)
  obtain ⟨-, torn_iff, -⟩ := checked_verdict.2 _ torn
  obtain ⟨-, alike_iff, decides⟩ := checked_verdict.2 _ alike
  refine ⟨torn, torn_iff.2 ?_, alike, ?_⟩
  · exact ⟨KeyGroup.new "New" 1, by simp [keyed], KeyGroup.new "New" 2, by simp [keyed], rfl, rfl,
      by decide⟩
  · have free : ¬KeysConflict (keyed [("New", 1), ("new", 1)]) := by
      rw [← countsAgree_iff]
      intro group member other member' same
      simp only [keyed, List.map_cons, List.map_nil, List.mem_cons, List.not_mem_nil, or_false]
        at member member'
      rcases member with rfl | rfl <;> rcases member' with rfl | rfl <;> rfl
    obtain ⟨jobs, listed, clashes_iff, -⟩ := decides free
    have first : KeyGroup.new "New" 1 ∈ (keyed [("New", 1), ("new", 1)]).keys :=
      List.mem_cons_self
    have second : KeyGroup.new "new" 1 ∈ (keyed [("New", 1), ("new", 1)]).keys :=
      List.mem_cons_of_mem _ List.mem_cons_self
    exact clashes_iff.2
      (filesClash_of_keys listed first second (by decide) (by decide +kernel) rfl)

end Slotwise.Plan
