import Slotwise.Proofs.Plan
/-!
# Key groups that are declared again

Two key groups are declarations of one group if they have the same stem and their files the same place.
Such groups need the same number of keys (`succeeds_keyJobs_iff`), and the one that was declared first
gets the job (`mem_keyJobs_iff`).
-/

namespace Slotwise.Plan

/-- What tells key groups apart: the stem, and the place of the file. -/
def identity (request : Request) (group : KeyGroup) : String × Place :=
  (group.stem, familyPlace request .keys group.location)

/-- The group with the place of its file. -/
def placed (request : Request) (group : KeyGroup) : KeyGroup × Place :=
  (group, familyPlace request .keys group.location)

variable {request : Request}

theorem keyJobsAfter_congr {other : Request} (output : other.output = request.output)
    (seen : List (KeyGroup × Place)) (groups : List (KeyGroup × Nat)) :
    keyJobsAfter other seen groups = keyJobsAfter request seen groups := by
  induction groups generalizing seen with
  | nil => rfl
  | cons head rest ih => simp only [keyJobsAfter, familyPlace, output, ih]

/-- The jobs of key groups depend on the groups and on the output alone. -/
theorem keyJobs_congr {other : Request} (output : other.output = request.output)
    (keys : other.keys = request.keys) : keyJobs other = keyJobs request := by
  rw [keyJobs, keyJobs, keys, keyJobsAfter_congr output]

/-- What the groups before it decide about a group. -/
theorem keyJobsAfter_cons (known : List KeyGroup) (group : KeyGroup) (index : Nat)
    (rest : List (KeyGroup × Nat)) :
    keyJobsAfter request (known.map (placed request)) ((group, index) :: rest) =
      match known.find? (fun other => identity request other = identity request group) with
      | some first =>
        if first.count = group.count then keyJobsAfter request (known.map (placed request)) rest
        else .error (.conflictingKeyGroup group.stem first.count group.count)
      | none => do
        return ⟨.keys index group, familyPlace request .keys group.location⟩ ::
          (← keyJobsAfter request ((known ++ [group]).map (placed request)) rest) := by
  have same : (fun other => other.1.stem == group.stem &&
      other.2 == familyPlace request .keys group.location) ∘ placed request =
        fun other => decide (identity request other = identity request group) := by
    funext other
    rw [Bool.eq_iff_iff]
    simp [placed, identity]
  rw [keyJobsAfter, List.find?_map, same]
  cases known.find? (fun other => identity request other = identity request group) with
  | some first => rfl
  | none => rw [List.map_append]; rfl

/-! ## Groups without conflicts -/

/-- Groups that are declared again have as many keys as before. -/
def CountsAgree (request : Request) (groups : List KeyGroup) : Prop :=
  ∀ group ∈ groups, ∀ other ∈ groups, identity request other = identity request group →
    other.count = group.count

theorem countsAgree_congr {groups others : List KeyGroup} (same : ∀ g, g ∈ groups ↔ g ∈ others) :
    CountsAgree request groups ↔ CountsAgree request others := by
  simp only [CountsAgree, same]

theorem countsAgree_cons_iff {groups : List KeyGroup} {first group : KeyGroup}
    (member : first ∈ groups) (same : identity request first = identity request group) :
    CountsAgree request (group :: groups) ↔
      first.count = group.count ∧ CountsAgree request groups := by
  constructor
  · intro agree
    refine ⟨agree group List.mem_cons_self first (List.mem_cons_of_mem _ member) same, ?_⟩
    exact fun a inside b inside' =>
      agree a (List.mem_cons_of_mem _ inside) b (List.mem_cons_of_mem _ inside')
  · rintro ⟨counts, agree⟩ a inside b inside' equal
    obtain rfl | old := List.mem_cons.1 inside <;> obtain rfl | old' := List.mem_cons.1 inside'
    · rfl
    · rw [← counts, agree first member b old' (equal.trans same.symm)]
    · rw [← counts, agree a old first member (same.trans equal)]
    · exact agree a old b old' equal

theorem succeeds_keyJobsAfter_iff {known : List KeyGroup} {groups : List (KeyGroup × Nat)}
    (once : (known.map (identity request)).Nodup) :
    Outcome.Succeeds (keyJobsAfter request (known.map (placed request)) groups) ↔
      CountsAgree request (known ++ groups.map (·.1)) := by
  induction groups generalizing known with
  | nil =>
    refine iff_of_true ⟨[], rfl⟩ fun group member other member' same => ?_
    rw [List.map_nil, List.append_nil] at member member'
    rw [List.inj_on_of_nodup_map once member' member same]
  | cons head rest ih =>
    obtain ⟨group, index⟩ := head
    rw [keyJobsAfter_cons]
    cases found : known.find? (fun other => identity request other = identity request group) with
    | some first =>
      have member : first ∈ known ++ rest.map (·.1) :=
        List.mem_append_left _ (List.mem_of_find?_eq_some found)
      have same : identity request first = identity request group := by
        simpa using List.find?_some found
      rw [List.map_cons, countsAgree_congr fun g => List.perm_middle.mem_iff,
        countsAgree_cons_iff member same, ← ih once]
      simp only
      split
      · next counts => rw [and_iff_right counts]
      · next differ => exact iff_of_false (fun ⟨_, fails⟩ => (by cases fails)) (differ ·.1)
    | none =>
      have new : ∀ other ∈ known, identity request other ≠ identity request group := by
        simpa using found
      have once : ((known ++ [group]).map (identity request)).Nodup := by
        rw [List.map_append, List.nodup_append]
        refine ⟨once, List.nodup_singleton _, fun a inside b single => ?_⟩
        obtain ⟨other, member, rfl⟩ := List.mem_map.1 inside
        rw [List.mem_singleton.1 single]
        exact new other member
      rw [Outcome.succeeds_bind_pure_iff, ih once, List.append_assoc]
      rfl

/-- The key groups of a request get jobs just if those that are declared again agree on the number of
keys. -/
theorem succeeds_keyJobs_iff :
    Outcome.Succeeds (keyJobs request) ↔ CountsAgree request request.keys := by
  have all := @succeeds_keyJobsAfter_iff request [] request.keys.zipIdx List.nodup_nil
  rwa [List.nil_append, List.zipIdx_map_fst] at all

/-! ## The jobs of key groups -/

theorem mem_keyJobsAfter_iff {known : List KeyGroup} {groups : List (KeyGroup × Nat)}
    {jobs : List Job}
    (h : keyJobsAfter request (known.map (placed request)) groups = .ok jobs) {job : Job} :
    job ∈ jobs ↔ ∃ group index,
      groups.find? (fun entry => identity request entry.1 = identity request group) =
        some (group, index) ∧
      (∀ other ∈ known, identity request other ≠ identity request group) ∧
      job = ⟨.keys index group, familyPlace request .keys group.location⟩ := by
  induction groups generalizing known jobs with
  | nil =>
    cases h
    simp
  | cons head rest ih =>
    obtain ⟨own, number⟩ := head
    rw [keyJobsAfter_cons] at h
    cases found : known.find? (fun other => identity request other = identity request own) with
    | some first =>
      have member := List.mem_of_find?_eq_some found
      have same : identity request first = identity request own := by
        simpa using List.find?_some found
      rw [found] at h
      simp only at h
      split at h
      · rw [ih h]
        -- a group that is known stands before no other
        refine exists₂_congr fun group index => ?_
        by_cases own_ : identity request own = identity request group
        · exact iff_of_false (fun ⟨_, new, _⟩ => new first member (same.trans own_))
            (fun ⟨_, new, _⟩ => new first member (same.trans own_))
        · rw [List.find?_cons_of_neg (by simpa using own_)]
      · cases h
    | none =>
      have new : ∀ other ∈ known, identity request other ≠ identity request own := by
        simpa using found
      rw [found] at h
      obtain ⟨others, tail, result⟩ := Outcome.bind_eq_ok_iff.1 h
      rw [← Outcome.pure_eq_ok_iff.1 result, List.mem_cons, ih tail]
      constructor
      · rintro (rfl | ⟨group, index, first, new', rfl⟩)
        · exact ⟨own, number, List.find?_cons_of_pos (by simp), new, rfl⟩
        · have differ := new' own (List.mem_append_right _ (List.mem_singleton_self _))
          refine ⟨group, index, ?_, fun other inside =>
            new' other (List.mem_append_left _ inside), rfl⟩
          rwa [List.find?_cons_of_neg (by simpa using differ)]
      · rintro ⟨group, index, first, new', rfl⟩
        by_cases own_ : identity request own = identity request group
        · rw [List.find?_cons_of_pos (by simpa using own_)] at first
          cases first
          exact .inl rfl
        · rw [List.find?_cons_of_neg (by simpa using own_)] at first
          refine .inr ⟨group, index, first, fun other inside => ?_, rfl⟩
          obtain inside | inside := List.mem_append.1 inside
          · exact new' other inside
          · rwa [List.mem_singleton.1 inside]

/-- A job for keys is that of a group with no other declaration before it. -/
theorem mem_keyJobs_iff {jobs : List Job} (h : keyJobs request = .ok jobs) {job : Job} :
    job ∈ jobs ↔ ∃ group index,
      request.keys.zipIdx.find? (fun entry => identity request entry.1 = identity request group) =
        some (group, index) ∧
      job = ⟨.keys index group, familyPlace request .keys group.location⟩ := by
  have all := @mem_keyJobsAfter_iff request [] request.keys.zipIdx jobs h job
  simpa using all

/-- A requested job for keys is one of a key group. -/
theorem Requested.exists_keyJobs {job : Job} (requested : Requested request job) {index : Nat}
    {group : KeyGroup} (task : job.task = .keys index group) :
    ∃ jobs, keyJobs request = .ok jobs ∧ job ∈ jobs := by
  cases requested with
  | product | sum => cases task
  | arithmetic _ _ among =>
    obtain ⟨width, -, -, rfl⟩ | rfl := mem_arithmeticJobs_iff.1 among <;> cases task
  | duality _ _ among =>
    simp only [dualityJobs, List.mem_cons, List.not_mem_nil, or_false] at among
    obtain rfl | rfl | rfl := among <;> cases task
  | evolvingProduct _ _ among =>
    simp only [evolvingProductJobs, List.mem_cons, List.not_mem_nil, or_false] at among
    obtain rfl | rfl := among <;> cases task
  | evolvingSum _ _ among =>
    simp only [evolvingSumJobs, List.mem_cons, List.not_mem_nil, or_false] at among
    obtain rfl | rfl | rfl := among <;> cases task
  | keys kept among => exact ⟨_, kept, among⟩
  | lens found among =>
    obtain ⟨-, rfl⟩ | rfl | rfl := mem_lensJobs_iff.1 among <;> cases task
  | prism found among =>
    obtain rfl | ⟨variant, -, -, rfl⟩ | rfl | rfl := mem_prismJobs_iff.1 among <;> cases task

theorem Includes.exists_keyJobs {job : Job} (included : Includes request job) {index : Nat}
    {group : KeyGroup} (task : job.task = .keys index group) :
    ∃ jobs, keyJobs request = .ok jobs ∧ job ∈ jobs := by
  obtain requested | ⟨other, -, marks⟩ := included
  · exact requested.exists_keyJobs task
  · obtain ⟨_, -, rfl⟩ | ⟨_, -, rfl⟩ := mem_markerJobs_iff.1 marks <;> cases task

/-- Every group has a job, perhaps that of an earlier declaration. -/
theorem exists_keyJob {jobs : List Job} (h : keyJobs request = .ok jobs) {group : KeyGroup}
    (member : group ∈ request.keys) :
    ∃ first index, first ∈ request.keys ∧ identity request first = identity request group ∧
      ⟨.keys index first, familyPlace request .keys first.location⟩ ∈ jobs := by
  obtain ⟨i, found⟩ := List.mem_iff_getElem?.1 member
  have listed : (group, i) ∈ request.keys.zipIdx := List.mem_zipIdx_iff_getElem?.2 found
  have some_ : (request.keys.zipIdx.find? fun entry =>
      identity request entry.1 = identity request group).isSome = true :=
    List.find?_isSome.2 ⟨_, listed, by simp⟩
  obtain ⟨⟨first, index⟩, found⟩ := Option.isSome_iff_exists.1 some_
  have same : identity request first = identity request group := by
    simpa using List.find?_some found
  refine ⟨first, index, ?_, same, (mem_keyJobs_iff h).2 ⟨first, index, ?_, rfl⟩⟩
  · exact List.mem_of_getElem? (List.mem_zipIdx_iff_getElem?.1 (List.mem_of_find?_eq_some found))
  · rw [same, found]

/-- Jobs for keys with one stem at one place are the same. -/
theorem eq_of_mem_keyJobs {jobs : List Job} (h : keyJobs request = .ok jobs) {job other : Job}
    (member : job ∈ jobs) (member' : other ∈ jobs) (stem : other.task.title = job.task.title)
    (place : other.place = job.place) : other = job := by
  obtain ⟨group, index, first, rfl⟩ := (mem_keyJobs_iff h).1 member
  obtain ⟨group', index', first', rfl⟩ := (mem_keyJobs_iff h).1 member'
  have same : identity request group' = identity request group := Prod.ext stem place
  rw [same, first] at first'
  cases first'
  rfl

end Slotwise.Plan
