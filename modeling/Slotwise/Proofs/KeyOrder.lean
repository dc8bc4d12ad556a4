import Slotwise.Proofs.DirectorySpelling
import Slotwise.Proofs.KeyGroups
/-!
# The order of key groups

Key groups can be given in any order, and a group that is declared again needs as many keys as before.
But the first declaration decides whether the keys can be serialized, and the first job that leads to a
directory decides how an index calls it. So the order counts where declarations of one group disagree
on serialization, or where key groups write the directory of an index in different ways.

Main statements: what does not depend on the order of key groups, and when nothing does
(`keys_permuted_iff`); and two orders of the same groups with different files (`not_keys_permuted`).
-/

namespace Slotwise

open Outcome

/-! ## Serialization of declarations -/

namespace Propagation

/-- Key groups have no part in the spreading of serialization. -/
theorem propagated_keys (request : Request) (keys : List KeyGroup) :
    ({ request with keys } : Request).propagated = { request.propagated with keys } := by
  refine @propagated_of_beside (fun request => { request with keys }) ?_ ?_ request rfl rfl rfl
  · intro request target
    cases target <;> rfl
  · intro request
    rfl

end Propagation

namespace Plan

variable {request : Request} {plan plan' : Plan} {keys : List KeyGroup} {artifacts : List Artifact}

/-! ## Declarations of one group -/

/-- The jobs are the same, or jobs for declarations of one key group. -/
inductive SameGroup (request : Request) : Job → Job → Prop where
  /-- The jobs are the same. -/
  | refl (job : Job) : SameGroup request job job
  /-- The jobs are for declarations of one key group. -/
  | keys {i j : Nat} {first group : KeyGroup} (member : first ∈ request.keys)
    (member' : group ∈ request.keys) (same : identity request first = identity request group) :
    SameGroup request ⟨.keys i first, familyPlace request .keys first.location⟩
      ⟨.keys j group, familyPlace request .keys group.location⟩

theorem fileModule_keys (index : Nat) (group : KeyGroup) :
    (Task.keys index group).fileModule = Naming.keysModule group.stem :=
  rfl

theorem SameGroup.path_eq {job other : Job} (same : SameGroup request other job) :
    other.path = job.path := by
  cases same with
  | refl => rfl
  | @keys i j first group _ _ same =>
    have stem : first.stem = group.stem := congrArg Prod.fst same
    have place : familyPlace request .keys first.location =
      familyPlace request .keys group.location := congrArg Prod.snd same
    rw [Job.path, Job.path, fileModule_keys, fileModule_keys, stem, place]

theorem corresponding_sameGroup (request : Request) : Corresponding (SameGroup request) where
  refl := .refl
  marks same := by cases same <;> rfl
  path := SameGroup.path_eq

/-- Declarations of one group agree on serialization. -/
def RepeatsAgree (request : Request) : Prop :=
  ∀ group ∈ request.keys, ∀ other ∈ request.keys,
    identity request other = identity request group → other.serializable = group.serializable

theorem SameGroup.shown_eq {job other : Job} (same : SameGroup request other job)
    (counts : CountsAgree request request.keys) (agree : RepeatsAgree request) :
    other.shown = job.shown := by
  cases same with
  | refl => rfl
  | @keys _ _ first group member member' same =>
    have count := counts group member' first member same
    have serializable := agree group member' first member same
    have stem : first.stem = group.stem := congrArg Prod.fst same
    have place : familyPlace request .keys first.location =
      familyPlace request .keys group.location := congrArg Prod.snd same
    simp only [Job.shown, Task.shown, place, stem, count, serializable]

/-- Only jobs for keys have others of one group. -/
theorem SameGroup.eq_or {job other : Job} (same : SameGroup request other job) :
    other = job ∨ ∃ i j first group, other.task = .keys i first ∧ job.task = .keys j group ∧
      group.stem = first.stem ∧ job.place = other.place := by
  cases same with
  | refl => exact .inl rfl
  | @keys i j first group _ _ same =>
    exact .inr ⟨i, j, first, group, rfl, rfl, (congrArg Prod.fst same).symm,
      (congrArg Prod.snd same).symm⟩

/-- A request has one job for each group. -/
theorem Includes.eq_of_keys {job other : Job} (included : Includes request job)
    (included' : Includes request other) {i j : Nat} {group first : KeyGroup}
    (task : job.task = .keys i group) (task' : other.task = .keys j first)
    (stem : first.stem = group.stem) (place : other.place = job.place) : other = job := by
  obtain ⟨jobs, kept, member⟩ := included.exists_keyJobs task
  obtain ⟨jobs', kept', member'⟩ := included'.exists_keyJobs task'
  cases kept.symm.trans kept'
  refine eq_of_mem_keyJobs kept member member' ?_ place
  rw [task, task']
  exact stem

theorem Includes.eq_of_sameGroup {frame : Request} {other job job' : Job}
    (same : SameGroup frame other job) (same' : SameGroup frame other job')
    (included : Includes request job) (included' : Includes request job') : job = job' := by
  obtain rfl | ⟨i, j, first, group, task, task', stem, place⟩ := same.eq_or <;>
    obtain rfl | ⟨i', j', first', group', task₂, task₂', stem', place'⟩ := same'.eq_or
  · rfl
  · exact (included.eq_of_keys included' task₂ task₂' stem' place').symm
  · exact included'.eq_of_keys included task task' stem place
  · cases task.symm.trans task₂
    exact included'.eq_of_keys included task₂' task' (stem.trans stem'.symm) (place.trans place'.symm)

/-- What is requested of key groups is requested of them in another order. -/
theorem Requested.rekeyed (kept : Succeeds (keyJobs request))
    (members : ∀ group, group ∈ keys → group ∈ request.keys) {job : Job}
    (requested : Requested { request with keys } job) :
    ∃ other, Requested request other ∧ SameGroup request other job := by
  cases requested with
  | product chosen member => exact ⟨_, .product chosen member, .refl _⟩
  | sum chosen member => exact ⟨_, .sum chosen member, .refl _⟩
  | arithmetic chosen member among => exact ⟨_, .arithmetic chosen member among, .refl _⟩
  | duality chosen member among => exact ⟨_, .duality chosen member among, .refl _⟩
  | evolvingProduct chosen member among => exact ⟨_, .evolvingProduct chosen member among, .refl _⟩
  | evolvingSum chosen member among => exact ⟨_, .evolvingSum chosen member among, .refl _⟩
  | keys kept' among =>
    obtain ⟨group, index, found, rfl⟩ := mem_keyJobs kept' among
    obtain ⟨jobs, kept⟩ := kept
    have member := members group (List.mem_of_getElem? found)
    obtain ⟨first, number, member', same, inside⟩ := exists_keyJob kept member
    exact ⟨_, .keys kept inside, .keys member' member same⟩
  | lens found among => exact ⟨_, .lens found among, .refl _⟩
  | prism found among => exact ⟨_, .prism found among, .refl _⟩

/-! ## Plans for another order -/

theorem Planned.keys_eq (planned : Planned request plan) : plan.request.keys = request.keys := by
  rw [planned.request_eq, Propagation.sameFrame_propagated]

/-- The groups of a plan can be listed in any order. -/
theorem Planned.succeeds_rekeyed (planned : Planned request plan) (perm : keys.Perm request.keys) :
    Succeeds (allJobs { plan.request with keys }) := by
  obtain ⟨families, kept⟩ := succeeds_allJobs_iff.1 (succeeds_of_eq planned.jobs)
  refine succeeds_allJobs_iff.2 ⟨families, succeeds_keyJobs_iff.2 ?_⟩
  have members : ∀ group, group ∈ keys ↔ group ∈ plan.request.keys := fun group => by
    rw [planned.keys_eq, perm.mem_iff]
  exact (countsAgree_congr members).2 (succeeds_keyJobs_iff.1 kept)

theorem Planned.requested_rekeyed (planned : Planned request plan) (perm : keys.Perm request.keys)
    {job : Job} (requested : Requested { plan.request with keys } job) :
    ∃ other, Requested plan.request other ∧ SameGroup plan.request other job := by
  have kept := (succeeds_allJobs_iff.1 (succeeds_of_eq planned.jobs)).2
  exact requested.rekeyed kept fun group member => planned.keys_eq ▸ perm.mem_iff.1 member

/-- Key groups in another order are accepted. -/
theorem Planned.exists_rekeyed (planned : Planned request plan) (perm : keys.Perm request.keys) :
    ∃ plan', ofRequest { request with keys } = .ok plan' := by
  have spread : ({ request with keys } : Request).propagated = { plan.request with keys } := by
    rw [Propagation.propagated_keys, planned.request_eq]
  have checked : Check.request { request with keys } = .ok () := by
    obtain ⟨selections, module, output, records, variantSets, groups⟩ :=
      Check.request_eq_ok_iff.1 planned.checked
    exact Check.request_eq_ok_iff.2 ⟨selections, module, output, records, variantSets,
      fun group member => groups group (perm.mem_iff.1 member)⟩
  obtain ⟨jobs, listed⟩ := planned.succeeds_rekeyed perm
  rw [← spread] at listed
  refine ⟨_, planned.accepts_corresponding (corresponding_sameGroup plan.request) checked listed
    (fun job requested => ?_) fun same same' => Includes.eq_of_sameGroup same same'⟩
  rw [spread] at requested
  exact planned.requested_rekeyed perm requested

/-- The jobs of key groups in another order are those of the same groups. -/
theorem Planned.exists_sameGroup (planned : Planned request plan)
    (planned' : Planned { request with keys } plan') (perm : keys.Perm request.keys) {job : Job}
    (member : job ∈ plan'.jobs) : ∃ other ∈ plan.jobs, SameGroup plan.request other job := by
  have included := planned'.mem_jobs_iff.1 member
  rw [planned'.request_eq, Propagation.propagated_keys, ← planned.request_eq] at included
  obtain ⟨other, included, same⟩ := included.exists_corresponding
    (corresponding_sameGroup plan.request) fun job => planned.requested_rekeyed perm
  exact ⟨other, planned.mem_jobs_iff.2 included, same⟩

theorem identity_congr {request other : Request} (output : other.output = request.output) :
    identity other = identity request := by
  funext group
  rw [identity, identity, familyPlace, familyPlace, output]

theorem RepeatsAgree.congr {request other : Request} (output : other.output = request.output)
    (keys : ∀ group, group ∈ other.keys ↔ group ∈ request.keys) (agree : RepeatsAgree request) :
    RepeatsAgree other := by
  unfold RepeatsAgree
  simp only [keys, identity_congr output]
  exact agree

theorem Planned.exists_shown (planned : Planned request plan)
    (planned' : Planned { request with keys } plan') (perm : keys.Perm request.keys)
    (agree : RepeatsAgree request) {job : Job} (member : job ∈ plan'.jobs) :
    ∃ other ∈ plan.jobs, other.shown = job.shown := by
  have kept := (succeeds_allJobs_iff.1 (succeeds_of_eq planned.jobs)).2
  obtain ⟨other, among, same⟩ := planned.exists_sameGroup planned' perm member
  refine ⟨other, among, same.shown_eq (succeeds_keyJobs_iff.1 kept) ?_⟩
  exact agree.congr planned.output_eq fun group => by rw [planned.keys_eq]

/-- Where declarations of one group agree on serialization, plans for both orders are alike. -/
theorem Planned.alike_rekeyed (planned : Planned request plan)
    (planned' : Planned { request with keys } plan') (perm : keys.Perm request.keys)
    (agree : RepeatsAgree request) : Alike plan plan' := by
  have agree' : RepeatsAgree { request with keys } :=
    @RepeatsAgree.congr request { request with keys } rfl (fun _ => perm.mem_iff) agree
  refine ⟨planned'.output_eq.trans planned.output_eq.symm, fun job => ?_⟩
  rw [List.mem_map, List.mem_map]
  constructor
  · rintro ⟨job, member, rfl⟩
    exact planned.exists_shown planned' perm agree member
  · rintro ⟨job, member, rfl⟩
    exact planned'.exists_shown planned perm.symm agree' member

/-- Jobs that are not for keys are the same for both orders. -/
theorem Planned.mem_rekeyed_iff (planned : Planned request plan)
    (planned' : Planned { request with keys } plan') (perm : keys.Perm request.keys) {job : Job}
    (rank : job.task.rank ≠ 8) : job ∈ plan'.jobs ↔ job ∈ plan.jobs := by
  have alone {frame : Request} {other : Job} (same : SameGroup frame other job) : other = job := by
    obtain rfl | ⟨_, _, _, group, _, task, _⟩ := same.eq_or
    · rfl
    · rw [task] at rank
      exact absurd rfl rank
  constructor <;> intro member
  · obtain ⟨other, among, same⟩ := planned.exists_sameGroup planned' perm member
    exact alone same ▸ among
  · obtain ⟨other, among, same⟩ := @Planned.exists_sameGroup { request with keys } plan' plan
      request.keys planned' planned perm.symm job member
    exact alone same ▸ among

/-! ## Spellings of directories -/

theorem Job.compare_of_rank {a b : Job} (less : a.task.rank < b.task.rank) : a.compare b = .lt := by
  rw [Job.compare, Nat.compare_eq_lt.2 less]
  rfl

theorem Job.not_before_self (job : Job) : job.compare job ≠ .lt := by
  rw [show job.compare job = .eq from Std.ReflCmp.compare_self]
  exact Ordering.noConfusion

theorem Job.rank_le_of_compare {a b : Job} (less : a.compare b = .lt) : a.task.rank ≤ b.task.rank := by
  by_contra greater
  rw [Job.compare, Nat.compare_eq_gt.2 (Nat.lt_of_not_le greater)] at less
  cases less

theorem Job.rank_shown (job : Job) : job.shown.task.rank = job.task.rank := by
  rcases job with ⟨task, place⟩
  cases task <;> rfl

/-- Where no job before the key groups leads to a directory that is to have an index, all key groups
that lead there write it in one way. -/
def SpelledAlike (plan : Plan) : Prop :=
  plan.request.output.moduleIndex = true → ∀ directory, plan.Wants directory →
    (∀ job ∈ plan.jobs, job.task.rank < 8 → job.spelling? directory = none) →
      ∀ first ∈ plan.jobs, ∀ second ∈ plan.jobs, first.task.rank = 8 → second.task.rank = 8 →
        ∀ a b, first.spelling? directory = some a → second.spelling? directory = some b → a = b

/-- The first job that leads to a directory is for no later task than those of a plan that is alike. -/
theorem Alike.rank_le (alike : Alike plan plan') {directory written : FilePath} {job job' : Job}
    (none_before : ∀ other ∈ plan.jobs, other.compare job = .lt → other.spelling? directory = none)
    (member : job' ∈ plan'.jobs) (spells : job'.spelling? directory = some written) :
    job.task.rank ≤ job'.task.rank := by
  obtain ⟨other, among, shown⟩ := alike.exists_shown member
  by_contra less
  have before : other.compare job = .lt := by
    refine Job.compare_of_rank ?_
    rw [← Job.rank_shown, shown, Job.rank_shown]
    exact Nat.lt_of_not_le less
  rw [← Job.spelling?_shown, ← shown, Job.spelling?_shown, none_before other among before] at spells
  cases spells

/-- Directories of indexes are written alike for both orders. -/
theorem Planned.spelling?_rekeyed (planned : Planned request plan)
    (planned' : Planned { request with keys } plan') (perm : keys.Perm request.keys)
    (agree : RepeatsAgree request) (alike_ : plan.SpelledAlike)
    (asked : plan.request.output.moduleIndex = true) {directory : FilePath}
    (indexes : plan.Indexes directory) : plan'.spelling? directory = plan.spelling? directory := by
  have alike := planned.alike_rekeyed planned' perm agree
  obtain ⟨indexed, -, -, written⟩ := indexes.exists_spelled
  obtain ⟨indexed', -, -, written'⟩ := (alike.indexes_iff.2 indexes).exists_spelled
  rw [written, written', Option.some.injEq]
  obtain ⟨job, member, spells, first⟩ := planned.spelling?_eq_some_iff.1 written
  obtain ⟨job', member', spells', first'⟩ := planned'.spelling?_eq_some_iff.1 written'
  have rank : job.task.rank = job'.task.rank :=
    Nat.le_antisymm (alike.rank_le first member' spells') (alike.symm.rank_le first' member spells)
  by_cases keys_ : job.task.rank = 8
  · -- both are jobs for keys, and no job before them leads to the directory
    obtain ⟨other, among, shown⟩ := alike.exists_shown member'
    refine (alike_ asked directory indexes.wants (fun before inside less => ?_) job member other among
      keys_ ?_ _ _ spells ?_).symm
    · exact first before inside (Job.compare_of_rank (keys_ ▸ less))
    · rw [← Job.rank_shown, shown, Job.rank_shown, ← rank, keys_]
    · rw [← Job.spelling?_shown, shown, Job.spelling?_shown, spells']
  · -- both jobs are in both plans, and neither comes before the other
    have inside := (planned.mem_rekeyed_iff planned' perm keys_).2 member
    have inside' := (planned.mem_rekeyed_iff planned' perm (rank ▸ keys_)).1 member'
    cases order : job.compare job' with
    | lt =>
      rw [first' job inside order] at spells
      cases spells
    | gt =>
      rw [first job' inside' (Std.OrientedCmp.lt_of_gt order)] at spells'
      cases spells'
    | eq =>
      rw [planned.eq_of_compare member inside' order, spells'] at spells
      exact Option.some.inj spells

/-! ## The group in front -/

/-- The code of a job's file at a path. -/
def CodeAt (plan : Plan) (path : FilePath) (file : Code.File) : Prop :=
  ∃ job ∈ plan.jobs, job.path = path ∧ job.code = .ok file

theorem Planned.codeAt_unique (planned : Planned request plan) {path : FilePath}
    {file other : Code.File} (code : plan.CodeAt path file) (code' : plan.CodeAt path other) :
    file = other := by
  obtain ⟨job, member, rfl, made⟩ := code
  obtain ⟨job', member', same, made'⟩ := code'
  have equal : job' = job := List.inj_on_of_nodup_map (List.pairwise_map.2 planned.pairwise_paths)
    member' member (congrArg FilePath.components same)
  rw [equal, made] at made'
  exact Except.ok.inj made'

/-- Plans that are alike have the same code at each path. -/
theorem Alike.codeAt_iff (alike : Alike plan plan') {path : FilePath} {file : Code.File} :
    plan'.CodeAt path file ↔ plan.CodeAt path file :=
  alike.exists_job_iff fun job => by rw [job.path_shown, job.code_shown]

/-- The first of all key groups has a job of its own. -/
theorem Planned.mem_front {group : KeyGroup} {rest : List KeyGroup}
    (planned : Planned { request with keys := group :: rest } plan) :
    ⟨.keys 0 group, familyPlace request .keys group.location⟩ ∈ plan.jobs := by
  obtain ⟨jobs, kept⟩ := (succeeds_allJobs_iff.1 (succeeds_of_eq planned.jobs)).2
  refine planned.mem_jobs_iff.2 (.inl (.keys kept ((mem_keyJobs_iff kept).2 ⟨group, 0, ?_, ?_⟩)))
  · rw [planned.keys_eq, List.zipIdx_cons]
    exact List.find?_cons_of_pos (by simp)
  · rw [familyPlace, familyPlace, planned.output_eq]

theorem Task.exists_keys {task : Task} (rank : task.rank = 8) : ∃ i group, task = .keys i group := by
  cases task with
  | keys i group => exact ⟨i, group, rfl⟩
  | _ => cases rank

/-- A job for keys is that of a key group. -/
theorem Planned.exists_group (planned : Planned request plan) {job : Job} (member : job ∈ plan.jobs)
    (rank : job.task.rank = 8) : ∃ i group, request.keys[i]? = some group ∧
      job = ⟨.keys i group, familyPlace request .keys group.location⟩ := by
  obtain ⟨i, group, task⟩ := Task.exists_keys rank
  obtain ⟨jobs, kept, among⟩ := (planned.mem_jobs_iff.1 member).exists_keyJobs task
  obtain ⟨group, i, found, rfl⟩ := mem_keyJobs kept among
  refine ⟨i, group, planned.keys_eq ▸ found, ?_⟩
  rw [familyPlace, familyPlace, planned.output_eq]

/-- No other job for keys comes before that of the first group. -/
theorem Planned.front_first {group : KeyGroup} {rest : List KeyGroup}
    (planned : Planned { request with keys := group :: rest } plan) {job : Job}
    (member : job ∈ plan.jobs) (rank : job.task.rank = 8) :
    job.compare ⟨.keys 0 group, familyPlace request .keys group.location⟩ ≠ .lt := by
  obtain ⟨i, other, found, rfl⟩ := planned.exists_group member rank
  cases i with
  | zero =>
    cases found
    exact Job.not_before_self _
  | succ i =>
    have later : Ord.compare (i + 1) 0 = .gt := Nat.compare_eq_gt.2 (Nat.succ_pos i)
    simp [Job.compare, Task.rank, Task.number?, later]

/-- Each group can be put in front. -/
theorem Planned.exists_front (planned : Planned request plan) {group : KeyGroup}
    (member : group ∈ request.keys) :
    ∃ rest plan', (group :: rest).Perm request.keys ∧
      ofRequest { request with keys := group :: rest } = .ok plan' := by
  have perm : (group :: request.keys.erase group).Perm request.keys :=
    (List.perm_cons_erase member).symm
  exact ⟨_, (planned.exists_rekeyed perm).imp fun plan' made => ⟨perm, made⟩⟩

/-! ## Equal artifacts -/

/-- Another order of the key groups changes nothing: the artifacts and the code at each path are the
same. -/
def OrderFree (request : Request) (plan : Plan) (artifacts : List Artifact) : Prop :=
  ∀ keys plan', keys.Perm request.keys → ofRequest { request with keys } = .ok plan' →
    plan'.artifacts = .ok artifacts ∧ ∀ path file, plan'.CodeAt path file ↔ plan.CodeAt path file

theorem Keys.length_items {group : KeyGroup} {place : Place} {file : Code.File}
    (made : Keys.file group place = .ok file) :
    file.items.length = if group.serializable then 7 else 4 := by
  obtain ⟨keyType, -, made⟩ := Outcome.bind_eq_ok_iff.1 made
  obtain ⟨indexType, -, made⟩ := Outcome.bind_eq_ok_iff.1 made
  cases Outcome.pure_eq_ok_iff.1 made
  cases group.serializable <;> rfl

/-- Where the order changes nothing, declarations of one group agree: each of them can be put first, and
then decides about the code. -/
theorem repeatsAgree_of_orderFree (planned : Planned request plan)
    (free : OrderFree request plan artifacts) : RepeatsAgree request := by
  have code : ∀ group ∈ request.keys, ∃ file,
      plan.CodeAt (Job.path ⟨.keys 0 group, familyPlace request .keys group.location⟩) file ∧
        file.items.length = if group.serializable then 7 else 4 := by
    intro group member
    obtain ⟨rest, plan', perm, ok⟩ := planned.exists_front member
    obtain ⟨made, same⟩ := free _ plan' perm ok
    have front := (planned_of_ofRequest ok).mem_front
    obtain ⟨artifact, -, found, -⟩ := exists_artifact_of_job made front
    obtain ⟨file, code, -⟩ := Outcome.bind_eq_ok_iff.1 found
    exact ⟨file, (same _ file).1 ⟨_, front, rfl, code⟩, Keys.length_items code⟩
  intro group member other member' same
  obtain ⟨file, at_, length⟩ := code group member
  obtain ⟨file', at_', length'⟩ := code other member'
  have path := (SameGroup.keys (i := 0) (j := 0) member' member same).path_eq
  rw [path] at at_'
  rw [planned.codeAt_unique at_' at_, length] at length'
  cases first : group.serializable <;> cases second : other.serializable <;>
    simp_all

/-- A job that leads to a directory has a module there. -/
theorem exists_leadsTo_of_spelling {job : Job} (member : job ∈ plan.jobs)
    {directory written : FilePath} (spells : job.spelling? directory = some written) :
    ∃ module, plan.LeadsTo directory module := by
  have equal : written.components = directory.components := by
    simpa [FilePath.same] using List.find?_some spells
  obtain ⟨entry, among, rfl⟩ := List.mem_map.1 (List.mem_of_find?_eq_some spells)
  obtain ⟨k, leads, same⟩ := Job.mem_indexed_iff.1 among
  exact ⟨entry.2, job, member, k, leads, same ▸ equal⟩

/-- Where the order changes nothing, a job for keys writes a directory like the index does, if no job
before the key groups leads there: its group can be put first. -/
theorem spelling?_of_orderFree (planned : Planned request plan) (made : plan.artifacts = .ok artifacts)
    (free : OrderFree request plan artifacts) (asked : plan.request.output.moduleIndex = true)
    {directory : FilePath} (wants : plan.Wants directory)
    (none_before : ∀ job ∈ plan.jobs, job.task.rank < 8 → job.spelling? directory = none)
    {job : Job} (member : job ∈ plan.jobs) (rank : job.task.rank = 8) {written : FilePath}
    (spells : job.spelling? directory = some written) : plan.spelling? directory = some written := by
  obtain ⟨i, group, listed, rfl⟩ := planned.exists_group member rank
  obtain ⟨rest, plan', perm, ok⟩ := planned.exists_front (List.mem_of_getElem? listed)
  have planned' := planned_of_ofRequest ok
  have alike := planned.alike_rekeyed planned' perm (repeatsAgree_of_orderFree planned free)
  have first : plan'.spelling? directory = some written := by
    refine planned'.spelling?_eq_some_iff.2 ⟨_, planned'.mem_front, spells, fun other inside less => ?_⟩
    have below : other.task.rank < 8 :=
      Nat.lt_of_le_of_ne (Job.rank_le_of_compare less) fun rank =>
        planned'.front_first inside rank less
    exact none_before other
      ((planned.mem_rekeyed_iff planned' perm (Nat.ne_of_lt below)).1 inside) below
  -- both plans have the index of the directory, under the name that each of them gives it
  have indexes : plan.Indexes directory := ⟨exists_leadsTo_of_spelling member spells, wants⟩
  obtain ⟨w, artifact, spelled, name, only⟩ := indexes.exists_named made asked
  obtain ⟨w', artifact', spelled', name', only'⟩ :=
    (alike.indexes_iff.2 indexes).exists_named (free _ plan' perm ok).1 (alike.output ▸ asked)
  rw [only, List.singleton_inj] at only'
  rw [spelled', Option.some.injEq] at first
  rw [spelled, ← first, Option.some.injEq, FilePath.mk.injEq, ← name, ← name', only']

/-- Where the order changes nothing, key groups write the directories of indexes alike. -/
theorem spelledAlike_of_orderFree (planned : Planned request plan)
    (made : plan.artifacts = .ok artifacts) (free : OrderFree request plan artifacts) :
    plan.SpelledAlike := by
  intro asked directory wants none_before first member second member' rank rank' a b spells spells'
  have one := spelling?_of_orderFree planned made free asked wants none_before member rank spells
  have other := spelling?_of_orderFree planned made free asked wants none_before member' rank' spells'
  exact Option.some.inj (one.symm.trans other)

/-- Key groups can be given in any order: each order is accepted. Where declarations of one group agree on
serialization, each order gives artifacts, and these are the same except for indexes. Nothing at all
changes with the order just if declarations of one group agree and key groups write the directories of
indexes alike. -/
theorem keys_permuted_iff (h : ofRequest request = .ok plan) (made : plan.artifacts = .ok artifacts) :
    (∀ keys, keys.Perm request.keys → ∃ plan', ofRequest { request with keys } = .ok plan') ∧
    (RepeatsAgree request → ∀ keys plan', keys.Perm request.keys →
      ofRequest { request with keys } = .ok plan' →
        ∃ artifacts', plan'.artifacts = .ok artifacts' ∧
          artifacts'.filter (·.kind ≠ .index) = artifacts.filter (·.kind ≠ .index)) ∧
    (OrderFree request plan artifacts ↔ RepeatsAgree request ∧ plan.SpelledAlike) := by
  have planned := planned_of_ofRequest h
  have executes (agree : RepeatsAgree request) (keys : List KeyGroup) (plan' : Plan)
      (perm : keys.Perm request.keys) (ok : ofRequest { request with keys } = .ok plan') :
      ∃ artifacts', plan'.artifacts = .ok artifacts' :=
    (planned.alike_rekeyed (planned_of_ofRequest ok) perm agree).succeeds_artifacts ⟨_, made⟩
  refine ⟨fun keys => planned.exists_rekeyed, fun agree keys plan' perm ok => ?_, fun free => ?_, ?_⟩
  · obtain ⟨artifacts', made'⟩ := executes agree keys plan' perm ok
    have planned' := planned_of_ofRequest ok
    exact ⟨artifacts', made', (planned.alike_rekeyed planned' perm agree).files_eq planned planned'
      made made'⟩
  · exact ⟨repeatsAgree_of_orderFree planned free, spelledAlike_of_orderFree planned made free⟩
  · rintro ⟨agree, spelled⟩ keys plan' perm ok
    obtain ⟨artifacts', made'⟩ := executes agree keys plan' perm ok
    have planned' := planned_of_ofRequest ok
    have alike := planned.alike_rekeyed planned' perm agree
    have same := alike.artifacts_eq planned planned' made made' fun asked directory =>
      planned.spelling?_rekeyed planned' perm agree spelled asked
    exact ⟨same ▸ made', fun path file => alike.codeAt_iff⟩

/-- A key group that is declared again, under the domain that it has anyway. -/
def declaredTwice : Request :=
  { keyBelow "New" "src" with
    output := ⟨"src", "", true, false⟩
    keys := [.new "New" 1, { KeyGroup.new "New" 1 with location := ⟨none, some "", none⟩ }] }

/-- Its plan. -/
def declaredTwicePlan : { plan : Plan // ofRequest declaredTwice = .ok plan ∧
    (plan.makes && plan.jobs.length = 1) = true } :=
  passing <| by
    simp only [makes_eq, ofRequest, allJobs, directoriesToIndex, indexedDirectories,
      managedDirectories, ModuleIndex.file, Ordered.sortedTexts, Ordered.sortedSet_eq_foldr]
    decide +kernel

/-- Either declaration can come first. -/
theorem keys_permuted_iff_declaredTwice :
    ∃ plan artifacts, ofRequest declaredTwice = .ok plan ∧ plan.artifacts = .ok artifacts ∧
      plan.jobs.length = 1 ∧ OrderFree declaredTwice plan artifacts := by
  obtain ⟨plan, planned, passed⟩ := declaredTwicePlan
  rw [Bool.and_eq_true, decide_eq_true_eq] at passed
  obtain ⟨makes_, single⟩ := passed
  obtain ⟨artifacts, made⟩ := exists_of_makes makes_
  refine ⟨plan, artifacts, planned, made, single, (keys_permuted_iff planned made).2.2.2 ⟨?_, ?_⟩⟩
  · intro group member other member' _
    simp only [declaredTwice, List.mem_cons, List.not_mem_nil, or_false] at member member'
    obtain rfl | rfl := member <;> obtain rfl | rfl := member' <;> rfl
  · obtain ⟨job, only⟩ := List.length_eq_one_iff.1 single
    intro _ directory _ _ first member second member' _ _ a b spells spells'
    rw [only, List.mem_singleton] at member member'
    rw [member] at spells
    rw [member'] at spells'
    exact Option.some.inj (spells.symm.trans spells')

/-- A key group that is declared again, with serialization this time. -/
def declaredApart : Request :=
  { keyBelow "New" "src" with keys := [.new "New" 1, (KeyGroup.new "New" 1).withSerialization] }

/-- Key groups in one directory that is written in two ways. -/
def writtenApart : Request :=
  { keyBelow "New" "src" with
    output := ⟨"src", "", true, false⟩
    keys := [.new "New" 1, { KeyGroup.new "Old" 1 with location := ⟨some "src//", none, none⟩ }] }

/-- The number of items of a file, if there is one. -/
def itemCount (code : Except Failure Code.File) : Nat :=
  match code with
  | .ok file => file.items.length
  | .error _ => 0

/-- The plan for the first request. Some file of the plan for its groups in reverse has a number of
items that no file has here. -/
def declaredApartPlan : { plan : Plan // ofRequest declaredApart = .ok plan ∧
    (passes (ofRequest { declaredApart with keys := declaredApart.keys.reverse }) fun plan' =>
      plan.makes && plan'.makes && plan'.jobs.any fun job =>
        plan.jobs.all fun other => itemCount other.code ≠ itemCount job.code) = true } :=
  passing <| by
    simp only [makes_eq, ofRequest, allJobs, directoriesToIndex, indexedDirectories,
      managedDirectories, ModuleIndex.file, Ordered.sortedTexts, Ordered.sortedSet_eq_foldr]
    decide +kernel

/-- The plan for the second request. Some directory that gets an index is written in a way that it is
not written in by the plan for its groups in reverse. -/
def writtenApartPlan : { plan : Plan // ofRequest writtenApart = .ok plan ∧
    (passes (ofRequest { writtenApart with keys := writtenApart.keys.reverse }) fun plan' =>
      plan.makes && plan.request.output.moduleIndex && plan.directoriesToIndex.any fun indexed =>
        plan'.directoriesToIndex.all fun other => other.directory ≠ indexed.directory) = true } :=
  passing <| by
    simp only [makes_eq, ofRequest, allJobs, directoriesToIndex, indexedDirectories,
      managedDirectories, ModuleIndex.file, Ordered.sortedTexts, Ordered.sortedSet_eq_foldr]
    decide +kernel

/-- Another order is accepted and gives artifacts, but these can be other ones: the code of a group that is
declared again follows the first declaration, and the name of an index the first group. -/
theorem not_keys_permuted :
    (∃ plan plan' artifacts artifacts', ofRequest declaredApart = .ok plan ∧
      plan.artifacts = .ok artifacts ∧
      ofRequest { declaredApart with keys := declaredApart.keys.reverse } = .ok plan' ∧
      plan'.artifacts = .ok artifacts' ∧
      ∃ path file, plan'.CodeAt path file ∧ ¬plan.CodeAt path file) ∧
    ∃ plan plan' artifacts artifacts', ofRequest writtenApart = .ok plan ∧
      plan.artifacts = .ok artifacts ∧
      ofRequest { writtenApart with keys := writtenApart.keys.reverse } = .ok plan' ∧
      plan'.artifacts = .ok artifacts' ∧ artifacts' ≠ artifacts := by
  constructor
  · obtain ⟨plan, planned, works⟩ := declaredApartPlan
    obtain ⟨plan', planned', works⟩ := exists_of_passes works
    simp only [Bool.and_eq_true, List.any_eq_true, List.all_eq_true, decide_eq_true_eq] at works
    obtain ⟨⟨makes_, makes'⟩, job, member, differs⟩ := works
    obtain ⟨artifacts, made⟩ := exists_of_makes makes_
    obtain ⟨artifacts', made'⟩ := exists_of_makes makes'
    obtain ⟨artifact, found⟩ := (succeeds_artifacts_iff_each.1 ⟨artifacts', made'⟩).1 job member
    obtain ⟨file, code, -⟩ := Outcome.bind_eq_ok_iff.1 found
    refine ⟨plan, plan', artifacts, artifacts', planned, made, planned', made', job.path, file,
      ⟨job, member, rfl, code⟩, ?_⟩
    rintro ⟨other, among, -, code'⟩
    exact differs other among (by rw [code, code'])
  · obtain ⟨plan, planned, works⟩ := writtenApartPlan
    obtain ⟨plan', planned', works⟩ := exists_of_passes works
    simp only [Bool.and_eq_true, List.any_eq_true, List.all_eq_true, decide_eq_true_eq] at works
    obtain ⟨⟨makes_, asked⟩, indexed, among, differs⟩ := works
    obtain ⟨artifacts, made⟩ := exists_of_makes makes_
    have agree : RepeatsAgree writtenApart := by
      intro group member other member' _
      simp only [writtenApart, List.mem_cons, List.not_mem_nil, or_false] at member member'
      obtain rfl | rfl := member <;> obtain rfl | rfl := member' <;> rfl
    obtain ⟨artifacts', made'⟩ := ((planned_of_ofRequest planned).alike_rekeyed
      (planned_of_ofRequest planned') (List.reverse_perm _) agree).succeeds_artifacts ⟨_, made⟩
    refine ⟨plan, plan', artifacts, artifacts', planned, made, planned', made', fun same => ?_⟩
    -- the index would be one of the other plan, whose directory has another name
    obtain ⟨index, found⟩ :=
      succeeds_indexes_iff.1 (succeeds_artifacts_iff_each.1 ⟨artifacts, made⟩).2 asked indexed among
    have inside := (mem_artifacts_iff made).2 (.inr ⟨asked, indexed, among, found⟩)
    rw [← same] at inside
    obtain ⟨-, other, among', found'⟩ := exists_index_of_mem made' inside (kind_of_index found)
    refine differs other among' ?_
    rw [FilePath.mk.injEq, ← name_of_index found, ← name_of_index found']

end Plan

end Slotwise
