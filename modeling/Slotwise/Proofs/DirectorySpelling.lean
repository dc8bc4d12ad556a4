import Mathlib.Data.List.Sort
import Slotwise.Proofs.Alike
/-!
# How directories are written

An index is named after its directory, and repeats the name in its documentation. Of several ways to
write the directory the first one counts, in the order of jobs. So plans that are alike give the same
artifacts if they write the directories of their indexes alike (`Alike.artifacts_eq`); the artifacts are
sorted in one way only, whatever the order of jobs was (`Planned.eq_of_mem_artifacts`).
-/

namespace Slotwise

/-! ## Sorting -/

namespace Ordered

section Insertion

variable {α : Type} {cmp : α → α → Ordering} [Std.TransCmp cmp]

theorem mem_insertFirst_iff {x y : α} {xs : List α} (sorted : xs.Pairwise (cmp · · = .lt)) :
    y ∈ insertFirst cmp x xs ↔ y = x ∨ y ∈ xs ∧ cmp x y ≠ .eq := by
  induction xs with
  | nil => simp [insertFirst]
  | cons z rest ih =>
    obtain ⟨above, sorted'⟩ := List.pairwise_cons.1 sorted
    rw [insertFirst]
    split
    · next less =>
      have differ : ∀ w ∈ z :: rest, cmp x w ≠ .eq := by
        refine List.forall_mem_cons.2 ⟨by rw [less]; exact Ordering.noConfusion, fun w member => ?_⟩
        rw [Std.TransCmp.lt_trans less (above w member)]
        exact Ordering.noConfusion
      rw [List.mem_cons]
      exact or_congr_right ⟨fun member => ⟨member, differ y member⟩, And.left⟩
    · next same =>
      have differ : ∀ w ∈ rest, cmp x w ≠ .eq := fun w member => by
        rw [Std.TransCmp.congr_left same, above w member]
        exact Ordering.noConfusion
      rw [List.mem_cons, List.mem_cons]
      refine or_congr_right ⟨fun member => ⟨.inr member, differ y member⟩, ?_⟩
      rintro ⟨rfl | member, unlike⟩
      · exact absurd same unlike
      · exact member
    · next greater =>
      rw [List.mem_cons, ih sorted', List.mem_cons]
      constructor
      · rintro (rfl | rfl | ⟨member, unlike⟩)
        · exact .inr ⟨.inl rfl, by rw [greater]; exact Ordering.noConfusion⟩
        · exact .inl rfl
        · exact .inr ⟨.inr member, unlike⟩
      · rintro (rfl | ⟨rfl | member, unlike⟩)
        · exact .inr (.inl rfl)
        · exact .inl rfl
        · exact .inr (.inr ⟨member, unlike⟩)

/-- The members of a sorted set are the first ones of those that equal them. -/
theorem mem_sortedSet_iff_find? {x : α} {xs : List α} :
    x ∈ sortedSet cmp xs ↔ xs.find? (cmp · x == .eq) = some x := by
  induction xs with
  | nil => simp [sortedSet_eq_foldr]
  | cons y rest ih =>
    rw [sortedSet_cons, mem_insertFirst_iff (pairwise_sortedSet rest), ih]
    by_cases same : cmp y x = .eq
    · rw [List.find?_cons_of_pos (by rw [same]; rfl), Option.some.injEq]
      exact ⟨fun h => (h.resolve_right fun ⟨_, unlike⟩ => unlike same).symm, fun equal => .inl equal.symm⟩
    · rw [List.find?_cons_of_neg (by simpa using same), and_iff_left same]
      refine or_iff_right fun equal => same ?_
      rw [equal]
      exact Std.ReflCmp.compare_self

/-- In strict order the first member with a value is one that no smaller member is like. -/
theorem findSome?_eq_some_iff_of_pairwise {β : Type} {f : α → Option β} {xs : List α} {b : β}
    (sorted : xs.Pairwise (cmp · · = .lt)) :
    xs.findSome? f = some b ↔
      ∃ x ∈ xs, f x = some b ∧ ∀ y ∈ xs, cmp y x = .lt → f y = none := by
  have irreflexive (x : α) : cmp x x ≠ .lt := by
    rw [show cmp x x = .eq from Std.ReflCmp.compare_self]
    exact Ordering.noConfusion
  constructor
  · intro found
    obtain ⟨before, x, after, rfl, value, none_⟩ := List.findSome?_eq_some_iff.1 found
    refine ⟨x, List.mem_append_right _ List.mem_cons_self, value, fun y member less => ?_⟩
    obtain among | among := List.mem_append.1 member
    · exact none_ y among
    · obtain rfl | among := List.mem_cons.1 among
      · exact absurd less (irreflexive y)
      · have above := (List.pairwise_cons.1 (List.pairwise_append.1 sorted).2.1).1 y among
        exact absurd (Std.TransCmp.lt_trans less above) (irreflexive y)
  · rintro ⟨x, member, value, none_⟩
    obtain ⟨before, after, rfl⟩ := List.append_of_mem member
    refine List.findSome?_eq_some_iff.2 ⟨before, x, after, rfl, value, fun y among => ?_⟩
    refine none_ y (List.mem_append_left _ among) ?_
    exact (List.pairwise_append.1 sorted).2.2 y among x List.mem_cons_self

end Insertion

section Keys

variable {α β : Type} [DecidableEq β] {key : α → β} {xs ys : List α}

theorem mem_iff_of_filter_eq (same : ∀ k, xs.filter (key · = k) = ys.filter (key · = k)) (x : α) :
    x ∈ xs ↔ x ∈ ys := by
  have each (zs : List α) : x ∈ zs ↔ x ∈ zs.filter (key · = key x) := by simp
  rw [each xs, each ys, same]

variable (key) in
/-- Sorted lists are the same if they have the same members of each key, in the same order. -/
theorem eq_of_filter_eq {le : α → α → Prop} (refl : ∀ a, le a a)
    (antisymm : ∀ a b, le a b → le b a → key a = key b) (sorted : xs.Pairwise le)
    (sorted' : ys.Pairwise le) (same : ∀ k, xs.filter (key · = k) = ys.filter (key · = k)) :
    xs = ys := by
  induction xs generalizing ys with
  | nil =>
    refine (List.eq_nil_iff_forall_not_mem.2 fun y member => ?_).symm
    exact List.not_mem_nil ((mem_iff_of_filter_eq same y).2 member)
  | cons x xs ih =>
    have members := mem_iff_of_filter_eq same
    cases ys with
    | nil => exact absurd ((members x).1 List.mem_cons_self) List.not_mem_nil
    | cons y ys =>
      obtain ⟨least, tail⟩ := List.pairwise_cons.1 sorted
      obtain ⟨least', tail'⟩ := List.pairwise_cons.1 sorted'
      -- both heads are least, so they have one key, and each is the first of it
      have keys : key y = key x := by
        refine antisymm y x ?_ ?_
        · obtain rfl | member := List.mem_cons.1 ((members x).1 List.mem_cons_self)
          · exact refl _
          · exact least' x member
        · obtain rfl | member := List.mem_cons.1 ((members y).2 List.mem_cons_self)
          · exact refl _
          · exact least y member
      have firsts := same (key x)
      rw [List.filter_cons_of_pos (by simp), List.filter_cons_of_pos (by simp [keys])] at firsts
      obtain ⟨rfl, -⟩ := List.cons.inj firsts
      have rest : ∀ k, xs.filter (key · = k) = ys.filter (key · = k) := by
        intro k
        have all := same k
        rw [List.filter_cons, List.filter_cons] at all
        split at all
        · exact (List.cons.inj all).2
        · exact all
      rw [ih tail tail' rest]

/-- What keeps lists in order that are part of another one keeps the order of members with one key. -/
theorem filter_of_sublists {le : α → α → Bool} (perm : ys.Perm xs)
    (kept : ∀ zs : List α, zs.Pairwise (fun a b => le a b = true) → zs.Sublist xs → zs.Sublist ys)
    (equal : ∀ a b, key a = key b → le a b) (k : β) :
    ys.filter (key · = k) = xs.filter (key · = k) := by
  have sorted : (xs.filter (key · = k)).Pairwise fun a b => le a b = true := by
    refine List.pairwise_of_forall_mem_list fun a member b member' => equal a b ?_
    rw [of_decide_eq_true (List.mem_filter.1 member).2, of_decide_eq_true (List.mem_filter.1 member').2]
  have part := (kept _ sorted List.filter_sublist).filter (key · = k)
  rw [List.filter_filter] at part
  simp only [Bool.and_self] at part
  exact (part.eq_of_length (perm.filter (key · = k)).length_eq.symm).symm

/-- Sorting keeps the order of members with one key. -/
theorem filter_mergeSort {le : α → α → Bool} (trans : ∀ a b c, le a b → le b c → le a c)
    (total : ∀ a b, le a b || le b a) (equal : ∀ a b, key a = key b → le a b) (k : β) :
    (xs.mergeSort le).filter (key · = k) = xs.filter (key · = k) :=
  filter_of_sublists (List.mergeSort_perm xs le)
    (fun _ => List.sublist_mergeSort trans total) equal k

variable (key) in
/-- Both ways of sorting agree where order and equality go by a key. -/
theorem mergeSort_eq_insertionSort {le : α → α → Bool} (trans : ∀ a b c, le a b → le b c → le a c)
    (total : ∀ a b, le a b || le b a) (antisymm : ∀ a b, le a b → le b a → key a = key b)
    (equal : ∀ a b, key a = key b → le a b) :
    xs.mergeSort le = xs.insertionSort fun a b => le a b = true := by
  have : IsTrans α fun a b => le a b = true := ⟨trans⟩
  have : Std.Total fun a b => le a b = true :=
    ⟨fun a b => by simpa [Bool.or_eq_true] using total a b⟩
  refine eq_of_filter_eq key (fun a => equal a a rfl) antisymm
    (List.pairwise_mergeSort trans total xs) (List.pairwise_insertionSort _ xs) fun k => ?_
  rw [filter_mergeSort trans total equal, filter_of_sublists (List.perm_insertionSort _ xs)
    (fun _ => List.sublist_insertionSort) equal]

end Keys

end Ordered

namespace Plan

variable {request request' : Request} {plan other : Plan} {artifacts artifacts' : List Artifact}

/-! ## The order of artifacts -/

theorem isLE_total (a b : FilePath) : (a.compare b).isLE || (b.compare a).isLE := by
  rw [show b.compare a = (a.compare b).swap from Std.OrientedCmp.eq_swap]
  cases a.compare b <;> rfl

theorem isLE_of_components {a b : FilePath} (same : a.components = b.components) :
    (a.compare b).isLE := by
  rw [FilePath.compare_eq_iff.2 same]
  rfl

theorem components_of_isLE {a b : FilePath} (less : (a.compare b).isLE)
    (greater : (b.compare a).isLE) : a.components = b.components :=
  FilePath.compare_eq_iff.1 (Std.OrientedCmp.isLE_antisymm less greater)

/-- The artifacts of a plan, sorted in a way that can be computed. -/
theorem artifacts_eq_insertionSort (plan : Plan) :
    plan.artifacts = do
      let files ← plan.jobs.mapM Job.artifact
      let indexes ← plan.indexes
      return (files ++ indexes).insertionSort fun a b => (a.path.compare b.path).isLE = true := by
  have sorts (xs : List Artifact) := @Ordered.mergeSort_eq_insertionSort Artifact _ _
    (·.path.components) xs (fun a b => (a.path.compare b.path).isLE)
    (fun _ _ _ => Std.TransCmp.isLE_trans) (fun _ _ => isLE_total _ _)
    (fun _ _ => components_of_isLE) fun _ _ => isLE_of_components
  simp only [artifacts, sorts]

/-- Lists whose members differ in a value have the same members with one value if they have the same
members. -/
theorem filter_congr_of_apart {α β : Type} [DecidableEq β] {value : α → β} {xs ys : List α}
    (apart : xs.Pairwise fun a b => value a ≠ value b)
    (apart' : ys.Pairwise fun a b => value a ≠ value b) (same : ∀ x, x ∈ xs ↔ x ∈ ys) (v : β) :
    xs.filter (value · = v) = ys.filter (value · = v) := by
  by_cases some_ : ∃ x ∈ xs, value x = v
  · obtain ⟨x, member, rfl⟩ := some_
    rw [filter_eq_singleton apart member, filter_eq_singleton apart' ((same x).1 member)]
  · push Not at some_
    rw [List.filter_eq_nil_iff.2 fun x member => by simpa using some_ x member,
      List.filter_eq_nil_iff.2 fun x member => by simpa using some_ x ((same x).2 member)]

/-- At each path the files of jobs come before the indexes. -/
theorem exists_filter_artifacts (made : plan.artifacts = .ok artifacts) :
    ∃ files indexes, plan.jobs.mapM Job.artifact = .ok files ∧ plan.indexes = .ok indexes ∧
      ∀ components, artifacts.filter (·.path.components = components) =
        files.filter (·.path.components = components) ++
          indexes.filter (·.path.components = components) := by
  obtain ⟨files, filesOk, h⟩ := Outcome.bind_eq_ok_iff.1 made
  obtain ⟨indexes, indexesOk, h⟩ := Outcome.bind_eq_ok_iff.1 h
  cases Outcome.pure_eq_ok_iff.1 h
  refine ⟨files, indexes, filesOk, indexesOk, fun components => ?_⟩
  rw [← List.filter_append]
  exact Ordered.filter_mergeSort (fun _ _ _ => Std.TransCmp.isLE_trans) (fun _ _ => isLE_total _ _)
    (fun _ _ => isLE_of_components) components

/-- Plans with the same artifacts have them in the same order. -/
theorem Planned.eq_of_mem_artifacts (planned : Planned request plan)
    (planned' : Planned request' other) (made : plan.artifacts = .ok artifacts)
    (made' : other.artifacts = .ok artifacts') (same : ∀ a, a ∈ artifacts' ↔ a ∈ artifacts) :
    artifacts' = artifacts := by
  obtain ⟨files, indexes, filesOk, indexesOk, each⟩ := exists_filter_artifacts made
  obtain ⟨files', indexes', filesOk', indexesOk', each'⟩ := exists_filter_artifacts made'
  obtain ⟨-, -, -, -, -, sorted⟩ := exists_files_of_artifacts made
  obtain ⟨-, -, -, -, -, sorted'⟩ := exists_files_of_artifacts made'
  have sameFiles : ∀ file, file ∈ files' ↔ file ∈ files := fun file => by
    rw [Outcome.mem_iff_of_mapM filesOk, Outcome.mem_iff_of_mapM filesOk', ← mem_files_iff made,
      ← mem_files_iff made', List.mem_filter, List.mem_filter, same]
  have sameIndexes : ∀ index, index ∈ indexes' ↔ index ∈ indexes := fun index => by
    rw [mem_indexes_iff indexesOk, mem_indexes_iff indexesOk', ← mem_indexArtifacts_iff made,
      ← mem_indexArtifacts_iff made', List.mem_filter, List.mem_filter, same]
  refine Ordered.eq_of_filter_eq (·.path.components) (fun _ => Std.ReflCmp.isLE_rfl)
    (fun _ _ => components_of_isLE) sorted' sorted fun components => ?_
  rw [each, each', filter_congr_of_apart (planned'.pairwise_files filesOk')
    (planned.pairwise_files filesOk) sameFiles, filter_congr_of_apart (pairwise_indexes indexesOk')
    (pairwise_indexes indexesOk) sameIndexes]

end Plan

/-! ## Spellings -/

/-- How a job writes a directory that its path leads through. -/
def Job.spelling? (job : Job) (directory : FilePath) : Option FilePath :=
  (job.indexed.map (·.1)).find? (·.same directory)

theorem Job.spelling?_shown (job : Job) : job.shown.spelling? = job.spelling? := by
  funext directory
  rw [spelling?, spelling?, indexed_shown]

namespace Plan

/-- How the first job of a plan writes a directory. -/
def spelling? (plan : Plan) (directory : FilePath) : Option FilePath :=
  plan.jobs.findSome? (·.spelling? directory)

variable {request request' : Request} {plan other : Plan} {artifacts artifacts' : List Artifact}

theorem spelling?_congr (plan : Plan) {a b : FilePath} (same : a.components = b.components) :
    plan.spelling? a = plan.spelling? b := by
  simp only [spelling?, Job.spelling?, FilePath.same, same]

/-- A directory is written as by a job that has none before it which leads there. -/
theorem Planned.spelling?_eq_some_iff (planned : Planned request plan) {directory written : FilePath} :
    plan.spelling? directory = some written ↔
      ∃ job ∈ plan.jobs, job.spelling? directory = some written ∧
        ∀ other ∈ plan.jobs, other.compare job = .lt → other.spelling? directory = none :=
  Ordered.findSome?_eq_some_iff_of_pairwise (pairwise_allJobs planned.jobs)

/-- A directory is indexed as the first job writes it. -/
theorem spelling?_of_indexedDirectory {indexed : IndexedDirectory}
    (member : indexed ∈ plan.indexedDirectories) :
    plan.spelling? indexed.directory = some indexed.directory := by
  obtain ⟨directory, among, rfl⟩ := List.mem_map.1 member
  have equals : (fun other : FilePath => other.compare directory == .eq) =
      fun other => other.same directory := by
    funext other
    rw [Bool.eq_iff_iff, beq_iff_eq, FilePath.compare_eq_iff, FilePath.same, beq_iff_eq]
  rw [Ordered.mem_sortedSet_iff_find?, equals, List.map_flatMap, List.find?_flatMap] at among
  exact among

/-- A directory that is to have an index has one under the spelling of the first job. -/
theorem Indexes.exists_spelled {directory : FilePath} (indexes : plan.Indexes directory) :
    ∃ indexed ∈ plan.directoriesToIndex, indexed.directory.components = directory.components ∧
      plan.spelling? directory = some indexed.directory := by
  obtain ⟨⟨module, leads⟩, wants⟩ := indexes
  obtain ⟨indexed, among, same⟩ := exists_directoryToIndex leads wants
  refine ⟨indexed, among, same, ?_⟩
  rw [← plan.spelling?_congr same]
  exact spelling?_of_indexedDirectory (List.mem_of_mem_filter among)

/-- Plans that are alike make the same index of a directory that both write in the same way. -/
theorem Alike.index_eq (alike : Alike plan other) {indexed indexed' : IndexedDirectory}
    (among : indexed ∈ plan.directoriesToIndex) (among' : indexed' ∈ other.directoriesToIndex)
    (same : indexed'.directory = indexed.directory) : other.index indexed' = plan.index indexed := by
  have root : other.isCrateRoot indexed.directory = plan.isCrateRoot indexed.directory := by
    rw [Bool.eq_iff_iff, isCrateRoot_iff, isCrateRoot_iff, alike.rootOfCrate_iff]
  have file (doc : String) :
      ModuleIndex.file doc indexed'.modules = ModuleIndex.file doc indexed.modules := by
    rw [ModuleIndex.file, ModuleIndex.file,
      Ordered.sortedTexts_congr (alike.mem_modules_iff among among' (by rw [same]))]
  simp only [index, same, root, file]

theorem Alike.mem_indexes (alike : Alike plan other)
    (spelled : ∀ directory, plan.Indexes directory →
      other.spelling? directory = plan.spelling? directory) {artifact : Artifact}
    (found : ∃ indexed ∈ plan.directoriesToIndex, plan.index indexed = .ok artifact) :
    ∃ indexed ∈ other.directoriesToIndex, other.index indexed = .ok artifact := by
  obtain ⟨indexed, among, found⟩ := found
  have indexes := indexes_of_directoryToIndex among
  obtain ⟨indexed', among', -, written'⟩ := (alike.indexes_iff.2 indexes).exists_spelled
  have written := spelling?_of_indexedDirectory (List.mem_of_mem_filter among)
  rw [spelled _ indexes, written, Option.some.injEq] at written'
  exact ⟨indexed', among', by rw [alike.index_eq among among' written'.symm, found]⟩

theorem name_of_index {indexed : IndexedDirectory} {artifact : Artifact}
    (h : plan.index indexed = .ok artifact) : artifact.name = indexed.directory.text := by
  rw [index] at h
  obtain ⟨code, -, h⟩ := Outcome.bind_eq_ok_iff.1 h
  obtain ⟨content, -, h⟩ := Outcome.bind_eq_ok_iff.1 h
  cases Outcome.pure_eq_ok_iff.1 h
  rfl

/-- The index of a directory is named as the first job writes the directory. -/
theorem Indexes.exists_named {directory : FilePath} (indexes : plan.Indexes directory)
    (made : plan.artifacts = .ok artifacts) (asked : plan.request.output.moduleIndex = true) :
    ∃ written artifact, plan.spelling? directory = some written ∧ artifact.name = written.text ∧
      indexesIn artifacts directory = [artifact] := by
  obtain ⟨indexed, among, same, spelled⟩ := indexes.exists_spelled
  obtain ⟨artifact, found⟩ :=
    succeeds_indexes_iff.1 (succeeds_artifacts_iff_each.1 ⟨artifacts, made⟩).2 asked indexed among
  refine ⟨_, artifact, spelled, name_of_index found, ?_⟩
  have index := (isIndex_of_index (List.mem_of_mem_filter among) found).congr same
  obtain ⟨single, only, -⟩ := exists_indexesIn_eq made asked indexes
  have member : artifact ∈ indexesIn artifacts directory :=
    mem_indexesIn_iff.2 ⟨(mem_artifacts_iff made).2 (.inr ⟨asked, indexed, among, found⟩),
      index.kind, index.dropLast_path⟩
  rw [only, List.mem_singleton] at member
  rw [only, member]

/-- Plans that are alike and write the directories of their indexes alike give the same artifacts. -/
theorem Alike.artifacts_eq (alike : Alike plan other) (planned : Planned request plan)
    (planned' : Planned request' other) (made : plan.artifacts = .ok artifacts)
    (made' : other.artifacts = .ok artifacts')
    (spelled : plan.request.output.moduleIndex = true → ∀ directory, plan.Indexes directory →
      other.spelling? directory = plan.spelling? directory) : artifacts' = artifacts := by
  refine planned.eq_of_mem_artifacts planned' made made' fun artifact => ?_
  rw [mem_artifacts_iff made, mem_artifacts_iff made', alike.output]
  refine or_congr (alike.exists_job_iff fun job => by rw [job.artifact_shown])
    (and_congr_right fun asked => ⟨?_, alike.mem_indexes (spelled asked)⟩)
  exact alike.symm.mem_indexes fun directory indexes =>
    (spelled asked directory (alike.indexes_iff.1 indexes)).symm

end Plan

end Slotwise
