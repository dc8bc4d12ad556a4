import Mathlib.Data.List.Nodup
import Slotwise.Optics.Shared
import Slotwise.Proofs.Outcome
/-!
# Shared fields

What is recorded about the fields of a variant set: one entry for each name, with every place where
the name occurs. As no variant has two fields of one name, the places of a name are at most one per
variant, in the order of variants (`occurrences_of_collect`).
-/

namespace Slotwise.Optics.SharedField

/-- The record of the fields that were `done`: one entry for each name, with all its places. -/
structure Gathered (done : List ((Nat × Nat) × Field)) (seen : List SharedField) : Prop where
  /-- No name has two entries. -/
  once : (seen.map SharedField.name).Nodup
  /-- An entry has all places of its name. -/
  occurrences : ∀ entry ∈ seen,
    entry.occurrences = (done.filter fun place => place.2.name == entry.name).map Prod.fst
  /-- Every name has an entry. -/
  complete : ∀ place ∈ done, ∃ entry ∈ seen, entry.name = place.2.name

/-- One more field goes to the entry of its name, or starts a new one. -/
theorem cases_of_note {owner : String} {place : Nat × Nat} {field : Field}
    {seen next : List SharedField} (h : note owner place field seen = .ok next) :
    (∃ (before : List SharedField) (entry : SharedField) (after : List SharedField),
      seen = before ++ entry :: after ∧ entry.name = field.name ∧
      sameType entry.type field.type = true ∧
      next = before ++ { entry with occurrences := entry.occurrences ++ [place] } :: after) ∨
    (∀ entry ∈ seen, entry.name ≠ field.name) ∧
      next = seen ++ [⟨field.name, field.type, [place]⟩] := by
  induction seen generalizing next with
  | nil =>
    cases h
    exact .inr ⟨by simp, rfl⟩
  | cons entry rest ih =>
    rw [note] at h
    split at h
    · next same =>
      split at h
      · next alike =>
        cases h
        exact .inl ⟨[], entry, rest, rfl, same, alike, rfl⟩
      · cases h
    · next different =>
      obtain ⟨later, found, h⟩ := Outcome.bind_eq_ok_iff.1 h
      cases Outcome.pure_eq_ok_iff.1 h
      obtain ⟨before, other, after, rfl, same, alike, rfl⟩ | ⟨absent, rfl⟩ := ih found
      · exact .inl ⟨entry :: before, other, after, rfl, same, alike, rfl⟩
      · exact .inr ⟨List.forall_mem_cons.2 ⟨different, absent⟩, rfl⟩

theorem Gathered.note {owner : String} {place : Nat × Nat} {field : Field}
    {done : List ((Nat × Nat) × Field)} {seen next : List SharedField}
    (gathered : Gathered done seen) (h : note owner place field seen = .ok next) :
    Gathered (done ++ [(place, field)]) next := by
  have others (entry : SharedField) (member : entry ∈ seen) (other : entry.name ≠ field.name) :
      entry.occurrences = ((done ++ [(place, field)]).filter fun place =>
        place.2.name == entry.name).map Prod.fst := by
    have apart : (field.name == entry.name) = false := beq_false_of_ne other.symm
    rw [List.filter_append, List.map_append, ← gathered.occurrences entry member]
    simp [apart]
  obtain ⟨before, entry, after, rfl, same, -, rfl⟩ | ⟨absent, rfl⟩ := cases_of_note h
  · have once := gathered.once
    rw [List.map_append, List.map_cons, List.nodup_middle, List.nodup_cons, ← List.map_append]
      at once
    refine ⟨by simpa using gathered.once, ?_, ?_⟩
    · intro other member
      rw [List.mem_append, List.mem_cons, or_left_comm, ← List.mem_append] at member
      rcases member with rfl | member
      · have own := gathered.occurrences entry (by simp)
        simp [List.filter_append, same, own]
      · refine others other ?_ ?_
        · rw [List.mem_append, List.mem_cons, or_left_comm, ← List.mem_append]
          exact .inr member
        · intro equal
          exact once.1 (List.mem_map.2 ⟨other, member, equal.trans same.symm⟩)
    · intro spot member
      rcases List.mem_append.1 member with member | member
      · obtain ⟨found, inside, name⟩ := gathered.complete spot member
        rw [List.mem_append, List.mem_cons, or_left_comm, ← List.mem_append] at inside
        rcases inside with rfl | inside
        · exact ⟨_, List.mem_append_right _ List.mem_cons_self, name⟩
        · refine ⟨found, ?_, name⟩
          rw [List.mem_append, List.mem_cons, or_left_comm, ← List.mem_append]
          exact .inr inside
      · cases List.mem_singleton.1 member
        exact ⟨_, List.mem_append_right _ List.mem_cons_self, same⟩
  · refine ⟨?_, ?_, ?_⟩
    · rw [List.map_append, List.nodup_append]
      refine ⟨gathered.once, by simp, ?_⟩
      rintro name member _ new rfl
      obtain ⟨entry, inside, rfl⟩ := List.mem_map.1 member
      exact absent entry inside (by simpa using new)
    · intro entry member
      rcases List.mem_append.1 member with member | member
      · exact others entry member (absent entry member)
      · cases List.mem_singleton.1 member
        have fresh : done.filter (fun place => place.2.name == field.name) = [] := by
          rw [List.filter_eq_nil_iff]
          intro spot inside equal
          obtain ⟨entry, known, name⟩ := gathered.complete spot inside
          exact absent entry known (name.trans (by simpa using equal))
        simp [List.filter_append, fresh]
    · intro spot member
      rcases List.mem_append.1 member with member | member
      · obtain ⟨entry, inside, name⟩ := gathered.complete spot member
        exact ⟨entry, List.mem_append_left _ inside, name⟩
      · cases List.mem_singleton.1 member
        exact ⟨_, List.mem_append_right _ List.mem_cons_self, rfl⟩

theorem Gathered.foldlM {owner : String} {places done : List ((Nat × Nat) × Field)}
    {seen result : List SharedField} (gathered : Gathered done seen)
    (h : places.foldlM (fun seen (place, field) => SharedField.note owner place field seen) seen =
      .ok result) :
    Gathered (done ++ places) result := by
  induction places generalizing done seen with
  | nil =>
    cases h
    rwa [List.append_nil]
  | cons place rest ih =>
    rw [List.foldlM_cons] at h
    obtain ⟨next, noted, h⟩ := Outcome.bind_eq_ok_iff.1 h
    rw [List.append_cons]
    exact ih (gathered.note noted) h

theorem gathered_of_collectAll {set : VariantSet} {all : List SharedField}
    (h : collectAll set = .ok all) : Gathered (places set) all := by
  have start : Gathered [] [] := ⟨List.nodup_nil, by simp, by simp⟩
  exact start.foldlM h

/-- An entry has the type that its name has in some place. -/
theorem exists_type_of_foldlM {owner : String} {places : List ((Nat × Nat) × Field)}
    {seen result : List SharedField}
    (h : places.foldlM (fun seen (place, field) => SharedField.note owner place field seen) seen =
      .ok result) {entry : SharedField} (member : entry ∈ result) :
    (∃ other ∈ seen, other.type = entry.type) ∨
      ∃ place ∈ places, place.2.type = entry.type := by
  induction places generalizing seen with
  | nil =>
    cases h
    exact .inl ⟨entry, member, rfl⟩
  | cons place rest ih =>
    rw [List.foldlM_cons] at h
    obtain ⟨next, noted, h⟩ := Outcome.bind_eq_ok_iff.1 h
    obtain ⟨other, inside, same⟩ | ⟨later, inside, same⟩ := ih h
    · obtain ⟨before, kept, after, rfl, -, -, rfl⟩ | ⟨-, rfl⟩ := cases_of_note noted
      · rw [List.mem_append, List.mem_cons] at inside
        obtain inside | rfl | inside := inside
        · exact .inl ⟨other, List.mem_append_left _ inside, same⟩
        · exact .inl ⟨kept, by simp, same⟩
        · exact .inl ⟨other, by simp [inside], same⟩
      · obtain inside | new := List.mem_append.1 inside
        · exact .inl ⟨other, inside, same⟩
        · cases List.mem_singleton.1 new
          exact .inr ⟨place, List.mem_cons_self, same⟩
    · exact .inr ⟨later, List.mem_cons_of_mem _ inside, same⟩

theorem exists_type_of_collect {set : VariantSet} {collected : List SharedField}
    (h : collect set = .ok collected) {entry : SharedField} (member : entry ∈ collected) :
    ∃ variant ∈ set.variants, ∃ field ∈ variant.fields, field.type = entry.type := by
  obtain ⟨all, gathered, kept⟩ := Outcome.bind_eq_ok_iff.1 h
  rw [← Outcome.pure_eq_ok_iff.1 kept] at member
  obtain ⟨_, none, -⟩ | ⟨place, inside, same⟩ :=
    exists_type_of_foldlM gathered (List.mem_filter.1 member).1
  · cases none
  · obtain ⟨⟨variant, v⟩, among, inside⟩ := List.mem_flatMap.1 inside
    obtain ⟨⟨field, f⟩, spot, rfl⟩ := List.mem_map.1 inside
    exact ⟨variant, List.fst_mem_of_mem_zipIdx among, field, List.fst_mem_of_mem_zipIdx spot, same⟩

/-! ## The places of a name -/

/-- The place of a name in a variant with this number, if the variant has it. -/
def placeIn (name : String) (variant : Variant) (number : Nat) : Option (Nat × Nat) :=
  (variant.fields.findIdx? (·.name == name)).map fun index => (number, index + 1)

theorem filter_fields {fields : List Field} (once : (fields.map (·.name)).Nodup) (name : String)
    (number start : Nat) :
    (((fields.zipIdx start).map fun (field, f) => ((number, f + 1), field)).filter
        fun place => place.2.name == name).map Prod.fst =
      ((fields.findIdx? (·.name == name)).map fun index =>
        (number, start + index + 1)).toList := by
  induction fields generalizing start with
  | nil => rfl
  | cons field rest ih =>
    rw [List.map_cons, List.nodup_cons] at once
    by_cases same : field.name = name
    · have others : (((rest.zipIdx (start + 1)).map fun (field, f) =>
          ((number, f + 1), field)).filter fun place => place.2.name == name) = [] := by
        rw [List.filter_eq_nil_iff]
        intro place member equal
        obtain ⟨⟨other, f⟩, inside, rfl⟩ := List.mem_map.1 member
        have name : other.name = name := by simpa using equal
        exact once.1 (List.mem_map.2
          ⟨other, List.fst_mem_of_mem_zipIdx inside, name.trans same.symm⟩)
      simp [List.findIdx?_cons, same, others]
    · have step := ih once.2 (start + 1)
      simp only [List.zipIdx_cons, List.map_cons, List.findIdx?_cons, beq_false_of_ne same]
      rw [List.filter_cons_of_neg (by simpa using same), step]
      simp [Option.map_map, Function.comp_def, Nat.add_assoc, Nat.add_comm 1]

/-- The places of a name among all fields, where no variant has two fields of one name. -/
theorem filter_places {set : VariantSet}
    (once : ∀ variant ∈ set.variants, (variant.fields.map (·.name)).Nodup) (name : String) :
    ((places set).filter fun place => place.2.name == name).map Prod.fst =
      set.variants.zipIdx.filterMap fun (variant, v) => placeIn name variant (v + 1) := by
  rw [places, List.filter_flatMap, List.map_flatMap, List.filterMap_eq_flatMap_toList]
  apply List.flatMap_congr
  rintro ⟨variant, v⟩ member
  have fieldsOnce := once variant (List.fst_mem_of_mem_zipIdx member)
  simpa [placeIn] using filter_fields fieldsOnce name (v + 1) 0

/-- An entry has the place of its name in every variant that has the name, in the order of
variants. -/
theorem occurrences_of_collect {set : VariantSet} {collected : List SharedField}
    (h : collect set = .ok collected)
    (once : ∀ variant ∈ set.variants, (variant.fields.map (·.name)).Nodup)
    {entry : SharedField} (member : entry ∈ collected) :
    entry.occurrences =
      set.variants.zipIdx.filterMap fun (variant, v) => placeIn entry.name variant (v + 1) := by
  obtain ⟨all, found, h⟩ := Outcome.bind_eq_ok_iff.1 h
  cases Outcome.pure_eq_ok_iff.1 h
  rw [(gathered_of_collectAll found).occurrences entry (List.mem_of_mem_filter member),
    filter_places once]

theorem mem_occurrences_iff {set : VariantSet} {collected : List SharedField}
    (h : collect set = .ok collected)
    (once : ∀ variant ∈ set.variants, (variant.fields.map (·.name)).Nodup)
    {entry : SharedField} (member : entry ∈ collected) {place : Nat × Nat} :
    place ∈ entry.occurrences ↔
      ∃ variant v, set.variants[v]? = some variant ∧
        placeIn entry.name variant (v + 1) = some place := by
  rw [occurrences_of_collect h once member, List.mem_filterMap]
  simp only [Prod.exists, List.mk_mem_zipIdx_iff_getElem?]

/-- An entry has the places of all fields of its name. -/
theorem mem_occurrences_iff_field {set : VariantSet} {collected : List SharedField}
    (h : collect set = .ok collected) {entry : SharedField} (member : entry ∈ collected)
    {i j : Nat} :
    (i + 1, j + 1) ∈ entry.occurrences ↔
      ∃ variant field, set.variants[i]? = some variant ∧ variant.fields[j]? = some field ∧
        field.name = entry.name := by
  obtain ⟨all, found, h⟩ := Outcome.bind_eq_ok_iff.1 h
  cases Outcome.pure_eq_ok_iff.1 h
  rw [(gathered_of_collectAll found).occurrences entry (List.mem_of_mem_filter member)]
  simp only [places, List.mem_map, List.mem_filter, List.mem_flatMap, Prod.exists,
    List.mk_mem_zipIdx_iff_getElem?, Prod.mk.injEq, beq_iff_eq]
  constructor
  · rintro ⟨_, _, _, ⟨⟨variant, v, variantIs, field, f, fieldIs, ⟨rfl, rfl⟩, rfl⟩, name⟩, place⟩
    cases Nat.succ.inj place.1
    cases Nat.succ.inj place.2
    exact ⟨variant, field, variantIs, fieldIs, name⟩
  · rintro ⟨variant, field, variantIs, fieldIs, name⟩
    exact ⟨i + 1, j + 1, field, ⟨⟨variant, i, variantIs, field, j, fieldIs, ⟨rfl, rfl⟩, rfl⟩, name⟩,
      rfl, rfl⟩

/-- An entry covers a variant set if all variants have its name. -/
theorem covers_iff {set : VariantSet} {collected : List SharedField}
    (h : collect set = .ok collected)
    (once : ∀ variant ∈ set.variants, (variant.fields.map (·.name)).Nodup)
    {entry : SharedField} (member : entry ∈ collected) :
    entry.covers set.variants.length = true ↔
      ∀ variant v, set.variants[v]? = some variant →
        (placeIn entry.name variant (v + 1)).isSome := by
  rw [covers, beq_iff_eq, occurrences_of_collect h once member]
  have count : set.variants.length = set.variants.zipIdx.length := List.length_zipIdx.symm
  rw [count, List.filterMap_length_eq_length]
  simp only [Prod.forall, List.mk_mem_zipIdx_iff_getElem?]

end Slotwise.Optics.SharedField
