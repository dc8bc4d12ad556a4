import Slotwise.Proofs.Checked
import Slotwise.Proofs.Prism
import Slotwise.Proofs.Slots
/-!
# Recurring fields

A field is shared if its name recurs among the variants of a set. All fields of one name must have
one type, and the earliest one with another type than the first of its name is what ends the
collection (`FirstClash`). Otherwise there is one shared field for each name of at least two
variants, in the order in which the names appear, with all its places. The setters of a shared field
have an arm for each of these places, so they are complete without a last arm that lets other
variants through exactly if no variant lacks the field (`Dispatches`).

Main statement: `collects`.
-/

namespace Slotwise.Code

open Naming

/-! ## Arms -/

/-- Whether an arm takes any value and gives it back. -/
def Node.passesThrough : Node → Bool
  | arm (capture [] name none) none body _ => body.names? == some [withoutRawMark name]
  | _ => false

/-- Whether an arm answers a value. -/
def Node.Answers {Data : Type} (owner : String) (value : Value Data) : Node → Prop
  | arm pattern none _ _ => ∃ bound, matchPattern owner pattern value = some (some bound)
  | _ => False

end Slotwise.Code

namespace Slotwise.Optics.SharedField

open Code Naming Prism

/-! ## Clashes of types -/

theorem sameType_iff {s t : TypeRef} :
    sameType s t = true ↔ Text.withoutBlanks s.name = Text.withoutBlanks t.name :=
  beq_iff_eq

/-- Fields of one name have one type. -/
def Agree (fields : List Field) : Prop :=
  ∀ f ∈ fields, ∀ g ∈ fields, f.name = g.name → sameType f.type g.type = true

/-- `field` is the earliest one whose type differs from that of the `first` one of its name. -/
def FirstClash (fields : List Field) (first field : Field) : Prop :=
  ∃ before after, fields = before ++ field :: after ∧ Agree before ∧
    before.find? (·.name == field.name) = some first ∧ sameType first.type field.type = false

variable {fields : List Field} {first field : Field}

theorem not_agree_iff :
    ¬ Agree fields ↔
      ∃ f ∈ fields, ∃ g ∈ fields, f.name = g.name ∧ sameType f.type g.type = false := by
  simp only [Agree, not_forall, Bool.not_eq_true, exists_prop]

theorem FirstClash.not_agree (clash : FirstClash fields first field) : ¬ Agree fields := by
  obtain ⟨before, after, rfl, -, found, apart⟩ := clash
  intro agree
  have same := agree first (List.mem_append_left _ (List.mem_of_find?_eq_some found)) field
    (by simp) (beq_iff_eq.1 (List.find?_some found :))
  exact Bool.false_ne_true (apart.symm.trans same)

theorem sameType_symm {s t : TypeRef} (h : sameType s t = true) : sameType t s = true :=
  sameType_iff.2 (sameType_iff.1 h).symm

theorem sameType_trans {s t u : TypeRef} (first : sameType s t = true)
    (second : sameType t u = true) : sameType s u = true :=
  sameType_iff.2 ((sameType_iff.1 first).trans (sameType_iff.1 second))

theorem Agree.append_singleton (agree : Agree fields)
    (others : ∀ f ∈ fields, f.name = field.name → sameType f.type field.type = true) :
    Agree (fields ++ [field]) := by
  intro f fMember g gMember same
  rw [List.mem_append, List.mem_singleton] at fMember gMember
  obtain earlier | rfl := fMember
  · obtain other | rfl := gMember
    · exact agree f earlier g other same
    · exact others f earlier same
  · obtain other | rfl := gMember
    · exact sameType_symm (others g other same.symm)
    · exact sameType_iff.2 rfl

/-- Fields that agree end before any clash. -/
theorem Agree.length_le {before after agreeing rest : List Field} (agree : Agree agreeing)
    (split : before ++ field :: after = agreeing ++ rest)
    (found : before.find? (·.name == field.name) = some first)
    (apart : sameType first.type field.type = false) : agreeing.length ≤ before.length := by
  by_contra longer
  have ends : (before ++ [field]).length ≤ agreeing.length := by
    rw [List.length_append, List.length_singleton]
    omega
  obtain ⟨mid, rfl⟩ : before ++ [field] <+: agreeing := by
    refine List.prefix_of_prefix_length_le ⟨after, ?_⟩ (List.prefix_append agreeing rest) ends
    rw [← split, List.append_assoc, List.singleton_append]
  rw [List.append_assoc, List.singleton_append] at agree
  have agreeBefore : Agree before := fun f fMember g gMember =>
    agree f (List.mem_append_left _ fMember) g (List.mem_append_left _ gMember)
  exact FirstClash.not_agree ⟨before, mid, rfl, agreeBefore, found, apart⟩ agree

/-- There is one earliest clash. -/
theorem FirstClash.eq {otherFirst otherField : Field} (clash : FirstClash fields first field)
    (other : FirstClash fields otherFirst otherField) :
    otherFirst = first ∧ otherField = field := by
  obtain ⟨before, after, split, agree, found, apart⟩ := clash
  obtain ⟨before', after', split', agree', found', apart'⟩ := other
  have both := split.symm.trans split'
  have lengths : before.length = before'.length :=
    Nat.le_antisymm (agree.length_le both.symm found' apart') (agree'.length_le both found apart)
  obtain ⟨rfl, same⟩ := List.append_inj both lengths
  cases same
  rw [found, Option.some.injEq] at found'
  exact ⟨found'.symm, rfl⟩

/-! ## The record of names and types -/

/-- What the entries record about the names and types of the fields that were `done`. -/
structure Recorded (done : List Field) (seen : List SharedField) : Prop where
  /-- There is one entry for each name, in the order in which the names appear. -/
  names : seen.map SharedField.name = (done.map (·.name)).eraseDups
  /-- An entry has the type of the first field of its name. -/
  types : ∀ entry ∈ seen, ∃ first, done.find? (·.name == entry.name) = some first ∧
    first.type = entry.type
  /-- Fields of one name have one type. -/
  agree : Agree done

theorem Recorded.mem_names {seen : List SharedField} (recorded : Recorded fields seen)
    {name : String} :
    (∃ entry ∈ seen, entry.name = name) ↔ ∃ f ∈ fields, f.name = name := by
  have names : name ∈ seen.map SharedField.name ↔ name ∈ fields.map (·.name) := by
    rw [recorded.names, List.mem_eraseDups]
  simpa only [List.mem_map] using names

theorem Recorded.find?_append {seen : List SharedField} (recorded : Recorded fields seen)
    (more : List Field) {entry : SharedField} (member : entry ∈ seen) :
    ∃ first, (fields ++ more).find? (·.name == entry.name) = some first ∧
      first.type = entry.type := by
  obtain ⟨first, found, type⟩ := recorded.types entry member
  refine ⟨first, ?_, type⟩
  rw [List.find?_append, found, Option.some_or]

theorem eraseDups_concat (names : List String) (name : String) :
    (names ++ [name]).eraseDups = names.eraseDups ++ if name ∈ names then [] else [name] := by
  rw [List.eraseDups_append]
  split
  · next known => simp [List.removeAll, known]
  · next unknown =>
    rw [List.removeAll, List.filter_cons_of_pos (by simpa using unknown)]
    rfl

/-- What is recorded stays true with one more field, whether its name is known or new. -/
theorem Recorded.note {owner : String} {place : Nat × Nat} {done : List Field} {field : Field}
    {seen next : List SharedField} (recorded : Recorded done seen)
    (h : note owner place field seen = .ok next) : Recorded (done ++ [field]) next := by
  obtain ⟨before, entry, after, rfl, same, alike, rfl⟩ | ⟨absent, rfl⟩ := cases_of_note h
  · have known : field.name ∈ done.map (·.name) := by
      obtain ⟨f, member, name⟩ := recorded.mem_names.1 ⟨entry, by simp, same⟩
      exact List.mem_map.2 ⟨f, member, name⟩
    -- the entry keeps its name and its type, and the new field has that type
    refine ⟨?_, ?_, ?_⟩
    · have names : (done ++ [field]).map (·.name) = done.map (·.name) ++ [field.name] :=
        List.map_append
      rw [names, eraseDups_concat, if_pos known, List.append_nil, ← recorded.names]
      simp
    · intro other member
      obtain inside | rfl | inside := (List.mem_append.1 member).imp_right List.mem_cons.1
      · exact recorded.find?_append _ (by simp [inside])
      · have here : entry ∈ before ++ entry :: after := by simp
        have found := recorded.find?_append [field] here
        exact found
      · exact recorded.find?_append _ (by simp [inside])
    · refine recorded.agree.append_singleton fun f member name => ?_
      obtain ⟨first, found, type⟩ := recorded.types entry (by simp)
      have firstName : first.name = entry.name := beq_iff_eq.1 (List.find?_some found :)
      have agree := recorded.agree f member first (List.mem_of_find?_eq_some found)
        (name.trans (same.symm.trans firstName.symm))
      exact sameType_trans agree (type ▸ alike)
  · have fresh : ∀ f ∈ done, f.name ≠ field.name := by
      intro f member name
      obtain ⟨entry, inside, same⟩ := recorded.mem_names.2 ⟨f, member, name⟩
      exact absent entry inside same
    have unknown : field.name ∉ done.map (·.name) := by
      simpa using fresh
    refine ⟨?_, ?_, ?_⟩
    · rw [List.map_append, List.map_append, List.map_singleton, List.map_singleton,
        eraseDups_concat, if_neg unknown, recorded.names]
    · intro entry member
      obtain inside | new := List.mem_append.1 member
      · exact recorded.find?_append _ inside
      · cases List.mem_singleton.1 new
        have none : done.find? (·.name == field.name) = none := by
          rw [List.find?_eq_none]
          intro f member
          simpa using fresh f member
        exact ⟨field, by simp [List.find?_append, none], rfl⟩
    · exact recorded.agree.append_singleton fun f member name => absurd name (fresh f member)

/-- A field that is refused has another type than the entry of its name. -/
theorem entry_of_note {owner : String} {place : Nat × Nat} {field : Field}
    {seen : List SharedField} {failure : Failure}
    (h : note owner place field seen = .error failure) :
    ∃ entry ∈ seen, entry.name = field.name ∧ sameType entry.type field.type = false ∧
      failure = .sharedTypeClash owner field.name entry.type.name field.type.name := by
  induction seen with
  | nil => cases h
  | cons entry rest ih =>
    rw [note] at h
    split at h
    · next same =>
      split at h
      · cases h
      · next apart =>
        cases h
        exact ⟨entry, List.mem_cons_self, same, Bool.eq_false_iff.2 apart, rfl⟩
    · obtain failed | ⟨_, -, kept⟩ := Outcome.bind_eq_error_iff.1 h
      · obtain ⟨found, member, refused⟩ := ih failed
        exact ⟨found, List.mem_cons_of_mem _ member, refused⟩
      · cases kept

section Folding

variable {owner : String} {places : List ((Nat × Nat) × Field)} {done : List Field}
  {seen : List SharedField}

theorem Recorded.foldlM {result : List SharedField} (recorded : Recorded done seen)
    (h : places.foldlM (fun seen (place, field) => SharedField.note owner place field seen) seen =
      .ok result) :
    Recorded (done ++ places.map Prod.snd) result := by
  induction places generalizing done seen with
  | nil =>
    cases h
    rw [List.map_nil, List.append_nil]
    exact recorded
  | cons place rest ih =>
    rw [List.foldlM_cons] at h
    obtain ⟨next, noted, h⟩ := Outcome.bind_eq_ok_iff.1 h
    rw [List.map_cons, List.append_cons]
    exact ih (recorded.note noted) h

theorem Recorded.exists_firstClash {failure : Failure} (recorded : Recorded done seen)
    (h : places.foldlM (fun seen (place, field) => SharedField.note owner place field seen) seen =
      .error failure) :
    ∃ first field, FirstClash (done ++ places.map Prod.snd) first field ∧
      failure = .sharedTypeClash owner field.name first.type.name field.type.name := by
  induction places generalizing done seen with
  | nil => cases h
  | cons place rest ih =>
    rw [List.foldlM_cons] at h
    obtain refused | ⟨next, noted, h⟩ := Outcome.bind_eq_error_iff.1 h
    · obtain ⟨entry, member, name, apart, rfl⟩ := entry_of_note refused
      obtain ⟨first, found, type⟩ := recorded.types entry member
      refine ⟨first, place.2, ⟨done, rest.map Prod.snd, rfl, recorded.agree, ?_, ?_⟩, ?_⟩
      · rwa [name] at found
      · rwa [type]
      · rw [type]
    · rw [List.map_cons, List.append_cons]
      exact ih (recorded.note noted) h

end Folding

theorem map_snd_places (set : VariantSet) :
    (places set).map Prod.snd = Check.variantFields set := by
  rw [places, List.map_flatMap, Check.variantFields]
  conv_rhs => rw [← List.zipIdx_map_fst 0 set.variants, List.flatMap_map]
  refine List.flatMap_congr fun entry _ => ?_
  obtain ⟨variant, v⟩ := entry
  simp only [List.map_map]
  exact List.zipIdx_map_fst 0 variant.fields

theorem recorded_nil : Recorded [] [] :=
  ⟨rfl, by simp, by simp [Agree]⟩

theorem recorded_of_collectAll {set : VariantSet} {all : List SharedField}
    (h : collectAll set = .ok all) : Recorded (Check.variantFields set) all := by
  have recorded := recorded_nil.foldlM h
  rwa [List.nil_append, map_snd_places] at recorded

/-- The collection of shared fields fails with the earliest clash. -/
theorem collect_eq_error_iff {set : VariantSet} {failure : Failure} :
    collect set = .error failure ↔
      ∃ first field, FirstClash (Check.variantFields set) first field ∧
        failure = .sharedTypeClash set.name field.name first.type.name field.type.name := by
  have clashes {failure : Failure} (failed : collectAll set = .error failure) :
      ∃ first field, FirstClash (Check.variantFields set) first field ∧
        failure = .sharedTypeClash set.name field.name first.type.name field.type.name := by
    have clash := recorded_nil.exists_firstClash failed
    rwa [List.nil_append, map_snd_places] at clash
  have fails : collect set = .error failure ↔ collectAll set = .error failure := by
    rw [collect, Outcome.bind_eq_error_iff]
    refine or_iff_left ?_
    rintro ⟨_, -, kept⟩
    cases kept
  rw [fails]
  constructor
  · exact clashes
  · rintro ⟨first, field, clash, rfl⟩
    cases collected : collectAll set with
    | ok all => exact absurd (recorded_of_collectAll collected).agree clash.not_agree
    | error other =>
      obtain ⟨otherFirst, otherField, otherClash, rfl⟩ := clashes collected
      obtain ⟨rfl, rfl⟩ := clash.eq otherClash
      rfl

theorem recorded_of_collect {set : VariantSet} {collected : List SharedField}
    (h : collect set = .ok collected) :
    ∃ all, collectAll set = .ok all ∧ Recorded (Check.variantFields set) all ∧
      collected = all.filter fun entry => entry.occurrences.length ≥ 2 := by
  obtain ⟨all, gathered, kept⟩ := Outcome.bind_eq_ok_iff.1 h
  exact ⟨all, gathered, recorded_of_collectAll gathered, (Outcome.pure_eq_ok_iff.1 kept).symm⟩

theorem collect_fails_iff {set : VariantSet} :
    (∃ failure, collect set = .error failure) ↔ ¬ Agree (Check.variantFields set) := by
  constructor
  · rintro ⟨failure, failed⟩
    obtain ⟨first, field, clash, -⟩ := collect_eq_error_iff.1 failed
    exact clash.not_agree
  · intro differ
    cases collected : collect set with
    | error failure => exact ⟨failure, rfl⟩
    | ok shared =>
      obtain ⟨_, -, recorded, -⟩ := recorded_of_collect collected
      exact absurd recorded.agree differ

/-! ## The names that recur -/

/-- No variant has two fields of one name. -/
def DistinctFields (set : VariantSet) : Prop :=
  ∀ variant ∈ set.variants, (variant.fields.map (·.name)).Nodup

theorem nodup_of_fieldsAfter {owner : String} {seen : List String} {fields : List Field}
    (h : Check.fieldsAfter owner seen fields = .ok ()) :
    (fields.map (·.name)).Nodup ∧ ∀ f ∈ fields, f.name ∉ seen := by
  induction fields generalizing seen with
  | nil => simp
  | cons f rest ih =>
    obtain ⟨_, -, h⟩ := Outcome.bind_eq_ok_iff.1 h
    split at h
    · cases h
    · next fresh =>
      obtain ⟨once, apart⟩ := ih h
      refine ⟨?_, List.forall_mem_cons.2 ⟨by simpa using fresh, ?_⟩⟩
      · rw [List.map_cons, List.nodup_cons]
        refine ⟨fun repeated => ?_, once⟩
        obtain ⟨other, member, same⟩ := List.mem_map.1 repeated
        exact apart other member (same ▸ List.mem_cons_self)
      · intro other member known
        exact apart other member (List.mem_cons_of_mem _ known)

theorem distinctFields_of_variantSet {set : VariantSet} (h : Check.variantSet set = .ok ()) :
    DistinctFields set := by
  intro variant member
  obtain ⟨_, -, h⟩ := Outcome.bind_eq_ok_iff.1 h
  obtain ⟨_, -, h⟩ := Outcome.bind_eq_ok_iff.1 h
  obtain ⟨_, -, h⟩ := Outcome.bind_eq_ok_iff.1 h
  split at h
  · cases h
  obtain ⟨_, -, h⟩ := Outcome.bind_eq_ok_iff.1 h
  obtain ⟨_, -, h⟩ := Outcome.bind_eq_ok_iff.1 h
  obtain ⟨_, variants, -⟩ := Outcome.bind_eq_ok_iff.1 h
  obtain ⟨_, -, checked⟩ :=
    Outcome.bind_eq_ok_iff.1 (Outcome.forM_eq_ok_iff.1 variants variant member)
  obtain ⟨_, fields, -⟩ := Outcome.bind_eq_ok_iff.1 checked
  exact (nodup_of_fieldsAfter fields).1

/-- The number of variants with a field of a name. -/
def bearers (set : VariantSet) (name : String) : Nat :=
  set.variants.countP fun variant => variant.fields.any (·.name == name)

theorem isSome_placeIn {name : String} {variant : Variant} {number : Nat} :
    (placeIn name variant number).isSome = variant.fields.any (·.name == name) := by
  rw [placeIn, Option.isSome_map, List.findIdx?_isSome]

/-- The occurrences of a name are as many as the variants that have it. -/
theorem length_occurrences {set : VariantSet} (once : DistinctFields set)
    {all : List SharedField} (gathered : Gathered (places set) all) {entry : SharedField}
    (member : entry ∈ all) : entry.occurrences.length = bearers set entry.name := by
  have variants : set.variants.zipIdx.map Prod.fst = set.variants := List.zipIdx_map_fst _ _
  rw [gathered.occurrences entry member, filter_places once, List.length_filterMap_eq_countP,
    bearers]
  conv_rhs => rw [← variants, List.countP_map]
  exact List.countP_congr fun _ _ => by simp [isSome_placeIn]

theorem names_of_collect {set : VariantSet} (once : DistinctFields set)
    {collected : List SharedField} (h : collect set = .ok collected) :
    collected.map SharedField.name =
      ((Check.variantFields set).map (·.name)).eraseDups.filter fun name =>
        bearers set name ≥ 2 := by
  obtain ⟨all, gathered, recorded, rfl⟩ := recorded_of_collect h
  rw [← recorded.names, List.filter_map]
  congr 1
  refine List.filter_congr fun entry member => ?_
  rw [Function.comp_apply, length_occurrences once (gathered_of_collectAll gathered) member]

/-- The places of a name go from variant to variant. -/
theorem pairwise_occurrences {set : VariantSet} (once : DistinctFields set)
    {collected : List SharedField} (h : collect set = .ok collected) {entry : SharedField}
    (member : entry ∈ collected) :
    entry.occurrences.Pairwise fun earlier later => earlier.1 < later.1 := by
  rw [occurrences_of_collect h once member, List.pairwise_filterMap]
  have ascending : (set.variants.zipIdx.map Prod.snd).Pairwise (· < ·) := by
    rw [List.zipIdx_map_snd]
    exact List.pairwise_lt_range'
  refine (List.pairwise_map.1 ascending).imp ?_
  rintro ⟨variant, v⟩ ⟨other, w⟩ lt place placed place' placed'
  obtain ⟨_, -, rfl⟩ := Option.map_eq_some_iff.1 placed
  obtain ⟨_, -, rfl⟩ := Option.map_eq_some_iff.1 placed'
  exact Nat.succ_lt_succ lt

theorem covers_iff_forall {set : VariantSet} (once : DistinctFields set)
    {collected : List SharedField} (h : collect set = .ok collected) {entry : SharedField}
    (member : entry ∈ collected) :
    entry.covers set.variants.length = true ↔
      ∀ variant ∈ set.variants, ∃ field ∈ variant.fields, field.name = entry.name := by
  rw [covers_iff h once member]
  simp only [isSome_placeIn, List.any_eq_true, beq_iff_eq, List.mem_iff_getElem?]
  constructor
  · rintro all variant ⟨v, variantIs⟩
    exact all variant v variantIs
  · intro all variant v variantIs
    exact all variant ⟨v, variantIs⟩

theorem mem_occurrences_iff_exists {set : VariantSet} (once : DistinctFields set)
    {collected : List SharedField} (h : collect set = .ok collected) {entry : SharedField}
    (member : entry ∈ collected) {place : Nat × Nat} :
    place ∈ entry.occurrences ↔
      ∃ (i j : Nat) (variant : Variant) (field : Field), place = (i + 1, j + 1) ∧
        set.variants[i]? = some variant ∧ variant.fields[j]? = some field ∧
        field.name = entry.name := by
  constructor
  · intro inside
    obtain ⟨variant, v, variantIs, placed⟩ := (mem_occurrences_iff h once member).1 inside
    obtain ⟨j, -, rfl⟩ := Option.map_eq_some_iff.1 placed
    obtain ⟨variant, field, found⟩ := (mem_occurrences_iff_field h member).1 inside
    exact ⟨v, j, variant, field, rfl, found⟩
  · rintro ⟨i, j, variant, field, rfl, found⟩
    exact (mem_occurrences_iff_field h member).2 ⟨variant, field, found⟩

/-! ## The setters of shared fields -/

/-- How the setters of a shared field, methods of the type `owner`, tell apart the summands of a
set's setters. -/
structure Dispatches (set : VariantSet) (entry : SharedField) (owner : String)
    (arms : List Node) : Prop where
  /-- No summand has two arms. -/
  once : (arms.filterMap (Node.armCase? owner)).Nodup
  /-- The summands with an arm of their own are those of the variants that have the field. -/
  own : arms.filterMap (Node.armCase? owner) =
    entry.occurrences.map fun place => [sumType set.variants.length, summand place.1]
  /-- All other arms pass setters through. -/
  others : ∀ arm ∈ arms, arm.armCase? owner = none → arm.passesThrough = true
  /-- Every summand is answered, whatever is in it. -/
  exhaustive : ∀ {Data : Type} (variant : Nat) (setters : Value Data),
    1 ≤ variant → variant ≤ set.variants.length →
    ∃ arm ∈ arms, arm.Answers owner (inSummand set.variants.length variant setters)
  /-- An arm passes setters through exactly if some variant lacks the field. -/
  passes : (∃ arm ∈ arms, arm.passesThrough = true) ↔
    ∃ variant ∈ set.variants, ∀ field ∈ variant.fields, field.name ≠ entry.name

theorem armCase?_composeArm {set : VariantSet} {code : SetCode}
    (reads : Reads set code) (flavor : Flavor) (owner : String) (place : Nat × Nat)
    (type : Node) :
    (composeArm code flavor place.1 place.2 type).armCase? owner =
      some [sumType set.variants.length, summand place.1] := by
  have names : (composeArm code flavor place.1 place.2 type).armCase? owner =
      (Node.namedAlong [code.sum, summand place.1]).names?.map (Node.resolve owner) := rfl
  rw [names, names?_summand, Option.map_some, Node.resolve_sumType, reads.count]

/-- The arms of a method that edits a shared field. -/
def composingArms (code : SetCode) (flavor : Flavor) (entry : SharedField) (type : Node) :
    List Node :=
  entry.occurrences.map (fun (v, f) => composeArm code flavor v f type) ++
    if entry.covers code.count then [] else [otherArm]

section Composing

variable {set : VariantSet} {code : SetCode} (reads : Reads set code) {entry : SharedField}
  (flavor : Flavor) (owner : String) (type : Node)

include reads

theorem armCases_composing :
    (composingArms code flavor entry type).filterMap (Node.armCase? owner) =
      entry.occurrences.map fun place => [sumType set.variants.length, summand place.1] := by
  have own : (entry.occurrences.map fun (v, f) => composeArm code flavor v f type).filterMap
      (Node.armCase? owner) =
      entry.occurrences.map fun place => [sumType set.variants.length, summand place.1] :=
    filterMap_map_some (fun place => armCase?_composeArm reads flavor owner place type) _
  have rest : (if entry.covers code.count then [] else [otherArm]).filterMap
      (Node.armCase? owner) = [] := by
    split <;> rfl
  rw [composingArms, List.filterMap_append, own, rest, List.append_nil]

theorem passesThrough_composing {arm : Node} (inside : arm ∈ composingArms code flavor entry type)
    (none : arm.armCase? owner = none) : arm.passesThrough = true := by
  rcases List.mem_append.1 inside with inside | inside
  · obtain ⟨place, -, rfl⟩ := List.mem_map.1 inside
    rw [armCase?_composeArm reads] at none
    cases none
  · split at inside
    · cases inside
    · cases List.mem_singleton.1 inside
      rfl

variable (once : DistinctFields set) (member : entry ∈ code.shared)

include once member

theorem covers_composing : entry.covers code.count = true ↔
    ∀ variant ∈ set.variants, ∃ field ∈ variant.fields, field.name = entry.name := by
  rw [reads.count]
  exact covers_iff_forall once reads.shared member

theorem answers_composing {Data : Type} {variant : Nat} (setters : Value Data)
    (positive : 1 ≤ variant) (bound : variant ≤ set.variants.length) :
    ∃ arm ∈ composingArms code flavor entry type,
      arm.Answers owner (inSummand set.variants.length variant setters) := by
  by_cases covers : entry.covers code.count = true
  · -- the variant has the field, so it has an arm of its own
    have bound' : variant - 1 < set.variants.length := by omega
    obtain ⟨field, fieldMember, name⟩ :=
      (covers_composing reads once member).1 covers _ (List.getElem_mem bound')
    obtain ⟨j, fieldIs⟩ := List.mem_iff_getElem?.1 fieldMember
    have place := (mem_occurrences_iff_field reads.shared member).2
      ⟨_, field, List.getElem?_eq_getElem bound', fieldIs, name⟩
    refine ⟨_, List.mem_append_left _ (List.mem_map.2 ⟨_, place, rfl⟩), ?_⟩
    have number : variant - 1 + 1 = variant := by omega
    have fits := @matchPattern_inVariant Data owner code variant variant
      (.binding "setters") setters
    rw [if_pos rfl, matchPattern_binding, reads.count] at fits
    rw [number]
    exact ⟨_, fits⟩
  · refine ⟨otherArm, List.mem_append_right _ ?_, _, matchPattern_binding _ _⟩
    rw [if_neg covers]
    exact List.mem_singleton_self _

theorem passes_composing_iff :
    (∃ arm ∈ composingArms code flavor entry type, arm.passesThrough = true) ↔
      ∃ variant ∈ set.variants, ∀ field ∈ variant.fields, field.name ≠ entry.name := by
  have lacking : (∃ variant ∈ set.variants, ∀ field ∈ variant.fields,
      field.name ≠ entry.name) ↔ ¬ entry.covers code.count = true := by
    rw [covers_composing reads once member]
    simp only [not_forall, not_exists, not_and, exists_prop]
  rw [lacking]
  constructor
  · rintro ⟨arm, inside, passes⟩ covers
    rw [composingArms, if_pos covers, List.append_nil] at inside
    obtain ⟨place, -, rfl⟩ := List.mem_map.1 inside
    cases passes
  · intro uncovered
    refine ⟨otherArm, List.mem_append_right _ ?_, rfl⟩
    rw [if_neg uncovered]
    exact List.mem_singleton_self _

theorem dispatches_composing :
    Dispatches set entry owner (composingArms code flavor entry type) := by
  have own := @armCases_composing _ _ reads entry flavor owner type
  have apart : (entry.occurrences.map fun place =>
      [sumType set.variants.length, summand place.1]).Nodup := by
    refine List.pairwise_map.2 ((pairwise_occurrences once reads.shared member).imp ?_)
    intro earlier later lt same
    rw [List.cons.injEq, List.cons.injEq] at same
    exact Nat.ne_of_lt lt (summand_injective same.2.1)
  exact ⟨own ▸ apart, own, fun arm => passesThrough_composing reads flavor owner type,
    fun variant setters => answers_composing reads flavor owner type once member setters,
    passes_composing_iff reads flavor type once member⟩

end Composing

/-- A method edits a shared field: it is named for the field, and dispatches on the setters. -/
structure EditsShared (set : VariantSet) (entry : SharedField) (routine : Routine) : Prop where
  /-- The method is named for the field. -/
  name : emitted? (setter entry.name set.settersSuffix) = some routine.name
  /-- The method dispatches on the setters that it is given. -/
  body : ∃ arms, routine.body = [.choice .self arms] ∧ ∀ owner, Dispatches set entry owner arms

/-- The methods for shared fields come first among those of a set's setters. -/
theorem editsShared_of_file {set : VariantSet} (once : DistinctFields set)
    {shared : List SharedField} (collected : collect set = .ok shared) {around : Surroundings}
    {file : File} (h : Prism.file set around = .ok file) :
    ∃ type, emitted? set.name = some type ∧ ∀ flavor, ∃ methods others,
      file.traitMethodsOn (settersName type flavor) = methods ++ others ∧
      List.Forall₂ (EditsShared set) shared methods := by
  obtain ⟨code, ofSet, emits⟩ := emits_of_file h
  have reads := reads_of_ofSet ofSet
  have sharedIs : code.shared = shared :=
    Except.ok.inj (reads.shared.symm.trans collected)
  refine ⟨code.typeName, emitted?_of_identifier reads.name, fun flavor => ?_⟩
  obtain ⟨methods, variants, readsMethods, all⟩ := emits.setters flavor
  refine ⟨methods.map SetterMethod.routine, variants.flatten.map SetterMethod.routine, ?_, ?_⟩
  · rw [all, List.map_append]
  · rw [← sharedIs, List.forall₂_map_right_iff]
    have each := (List.forall₂_and_left _ _).2
      ⟨fun entry member => member, Outcome.mapM_eq_ok_iff.1 readsMethods.shared⟩
    refine each.imp fun entry method ⟨member, methodOk⟩ => ?_
    obtain ⟨named, type, body⟩ := sharedMethod_eq_ok methodOk
    exact ⟨named, _, congrArg (fun node => [node]) body,
      fun owner => dispatches_composing reads flavor owner type once member⟩

/-! ## The collection as a whole -/

/-- A shared field stands for all fields of its name. -/
structure StandsFor (set : VariantSet) (entry : SharedField) : Prop where
  /-- It has the type of the first of them. -/
  type : ∃ first, (Check.variantFields set).find? (·.name == entry.name) = some first ∧
    first.type = entry.type
  /-- Its occurrences go from variant to variant. -/
  ascending : entry.occurrences.Pairwise fun earlier later => earlier.1 < later.1
  /-- Its occurrences are the places of the fields, counted from 1. -/
  places : ∀ place, place ∈ entry.occurrences ↔
    ∃ i j variant field, place = (i + 1, j + 1) ∧ set.variants[i]? = some variant ∧
      variant.fields[j]? = some field ∧ field.name = entry.name
  /-- It covers the set exactly if every variant has such a field. -/
  covers : entry.covers set.variants.length = true ↔
    ∀ variant ∈ set.variants, ∃ field ∈ variant.fields, field.name = entry.name

/-- The shared fields of a set are those whose names recur. -/
structure Recur (set : VariantSet) (shared : List SharedField) : Prop where
  /-- There is one for each name of two variants or more, in the order in which names appear. -/
  names : shared.map SharedField.name =
    ((Check.variantFields set).map (·.name)).eraseDups.filter fun name => bearers set name ≥ 2
  /-- Each stands for all fields of its name. -/
  entries : ∀ entry ∈ shared, StandsFor set entry
  /-- The first methods of the setters are theirs, one for each. -/
  setters : ∀ around file, Prism.file set around = .ok file →
    ∃ type, emitted? set.name = some type ∧ ∀ flavor, ∃ methods others,
      file.traitMethodsOn (settersName type flavor) = methods ++ others ∧
      List.Forall₂ (EditsShared set) shared methods

/-- What becomes of the fields of a variant set. -/
structure Collects (set : VariantSet) : Prop where
  /-- The collection fails exactly if two fields of one name have different types. -/
  fails : (∃ failure, collect set = .error failure) ↔
    ∃ f ∈ Check.variantFields set, ∃ g ∈ Check.variantFields set,
      f.name = g.name ∧ sameType f.type g.type = false
  /-- A failure reports both types of the earliest clash. -/
  reports : ∀ failure, collect set = .error failure ↔
    ∃ first field, FirstClash (Check.variantFields set) first field ∧
      failure = .sharedTypeClash set.name field.name first.type.name field.type.name
  /-- Without such a clash the fields that recur are shared. -/
  shares : Agree (Check.variantFields set) → DistinctFields set →
    ∃ shared, collect set = .ok shared ∧ Recur set shared
  /-- A set that passes its check has no variant with two fields of one name. -/
  distinct : Check.variantSet set = .ok () → DistinctFields set

theorem recur_of_collect {set : VariantSet} (once : DistinctFields set)
    {shared : List SharedField} (h : collect set = .ok shared) : Recur set shared := by
  refine ⟨names_of_collect once h, fun entry member => ?_,
    fun around file emitted => editsShared_of_file once h emitted⟩
  refine ⟨?_, pairwise_occurrences once h member,
    fun place => mem_occurrences_iff_exists once h member, covers_iff_forall once h member⟩
  obtain ⟨all, -, recorded, rfl⟩ := recorded_of_collect h
  exact recorded.types entry (List.mem_of_mem_filter member)

/-- The shared fields of a variant set are exactly those that recur. -/
theorem collects (set : VariantSet) : Collects set := by
  refine ⟨collect_fails_iff.trans not_agree_iff, fun failure => collect_eq_error_iff, ?_,
    distinctFields_of_variantSet⟩
  intro agree once
  cases h : collect set with
  | error failure => exact absurd agree (collect_fails_iff.1 ⟨failure, h⟩)
  | ok shared => exact ⟨shared, rfl, recur_of_collect once h⟩

end Slotwise.Optics.SharedField
