import Slotwise.Keys
import Slotwise.Proofs.Placement
import Slotwise.Proofs.Tables
/-!
# Tables of a key group

The code of a key group has four tables that are written one by one: the constant that lists the
keys, the function from a key to its index, the function from a key to its qualified name and the
function back. The keys of the first two are at the same indexes, and those of the last two have
the same names, so they undo each other (`Inverse`). That the names tell the keys apart rests on
the last segment alone: what stands before it is the same for all keys, whatever the module path is
(`eq_of_nameIn`).

The indexes have a type with a sign, so there are at most `2 ^ 63` keys.
-/

namespace Slotwise.Keys

open Code Naming Tables Code.Node

/-- The type of the keys of a group as it is written. -/
abbrev spelledType (group : KeyGroup) : String :=
  capitalize group.stem ++ "Key"

/-- The type of the keys of a group, without a raw mark. -/
def keyType (group : KeyGroup) : String :=
  withoutRawMark (spelledType group)

/-- The type that indexes the keys of a group, without a raw mark. -/
def indexType (group : KeyGroup) : String :=
  withoutRawMark (capitalize group.stem ++ "Keys")

/-- The qualified name of a key of a group. -/
def nameIn (group : KeyGroup) (place : Place) (key : String) : String :=
  qualifiedName place (spelledType group) key

/-- The numbered key with this qualified name, and the key that stands for none if there is none. -/
def keyWithName (group : KeyGroup) (place : Place) (name : String) : String :=
  ((keyNames group.count).find? (nameIn group place · == name)).getD noKey

/-- What an implementation defines. -/
def itemsOf : Node → List Node
  | .implementation _ _ _ _ _ _ items => items
  | _ => []

/-- What a file of a key group declares. -/
structure Emits (group : KeyGroup) (place : Place) (file : File) : Prop where
  /-- The cases of the enumeration. -/
  cases : Tables.cases file (keyType group) = keyNames group.count ++ [noKey]
  /-- The functions on keys, with those for serialization if the group asks for them. -/
  ofKeys : members file (keyType group) =
    [nameOf place (spelledType group) group.count,
      ofName place (spelledType group) group.count] ++
    if group.serializable then
      (serializationItems (spelledType group)).flatMap itemsOf
    else []
  /-- The constants and functions on indexes. -/
  ofIndex : members file (indexType group) =
    indexItems (spelledType group) group.count

/-! ## Names -/

theorem getLast?_withoutRawMark {text : String} {c : Char} (last : text.toList.getLast? = some c)
    (notMark : c ≠ '#') : (withoutRawMark text).toList.getLast? = some c := by
  unfold withoutRawMark
  split
  · next rest start =>
    rw [start] at last
    cases rest with
    | nil => exact absurd (Option.some.inj last) (Ne.symm notMark)
    | cons d ds =>
      rw [String.toList_ofList]
      rwa [List.getLast?_cons_cons, List.getLast?_cons_cons] at last
  · exact last

theorem getLast?_append_name (first : String) {last : String} (filled : last.toList ≠ []) :
    (first ++ last).toList.getLast? = last.toList.getLast? := by
  rw [String.toList_append, List.getLast?_append_of_ne_nil _ filled]

theorem getLast?_keyType (group : KeyGroup) : (keyType group).toList.getLast? = some 'y' :=
  getLast?_withoutRawMark (getLast?_append_name _ (by decide)) (by decide)

theorem getLast?_indexType (group : KeyGroup) : (indexType group).toList.getLast? = some 's' :=
  getLast?_withoutRawMark (getLast?_append_name _ (by decide)) (by decide)

theorem keyType_ne_indexType (group : KeyGroup) : keyType group ≠ indexType group := by
  -- a raw mark would be gone from both, but the last letters differ anyway
  intro same
  have ends := getLast?_keyType group
  rw [same, getLast?_indexType] at ends
  exact absurd ends (by decide)

theorem keyType_ne_self (group : KeyGroup) : keyType group ≠ "Self" := by
  intro same
  have ends := getLast?_keyType group
  rw [same] at ends
  exact absurd ends (by decide)

theorem resolve_keyType (group : KeyGroup) (owner key : String) :
    Node.resolve owner [withoutRawMark (spelledType group), key] =
      [keyType group, key] :=
  resolve_of_ne (keyType_ne_self group) [key]

theorem withoutRawMark_of_mem {count : Nat} {key : String}
    (member : key ∈ keyNames count ++ [noKey]) : withoutRawMark key = key := by
  obtain listed | last := List.mem_append.1 member
  · obtain ⟨i, -, rfl⟩ := List.mem_map.1 listed
    exact withoutRawMark_numbered "Key" (by decide) i
  · rw [List.mem_singleton.1 last]
    decide

theorem numbered_ne_noKey (i : Nat) : numbered i ≠ noKey :=
  @numbered_ne_name "Key" noKey (by decide) (by decide) i

theorem nodup_keyNames (count : Nat) : (keyNames count ++ [noKey]).Nodup := by
  rw [List.nodup_append]
  refine ⟨List.nodup_range.map (numbered_injective "Key"), List.nodup_singleton _, ?_⟩
  intro key listed other last
  obtain ⟨i, -, rfl⟩ := List.mem_map.1 listed
  rw [List.mem_singleton.1 last]
  exact numbered_ne_noKey i

theorem plain_of_mem {count : Nat} {key : String} (member : key ∈ keyNames count ++ [noKey]) :
    ModulePath.Plain key := by
  refine ModulePath.plain_of_isLegal ?_
  obtain listed | last := List.mem_append.1 member
  · obtain ⟨i, -, rfl⟩ := List.mem_map.1 listed
    exact isLegal_append_toString "Key" (by decide) i
  · rw [List.mem_singleton.1 last]
    decide

/-- Qualified names tell the keys apart. -/
theorem eq_of_nameIn {group : KeyGroup} {place : Place} {count : Nat} {key other : String}
    (member : key ∈ keyNames count ++ [noKey]) (member' : other ∈ keyNames count ++ [noKey])
    (same : nameIn group place key = nameIn group place other) : key = other := by
  -- the module path may be split in other segments than it was made of, but for both keys alike
  obtain ⟨front, joined⟩ := ModulePath.exists_front_ofSegments
    (ModulePath.segments place.modulePath ++ ModulePath.segments (spelledType group))
  have written {key : String} (plain : ModulePath.Plain key) :
      (nameIn group place key).toList = front ++ key.toList := by
    rw [← joined, nameIn, qualifiedName, ModulePath.joined]
    simp only [List.flatMap_cons, List.flatMap_nil, List.append_nil]
    rw [show ModulePath.segments key = [key] from plain.segmentsOf, List.append_assoc]
  have texts := congrArg String.toList same
  rw [written (plain_of_mem member), written (plain_of_mem member')] at texts
  exact String.toList_inj.1 (List.append_cancel_left texts)

theorem keyWithName_nameIn {group : KeyGroup} {place : Place} {key : String}
    (member : key ∈ keyNames group.count ++ [noKey]) :
    keyWithName group place (nameIn group place key) = key := by
  unfold keyWithName
  cases found : (keyNames group.count).find? (nameIn group place · == nameIn group place key) with
  | none =>
    -- no numbered key has this name, so the key is the one that stands for none
    obtain listed | last := List.mem_append.1 member
    · exact absurd (beq_self_eq_true _) (List.find?_eq_none.1 found key listed)
    · exact (List.mem_singleton.1 last).symm
  | some other =>
    have same : nameIn group place other = nameIn group place key := by
      simpa using List.find?_some found
    exact eq_of_nameIn (List.mem_append_left _ (List.mem_of_find?_eq_some found)) member same

theorem keyWithName_of_notMem {group : KeyGroup} {place : Place} {name : String}
    (absent : name ∉ (keyNames group.count ++ [noKey]).map (nameIn group place)) :
    keyWithName group place name = noKey := by
  have none : (keyNames group.count).find? (nameIn group place · == name) = none := by
    rw [List.find?_eq_none]
    intro key member same
    exact absent (List.mem_map.2 ⟨key, List.mem_append_left _ member, beq_iff_eq.1 same⟩)
  rw [keyWithName, none, Option.getD_none]

theorem filterMap_caseName? (count : Nat) :
    ((keyNames count).map (unitVariant · none) ++
        [attributed [docLine " No key of this group."] (unitVariant noKey none)]).filterMap
      caseName? = keyNames count ++ [noKey] := by
  have each : ∀ key ∈ keyNames count, caseName? (unitVariant key none) = some key := by
    intro key member
    rw [caseName?, withoutRawMark_of_mem (List.mem_append_left _ member)]
  have last : caseName? (attributed [docLine " No key of this group."] (unitVariant noKey none)) =
      some noKey := by decide
  rw [List.filterMap_append, List.filterMap_cons_some last, List.filterMap_nil,
    List.filterMap_map]
  congr 1
  have same : (keyNames count).filterMap (caseName? ∘ (unitVariant · none)) =
      (keyNames count).filterMap some := List.filterMap_congr each
  rw [same, List.filterMap_some]

theorem emits_of_file {group : KeyGroup} {place : Place} {file : File}
    (made : Keys.file group place = .ok file) : Emits group place file := by
  rw [Keys.file] at made
  obtain ⟨key, keyIs, made⟩ := Outcome.bind_eq_ok_iff.1 made
  obtain ⟨index, indexIs, made⟩ := Outcome.bind_eq_ok_iff.1 made
  cases Outcome.pure_eq_ok_iff.1 made
  cases legal_eq_ok keyIs
  cases legal_eq_ok indexIs
  have apart := keyType_ne_indexType group
  have listed := filterMap_caseName? group.count
  unfold keyType indexType at apart
  constructor
  · cases group.serializable <;>
      simp [Tables.cases, casesOf, enumerationItem, isPublic, methodsOf, traitFor,
        serializationItems, serializationImport, keyType, listed]
  · cases group.serializable <;>
      simp [members, membersOf, enumerationItem, isPublic, methodsOf, traitFor,
        serializationItems, serializationImport, itemsOf, keyType, Ne.symm apart]
  · cases group.serializable <;>
      simp [members, membersOf, enumerationItem, isPublic, methodsOf, traitFor,
        serializationItems, serializationImport, indexType, apart]

section Tables

variable {Wire : Type} {format : Format Wire} {group : KeyGroup} {place : Place} {file : File}

/-- A key as a value. -/
def keyOf (group : KeyGroup) (key : String) : Datum Wire := .case [keyType group, key] []

namespace Emits

variable (emits : Emits group place file)

include emits

theorem declares_key {key : String} (member : key ∈ keyNames group.count ++ [noKey]) :
    declares file [keyType group, key] = true := by
  rw [declares, emits.cases]
  exact List.contains_iff_mem.2 member

theorem constant?_key (name : String) : constant? file (keyType group) name = none := by
  rw [constant?, emits.ofKeys]
  cases group.serializable <;> rfl

theorem function?_name : function? file (keyType group) "qualified_name" =
    (nameOf place (spelledType group) group.count).definition? := by
  rw [function?, emits.ofKeys]
  cases group.serializable <;> rfl

theorem function?_ofName : function? file (keyType group) "from_qualified_name" =
    (ofName place (spelledType group) group.count).definition? := by
  rw [function?, emits.ofKeys]
  cases group.serializable <;> rfl

theorem function?_serialize (serializable : group.serializable = true) :
    function? file (keyType group) "serialize" =
      ((serializationItems (spelledType group)).flatMap itemsOf)[0]?.bind definition? := by
  rw [function?, emits.ofKeys, if_pos serializable]
  rfl

theorem function?_deserialize (serializable : group.serializable = true) :
    function? file (keyType group) "deserialize" =
      ((serializationItems (spelledType group)).flatMap itemsOf)[1]?.bind definition? := by
  rw [function?, emits.ofKeys, if_pos serializable]
  rfl

theorem constant?_count : constant? file (indexType group) "COUNT" =
    (indexItems (spelledType group) group.count)[0]?.bind constantOf? := by
  rw [constant?, emits.ofIndex]
  rfl

theorem constant?_all : constant? file (indexType group) "ALL" =
    (indexItems (spelledType group) group.count)[1]?.bind constantOf? := by
  rw [constant?, emits.ofIndex]
  rfl

theorem function?_get : function? file (indexType group) "get" =
    (indexItems (spelledType group) group.count)[2]?.bind definition? := by
  rw [function?, emits.ofIndex]
  rfl

theorem function?_index : function? file (indexType group) "index" =
    (indexItems (spelledType group) group.count)[3]?.bind definition? := by
  rw [function?, emits.ofIndex]
  rfl

theorem fits_key {owner first : String} {key other : String}
    (resolved : Node.resolve owner [withoutRawMark first, key] = [keyType group, key])
    (member : key ∈ keyNames group.count ++ [noKey]) :
    fits? file owner (.namedAlong [first, key]) (keyOf group other : Datum Wire) =
      some (key == other) := by
  refine fits?_case ?_ (emits.declares_key member)
  rw [List.map_cons, List.map_singleton, withoutRawMark_of_mem member, resolved]

theorem valueAt_key {depth : Nat} {owner first : String} {key : String}
    {scope : Variables (Atom Wire)}
    (resolved : Node.resolve owner [withoutRawMark first, key] = [keyType group, key])
    (member : key ∈ keyNames group.count ++ [noKey]) :
    valueAt format file (depth + 1) owner scope (.namedAlong [first, key]) =
      some (keyOf group key) := by
  refine valueAt_case ?_ (emits.constant?_key key) (emits.declares_key member)
  rw [List.map_cons, List.map_singleton, withoutRawMark_of_mem member, resolved]

/-- A choice by keys goes on with what belongs to the key at hand. -/
theorem chooseWith_key {ι : Type} {inner : Evaluator (Atom Wire)} {owner first : String}
    {scope : Variables (Atom Wire)} {xs : List ι} (name : ι → String)
    (injective : Function.Injective name)
    (declared : ∀ x ∈ xs, name x ∈ keyNames group.count ++ [noKey])
    (resolved : ∀ key, Node.resolve owner [withoutRawMark first, key] = [keyType group, key])
    {x : ι} (member : x ∈ xs) (body : ι → Node) (rest : List Node) :
    chooseWith file inner owner scope (keyOf group (name x))
        ((xs.map fun y => arm (namedAlong [first, name y]) none (body y) true) ++ rest) =
      inner owner scope (body x) := by
  have tells : ∀ y ∈ xs, fits? file owner (namedAlong [first, name y])
      (keyOf group (name x) : Datum Wire) = some (name y == name x) :=
    fun y inside => emits.fits_key (resolved _) (declared y inside)
  rw [chooseWith_find? tells]
  cases found : xs.find? fun y => name y == name x with
  | none => exact absurd (beq_self_eq_true _) (List.find?_eq_none.1 found x member)
  | some y =>
    have same : name y = name x := by simpa using List.find?_some found
    rw [injective same]

/-- A key has its qualified name. -/
theorem invokeWith_name (depth : Nat) {key : String}
    (member : key ∈ keyNames group.count ++ [noKey]) :
    invokeWith file (valueAt format file (depth + 2)) (keyType group) "qualified_name"
        [keyOf group key] = some (text (nameIn group place key)) := by
  refine invokeWith_eq_some [("self", keyOf group key)]
    (emits.function?_name.trans rfl) rfl rfl rfl ((bodyWith_singleton _).trans ?_)
  rw [valueAt_choice, Node.self, valueAt_variable rfl (by decide), Option.bind_some,
    ← List.append_nil (List.map _ _), emits.chooseWith_key (fun key => key)
      Function.injective_id (fun _ inside => inside) (fun _ => rfl) member]
  exact valueAt_text _

/-- The index of a numbered key. -/
theorem invokeWith_index (depth : Nat) {i : Nat} (below : i < group.count)
    (bounded : group.count ≤ 2 ^ 63) :
    invokeWith file (valueAt format file (depth + 2)) (indexType group) "index"
        [keyOf group (numbered i)] = some (number i) := by
  refine invokeWith_eq_some [("key", keyOf group (numbered i))]
    (emits.function?_index.trans rfl) rfl (bindInputs?_input (fitsType_case _ _ _))
    (fitsType_isize (by omega) (by omega)) ((bodyWith_singleton _).trans ?_)
  rw [valueAt_choice, valueAt_variable rfl (by decide), Option.bind_some,
    emits.chooseWith_key numbered (numbered_injective "Key") ?_ (resolve_keyType group _)
      (List.mem_range.2 below)]
  · exact valueAt_number i
  · exact fun j inside => List.mem_append_left _ (List.mem_map.2 ⟨j, inside, rfl⟩)

/-- The key that stands for none has no index. -/
theorem invokeWith_index_noKey (depth : Nat) :
    invokeWith file (valueAt format file (depth + 3)) (indexType group) "index"
        [keyOf group noKey] = some (number (-1)) := by
  refine invokeWith_eq_some [("key", keyOf group noKey)]
    (emits.function?_index.trans rfl) rfl (bindInputs?_input (fitsType_case _ _ _))
    (fitsType_isize (by decide) (by decide)) ((bodyWith_singleton _).trans ?_)
  have others : ∀ i ∈ List.range group.count,
      fits? file (indexType group) (namedAlong [spelledType group, numbered i])
        (keyOf group noKey : Datum Wire) = some (numbered i == noKey) := by
    intro i inside
    have member : numbered i ∈ keyNames group.count := List.mem_map.2 ⟨i, inside, rfl⟩
    exact emits.fits_key (resolve_keyType group _ _) (List.mem_append_left _ member)
  have none : (List.range group.count).find? (fun i => numbered i == noKey) = none := by
    rw [List.find?_eq_none]
    exact fun i _ same => numbered_ne_noKey i (beq_iff_eq.1 same)
  rw [valueAt_choice, valueAt_variable rfl (by decide), Option.bind_some, chooseWith_find? others,
    none, chooseWith, emits.fits_key (resolve_keyType group _ _) (by simp), beq_self_eq_true]
  exact valueAt_negative (valueAt_number 1)

/-- The number of the keys. -/
theorem constantWith_count (depth : Nat) (bounded : group.count < 2 ^ 64) :
    constantWith file (valueAt format file (depth + 1)) (indexType group) "COUNT" =
      some (number group.count) :=
  constantWith_eq_some (emits.constant?_count.trans rfl) (valueAt_number group.count)
    (fitsType_usize (by omega) (by omega))

/-- The keys in the order of their indexes. -/
theorem constantWith_all (depth : Nat) :
    constantWith file (valueAt format file (depth + 2)) (indexType group) "ALL" =
      some (.tuple ((keyNames group.count).map (keyOf group))) := by
  refine constantWith_eq_some (emits.constant?_all.trans rfl) ?_ ?_
  · refine (valueAt_list _ _).trans ?_
    rw [List.mapM_map, Outcome.mapM_eq_some_map]
    · rfl
    · intro key member
      exact emits.valueAt_key (resolve_keyType group _ _) (List.mem_append_left _ member)
  · refine fitsType_array ?_
    simp [keyNames]

/-- The key at an index, if there is one. -/
theorem invokeWith_get (depth i : Nat) (size : i < 2 ^ 64) :
    invokeWith file (valueAt format file (depth + 6)) (indexType group) "get" [number i] =
      some (keyOf group (if i < group.count then numbered i else noKey)) := by
  refine invokeWith_eq_some [("index", number i)]
    (emits.function?_get.trans rfl) rfl (bindInputs?_input (fitsType_usize (by omega) (by omega)))
    (fitsType_case _ _ _) ((bodyWith_singleton _).trans ?_)
  have position : valueAt format file (depth + 3) (indexType group) [("index", number i)]
      (named "index") = some (number i) := valueAt_variable rfl (by decide)
  have other : valueAt format file (depth + 5) (indexType group) [("index", number i)]
      (namedAlong [spelledType group, noKey]) = some (keyOf group noKey) :=
    emits.valueAt_key (resolve_keyType group _ _) (by simp)
  have all : valueAt format file (depth + 3) (indexType group) [("index", number i)]
      (namedAlong ["Self", "ALL"]) = some (.tuple ((keyNames group.count).map (keyOf group))) :=
    valueAt_constant rfl (emits.constantWith_all depth)
  -- the array may have no item there: the key that stands for none comes in at the very end
  have found := valueAt_method "get" all (mapM_singleton position) (methodWith_get _ i) false
  have copied := valueAt_method "copied" found List.mapM_nil (methodWith_copied _) false
  have given := valueAt_method "unwrap_or" copied (mapM_singleton other) (methodWith_unwrap _ _)
    false
  refine given.trans ?_
  rw [List.getElem?_map, keyNames, List.getElem?_map]
  split
  · next below => simp [below]
  · next beyond => simp [beyond]

/-- A qualified name leads to its key, and any other text to the key that stands for none. -/
theorem invokeWith_ofName (depth : Nat) (content : String) :
    invokeWith file (valueAt format file (depth + 2)) (keyType group) "from_qualified_name"
        [text content] = some (keyOf group (keyWithName group place content)) := by
  refine invokeWith_eq_some [("name", text content)]
    (emits.function?_ofName.trans rfl) rfl rfl
    (fitsType_case _ _ _) ((bodyWith_singleton _).trans ?_)
  have tells : ∀ key ∈ keyNames group.count, fits? file (keyType group)
      (nameLiteral place (spelledType group) key) (text content : Datum Wire) =
        some (nameIn group place key == content) :=
    fun key _ => fits?_text _ _
  rw [valueAt_choice, valueAt_variable rfl (by decide), Option.bind_some, chooseWith_find? tells,
    keyWithName]
  cases found : (keyNames group.count).find? (nameIn group place · == content) with
  | none => exact emits.valueAt_key rfl (by simp)
  | some key =>
    exact emits.valueAt_key rfl (List.mem_append_left _ (List.mem_of_find?_eq_some found))

/-- A key is serialized as its qualified name. -/
theorem invokeWith_serialize (serializable : group.serializable = true) (depth : Nat)
    {key : String} (member : key ∈ keyNames group.count ++ [noKey]) :
    invokeWith file (valueAt format file (depth + 4)) (keyType group) "serialize"
        [keyOf group key, .data .writer] =
      some (outcome ((format.write (nameIn group place key)).map (.data <| .wire ·))) := by
  refine invokeWith_eq_some [("self", keyOf group key), ("serializer", .data .writer)]
    ((emits.function?_serialize serializable).trans rfl) rfl rfl (fitsType_outcome _ _)
    ((bodyWith_singleton _).trans ?_)
  have key' : valueAt format file (depth + 2) (keyType group)
      [("self", keyOf group key), ("serializer", .data .writer)] Node.self =
        some (keyOf group key) := valueAt_variable rfl (by decide)
  have name := valueAt_method "qualified_name" key' List.mapM_nil
    ((methodWith_case _ _ _).trans (emits.invokeWith_name depth member)) false
  have writer : valueAt format file (depth + 3) (keyType group)
      [("self", keyOf group key), ("serializer", .data .writer)] (named "serializer") =
        some (.data .writer) := valueAt_variable rfl (by decide)
  exact valueAt_method "serialize_str" writer (mapM_singleton name) (methodWith_serialize _) false

/-- A written form is deserialized as the key whose qualified name it stands for. -/
theorem invokeWith_deserialize (serializable : group.serializable = true) (depth : Nat)
    (wire : Wire) :
    invokeWith file (valueAt format file (depth + 4)) (keyType group) "deserialize"
        [.data (.reader wire)] =
      some (outcome ((format.read wire).map fun content =>
        keyOf group (keyWithName group place content))) := by
  refine invokeWith_eq_some [("deserializer", .data (.reader wire))]
    ((emits.function?_deserialize serializable).trans rfl) rfl rfl (fitsType_outcome _ _) ?_
  have reader : valueAt format file (depth + 3) (keyType group)
      [("deserializer", .data (.reader wire))] (named "deserializer") =
        some (.data (.reader wire)) := valueAt_variable rfl (by decide)
  have read : valueAt format file (depth + 4) (keyType group)
      [("deserializer", .data (.reader wire))]
      (call (namedAlong ["String", "deserialize"]) [named "deserializer"] false) =
        some (outcome ((format.read wire).map text)) :=
    valueAt_call rfl (mapM_singleton reader) (calledWith_deserialize wire) false
  cases written : format.read wire with
  | none =>
    rw [written] at read
    exact bodyWith_failure read
  | some content =>
    rw [written] at read
    refine (bodyWith_success read).trans ((bodyWith_singleton _).trans ?_)
    have name : valueAt format file (depth + 2) (keyType group)
        [("name", text content), ("deserializer", .data (.reader wire))] (shared (named "name")) =
          some (text content) :=
      (valueAt_shared _).trans (valueAt_variable rfl (by decide))
    have spelled : (namedAlong ["Self", "from_qualified_name"]).names?.map
        (Node.resolve (keyType group)) = some [keyType group, "from_qualified_name"] := rfl
    have key := valueAt_call spelled (mapM_singleton name) ((calledWith_member (by decide) _).trans
      (emits.invokeWith_ofName depth content)) false
    exact valueAt_call rfl (mapM_singleton key) (calledWith_ok _) false

end Emits

/-! ## All tables -/

/-- The tables of a key group list its keys and undo each other. -/
structure Inverse (format : Format Wire) (group : KeyGroup) (place : Place) (file : File) :
    Prop where
  /-- The enumeration has the numbered keys in the order of their indexes, then the one that stands
  for none. -/
  cases : Tables.cases file (keyType group) = keyNames group.count ++ [noKey]
  /-- No key is repeated. -/
  once : (keyNames group.count ++ [noKey]).Nodup
  /-- All numbered keys are listed in the order of their indexes. -/
  all : HasValue format file (indexType group) "ALL"
    (.tuple ((keyNames group.count).map (keyOf group)))
  /-- They are counted. -/
  count : HasValue format file (indexType group) "COUNT" (number group.count)
  /-- An index leads to a key, and that key to the index. -/
  indexed : ∀ i < group.count,
    Gives format file (indexType group) "get" [number i] (keyOf group (numbered i)) ∧
    Gives format file (indexType group) "index" [keyOf group (numbered i)] (number i)
  /-- Behind the last index there is no key. -/
  beyond : ∀ i, group.count ≤ i → i < 2 ^ 64 →
    Gives format file (indexType group) "get" [number i] (keyOf group noKey)
  /-- No key has no index. -/
  noIndex : Gives format file (indexType group) "index" [keyOf group noKey] (number (-1))
  /-- A key leads to its qualified name, and that name to the key. -/
  named : ∀ key ∈ keyNames group.count ++ [noKey],
    Gives format file (keyType group) "qualified_name" [keyOf group key]
      (text (nameIn group place key)) ∧
    Gives format file (keyType group) "from_qualified_name" [text (nameIn group place key)]
      (keyOf group key)
  /-- No two keys have one qualified name. -/
  distinct : ((keyNames group.count ++ [noKey]).map (nameIn group place)).Nodup
  /-- Any other name leads to no key. -/
  unknown : ∀ name ∉ (keyNames group.count ++ [noKey]).map (nameIn group place),
    Gives format file (keyType group) "from_qualified_name" [text name] (keyOf group noKey)

/-- Serialized keys are their qualified names, and are deserialized as the keys that they were. -/
structure ReadsBack (format : Format Wire) (group : KeyGroup) (place : Place) (file : File) :
    Prop where
  /-- A key is written as its qualified name is, and fails to be written if that does. -/
  serialized : ∀ key ∈ keyNames group.count ++ [noKey],
    Gives format file (keyType group) "serialize" [keyOf group key, .data .writer]
      (outcome ((format.write (nameIn group place key)).map fun wire => .data (.wire wire)))
  /-- What a key is written as is read as the key. -/
  deserialized : ∀ key ∈ keyNames group.count ++ [noKey], ∀ wire,
    Gives format file (keyType group) "serialize" [keyOf group key, .data .writer]
      (success (.data (.wire wire))) →
    Gives format file (keyType group) "deserialize" [.data (.reader wire)]
      (success (keyOf group key))

theorem Emits.inverse (emits : Emits group place file) (bounded : group.count ≤ 2 ^ 63) :
    Inverse format group place file where
  cases := emits.cases
  once := nodup_keyNames group.count
  all := .of_add 2 emits.constantWith_all
  count := .of_add 1 fun depth => emits.constantWith_count depth (by omega)
  indexed i below :=
    ⟨.of_add 6 fun depth => by rw [emits.invokeWith_get depth i (by omega), if_pos below],
      .of_add 2 fun depth => emits.invokeWith_index depth below bounded⟩
  beyond i outside size := .of_add 6 fun depth => by
    rw [emits.invokeWith_get depth i size, if_neg (Nat.not_lt.2 outside)]
  noIndex := .of_add 3 emits.invokeWith_index_noKey
  named key member :=
    ⟨.of_add 2 fun depth => emits.invokeWith_name depth member,
      .of_add 2 fun depth => by rw [emits.invokeWith_ofName, keyWithName_nameIn member]⟩
  distinct := (nodup_keyNames group.count).map_on fun _ member _ member' =>
    eq_of_nameIn member member'
  unknown name absent := .of_add 2 fun depth => by
    rw [emits.invokeWith_ofName, keyWithName_of_notMem absent]

theorem Emits.readsBack (emits : Emits group place file)
    (serializable : group.serializable = true) : ReadsBack format group place file := by
  have serialized : ∀ key ∈ keyNames group.count ++ [noKey],
      Gives format file (keyType group) "serialize" [keyOf group key, .data .writer]
        (outcome ((format.write (nameIn group place key)).map fun wire => .data (.wire wire))) :=
    fun key member => .of_add 4 fun depth =>
      emits.invokeWith_serialize serializable depth member
  refine ⟨serialized, fun key member wire written => ?_⟩
  -- a call gives one result, so what was written is what the format writes for the name
  have same := (serialized key member).unique written
  cases wrote : format.write (nameIn group place key) with
  | none =>
    rw [wrote] at same
    exact absurd same (by simp [outcome, success, Tables.failure])
  | some wire' =>
    rw [wrote] at same
    cases same
    refine .of_add 4 fun depth => ?_
    rw [emits.invokeWith_deserialize serializable, format.faithful wrote, Option.map_some,
      keyWithName_nameIn member]
    rfl

/-- The tables in the file of a key group with an index for each key are inverse to each other, and
if the keys can be serialized, what is written for a key is read as that key. -/
theorem inverse_of_file (format : Format Wire) (made : Keys.file group place = .ok file)
    (bounded : group.count ≤ 2 ^ 63) :
    Inverse format group place file ∧
      (group.serializable = true → ReadsBack format group place file) :=
  ⟨(emits_of_file made).inverse bounded, (emits_of_file made).readsBack⟩

/-- The format that writes a text as a literal. -/
def literals : Format String :=
  ⟨fun content => some (Text.quoteLiteral content), Literal.textValue?, by
    intro content wire written
    cases written
    exact Literal.textValue?_quoteLiteral content⟩

/-- The file of two keys that can be serialized. -/
def twoKeys : { file : File // Keys.file ⟨"column", 2, true, ⟨none, none, none⟩⟩
    ⟨"src", "app", "keys"⟩ = .ok file } :=
  Outcome.value (by decide +kernel)

/-- Two keys that can be serialized. -/
theorem inverse_two : ∃ file, Keys.file ⟨"column", 2, true, ⟨none, none, none⟩⟩
      ⟨"src", "app", "keys"⟩ = .ok file ∧
    (2 : Nat) ≤ 2 ^ 63 ∧
    Inverse literals ⟨"column", 2, true, ⟨none, none, none⟩⟩ ⟨"src", "app", "keys"⟩ file ∧
    ReadsBack literals ⟨"column", 2, true, ⟨none, none, none⟩⟩ ⟨"src", "app", "keys"⟩ file := by
  obtain ⟨file, made⟩ := twoKeys
  have two : (2 : Nat) ≤ 2 ^ 63 := by decide
  obtain ⟨inverse, readsBack⟩ := inverse_of_file literals made two
  exact ⟨file, made, two, inverse, readsBack rfl⟩

end Tables

end Slotwise.Keys
