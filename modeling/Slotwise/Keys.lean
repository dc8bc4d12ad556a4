import Slotwise.Code.Build
import Slotwise.Declaration
import Slotwise.Naming
/-!
# Keys

The code of a key group: an enumeration of numbered keys with one that stands for none, and a struct
that indexes them. The qualified name of a key is fixed when the code is generated and is also its
serialized form.
-/

namespace Slotwise.Keys

open Code Code.Node

/-- The name of the key that stands for none. -/
def noKey : String := "NoKey"

/-- The name of a numbered key. -/
def numbered (index : Nat) : String := s!"Key{index}"

/-- The names of the numbered keys in order. -/
def keyNames (count : Nat) : List String :=
  (List.range count).map numbered

/-- The qualified name of a key of the enumeration `keyType`. -/
def qualifiedName (place : Place) (keyType key : String) : String :=
  ModulePath.joined [place.modulePath, keyType, key]

/-- The qualified name of a key as a literal. -/
def nameLiteral (place : Place) (keyType key : String) : Node :=
  literal (Text.quoteLiteral (qualifiedName place keyType key))

/-- The enumeration of the keys. -/
def enumerationItem (stem keyType : String) (count : Nat) : Node :=
  attributed
    [docLine s!" One of the {count} keys of the `{stem}` group, or `NoKey`.",
      derivation ["Debug", "Clone", "Copy", "PartialEq", "Eq", "Hash", "PartialOrd", "Ord"]]
    (isPublic (enumeration keyType none none
      ((keyNames count).map (unitVariant · none) ++
        [attributed [docLine " No key of this group."] (unitVariant noKey none)]) true))

/-- The method from a key to its qualified name. -/
def nameOf (place : Place) (keyType : String) (count : Nat) : Node :=
  attributed [docLine " The fully qualified name of this key."]
    (publicFunction "qualified_name" none [self] false
      (some (reference (some "'static") [] (named "str")))
      [choice self ((keyNames count ++ [noKey]).map fun key =>
        arm (namedAlong ["Self", key]) none (nameLiteral place keyType key) true)])

/-- The function from a qualified name to its key. -/
def ofName (place : Place) (keyType : String) (count : Nat) : Node :=
  attributed
    [docLine " The key with the given qualified name. Unknown names map to `NoKey`."]
    (publicFunction "from_qualified_name" none [input "name" (shared (named "str"))] false
      (some (named "Self"))
      [choice (named "name")
        ((keyNames count).map (fun key =>
            arm (nameLiteral place keyType key) none (namedAlong ["Self", key]) true) ++
          [arm wild none (namedAlong ["Self", noKey]) true])])

/-- The constants and functions that index the keys. -/
def indexItems (keyType : String) (count : Nat) : List Node :=
  let size := literal (toString count)
  [attributed [docLine " Number of keys, not counting `NoKey`."]
      (isPublic (constItem ["const"] "COUNT" (named "usize") (some size))),
    attributed [docLine " All keys in index order."]
      (isPublic (constItem ["const"] "ALL" (repeated (named keyType) size)
        (some (list ((keyNames count).map fun key => namedAlong [keyType, key]) false)))),
    attributed [docLine " The key at `index`, or `NoKey` when out of range."]
      (publicFunction "get" none [input "index" (named "usize")] false (some (named keyType))
        [method
          (method (method (namedAlong ["Self", "ALL"]) "get" none [named "index"] false)
            "copied" none [] false)
          "unwrap_or" none [namedAlong [keyType, noKey]] false]),
    attributed [docLine " The index of `key`, or -1 for `NoKey`."]
      (publicFunction "index" none [input "key" (named keyType)] false (some (named "isize"))
        [choice (named "key")
          ((List.range count).map (fun index =>
              arm (namedAlong [keyType, numbered index]) none
                (literal (toString index)) true) ++
            [arm (namedAlong [keyType, noKey]) none (unary "-" (literal "1")) true])])]

/-- The import that serialization needs. -/
def serializationImport : Node :=
  useItem false (useStep "serde"
    (some (useGroup (["Deserialize", "Deserializer", "Serialize", "Serializer"].map
      (useStep · none)) false)))

/-- The serialization of keys by their qualified names. -/
def serializationItems (keyType : String) : List Node :=
  let life := Node.lifetime "'de"
  [traitFor none (named "Serialize") (named keyType)
      [function [] "serialize"
        (some (generics [parameter (named "S") [traitBound (named "Serializer")] none] false))
        [shared self, input "serializer" (named "S")] false
        (some (applied "Result" [namedAlong ["S", "Ok"], namedAlong ["S", "Error"]])) none
        (some (block [] [method (named "serializer") "serialize_str" none
          [method self "qualified_name" none [] false] false]))],
    traitFor (some (generics [parameter life [] none] false)) (applied "Deserialize" [life])
      (named keyType)
      [function [] "deserialize"
        (some (generics
          [parameter (named "D") [traitBound (applied "Deserializer" [life])] none] false))
        [input "deserializer" (named "D")] false
        (some (applied "Result" [named "Self", namedAlong ["D", "Error"]])) none
        (some (block []
          [letIs "name" (question
              (call (namedAlong ["String", "deserialize"]) [named "deserializer"] false)),
            call (named "Ok")
              [call (namedAlong ["Self", "from_qualified_name"]) [shared (named "name")] false]
              false]))]]

/-- The file of a key group, generated at `place`. -/
def file (group : KeyGroup) (place : Place) : Except Failure File := do
  let stem := Naming.capitalize group.stem
  let keyType ← Naming.legal (stem ++ "Key")
  let indexType ← Naming.legal (stem ++ "Keys")
  let count := group.count
  return ⟨[fileDoc s!" The `{stem}` key group."],
    (if group.serializable then [serializationImport] else []) ++
    [enumerationItem stem keyType count,
      methodsOf none (named keyType)
        [nameOf place keyType count, ofName place keyType count],
      attributed [docLine " Indexes the keys of the group."]
        (isPublic (unitStruct indexType none none)),
      methodsOf none (named indexType) (indexItems keyType count)] ++
    (if group.serializable then serializationItems keyType else [])⟩

end Slotwise.Keys
