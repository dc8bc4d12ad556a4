import Slotwise.Naming
import Slotwise.Request
/-!
# Serialization of what is referred to

A declaration can only be serialized if everything that its fields refer to can. So serializability
spreads from a declaration to the declarations that its field types resolve to, through the types'
dependencies as well. A variant set that is reached becomes polymorphic.

Each round spreads by one step. Every round that still changes something marks one more declaration,
so as many rounds as there are declarations reach the fixed point.
-/

namespace Slotwise

namespace Propagation

/-- A declaration by its number among the records or among the variant sets. -/
inductive Target where
  /-- A record. -/
  | record (index : Nat)
  /-- A variant set. -/
  | variantSet (index : Nat)
deriving DecidableEq, Repr

/-- A declaration that types can resolve to. -/
structure Entry where
  /-- The name of the declared type. -/
  name : String
  /-- The module that the type is generated in. -/
  modulePath : String
  /-- The declaration. -/
  target : Target
deriving DecidableEq, Repr

/-- All declarations of a request, records before variant sets. -/
def entries (request : Request) : List Entry :=
  let moduleOf (kind : Kind) (location : Location) : String :=
    (Naming.opticsPlace kind location request.output).modulePath
  (request.records.zipIdx.map fun (record, i) =>
      ⟨record.name, moduleOf .lenses record.location, .record i⟩) ++
    request.variantSets.zipIdx.map fun (set, i) =>
      ⟨set.name, moduleOf .prisms set.location, .variantSet i⟩

/-- Whether a type's package names a module. An empty package names any. -/
def namesModule (package modulePath : String) : Bool :=
  let package := Text.trim package
  package == "" || package == modulePath || package == "crate::" ++ modulePath

/-- The first declaration that a type can be. -/
def resolve? (entries : List Entry) (type : TypeRef) : Option Target :=
  (entries.find? fun entry =>
    entry.name == type.baseName && namesModule type.package entry.modulePath).map (·.target)

mutual

/-- A type and all types it depends on, without type variables. -/
def referred : TypeRef → List TypeRef
  | .mk name package generic dependencies serialization =>
    (if generic = .variable then []
      else [.mk name package generic dependencies serialization]) ++ referredAll dependencies

/-- Several types and all types they depend on, without type variables. -/
def referredAll : List TypeRef → List TypeRef
  | [] => []
  | type :: rest => referred type ++ referredAll rest

end

/-- The types that the fields of a declaration refer to; transient fields do not count. -/
def fieldTypes (fields : List Field) : List TypeRef :=
  (fields.filter fun field => field.type.serialization != .transient).flatMap fun field =>
    referred field.type

/-- The types that the serializable declarations of a request refer to. -/
def serializedTypes (request : Request) : List TypeRef :=
  ((request.records.filter (·.serializable)).flatMap fun record => fieldTypes record.fields) ++
    (request.variantSets.filter (·.serializable)).flatMap fun set =>
      fieldTypes (set.fields ++ set.variants.flatMap (·.fields))

/-- The request with one declaration made serializable. -/
def mark (request : Request) : Target → Request
  | .record i =>
    { request with
      records := request.records.modify i fun record => { record with serializable := true } }
  | .variantSet i =>
    { request with
      variantSets := request.variantSets.modify i fun set =>
        { set with serializable := true, serialization := .polymorphic } }

/-- The request with everything made serializable that a serializable declaration refers to. -/
def spread (entries : List Entry) (request : Request) : Request :=
  ((serializedTypes request).filterMap (resolve? entries)).foldl mark request

/-- Several rounds of spreading. -/
def spreadTimes (entries : List Entry) : Nat → Request → Request
  | 0, request => request
  | rounds + 1, request => spreadTimes entries rounds (spread entries request)

end Propagation

/-- The request with everything made serializable that has to be. -/
def Request.propagated (request : Request) : Request :=
  Propagation.spreadTimes (Propagation.entries request)
    (request.records.length + request.variantSets.length) request

end Slotwise
