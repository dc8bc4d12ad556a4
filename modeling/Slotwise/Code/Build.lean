import Slotwise.Code.Node
/-!
# Building code

Short names for the forms that generated code is made of. Each is a tree that reading its tokens
would give back.
-/

namespace Slotwise.Code.Node

/-! ## Names and paths -/

/-- The path of one name. -/
def named (name : String) : Node :=
  path false [segment name none]

/-- The path of several names. -/
def namedAlong (names : List String) : Node :=
  path false (names.map (segment · none))

/-- A name with arguments in angle brackets. -/
def applied (name : String) (arguments : List Node) : Node :=
  path false [segment name (some (angled false arguments false))]

/-- A name with names as arguments in angle brackets. -/
def appliedTo (name : String) (arguments : List String) : Node :=
  applied name (arguments.map named)

/-- The steps of an import. -/
def importSteps : List String → Node
  | [] => useAll
  | [name] => useStep name none
  | name :: rest => useStep name (some (importSteps rest))

/-- The import of one item. -/
def importing (names : List String) : Node :=
  useItem false (importSteps names)

/-! ## Attributes -/

/-- An attribute with a text as its value. -/
def textAttribute (inner : Bool) (name text : String) : Node :=
  attr inner (metaValue (named name) (literal (Text.quoteLiteral text)))

/-- One line of documentation. -/
def docLine (text : String) : Node :=
  textAttribute false "doc" text

/-- The documentation of a file. -/
def fileDoc (text : String) : Node :=
  textAttribute true "doc" text

/-- Words with commas between them. -/
def listedWords : List String → List Token
  | [] => []
  | [word] => [.word word]
  | word :: rest => .word word :: .mark ',' false :: listedWords rest

/-- The attribute that derives implementations. -/
def derivation (traits : List String) : Node :=
  attr false (metaList (named "derive") .round (listedWords traits))

/-- How many parameters a function may have without an attribute that allows more. -/
def argumentLimit : Nat := 7

/-- The attribute that a function with many parameters needs. -/
def allowingArguments (count : Nat) : List Node :=
  if count > argumentLimit then
    [attr false (metaList (named "allow") .round
      (.word "clippy" :: (Token.operator "::" ++ [.word "too_many_arguments"])))]
  else []

/-- The node behind its attributes, if there are any. -/
def behind (attributes : List Node) (node : Node) : Node :=
  if attributes.isEmpty then node else attributed attributes node

/-! ## Types and bounds -/

/-- A shared reference. -/
def shared (subject : Node) : Node :=
  reference none [] subject

/-- A trait as a bound. -/
def traitBound (path : Node) : Node :=
  bound false false none path

/-- A function trait with its inputs and output as a bound. -/
def functionBound (name : String) (inputs : List Node) (output : Option Node) : Node :=
  traitBound (path false [segment name (some (callable inputs false output))])

/-- The type of some function of the trait `name` with one input. -/
def someFunction (name : String) (input output : Node) : Node :=
  bounded (some "impl") [functionBound name [input] (some output)] false

/-- A bound with an associated type. -/
def boundWith (trait associatedName : String) (value : Node) : Node :=
  traitBound (applied trait [associated associatedName none value])

/-- Type parameters without bounds. -/
def parameters (names : List String) : Node :=
  generics (names.map fun name => parameter (named name) [] none) false

/-! ## Expressions and patterns -/

/-- A variable in a pattern. -/
def binding (name : String) : Node :=
  capture [] name none

/-- A variable in a pattern with its type. -/
def input (name : String) (type : Node) : Node :=
  typed (binding name) type

/-- A field of a struct expression or pattern with what stands for it. -/
def fieldIs (name : String) (value : Node) : Node :=
  typed (verbatim [.word name]) value

/-- The receiver of a method, and the value it stands for. -/
def self : Node :=
  named "self"

/-- The declaration of a variable. -/
def letIs (name : String) (value : Node) : Node :=
  letStatement (binding name) (some value) none

/-! ## Items -/

/-- The node in public. -/
def isPublic (node : Node) : Node :=
  visible [.word "pub"] node

/-- A field of a struct with its type. -/
def publicField (name : String) (type : Node) : Node :=
  isPublic (typed (named name) type)

/-- A public function with a plain body. -/
def publicFunction (name : String) (generics : Option Node) (inputs : List Node)
    (comma : Bool) (output : Option Node) (body : List Node) : Node :=
  isPublic (function [] name generics inputs comma output none (some (block [] body)))

/-- Methods of a type. -/
def methodsOf (generics : Option Node) (type : Node) (items : List Node) : Node :=
  implementation [] generics false none type none items

/-- The implementation of a trait. -/
def traitFor (generics : Option Node) (trait type : Node) (items : List Node) : Node :=
  implementation [] generics false (some trait) type none items

end Slotwise.Code.Node
