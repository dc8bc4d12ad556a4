import Mathlib.Algebra.Group.Int.Defs
import Slotwise.Proofs.Quoting
import Slotwise.Proofs.Slots
/-!
# The meaning of tables in generated code

An enumeration comes with tables: constants that list its cases, and functions whose bodies choose
by cases, texts or positions. They are read here as the maps that they spell. A case has to be one
that the file declares, a number has to be in the range of its type and an array as long as its type
says, on a machine of 64 bits; code that asks for anything else has no value.

What a data format does with texts is left open except for one thing: what it has written for a
text, it reads as that text (`Format.faithful`).

Functions call each other, so evaluation is bounded in depth (`valueAt`). A call gives a result if
it does so under every bound beyond some bound (`Gives`), and it gives no other (`Gives.unique`).
-/

namespace Slotwise.Tables

open Code Naming

/-! ## Values -/

/-- How a data format writes and reads texts. -/
structure Format (Wire : Type) where
  /-- The written form of a text, if the format has one. -/
  write : String → Option Wire
  /-- The text that a written form stands for. -/
  read : Wire → Option String
  /-- What is written for a text is read as that text. -/
  faithful : ∀ {text wire}, write text = some wire → read wire = some text

/-- A value that is no case and no array. -/
inductive Atom (Wire : Type) where
  /-- A text. -/
  | text (content : String)
  /-- A number. -/
  | number (number : Int)
  /-- What writes in the format at hand. -/
  | writer
  /-- What reads a written form. -/
  | reader (wire : Wire)
  /-- A written form. -/
  | wire (wire : Wire)

/-- A value. An array is the tuple of its items, and optional values and results are cases. -/
abbrev Datum (Wire : Type) := Value (Atom Wire)

variable {Wire : Type}

/-- A text as a value. -/
def text (content : String) : Datum Wire := .data (.text content)

/-- A number as a value. -/
def number (number : Int) : Datum Wire := .data (.number number)

/-- A value that an operation succeeds with. -/
def success (value : Datum Wire) : Datum Wire := .case ["Ok"] [value]

/-- The failure of an operation. What it says is left out. -/
def failure : Datum Wire := .case ["Err"] []

/-- The value that may be there. -/
def optional : Option (Datum Wire) → Datum Wire
  | some value => .case ["Some"] [value]
  | none => .case ["None"] []

/-- What comes of an operation that may fail. -/
def outcome : Option (Datum Wire) → Datum Wire
  | some value => success value
  | none => failure

/-- The number that decimal digits stand for. -/
def numeral? (literal : String) : Option Nat :=
  if literal.toList ≠ [] ∧ literal.toList.all Char.isDigit then
    some (Nat.ofDigitChars 10 literal.toList 0)
  else none

/-- Whether a value has a place in a type: numbers are in the range of their type and arrays as long
as their type says. -/
def fitsType : Node → Datum Wire → Bool
  | .path false [.segment "usize" none], .data (.number n) => decide (0 ≤ n ∧ n < 2 ^ 64)
  | .path false [.segment "isize" none], .data (.number n) => decide (-2 ^ 63 ≤ n ∧ n < 2 ^ 63)
  | .repeated _ (.literal size), .tuple items => numeral? size == some items.length
  | _, _ => true

/-! ## What a file declares -/

/-- The name of a case without fields. -/
def caseName? : Node → Option String
  | .attributed _ item => caseName? item
  | .unitVariant name none => some (withoutRawMark name)
  | _ => none

/-- The cases of the enumeration `type` in an item. -/
def casesOf (type : String) : Node → List String
  | .attributed _ item => casesOf type item
  | .visible _ item => casesOf type item
  | .enumeration name _ _ variants _ =>
    if withoutRawMark name = type then variants.filterMap caseName? else []
  | _ => []

/-- The cases of the enumeration `type`. -/
def cases (file : File) (type : String) : List String :=
  file.items.flatMap (casesOf type)

/-- Whether these names lead to a case that the file declares. -/
def declares (file : File) : List String → Bool
  | [type, name] => (cases file type).contains name
  | _ => false

/-- What an implementation for `type` defines, for a trait or not. -/
def membersOf (type : String) : Node → List Node
  | .implementation _ _ _ _ subject _ items => if subject.names? = some [type] then items else []
  | _ => []

/-- What the file defines for `type`. -/
def members (file : File) (type : String) : List Node :=
  file.items.flatMap (membersOf type)

/-- A constant. -/
structure Constant where
  /-- The name. -/
  name : String
  /-- The type. -/
  type : Node
  /-- The expression for the value. -/
  value : Node

/-- The constant that an item defines. -/
def constantOf? : Node → Option Constant
  | .attributed _ item => constantOf? item
  | .visible _ item => constantOf? item
  | .constItem _ name type (some value) => some ⟨withoutRawMark name, type, value⟩
  | _ => none

/-- The one entry of a list with some property. -/
def single? {α : Type} (xs : List α) (p : α → Bool) : Option α :=
  match xs.filter p with
  | [x] => some x
  | _ => none

/-- The constant `name` of `type`. -/
def constant? (file : File) (type name : String) : Option Constant :=
  single? ((members file type).filterMap constantOf?) (·.name == name)

/-- The function `name` of `type`. -/
def function? (file : File) (type name : String) : Option Definition :=
  single? ((members file type).filterMap Node.definition?) (·.routine.name == name)

/-! ## Expressions -/

/-- The value of a literal. -/
def literalValue? (literal : String) : Option (Datum Wire) :=
  match Literal.textValue? literal with
  | some content => some (text content)
  | none => (numeral? literal).map fun n => number n

/-- Whether a value fits a pattern, unless that question makes no sense. -/
def fits? (file : File) (owner : String) : Node → Datum Wire → Option Bool
  | .wild, _ => some true
  | .literal literal, .data (.text content) => (Literal.textValue? literal).map (· == content)
  | .path rooted segments, .case names [] =>
    (Node.path rooted segments).names?.bind fun spelled =>
      if declares file (Node.resolve owner spelled) then
        some (Node.resolve owner spelled == names)
      else none
  | _, _ => none

/-- The variables that the inputs of a function bind. -/
def bindInputs? : List Node → List (Datum Wire) → Option (Variables (Atom Wire))
  | [], [] => some []
  | .path false [.segment "self" none] :: inputs, value :: values =>
    (bindInputs? inputs values).map (("self", value) :: ·)
  | .reference none [] (.path false [.segment "self" none]) :: inputs, value :: values =>
    (bindInputs? inputs values).map (("self", value) :: ·)
  | .typed (.capture [] name none) type :: inputs, value :: values =>
    if fitsType type value then
      (bindInputs? inputs values).map ((withoutRawMark name, value) :: ·)
    else none
  | _, _ => none

/-- The methods of optional values. -/
def optionalMethod? (tag : String) (payload : List (Datum Wire)) (name : String)
    (values : List (Datum Wire)) : Option (Datum Wire) :=
  match tag, payload, name, values with
  | "Some", [value], "copied", [] => some (optional (some value))
  | "None", [], "copied", [] => some (optional none)
  | "Some", [value], "unwrap_or", [_] => some value
  | "None", [], "unwrap_or", [other] => some other
  | _, _, _, _ => none

section Steps

variable (format : Format Wire) (file : File) (inner : Evaluator (Atom Wire))

/-- The value of some statements: that of the last one, or the failure that stops them before. -/
def bodyWith (owner : String) : Variables (Atom Wire) → List Node → Option (Datum Wire)
  | scope, [last] => inner owner scope last
  | scope, .letStatement (.capture [] name none) (some (.question subject)) none :: rest =>
    (inner owner scope subject).bind fun
      | .case ["Ok"] [value] => bodyWith owner ((withoutRawMark name, value) :: scope) rest
      | .case ["Err"] [] => some failure
      | _ => none
  | _, _ => none

/-- The value of the first arm whose pattern a value fits. -/
def chooseWith (owner : String) (scope : Variables (Atom Wire)) (value : Datum Wire) :
    List Node → Option (Datum Wire)
  | .arm pattern none body _ :: rest =>
    match fits? file owner pattern value with
    | some true => inner owner scope body
    | some false => chooseWith owner scope value rest
    | none => none
  | _ => none

/-- What a call of the function `name` of `type` gives. -/
def invokeWith (type name : String) (values : List (Datum Wire)) : Option (Datum Wire) :=
  (function? file type name).bind fun definition =>
    (bindInputs? definition.routine.inputs values).bind fun scope =>
      (bodyWith inner type scope definition.routine.body).filter fun result =>
        definition.output.all (fitsType · result)

/-- The value of the constant `name` of `type`. -/
def constantWith (type name : String) : Option (Datum Wire) :=
  (constant? file type name).bind fun constant =>
    (inner type [] constant.value).filter (fitsType constant.type)

/-- What a path of two steps stands for: a constant, or a case. -/
def memberWith (type name : String) : Option (Datum Wire) :=
  if (constant? file type name).isSome then constantWith file inner type name
  else if declares file [type, name] then some (.case [type, name] [])
  else none

/-- What a call along a path gives. -/
def calledWith (names : List String) (values : List (Datum Wire)) : Option (Datum Wire) :=
  if names = ["Ok"] then values.head?.map success
  else if names = ["String", "deserialize"] then
    match values with
    | [.data (.reader wire)] => some (outcome ((format.read wire).map text))
    | _ => none
  else
    match names with
    | [type, name] => invokeWith file inner type name values
    | _ => none

/-- What the call of a method gives. -/
def methodWith (value : Datum Wire) (name : String) (values : List (Datum Wire)) :
    Option (Datum Wire) :=
  match value with
  | .tuple items =>
    match name, values with
    | "get", [.data (.number (.ofNat index))] => some (optional items[index]?)
    | _, _ => none
  | .case [tag] payload => optionalMethod? tag payload name values
  | .case [type, _] [] => invokeWith file inner type name (value :: values)
  | .data .writer =>
    match name, values with
    | "serialize_str", [.data (.text content)] =>
      some (outcome ((format.write content).map fun wire => .data (.wire wire)))
    | _, _ => none
  | _ => none

/-- One step of evaluation, where `inner` is worth what the parts are. -/
def valueStep : Evaluator (Atom Wire) := fun owner scope node =>
  match node with
  | .literal literal => literalValue? literal
  | .unary "-" subject =>
    (inner owner scope subject).bind fun
      | .data (.number n) => some (number (-n))
      | _ => none
  | .reference none [] subject => inner owner scope subject
  | .list items _ => (items.mapM (inner owner scope)).map Value.tuple
  | .path rooted segments =>
    (Node.path rooted segments).names?.bind fun spelled =>
      match Node.resolve owner spelled with
      | [name] => scope.lookup name
      | [type, name] => memberWith file inner type name
      | _ => none
  | .choice subject arms =>
    (inner owner scope subject).bind fun value => chooseWith file inner owner scope value arms
  | .call function inputs _ =>
    function.names?.bind fun spelled =>
      (inputs.mapM (inner owner scope)).bind
        (calledWith format file inner (Node.resolve owner spelled))
  | .method receiver name none inputs _ =>
    (inner owner scope receiver).bind fun value =>
      (inputs.mapM (inner owner scope)).bind
        (methodWith format file inner value (withoutRawMark name))
  | _ => none

/-- The value of an expression that takes at most `depth` nested steps. -/
def valueAt : Nat → Evaluator (Atom Wire)
  | 0 => fun _ _ _ => none
  | depth + 1 => valueStep format file (valueAt depth)

/-- A call of the function `name` of `type` gives this result. -/
def Gives (type name : String) (values : List (Datum Wire)) (result : Datum Wire) : Prop :=
  ∃ enough, ∀ depth, enough ≤ depth →
    invokeWith file (valueAt format file depth) type name values = some result

/-- The constant `name` of `type` has this value. -/
def HasValue (type name : String) (value : Datum Wire) : Prop :=
  ∃ enough, ∀ depth, enough ≤ depth →
    constantWith file (valueAt format file depth) type name = some value

end Steps

section Evaluation

variable {format : Format Wire} {file : File} {type name : String}

/-- A call gives one result. -/
theorem Gives.unique {values : List (Datum Wire)} {result other : Datum Wire}
    (gives : Gives format file type name values result)
    (gives' : Gives format file type name values other) : result = other := by
  obtain ⟨enough, same⟩ := gives
  obtain ⟨enough', same'⟩ := gives'
  have both := (same (max enough enough') (Nat.le_max_left ..)).symm.trans
    (same' _ (Nat.le_max_right ..))
  exact Option.some.inj both

/-- A result that a call gives under every bound from some bound on. -/
theorem Gives.of_add (enough : Nat) {values : List (Datum Wire)} {result : Datum Wire}
    (each : ∀ depth, invokeWith file (valueAt format file (depth + enough)) type name values =
      some result) : Gives format file type name values result := by
  refine ⟨enough, fun depth le => ?_⟩
  obtain ⟨more, rfl⟩ := Nat.exists_eq_add_of_le' le
  exact each more

/-- A value that a constant has under every bound from some bound on. -/
theorem HasValue.of_add (enough : Nat) {value : Datum Wire}
    (each : ∀ depth, constantWith file (valueAt format file (depth + enough)) type name =
      some value) : HasValue format file type name value := by
  refine ⟨enough, fun depth le => ?_⟩
  obtain ⟨more, rfl⟩ := Nat.exists_eq_add_of_le' le
  exact each more

/-! ## Calls and constants -/

theorem numeral?_toString (n : Nat) : numeral? (toString n) = some n := by
  have written : (toString n).toList = Nat.toDigits 10 n := by
    rw [Nat.toString_eq_ofList_toDigits, String.toList_ofList]
  have filled := List.length_pos_iff.1 (Nat.length_toDigits_pos (b := 10) (n := n))
  have digits : (Nat.toDigits 10 n).all Char.isDigit = true := by
    rw [List.all_eq_true]
    exact fun c member => Nat.isDigit_of_mem_toDigits (by decide) (by decide) member
  rw [numeral?, written, if_pos ⟨filled, digits⟩, Nat.ofDigitChars_ten_toDigits]

variable {inner : Evaluator (Atom Wire)} {owner : String} {scope : Variables (Atom Wire)}

theorem invokeWith_eq_some (scope : Variables (Atom Wire)) {definition : Definition}
    {values : List (Datum Wire)} {output : Node} {result : Datum Wire}
    (found : function? file type name = some definition)
    (outputIs : definition.output = some output)
    (bound : bindInputs? definition.routine.inputs values = some scope)
    (fits : fitsType output result = true)
    (runs : bodyWith inner type scope definition.routine.body = some result) :
    invokeWith file inner type name values = some result := by
  rw [invokeWith, found, Option.bind_some, bound, Option.bind_some, runs, Option.filter_some,
    outputIs, Option.all_some, if_pos fits]

theorem constantWith_eq_some {constant : Constant} {value : Datum Wire}
    (found : constant? file type name = some constant)
    (valueIs : inner type [] constant.value = some value)
    (fits : fitsType constant.type value = true) :
    constantWith file inner type name = some value := by
  rw [constantWith, found, Option.bind_some, valueIs, Option.filter_some, if_pos fits]

theorem fitsType_case (type : Node) (path : List String) (payload : List (Datum Wire)) :
    fitsType type (.case path payload) = true := by
  unfold fitsType
  split <;> simp_all

theorem fitsType_outcome (type : Node) (result : Option (Datum Wire)) :
    fitsType type (outcome result) = true := by
  cases result <;> exact fitsType_case _ _ _

theorem fitsType_usize {n : Int} (lower : 0 ≤ n) (upper : n < 2 ^ 64) :
    fitsType (.named "usize") (number n : Datum Wire) = true :=
  decide_eq_true ⟨lower, upper⟩

theorem fitsType_isize {n : Int} (lower : -2 ^ 63 ≤ n) (upper : n < 2 ^ 63) :
    fitsType (.named "isize") (number n : Datum Wire) = true :=
  decide_eq_true ⟨lower, upper⟩

theorem fitsType_array {item : Node} {n : Nat} {items : List (Datum Wire)}
    (length : items.length = n) :
    fitsType (.repeated item (.literal (toString n))) (.tuple items) = true := by
  show (numeral? (toString n) == some items.length) = true
  rw [numeral?_toString, length, beq_self_eq_true]

theorem bindInputs?_input {input : String} {type : Node} {value : Datum Wire}
    (fits : fitsType type value = true) :
    bindInputs? [.input input type] [value] = some [(withoutRawMark input, value)] :=
  if_pos fits

theorem bodyWith_singleton (last : Node) :
    bodyWith inner owner scope [last] = inner owner scope last := rfl

/-- The declaration of a variable for what an operation succeeds with. -/
theorem bodyWith_letIs (input : String) (subject next : Node) (rest : List Node) :
    bodyWith inner owner scope (.letIs input (.question subject) :: next :: rest) =
      (inner owner scope subject).bind fun
        | .case ["Ok"] [value] =>
          bodyWith inner owner ((withoutRawMark input, value) :: scope) (next :: rest)
        | .case ["Err"] [] => some failure
        | _ => none := rfl

/-- What an operation succeeds with goes into a variable. -/
theorem bodyWith_success {input : String} {subject next : Node} {rest : List Node}
    {value : Datum Wire} (subjectIs : inner owner scope subject = some (success value)) :
    bodyWith inner owner scope (.letIs input (.question subject) :: next :: rest) =
      bodyWith inner owner ((withoutRawMark input, value) :: scope) (next :: rest) := by
  rw [bodyWith_letIs, subjectIs]
  rfl

/-- The failure of an operation stops the function. -/
theorem bodyWith_failure {input : String} {subject next : Node} {rest : List Node}
    (subjectIs : inner owner scope subject = some failure) :
    bodyWith inner owner scope (.letIs input (.question subject) :: next :: rest) =
      some failure := by
  rw [bodyWith_letIs, subjectIs]
  rfl

/-! ## Choices -/

theorem chooseWith_cons (pattern body : Node) (comma : Bool) (rest : List Node)
    (value : Datum Wire) :
    chooseWith file inner owner scope value (.arm pattern none body comma :: rest) =
      match fits? file owner pattern value with
      | some true => inner owner scope body
      | some false => chooseWith file inner owner scope value rest
      | none => none := rfl

/-- Where every pattern can tell the value, the first that it fits decides, and the arms behind them
if it fits none. -/
theorem chooseWith_find? {ι : Type} {xs : List ι} {pattern body : ι → Node} {value : Datum Wire}
    {tells : ι → Bool} (each : ∀ x ∈ xs, fits? file owner (pattern x) value = some (tells x))
    (rest : List Node) :
    chooseWith file inner owner scope value
        ((xs.map fun x => Node.arm (pattern x) none (body x) true) ++ rest) =
      match xs.find? tells with
      | some x => inner owner scope (body x)
      | none => chooseWith file inner owner scope value rest := by
  -- an arm that the value fits ends the search, and any other one is passed over
  induction xs with
  | nil => rfl
  | cons x others ih =>
    rw [List.map_cons, List.cons_append, chooseWith_cons, each x List.mem_cons_self, List.find?_cons]
    cases tells x with
    | true => rfl
    | false => exact ih fun y member => each y (List.mem_cons_of_mem _ member)

/-! ## Forms -/

variable {depth : Nat}

/-- A path: a variable, a constant or a case. -/
theorem valueAt_path (rooted : Bool) (segments : List Node) :
    valueAt format file (depth + 1) owner scope (.path rooted segments) =
      (Node.path rooted segments).names?.bind fun spelled =>
        match Node.resolve owner spelled with
        | [name] => scope.lookup name
        | [type, name] => memberWith file (valueAt format file depth) type name
        | _ => none := rfl

/-- A path of two steps inside a type. -/
theorem valueAt_member {first second type : String}
    (resolved : Node.resolve owner ([first, second].map withoutRawMark) = [type, name]) :
    valueAt format file (depth + 1) owner scope (.namedAlong [first, second]) =
      memberWith file (valueAt format file depth) type name := by
  refine (valueAt_path _ _).trans ?_
  show (Node.namedAlong [first, second]).names?.bind _ = _
  rw [Node.names?_namedAlong, Option.bind_some, resolved]

theorem valueAt_literal (literal : String) :
    valueAt format file (depth + 1) owner scope (.literal literal) = literalValue? literal := rfl

theorem valueAt_variable {name : String} {value : Datum Wire}
    (found : scope.lookup (withoutRawMark name) = some value)
    (other : withoutRawMark name ≠ "Self") :
    valueAt format file (depth + 1) owner scope (.named name) = some value := by
  refine (valueAt_path _ _).trans ?_
  show (Node.named name).names?.bind _ = _
  rw [Node.names?_named, Option.bind_some, Node.resolve_of_ne other]
  exact found

theorem mapM_singleton {node : Node} {value : Datum Wire}
    (valueIs : inner owner scope node = some value) :
    [node].mapM (inner owner scope) = some [value] := by
  simp [valueIs]

theorem valueAt_choice (subject : Node) (arms : List Node) :
    valueAt format file (depth + 1) owner scope (.choice subject arms) =
      (valueAt format file depth owner scope subject).bind fun value =>
        chooseWith file (valueAt format file depth) owner scope value arms := rfl

theorem valueAt_shared (subject : Node) :
    valueAt format file (depth + 1) owner scope (.shared subject) =
      valueAt format file depth owner scope subject := rfl

theorem valueAt_list (items : List Node) (comma : Bool) :
    valueAt format file (depth + 1) owner scope (.list items comma) =
      (items.mapM (valueAt format file depth owner scope)).map Value.tuple := rfl

theorem valueAt_negative {subject : Node} {n : Int}
    (subjectIs : valueAt format file depth owner scope subject = some (number n)) :
    valueAt format file (depth + 1) owner scope (.unary "-" subject) = some (number (-n)) := by
  show (valueAt format file depth owner scope subject).bind _ = _
  rw [subjectIs]
  rfl

theorem valueAt_method (name : String) {receiver : Node} {value : Datum Wire}
    {inputs : List Node} {values : List (Datum Wire)}
    (receiverIs : valueAt format file depth owner scope receiver = some value)
    (inputsAre : inputs.mapM (valueAt format file depth owner scope) = some values)
    {result : Datum Wire}
    (gives : methodWith format file (valueAt format file depth) value (withoutRawMark name) values =
      some result) (comma : Bool) :
    valueAt format file (depth + 1) owner scope (.method receiver name none inputs comma) =
      some result := by
  show (valueAt format file depth owner scope receiver).bind (fun value =>
    (inputs.mapM (valueAt format file depth owner scope)).bind
      (methodWith format file (valueAt format file depth) value (withoutRawMark name))) = _
  rw [receiverIs, Option.bind_some, inputsAre, Option.bind_some, gives]

theorem valueAt_call {function : Node} {names : List String} {inputs : List Node}
    {values : List (Datum Wire)} (spelled : function.names?.map (Node.resolve owner) = some names)
    (inputsAre : inputs.mapM (valueAt format file depth owner scope) = some values)
    {result : Datum Wire}
    (gives : calledWith format file (valueAt format file depth) names values = some result)
    (comma : Bool) :
    valueAt format file (depth + 1) owner scope (.call function inputs comma) = some result := by
  obtain ⟨names', spelledIs, rfl⟩ := Option.map_eq_some_iff.1 spelled
  show function.names?.bind (fun spelled =>
    (inputs.mapM (valueAt format file depth owner scope)).bind
      (calledWith format file (valueAt format file depth) (Node.resolve owner spelled))) = _
  rw [spelledIs, Option.bind_some, inputsAre, Option.bind_some, gives]

/-- An item of an array, if there is one. -/
theorem methodWith_get (items : List (Datum Wire)) (i : Nat) :
    methodWith format file inner (.tuple items) "get" [number i] = some (optional items[i]?) := rfl

theorem methodWith_copied (found : Option (Datum Wire)) :
    methodWith format file inner (optional found) "copied" [] = some (optional found) := by
  cases found <;> rfl

theorem methodWith_unwrap (found : Option (Datum Wire)) (other : Datum Wire) :
    methodWith format file inner (optional found) "unwrap_or" [other] =
      some (found.getD other) := by
  cases found <;> rfl

theorem methodWith_serialize (content : String) :
    methodWith format file inner (.data .writer) "serialize_str" [text content] =
      some (outcome ((format.write content).map fun wire => .data (.wire wire))) := rfl

/-- The call of a method of an enumeration of the file. -/
theorem methodWith_case (type key : String) (values : List (Datum Wire)) :
    methodWith format file inner (.case [type, key] []) name values =
      invokeWith file inner type name (.case [type, key] [] :: values) := rfl

theorem calledWith_ok (value : Datum Wire) :
    calledWith format file inner ["Ok"] [value] = some (success value) := rfl

theorem calledWith_deserialize (wire : Wire) :
    calledWith format file inner ["String", "deserialize"] [.data (.reader wire)] =
      some (outcome ((format.read wire).map text)) := rfl

/-- The call of a function of the file. -/
theorem calledWith_member (other : name ≠ "deserialize") (values : List (Datum Wire)) :
    calledWith format file inner [type, name] values = invokeWith file inner type name values := by
  simp [calledWith, other]

/-- The case that a path of two steps leads to. -/
theorem valueAt_case {first second type : String}
    (resolved : Node.resolve owner ([first, second].map withoutRawMark) = [type, name])
    (noConstant : constant? file type name = none) (declared : declares file [type, name] = true) :
    valueAt format file (depth + 1) owner scope (.namedAlong [first, second]) =
      some (.case [type, name] []) := by
  rw [valueAt_member resolved]
  simp [memberWith, noConstant, declared]

/-- The constant that a path of two steps leads to. -/
theorem valueAt_constant {first second type : String}
    (resolved : Node.resolve owner ([first, second].map withoutRawMark) = [type, name])
    {value : Datum Wire}
    (constantIs : constantWith file (valueAt format file depth) type name = some value) :
    valueAt format file (depth + 1) owner scope (.namedAlong [first, second]) = some value := by
  -- a constant comes before a case of its name, so it is enough that there is one
  have found : (constant? file type name).isSome = true := by
    rw [constantWith] at constantIs
    obtain ⟨constant, known, -⟩ := Option.bind_eq_some_iff.1 constantIs
    rw [known, Option.isSome_some]
  rw [valueAt_member resolved]
  simp only [memberWith, found, if_true, constantIs]

theorem valueAt_text (content : String) :
    valueAt format file (depth + 1) owner scope (.literal (Text.quoteLiteral content)) =
      some (text content) := by
  rw [valueAt_literal, literalValue?, Literal.textValue?_quoteLiteral]

theorem textValue?_toString (n : Nat) : Literal.textValue? (toString n) = none := by
  -- a text starts with a quote or with the mark of a raw text, and a number with a digit
  have digit : ∀ c ∈ (toString n).toList, c.isDigit = true := by
    intro c member
    rw [Nat.toString_eq_ofList_toDigits, String.toList_ofList] at member
    exact Nat.isDigit_of_mem_toDigits (by decide) (by decide) member
  unfold Literal.textValue?
  split
  · next start =>
    have wrong := digit '"' (by rw [start]; exact List.mem_cons_self)
    exact absurd wrong (by decide)
  · next start =>
    have wrong := digit 'r' (by rw [start]; exact List.mem_cons_self)
    exact absurd wrong (by decide)
  · rfl

theorem valueAt_number (n : Nat) :
    valueAt format file (depth + 1) owner scope (.literal (toString n)) = some (number n) := by
  rw [valueAt_literal, literalValue?, textValue?_toString, numeral?_toString]
  rfl

theorem fits?_text (content other : String) :
    fits? file owner (.literal (Text.quoteLiteral content)) (text other : Datum Wire) =
      some (content == other) := by
  show (Literal.textValue? (Text.quoteLiteral content)).map (· == other) = _
  rw [Literal.textValue?_quoteLiteral, Option.map_some]

theorem fits?_case {first second type other : String}
    (resolved : Node.resolve owner ([first, second].map withoutRawMark) = [type, name])
    (declared : declares file [type, name] = true) :
    fits? file owner (.namedAlong [first, second]) (.case [type, other] [] : Datum Wire) =
      some (name == other) := by
  show (Node.namedAlong [first, second]).names?.bind (fun spelled =>
    if declares file (Node.resolve owner spelled) then
      some (Node.resolve owner spelled == [type, other])
    else none) = _
  rw [Node.names?_namedAlong, Option.bind_some, resolved, if_pos declared]
  simp

end Evaluation

end Slotwise.Tables
