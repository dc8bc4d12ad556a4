import Slotwise.Naming
import Slotwise.Code.Build
/-!
# The meaning of generated code

Generated code is read as the maps that it spells: an expression has a value for given values of its
variables. Paths, struct literals, patterns and calls mean what they say. A value of a generated
enumeration is known by the path of its case and a struct by the path of its type, so nothing has to
be looked up but the functions and methods of imported files.

Values that the code only passes along are `Data`; what it does to call or to await one of them is
left to the world. Code that is stuck, as a struct literal that gives one field twice is, has no
value, and neither has code that runs forever. Boxes, pins, reference counts and references do not
show in values.

Closures make evaluation a recursion without measure, so it is first bounded in depth (`evalAt`);
the value of an expression is the one that it has at some depth (`eval`). One step of evaluation
asks for finitely many values only (`finitary_evalStep`).

Main statement: values obey the rules of evaluation without a bound (`eval_eq_evalStep`).
-/

namespace Slotwise.Code

open Naming

/-- A value of a running program. -/
inductive Value (Data : Type) where
  /-- A value that the code knows nothing about. -/
  | data (datum : Data)
  /-- A tuple. -/
  | tuple (items : List (Value Data))
  /-- A struct, or a case with named fields. -/
  | record (path : List String) (fields : List (String × Value Data))
  /-- A case with numbered fields. -/
  | case (path : List String) (payload : List (Value Data))
  /-- A closure with the type around it and the variables that it sees. -/
  | closure (owner : String) (inputs : List Node) (body : Node)
      (scope : List (String × Value Data))
  /-- A future that runs these statements when it is awaited. -/
  | pending (owner : String) (statements : List Node) (scope : List (String × Value Data))

/-- The values of variables, the last one bound first. -/
abbrev Variables (Data : Type) := List (String × Value Data)

/-! ## Names -/

namespace Node

/-- The names that a path without arguments to its first steps goes along. A raw mark is no part of
a name. -/
def names? : Node → Option (List String)
  | path false segments => segments.mapM fun
    | segment name _ => some (withoutRawMark name)
    | _ => none
  | _ => none

/-- The path with `Self` replaced by the type around it. -/
def resolve (owner : String) : List String → List String
  | "Self" :: rest => owner :: rest
  | names => names

/-- The field that an item of a struct literal or pattern stands for. -/
def fieldName? : Node → Option String
  | typed (verbatim [.word name]) _ => some (withoutRawMark name)
  | capture [] name none => some (withoutRawMark name)
  | path false [segment name none] => some (withoutRawMark name)
  | _ => none

/-- What an item of a struct literal or pattern says about its field. -/
def fieldContent : Node → Node
  | typed (verbatim [.word _]) content => content
  | item => item

/-- The value that gives the fields which a struct literal does not mention. -/
def baseOfLiteral? : Node → Option Node
  | range none false (some base) => some base
  | _ => none

/-- Whether an item of a struct pattern stands for all fields that are not mentioned. -/
def isRest : Node → Bool
  | range none false none => true
  | _ => false

/-- Functions that put a value behind a pointer. -/
def isPointerMaker (names : List String) : Bool :=
  [["Box", "new"], ["Box", "pin"], ["Rc", "new"], ["Rc", "clone"]].contains names

end Node

/-! ## Functions and methods -/

/-- A function with a body. -/
structure Routine where
  /-- The name. -/
  name : String
  /-- Whether a call gives a future. -/
  isAsync : Bool
  /-- The inputs, a receiver first. -/
  inputs : List Node
  /-- The statements of the body. -/
  body : List Node

/-- Whether a token marks functions that give futures. -/
def isAsync : Token → Bool
  | .word "async" => true
  | _ => false

/-- The function that an item defines. -/
def Node.routine? : Node → Option Routine
  | attributed _ item => item.routine?
  | visible _ item => item.routine?
  | function qualifiers name _ inputs _ _ _ (some (block [] statements)) =>
    some ⟨withoutRawMark name, qualifiers.any isAsync, inputs, statements⟩
  | _ => none

/-- The methods that an implementation defines on `type` itself. -/
def Node.methodsOn (type : String) : Node → List Routine
  | implementation _ _ _ none subject _ items =>
    if subject.names? = some [type] then items.filterMap routine? else []
  | _ => []

namespace File

/-- The function `name` of a file. -/
def function? (file : File) (name : String) : Option Routine :=
  (file.items.filterMap Node.routine?).find? (·.name == name)

/-- The methods that a file defines on `type` itself. -/
def methodsOn (file : File) (type : String) : List Routine :=
  file.items.flatMap (Node.methodsOn type)

end File

/-- What there is besides the code at hand. -/
structure World (Data : Type) where
  /-- The files with functions and methods that the code uses. -/
  files : List File
  /-- What comes of calling a value that the code knows nothing about. -/
  call : Data → List (Value Data) → Option (Value Data)
  /-- What comes of awaiting a value that the code knows nothing about. -/
  awaited : Data → Option (Value Data)

namespace World

variable {Data : Type}

/-- The function `name`. -/
def function? (world : World Data) (name : String) : Option Routine :=
  world.files.findSome? (·.function? name)

/-- The method `name` of `type`. -/
def method? (world : World Data) (type name : String) : Option Routine :=
  (world.files.flatMap (·.methodsOn type)).find? (·.name == name)

end World

/-! ## Patterns -/

section Patterns

variable {Data : Type}

/-- Two matches together: stuck if one of them is, and apart if one of them is. -/
def bothFit (first second : Option (Option (Variables Data))) :
    Option (Option (Variables Data)) := do
  match ← first, ← second with
  | some xs, some ys => some (some (xs ++ ys))
  | _, _ => some none

/-- Whether the items of a struct pattern mention every field once, or leave the rest open. -/
def mentionsOnce (items : List Node) (fields : Variables Data) : Bool :=
  let names := items.filterMap Node.fieldName?
  decide names.Nodup && (items.any Node.isRest || fields.all fun field => names.contains field.1)

mutual

/-- The variables that a pattern binds to parts of a value, nothing inside if the value does not fit
the pattern, and nothing at all if that question makes no sense. -/
def matchPattern (owner : String) : Node → Value Data → Option (Option (Variables Data))
  | .wild, _ => some (some [])
  | .capture [] name none, value => some (some [(withoutRawMark name, value)])
  | .typed pattern _, value => matchPattern owner pattern value
  | .tuple patterns _, .tuple values => matchAll owner patterns values
  | .call subject patterns _, .case path values =>
    match subject.names? with
    | some names =>
      if Node.resolve owner names = path then matchAll owner patterns values else some none
    | none => none
  | .fields subject items _, .record path fields =>
    match subject.names? with
    | some names =>
      if Node.resolve owner names = path then
        if mentionsOnce items fields then matchFields owner items fields else none
      else some none
    | none => none
  | _, _ => none

/-- The variables that patterns bind to parts of values, one pattern for each. -/
def matchAll (owner : String) : List Node → List (Value Data) → Option (Option (Variables Data))
  | [], [] => some (some [])
  | pattern :: patterns, value :: values =>
    bothFit (matchPattern owner pattern value) (matchAll owner patterns values)
  | _, _ => none

/-- The variables that the items of a struct pattern bind to parts of fields. -/
def matchFields (owner : String) : List Node → Variables Data → Option (Option (Variables Data))
  | [], _ => some (some [])
  | .range none false none :: _, _ => some (some [])
  | .typed (.verbatim [.word name]) pattern :: items, fields =>
    match fields.lookup (withoutRawMark name) with
    | some value => bothFit (matchPattern owner pattern value) (matchFields owner items fields)
    | none => none
  | .capture [] name none :: items, fields =>
    match fields.lookup (withoutRawMark name) with
    | some value =>
      bothFit (some (some [(withoutRawMark name, value)])) (matchFields owner items fields)
    | none => none
  | _, _ => none

end

section Forms

variable {owner : String}

theorem matchPattern_pair (first second : Node) (comma : Bool) (x y : Value Data) :
    matchPattern owner (.tuple [first, second] comma) (.tuple [x, y]) =
      bothFit (matchPattern owner first x)
        (bothFit (matchPattern owner second y) (some (some []))) := rfl

/-- A pattern for a case, whose name is read from a path. -/
theorem matchPattern_case {subject : Node} {names : List String}
    (spelled : subject.names? = some names) (patterns : List Node) (comma : Bool)
    (path : List String) (values : List (Value Data)) :
    matchPattern owner (.call subject patterns comma) (.case path values) =
      if Node.resolve owner names = path then matchAll owner patterns values else some none := by
  show (match subject.names? with
    | some names =>
      if Node.resolve owner names = path then matchAll owner patterns values else some none
    | none => none) = _
  rw [spelled]

/-- A struct pattern, whose name is read from a path. -/
theorem matchPattern_record {subject : Node} {names : List String}
    (spelled : subject.names? = some names) (items : List Node) (comma : Bool)
    (path : List String) (fields : Variables Data) :
    matchPattern owner (.fields subject items comma) (.record path fields) =
      if Node.resolve owner names = path then
        if mentionsOnce items fields then matchFields owner items fields else none
      else some none := by
  show (match subject.names? with
    | some names =>
      if Node.resolve owner names = path then
        if mentionsOnce items fields then matchFields owner items fields else none
      else some none
    | none => none) = _
  rw [spelled]

/-- An item of a struct pattern that has a pattern for a field. -/
theorem matchFields_typed {name : String} {fields : Variables Data} {value : Value Data}
    (found : fields.lookup (withoutRawMark name) = some value) (pattern : Node)
    (items : List Node) :
    matchFields owner (.typed (.verbatim [.word name]) pattern :: items) fields =
      bothFit (matchPattern owner pattern value) (matchFields owner items fields) := by
  show (match fields.lookup (withoutRawMark name) with
    | some value => bothFit (matchPattern owner pattern value) (matchFields owner items fields)
    | none => none) = _
  rw [found]

/-- An item of a struct pattern that is a variable named like a field. -/
theorem matchFields_capture {name : String} {fields : Variables Data} {value : Value Data}
    (found : fields.lookup (withoutRawMark name) = some value) (items : List Node) :
    matchFields owner (.capture [] name none :: items) fields =
      bothFit (some (some [(withoutRawMark name, value)])) (matchFields owner items fields) := by
  show (match fields.lookup (withoutRawMark name) with
    | some value =>
      bothFit (some (some [(withoutRawMark name, value)])) (matchFields owner items fields)
    | none => none) = _
  rw [found]

end Forms

/-- The variables that the inputs of a function bind to its arguments. -/
def bindInputs (owner : String) : List Node → List (Value Data) → Option (Variables Data)
  | [], [] => some []
  | .path false [.segment "self" none] :: inputs, value :: values => do
    return ("self", value) :: (← bindInputs owner inputs values)
  | input :: inputs, value :: values =>
    match matchPattern owner input value with
    | some (some scope) => do return scope ++ (← bindInputs owner inputs values)
    | _ => none
  | _, _ => none

end Patterns

/-! ## Expressions -/

/-- The fields with those replaced that are given. -/
def overlay {Data : Type} (given fields : Variables Data) : Variables Data :=
  fields.map fun (name, value) => (name, (given.lookup name).getD value)

/-- The type whose methods a value has. -/
def Value.type? {Data : Type} : Value Data → Option String
  | record (type :: _) _ => some type
  | case (type :: _) _ => some type
  | _ => none

/-- What expressions inside the methods of a type are worth for values of their variables. -/
abbrev Evaluator (Data : Type) := String → Variables Data → Node → Option (Value Data)

section Steps

variable {Data : Type} (world : World Data) (inner : Evaluator Data)

/-- The value of the last of some statements. -/
def runWith (owner : String) : Variables Data → List Node → Option (Value Data)
  | _, [] => some (.tuple [])
  | scope, [last] => inner owner scope last
  | scope, .letStatement pattern (some subject) none :: rest =>
    (inner owner scope subject).bind fun value =>
      match matchPattern owner pattern value with
      | some (some bound) => runWith owner (bound ++ scope) rest
      | _ => none
  | _, _ => none

/-- The value of the first arm whose pattern a value fits. -/
def selectWith (owner : String) (scope : Variables Data) (value : Value Data) :
    List Node → Option (Value Data)
  | .arm pattern none body _ :: rest =>
    match matchPattern owner pattern value with
    | some (some bound) => inner owner (bound ++ scope) body
    | some none => selectWith owner scope value rest
    | none => none
  | _ => none

/-- The value of a function at some arguments. -/
def applyWith (function : Value Data) (values : List (Value Data)) : Option (Value Data) :=
  match function with
  | .closure owner inputs body scope =>
    (bindInputs owner inputs values).bind fun bound => inner owner (bound ++ scope) body
  | .data datum => world.call datum values
  | _ => none

/-- The value of a future. -/
def awaitWith : Value Data → Option (Value Data)
  | .pending owner statements scope => runWith inner owner scope statements
  | .data datum => world.awaited datum
  | _ => none

/-- The value of a routine of `owner` at some arguments. -/
def callWith (owner : String) (routine : Routine) (values : List (Value Data)) :
    Option (Value Data) :=
  (bindInputs owner routine.inputs values).bind fun bound =>
    if routine.isAsync then some (.pending owner routine.body bound)
    else runWith inner owner bound routine.body

/-- What the items of a struct literal give. -/
def givenWith (owner : String) (scope : Variables Data) (items : List Node) :
    Option (Variables Data) :=
  (items.filter fun item => item.baseOfLiteral?.isNone).mapM fun item =>
    item.fieldName?.bind fun name =>
      (inner owner scope item.fieldContent).map fun value => (name, value)

/-- One step of evaluation, where `inner` is worth what the parts are. -/
def evalStep : Evaluator Data := fun owner scope node =>
  match node with
  | .path _ _ =>
    node.names?.bind fun
      | [name] => scope.lookup name
      | names => some (.case (Node.resolve owner names) [])
  | .paren subject => inner owner scope subject
  | .reference _ _ subject => inner owner scope subject
  | .unary _ subject => inner owner scope subject
  | .tuple items _ => (items.mapM (inner owner scope)).map Value.tuple
  | .member subject name =>
    (inner owner scope subject).bind fun
      | .record _ fields => fields.lookup (withoutRawMark name)
      | _ => none
  | .fields subject items _ =>
    subject.names?.bind fun names =>
      (givenWith inner owner scope items).bind fun given =>
        if (given.map Prod.fst).Nodup then
          match items.findSome? Node.baseOfLiteral? with
          | none => some (.record (Node.resolve owner names) given)
          | some base =>
            (inner owner scope base).bind fun
              | .record path fields => some (.record path (overlay given fields))
              | _ => none
        else none
  | .call subject inputs _ =>
    (inputs.mapM (inner owner scope)).bind fun values =>
      match subject.names? with
      | some [name] =>
        match scope.lookup name with
        | some function => applyWith world inner function values
        | none => (world.function? name).bind fun routine => callWith inner "" routine values
      | some names =>
        if Node.isPointerMaker names then values.head?
        else some (.case (Node.resolve owner names) values)
      | none =>
        (inner owner scope subject).bind fun function => applyWith world inner function values
  | .method receiver name _ inputs _ =>
    (inner owner scope receiver).bind fun value =>
      (inputs.mapM (inner owner scope)).bind fun values =>
        value.type?.bind fun type =>
          (world.method? type (withoutRawMark name)).bind fun routine =>
            callWith inner type routine (value :: values)
  | .closure _ _ inputs _ _ body => some (.closure owner inputs body scope)
  | .block [] statements => runWith inner owner scope statements
  | .block ["async", "move"] statements => some (.pending owner statements scope)
  | .await subject => (inner owner scope subject).bind (awaitWith world inner)
  | .choice subject arms =>
    (inner owner scope subject).bind fun value => selectWith inner owner scope value arms
  | _ => none

end Steps

section Evaluation

variable {Data : Type} (world : World Data)

/-- The value of an expression that takes at most `depth` nested steps. -/
def evalAt : Nat → Evaluator Data
  | 0 => fun _ _ _ => none
  | depth + 1 => evalStep world (evalAt depth)

open Classical in
/-- What is there from some depth on. -/
noncomputable def limit {α : Type} (values : Nat → Option α) : Option α :=
  if h : ∃ depth, (values depth).isSome then values h.choose else none

/-- The value of an expression inside the methods of `owner`. -/
noncomputable def eval : Evaluator Data := fun owner scope node =>
  limit fun depth => evalAt world depth owner scope node

/-- The value of the last of some statements. -/
noncomputable def run (owner : String) (scope : Variables Data) (statements : List Node) :
    Option (Value Data) :=
  runWith (eval world) owner scope statements

/-- The value of the first arm whose pattern a value fits. -/
noncomputable def select (owner : String) (scope : Variables Data) (arms : List Node)
    (value : Value Data) : Option (Value Data) :=
  selectWith (eval world) owner scope value arms

/-- The value of a function at some arguments. -/
noncomputable def apply (function : Value Data) (values : List (Value Data)) :
    Option (Value Data) :=
  applyWith world (eval world) function values

/-- The value of a future. -/
noncomputable def await (future : Value Data) : Option (Value Data) :=
  awaitWith world (eval world) future

/-- The value of a routine of `owner` at some arguments. -/
noncomputable def call (owner : String) (routine : Routine) (values : List (Value Data)) :
    Option (Value Data) :=
  callWith (eval world) owner routine values

end Evaluation

/-! ## Evaluation without a bound -/

section Limits

variable {Data α β : Type}

/-- The second evaluator knows all values that the first one knows. -/
def Evaluator.Below (inner outer : Evaluator Data) : Prop :=
  ∀ owner scope node value, inner owner scope node = some value →
    outer owner scope node = some value

/-- Evaluators that know more and more values. -/
def Increasing (chain : Nat → Evaluator Data) : Prop :=
  ∀ m n, m ≤ n → (chain m).Below (chain n)

/-- The evaluator that knows all values of a chain. -/
noncomputable def limitOf (chain : Nat → Evaluator Data) : Evaluator Data :=
  fun owner scope node => limit fun n => chain n owner scope node

/-- A result that rests on finitely many values: it stays as more values are known, and what rests
on the values of a whole chain already rests on those of one member. -/
structure Finitary (result : Evaluator Data → Option α) : Prop where
  /-- More values do no harm. -/
  mono : ∀ inner outer : Evaluator Data, inner.Below outer →
    ∀ value, result inner = some value → result outer = some value
  /-- Finitely many values suffice. -/
  finite : ∀ chain, Increasing chain →
    ∀ value, result (limitOf chain) = some value → ∃ n, result (chain n) = some value

theorem limit_eq_some_iff {values : Nat → Option α}
    (stays : ∀ m n, m ≤ n → ∀ value, values m = some value → values n = some value) {value : α} :
    limit values = some value ↔ ∃ n, values n = some value := by
  classical
  unfold limit
  constructor
  · intro h
    split at h
    · exact ⟨_, h⟩
    · cases h
  · rintro ⟨n, found⟩
    have known : ∃ depth, (values depth).isSome := ⟨n, by simp [found]⟩
    rw [dif_pos known]
    obtain ⟨other, chosen⟩ := Option.isSome_iff_exists.1 known.choose_spec
    -- whichever depth was chosen, both values are there from the greater depth on
    have first := stays n (max n known.choose) (Nat.le_max_left _ _) value found
    have second := stays known.choose (max n known.choose) (Nat.le_max_right _ _) other chosen
    rw [first] at second
    rw [chosen, ← second]

namespace Finitary

theorem const (result : Option α) : Finitary fun _ : Evaluator Data => result :=
  ⟨fun _ _ _ _ h => h, fun _ _ _ h => ⟨0, h⟩⟩

theorem inner (owner : String) (scope : Variables Data) (node : Node) :
    Finitary fun inner : Evaluator Data => inner owner scope node := by
  refine ⟨fun _ _ below value h => below owner scope node value h, ?_⟩
  intro chain increasing value h
  exact (limit_eq_some_iff fun m n le => increasing m n le owner scope node).1 h

theorem bind {result : Evaluator Data → Option α} {next : Evaluator Data → α → Option β}
    (first : Finitary result) (second : ∀ a, Finitary fun inner => next inner a) :
    Finitary fun inner => (result inner).bind (next inner) := by
  constructor
  · intro inner outer below value h
    obtain ⟨a, found, h⟩ := Option.bind_eq_some_iff.1 h
    exact Option.bind_eq_some_iff.2
      ⟨a, first.mono _ _ below a found, (second a).mono _ _ below value h⟩
  · intro chain increasing value h
    obtain ⟨a, found, h⟩ := Option.bind_eq_some_iff.1 h
    obtain ⟨m, foundAt⟩ := first.finite chain increasing a found
    obtain ⟨n, hAt⟩ := (second a).finite chain increasing value h
    have left := increasing m (max m n) (Nat.le_max_left m n)
    have right := increasing n (max m n) (Nat.le_max_right m n)
    exact ⟨max m n, Option.bind_eq_some_iff.2
      ⟨a, first.mono _ _ left a foundAt, (second a).mono _ _ right value hAt⟩⟩

theorem map {result : Evaluator Data → Option α} (first : Finitary result) (f : α → β) :
    Finitary fun inner => (result inner).map f := by
  simp only [Option.map_eq_bind]
  exact first.bind fun a => const (some (f a))

theorem mapM {xs : List α} {result : Evaluator Data → α → Option β}
    (each : ∀ x, Finitary fun inner => result inner x) :
    Finitary fun inner => xs.mapM (result inner) := by
  induction xs with
  | nil => exact const (some [])
  | cons x rest ih =>
    simp only [List.mapM_cons]
    exact (each x).bind fun y => ih.bind fun ys => const (some (y :: ys))

end Finitary

section Steps

variable (world : World Data) (owner : String)

theorem finitary_runWith (scope : Variables Data) (statements : List Node) :
    Finitary fun inner => runWith inner owner scope statements := by
  induction statements generalizing scope with
  | nil => exact Finitary.const _
  | cons statement rest ih =>
    cases rest with
    | nil =>
      simp only [runWith]
      exact Finitary.inner owner scope statement
    | cons next others =>
      by_cases isLet : ∃ pattern subject, statement = .letStatement pattern (some subject) none
      · obtain ⟨pattern, subject, rfl⟩ := isLet
        simp only [runWith]
        refine (Finitary.inner owner scope subject).bind fun value => ?_
        split
        · exact ih _
        · exact Finitary.const none
      · have stuck (inner : Evaluator Data) :
            runWith inner owner scope (statement :: next :: others) = none := by
          unfold runWith
          split <;> simp_all
        simp only [stuck]
        exact Finitary.const none

theorem finitary_selectWith (scope : Variables Data) (value : Value Data) (arms : List Node) :
    Finitary fun inner => selectWith inner owner scope value arms := by
  induction arms with
  | nil => exact Finitary.const none
  | cons arm rest ih =>
    unfold selectWith
    split
    · next same =>
      cases same
      split
      · exact Finitary.inner _ _ _
      · exact ih
      · exact Finitary.const none
    · exact Finitary.const none

theorem finitary_applyWith (function : Value Data) (values : List (Value Data)) :
    Finitary fun inner => applyWith world inner function values := by
  unfold applyWith
  split
  · exact (Finitary.const _).bind fun bound => Finitary.inner _ _ _
  · exact Finitary.const _
  · exact Finitary.const none

theorem finitary_awaitWith (future : Value Data) :
    Finitary fun inner => awaitWith world inner future := by
  unfold awaitWith
  split
  · exact finitary_runWith _ _ _
  · exact Finitary.const _
  · exact Finitary.const none

theorem finitary_callWith (routine : Routine) (values : List (Value Data)) :
    Finitary fun inner => callWith inner owner routine values := by
  refine (Finitary.const _).bind fun bound => ?_
  split
  · exact Finitary.const _
  · exact finitary_runWith _ _ _

/-- One step of evaluation asks for finitely many values. -/
theorem finitary_evalStep (scope : Variables Data) (node : Node) :
    Finitary fun inner => evalStep world inner owner scope node := by
  unfold evalStep
  split
  · exact Finitary.const _
  · exact Finitary.inner _ _ _
  · exact Finitary.inner _ _ _
  · exact Finitary.inner _ _ _
  · exact (Finitary.mapM fun item => Finitary.inner _ _ item).map _
  · exact (Finitary.inner _ _ _).bind fun value => Finitary.const _
  · refine (Finitary.const _).bind fun names => ?_
    have given (items : List Node) : Finitary fun inner => givenWith inner owner scope items :=
      Finitary.mapM fun item => (Finitary.const _).bind fun name => (Finitary.inner _ _ _).map _
    refine (given _).bind fun fields => ?_
    split
    · split
      · exact Finitary.const _
      · exact (Finitary.inner _ _ _).bind fun value => Finitary.const _
    · exact Finitary.const none
  · refine (Finitary.mapM fun item => Finitary.inner _ _ item).bind fun values => ?_
    split
    · split
      · exact finitary_applyWith world _ _
      · exact (Finitary.const _).bind fun routine => finitary_callWith _ _ _
    · exact Finitary.const _
    · exact (Finitary.inner _ _ _).bind fun function => finitary_applyWith world _ _
  · refine (Finitary.inner _ _ _).bind fun value => ?_
    refine (Finitary.mapM fun item => Finitary.inner _ _ item).bind fun values => ?_
    refine (Finitary.const _).bind fun type => ?_
    exact (Finitary.const _).bind fun routine => finitary_callWith _ _ _
  · exact Finitary.const _
  · exact finitary_runWith _ _ _
  · exact Finitary.const _
  · exact (Finitary.inner _ _ _).bind fun future => finitary_awaitWith world future
  · exact (Finitary.inner _ _ _).bind fun value => finitary_selectWith _ _ _ _
  · exact Finitary.const none

theorem increasing_evalAt : Increasing (evalAt world) := by
  have step : ∀ n, (evalAt world n).Below (evalAt world (n + 1)) := by
    intro n
    induction n with
    | zero =>
      intro owner scope node value h
      cases h
    | succ n ih =>
      intro owner scope node value h
      exact (finitary_evalStep world owner scope node).mono _ _ ih value h
  intro m n le
  induction le with
  | refl => exact fun _ _ _ _ h => h
  | step _ ih => exact fun owner scope node value h => step _ _ _ _ _ (ih owner scope node value h)

/-- Values obey the rules of evaluation without a bound on the depth. -/
theorem eval_eq_evalStep (scope : Variables Data) (node : Node) :
    eval world owner scope node = evalStep world (eval world) owner scope node := by
  have increasing := increasing_evalAt world
  have known {value : Value Data} : eval world owner scope node = some value ↔
      ∃ n, evalAt world n owner scope node = some value :=
    limit_eq_some_iff fun m n le => increasing m n le owner scope node
  have finitary := finitary_evalStep world owner scope node
  apply Option.ext
  intro value
  rw [known]
  constructor
  · rintro ⟨n, h⟩
    cases n with
    | zero => cases h
    | succ n =>
      refine finitary.mono (evalAt world n) _ ?_ value h
      intro owner scope node value found
      exact (limit_eq_some_iff fun m n le => increasing m n le owner scope node).2 ⟨n, found⟩
  · intro h
    obtain ⟨n, found⟩ := finitary.finite (evalAt world) increasing value h
    exact ⟨n + 1, found⟩

end Steps

end Limits

end Slotwise.Code
