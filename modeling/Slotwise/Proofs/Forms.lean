import Slotwise.Proofs.Meaning
import Slotwise.Proofs.Names
/-!
# The meaning of the forms of generated code

One equation for each form that generated code is made of, so that its value can be found by
rewriting. Struct literals and patterns that list a field for each member of some list come up for
every number of slots, so their equations are about lists (`eval_record`, `matchPattern_bindings`).
-/

namespace Slotwise.Code

open Naming

namespace Node

@[simp] theorem names?_named (name : String) :
    (named name).names? = some [withoutRawMark name] := rfl

@[simp] theorem names?_namedAlong (names : List String) :
    (namedAlong names).names? = some (names.map withoutRawMark) := by
  induction names with
  | nil => rfl
  | cons name rest ih =>
    simp only [namedAlong, names?, List.map_cons, List.mapM_cons] at ih ⊢
    simp [ih]

theorem resolve_of_ne {owner name : String} (other : name ≠ "Self") (rest : List String) :
    resolve owner (name :: rest) = name :: rest := by
  unfold resolve
  split
  · next same =>
    cases same
    exact absurd rfl other
  · rfl

@[simp] theorem resolve_self (owner : String) (rest : List String) :
    resolve owner ("Self" :: rest) = owner :: rest := rfl

@[simp] theorem resolve_productType (owner : String) (dimension : Nat) (rest : List String) :
    resolve owner (productType dimension :: rest) = productType dimension :: rest := by
  refine resolve_of_ne (fun same => ?_) rest
  have texts : ("Product" ++ toString dimension).toList = "Self".toList :=
    congrArg String.toList same
  rw [String.toList_append] at texts
  simp at texts

@[simp] theorem resolve_sumType (owner : String) (dimension : Nat) (rest : List String) :
    resolve owner (sumType dimension :: rest) = sumType dimension :: rest := by
  refine resolve_of_ne (fun same => ?_) rest
  have texts : ("Sum" ++ toString dimension).toList = "Self".toList :=
    congrArg String.toList same
  rw [String.toList_append] at texts
  simp at texts

@[simp] theorem fieldName?_fieldIs (name : String) (content : Node) :
    (fieldIs name content).fieldName? = some (withoutRawMark name) := rfl

@[simp] theorem fieldContent_fieldIs (name : String) (content : Node) :
    (fieldIs name content).fieldContent = content := rfl

end Node

section Forms

variable {Data : Type} {world : World Data} {owner : String} {scope : Variables Data}

theorem lookup_of_mem {β : Type} {entries : List (String × β)}
    (once : (entries.map Prod.fst).Nodup) {name : String} {value : β}
    (member : (name, value) ∈ entries) :
    entries.lookup name = some value := by
  induction entries with
  | nil => cases member
  | cons entry rest ih =>
    rw [List.map_cons, List.nodup_cons] at once
    rcases List.mem_cons.1 member with rfl | member
    · exact List.lookup_cons_self
    · have other : name ≠ entry.1 := by
        rintro rfl
        exact once.1 (List.mem_map.2 ⟨_, member, rfl⟩)
      rw [List.lookup_cons, beq_false_of_ne other]
      exact ih once.2 member

/-- A member whose value no other has is the only one with this value. -/
theorem filter_eq_singleton {α β : Type} [BEq β] [LawfulBEq β] {f : α → β} {xs : List α}
    (once : (xs.map f).Nodup) {x : α} (member : x ∈ xs) : xs.filter (f · == f x) = [x] := by
  induction xs with
  | nil => cases member
  | cons first rest ih =>
    rw [List.map_cons, List.nodup_cons] at once
    rcases List.mem_cons.1 member with rfl | later
    · have others : rest.filter (f · == f x) = [] := by
        rw [List.filter_eq_nil_iff]
        intro other inside same
        exact once.1 (List.mem_map.2 ⟨other, inside, beq_iff_eq.1 same⟩)
      rw [List.filter_cons, if_pos (beq_self_eq_true _), others]
    · have apart : ¬ (f first == f x) = true := by
        intro same
        exact once.1 (List.mem_map.2 ⟨x, later, (beq_iff_eq.1 same).symm⟩)
      rw [List.filter_cons, if_neg apart]
      exact ih once.2 later

/-! ### Patterns -/

@[simp] theorem bothFit_fits (xs ys : Variables Data) :
    bothFit (some (some xs)) (some (some ys)) = some (some (xs ++ ys)) := rfl

@[simp] theorem bothFit_differs_left (second : Option (Variables Data)) :
    bothFit (some none) (some second) = some none := rfl

@[simp] theorem bothFit_differs_right (first : Option (Variables Data)) :
    bothFit (some first) (some none) = some none := by
  cases first <;> rfl

@[simp] theorem matchPattern_binding (name : String) (value : Value Data) :
    matchPattern owner (.binding name) value = some (some [(withoutRawMark name, value)]) := by
  cases value <;> rfl

@[simp] theorem matchPattern_wild (value : Value Data) :
    matchPattern owner .wild value = some (some []) := by
  cases value <;> rfl

/-- A case with one numbered field in a pattern. -/
theorem matchPattern_call (subject pattern : Node) (comma : Bool) {names path : List String}
    (spelled : subject.names? = some names) (value : Value Data) :
    matchPattern owner (.call subject [pattern] comma) (.case path [value]) =
      if Node.resolve owner names = path then
        bothFit (matchPattern owner pattern value) (some (some []))
      else some none :=
  matchPattern_case spelled [pattern] comma path [value]

theorem matchPattern_fields_of_ne (subject : Node) (items : List Node) (comma : Bool)
    {names path : List String} (spelled : subject.names? = some names)
    (other : Node.resolve owner names ≠ path) (fields : Variables Data) :
    matchPattern owner (.fields subject items comma) (.record path fields) = some none := by
  rw [matchPattern_record spelled, if_neg other]

/-- A struct pattern that binds a variable for each of some fields. -/
theorem matchFields_bindings {ι : Type} (xs : List ι) (field variableName : ι → String)
    (value : ι → Value Data) {fields : Variables Data}
    (found : ∀ x ∈ xs, fields.lookup (withoutRawMark (field x)) = some (value x)) :
    matchFields owner
        (xs.map fun x => Node.fieldIs (field x) (Node.binding (variableName x))) fields =
      some (some (xs.map fun x => (withoutRawMark (variableName x), value x))) := by
  induction xs with
  | nil => rfl
  | cons x rest ih =>
    have here := found x List.mem_cons_self
    have behind := ih fun y member => found y (List.mem_cons_of_mem _ member)
    rw [List.map_cons, List.map_cons, Node.fieldIs, matchFields_typed here, behind,
      matchPattern_binding, bothFit_fits, List.singleton_append]

theorem filterMap_map_some {α β γ : Type} {f : α → β} {g : β → Option γ} {h : α → γ}
    (each : ∀ x, g (f x) = some (h x)) (xs : List α) : (xs.map f).filterMap g = xs.map h := by
  induction xs with
  | nil => rfl
  | cons x rest ih => rw [List.map_cons, List.filterMap_cons_some (each x), ih, List.map_cons]

theorem filterMap_fieldName? {ι : Type} (xs : List ι) (field : ι → String)
    (content : ι → Node) :
    (xs.map fun x => Node.fieldIs (field x) (content x)).filterMap Node.fieldName? =
      xs.map fun x => withoutRawMark (field x) :=
  filterMap_map_some (fun _ => by rfl) xs

/-- A struct pattern that binds a variable for each field. -/
theorem matchPattern_bindings {ι : Type} (xs : List ι) (field variableName : ι → String)
    (value : ι → Value Data) (subject : Node) (comma : Bool) {names : List String}
    (spelled : subject.names? = some names)
    (once : (xs.map fun x => withoutRawMark (field x)).Nodup) :
    matchPattern owner
        (.fields subject
          (xs.map fun x => Node.fieldIs (field x) (Node.binding (variableName x))) comma)
        (.record (Node.resolve owner names)
          (xs.map fun x => (withoutRawMark (field x), value x))) =
      some (some (xs.map fun x => (withoutRawMark (variableName x), value x))) := by
  have fieldsOnce : ((xs.map fun x => (withoutRawMark (field x), value x)).map Prod.fst).Nodup := by
    simpa [List.map_map, Function.comp_def] using once
  have found : ∀ x ∈ xs, (xs.map fun x => (withoutRawMark (field x), value x)).lookup
      (withoutRawMark (field x)) = some (value x) := by
    intro x member
    exact lookup_of_mem fieldsOnce (List.mem_map.2 ⟨x, member, rfl⟩)
  have mentioned : mentionsOnce
      (xs.map fun x => Node.fieldIs (field x) (Node.binding (variableName x)))
      (xs.map fun x => (withoutRawMark (field x), value x)) = true := by
    unfold mentionsOnce
    rw [filterMap_fieldName?]
    simp only [decide_eq_true once, Bool.true_and, Bool.or_eq_true, List.all_eq_true]
    right
    intro entry member
    obtain ⟨x, inside, rfl⟩ := List.mem_map.1 member
    exact List.contains_iff_mem.2 (List.mem_map.2 ⟨x, inside, rfl⟩)
  rw [matchPattern_record spelled, if_pos rfl, if_pos mentioned]
  exact matchFields_bindings xs field variableName value found

/-- A struct pattern that mentions a field twice makes no sense. -/
theorem matchPattern_repeated {ι : Type} (xs : List ι) (field : ι → String)
    (content : ι → Node) (subject : Node) (comma : Bool) {names : List String}
    (spelled : subject.names? = some names)
    (repeated : ¬ (xs.map fun x => withoutRawMark (field x)).Nodup) (fields : Variables Data) :
    matchPattern owner
        (.fields subject (xs.map fun x => Node.fieldIs (field x) (content x)) comma)
        (.record (Node.resolve owner names) fields) = none := by
  have unclear : mentionsOnce (xs.map fun x => Node.fieldIs (field x) (content x)) fields =
      false := by
    unfold mentionsOnce
    rw [filterMap_fieldName?]
    simp [repeated]
  simp [matchPattern_record spelled, unclear]

/-- A struct pattern that leaves all fields open. -/
theorem matchPattern_open (subject : Node) (comma : Bool) {names path : List String}
    (spelled : subject.names? = some names) (fields : Variables Data) :
    matchPattern owner (.fields subject [.range none false none] comma) (.record path fields) =
      if Node.resolve owner names = path then some (some []) else some none := by
  have clear : mentionsOnce [.range none false none] fields = true := rfl
  rw [matchPattern_record spelled, if_pos clear]
  rfl

/-! ### Inputs -/

@[simp] theorem bindInputs_nil : (bindInputs owner [] [] : Option (Variables Data)) = some [] := rfl

@[simp] theorem bindInputs_self (inputs : List Node) (value : Value Data)
    (values : List (Value Data)) :
    bindInputs owner (.self :: inputs) (value :: values) =
      (bindInputs owner inputs values).map (("self", value) :: ·) := by
  rw [Option.map_eq_bind]
  rfl

@[simp] theorem bindInputs_input (name : String) (type : Node) (inputs : List Node)
    (value : Value Data) (values : List (Value Data)) :
    bindInputs owner (.input name type :: inputs) (value :: values) =
      (bindInputs owner inputs values).map ((withoutRawMark name, value) :: ·) := by
  rw [Option.map_eq_bind]
  rfl

/-! ### Expressions and statements -/

@[simp] theorem eval_named (name : String) :
    eval world owner scope (.named name) = scope.lookup (withoutRawMark name) :=
  eval_eq_evalStep world owner scope (.named name)

@[simp] theorem eval_self :
    eval world owner scope .self = scope.lookup "self" :=
  eval_named "self"

@[simp] theorem eval_tuple (items : List Node) (comma : Bool) :
    eval world owner scope (.tuple items comma) =
      (items.mapM (eval world owner scope)).map Value.tuple :=
  eval_eq_evalStep world owner scope (.tuple items comma)

@[simp] theorem eval_shared (subject : Node) :
    eval world owner scope (.shared subject) = eval world owner scope subject :=
  eval_eq_evalStep world owner scope (.shared subject)

@[simp] theorem eval_closure (lifetimes : Option Node) (words : List String)
    (inputs : List Node) (comma : Bool) (output : Option Node) (body : Node) :
    eval world owner scope (.closure lifetimes words inputs comma output body) =
      some (.closure owner inputs body scope) :=
  eval_eq_evalStep world owner scope _

@[simp] theorem eval_block (statements : List Node) :
    eval world owner scope (.block [] statements) =
      run world owner scope statements :=
  eval_eq_evalStep world owner scope (.block [] statements)

@[simp] theorem eval_asyncBlock (statements : List Node) :
    eval world owner scope (.block ["async", "move"] statements) =
      some (.pending owner statements scope) :=
  eval_eq_evalStep world owner scope (.block ["async", "move"] statements)

@[simp] theorem eval_await (subject : Node) :
    eval world owner scope (.await subject) =
      (eval world owner scope subject).bind (await world) :=
  eval_eq_evalStep world owner scope (.await subject)

@[simp] theorem eval_choice (subject : Node) (arms : List Node) :
    eval world owner scope (.choice subject arms) =
      (eval world owner scope subject).bind (select world owner scope arms) :=
  eval_eq_evalStep world owner scope (.choice subject arms)

theorem eval_member {subject : Node} {path : List String} {fields : Variables Data}
    (subjectIs : eval world owner scope subject = some (.record path fields))
    (name : String) :
    eval world owner scope (.member subject name) =
      fields.lookup (withoutRawMark name) := by
  refine (eval_eq_evalStep world owner scope (.member subject name)).trans ?_
  show (eval world owner scope subject).bind _ = _
  rw [subjectIs, Option.bind_some]

/-- A call: through a variable, of a function of another file, of something that makes a pointer,
of a case, or of what an expression is worth. -/
theorem eval_call (subject : Node) (inputs : List Node) (comma : Bool) :
    eval world owner scope (.call subject inputs comma) =
      (inputs.mapM (eval world owner scope)).bind fun values =>
        match subject.names? with
        | some [name] =>
          match scope.lookup name with
          | some function => apply world function values
          | none => (world.function? name).bind fun routine => call world "" routine values
        | some names =>
          if Node.isPointerMaker names then values.head?
          else some (.case (Node.resolve owner names) values)
        | none =>
          (eval world owner scope subject).bind fun function => apply world function values :=
  eval_eq_evalStep world owner scope (.call subject inputs comma)

/-- A call through a variable. -/
theorem eval_call_variable {name : String}
    (bound : (scope.lookup (withoutRawMark name)).isSome) (inputs : List Node) (comma : Bool) :
    eval world owner scope (.call (.named name) inputs comma) =
      (scope.lookup (withoutRawMark name)).bind fun function =>
        (inputs.mapM (eval world owner scope)).bind (apply world function) := by
  obtain ⟨function, functionIs⟩ := Option.isSome_iff_exists.1 bound
  rw [eval_call]
  simp only [Node.names?_named, functionIs]
  rfl

/-- A call of a function of another file. -/
theorem eval_call_function {name : String} {routine : Routine}
    (free : scope.lookup (withoutRawMark name) = none)
    (routineIs : world.function? (withoutRawMark name) = some routine) (inputs : List Node)
    (comma : Bool) :
    eval world owner scope (.call (.named name) inputs comma) =
      (inputs.mapM (eval world owner scope)).bind (call world "" routine) := by
  rw [eval_call]
  simp only [Node.names?_named, free, routineIs]
  rfl

/-- The call of a method of another file. -/
theorem eval_method {receiver : Node} {inputs : List Node} {value : Value Data}
    {values : List (Value Data)} {type name : String} {routine : Routine}
    (valueIs : eval world owner scope receiver = some value)
    (valuesAre : inputs.mapM (eval world owner scope) = some values)
    (typeIs : value.type? = some type)
    (routineIs : world.method? type (withoutRawMark name) = some routine)
    (arguments : Option Node) (comma : Bool) :
    eval world owner scope (.method receiver name arguments inputs comma) =
      call world type routine (value :: values) := by
  refine (eval_eq_evalStep world owner scope
    (.method receiver name arguments inputs comma)).trans ?_
  show (eval world owner scope receiver).bind (fun value =>
    (inputs.mapM (eval world owner scope)).bind fun values =>
      value.type?.bind fun type =>
        (world.method? type (withoutRawMark name)).bind fun routine =>
          call world type routine (value :: values)) = _
  rw [valueIs, Option.bind_some, valuesAre, Option.bind_some, typeIs, Option.bind_some, routineIs,
    Option.bind_some]

@[simp] theorem eval_boxed (subject : Node) (comma : Bool) :
    eval world owner scope (.call (.namedAlong ["Box", "new"]) [subject] comma) =
      eval world owner scope subject := by
  have names : ["Box", "new"].map withoutRawMark = ["Box", "new"] := by decide
  have pointer : Node.isPointerMaker ["Box", "new"] = true := by decide
  rw [eval_call]
  simp only [Node.names?_namedAlong, names, pointer]
  cases h : eval world owner scope subject <;> simp [h]

@[simp] theorem eval_pinned (subject : Node) (comma : Bool) :
    eval world owner scope (.call (.namedAlong ["Box", "pin"]) [subject] comma) =
      eval world owner scope subject := by
  have names : ["Box", "pin"].map withoutRawMark = ["Box", "pin"] := by decide
  have pointer : Node.isPointerMaker ["Box", "pin"] = true := by decide
  rw [eval_call]
  simp only [Node.names?_namedAlong, names, pointer]
  cases h : eval world owner scope subject <;> simp [h]

/-- A case with one numbered field. -/
theorem eval_case {type name : String} (content : Node) (comma : Bool)
    (isCase : Node.isPointerMaker [withoutRawMark type, withoutRawMark name] = false) :
    eval world owner scope (.call (.namedAlong [type, name]) [content] comma) =
      (eval world owner scope content).map fun value =>
        .case (Node.resolve owner [withoutRawMark type, withoutRawMark name]) [value] := by
  rw [eval_call]
  simp only [Node.names?_namedAlong, List.map_cons, List.map_nil, isCase]
  cases h : eval world owner scope content <;> simp [h]

theorem keys_of_mapM {ι : Type} {xs : List ι} {name : ι → String}
    {value : ι → Option (Value Data)} {entries : Variables Data}
    (h : xs.mapM (fun x => (value x).map (name x, ·)) = some entries) :
    entries.map Prod.fst = xs.map name := by
  induction xs generalizing entries with
  | nil =>
    cases h
    rfl
  | cons x rest ih =>
    simp only [List.mapM_cons, Option.bind_eq_bind, Option.bind_eq_some_iff,
      Option.map_eq_some_iff] at h
    obtain ⟨entry, ⟨result, -, rfl⟩, others, tail, last⟩ := h
    cases last
    rw [List.map_cons, List.map_cons, ih tail]

/-- What the items of a struct literal give, if each stands for one field. -/
theorem givenWith_fields {ι : Type} (xs : List ι) (field : ι → String) (content : ι → Node) :
    givenWith (eval world) owner scope (xs.map fun x => Node.fieldIs (field x) (content x)) =
      xs.mapM fun x =>
        (eval world owner scope (content x)).map (withoutRawMark (field x), ·) := by
  have plain : ∀ item ∈ xs.map fun x => Node.fieldIs (field x) (content x),
      item.baseOfLiteral?.isNone = true := by
    intro item member
    obtain ⟨x, -, rfl⟩ := List.mem_map.1 member
    rfl
  rw [givenWith, List.filter_eq_self.2 plain, List.mapM_map]
  rfl

/-- A struct literal: the fields that its items give, over those of its base if it has one. -/
theorem eval_struct {subject : Node} {names : List String} (spelled : subject.names? = some names)
    (items : List Node) (comma : Bool) :
    eval world owner scope (.fields subject items comma) =
      (givenWith (eval world) owner scope items).bind fun given =>
        if (given.map Prod.fst).Nodup then
          match items.findSome? Node.baseOfLiteral? with
          | none => some (.record (Node.resolve owner names) given)
          | some base =>
            (eval world owner scope base).bind fun
              | .record path fields => some (.record path (overlay given fields))
              | _ => none
        else none := by
  refine (eval_eq_evalStep world owner scope (.fields subject items comma)).trans ?_
  show subject.names?.bind _ = _
  rw [spelled]
  rfl

/-- A struct literal, which is stuck if it gives a field twice. -/
theorem eval_fields {ι : Type} (xs : List ι) (field : ι → String) (content : ι → Node)
    (subject : Node) (comma : Bool) {names : List String} (spelled : subject.names? = some names) :
    eval world owner scope
        (.fields subject (xs.map fun x => Node.fieldIs (field x) (content x)) comma) =
      if (xs.map fun x => withoutRawMark (field x)).Nodup then
        (xs.mapM fun x =>
          (eval world owner scope (content x)).map (withoutRawMark (field x), ·)).map
            (.record (Node.resolve owner names))
      else none := by
  have noBase : (xs.map fun x => Node.fieldIs (field x) (content x)).findSome?
      Node.baseOfLiteral? = none := by
    rw [List.findSome?_eq_none_iff]
    intro item member
    obtain ⟨x, -, rfl⟩ := List.mem_map.1 member
    rfl
  rw [eval_struct spelled, givenWith_fields, noBase]
  cases values : xs.mapM fun x =>
      (eval world owner scope (content x)).map (withoutRawMark (field x), ·) with
  | none => simp
  | some entries =>
    rw [Option.bind_some, keys_of_mapM values]
    split <;> rfl

/-- A struct literal that gives every field once. -/
theorem eval_record {ι : Type} (xs : List ι) (field : ι → String) (content : ι → Node)
    (subject : Node) (comma : Bool) {names : List String} (spelled : subject.names? = some names)
    (once : (xs.map fun x => withoutRawMark (field x)).Nodup) :
    eval world owner scope
        (.fields subject (xs.map fun x => Node.fieldIs (field x) (content x)) comma) =
      (xs.mapM fun x =>
        (eval world owner scope (content x)).map (withoutRawMark (field x), ·)).map
          (.record (Node.resolve owner names)) := by
  rw [eval_fields _ _ _ _ _ spelled, if_pos once]

@[simp] theorem run_singleton (last : Node) :
    run world owner scope [last] = eval world owner scope last := rfl

theorem run_letStatement (subject pattern next : Node) (rest : List Node) :
    run world owner scope (.letStatement pattern (some subject) none :: next :: rest) =
      (eval world owner scope subject).bind fun value =>
        match matchPattern owner pattern value with
        | some (some bound) => run world owner (bound ++ scope) (next :: rest)
        | _ => none := rfl

theorem run_let {subject pattern next : Node} {rest : List Node} {value : Value Data}
    {bound : Variables Data} (valueIs : eval world owner scope subject = some value)
    (fits : matchPattern owner pattern value = some (some bound)) :
    run world owner scope (.letStatement pattern (some subject) none :: next :: rest) =
      run world owner (bound ++ scope) (next :: rest) := by
  rw [run_letStatement, valueIs, Option.bind_some, fits]

/-! ### Choices -/

theorem select_cons (pattern body : Node) (comma : Bool) (rest : List Node) (value : Value Data) :
    select world owner scope (.arm pattern none body comma :: rest) value =
      match matchPattern owner pattern value with
      | some (some bound) => eval world owner (bound ++ scope) body
      | some none => select world owner scope rest value
      | none => none := rfl

theorem select_fits {pattern body : Node} {comma : Bool} {value : Value Data}
    {bound : Variables Data} (fits : matchPattern owner pattern value = some (some bound))
    (rest : List Node) :
    select world owner scope (.arm pattern none body comma :: rest) value =
      eval world owner (bound ++ scope) body := by
  rw [select_cons, fits]

theorem select_stuck {pattern body : Node} {comma : Bool} {value : Value Data}
    (stuck : matchPattern owner pattern value = none) (rest : List Node) :
    select world owner scope (.arm pattern none body comma :: rest) value = none := by
  rw [select_cons, stuck]

/-- Arms whose patterns a value does not fit are passed over. -/
theorem select_append {ι : Type} {xs : List ι} {pattern body : ι → Node} {value : Value Data}
    (differs : ∀ x ∈ xs, matchPattern owner (pattern x) value = some none) (rest : List Node) :
    select world owner scope
        ((xs.map fun x => Node.arm (pattern x) none (body x) true) ++ rest) value =
      select world owner scope rest value := by
  induction xs with
  | nil => rfl
  | cons x others ih =>
    rw [List.map_cons, List.cons_append, select_cons, differs x List.mem_cons_self]
    exact ih fun y member => differs y (List.mem_cons_of_mem _ member)

/-- Among arms of which a value can only fit one, that one is chosen. -/
theorem select_of_mem {ι : Type} {xs : List ι} {pattern body : ι → Node} {value : Value Data}
    {x : ι} (member : x ∈ xs) (decides : matchPattern owner (pattern x) value ≠ some none)
    (differs : ∀ y ∈ xs, y ≠ x → matchPattern owner (pattern y) value = some none)
    (rest : List Node) :
    select world owner scope
        ((xs.map fun x => Node.arm (pattern x) none (body x) true) ++ rest) value =
      select world owner scope [.arm (pattern x) none (body x) true] value := by
  have chosen (rest : List Node) :
      select world owner scope (.arm (pattern x) none (body x) true :: rest) value =
        select world owner scope [.arm (pattern x) none (body x) true] value := by
    rcases fits : matchPattern owner (pattern x) value with _ | _ | bound
    · rw [select_stuck fits, select_stuck fits]
    · exact absurd fits decides
    · rw [select_fits fits, select_fits fits]
  induction xs with
  | nil => cases member
  | cons y others ih =>
    by_cases same : y = x
    · subst same
      exact chosen _
    · have apart := differs y List.mem_cons_self same
      have later : x ∈ others := (List.mem_cons.1 member).resolve_left (Ne.symm same)
      rw [List.map_cons, List.cons_append, select_cons, apart]
      exact ih later fun z inside => differs z (List.mem_cons_of_mem _ inside)

/-- Where every pattern can tell the value and binds nothing, the first that fits decides. -/
theorem select_find? {ι : Type} {xs : List ι} {pattern body : ι → Node} {value : Value Data}
    {fits : ι → Bool}
    (tells : ∀ x ∈ xs,
      matchPattern owner (pattern x) value = if fits x then some (some []) else some none) :
    select world owner scope (xs.map fun x => Node.arm (pattern x) none (body x) true) value =
      (xs.find? fits).bind fun x => eval world owner scope (body x) := by
  induction xs with
  | nil => rfl
  | cons x rest ih =>
    have here := tells x List.mem_cons_self
    by_cases fitting : fits x = true
    · rw [if_pos fitting] at here
      rw [List.map_cons, select_fits here, List.find?_cons_of_pos fitting]
      rfl
    · rw [if_neg fitting] at here
      rw [List.map_cons, select_cons, here, List.find?_cons_of_neg fitting]
      exact ih fun y member => tells y (List.mem_cons_of_mem _ member)

/-! ### Closures and futures -/

theorem apply_closure {inputs : List Node} {body : Node} {values : List (Value Data)}
    {bound : Variables Data} (inputsBind : bindInputs owner inputs values = some bound) :
    apply world (.closure owner inputs body scope) values =
      eval world owner (bound ++ scope) body := by
  show (bindInputs owner inputs values).bind (fun bound =>
    eval world owner (bound ++ scope) body) = _
  rw [inputsBind, Option.bind_some]

@[simp] theorem await_pending (statements : List Node) :
    await world (.pending owner statements scope) = run world owner scope statements := rfl

theorem call_routine {routine : Routine} {values : List (Value Data)} {bound : Variables Data}
    (inputsBind : bindInputs owner routine.inputs values = some bound) :
    call world owner routine values =
      if routine.isAsync then some (.pending owner routine.body bound)
      else run world owner bound routine.body := by
  show (bindInputs owner routine.inputs values).bind (fun bound =>
    if routine.isAsync then some (.pending owner routine.body bound)
    else run world owner bound routine.body) = _
  rw [inputsBind, Option.bind_some]

end Forms

end Slotwise.Code
