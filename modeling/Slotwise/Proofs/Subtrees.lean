import Slotwise.Code.Build
/-!
# Subtrees of code

The parts of a piece of code are the trees one level below it, in the order in which they are
written; its subtrees are itself and the subtrees of its parts (`subtrees_eq`). What a piece of code
contains, wherever it stands, is collected from its subtrees. Tokens that are kept as they are have
no parts.
-/

namespace Slotwise.Code.Node

/-- The trees one level below, as they are written from left to right. -/
@[simp] def parts : Node → List Node
  | literal _ | lifetime _ | wild | never | verbatim _ | useAs _ _ | useAll
  | moduleItem _ none => []
  | macroCall name _ _ _ => [name]
  | path _ segments => segments
  | segment _ arguments => arguments.toList
  | projected self asTrait segments => self :: asTrait.toList ++ segments
  | angled _ arguments _ => arguments
  | callable inputs _ output => inputs ++ output.toList
  | associated _ arguments value => arguments.toList ++ [value]
  | constrained _ arguments bounds => arguments.toList ++ bounds
  | attr _ content => [content]
  | metaList name _ _ => [name]
  | metaValue name value => [name, value]
  | attributed attributes subject => attributes ++ [subject]
  | reference _ _ subject => [subject]
  | pointer _ subject => [subject]
  | list items _ => items
  | repeated item count => [item, count]
  | tuple items _ => items
  | paren subject => [subject]
  | typed subject type => [subject, type]
  | fnPointer lifetimes _ inputs _ output => lifetimes.toList ++ inputs ++ output.toList
  | forLifetimes lifetimes _ => lifetimes
  | bounded _ bounds _ => bounds
  | bound _ _ lifetimes name => lifetimes.toList ++ [name]
  | call subject arguments _ => subject :: arguments
  | method receiver _ arguments inputs _ => receiver :: arguments.toList ++ inputs
  | member subject _ => [subject]
  | index subject position => [subject, position]
  | question subject => [subject]
  | await subject => [subject]
  | unary _ subject => [subject]
  | binary _ left right => [left, right]
  | cast subject type => [subject, type]
  | range start _ stop => start.toList ++ stop.toList
  | fields name items _ => name :: items
  | closure lifetimes _ inputs _ output body =>
    lifetimes.toList ++ inputs ++ output.toList ++ [body]
  | block _ statements => statements
  | labeled _ subject => [subject]
  | conditional condition body otherwise => [condition, body] ++ otherwise.toList
  | letCondition pattern subject => [pattern, subject]
  | forever body => [body]
  | whileLoop condition body => [condition, body]
  | forLoop pattern subject body => [pattern, subject, body]
  | choice subject arms => subject :: arms
  | arm pattern guard body _ => pattern :: guard.toList ++ [body]
  | jump _ _ value => value.toList
  | letStatement pattern value otherwise => pattern :: value.toList ++ otherwise.toList
  | terminated subject => [subject]
  | capture _ _ pattern => pattern.toList
  | alternatives _ patterns => patterns
  | visible _ subject => [subject]
  | generics parameters _ => parameters
  | parameter name bounds fallback => name :: bounds ++ fallback.toList
  | constParameter _ type fallback => type :: fallback.toList
  | whereClause predicates _ => predicates
  | predicate lifetimes subject bounds => lifetimes.toList ++ subject :: bounds
  | unitStruct _ binders clause => binders.toList ++ clause.toList
  | fieldStruct _ _ binders clause members _ => binders.toList ++ clause.toList ++ members
  | tupleStruct _ binders members _ clause => binders.toList ++ members ++ clause.toList
  | enumeration _ binders clause variants _ => binders.toList ++ clause.toList ++ variants
  | unitVariant _ value => value.toList
  | fieldVariant _ members _ value => members ++ value.toList
  | tupleVariant _ members _ value => members ++ value.toList
  | function _ _ binders inputs _ output clause body =>
    binders.toList ++ inputs ++ output.toList ++ clause.toList ++ body.toList
  | implementation _ binders _ ofTrait type clause items =>
    binders.toList ++ ofTrait.toList ++ type :: clause.toList ++ items
  | traitItem _ _ binders bounds clause items =>
    binders.toList ++ bounds ++ clause.toList ++ items
  | typeAlias _ binders bounds clause type =>
    binders.toList ++ bounds ++ clause.toList ++ type.toList
  | constItem _ _ type value => type :: value.toList
  | useItem _ tree => [tree]
  | useStep _ below => below.toList
  | useGroup trees _ => trees
  | moduleItem _ (some items) => items

theorem sizeOf_lt_of_mem_toList {node : Node} {found : Option Node} (member : node ∈ found.toList) :
    sizeOf node < sizeOf found := by
  rw [Option.mem_toList] at member
  subst member
  simp

theorem sizeOf_lt_of_mem_parts {part node : Node} (member : part ∈ node.parts) :
    sizeOf part < sizeOf node := by
  have ofList (nodes : List Node) (inside : part ∈ nodes) : sizeOf part < sizeOf nodes :=
    List.sizeOf_lt_of_mem inside
  have ofOption (found : Option Node) (inside : part ∈ found.toList) :
      sizeOf part < sizeOf found :=
    sizeOf_lt_of_mem_toList inside
  cases node
  all_goals
    simp only [parts, List.mem_append, List.mem_cons, List.not_mem_nil, or_false] at member
  all_goals grind

/-- The piece of code and everything inside it, each tree before its parts. -/
def subtrees (node : Node) : List Node :=
  node :: node.parts.attach.flatMap fun ⟨part, _⟩ => subtrees part
termination_by sizeOf node
decreasing_by exact sizeOf_lt_of_mem_parts ‹_›

theorem subtrees_eq (node : Node) :
    node.subtrees = node :: node.parts.flatMap subtrees := by
  rw [subtrees]
  simp

/-! ## What code contains -/

section Collect

variable {α : Type} (f : Node → Option α)

/-- What `f` finds at the subtrees, in the order in which they are written. -/
def collect (node : Node) : List α :=
  node.subtrees.filterMap f

theorem collect_eq (node : Node) :
    node.collect f = (f node).toList ++ node.parts.flatMap (collect f) := by
  rw [collect, subtrees_eq, List.filterMap_cons, List.filterMap_flatMap]
  cases f node <;> rfl

/-! ### The forms of generated code

One equation for each form, so that what a piece of code contains can be found by rewriting. -/

@[simp] theorem collect_path (rooted : Bool) (segments : List Node) :
    (path rooted segments).collect f =
      (f (path rooted segments)).toList ++ segments.flatMap (collect f) :=
  collect_eq f _

@[simp] theorem collect_segment (name : String) (arguments : Option Node) :
    (segment name arguments).collect f =
      (f (segment name arguments)).toList ++ arguments.toList.flatMap (collect f) :=
  collect_eq f _

@[simp] theorem collect_angled (colons : Bool) (arguments : List Node) (comma : Bool) :
    (angled colons arguments comma).collect f =
      (f (angled colons arguments comma)).toList ++ arguments.flatMap (collect f) :=
  collect_eq f _

@[simp] theorem collect_callable (inputs : List Node) (comma : Bool) (output : Option Node) :
    (callable inputs comma output).collect f =
      (f (callable inputs comma output)).toList ++ (inputs ++ output.toList).flatMap (collect f) :=
  collect_eq f _

@[simp] theorem collect_attr (inner : Bool) (content : Node) :
    (attr inner content).collect f =
      (f (attr inner content)).toList ++ [content].flatMap (collect f) :=
  collect_eq f _

@[simp] theorem collect_metaList (name : Node) (bracket : Bracket) (tokens : List Token) :
    (metaList name bracket tokens).collect f =
      (f (metaList name bracket tokens)).toList ++ [name].flatMap (collect f) :=
  collect_eq f _

@[simp] theorem collect_metaValue (name value : Node) :
    (metaValue name value).collect f =
      (f (metaValue name value)).toList ++ [name, value].flatMap (collect f) :=
  collect_eq f _

@[simp] theorem collect_literal (text : String) :
    (literal text).collect f = (f (literal text)).toList :=
  (collect_eq f _).trans (List.append_nil _)

@[simp] theorem collect_attributed (attributes : List Node) (subject : Node) :
    (attributed attributes subject).collect f =
      (f (attributed attributes subject)).toList ++ (attributes ++ [subject]).flatMap (collect f) :=
  collect_eq f _

@[simp] theorem collect_reference (lifetime : Option String) (words : List String) (subject : Node) :
    (reference lifetime words subject).collect f =
      (f (reference lifetime words subject)).toList ++ [subject].flatMap (collect f) :=
  collect_eq f _

@[simp] theorem collect_tuple (items : List Node) (comma : Bool) :
    (tuple items comma).collect f =
      (f (tuple items comma)).toList ++ items.flatMap (collect f) :=
  collect_eq f _

@[simp] theorem collect_paren (subject : Node) :
    (paren subject).collect f =
      (f (paren subject)).toList ++ [subject].flatMap (collect f) :=
  collect_eq f _

@[simp] theorem collect_typed (subject type : Node) :
    (typed subject type).collect f =
      (f (typed subject type)).toList ++ [subject, type].flatMap (collect f) :=
  collect_eq f _

@[simp] theorem collect_verbatim (tokens : List Token) :
    (verbatim tokens).collect f = (f (verbatim tokens)).toList :=
  (collect_eq f _).trans (List.append_nil _)

@[simp] theorem collect_bounded (word : Option String) (bounds : List Node) (plus : Bool) :
    (bounded word bounds plus).collect f =
      (f (bounded word bounds plus)).toList ++ bounds.flatMap (collect f) :=
  collect_eq f _

@[simp] theorem collect_bound (parens maybe : Bool) (lifetimes : Option Node) (name : Node) :
    (bound parens maybe lifetimes name).collect f =
      (f (bound parens maybe lifetimes name)).toList ++
        (lifetimes.toList ++ [name]).flatMap (collect f) :=
  collect_eq f _

@[simp] theorem collect_call (subject : Node) (inputs : List Node) (comma : Bool) :
    (call subject inputs comma).collect f =
      (f (call subject inputs comma)).toList ++ (subject :: inputs).flatMap (collect f) :=
  collect_eq f _

@[simp] theorem collect_member (subject : Node) (name : String) :
    (member subject name).collect f =
      (f (member subject name)).toList ++ [subject].flatMap (collect f) :=
  collect_eq f _

@[simp] theorem collect_await (subject : Node) :
    (await subject).collect f =
      (f (await subject)).toList ++ [subject].flatMap (collect f) :=
  collect_eq f _

@[simp] theorem collect_unary (operator : String) (subject : Node) :
    (unary operator subject).collect f =
      (f (unary operator subject)).toList ++ [subject].flatMap (collect f) :=
  collect_eq f _

@[simp] theorem collect_fields (subject : Node) (items : List Node) (comma : Bool) :
    (fields subject items comma).collect f =
      (f (fields subject items comma)).toList ++ (subject :: items).flatMap (collect f) :=
  collect_eq f _

@[simp] theorem collect_closure (lifetimes : Option Node) (words : List String) (inputs : List Node)
    (comma : Bool) (output : Option Node) (body : Node) :
    (closure lifetimes words inputs comma output body).collect f =
      (f (closure lifetimes words inputs comma output body)).toList ++
        (lifetimes.toList ++ inputs ++ output.toList ++ [body]).flatMap (collect f) :=
  collect_eq f _

@[simp] theorem collect_block (words : List String) (statements : List Node) :
    (block words statements).collect f =
      (f (block words statements)).toList ++ statements.flatMap (collect f) :=
  collect_eq f _

@[simp] theorem collect_choice (subject : Node) (arms : List Node) :
    (choice subject arms).collect f =
      (f (choice subject arms)).toList ++ (subject :: arms).flatMap (collect f) :=
  collect_eq f _

@[simp] theorem collect_arm (pattern : Node) (guard : Option Node) (body : Node) (comma : Bool) :
    (arm pattern guard body comma).collect f =
      (f (arm pattern guard body comma)).toList ++
        (pattern :: guard.toList ++ [body]).flatMap (collect f) :=
  collect_eq f _

@[simp] theorem collect_letStatement (pattern : Node) (value otherwise : Option Node) :
    (letStatement pattern value otherwise).collect f =
      (f (letStatement pattern value otherwise)).toList ++
        (pattern :: value.toList ++ otherwise.toList).flatMap (collect f) :=
  collect_eq f _

@[simp] theorem collect_capture (words : List String) (name : String) (pattern : Option Node) :
    (capture words name pattern).collect f =
      (f (capture words name pattern)).toList ++ pattern.toList.flatMap (collect f) :=
  collect_eq f _

@[simp] theorem collect_alternatives (leading : Bool) (patterns : List Node) :
    (alternatives leading patterns).collect f =
      (f (alternatives leading patterns)).toList ++ patterns.flatMap (collect f) :=
  collect_eq f _

@[simp] theorem collect_visible (visibility : List Token) (subject : Node) :
    (visible visibility subject).collect f =
      (f (visible visibility subject)).toList ++ [subject].flatMap (collect f) :=
  collect_eq f _

@[simp] theorem collect_generics (parameters : List Node) (comma : Bool) :
    (generics parameters comma).collect f =
      (f (generics parameters comma)).toList ++ parameters.flatMap (collect f) :=
  collect_eq f _

@[simp] theorem collect_parameter (name : Node) (bounds : List Node) (fallback : Option Node) :
    (parameter name bounds fallback).collect f =
      (f (parameter name bounds fallback)).toList ++
        (name :: bounds ++ fallback.toList).flatMap (collect f) :=
  collect_eq f _

@[simp] theorem collect_function (qualifiers : List Token) (name : String) (binders : Option Node)
    (inputs : List Node) (comma : Bool) (output clause body : Option Node) :
    (function qualifiers name binders inputs comma output clause body).collect f =
      (f (function qualifiers name binders inputs comma output clause body)).toList ++
        (binders.toList ++ inputs ++ output.toList ++ clause.toList ++ body.toList).flatMap (collect f) :=
  collect_eq f _

@[simp] theorem collect_implementation (words : List String) (binders : Option Node) (negative : Bool)
    (ofTrait : Option Node) (type : Node) (clause : Option Node) (items : List Node) :
    (implementation words binders negative ofTrait type clause items).collect f =
      (f (implementation words binders negative ofTrait type clause items)).toList ++
        (binders.toList ++ ofTrait.toList ++ type :: clause.toList ++ items).flatMap (collect f) :=
  collect_eq f _

@[simp] theorem collect_typeAlias (name : String) (binders : Option Node) (bounds : List Node)
    (clause type : Option Node) :
    (typeAlias name binders bounds clause type).collect f =
      (f (typeAlias name binders bounds clause type)).toList ++
        (binders.toList ++ bounds ++ clause.toList ++ type.toList).flatMap (collect f) :=
  collect_eq f _

@[simp] theorem collect_enumeration (name : String) (binders clause : Option Node) (variants : List Node)
    (comma : Bool) :
    (enumeration name binders clause variants comma).collect f =
      (f (enumeration name binders clause variants comma)).toList ++
        (binders.toList ++ clause.toList ++ variants).flatMap (collect f) :=
  collect_eq f _

@[simp] theorem collect_tupleVariant (name : String) (types : List Node) (comma : Bool) (value : Option Node) :
    (tupleVariant name types comma value).collect f =
      (f (tupleVariant name types comma value)).toList ++
        (types ++ value.toList).flatMap (collect f) :=
  collect_eq f _

@[simp] theorem collect_useItem (rooted : Bool) (tree : Node) :
    (useItem rooted tree).collect f =
      (f (useItem rooted tree)).toList ++ [tree].flatMap (collect f) :=
  collect_eq f _

@[simp] theorem collect_useStep (name : String) (below : Option Node) :
    (useStep name below).collect f =
      (f (useStep name below)).toList ++ below.toList.flatMap (collect f) :=
  collect_eq f _

@[simp] theorem collect_useAll :
    useAll.collect f = (f useAll).toList :=
  (collect_eq f _).trans (List.append_nil _)

/-- An import contains nothing besides its steps. -/
theorem collect_importing (absent : ∀ rooted tree, f (useItem rooted tree) = none)
    (absentBelow : ∀ name below, f (useStep name below) = none) (absentAll : f useAll = none)
    (names : List String) : (importing names).collect f = [] := by
  have steps : (importSteps names).collect f = [] := by
    induction names using importSteps.induct with
    | case1 => simp [importSteps, absentAll]
    | case2 name => simp [importSteps, absentBelow]
    | case3 name rest more ih => simp [importSteps, absentBelow, ih]
  simp [importing, absent, steps]

theorem collect_behind {attributes : List Node} {subject : Node}
    (absent : f (attributed attributes subject) = none)
    (plain : attributes.flatMap (collect f) = []) :
    (behind attributes subject).collect f = subject.collect f := by
  unfold behind
  split
  · rfl
  · simp [plain, absent]

end Collect

end Slotwise.Code.Node
