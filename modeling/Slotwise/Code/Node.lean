import Slotwise.Code.Token
/-!
# Code as a tree

One type holds every form of the generated language: paths, types, patterns, expressions, statements
and items. There is one constructor for each written form, so `tuple` is a tuple type, pattern or
expression by where it stands, and so is every other form that several categories share. Whether a
list ends with a comma is part of the form.

The tokens of a tree are determined by the tree alone (`Node.tokens`). Reading tokens back is the
work of `Slotwise.Code.Grammar`, laying a tree out in lines that of `Slotwise.Code.Layout`.
-/

namespace Slotwise.Code

/-- A piece of code. -/
inductive Node where
  /-- A literal as written. -/
  | literal (text : String)
  /-- A lifetime, with its apostrophe. -/
  | lifetime (name : String)
  /-- The placeholder `_`. -/
  | wild
  /-- The type `!`. -/
  | never
  /-- Tokens that are kept as they are. -/
  | verbatim (tokens : List Token)
  /-- The call of a macro; `name` stands before the tokens where a macro is defined. -/
  | macroCall (path : Node) (name : Option String) (bracket : Bracket) (tokens : List Token)
  /-- A path of segments, `rooted` when it starts with a pair of colons. -/
  | path (rooted : Bool) (segments : List Node)
  /-- A segment of a path with its arguments. -/
  | segment (name : String) (arguments : Option Node)
  /-- A path that starts from a type, as in `<T as Trait>::Name`. -/
  | projected (self : Node) (asTrait : Option Node) (segments : List Node)
  /-- Arguments between angle brackets, after a pair of colons in an expression. -/
  | angled (colons : Bool) (arguments : List Node) (comma : Bool)
  /-- The inputs and the output of a function trait. -/
  | callable (inputs : List Node) (comma : Bool) (output : Option Node)
  /-- An associated type or constant, as in `Item = u8`. -/
  | associated (name : String) (arguments : Option Node) (value : Node)
  /-- Bounds of an associated type, as in `Item: Clone`. -/
  | constrained (name : String) (arguments : Option Node) (bounds : List Node)
  /-- An attribute. -/
  | attr (inner : Bool) (content : Node)
  /-- An attribute body with tokens in brackets. -/
  | metaList (path : Node) (bracket : Bracket) (tokens : List Token)
  /-- An attribute body that gives a value. -/
  | metaValue (path value : Node)
  /-- Attributes before what they belong to. -/
  | attributed (attributes : List Node) (subject : Node)
  /-- A reference; the words are `mut`, or `raw` with its companion. -/
  | reference (lifetime : Option String) (words : List String) (subject : Node)
  /-- A raw pointer type. -/
  | pointer (word : String) (subject : Node)
  /-- Items in square brackets. -/
  | list (items : List Node) (comma : Bool)
  /-- One item and a count in square brackets. -/
  | repeated (item count : Node)
  /-- Items in round brackets. -/
  | tuple (items : List Node) (comma : Bool)
  /-- One item in round brackets. -/
  | paren (subject : Node)
  /-- A name or pattern with its type, or a field with its value. -/
  | typed (subject type : Node)
  /-- A function pointer type. -/
  | fnPointer (lifetimes : Option Node) (qualifiers : List Token) (inputs : List Node)
      (comma : Bool) (output : Option Node)
  /-- Lifetimes bound by `for`. -/
  | forLifetimes (lifetimes : List Node) (comma : Bool)
  /-- Bounds that form a type, after `dyn`, `impl` or no word; `plus` when they end with one. -/
  | bounded (word : Option String) (bounds : List Node) (plus : Bool)
  /-- A trait as a bound. -/
  | bound (parens : Bool) (maybe : Bool) (lifetimes : Option Node) (path : Node)
  /-- The call of a function, or a tuple struct pattern. -/
  | call (function : Node) (arguments : List Node) (comma : Bool)
  /-- The call of a method. -/
  | method (receiver : Node) (name : String) (arguments : Option Node) (inputs : List Node)
      (comma : Bool)
  /-- The member of a value. -/
  | member (subject : Node) (name : String)
  /-- An element of a value. -/
  | index (subject position : Node)
  /-- A value or early return. -/
  | question (subject : Node)
  /-- The value of a future. -/
  | await (subject : Node)
  /-- A prefix operator. -/
  | unary (operator : String) (subject : Node)
  /-- An infix operator, assignments included. -/
  | binary (operator : String) (left right : Node)
  /-- A conversion to a type. -/
  | cast (subject type : Node)
  /-- A range, `closed` when its end belongs to it. Without ends it is also the rest of a struct. -/
  | range (start : Option Node) (closed : Bool) (stop : Option Node)
  /-- A struct expression or pattern: fields, and at the end perhaps a range for the rest. -/
  | fields (path : Node) (items : List Node) (comma : Bool)
  /-- A closure. -/
  | closure (lifetimes : Option Node) (words : List String) (inputs : List Node) (comma : Bool)
      (output : Option Node) (body : Node)
  /-- Statements in curly brackets after words such as `unsafe`. -/
  | block (words : List String) (statements : List Node)
  /-- A label before a loop or block. -/
  | labeled (label : String) (subject : Node)
  /-- A conditional. -/
  | conditional (condition body : Node) (otherwise : Option Node)
  /-- A pattern as a condition. -/
  | letCondition (pattern subject : Node)
  /-- A loop without end. -/
  | forever (body : Node)
  /-- A loop under a condition. -/
  | whileLoop (condition body : Node)
  /-- A loop over items. -/
  | forLoop (pattern subject body : Node)
  /-- A choice by patterns. -/
  | choice (subject : Node) (arms : List Node)
  /-- One case of a choice. -/
  | arm (pattern : Node) (guard : Option Node) (body : Node) (comma : Bool)
  /-- A jump such as `return`, with a label and a value. -/
  | jump (word : String) (label : Option String) (value : Option Node)
  /-- The declaration of a variable, with its value and what happens when the value does not fit. -/
  | letStatement (pattern : Node) (value : Option Node) (otherwise : Option Node)
  /-- A statement that ends with a semicolon. -/
  | terminated (subject : Node)
  /-- A variable in a pattern after `ref` or `mut`, with a pattern for its value. -/
  | capture (words : List String) (name : String) (pattern : Option Node)
  /-- Alternatives of a pattern. -/
  | alternatives (leading : Bool) (patterns : List Node)
  /-- A visibility before an item or field. -/
  | visible (visibility : List Token) (subject : Node)
  /-- Type parameters. -/
  | generics (parameters : List Node) (comma : Bool)
  /-- A type or lifetime parameter with bounds and fallback. -/
  | parameter (name : Node) (bounds : List Node) (fallback : Option Node)
  /-- A constant parameter with type and fallback. -/
  | constParameter (name : String) (type : Node) (fallback : Option Node)
  /-- Conditions on type parameters. -/
  | whereClause (predicates : List Node) (comma : Bool)
  /-- One condition on a type. -/
  | predicate (lifetimes : Option Node) (subject : Node) (bounds : List Node)
  /-- A struct or union without body. -/
  | unitStruct (name : String) (generics clause : Option Node)
  /-- A struct or union with named fields. -/
  | fieldStruct (word name : String) (generics clause : Option Node) (fields : List Node)
      (comma : Bool)
  /-- A struct with numbered fields. -/
  | tupleStruct (name : String) (generics : Option Node) (fields : List Node) (comma : Bool)
      (clause : Option Node)
  /-- An enumeration. -/
  | enumeration (name : String) (generics clause : Option Node) (variants : List Node)
      (comma : Bool)
  /-- A variant without fields. -/
  | unitVariant (name : String) (value : Option Node)
  /-- A variant with named fields. -/
  | fieldVariant (name : String) (fields : List Node) (comma : Bool) (value : Option Node)
  /-- A variant with numbered fields. -/
  | tupleVariant (name : String) (fields : List Node) (comma : Bool) (value : Option Node)
  /-- A function; without a body it is a requirement of a trait. -/
  | function (qualifiers : List Token) (name : String) (generics : Option Node)
      (inputs : List Node) (comma : Bool) (output clause body : Option Node)
  /-- An implementation, of a trait or of a type's own methods. -/
  | implementation (words : List String) (generics : Option Node) (negative : Bool)
      (ofTrait : Option Node) (type : Node) (clause : Option Node) (items : List Node)
  /-- A trait. -/
  | traitItem (words : List String) (name : String) (generics : Option Node)
      (bounds : List Node) (clause : Option Node) (items : List Node)
  /-- A type alias or associated type. -/
  | typeAlias (name : String) (generics : Option Node) (bounds : List Node)
      (clause type : Option Node)
  /-- A constant or static variable. -/
  | constItem (words : List String) (name : String) (type : Node) (value : Option Node)
  /-- An import. -/
  | useItem (rooted : Bool) (tree : Node)
  /-- A step of an import, and what is imported below it. -/
  | useStep (name : String) (below : Option Node)
  /-- An import under another name. -/
  | useAs (name other : String)
  /-- An import of everything. -/
  | useAll
  /-- Several imports. -/
  | useGroup (trees : List Node) (comma : Bool)
  /-- A module, with its items when they stand in place. -/
  | moduleItem (name : String) (items : Option (List Node))
deriving Repr

/-- A file: inner attributes and items. -/
structure File where
  /-- The inner attributes. -/
  attributes : List Node
  /-- The items. -/
  items : List Node
deriving Repr

end Slotwise.Code
