import Slotwise.Proofs.Alike
import Slotwise.Proofs.ByteOrder
import Slotwise.Proofs.Imports
import Slotwise.Proofs.Spelled
/-!
# Imports of types

A file imports the packaged types that its declaration refers to. Types depend on further types, and
these are imported as well, to any depth, those below a type that needs no import included.

The search for them keeps a list of types that wait. A step takes one of them out, in whatever order,
puts its dependencies into the list and notes its import. Each step makes the types that wait fewer
by one when all those below them are counted, and neither gains nor loses an import
(`Search.Step.invariant`), so every search ends, and ends with the same imports
(`Search.Run.invariant`). The imports are those of the types reached (`mem_importTextsAll_iff`), and
so they depend on no order (`mem_importTextsAll_of_reordered`).

Main statement: the search ends; the imports succeed exactly if the texts of all types reached are
paths; they are then one import for each different text, in ascending order of bytes; and the order
of the types and of their dependencies does not matter (`typeImports_exact`).
-/

namespace Slotwise

open Code

/-! ## The types below a type -/

namespace TypeRef

/-- Whether a type needs an import of its own: it stands in a package and is no type variable. -/
def IsImported (type : TypeRef) : Prop :=
  type.package ≠ "" ∧ type.generic ≠ .variable

instance (type : TypeRef) : Decidable type.IsImported :=
  inferInstanceAs (Decidable (_ ∧ _))

/-- The text of the path to a type. -/
def importText (type : TypeRef) : String :=
  type.package ++ "::" ++ type.baseName

/-- The text of the import that a type needs for itself. -/
def ownImport (type : TypeRef) : List String :=
  if type.IsImported then [type.importText] else []

theorem mem_ownImport_iff {type : TypeRef} {text : String} :
    text ∈ type.ownImport ↔ type.IsImported ∧ type.importText = text := by
  unfold ownImport
  split
  · next imported => simp [imported, eq_comm]
  · next notImported => simp [notImported]

mutual

/-- The number of types that a type consists of: the type and those below it. -/
def count : TypeRef → Nat
  | .mk _ _ _ dependencies _ => countAll dependencies + 1

/-- The number of types that several types consist of. -/
def countAll : List TypeRef → Nat
  | [] => 0
  | type :: rest => type.count + countAll rest

end

theorem count_eq (type : TypeRef) : type.count = countAll type.dependencies + 1 := by
  cases type
  rw [count]
  rfl

@[simp] theorem countAll_append (before after : List TypeRef) :
    countAll (before ++ after) = countAll before + countAll after := by
  induction before with
  | nil => simp [countAll]
  | cons type rest ih => simp [countAll, ih, Nat.add_assoc]

/-- What holds of no types, and of some types if it holds of the dependencies of the first one and
of the rest, holds of all types. -/
theorem forest_induction {motive : List TypeRef → Prop} (nil : motive [])
    (cons : ∀ type rest, motive type.dependencies → motive rest → motive (type :: rest))
    (types : List TypeRef) : motive types := by
  induction size : countAll types using Nat.strongRecOn generalizing types with
  | ind bound ih =>
    cases types with
    | nil => exact nil
    | cons type rest =>
      have split : bound = countAll type.dependencies + 1 + countAll rest := by
        rw [← size, countAll, count_eq]
      exact cons type rest (ih _ (by omega) _ rfl) (ih _ (by rw [split]; omega) _ rfl)

/-- The types among these, and the dependencies of types reached. -/
inductive Reached (types : List TypeRef) : TypeRef → Prop
  /-- The types themselves. -/
  | listed {type : TypeRef} (member : type ∈ types) : Reached types type
  /-- A dependency of a type reached. -/
  | dependency {type dependency : TypeRef} (reached : Reached types type)
      (member : dependency ∈ type.dependencies) : Reached types dependency

theorem Reached.mono {types more : List TypeRef} (within : types ⊆ more) {type : TypeRef}
    (reached : Reached types type) : Reached more type := by
  induction reached with
  | listed member => exact .listed (within member)
  | dependency _ member ih => exact .dependency ih member

theorem Reached.trans {types others : List TypeRef} (each : ∀ type ∈ others, Reached types type)
    {type : TypeRef} (reached : Reached others type) : Reached types type := by
  induction reached with
  | listed member => exact each _ member
  | dependency _ member ih => exact .dependency ih member

theorem reached_cons_iff {first type : TypeRef} {rest : List TypeRef} :
    Reached (first :: rest) type ↔
      type = first ∨ Reached first.dependencies type ∨ Reached rest type := by
  constructor
  · intro reached
    induction reached with
    | listed member =>
      obtain rfl | member := List.mem_cons.1 member
      · exact .inl rfl
      · exact .inr (.inr (.listed member))
    | dependency _ member ih =>
      obtain rfl | below | behind := ih
      · exact .inr (.inl (.listed member))
      · exact .inr (.inl (.dependency below member))
      · exact .inr (.inr (.dependency behind member))
  · have here : Reached (first :: rest) first := .listed List.mem_cons_self
    rintro (rfl | below | behind)
    · exact here
    · exact .trans (fun _ member => .dependency here member) below
    · exact behind.mono (List.subset_cons_self ..)

/-- The same types up to the order of the list and of every list of dependencies. -/
inductive Reordered : List TypeRef → List TypeRef → Prop
  /-- No types. -/
  | nil : Reordered [] []
  /-- A reordering of the dependencies of the first type and of the rest. -/
  | cons {name package : String} {generic : Generic} {serialization : Serialization}
      {dependencies dependencies' rest rest' : List TypeRef}
      (below : Reordered dependencies dependencies') (behind : Reordered rest rest') :
      Reordered (.mk name package generic dependencies serialization :: rest)
        (.mk name package generic dependencies' serialization :: rest')
  /-- An exchange of the first two types. -/
  | swap (first second : TypeRef) (rest : List TypeRef) :
      Reordered (first :: second :: rest) (second :: first :: rest)
  /-- Two reorderings one after the other. -/
  | trans {types₁ types₂ types₃ : List TypeRef} (first : Reordered types₁ types₂)
      (second : Reordered types₂ types₃) : Reordered types₁ types₃

end TypeRef

namespace Optics

open TypeRef

/-! ## The texts of imports -/

theorem importTexts_eq (type : TypeRef) :
    importTexts type = type.ownImport ++ importTextsAll type.dependencies := by
  obtain ⟨name, package, generic, dependencies, serialization⟩ := type
  rw [importTexts, ownImport]
  congr 1
  by_cases none : package = "" ∨ generic = .variable
  · have notImported : ¬ (TypeRef.mk name package generic dependencies serialization).IsImported :=
      fun imported => none.elim imported.1 imported.2
    rw [if_pos none, if_neg notImported]
  · have imported : (TypeRef.mk name package generic dependencies serialization).IsImported :=
      not_or.1 none
    rw [if_neg none, if_pos imported]
    rfl

theorem importTextsAll_cons (type : TypeRef) (rest : List TypeRef) :
    importTextsAll (type :: rest) =
      type.ownImport ++ importTextsAll type.dependencies ++ importTextsAll rest := by
  rw [importTextsAll, importTexts_eq]

@[simp] theorem importTextsAll_append (before after : List TypeRef) :
    importTextsAll (before ++ after) = importTextsAll before ++ importTextsAll after := by
  induction before with
  | nil => simp [importTextsAll]
  | cons type rest ih => simp [importTextsAll, ih]

/-- The texts of imports are those of the types reached. -/
theorem mem_importTextsAll_iff {types : List TypeRef} {text : String} :
    text ∈ importTextsAll types ↔
      ∃ type, Reached types type ∧ type.IsImported ∧ type.importText = text := by
  induction types using forest_induction with
  | nil =>
    refine iff_of_false (by simp [importTextsAll]) ?_
    rintro ⟨type, reached, -⟩
    induction reached with
    | listed member => cases member
    | dependency _ _ ih => exact ih
  | cons first rest below behind =>
    rw [importTextsAll_cons, List.mem_append, List.mem_append, mem_ownImport_iff, below, behind]
    constructor
    · rintro ((own | ⟨type, reached, own⟩) | ⟨type, reached, own⟩)
      · exact ⟨first, reached_cons_iff.2 (.inl rfl), own⟩
      · exact ⟨type, reached_cons_iff.2 (.inr (.inl reached)), own⟩
      · exact ⟨type, reached_cons_iff.2 (.inr (.inr reached)), own⟩
    · rintro ⟨type, reached, own⟩
      obtain rfl | reached | reached := reached_cons_iff.1 reached
      · exact .inl (.inl own)
      · exact .inl (.inr ⟨type, reached, own⟩)
      · exact .inr ⟨type, reached, own⟩

/-- Which texts are imported does not depend on the order. -/
theorem mem_importTextsAll_of_reordered {types others : List TypeRef}
    (reordered : Reordered types others) (text : String) :
    text ∈ importTextsAll types ↔ text ∈ importTextsAll others := by
  induction reordered with
  | nil => rfl
  | cons below behind ihBelow ihBehind =>
    rw [importTextsAll_cons, importTextsAll_cons, List.mem_append, List.mem_append,
      List.mem_append, List.mem_append, ihBehind]
    exact or_congr_left (or_congr_right ihBelow)
  | swap first second rest =>
    simp only [importTextsAll_cons, List.mem_append]
    grind
  | trans _ _ ihFirst ihSecond => exact ihFirst.trans ihSecond

/-- The imports along the paths with these texts. -/
def importsAlong (owner : String) (texts : List String) : Except Failure (List Node) := do
  let paths ← (Ordered.sortedTexts texts).mapM (ModelText.path owner)
  return paths.map importOfPath

theorem importsAlong_congr {owner : String} {texts others : List String}
    (same : ∀ text, text ∈ texts ↔ text ∈ others) :
    importsAlong owner texts = importsAlong owner others := by
  rw [importsAlong, importsAlong, Ordered.sortedTexts_congr same]

theorem typeImports_eq (owner : String) (types : List TypeRef) :
    typeImports owner types = importsAlong owner (importTextsAll types) := rfl

/-! ## The search -/

/-- A search for imports: the types that wait, and the texts found so far. -/
structure Search where
  /-- The types whose dependencies have not been added. -/
  waiting : List TypeRef
  /-- The texts of the imports of the types that no longer wait. -/
  found : List String

namespace Search

/-- A step takes one of the types that wait, with its dependencies in its place. -/
inductive Step : Search → Search → Prop
  /-- The step of the type between these. -/
  | visit (before : List TypeRef) (type : TypeRef) (after : List TypeRef) (found : List String) :
      Step ⟨before ++ type :: after, found⟩
        ⟨before ++ type.dependencies ++ after, type.ownImport ++ found⟩

/-- A number of steps one after the other. -/
inductive Run : Nat → Search → Search → Prop
  /-- No step. -/
  | none (search : Search) : Run 0 search search
  /-- One more step behind the others. -/
  | more {steps : Nat} {first search next : Search} (run : Run steps first search)
      (step : Step search next) : Run (steps + 1) first next

/-- A search goes on as long as types wait. -/
theorem exists_step {search : Search} (more : search.waiting ≠ []) : ∃ next, search.Step next := by
  obtain ⟨waiting, found⟩ := search
  obtain ⟨type, rest, rfl⟩ := List.exists_cons_of_ne_nil more
  exact ⟨_, .visit [] type rest found⟩

/-- A step counts down by one, and keeps the texts that were found or are still to be found. -/
theorem Step.invariant {search next : Search} (step : search.Step next) :
    countAll search.waiting = countAll next.waiting + 1 ∧
      ∀ text, text ∈ search.found ++ importTextsAll search.waiting ↔
        text ∈ next.found ++ importTextsAll next.waiting := by
  obtain ⟨before, type, after, found⟩ := step
  constructor
  · simp only [countAll_append, countAll, count_eq]
    omega
  · intro text
    simp only [importTextsAll_append, importTextsAll_cons, List.mem_append]
    grind

/-- So does a run, with its number of steps. -/
theorem Run.invariant {steps : Nat} {first last : Search} (run : Run steps first last) :
    countAll first.waiting = countAll last.waiting + steps ∧
      ∀ text, text ∈ first.found ++ importTextsAll first.waiting ↔
        text ∈ last.found ++ importTextsAll last.waiting := by
  induction run with
  | none search => exact ⟨rfl, fun _ => Iff.rfl⟩
  | more _ step ih =>
    obtain ⟨counted, kept⟩ := step.invariant
    refine ⟨?_, fun text => (ih.2 text).trans (kept text)⟩
    rw [ih.1, counted]
    omega

/-- A search that ends has found the imports. -/
theorem typeImports_of_run {owner : String} {types : List TypeRef} {steps : Nat} {last : Search}
    (run : Run steps ⟨types, []⟩ last) (done : last.waiting = []) :
    typeImports owner types = importsAlong owner last.found := by
  refine importsAlong_congr fun text => ?_
  have kept := run.invariant.2 text
  rw [done] at kept
  simpa [importTextsAll] using kept

end Search

end Optics

/-! ## The items -/

namespace Code

namespace Node

theorem tokens_useStep (name : String) (below : Node) :
    (useStep name (some below)).tokens = .word name :: (Token.operator "::" ++ below.tokens) := rfl

theorem tokens_useItem (rooted : Bool) (tree : Node) :
    (useItem rooted tree).tokens = .word "use" ::
      ((if rooted then Token.operator "::" else []) ++ tree.tokens ++ [Token.mark ';' false]) := rfl

theorem tokens_importSteps (first : String) (names : List String) :
    (importSteps (first :: names)).tokens =
      Token.separated (Token.operator "::") false
        (((first :: names).map (segment · none)).map tokens) := by
  induction names generalizing first with
  | nil => rfl
  | cons second names ih =>
    have step : importSteps (first :: second :: names) =
        useStep first (some (importSteps (second :: names))) := rfl
    rw [step, tokens_useStep, ih]
    rfl

/-- The item imports the path that the text consists of. -/
def IsImportOf (text : String) (item : Node) : Prop :=
  ∃ path, path? text = some path ∧
    item.tokens = .word "use" :: (path.tokens ++ [.mark ';' false])

theorem isImportOf_of_path? {text : String} {path : Node} (read : path? text = some path) :
    IsImportOf text (Optics.importOfPath path) := by
  refine ⟨path, read, ?_⟩
  obtain ⟨rooted, first, names, rfl⟩ := eq_path_of_path? read
  have item : Optics.importOfPath (.path rooted ((first :: names).map (segment · none))) =
      .useItem rooted (importSteps (first :: names)) := by
    simp [Optics.importOfPath, Function.comp_def]
  rw [item, tokens_useItem, tokens_importSteps, ← tokensEach_eq_map]
  rfl

end Node

end Code

/-! ## Main statement -/

namespace Optics

open TypeRef Outcome

/-- The imports of types are exact. The search for them ends, whatever the order in which it takes
the types, and finds what is imported. The imports succeed exactly if the text of each packaged type
reached is a path. They are then one import for each different text, in strictly ascending order of
bytes. They do not depend on the order of the types or of the dependencies of any type. -/
theorem typeImports_exact (owner : String) (types : List TypeRef) :
    (∀ steps search, Search.Run steps ⟨types, []⟩ search →
      steps + countAll search.waiting = countAll types ∧
      (search.waiting ≠ [] → ∃ next, search.Step next) ∧
      (search.waiting = [] → typeImports owner types = importsAlong owner search.found)) ∧
    (Succeeds (typeImports owner types) ↔
      ∀ type, Reached types type → type.IsImported →
        (Node.path? type.importText).isSome = true) ∧
    (∀ items, typeImports owner types = .ok items →
      ∃ texts, texts.Pairwise (Text.bytes · < Text.bytes ·) ∧
        (∀ text, text ∈ texts ↔
          ∃ type, Reached types type ∧ type.IsImported ∧ type.importText = text) ∧
        List.Forall₂ Node.IsImportOf texts items) ∧
    (∀ others, Reordered types others → typeImports owner others = typeImports owner types) := by
  refine ⟨fun steps search run => ⟨?_, Search.exists_step, Search.typeImports_of_run run⟩,
    ?_, ?_, ?_⟩
  · rw [run.invariant.1, Nat.add_comm]
  · rw [succeeds_typeImports_iff, ImportsRead]
    constructor
    · intro reads type reached imported
      exact reads _ (mem_importTextsAll_iff.2 ⟨type, reached, imported, rfl⟩)
    · intro reads text member
      obtain ⟨type, reached, imported, rfl⟩ := mem_importTextsAll_iff.1 member
      exact reads type reached imported
  · intro items h
    obtain ⟨paths, found, result⟩ := bind_eq_ok_iff.1 h
    refine ⟨_, Ordered.pairwise_sortedTexts (importTextsAll types), fun text => ?_, ?_⟩
    · rw [Ordered.sortedTexts,
        Ordered.mem_sortedSet_iff fun _ _ _ _ => Std.LawfulEqOrd.eq_of_compare]
      exact mem_importTextsAll_iff
    · rw [← pure_eq_ok_iff.1 result, List.forall₂_map_right_iff]
      refine (mapM_eq_ok_iff.1 found).imp fun text path read => ?_
      exact Node.isImportOf_of_path? (Node.path?_of_path read)
  · intro others reordered
    exact importsAlong_congr fun text => (mem_importTextsAll_of_reordered reordered text).symm

end Optics

end Slotwise
