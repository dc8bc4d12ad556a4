import Slotwise.Manifest
import Slotwise.Proofs.Lines
/-!
# The text of a manifest

A manifest is a configuration of fixed lines around the name of the package. It can be read, and
gives the name back, exactly if no character of the name needs an escape between double quotes: the
name goes into its line as it is (`wellFormed_iff`).
-/

namespace Slotwise

namespace Document

/-- What stands at the end of a path of names. -/
def at? : Document → List String → Option Document
  | document, [] => some document
  | .table entries, name :: path => (value? name entries).bind fun below => below.at? path
  | _, _ :: _ => none

end Document

namespace Manifest

open Slotwise.Configuration Slotwise.Configuration.Scanner

/-! ## The lines behind the name -/

/-- The lines of the first table behind the name. -/
def packageLines : List String :=
  ["version = \"0.1.0\"", "edition = \"2024\"", "publish = false"]

/-- The lines up to the dependencies. -/
def libLines : List String :=
  ["", "[lib]", "path = \"src/lib.rs\"", "", "[dependencies]"]

/-- The lines behind the line with the name. -/
def linesBehind (serializes : Bool) : List String :=
  packageLines ++ (libLines ++ ((if serializes then [serialization] else []) ++ tail))

/-- The characters of lines. -/
def charsOf (lines : List String) : List Char :=
  lines.flatMap fun line => line.toList ++ ['\n']

theorem charsOf_append (lines more : List String) :
    charsOf (lines ++ more) = charsOf lines ++ charsOf more :=
  List.flatMap_append

theorem toList_text (package : String) (serializes : Bool) :
    (text package serializes).toList =
      '[' :: ("package".toList ++ ']' :: '\n' :: ("name".toList ++ (" = ".toList ++
        '"' :: (package.toList ++ '"' :: '\n' :: charsOf (linesBehind serializes))))) := by
  simp [text, charsOf, linesBehind, packageLines, libLines, String.toList_join, List.flatMap_map,
    head]

/-- What has been read when the name has. -/
def named (document : Document) : State :=
  ⟨[("package", .table false false [("name", .value document)])], ["package"]⟩

/-- The entries of the first table. -/
def packageEntries (name : Document) : Entries :=
  [("name", .value name), ("version", .value (.text "0.1.0")), ("edition", .value (.text "2024")),
    ("publish", .value (.flag false))]

/-- What serialization is listed with. -/
def dependency : Document :=
  .table [("version", .text "1.0"), ("features", .list [.text "derive"])]

/-- The entries of the table of dependencies. -/
def dependencies (serializes : Bool) : Entries :=
  if serializes then [("serde", .value dependency)] else []

/-- What has been read at the end. -/
def read (name : Document) (serializes : Bool) : Entries :=
  [("package", .table false false (packageEntries name)),
    ("lib", .table false false [("path", .value (.text "src/lib.rs"))]),
    ("dependencies", .table false false (dependencies serializes)),
    ("dev-dependencies", .table false false
      [("futures", .value (.text "0.3")), ("serde_json", .value (.text "1.0"))]),
    ("workspace", .table false false [])]

section Reading

variable {bound : Nat} {state : State} {root : Entries}

theorem linesBelow_text {name text : String} (bare : IsBareKey name) (plain : IsPlain text)
    (rest : List Char)
    (h : Entries.change false (fun own entries => Entries.insert [] name (.text text) own entries)
      state.header false state.root = some root) :
    linesBelow (bound + 1) state
        (name.toList ++ (" = ".toList ++ '"' :: (text.toList ++ '"' :: '\n' :: rest))) =
      linesBelow bound ⟨root, state.header⟩ rest := by
  rw [linesBelow_entry bare (by decide) (value_text (quotedText_of_plain plain (by decide) rest)),
    h, Option.bind_some]

theorem linesBelow_table {name : String} (bare : IsBareKey name) (rest : List Char)
    (h : Entries.define [] name state.root = some root) :
    linesBelow (bound + 1) state ('[' :: (name.toList ++ ']' :: '\n' :: rest)) =
      linesBelow bound ⟨root, [name]⟩ rest := by
  rw [linesBelow_header bare, h, Option.bind_some]

/-- The first table behind the name. -/
theorem linesBelow_package (bound : Nat) (name : Document) (rest : List Char) :
    linesBelow (bound + 3) (named name)
        (charsOf packageLines ++ rest) =
      linesBelow bound ⟨[("package", .table false false (packageEntries name))], ["package"]⟩
        rest := by
  have lines : charsOf packageLines ++ rest =
      "version".toList ++ (" = ".toList ++ '"' :: ("0.1.0".toList ++ '"' :: '\n' ::
        ("edition".toList ++ (" = ".toList ++ '"' :: ("2024".toList ++ '"' :: '\n' ::
          ("publish".toList ++ (" = ".toList ++ 'f' :: ("alse".toList ++ '\n' :: rest)))))))) := by
    simp [charsOf, packageLines]
  rw [lines, linesBelow_text (by decide) (by decide) _ rfl,
    linesBelow_text (by decide) (by decide) _ rfl,
    linesBelow_entry (by decide) (by decide) (value_false ('\n' :: rest))]
  rfl

/-- The second table and the header of the third one. -/
theorem linesBelow_lib (bound : Nat) (name : Document) (rest : List Char) :
    linesBelow (bound + 5) ⟨[("package", .table false false (packageEntries name))], ["package"]⟩
        (charsOf libLines ++ rest) =
      linesBelow bound ⟨[("package", .table false false (packageEntries name)),
        ("lib", .table false false [("path", .value (.text "src/lib.rs"))]),
        ("dependencies", .table false false [])], ["dependencies"]⟩ rest := by
  have lines : charsOf libLines ++ rest =
      '\n' :: '[' :: ("lib".toList ++ ']' :: '\n' ::
        ("path".toList ++ (" = ".toList ++ '"' :: ("src/lib.rs".toList ++ '"' :: '\n' ::
          '\n' :: '[' :: ("dependencies".toList ++ ']' :: '\n' :: rest))))) := by
    simp [charsOf, libLines]
  rw [lines, linesBelow_empty, linesBelow_table (by decide) _ rfl,
    linesBelow_text (by decide) (by decide) _ rfl, linesBelow_empty,
    linesBelow_table (by decide) _ rfl]
  rfl

theorem value_dependency (rest : List Char) :
    value nestingLimit
        ('\x7b' :: (" version = \"1.0\", features = [\"derive\"] \x7d".toList ++ rest)) =
      some (dependency, rest) := by
  have lines : '\x7b' :: (" version = \"1.0\", features = [\"derive\"] \x7d".toList ++ rest) =
      "\x7b ".toList ++ ("version".toList ++ (" = ".toList ++ '"' :: ("1.0".toList ++ '"' ::
        ',' :: ' ' :: ("features".toList ++ (" = ".toList ++ '[' :: '"' :: ("derive".toList ++
          '"' :: ']' :: ' ' :: '\x7d' :: rest)))))) := by simp
  have version : value (78 + 1) ('"' :: ("1.0".toList ++ '"' :: ',' :: ' ' ::
      ("features".toList ++ (" = ".toList ++ '[' :: '"' :: ("derive".toList ++ '"' ::
        ']' :: ' ' :: '\x7d' :: rest))))) =
      some (.text "1.0", ", ".toList ++ ("features".toList ++ (" = ".toList ++ '[' :: '"' ::
        ("derive".toList ++ '"' :: ']' :: ' ' :: '\x7d' :: rest)))) :=
    value_text (quotedText_of_plain (by decide) (by decide) _)
  have features : value (78 + 1) ('[' :: '"' :: ("derive".toList ++ '"' ::
      ']' :: ' ' :: '\x7d' :: rest)) = some (.list [.text "derive"], " \x7d".toList ++ rest) :=
    value_list (quotedText_of_plain (by decide) (by decide) _)
  rw [lines]
  exact value_table (by decide) (by decide) (by decide) (by decide) (by decide) version features

/-- The line that lists what serialization needs. -/
theorem linesBelow_dependencies (bound : Nat) (name : Document) (serializes : Bool)
    (rest : List Char) :
    ∃ left ≥ bound, linesBelow (bound + 1)
        ⟨[("package", .table false false (packageEntries name)),
          ("lib", .table false false [("path", .value (.text "src/lib.rs"))]),
          ("dependencies", .table false false [])], ["dependencies"]⟩
        (charsOf (if serializes then [serialization] else []) ++ rest) =
      linesBelow left ⟨[("package", .table false false (packageEntries name)),
        ("lib", .table false false [("path", .value (.text "src/lib.rs"))]),
        ("dependencies", .table false false (dependencies serializes))], ["dependencies"]⟩
        rest := by
  cases serializes with
  | false => exact ⟨bound + 1, Nat.le_succ bound, rfl⟩
  | true =>
    refine ⟨bound, Nat.le_refl bound, ?_⟩
    have line : charsOf [serialization] ++ rest =
        "serde".toList ++ (" = ".toList ++ '\x7b' ::
          (" version = \"1.0\", features = [\"derive\"] \x7d".toList ++ '\n' :: rest)) := by
      simp [charsOf, serialization]
    rw [if_pos rfl, line,
      linesBelow_entry (by decide) (by decide) (value_dependency ('\n' :: rest))]
    rfl

/-- The last two tables. -/
theorem linesBelow_tail (bound : Nat) (name : Document) (serializes : Bool) :
    linesBelow (bound + 7)
        ⟨[("package", .table false false (packageEntries name)),
          ("lib", .table false false [("path", .value (.text "src/lib.rs"))]),
          ("dependencies", .table false false (dependencies serializes))], ["dependencies"]⟩
        (charsOf tail) =
      some (⟨read name serializes, ["workspace"]⟩, []) := by
  have lines : charsOf tail =
      '\n' :: '[' :: ("dev-dependencies".toList ++ ']' :: '\n' ::
        ("futures".toList ++ (" = ".toList ++ '"' :: ("0.3".toList ++ '"' :: '\n' ::
          ("serde_json".toList ++ (" = ".toList ++ '"' :: ("1.0".toList ++ '"' :: '\n' ::
            '\n' :: '[' :: ("workspace".toList ++ ']' :: '\n' :: [])))))))) := by
    simp [charsOf, tail]
  rw [lines, linesBelow_empty, linesBelow_table (by decide) _ rfl,
    linesBelow_text (by decide) (by decide) _ rfl, linesBelow_text (by decide) (by decide) _ rfl,
    linesBelow_empty, linesBelow_table (by decide) _ rfl, linesBelow_end]
  rfl

/-- The lines behind the name can be read, whatever the name is. -/
theorem linesBelow_behind (bound : Nat) (name : Document) (serializes : Bool) :
    linesBelow (bound + 16) (named name) (charsOf (linesBehind serializes)) =
      some (⟨read name serializes, ["workspace"]⟩, []) := by
  obtain ⟨left, enough, dependencies⟩ :=
    linesBelow_dependencies (bound + 7) name serializes (charsOf tail)
  obtain ⟨more, rfl⟩ := Nat.exists_eq_add_of_le' (Nat.le_trans (Nat.le_add_left 7 bound) enough)
  rw [linesBehind, charsOf_append, charsOf_append, charsOf_append, linesBelow_package,
    linesBelow_lib, dependencies, linesBelow_tail]

end Reading

/-! ## What a manifest says -/

/-- The document that a manifest is. -/
def document (package : String) (serializes : Bool) : Document :=
  .table (entriesToDocuments (read (.text package) serializes))

theorem at?_of_holds {root : Entries} {table name : String} {document : Document}
    (holds : root.Holds table name document) :
    (Document.table (entriesToDocuments root)).at? [table, name] = some document := by
  obtain ⟨below, found, inside⟩ := holds
  show (Document.value? table (entriesToDocuments root)).bind (fun below => below.at? [name]) = _
  rw [value?_entriesToDocuments, found]
  show (Document.value? name (entriesToDocuments below)).bind (fun below => below.at? []) = _
  rw [value?_entriesToDocuments, inside]
  rfl

/-- The manifest can be read, gives the name of the package back, and lists what serialization needs
exactly if it is to. -/
def WellFormed (package : String) (serializes : Bool) : Prop :=
  ∃ document, document? (text package serializes) = some document ∧
    document.at? ["package", "name"] = some (.text package) ∧
    ((document.at? ["dependencies", "serde"]).isSome ↔ serializes = true)

theorem unmarked_text (package : String) (serializes : Bool) :
    (text package serializes).toList.head? ≠ some '\ufeff' := by
  rw [toList_text, List.head?_cons]
  decide

theorem document?_of_plain {package : String} (plain : IsPlain package) (serializes : Bool) :
    document? (text package serializes) = some (document package serializes) := by
  have long : 18 ≤ (text package serializes).toList.length + 1 := by
    rw [toList_text]
    cases serializes <;> simp [charsOf, linesBehind, packageLines, libLines]
  obtain ⟨bound, boundIs⟩ := Nat.exists_eq_add_of_le' long
  have lines : linesBelow (bound + 18) ⟨[], []⟩ (text package serializes).toList =
      some (⟨read (.text package) serializes, ["workspace"]⟩, []) := by
    rw [toList_text, linesBelow_table (by decide) _ rfl, linesBelow_text (by decide) plain _ rfl]
    exact linesBelow_behind bound (.text package) serializes
  refine (document?_eq_some_iff (unmarked_text package serializes)).2
    ⟨⟨read (.text package) serializes, ["workspace"]⟩, ?_, rfl⟩
  rw [boundIs, lines]

/-- A manifest that can be read gives back as the name what its text in double quotes is. -/
theorem exists_of_document? {package : String} {serializes : Bool} {document : Document}
    (h : document? (text package serializes) = some document) :
    ∃ name rest, quotedText ('"' :: (package.toList ++ '"' :: '\n' ::
        charsOf (linesBehind serializes))) = some (name, rest) ∧
      document.at? ["package", "name"] = some (.text name) := by
  obtain ⟨state, reads, rfl⟩ := (document?_eq_some_iff (unmarked_text package serializes)).1 h
  rw [toList_text, linesBelow_table (by decide) _ rfl, List.length_cons,
    linesBelow_of_bare (by decide)] at reads
  obtain ⟨after, _, line, later⟩ := bind_eq_some_iff.1 reads
  obtain ⟨⟨path, key, value⟩, _, entry, line⟩ := bind_eq_some_iff.1 line
  rw [entry_of_bare (by decide) _ (by decide)] at entry
  obtain ⟨⟨_, _⟩, given, same⟩ := Option.map_eq_some_iff.1 entry
  cases same
  change (quotedText >>= fun name => pure (Document.text name)) _ = _ at given
  obtain ⟨name, behind, quoted, given⟩ := bind_eq_some_iff.1 given
  obtain ⟨rfl, rfl⟩ := pure_eq_some_iff.1 given
  obtain ⟨_, _, -, line⟩ := bind_eq_some_iff.1 line
  rw [bind_lift, Option.bind_eq_some_iff] at line
  obtain ⟨root, added, line⟩ := line
  obtain ⟨rfl, -⟩ := pure_eq_some_iff.1 line
  cases added
  have holds : Entries.Holds "package" "name" (.text name) (named (.text name)).root :=
    ⟨_, rfl, rfl⟩
  exact ⟨name, behind, quoted, at?_of_holds (holds_of_linesBelow holds later)⟩

theorem at?_dependency (package : String) (serializes : Bool) :
    (document package serializes).at? ["dependencies", "serde"] =
      if serializes then some dependency else none := by
  cases serializes <;> rfl

theorem plain_of_document? {package : String} {serializes : Bool} {document : Document}
    (reads : document? (text package serializes) = some document)
    (named : document.at? ["package", "name"] = some (.text package)) : IsPlain package := by
  obtain ⟨name, rest, quoted, given⟩ := exists_of_document? reads
  cases named.symm.trans given
  refine plain_of_quotedText ?_ quoted
  cases serializes <;> decide +kernel

/-- A manifest is well formed exactly if its name is written between double quotes as it is: it says
what it should then, and otherwise it cannot be read or is not the one of a package of that name. -/
theorem wellFormed_iff (package : String) (serializes : Bool) :
    (WellFormed package serializes ↔ IsPlain package) ∧
      (IsPlain package →
        document? (text package serializes) = some (document package serializes)) ∧
      (∀ document, document? (text package serializes) = some document →
        document.at? ["package", "name"] = some (.text package) → IsPlain package) := by
  refine ⟨⟨?_, ?_⟩, fun plain => document?_of_plain plain serializes, fun _ => plain_of_document?⟩
  · rintro ⟨document, reads, named, -⟩
    exact plain_of_document? reads named
  · intro plain
    refine ⟨document package serializes, document?_of_plain plain serializes, rfl, ?_⟩
    rw [at?_dependency]
    cases serializes <;> simp

/-- The manifest of the package `points`. -/
theorem document?_points :
    IsPlain "points" ∧ WellFormed "points" true ∧
      document? (text "points" true) = some (document "points" true) := by
  have plain : IsPlain "points" := by decide +kernel
  obtain ⟨iff, reads, -⟩ := wellFormed_iff "points" true
  exact ⟨plain, iff.2 plain, reads plain⟩

/-- A quote in the name ends it. -/
theorem not_wellFormed_quote : ¬ WellFormed "a\"b" false := by
  rintro ⟨document, reads, named, -⟩
  exact absurd (plain_of_document? reads named) (by decide +kernel)

end Manifest

end Slotwise
