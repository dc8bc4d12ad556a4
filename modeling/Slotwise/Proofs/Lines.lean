import Slotwise.Configuration.Reader
import Slotwise.Proofs.Scanning
/-!
# Lines of configurations

What the lines of a configuration do, one kind of line at a time: a header opens a table, an entry
adds a value to the table of the last header, an empty line does nothing. Whatever comes later, a
value that stands in a table with a header of its own stays there (`holds_of_linesBelow`).
-/

namespace Slotwise.Configuration

open Scanner

/-! ## Keys and values -/

/-- Whether a text can be a key without quotes. -/
def IsBareKey (name : String) : Prop :=
  name ≠ "" ∧ ∀ c ∈ name.toList, isBare c = true

instance (name : String) : Decidable (IsBareKey name) :=
  decidable_of_iff (name ≠ "" ∧ name.toList.all isBare = true)
    (and_congr_right fun _ => List.all_eq_true)

theorem spaces_apply (cs : List Char) : spaces cs = some ((), cs.dropWhile isSpace) := rfl

theorem exactly?_of_ne {text : String} {first c : Char} {more : List Char}
    (textIs : text.toList = first :: more) (other : c ≠ first) (cs : List Char) :
    exactly? text (c :: cs) = some (false, c :: cs) := by
  rw [exactly?_apply, if_neg]
  simp [textIs, Ne.symm other]

theorem exactly_append (text : String) (rest : List Char) :
    exactly text (text.toList ++ rest) = some ((), rest) := by
  rw [exactly_apply, if_pos (List.isPrefixOf_iff_prefix.2 (List.prefix_append _ _)),
    ← String.length_toList, List.drop_left]

/-- A bare key starts with none of the characters that start something else. -/
theorem IsBareKey.exists_first {name : String} (bare : IsBareKey name) :
    ∃ first more, name.toList = first :: more ∧ ∀ c, isBare c = false → first ≠ c := by
  obtain ⟨some_, all⟩ := bare
  obtain ⟨first, more, nameIs⟩ : ∃ first more, name.toList = first :: more :=
    List.exists_cons_of_ne_nil fun empty => some_ (String.toList_eq_nil_iff.1 empty)
  refine ⟨first, more, nameIs, ?_⟩
  rintro _ other rfl
  rw [all first (by simp [nameIs])] at other
  cases other

/-- A bare key is read up to the first character that is not bare. -/
theorem simpleKey_of_bare {name : String} (bare : IsBareKey name) {c : Char}
    (other : isBare c = false) (rest : List Char) :
    simpleKey (name.toList ++ c :: rest) = some (name, c :: rest) := by
  obtain ⟨first, more, nameIs, starts_⟩ := bare.exists_first
  have all := bare.2
  have taken : (name.toList ++ c :: rest).takeWhile isBare = name.toList := by
    rw [List.takeWhile_append_of_pos all, List.takeWhile_cons_of_neg (by simp [other]),
      List.append_nil]
  have left : (name.toList ++ c :: rest).dropWhile isBare = c :: rest := by
    rw [List.dropWhile_append_of_pos all, List.dropWhile_cons_of_neg (by simp [other])]
  have starts : name.toList ++ c :: rest = first :: (more ++ c :: rest) := by
    rw [nameIs, List.cons_append]
  rw [simpleKey, starts, bind_of_eq (exactly?_of_ne (by rfl) (starts_ '"' (by decide)) _)]
  show (exactly? "'" >>= _) (first :: (more ++ c :: rest)) = _
  rw [bind_of_eq (exactly?_of_ne (by rfl) (starts_ '\'' (by decide)) _), ← starts]
  show (takeWhile isBare >>= _) (name.toList ++ c :: rest) = _
  rw [bind_of_eq (takeWhile_apply isBare _), taken, left]
  show (require _ >>= _) (c :: rest) = _
  rw [bind_of_eq ((require_apply _ _).trans (if_pos (by simp [nameIs])))]
  show some (String.ofList name.toList, c :: rest) = _
  rw [String.ofList_toList]

/-- A key ends where no dot comes next. -/
theorem steps_end {c : Char} (single : c ≠ '.') (rest : List Char) :
    (do
      if ← exactly? "." then
        spaces
        let name ← simpleKey
        spaces
        return some [name]
      else return none : Scanner (Option (List String))) (c :: rest) =
        some (none, c :: rest) := by
  rw [bind_of_eq (exactly?_of_ne (by rfl) single rest)]
  rfl

/-- A bare key of one step is read up to what stands behind the blanks after it. -/
theorem key_of_bare {name : String} (bare : IsBareKey name) (blanks : List Char)
    (blank : ∀ c ∈ blanks, isSpace c = true) {c : Char} (other : isBare c = false)
    (visible : isSpace c = false) (single : c ≠ '.') (rest : List Char) :
    key (name.toList ++ (blanks ++ c :: rest)) = some ([name], c :: rest) := by
  have before : (name.toList ++ (blanks ++ c :: rest)).dropWhile isSpace =
      name.toList ++ (blanks ++ c :: rest) := by
    obtain ⟨first, more, nameIs, starts⟩ := bare.exists_first
    rw [nameIs, List.cons_append, List.dropWhile_cons_of_neg]
    simp [isSpace, starts ' ' (by decide), starts '\t' (by decide)]
  have read :
      simpleKey (name.toList ++ (blanks ++ c :: rest)) = some (name, blanks ++ c :: rest) := by
    cases blanks with
    | nil => exact simpleKey_of_bare bare other rest
    | cons space blanks =>
      refine simpleKey_of_bare bare ?_ _
      rcases (by simpa [isSpace] using blank space List.mem_cons_self :
        space = ' ' ∨ space = '\t') with rfl | rfl <;> decide
  have after : (blanks ++ c :: rest).dropWhile isSpace = c :: rest := by
    rw [List.dropWhile_append_of_pos blank, List.dropWhile_cons_of_neg (by simp [visible])]
  rw [key, bind_of_eq (spaces_apply _), before]
  show (simpleKey >>= _) (name.toList ++ (blanks ++ c :: rest)) = _
  rw [bind_of_eq read]
  show (spaces >>= _) (blanks ++ c :: rest) = _
  rw [bind_of_eq (spaces_apply _), after]
  show (repeated _ >>= _) (c :: rest) = _
  rw [bind_of_eq (repeated_of_none (steps_end single rest))]
  rfl

/-- An entry with a bare key has what its value is. -/
theorem entry_of_bare {name : String} (bare : IsBareKey name) (value : Scanner Document) {c : Char}
    (visible : isSpace c = false) (rest : List Char) :
    entry value (name.toList ++ (" = ".toList ++ c :: rest)) =
      (value (c :: rest)).map fun (document, rest) => (([], name, document), rest) := by
  have read : key (name.toList ++ (" = ".toList ++ c :: rest)) =
      some ([name], '=' :: ' ' :: c :: rest) :=
    key_of_bare bare [' '] (List.forall_mem_singleton.2 rfl) (by decide) (by decide) (by decide) _
  have dropped : (' ' :: c :: rest).dropWhile isSpace = c :: rest := by
    rw [List.dropWhile_cons_of_pos (by decide), List.dropWhile_cons_of_neg (by simp [visible])]
  rw [entry, bind_of_eq read]
  show (exactly "=" >>= _) ("=".toList ++ ' ' :: c :: rest) = _
  rw [bind_of_eq (exactly_append "=" _)]
  show (spaces >>= _) (' ' :: c :: rest) = _
  rw [bind_of_eq (spaces_apply _), dropped]
  show (value >>= fun document => pure ([], name, document)) (c :: rest) =
    (value (c :: rest)).map fun (document, rest) => (([], name, document), rest)
  rw [bind_apply]
  cases value (c :: rest) <;> rfl

theorem value_text {depth : Nat} {text : String} {cs rest : List Char}
    (h : quotedText ('"' :: cs) = some (text, rest)) :
    value (depth + 1) ('"' :: cs) = some (.text text, rest) := by
  show (quotedText >>= fun text => pure (Document.text text)) ('"' :: cs) = _
  rw [bind_of_eq h]
  rfl

theorem value_false {depth : Nat} (rest : List Char) :
    value (depth + 1) ('f' :: ("alse".toList ++ rest)) = some (.flag false, rest) := rfl

/-- One step of a list. -/
def listStep (value : Scanner Document) : Scanner (Option (List Document)) := do
  gap
  if ← exactly? "]" then return none
  let item ← value
  gap
  if !(← exactly? ",") then require (← startsWith "]")
  return some [item]

theorem listRest_eq (value : Scanner Document) : listRest value = repeated (listStep value) := rfl

/-- A list with a text in it. -/
theorem value_list {depth : Nat} {text : String} {cs rest : List Char}
    (h : quotedText ('"' :: cs) = some (text, ']' :: rest)) :
    value (depth + 2) ('[' :: '"' :: cs) = some (.list [.text text], rest) := by
  have item : listStep (value (depth + 1)) ('"' :: cs) = some (some [.text text], ']' :: rest) := by
    have nothing : gap ('"' :: cs) = some ((), '"' :: cs) := rfl
    have opened : exactly? "]" ('"' :: cs) = some (false, '"' :: cs) := rfl
    rw [listStep, bind_of_eq nothing, bind_of_eq opened, if_neg (by decide),
      bind_of_eq (value_text h)]
    rfl
  have last : listStep (value (depth + 1)) (']' :: rest) = some (none, rest) := rfl
  show (listRest (value (depth + 1)) >>= fun items => pure (Document.list items)) ('"' :: cs) = _
  rw [listRest_eq, bind_of_eq (repeated_of_some item last)]
  rfl

/-- One step of a table on one line. -/
def inlineStep (value : Scanner Document) :
    Scanner (Option (List (List String × String × Document))) := do
  if ← exactly? "\x7d" then return none
  exactly ","
  let next ← entry value
  spaces
  return some [next]

/-- A table on one line with two entries. -/
theorem value_table {depth : Nat} {first second : String} (firstBare : IsBareKey first)
    (secondBare : IsBareKey second) {c d : Char} (visible : isSpace c = false)
    (secondVisible : isSpace d = false) {firstLine secondLine rest : List Char}
    {firstDocument secondDocument : Document} (apart : first ≠ second)
    (firstIs : value (depth + 1) (c :: firstLine) = some (firstDocument,
      ", ".toList ++ (second.toList ++ (" = ".toList ++ d :: secondLine))))
    (secondIs : value (depth + 1) (d :: secondLine) =
      some (secondDocument, " \x7d".toList ++ rest)) :
    value (depth + 2) ("\x7b ".toList ++ (first.toList ++ (" = ".toList ++ c :: firstLine))) =
      some (.table [(first, firstDocument), (second, secondDocument)], rest) := by
  have firstEntry : entry (value (depth + 1)) (first.toList ++ (" = ".toList ++ c :: firstLine)) =
      some (([], first, firstDocument),
        ", ".toList ++ (second.toList ++ (" = ".toList ++ d :: secondLine))) :=
    (entry_of_bare firstBare _ visible firstLine).trans (by rw [firstIs]; rfl)
  have secondEntry :
      entry (value (depth + 1)) (' ' :: (second.toList ++ (" = ".toList ++ d :: secondLine))) =
        some (([], second, secondDocument), " \x7d".toList ++ rest) :=
    (entry_of_bare secondBare _ secondVisible secondLine).trans (by rw [secondIs]; rfl)
  have step : inlineStep (value (depth + 1))
      (',' :: ' ' :: (second.toList ++ (" = ".toList ++ d :: secondLine))) =
        some (some [([], second, secondDocument)], '\x7d' :: rest) := by
    have comma (cs : List Char) : exactly "," (',' :: cs) = some ((), cs) := exactly_append "," cs
    rw [inlineStep, bind_of_eq (exactly?_of_ne (by rfl) (by decide) _), if_neg (by decide),
      bind_of_eq (comma _), bind_of_eq secondEntry]
    rfl
  have last : inlineStep (value (depth + 1)) ('\x7d' :: rest) = some (none, rest) := rfl
  have entries : inlineEntries (value (depth + 1))
      (' ' :: (first.toList ++ (" = ".toList ++ c :: firstLine))) =
        some ([(first, .value firstDocument), (second, .value secondDocument)], rest) := by
    obtain ⟨start, more, firstIs, starts⟩ := firstBare.exists_first
    have opened : exactly? "\x7d" (first.toList ++ (" = ".toList ++ c :: firstLine)) =
        some (false, first.toList ++ (" = ".toList ++ c :: firstLine)) := by
      rw [firstIs]
      exact exactly?_of_ne (by rfl) (starts '\x7d' (by decide)) _
    have before : (' ' :: (first.toList ++ (" = ".toList ++ c :: firstLine))).dropWhile isSpace =
        first.toList ++ (" = ".toList ++ c :: firstLine) := by
      rw [List.dropWhile_cons_of_pos (by decide), firstIs, List.cons_append,
        List.dropWhile_cons_of_neg]
      simp [isSpace, starts ' ' (by decide), starts '\t' (by decide)]
    have steps : repeated (inlineStep (value (depth + 1)))
        (',' :: ' ' :: (second.toList ++ (" = ".toList ++ d :: secondLine))) =
          some ([([], second, secondDocument)], rest) :=
      repeated_of_some step last
    rw [inlineEntries, bind_of_eq (spaces_apply _), before, bind_of_eq opened, if_neg (by decide),
      bind_of_eq firstEntry, bind_of_eq (spaces_apply _)]
    show (repeated (inlineStep (value (depth + 1))) >>= _)
      (',' :: ' ' :: (second.toList ++ (" = ".toList ++ d :: secondLine))) = _
    rw [bind_of_eq steps]
    have different : (second == first) = false := beq_eq_false_iff_ne.2 (Ne.symm apart)
    have inserted : Entries.insert [] first firstDocument false [] =
        some [(first, .value firstDocument)] := rfl
    have insertedSecond :
        Entries.insert [] second secondDocument false [(first, .value firstDocument)] =
          some [(first, .value firstDocument), (second, .value secondDocument)] := by
      simp [Entries.insert, Entries.change, Entries.find?, Entries.set, List.lookup_cons, apart,
        different]
    simp only [List.foldlM_cons, List.foldlM_nil, inserted, insertedSecond, bind_lift,
      Option.bind_some]
    rfl
  show (inlineEntries (value (depth + 1)) >>= fun entries =>
    pure (Document.table (entriesToDocuments entries)))
      (' ' :: (first.toList ++ (" = ".toList ++ c :: firstLine))) = _
  rw [bind_of_eq entries]
  rfl

/-! ## Lines -/

section Lines

variable {bound : Nat} {state : State}

theorem linesBelow_end : linesBelow (bound + 1) state [] = some (state, []) := rfl

theorem linesBelow_empty (rest : List Char) :
    linesBelow (bound + 1) state ('\n' :: rest) = linesBelow bound state rest := rfl

theorem restOfLine_end (rest : List Char) : restOfLine ('\n' :: rest) = some ((), rest) := rfl

/-- A header with a bare key defines a table, and what follows belongs to it. -/
theorem linesBelow_header {name : String} (bare : IsBareKey name) (rest : List Char) :
    linesBelow (bound + 1) state ('[' :: (name.toList ++ ']' :: '\n' :: rest)) =
      (Entries.define [] name state.root).bind fun root =>
        linesBelow bound ⟨root, [name]⟩ rest := by
  have read : key (name.toList ++ ']' :: '\n' :: rest) = some ([name], ']' :: '\n' :: rest) :=
    key_of_bare bare [] (List.forall_mem_nil _) (by decide) (by decide) (by decide) _
  have single : exactly? "[[" ('[' :: (name.toList ++ ']' :: '\n' :: rest)) =
      some (false, '[' :: (name.toList ++ ']' :: '\n' :: rest)) := by
    obtain ⟨first, more, nameIs, starts⟩ := bare.exists_first
    rw [exactly?_apply, if_neg, nameIs]
    simp [nameIs, Ne.symm (starts '[' (by decide))]
  have header : headerLine state ('[' :: (name.toList ++ ']' :: '\n' :: rest)) =
      (Entries.define [] name state.root).map fun root => (⟨root, [name]⟩, rest) := by
    rw [headerLine, bind_of_eq single]
    show (exactly "[" >>= _) ("[".toList ++ (name.toList ++ ']' :: '\n' :: rest)) = _
    rw [bind_of_eq (exactly_append "[" _)]
    show (key >>= _) (name.toList ++ ']' :: '\n' :: rest) = _
    rw [bind_of_eq read]
    show (exactly "]" >>= _) ("]".toList ++ '\n' :: rest) = _
    rw [bind_of_eq (exactly_append "]" _)]
    show (restOfLine >>= _) ('\n' :: rest) = _
    rw [bind_of_eq (restOfLine_end rest)]
    show ((liftM (Entries.define [] name state.root) : Scanner Entries) >>= _) rest = _
    rw [bind_lift]
    exact Option.map_eq_bind.symm
  show (headerLine state >>= linesBelow bound) ('[' :: (name.toList ++ ']' :: '\n' :: rest)) = _
  rw [bind_apply, header]
  cases Entries.define [] name state.root <;> rfl

/-- A line that starts with a bare key is an entry. -/
theorem linesBelow_of_bare {name : String} (bare : IsBareKey name) (line : List Char) :
    linesBelow (bound + 1) state (name.toList ++ line) =
      (entryLine state >>= linesBelow bound) (name.toList ++ line) := by
  obtain ⟨first, more, nameIs, starts⟩ := bare.exists_first
  have start : (name.toList ++ line).dropWhile isSpace = name.toList ++ line := by
    rw [nameIs, List.cons_append, List.dropWhile_cons_of_neg]
    simp [isSpace, starts ' ' (by decide), starts '\t' (by decide)]
  rw [linesBelow, bind_of_eq (spaces_apply _), start, nameIs]
  show ((if first = '#' || first = '\n' || first = '\r' then _ else if first = '[' then _ else _ :
    Scanner State) _) = _
  rw [if_neg (by simp [starts '#' (by decide), starts '\n' (by decide),
    starts '\r' (by decide)]), if_neg (starts '[' (by decide))]

/-- A line with an entry adds it to the table of the last header. -/
theorem linesBelow_entry {name : String} (bare : IsBareKey name) {c : Char}
    (visible : isSpace c = false) {line rest : List Char} {document : Document}
    (h : value nestingLimit (c :: line) = some (document, '\n' :: rest)) :
    linesBelow (bound + 1) state (name.toList ++ (" = ".toList ++ c :: line)) =
      (Entries.change false (fun own entries => Entries.insert [] name document own entries)
        state.header false state.root).bind fun root =>
          linesBelow bound ⟨root, state.header⟩ rest := by
  have read : entryLine state (name.toList ++ (" = ".toList ++ c :: line)) =
      (Entries.change false (fun own entries => Entries.insert [] name document own entries)
        state.header false state.root).map fun root => (⟨root, state.header⟩, rest) := by
    rw [entryLine, bind_of_eq ((entry_of_bare bare _ visible line).trans (by rw [h]; rfl))]
    show (restOfLine >>= _) ('\n' :: rest) = _
    rw [bind_of_eq (restOfLine_end rest), bind_lift]
    exact Option.map_eq_bind.symm
  rw [linesBelow_of_bare bare, bind_apply, read]
  cases Entries.change false (fun own entries => Entries.insert [] name document own entries)
    state.header false state.root <;> rfl

end Lines

/-! ## What stays -/

namespace Entries

theorem find?_set_of_ne {name other : String} (apart : other ≠ name) (item : Item)
    (entries : Entries) : (entries.set name item).find? other = entries.find? other := by
  unfold find?
  induction entries with
  | nil => simp [set, List.lookup_cons, beq_eq_false_iff_ne.2 apart]
  | cons pair rest ih =>
    obtain ⟨n, i⟩ := pair
    rw [set]
    split
    · next same =>
      subst same
      simp [List.lookup_cons, beq_eq_false_iff_ne.2 apart]
    · rw [List.lookup_cons, List.lookup_cons, ih]

/-- A value stands in a table that has a header of its own. -/
def Holds (table name : String) (document : Document) (entries : Entries) : Prop :=
  ∃ below : Entries, entries.find? table = some (.table false false below) ∧
    below.find? name = some (.value document)

/-- A change of tables leaves values where they are, also those below a header of their own. -/
structure Keeps (f : Bool → Entries → Option Entries) : Prop where
  /-- Values of the table itself. -/
  values : ∀ own entries after, f own entries = some after → ∀ name document,
    entries.find? name = some (.value document) → after.find? name = some (.value document)
  /-- Values of the tables in it. -/
  tables : ∀ own entries after, f own entries = some after → ∀ table name document,
    Holds table name document entries → Holds table name document after

/-- Nothing can be put in the place of a value or of a table with a header of its own. -/
def Open : Option Item → Prop
  | some (.value _) | some (.table false false _) => False
  | _ => True

theorem keeps_of_set {f : Bool → Entries → Option Entries}
    (sets : ∀ own entries after, f own entries = some after →
      ∃ name item, Open (entries.find? name) ∧ after = entries.set name item) : Keeps f := by
  constructor
  · intro own entries after h name document found
    obtain ⟨changed, item, isOpen, rfl⟩ := sets own entries after h
    have apart : name ≠ changed := by
      rintro rfl
      rw [found] at isOpen
      exact isOpen
    rw [find?_set_of_ne apart, found]
  · rintro own entries after h table name document ⟨below, found, inside⟩
    obtain ⟨changed, item, isOpen, rfl⟩ := sets own entries after h
    have apart : table ≠ changed := by
      rintro rfl
      rw [found] at isOpen
      exact isOpen
    exact ⟨below, by rw [find?_set_of_ne apart, found], inside⟩

/-- What a change on the way to a table does to the table it starts from. -/
theorem cases_of_change {dotted : Bool} {f : Bool → Entries → Option Entries} {name : String}
    {path : List String} {own : Bool} {entries after : Entries}
    (h : change dotted f (name :: path) own entries = some after) :
    (Open (entries.find? name) ∧ ∃ item, after = entries.set name item) ∨
      ∃ made below belowAfter, entries.find? name = some (.table false made below) ∧
        change dotted f path made below = some belowAfter ∧
        after = entries.set name (.table false made belowAfter) := by
  rw [change] at h
  split at h
  · next absent =>
    obtain ⟨below, -, same⟩ := Option.bind_eq_some_iff.1 h
    exact .inl ⟨by rw [absent]; trivial, _, (Option.some.inj same).symm⟩
  · next passed made below found =>
    split at h
    · cases h
    · obtain ⟨belowAfter, changed, same⟩ := Option.bind_eq_some_iff.1 h
      cases passed with
      | true => exact .inl ⟨by rw [found]; trivial, _, (Option.some.inj same).symm⟩
      | false => exact .inr ⟨made, below, belowAfter, found, changed, (Option.some.inj same).symm⟩
  · next elements found =>
    obtain ⟨last, -, same⟩ := Option.bind_eq_some_iff.1 h
    exact .inl ⟨by rw [found]; trivial, _, (Option.some.inj same).symm⟩
  · cases h

/-- The table at the end of a path is changed, and those on the way only on the path. -/
theorem keeps_change {f : Bool → Entries → Option Entries} (keeps : Keeps f) (dotted : Bool)
    (path : List String) : Keeps (change dotted f path) := by
  induction path with
  | nil => exact ⟨keeps.values, keeps.tables⟩
  | cons first path ih =>
    constructor
    · intro own entries after h name document found
      have apart : name ≠ first ∧ ∃ item, after = entries.set first item := by
        rcases cases_of_change h with ⟨isOpen, item, rfl⟩ | ⟨_, _, _, there, -, rfl⟩
        · refine ⟨?_, item, rfl⟩
          rintro rfl
          rw [found] at isOpen
          exact isOpen
        · refine ⟨?_, _, rfl⟩
          rintro rfl
          rw [found] at there
          cases there
      obtain ⟨apart, item, rfl⟩ := apart
      rw [find?_set_of_ne apart, found]
    · rintro own entries after h table name document ⟨below, found, inside⟩
      rcases cases_of_change h with ⟨isOpen, item, rfl⟩ | ⟨made, _, belowAfter, there, changed, rfl⟩
      · have apart : table ≠ first := by
          rintro rfl
          rw [found] at isOpen
          exact isOpen
        exact ⟨below, by rw [find?_set_of_ne apart, found], inside⟩
      · by_cases same : table = first
        · subst same
          cases found.symm.trans there
          exact ⟨belowAfter, find?_set _ _ _, ih.values _ _ _ changed name document inside⟩
        · exact ⟨below, by rw [find?_set_of_ne same, found], inside⟩

theorem keeps_insert (path : List String) (name : String) (document : Document) :
    Keeps fun own entries => insert path name document own entries := by
  refine keeps_change (keeps_of_set ?_) true path
  intro own entries after h
  split at h
  · cases h
  · split at h
    · next absent =>
      exact ⟨name, _, by rw [absent]; trivial, (Option.some.inj h).symm⟩
    · cases h

variable {table name : String} {document : Document} {entries after : Entries}

theorem Holds.define {path : List String} {header : String}
    (holds : Holds table name document entries)
    (h : define path header entries = some after) : Holds table name document after := by
  refine (keeps_change (keeps_of_set ?_) false path).tables false entries after h table name
    document holds
  intro own entries after h
  split at h
  · next absent =>
    exact ⟨header, _, by rw [absent]; trivial, (Option.some.inj h).symm⟩
  · next below found =>
    exact ⟨header, _, by rw [found]; trivial, (Option.some.inj h).symm⟩
  · cases h

theorem Holds.append {path : List String} {header : String}
    (holds : Holds table name document entries)
    (h : append path header entries = some after) : Holds table name document after := by
  refine (keeps_change (keeps_of_set ?_) false path).tables false entries after h table name
    document holds
  intro own entries after h
  split at h
  · next absent =>
    exact ⟨header, _, by rw [absent]; trivial, (Option.some.inj h).symm⟩
  · next elements found =>
    exact ⟨header, _, by rw [found]; trivial, (Option.some.inj h).symm⟩
  · cases h

end Entries

section Later

variable {table name : String} {document : Document} {state after : State} {cs rest : List Char}

theorem holds_of_headerLine (holds : state.root.Holds table name document)
    (h : headerLine state cs = some (after, rest)) : after.root.Holds table name document := by
  obtain ⟨element, _, -, h⟩ := bind_eq_some_iff.1 h
  cases element with
  | true =>
    obtain ⟨path, _, -, h⟩ := bind_eq_some_iff.1 h
    obtain ⟨_, _, -, h⟩ := bind_eq_some_iff.1 h
    obtain ⟨_, _, -, h⟩ := bind_eq_some_iff.1 h
    rw [bind_lift, Option.bind_eq_some_iff] at h
    obtain ⟨root, added, h⟩ := h
    obtain ⟨rfl, rfl⟩ := pure_eq_some_iff.1 h
    exact Entries.Holds.append holds added
  | false =>
    obtain ⟨_, _, -, h⟩ := bind_eq_some_iff.1 h
    obtain ⟨path, _, -, h⟩ := bind_eq_some_iff.1 h
    obtain ⟨_, _, -, h⟩ := bind_eq_some_iff.1 h
    obtain ⟨_, _, -, h⟩ := bind_eq_some_iff.1 h
    rw [bind_lift, Option.bind_eq_some_iff] at h
    obtain ⟨root, added, h⟩ := h
    obtain ⟨rfl, rfl⟩ := pure_eq_some_iff.1 h
    exact Entries.Holds.define holds added

theorem holds_of_entryLine (holds : state.root.Holds table name document)
    (h : entryLine state cs = some (after, rest)) : after.root.Holds table name document := by
  obtain ⟨⟨path, key, value⟩, _, -, h⟩ := bind_eq_some_iff.1 h
  obtain ⟨_, _, -, h⟩ := bind_eq_some_iff.1 h
  rw [bind_lift, Option.bind_eq_some_iff] at h
  obtain ⟨root, added, h⟩ := h
  obtain ⟨rfl, rfl⟩ := pure_eq_some_iff.1 h
  exact (Entries.keeps_change (Entries.keeps_insert path key value) false state.header).tables
    false state.root root added table name document holds

/-- A value that stands in a table with a header of its own stays there. -/
theorem holds_of_linesBelow {bound : Nat} (holds : state.root.Holds table name document)
    (h : linesBelow bound state cs = some (after, rest)) :
    after.root.Holds table name document := by
  induction bound generalizing state cs with
  | zero => cases h
  | succ bound ih =>
    obtain ⟨_, _, -, h⟩ := bind_eq_some_iff.1 h
    obtain ⟨next, _, -, h⟩ := bind_eq_some_iff.1 h
    split at h
    · obtain ⟨rfl, -⟩ := pure_eq_some_iff.1 h
      exact holds
    · split at h
      · obtain ⟨_, _, -, h⟩ := bind_eq_some_iff.1 h
        exact ih holds h
      · split at h
        · obtain ⟨_, _, header, h⟩ := bind_eq_some_iff.1 h
          exact ih (holds_of_headerLine holds header) h
        · obtain ⟨_, _, entry, h⟩ := bind_eq_some_iff.1 h
          exact ih (holds_of_entryLine holds entry) h

end Later

/-! ## Documents -/

theorem value?_entriesToDocuments (name : String) (entries : Entries) :
    Document.value? name (entriesToDocuments entries) =
      (entries.find? name).map Item.toDocument := by
  unfold Document.value? Entries.find?
  induction entries with
  | nil => rfl
  | cons pair rest ih =>
    obtain ⟨n, item⟩ := pair
    rw [entriesToDocuments, List.lookup_cons, List.lookup_cons, ih]
    cases name == n <;> rfl

/-- A text without a mark of the byte order is read line by line, up to its end. -/
theorem document?_eq_some_iff {text : String} {document : Document}
    (unmarked : text.toList.head? ≠ some '\ufeff') :
    document? text = some document ↔
      ∃ state, linesBelow (text.toList.length + 1) ⟨[], []⟩ text.toList = some (state, []) ∧
        document = .table (entriesToDocuments state.root) := by
  unfold document?
  extract_lets cs
  have whole : cs = text.toList := by
    unfold cs
    split
    · next textIs => exact absurd (by rw [textIs]; rfl) unmarked
    · rfl
  rw [whole]
  constructor
  · intro h
    split at h
    · next state reads => exact ⟨state, reads, (Option.some.inj h).symm⟩
    · cases h
  · rintro ⟨state, reads, rfl⟩
    rw [reads]

end Slotwise.Configuration
