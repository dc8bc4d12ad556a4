import Slotwise.ModelText
import Slotwise.Proofs.Gaps
/-!
# Names as they are read

A name is read from a text as a sequence of tokens with one word in it, so blanks and comments
around the name are lost. A text reads as a name if and only if it encloses a legal identifier that
is no keyword (`Code.Node.identifier?_eq_some_iff`). The reserved word is compared with the text as
written, before anything is read.

Main statement: which texts give which names, that a name is spelled like its text just when the
text is an identifier as it stands, and that identifiers are read as they stand or refused
(`ModelText.identifier_exact`). A name with a blank before it is not spelled like its text, and the
reserved word with a blank behind it is not refused (`ModelText.not_as_written`).
-/

namespace Slotwise

/-! ## Words at the front of a text -/

namespace Code.Lexer

open Literal Naming

/-- The text does not go on in a way that a word before it would take along. -/
def StopsWord (after : List Char) : Prop :=
  ∀ c ∈ after.head?, Text.isXidContinue c = false ∧ c ∉ ['#', '"', '\'']

theorem stopsWord_of_skips {after : List Char} (skips : Skips after []) : StopsWord after := by
  intro c member
  cases skips with
  | none => cases member
  | blank space =>
    cases member
    refine ⟨?_, ?_⟩
    · rw [← Bool.not_eq_true]
      intro continues
      rw [isSpace_of_continues (.inl continues)] at space
      cases space
    · intro among
      simp only [List.mem_cons, List.not_mem_nil, or_false] at among
      obtain rfl | rfl | rfl := among <;> cases space
  | comment found =>
    have slash : c = '/' := by
      unfold afterComment? at found
      split at found
      · cases member; rfl
      · cases member; rfl
      · cases found
    rw [slash]
    decide

section Front

variable {name : String} {after : List Char}

/-- What starts the text would have to start the name. -/
theorem not_prefix_of_name (stops : StopsWord after) {start : List Char}
    (other : ¬ start <+: name.toList)
    (solid : ∀ c ∈ start, Text.isXidContinue c = true ∨ c ∈ ['#', '"', '\'']) :
    ¬ start <+: name.toList ++ after := by
  intro starts
  obtain within | ⟨more, rfl⟩ :=
    List.prefix_or_prefix_of_prefix starts (List.prefix_append name.toList after)
  · exact other within
  · cases more with
    | nil => exact other (by simp)
    | cons c more =>
      obtain ⟨behind, rfl⟩ := (List.prefix_append_right_inj _).1 starts
      obtain ⟨ends, mark⟩ := stops c rfl
      obtain continues | among := solid c (by simp)
      · rw [ends] at continues
        cases continues
      · exact mark among

/-- No quote stands at the front of the text. -/
theorem not_prefix_of_quote (legal : isLegal name = true) (stops : StopsWord after)
    {start : List Char} (quote : '"' ∈ start ∨ '\'' ∈ start)
    (solid : ∀ c ∈ start, Text.isXidContinue c = true ∨ c ∈ ['#', '"', '\'']) :
    ¬ start <+: name.toList ++ after := by
  refine not_prefix_of_name stops (fun within => ?_) solid
  obtain quote | quote := quote
  · exact not_mem_of_isLegal legal (by decide) (within.subset quote)
  · exact not_mem_of_isLegal legal (by decide) (within.subset quote)

theorem after?_eq_none {start : String} {cs : List Char} (h : ¬ start.toList <+: cs) :
    after? start cs = none :=
  if_neg fun starts => h (List.isPrefixOf_iff_prefix.1 starts)

/-- No text literal with this letter. -/
theorem afterText?_eq_none (legal : isLegal name = true) (stops : StopsWord after)
    (quotation : Quotation) {letter : String}
    (letters : letter.toList.all Text.isXidContinue = true) :
    afterText? quotation letter (name.toList ++ after) = none := by
  have solid (more : List Char) (marks : ∀ c ∈ more, Text.isXidContinue c = true ∨
      c ∈ ['#', '"', '\'']) : ∀ c ∈ letter.toList ++ more,
        Text.isXidContinue c = true ∨ c ∈ ['#', '"', '\''] := by
    intro c member
    obtain member | member := List.mem_append.1 member
    · exact .inl (List.all_eq_true.1 letters c member)
    · exact marks c member
  have cooked : after? (letter ++ "\"") (name.toList ++ after) = none := by
    apply after?_eq_none
    rw [String.toList_append]
    exact not_prefix_of_quote legal stops (.inl (by simp))
      (solid _ (List.all_iff_forall_prop.1 (by decide)))
  rw [afterText?, cooked]
  refine Option.bind_eq_none_iff.2 fun rest raw => ?_
  have split := eq_append_of_after? raw
  unfold afterRaw?
  simp only
  split
  · next body opened =>
    -- the hash marks and the quote behind them would stand at the front of the text
    have whole : rest.takeWhile (· = '#') ++ '"' :: body = rest := by
      rw [← opened, List.takeWhile_append_dropWhile]
    have starts : letter.toList ++ ('r' :: (rest.takeWhile (· = '#') ++ ['"'])) <+:
        name.toList ++ after := by
      refine ⟨body, ?_⟩
      rw [split, String.toList_append, List.append_assoc, List.cons_append, List.append_assoc,
        List.singleton_append, whole, List.append_assoc]
      rfl
    refine absurd starts (not_prefix_of_quote legal stops (.inl (by simp))
      (solid _ fun c member => ?_))
    obtain rfl | member := List.mem_cons.1 member
    · exact .inl (by decide)
    · obtain member | member := List.mem_append.1 member
      · have mark : c = '#' := by simpa using List.mem_takeWhile_imp member
        exact .inr (by simp [mark])
      · exact .inr (by simp [List.mem_singleton.1 member])
  · rfl

/-- No literal at all. -/
theorem afterLiteral?_eq_none (legal : isLegal name = true) (stops : StopsWord after) :
    afterLiteral? (name.toList ++ after) = none := by
  have character : after? "b'" (name.toList ++ after) = none :=
    after?_eq_none (not_prefix_of_quote legal stops (.inr (by decide))
      (List.all_iff_forall_prop.1 (by decide)))
  have apostrophe : after? "'" (name.toList ++ after) = none :=
    after?_eq_none (not_prefix_of_quote legal stops (.inr (by decide))
      (List.all_iff_forall_prop.1 (by decide)))
  obtain ⟨first, more, shape, starts⟩ := exists_first_of_isLegal legal
  have front : name.toList ++ after = first :: (more ++ after) := by rw [shape, List.cons_append]
  have notDigit := isDigit_of_startsIdentifier starts
  have float : afterFloatDigits? (name.toList ++ after) = none := by
    rw [front, afterFloatDigits?]
    simp [notDigit]
  have integer : afterIntegerDigits? (name.toList ++ after) = none := by
    rw [front]
    unfold afterIntegerDigits?
    split
    · next same =>
      rw [(List.cons.inj same).1] at notDigit
      cases notDigit
    · next same =>
      rw [(List.cons.inj same).1] at notDigit
      cases notDigit
    · next same =>
      rw [(List.cons.inj same).1] at notDigit
      cases notDigit
    · exact afterDigits?_eq_none notDigit _
  rw [afterLiteral?, afterText?_eq_none legal stops .text (by decide),
    afterText?_eq_none legal stops .bytes (by decide),
    afterText?_eq_none legal stops .terminated (by decide), character, apostrophe, float, integer]
  rfl

theorem startsLikeLiteral_eq_false (legal : isLegal name = true) (stops : StopsWord after) :
    startsLikeLiteral (name.toList ++ after) = false := by
  have quoted {start : String} (quote : '"' ∈ start.toList ∨ '\'' ∈ start.toList)
      (solid : start.toList.all (fun c => Text.isXidContinue c = true ∨ c ∈ ['#', '"', '\'']) = true) :
      start.toList.isPrefixOf (name.toList ++ after) = false := by
    rw [← Bool.not_eq_true, List.isPrefixOf_iff_prefix]
    exact not_prefix_of_quote legal stops quote (List.all_iff_forall_prop.1 solid)
  have marked {start : String} (other : ¬ start.toList <+: name.toList)
      (solid : start.toList.all (fun c => Text.isXidContinue c = true ∨ c ∈ ['#', '"', '\'']) = true) :
      start.toList.isPrefixOf (name.toList ++ after) = false := by
    rw [← Bool.not_eq_true, List.isPrefixOf_iff_prefix]
    exact not_prefix_of_name stops other (List.all_iff_forall_prop.1 solid)
  -- a hash mark stands in a name only behind `r`, and not twice
  have other {start : List Char} (member : start ∈ [['r', '#', '#'], ['b', 'r', '#'],
      ['c', 'r', '#']]) : ¬ start <+: name.toList := by
    obtain ⟨mark, c, rest, shape, rfl | rfl, starts, continues⟩ := shape_of_isLegal legal
    · rintro ⟨behind, same⟩
      have inside : '#' ∈ rest := by
        simp only [List.mem_cons, List.not_mem_nil, or_false] at member
        obtain rfl | rfl | rfl := member <;>
        · rw [shape, List.nil_append] at same
          cases same
          simp
      exact absurd (continues '#' inside) (by decide)
    · rintro ⟨behind, same⟩
      rw [shape] at same
      simp only [List.mem_cons, List.not_mem_nil, or_false] at member
      obtain rfl | rfl | rfl := member <;> cases same
      cases starts
  simp only [startsLikeLiteral, List.any_cons, List.any_nil, Bool.or_false, Bool.or_eq_false_iff]
  refine ⟨quoted (by decide) (by decide), quoted (by decide) (by decide),
    marked (other (by decide)) (by decide), quoted (by decide) (by decide),
    quoted (by decide) (by decide), quoted (by decide) (by decide),
    marked (other (by decide)) (by decide), quoted (by decide) (by decide),
    quoted (by decide) (by decide), marked (other (by decide)) (by decide)⟩

/-- The identifier at the front of the text is the name. -/
theorem identifier?_of_name (legal : isLegal name = true) (stops : StopsWord after) :
    identifier? (name.toList ++ after) = some (name, after) := by
  obtain ⟨mark, c, rest, shape, marks, starts, continues⟩ := shape_of_isLegal legal
  have read : afterIdentifier? (c :: (rest ++ after)) = some after := by
    rw [afterIdentifier?, if_pos starts, List.dropWhile_append_of_pos continues]
    congr 1
    cases after with
    | nil => rfl
    | cons d after => rw [List.dropWhile_cons_of_neg (by simp [(stops d rfl).1])]
  have unmarked : (if "r#".toList.isPrefixOf (name.toList ++ after) then
      (name.toList ++ after).drop 2 else name.toList ++ after) = c :: (rest ++ after) := by
    obtain rfl | rfl := marks
    · have other : ¬ ['r', '#'] <+: name.toList := by
        rw [shape]
        rintro ⟨behind, same⟩
        have inside : '#' ∈ rest := by
          rw [← (List.cons.inj same).2]
          exact List.mem_cons_self
        exact absurd (continues '#' inside) (by decide)
      rw [if_neg, shape]
      · rfl
      · rw [List.isPrefixOf_iff_prefix]
        exact not_prefix_of_name stops other (List.all_iff_forall_prop.1 (by decide))
    · rw [shape]
      rfl
  have taken : consumed (name.toList ++ after) after = name := by
    rw [consumed, List.length_append, Nat.add_sub_cancel, List.take_left', String.ofList_toList]
    rfl
  rw [identifier?, unmarked, read]
  simp [taken, legal]

theorem leaf?_of_name (legal : isLegal name = true) (stops : StopsWord after) :
    leaf? (name.toList ++ after) = some (.word name, after) := by
  have noMark : startsWithMark (name.toList ++ after) = false := by
    obtain ⟨first, more, shape, starts⟩ := exists_first_of_isLegal legal
    have none : ∀ c ∈ markChars, Text.startsIdentifier c = false :=
      List.all_iff_forall_prop.1 (by decide)
    have outside : first ∉ markChars := fun member => by
      rw [none first member] at starts
      cases starts
    rw [shape, List.cons_append]
    unfold startsWithMark
    split
    · rfl
    · rfl
    · next same =>
      cases same
      simpa using outside
    · rfl
  unfold leaf?
  simp only [afterLiteral?_eq_none legal stops, noMark, startsLikeLiteral_eq_false legal stops,
    identifier?_of_name legal stops]
  rfl

theorem solid_of_name (legal : isLegal name = true) (after : List Char) :
    Solid (name.toList ++ after) ∧ docComment? (name.toList ++ after) = none ∧
      ∀ c ∈ (name.toList ++ after).head?,
        c ∉ [')', ']', '\x7d'] ∧ Bracket.ofOpening? c = none := by
  obtain ⟨first, more, shape, starts⟩ := exists_first_of_isLegal legal
  have continues := Text.isXidContinue_of_startsIdentifier starts
  have other {c : Char} (ends : Text.isXidContinue c = false) : first ≠ c := by
    rintro rfl
    rw [ends] at continues
    cases continues
  rw [shape, List.cons_append, ← and_assoc]
  refine ⟨solid_cons (isSpace_of_continues (.inl continues)) fun slash => ?_, ?_⟩
  · exact absurd slash (other (by decide))
  · intro c member
    cases member
    refine ⟨?_, ?_⟩
    · intro among
      simp only [List.mem_cons, List.not_mem_nil, or_false] at among
      obtain same | same | same := among <;> exact other (by decide) same
    · rw [← Option.not_isSome_iff_eq_none, Option.isSome_iff_exists]
      rintro ⟨bracket, opens⟩
      have same := Bracket.ofOpening?_eq_some_iff.1 opens
      cases bracket <;> exact other (by decide) same

end Front

end Code.Lexer

/-! ## Texts that enclose a name -/

namespace Code

open Naming Lexer

/-- The text consists of the name, with blanks and plain comments around it. -/
def Encloses (text name : String) : Prop :=
  ∃ after, Skips (withoutByteOrderMark text.toList) (name.toList ++ after) ∧ Skips after []

theorem Lexer.tokenize?_of_encloses {text name : String} (legal : isLegal name = true)
    (encloses : Encloses text name) : tokenize? text = some [.word name] := by
  obtain ⟨after, before, behind⟩ := encloses
  obtain ⟨solid, plain, noBracket⟩ := solid_of_name legal after
  have long : 0 < (withoutByteOrderMark text.toList).length := by
    have filled := List.length_pos_iff.2 (ne_nil_of_isLegal legal)
    have within := before.suffix.length_le
    rw [List.length_append] at within
    omega
  obtain ⟨fuel, enough⟩ := Nat.exists_eq_succ_of_ne_zero (Nat.ne_of_gt long)
  have read : tokens? ((withoutByteOrderMark text.toList).length + 1)
      (withoutByteOrderMark text.toList) = some ([.word name], []) := by
    have front := skipSpace_of_skips before solid (Nat.lt_succ_self _)
    have first := leaf?_of_name legal (stopsWord_of_skips behind)
    have others : tokens? (withoutByteOrderMark text.toList).length after = some ([], []) := by
      rw [enough]
      exact tokens?_of_skips_nil behind
    exact (tokens?_succ_iff front plain).2
      (.inr (.inr ⟨_, after, [], first, noBracket, others, rfl⟩))
  rw [tokenize?]
  simp only [read]

theorem Lexer.encloses_of_tokenize? {text name : String} (h : tokenize? text = some [.word name]) :
    Encloses text name := by
  obtain ⟨fuel, found⟩ := tokens?_of_tokenize? h
  cases fuel with
  | zero => cases found
  | succ fuel =>
    obtain ⟨after, first, others⟩ := leaf?_of_tokens?_word found
    refine ⟨after, ?_, skips_of_tokens?_nil others⟩
    rw [← (leaf?_eq_word first).1]
    exact skips_skipSpace _ _

theorem readIdentifier_word {name : String} (free : name ∉ Reader.keywords) :
    readAll? (fun _ => Reader.identifier) [.word name] = some name := by
  have read : Reader.identifier [.word name] = some (name, []) := by
    have starts : Reader.startsIdentifier [.word name] = true := by
      simpa [Reader.startsIdentifier] using free
    show (if Reader.startsIdentifier [.word name] then Reader.anyWord else failure) [.word name] = _
    rw [if_pos starts]
    rfl
  simp only [readAll?, read]

/-- A text reads as a name if and only if it encloses a legal identifier that is no keyword. -/
theorem Node.identifier?_eq_some_iff {text name : String} :
    identifier? text = some name ↔
      isLegal name = true ∧ name ∉ Reader.keywords ∧ Encloses text name := by
  constructor
  · intro h
    obtain ⟨legal, free⟩ := isLegal_of_identifier? h
    obtain ⟨tokens, found, h⟩ := Option.bind_eq_some_iff.1 h
    obtain ⟨rfl, -⟩ := tokens_of_readIdentifier h
    exact ⟨legal, free, encloses_of_tokenize? found⟩
  · rintro ⟨legal, free, encloses⟩
    rw [identifier?, tokenize?_of_encloses legal encloses]
    exact readIdentifier_word free

/-- An identifier encloses itself. -/
theorem encloses_self {text : String} (legal : isLegal text = true) : Encloses text text := by
  refine ⟨[], ?_, .none []⟩
  have unmarked : withoutByteOrderMark text.toList = text.toList := by
    unfold withoutByteOrderMark
    split
    · next marked =>
      have inside : '\ufeff' ∈ text.toList := by
        rw [marked]
        exact List.mem_cons_self
      exact absurd inside (not_mem_of_isLegal legal (by decide +kernel))
    · rfl
  rw [unmarked, List.append_nil]
  exact .none _

end Code

/-! ## Main statement -/

namespace ModelText

open Code Naming

theorem identifier_eq_ok_iff {owner expected text name : String} :
    identifier owner expected text = .ok name ↔
      text ∉ reservedWords ∧ Node.identifier? text = some name := by
  unfold identifier orInvalid
  split
  · next reserved =>
    refine iff_of_false (fun h => by cases h) fun ⟨free, _⟩ => ?_
    exact free (by simpa using reserved)
  · next free =>
    have free : text ∉ reservedWords := by simpa using free
    split
    · next read => simp [free, read]
    · next none => simp [none]

/-- A name is read from a text if and only if the text is not the reserved word and encloses the
name, a legal identifier that is no keyword. It is spelled like the text if and only if the text is
an identifier as it stands, and texts that are identifiers as they stand are read unless they are
reserved or keywords. -/
theorem identifier_exact (owner expected text : String) :
    (∀ name, identifier owner expected text = .ok name ↔
      text ∉ reservedWords ∧ isLegal name = true ∧ name ∉ Reader.keywords ∧ Encloses text name) ∧
    (∀ name, identifier owner expected text = .ok name → (name = text ↔ isLegal text = true)) ∧
    (isLegal text = true → (identifier owner expected text = .ok text ↔
      text ∉ reservedWords ∧ text ∉ Reader.keywords)) := by
  refine ⟨fun name => ?_, fun name h => ?_, fun legal => ?_⟩
  · rw [identifier_eq_ok_iff, Node.identifier?_eq_some_iff]
  · obtain ⟨-, read⟩ := identifier_eq_ok_iff.1 h
    constructor
    · rintro rfl
      exact (Node.isLegal_of_identifier? read).1
    · intro legal
      exact (Node.eq_of_identifier? read fun c => isXidContinue_of_isLegal legal).symm
  · rw [identifier_eq_ok_iff, Node.identifier?_eq_some_iff]
    exact ⟨fun ⟨free, _, noKeyword, _⟩ => ⟨free, noKeyword⟩,
      fun ⟨free, noKeyword⟩ => ⟨free, legal, noKeyword, encloses_self legal⟩⟩

/-- A name that is not spelled like its text, and the reserved word read as a name. -/
theorem not_as_written :
    (∃ name, identifier "Point" "field name" " x" = .ok name ∧ name ≠ " x") ∧
      ∃ name, identifier "Point" "field name" "gen " = .ok name ∧ name ∈ reservedWords :=
  ⟨⟨"x", by decide +kernel, by decide⟩, ⟨"gen", by decide +kernel, by decide⟩⟩

end ModelText

end Slotwise
