import Slotwise.Code.Grammar
import Slotwise.Proofs.LiteralEnds
import Slotwise.Proofs.Names
/-!
# Texts that read as one identifier

A text without a slash holds no comment. If it reads as an identifier, it consists of that
identifier and blanks around it, so none of its other characters can mean anything.
-/

namespace Slotwise.Code.Lexer

theorem afterComment?_of_slashFree {cs : List Char} (h : '/' ∉ cs) : afterComment? cs = none := by
  unfold afterComment?
  split
  · simp at h
  · simp at h
  · rfl

theorem docComment?_of_slashFree {cs : List Char} (h : '/' ∉ cs) : docComment? cs = none := by
  unfold docComment?
  split
  · simp at h
  · simp at h
  · simp at h
  · simp at h
  · rfl

/-- What is skipped of a text without comments is blank. -/
theorem skipSpace_of_slashFree (fuel : Nat) {cs : List Char} (h : '/' ∉ cs) :
    ∃ blanks, cs = blanks ++ skipSpace fuel cs ∧ ∀ c ∈ blanks, isSpace c = true := by
  induction fuel generalizing cs with
  | zero => exact ⟨[], rfl, by simp⟩
  | succ fuel ih =>
    cases cs with
    | nil => exact ⟨[], rfl, by simp⟩
    | cons c rest =>
      simp only [skipSpace, afterComment?_of_slashFree h]
      split
      · next space =>
        obtain ⟨blanks, split, blank⟩ := ih fun inside => h (List.mem_cons_of_mem _ inside)
        refine ⟨c :: blanks, ?_, ?_⟩
        · rw [List.cons_append, ← split]
        · intro d member
          obtain rfl | later := List.mem_cons.1 member
          · exact space
          · exact blank d later
      · exact ⟨[], rfl, by simp⟩

theorem consumed_append {cs rest : List Char} (h : rest <:+ cs) :
    (consumed cs rest).toList ++ rest = cs := by
  obtain ⟨front, rfl⟩ := h
  rw [consumed, String.toList_ofList, List.length_append, Nat.add_sub_cancel_right,
    List.take_left']
  rfl

/-- An identifier is read from the front of the text, as it is written there. -/
theorem identifier?_eq_some {cs rest : List Char} {text : String}
    (h : identifier? cs = some (text, rest)) :
    cs = text.toList ++ rest ∧ Naming.isLegal text = true := by
  unfold identifier? at h
  obtain ⟨after, found, kept⟩ := Option.bind_eq_some_iff.1 h
  have suffix : after <:+ cs := by
    have found := Literal.suffix_of_afterIdentifier? found
    split at found
    · exact found.trans (List.drop_suffix 2 cs)
    · exact found
  simp only [Option.ite_none_right_eq_some, Option.some.injEq, Prod.mk.injEq] at kept
  obtain ⟨legal, rfl, rfl⟩ := kept
  exact ⟨(consumed_append suffix).symm, legal⟩

theorem leaf?_eq_word {cs rest : List Char} {text : String}
    (h : leaf? cs = some (.word text, rest)) :
    cs = text.toList ++ rest ∧ Naming.isLegal text = true := by
  unfold leaf? at h
  split at h
  · cases h
  · split at h
    · split at h
      · obtain ⟨_, _, kept⟩ := Option.bind_eq_some_iff.1 h
        simp at kept
      · cases h
      · cases h
    · split at h
      · cases h
      · obtain ⟨⟨word, after⟩, found, kept⟩ := Option.bind_eq_some_iff.1 h
        cases kept
        exact identifier?_eq_some found

/-! ## One word -/

/-- The text consists of the word and blanks around it. -/
def Surrounds (cs : List Char) (word : String) : Prop :=
  ∃ before after, cs = before ++ word.toList ++ after ∧
    (∀ c ∈ before, isSpace c = true) ∧ ∀ c ∈ after, isSpace c = true

/-- What one round of reading finds behind blanks and comments: the end of the text, a closing
bracket, documentation, a group, or a token without brackets. -/
theorem tokens?_cases {fuel : Nat} {cs rest : List Char} {tokens : List Token}
    (h : tokens? (fuel + 1) cs = some (tokens, rest)) :
    (tokens = [] ∧ rest = skipSpace (cs.length + 1) cs) ∨
      (∃ inner content more, tokens = docTokens inner content ++ more ∧
        docComment? (skipSpace (cs.length + 1) cs) ≠ none) ∨
      (∃ bracket body more, tokens = .group bracket body :: more) ∨
      ∃ token more after, tokens = token :: more ∧
        leaf? (skipSpace (cs.length + 1) cs) = some (token, after) ∧
        tokens? fuel after = some (more, rest) := by
  rw [tokens?] at h
  generalize skipSpace (cs.length + 1) cs = tail at h
  simp only at h
  split at h
  · next comment =>
    split at h
    · cases h
    · obtain ⟨⟨more, _⟩, -, h⟩ := Option.bind_eq_some_iff.1 h
      simp only [Option.some.injEq, Prod.mk.injEq] at h
      exact .inr (.inl ⟨_, _, more, h.1.symm, by simp [comment]⟩)
  · cases tail with
    | nil =>
      simp only [Option.some.injEq, Prod.mk.injEq] at h
      exact .inl ⟨h.1.symm, h.2.symm⟩
    | cons c tail =>
      simp only at h
      split at h
      · simp only [Option.some.injEq, Prod.mk.injEq] at h
        exact .inl ⟨h.1.symm, h.2.symm⟩
      · split at h
        · obtain ⟨⟨body, after⟩, -, h⟩ := Option.bind_eq_some_iff.1 h
          cases after with
          | nil => cases h
          | cons closer after =>
            simp only [Option.ite_none_right_eq_some] at h
            obtain ⟨⟨more, _⟩, -, h⟩ := Option.bind_eq_some_iff.1 h.2
            simp only [Option.some.injEq, Prod.mk.injEq] at h
            exact .inr (.inr (.inl ⟨_, body, more, h.1.symm⟩))
        · obtain ⟨⟨token, after⟩, found, h⟩ := Option.bind_eq_some_iff.1 h
          obtain ⟨⟨more, _⟩, others, h⟩ := Option.bind_eq_some_iff.1 h
          simp only [Option.some.injEq, Prod.mk.injEq] at h
          obtain ⟨rfl, rfl⟩ := h
          exact .inr (.inr (.inr ⟨token, more, after, rfl, found, others⟩))

theorem docComment?_skipSpace {fuel : Nat} {cs : List Char} (slashFree : '/' ∉ cs) :
    docComment? (skipSpace fuel cs) = none := by
  obtain ⟨blanks, split, -⟩ := skipSpace_of_slashFree fuel slashFree
  exact docComment?_of_slashFree fun inside =>
    slashFree (split ▸ List.mem_append_right blanks inside)

theorem blank_of_tokens?_nil {fuel : Nat} {cs : List Char} (slashFree : '/' ∉ cs)
    (h : tokens? fuel cs = some ([], [])) : ∀ c ∈ cs, isSpace c = true := by
  cases fuel with
  | zero => cases h
  | succ fuel =>
    obtain ⟨blanks, split, blank⟩ := skipSpace_of_slashFree (cs.length + 1) slashFree
    obtain ⟨-, same⟩ | ⟨_, _, _, -, comment⟩ | ⟨_, _, _, other⟩ | ⟨_, _, _, other, -⟩ :=
      tokens?_cases h
    · rw [← same, List.append_nil] at split
      exact split ▸ blank
    · exact absurd (docComment?_skipSpace slashFree) comment
    · cases other
    · cases other

/-- A word that is the only token comes from the text behind blanks and comments. -/
theorem leaf?_of_tokens?_word {fuel : Nat} {cs rest : List Char} {word : String}
    (h : tokens? (fuel + 1) cs = some ([.word word], rest)) :
    ∃ after, leaf? (skipSpace (cs.length + 1) cs) = some (.word word, after) ∧
      tokens? fuel after = some ([], rest) := by
  obtain ⟨other, -⟩ | ⟨_, _, _, other, -⟩ | ⟨_, _, _, other⟩ | ⟨_, _, after, same, first, others⟩ :=
    tokens?_cases h
  · cases other
  · cases other
  · cases other
  · cases same
    exact ⟨after, first, others⟩

theorem isLegal_of_tokens?_word {fuel : Nat} {cs rest : List Char} {word : String}
    (h : tokens? fuel cs = some ([.word word], rest)) : Naming.isLegal word = true := by
  cases fuel with
  | zero => cases h
  | succ fuel =>
    obtain ⟨after, first, -⟩ := leaf?_of_tokens?_word h
    exact (leaf?_eq_word first).2

theorem surrounds_of_tokens? {fuel : Nat} {cs : List Char} {word : String}
    (slashFree : '/' ∉ cs) (h : tokens? fuel cs = some ([.word word], [])) :
    Surrounds cs word := by
  cases fuel with
  | zero => cases h
  | succ fuel =>
    obtain ⟨blanks, split, blank⟩ := skipSpace_of_slashFree (cs.length + 1) slashFree
    obtain ⟨after, first, rest⟩ := leaf?_of_tokens?_word h
    rw [(leaf?_eq_word first).1] at split
    have slashFree : '/' ∉ after := fun inside =>
      slashFree (split ▸ List.mem_append_right _ (List.mem_append_right _ inside))
    refine ⟨blanks, after, ?_, blank, blank_of_tokens?_nil slashFree rest⟩
    rw [List.append_assoc]
    exact split

end Slotwise.Code.Lexer

namespace Slotwise.Code

theorem Reader.identifier_eq_some {tokens rest : List Token} {name : String}
    (h : Reader.identifier tokens = some (name, rest)) :
    tokens = .word name :: rest ∧ name ∉ Reader.keywords := by
  have step : Reader.identifier tokens =
      (if Reader.startsIdentifier tokens then Reader.anyWord else failure) tokens := rfl
  rw [step] at h
  split at h
  · next starts =>
    cases tokens with
    | nil => cases starts
    | cons token others =>
      cases token with
      | word text =>
        have read : Reader.anyWord (.word text :: others) = some (text, others) := rfl
        rw [read] at h
        cases h
        exact ⟨rfl, by simpa [Reader.startsIdentifier] using starts⟩
      | mark _ _ | lifetime _ | literal _ | group _ _ => cases starts
  · cases h

theorem tokens_of_readIdentifier {tokens : List Token} {name : String}
    (h : readAll? (fun _ => Reader.identifier) tokens = some name) :
    tokens = [.word name] ∧ name ∉ Reader.keywords := by
  unfold readAll? at h
  split at h
  · next read =>
    cases h
    exact Reader.identifier_eq_some read
  · cases h

theorem Lexer.tokens?_of_tokenize? {text : String} {tokens : List Token}
    (h : tokenize? text = some tokens) :
    ∃ fuel, tokens? fuel (withoutByteOrderMark text.toList) = some (tokens, []) := by
  unfold tokenize? at h
  simp only at h
  split at h
  · next found =>
    cases h
    exact ⟨_, found⟩
  · cases h

theorem Lexer.mem_of_mem_withoutByteOrderMark {cs : List Char} {c : Char}
    (h : c ∈ withoutByteOrderMark cs) : c ∈ cs := by
  unfold withoutByteOrderMark at h
  split at h
  · exact List.mem_cons_of_mem _ h
  · exact h

theorem Lexer.mem_withoutByteOrderMark {cs : List Char} {c : Char} (h : c ∈ cs)
    (other : c ≠ '\ufeff') : c ∈ withoutByteOrderMark cs := by
  unfold withoutByteOrderMark
  split
  · obtain rfl | later := List.mem_cons.1 h
    · exact absurd rfl other
    · exact later
  · exact h

/-- What reads as an identifier is one, and no keyword. -/
theorem Node.isLegal_of_identifier? {text name : String} (h : Node.identifier? text = some name) :
    Naming.isLegal name = true ∧ name ∉ Reader.keywords := by
  obtain ⟨tokens, found, h⟩ := Option.bind_eq_some_iff.1 h
  obtain ⟨rfl, notKeyword⟩ := tokens_of_readIdentifier h
  obtain ⟨fuel, found⟩ := Lexer.tokens?_of_tokenize? found
  exact ⟨Lexer.isLegal_of_tokens?_word found, notKeyword⟩

/-- A text without a slash that reads as an identifier consists of it and of blanks around it. -/
theorem Node.surrounds_of_identifier? {text name : String} (slashFree : '/' ∉ text.toList)
    (h : Node.identifier? text = some name) :
    Lexer.Surrounds (Lexer.withoutByteOrderMark text.toList) name := by
  obtain ⟨tokens, found, h⟩ := Option.bind_eq_some_iff.1 h
  obtain ⟨rfl, -⟩ := tokens_of_readIdentifier h
  obtain ⟨fuel, found⟩ := Lexer.tokens?_of_tokenize? found
  have slashFree : '/' ∉ Lexer.withoutByteOrderMark text.toList := fun inside =>
    slashFree (Lexer.mem_of_mem_withoutByteOrderMark inside)
  exact Lexer.surrounds_of_tokens? slashFree found

/-- A colon in a text that reads as an identifier can only stand in a comment. -/
theorem Node.colonFree_of_identifier? {text name : String} (h : Node.identifier? text = some name) :
    '/' ∈ text.toList ∨ ':' ∉ text.toList := by
  by_cases slash : '/' ∈ text.toList
  · exact .inl slash
  refine .inr fun colon => ?_
  obtain ⟨before, after, split, blankBefore, blankAfter⟩ := surrounds_of_identifier? slash h
  have legal := (isLegal_of_identifier? h).1
  have member := Lexer.mem_withoutByteOrderMark colon (by decide)
  rw [split, List.mem_append, List.mem_append] at member
  obtain (member | member) | member := member
  · exact absurd (blankBefore _ member) (by decide)
  · exact Naming.not_mem_of_isLegal legal (by decide) member
  · exact absurd (blankAfter _ member) (by decide)

theorem Lexer.isSpace_of_continues {c : Char}
    (h : Text.isXidContinue c = true ∨ c = '#') : isSpace c = false := by
  obtain continues | rfl := h
  · have notBlank := Text.not_isBlank_of_isXidContinue continues
    have notMark : c ≠ '\u200e' ∧ c ≠ '\u200f' := by
      constructor <;> rintro rfl <;>
        exact absurd continues (by rw [Text.isXidContinue_eq_false (by decide)]; exact Bool.false_ne_true)
    simp [isSpace, notBlank, notMark]
  · decide

/-- A text of letters alone is the identifier that it reads as. -/
theorem Node.eq_of_identifier? {text name : String} (h : Node.identifier? text = some name)
    (solid : ∀ c ∈ text.toList, Text.isXidContinue c = true ∨ c = '#') : text = name := by
  have absent {c : Char} (other : Text.isXidContinue c = false ∧ c ≠ '#') : c ∉ text.toList := by
    intro member
    obtain continues | mark := solid c member
    · exact absurd continues (by simp [other.1])
    · exact other.2 mark
  have unmarked : Lexer.withoutByteOrderMark text.toList = text.toList := by
    unfold Lexer.withoutByteOrderMark
    split
    · next marked =>
      exact absurd (by rw [marked]; simp)
        (absent (c := '\ufeff') ⟨Text.isXidContinue_eq_false (by decide), by decide⟩)
    · rfl
  obtain ⟨before, after, split, blankBefore, blankAfter⟩ :=
    surrounds_of_identifier? (absent (by decide)) h
  rw [unmarked] at split
  have empty {cs : List Char} (inside : ∀ c ∈ cs, c ∈ text.toList)
      (blank : ∀ c ∈ cs, Lexer.isSpace c = true) : cs = [] := by
    rw [List.eq_nil_iff_forall_not_mem]
    intro c member
    have solidHere := Lexer.isSpace_of_continues (solid c (inside c member))
    rw [blank c member] at solidHere
    cases solidHere
  have noneBefore : before = [] :=
    empty (fun c member => by rw [split]; simp [member]) blankBefore
  have noneAfter : after = [] :=
    empty (fun c member => by rw [split]; simp [member]) blankAfter
  rw [noneBefore, noneAfter, List.nil_append, List.append_nil] at split
  exact String.toList_inj.1 split

/-- A text that reads as an identifier and can be continued is that identifier. -/
theorem Node.isLegal_append_iff {text name suffix : String}
    (h : Node.identifier? text = some name)
    (continues : ∀ c ∈ suffix.toList, Text.isXidContinue c = true)
    (long : ∀ word ∈ Naming.unrawWords, word.toList.length < suffix.toList.length) :
    Naming.isLegal (text ++ suffix) = true ↔ Naming.isLegal text = true := by
  constructor
  · intro legal
    have same : text = name := by
      refine eq_of_identifier? h fun c member => Naming.isXidContinue_of_isLegal legal ?_
      rw [String.toList_append]
      exact List.mem_append_left _ member
    rw [same]
    exact (isLegal_of_identifier? h).1
  · exact fun legal => Naming.isLegal_append legal continues long

end Slotwise.Code
