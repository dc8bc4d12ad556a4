import Mathlib.Data.Bool.AllAny
import Slotwise.Proofs.Spelling
/-!
# What stands between tokens

Blanks and plain comments separate tokens and mean nothing (`Lexer.Skips`). The reader passes over
them as far as they go (`Lexer.skipSpace_eq_iff`), and what it finds behind them does not depend on
them.
-/

namespace Slotwise.Code

theorem Bracket.ofOpening?_eq_some_iff {c : Char} {bracket : Bracket} :
    ofOpening? c = some bracket ↔ c = bracket.opening := by
  constructor
  · intro h
    unfold ofOpening? at h
    exact (beq_iff_eq.1 (List.find?_some h :)).symm
  · rintro rfl
    cases bracket <;> rfl

namespace Lexer

/-- Blanks and plain comments lead from one place of a text to a later one. -/
inductive Skips : List Char → List Char → Prop
  /-- Nothing is skipped. -/
  | none (cs : List Char) : Skips cs cs
  /-- A blank, and more. -/
  | blank {c : Char} {rest after : List Char} (space : isSpace c = true)
      (more : Skips rest after) : Skips (c :: rest) after
  /-- A plain comment, and more. -/
  | comment {cs rest after : List Char} (found : afterComment? cs = some rest)
      (more : Skips rest after) : Skips cs after

/-- Neither a blank nor a plain comment comes next. -/
def Solid (cs : List Char) : Prop :=
  afterComment? cs = none ∧ ∀ c ∈ cs.head?, isSpace c = false

/-! ## Comments take characters along -/

theorem restOfLine_suffix (cs : List Char) : (restOfLine cs).2 <:+ cs := by
  fun_induction restOfLine cs with
  | case1 => exact List.suffix_refl _
  | case2 rest => exact List.suffix_refl _
  | case3 rest => exact List.suffix_cons _ _
  | case4 c rest _ _ ih => exact ih.trans (List.suffix_cons _ _)

theorem suffix_of_blockBody? {depth : Nat} {cs body rest : List Char}
    (h : blockBody? depth cs = some (body, rest)) : rest <:+ cs := by
  fun_induction blockBody? depth cs generalizing body with
  | case1 depth after ih =>
    obtain ⟨⟨inner, _⟩, found, same⟩ := Option.bind_eq_some_iff.1 h
    cases same
    exact (ih found).trans (List.suffix_append [_, _] _)
  | case2 after =>
    cases h
    exact List.suffix_append [_, _] _
  | case3 depth after ih =>
    obtain ⟨⟨inner, _⟩, found, same⟩ := Option.bind_eq_some_iff.1 h
    cases same
    exact (ih found).trans (List.suffix_append [_, _] _)
  | case4 depth c after _ _ ih =>
    obtain ⟨⟨inner, _⟩, found, same⟩ := Option.bind_eq_some_iff.1 h
    cases same
    exact (ih found).trans (List.suffix_cons _ _)
  | case5 => cases h

theorem suffix_of_blockComment? {rest body after : List Char}
    (h : blockComment? ('/' :: '*' :: rest) = some (body, after)) : after <:+ rest := by
  obtain ⟨inner, opened, h⟩ := Option.bind_eq_some_iff.1 h
  have start : Literal.after? "/*" ('/' :: '*' :: rest) = some rest := rfl
  rw [start] at opened
  cases opened
  exact suffix_of_blockBody? h

/-- A comment takes at least its opening along. -/
theorem suffix_of_afterComment? {cs after : List Char} (h : afterComment? cs = some after) :
    ∃ c rest, cs = c :: rest ∧ after <:+ rest := by
  unfold afterComment? at h
  split at h
  · next rest =>
    refine ⟨'/', '/' :: rest, rfl, ?_⟩
    have line : (restOfLine ('/' :: '/' :: rest)).2 <:+ '/' :: rest :=
      restOfLine_suffix ('/' :: rest)
    split at h
    · cases h
      exact line
    · cases h
    · cases h
    · cases h
      exact line
  · next rest =>
    refine ⟨'/', '*' :: rest, rfl, List.IsSuffix.trans ?_ (List.suffix_cons _ _)⟩
    have block (h : (blockComment? ('/' :: '*' :: rest)).map (·.2) = some after) :
        after <:+ rest := by
      obtain ⟨⟨body, _⟩, found, same⟩ := Option.map_eq_some_iff.1 h
      cases same
      exact suffix_of_blockComment? found
    split at h
    · cases h
      exact List.suffix_append [_, _] _
    · exact block h
    · cases h
    · cases h
    · exact block h
  · cases h

/-! ## As far as it goes -/

theorem afterComment?_of_isSpace {c : Char} (space : isSpace c = true) (rest : List Char) :
    afterComment? (c :: rest) = none := by
  unfold afterComment?
  split
  · next same =>
    cases same
    cases space
  · next same =>
    cases same
    cases space
  · rfl

theorem Skips.suffix {cs after : List Char} (skips : Skips cs after) : after <:+ cs := by
  induction skips with
  | none cs => exact List.suffix_refl cs
  | blank _ _ ih => exact ih.trans (List.suffix_cons _ _)
  | comment found _ ih =>
    obtain ⟨c, rest, rfl, shorter⟩ := suffix_of_afterComment? found
    exact ih.trans (shorter.trans (List.suffix_cons _ _))

theorem skips_skipSpace (fuel : Nat) (cs : List Char) : Skips cs (skipSpace fuel cs) := by
  induction fuel generalizing cs with
  | zero => exact .none cs
  | succ fuel ih =>
    unfold skipSpace
    split
    · next found => exact .comment found (ih _)
    · split
      · exact .none []
      · split
        · next space => exact .blank space (ih _)
        · exact .none _

/-- With enough fuel the reader ends at a place where nothing can be skipped. -/
theorem solid_skipSpace {fuel : Nat} {cs : List Char} (enough : cs.length < fuel) :
    Solid (skipSpace fuel cs) := by
  induction fuel generalizing cs with
  | zero => cases enough
  | succ fuel ih =>
    unfold skipSpace
    split
    · next found =>
      obtain ⟨c, rest, rfl, shorter⟩ := suffix_of_afterComment? found
      have less := shorter.length_le
      rw [List.length_cons] at enough
      exact ih (by omega)
    · next none =>
      split
      · exact ⟨rfl, fun c impossible => (by cases impossible)⟩
      · next c rest =>
        split
        · rw [List.length_cons] at enough
          exact ih (by omega)
        · next solid =>
          refine ⟨none, fun d member => ?_⟩
          cases member
          simpa using solid

theorem skipSpace_of_solid {cs : List Char} (solid : Solid cs) (fuel : Nat) :
    skipSpace fuel cs = cs := by
  cases fuel with
  | zero => rfl
  | succ fuel =>
    cases cs with
    | nil => rfl
    | cons c rest => simp [skipSpace, solid.1, solid.2 c rfl]

/-- The reader passes over whatever leads to a solid place. -/
theorem skipSpace_of_skips {fuel : Nat} {cs after : List Char} (skips : Skips cs after)
    (solid : Solid after) (enough : cs.length < fuel) : skipSpace fuel cs = after := by
  induction skips generalizing fuel with
  | none cs => exact skipSpace_of_solid solid fuel
  | @blank c rest after space more ih =>
    cases fuel with
    | zero => cases enough
    | succ fuel =>
      rw [List.length_cons] at enough
      simp only [skipSpace, afterComment?_of_isSpace space, space, if_true]
      exact ih solid (by omega)
  | @comment cs rest after found more ih =>
    cases fuel with
    | zero => cases enough
    | succ fuel =>
      obtain ⟨c, behind, rfl, shorter⟩ := suffix_of_afterComment? found
      have less := shorter.length_le
      rw [List.length_cons] at enough
      simp only [skipSpace, found]
      exact ih solid (by omega)

/-- Where the reader ends is the solid place that blanks and plain comments lead to. -/
theorem skipSpace_eq_iff {fuel : Nat} {cs after : List Char} (enough : cs.length < fuel) :
    skipSpace fuel cs = after ↔ Skips cs after ∧ Solid after := by
  constructor
  · rintro rfl
    exact ⟨skips_skipSpace fuel cs, solid_skipSpace enough⟩
  · rintro ⟨skips, solid⟩
    exact skipSpace_of_skips skips solid enough

/-! ## Places with something to read -/

theorem solid_cons {c : Char} {tail : List Char} (space : isSpace c = false)
    (slash : c = '/' → ∀ d ∈ tail.head?, d ≠ '/' ∧ d ≠ '*') :
    Solid (c :: tail) ∧ docComment? (c :: tail) = none := by
  have none {d : Char} {more : List Char} (same : c :: tail = '/' :: d :: more)
      (opens : d = '/' ∨ d = '*') : False := by
    obtain ⟨isSlash, rfl⟩ := List.cons.inj same
    obtain ⟨notSlash, notStar⟩ := slash isSlash d rfl
    exact opens.elim notSlash notStar
  refine ⟨⟨?_, ?_⟩, ?_⟩
  · unfold afterComment?
    split
    · next same => exact (none same (.inl rfl)).elim
    · next same => exact (none same (.inr rfl)).elim
    · rfl
  · intro d member
    cases member
    exact space
  · unfold docComment?
    split
    · next same => exact (none same (.inl rfl)).elim
    · next same => exact (none same (.inr rfl)).elim
    · next same => exact (none same (.inl rfl)).elim
    · next same => exact (none same (.inr rfl)).elim
    · rfl

theorem isSpace_of_mem_markChars {c : Char} (member : c ∈ markChars) : isSpace c = false := by
  have all : ∀ c ∈ markChars, isSpace c = false := List.all_iff_forall_prop.1 (by decide)
  exact all c member

/-- A punctuation mark at the front of the text. -/
theorem exists_of_startsWithMark {cs : List Char} (h : startsWithMark cs = true) :
    ∃ c tail, cs = c :: tail ∧ c ∈ markChars ∧ (c = '/' → ∀ d ∈ tail.head?, d ≠ '/' ∧ d ≠ '*') := by
  unfold startsWithMark at h
  split at h
  · cases h
  · cases h
  · next c tail noLine noBlock =>
    refine ⟨c, tail, rfl, by simpa using h, ?_⟩
    rintro rfl d member
    cases tail with
    | nil => cases member
    | cons e tail =>
      cases member
      constructor
      · rintro rfl
        exact noLine tail rfl rfl
      · rintro rfl
        exact noBlock tail rfl rfl
  · cases h

/-! ## Reading behind gaps -/

/-- One round of reading behind blanks and comments where no documentation comes next: the end or a
closing bracket, a group, or a token without brackets. -/
theorem tokens?_succ_iff {fuel : Nat} {cs front rest : List Char} {tokens : List Token}
    (ends : skipSpace (cs.length + 1) cs = front) (plain : docComment? front = none) :
    tokens? (fuel + 1) cs = some (tokens, rest) ↔
      (tokens = [] ∧ rest = front ∧ ∀ c ∈ front.head?, c ∈ [')', ']', '\x7d']) ∨
      (∃ bracket inside body after more, front = bracket.opening :: inside ∧
        tokens? fuel inside = some (body, bracket.closing :: after) ∧
        tokens? fuel after = some (more, rest) ∧ tokens = .group bracket body :: more) ∨
      ∃ token after more, leaf? front = some (token, after) ∧
        (∀ c ∈ front.head?, c ∉ [')', ']', '\x7d'] ∧ Bracket.ofOpening? c = none) ∧
        tokens? fuel after = some (more, rest) ∧ tokens = token :: more := by
  rw [tokens?, ends]
  simp only [plain]
  constructor
  · intro h
    split at h
    · cases h
      exact .inl ⟨rfl, rfl, fun c impossible => (by cases impossible)⟩
    · next c tail =>
      split at h
      · next closes =>
        cases h
        refine .inl ⟨rfl, rfl, fun d member => ?_⟩
        cases member
        exact List.contains_iff_mem.1 closes
      · next open_ =>
        split at h
        · next bracket opens =>
          obtain ⟨⟨body, behind⟩, within, h⟩ := Option.bind_eq_some_iff.1 h
          simp only at h
          split at h
          · split at h
            · next same =>
              obtain ⟨⟨more, _⟩, others, h⟩ := Option.bind_eq_some_iff.1 h
              cases h
              rw [same] at within
              refine .inr (.inl ⟨bracket, tail, body, _, more, ?_, within, others, rfl⟩)
              rw [Bracket.ofOpening?_eq_some_iff.1 opens]
            · cases h
          · cases h
        · next leafs =>
          obtain ⟨⟨token, after⟩, first, h⟩ := Option.bind_eq_some_iff.1 h
          obtain ⟨⟨more, _⟩, others, h⟩ := Option.bind_eq_some_iff.1 h
          cases h
          refine .inr (.inr ⟨token, after, more, first, fun d member => ?_, others, rfl⟩)
          cases member
          exact ⟨fun inside => open_ (List.contains_iff_mem.2 inside), leafs⟩
  · rintro (⟨rfl, rfl, closes⟩ | ⟨bracket, inside, body, after, more, rfl, within, others, rfl⟩ |
      ⟨token, after, more, first, outside, others, rfl⟩)
    · cases rest with
      | nil => rfl
      | cons c tail => exact if_pos (List.contains_iff_mem.2 (closes c rfl))
    · have opens : Bracket.ofOpening? bracket.opening = some bracket :=
        Bracket.ofOpening?_eq_some_iff.2 rfl
      have notClosing : [')', ']', '\x7d'].contains bracket.opening = false := by
        cases bracket <;> rfl
      simp only [notClosing, opens, Bool.false_eq_true, if_false]
      refine Option.bind_eq_some_iff.2 ⟨_, within, ?_⟩
      simp only [if_true]
      exact Option.bind_eq_some_iff.2 ⟨_, others, rfl⟩
    · cases front with
      | nil => cases first
      | cons c tail =>
        obtain ⟨notClosing, leafs⟩ := outside c rfl
        have notClosing : [')', ']', '\x7d'].contains c = false := by simpa using notClosing
        simp only [notClosing, leafs, first, Bool.false_eq_true, if_false]
        exact Option.bind_eq_some_iff.2 ⟨_, rfl, Option.bind_eq_some_iff.2 ⟨_, others, rfl⟩⟩

theorem tokens?_of_skips_nil {fuel : Nat} {cs : List Char} (skips : Skips cs []) :
    tokens? (fuel + 1) cs = some ([], []) := by
  have solid : Solid [] := ⟨rfl, fun c impossible => (by cases impossible)⟩
  have front := skipSpace_of_skips skips solid (Nat.lt_succ_self _)
  exact (tokens?_succ_iff front rfl).2 (.inl ⟨rfl, rfl, fun c impossible => (by cases impossible)⟩)

/-- A text without tokens consists of blanks and plain comments. -/
theorem skips_of_tokens?_nil {fuel : Nat} {cs : List Char} (h : tokens? fuel cs = some ([], [])) :
    Skips cs [] := by
  cases fuel with
  | zero => cases h
  | succ fuel =>
    obtain ⟨-, same⟩ | ⟨inner, content, more, other, -⟩ | ⟨_, _, _, other⟩ | ⟨_, _, _, other, -⟩ :=
      tokens?_cases h
    · rw [same]
      exact skips_skipSpace _ cs
    · cases other
    · cases other
    · cases other

end Lexer

end Slotwise.Code
