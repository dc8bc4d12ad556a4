import Slotwise.Proofs.Gaps
/-!
# Texts written without comments

A text without comments consists of its tokens, of blanks between them and of marks that cannot be
seen: marks of direction between tokens, a byte order mark in front (`Lexer.Spells`). Its tokens are
those that the reader finds (`Lexer.tokenize?_of_spells`), and a text that the reader accepts and in
which no comment starts is of this kind (`Lexer.exists_spells_of_tokenize?`).
-/

namespace Slotwise

namespace Code

/-! ## Texts of tokens -/

namespace Token

mutual

/-- The texts of a token as they are written, brackets as texts of their own. -/
def texts : Token → List String
  | word text | lifetime text | literal text => [text]
  | mark c _ => [String.singleton c]
  | group bracket body =>
    String.singleton bracket.opening :: (textsAll body ++ [String.singleton bracket.closing])

/-- The texts of a sequence of tokens. -/
def textsAll : List Token → List String
  | [] => []
  | token :: rest => texts token ++ textsAll rest

end

end Token

namespace Lexer

open Literal Token

/-! ## One token at the front of a text -/

/-- A token without brackets is written as its text, which takes at least one character along and
starts neither with a blank or mark nor with a comment. -/
theorem cases_of_leaf? {cs after : List Char} {token : Token} (h : leaf? cs = some (token, after)) :
    ∃ text, token.texts = [text] ∧ cs = text.toList ++ after ∧ after.length < cs.length ∧
      '\ufeff' ∉ cs.head? ∧ Solid cs ∧ docComment? cs = none := by
  unfold leaf? at h
  split at h
  · next rest found =>
    obtain ⟨c, tail, rfl, first, shorter⟩ := exists_first_of_afterLiteral? found
    cases h
    obtain ⟨space, noSlash, noMark⟩ : isSpace c = false ∧ c ≠ '/' ∧ c ≠ '\ufeff' := by
      obtain among | digit := first
      · have all : ∀ c ∈ ['"', '\'', 'b', 'c', 'r'],
            isSpace c = false ∧ c ≠ '/' ∧ c ≠ '\ufeff' :=
          List.all_iff_forall_prop.1 (by decide)
        exact all c among
      · refine ⟨isSpace_of_continues (.inl (Text.isXidContinue_of_isDigit digit)), ?_, ?_⟩ <;>
          rintro rfl <;> cases digit
    refine ⟨_, rfl, (consumed_append (shorter.trans (List.suffix_cons _ _))).symm,
      Nat.lt_succ_of_le shorter.length_le, fun first => noMark (Option.some.inj first),
      solid_cons space fun slash => (noSlash slash).elim⟩
  · split at h
    · next mark =>
      obtain ⟨c, tail, same, isMark, slash⟩ := exists_of_startsWithMark mark
      have solid := same ▸ solid_cons (isSpace_of_mem_markChars isMark) slash
      have noMark : '\ufeff' ∉ cs.head? := by
        rw [same]
        intro first
        cases first
        exact absurd isMark (by decide)
      split at h
      · next rest =>
        obtain ⟨⟨name, behind⟩, found, h⟩ := Option.bind_eq_some_iff.1 h
        simp only at h
        split at h
        · cases h
        · split at h
          · cases h
          · cases h
            obtain ⟨split, -⟩ := identifier?_eq_some found
            refine ⟨_, rfl, ?_, ?_, noMark, solid⟩
            · rw [String.toList_append, split]
              rfl
            · rw [split, List.length_cons, List.length_append]
              omega
      · cases h
        refine ⟨_, rfl, ?_, ?_, noMark, solid⟩
        · rw [String.toList_singleton]
          rfl
        · rw [List.length_cons]
          omega
      · cases h
    · split at h
      · cases h
      · obtain ⟨⟨name, behind⟩, found, h⟩ := Option.bind_eq_some_iff.1 h
        cases h
        obtain ⟨split, legal⟩ := identifier?_eq_some found
        obtain ⟨c, tail, shape, starts⟩ : ∃ c tail, name.toList = c :: tail ∧
            Text.startsIdentifier c = true := Naming.exists_first_of_isLegal legal
        have continues := Text.isXidContinue_of_startsIdentifier starts
        refine ⟨name, rfl, split, ?_, ?_, ?_⟩
        · rw [split, shape, List.length_append, List.length_cons]
          omega
        · rw [split, shape]
          intro first
          cases first
          exact absurd starts (by decide +kernel)
        · rw [split, shape, List.cons_append]
          refine solid_cons (isSpace_of_continues (.inl continues)) ?_
          rintro rfl
          cases starts

/-! ## Tokens with blanks and marks between them -/

/-- The marks of direction among what stands between two tokens, as texts of their own. -/
def marksOf (gap : List Char) : List String :=
  (gap.filter fun c => !Text.isBlank c).map String.singleton

/-- The text consists of these tokens and of blanks and marks of direction before each and behind
the last one, up to `rest`, where a bracket closes or the text ends. The pieces are the texts of the
tokens and the marks, in their order. -/
inductive Written : List Char → List String → List Token → List Char → Prop
  /-- No more tokens. -/
  | done {gap front : List Char} (space : ∀ c ∈ gap, isSpace c = true)
      (closes : ∀ c ∈ front.head?, c ∈ [')', ']', '\x7d']) :
      Written (gap ++ front) (marksOf gap) [] front
  /-- A group, and more. -/
  | group {gap inside after rest : List Char} {bracket : Bracket} {within others : List String}
      {body more : List Token} (space : ∀ c ∈ gap, isSpace c = true)
      (writtenWithin : Written inside within body (bracket.closing :: after))
      (writtenOthers : Written after others more rest) :
      Written (gap ++ bracket.opening :: inside)
        (marksOf gap ++ String.singleton bracket.opening ::
          (within ++ String.singleton bracket.closing :: others))
        (.group bracket body :: more) rest
  /-- A token without brackets, and more. -/
  | leaf {gap front after rest : List Char} {token : Token} {others : List String}
      {more : List Token} (space : ∀ c ∈ gap, isSpace c = true)
      (first : leaf? front = some (token, after))
      (outside : ∀ c ∈ front.head?, c ∉ [')', ']', '\x7d'] ∧ Bracket.ofOpening? c = none)
      (writtenOthers : Written after others more rest) :
      Written (gap ++ front) (marksOf gap ++ (token.texts ++ others)) (token :: more) rest

theorem Written.suffix {cs rest : List Char} {pieces : List String} {tokens : List Token}
    (written : Written cs pieces tokens rest) : rest <:+ cs := by
  induction written with
  | done => exact List.suffix_append _ _
  | @group gap inside after rest bracket _ _ _ _ _ _ _ ihWithin ihOthers =>
    have behind : after <:+ bracket.opening :: inside :=
      ((List.suffix_cons _ _).trans ihWithin).trans (List.suffix_cons _ _)
    exact (ihOthers.trans behind).trans (List.suffix_append _ _)
  | leaf _ first _ _ ih =>
    obtain ⟨text, -, rfl, -⟩ := cases_of_leaf? first
    exact (ih.trans (List.suffix_append _ _)).trans (List.suffix_append _ _)

theorem skips_of_isSpace {gap front : List Char} (space : ∀ c ∈ gap, isSpace c = true) :
    Skips (gap ++ front) front := by
  induction gap with
  | nil => exact .none front
  | cons c gap ih =>
    obtain ⟨first, others⟩ := List.forall_mem_cons.1 space
    exact .blank first (ih others)

/-- The reader finds these tokens. -/
theorem Written.tokens?_eq {cs rest : List Char} {pieces : List String} {tokens : List Token}
    (written : Written cs pieces tokens rest) {fuel : Nat} (enough : cs.length < fuel) :
    tokens? fuel cs = some (tokens, rest) := by
  have front {gap front : List Char} (space : ∀ c ∈ gap, isSpace c = true)
      (solid : Solid front) : skipSpace ((gap ++ front).length + 1) (gap ++ front) = front :=
    skipSpace_of_skips (skips_of_isSpace space) solid (Nat.lt_succ_self _)
  induction written generalizing fuel with
  | @done gap cs space closes =>
    obtain ⟨fuel, rfl⟩ := Nat.exists_eq_succ_of_ne_zero (Nat.ne_of_gt (Nat.zero_lt_of_lt enough))
    obtain ⟨solid, plain⟩ : Solid cs ∧ docComment? cs = none := by
      cases cs with
      | nil => exact ⟨⟨rfl, fun c impossible => (by cases impossible)⟩, rfl⟩
      | cons c tail =>
        have all : ∀ c ∈ [')', ']', '\x7d'], isSpace c = false ∧ c ≠ '/' :=
          List.all_iff_forall_prop.1 (by decide)
        obtain ⟨visible, notSlash⟩ := all c (closes c rfl)
        exact solid_cons visible fun slash => (notSlash slash).elim
    exact (tokens?_succ_iff (front space solid) plain).2 (.inl ⟨rfl, rfl, closes⟩)
  | @group gap inside after rest bracket _ _ body more space within others ihWithin ihOthers =>
    obtain ⟨fuel, rfl⟩ := Nat.exists_eq_succ_of_ne_zero (Nat.ne_of_gt (Nat.zero_lt_of_lt enough))
    have solid : Solid (bracket.opening :: inside) ∧
        docComment? (bracket.opening :: inside) = none := by
      apply solid_cons
      · cases bracket <;> rfl
      · cases bracket <;> exact fun impossible => absurd impossible (by decide)
    have shorter := within.suffix.length_le
    rw [List.length_append, List.length_cons] at enough
    rw [List.length_cons] at shorter
    exact (tokens?_succ_iff (front space solid.1) solid.2).2 (.inr (.inl
      ⟨bracket, inside, body, after, more, rfl, ihWithin (by omega), ihOthers (by omega), rfl⟩))
  | @leaf gap cs after rest token _ more space first outside others ih =>
    obtain ⟨fuel, rfl⟩ := Nat.exists_eq_succ_of_ne_zero (Nat.ne_of_gt (Nat.zero_lt_of_lt enough))
    obtain ⟨text, -, -, shorter, -, solid, plain⟩ := cases_of_leaf? first
    rw [List.length_append] at enough
    exact (tokens?_succ_iff (front space solid) plain).2 (.inr (.inr
      ⟨token, after, more, first, outside, ih (by omega), rfl⟩))

/-! ## Pieces that can be seen -/

/-- The marks that stand between tokens or in front of a text and are no blanks. -/
def unseen : List String :=
  ["\u200e", "\u200f", "\ufeff"]

theorem filter_marksOf {gap : List Char} (space : ∀ c ∈ gap, isSpace c = true) :
    (marksOf gap).filter (fun piece => decide (piece ∉ unseen)) = [] := by
  rw [List.filter_eq_nil_iff]
  intro piece member
  obtain ⟨c, among, rfl⟩ := List.mem_map.1 member
  obtain ⟨inGap, visible⟩ := List.mem_filter.1 among
  have mark := space c inGap
  simp only [isSpace, Bool.or_eq_true, beq_iff_eq] at mark
  obtain (blank | rfl) | rfl := mark
  · rw [blank] at visible
    cases visible
  · decide
  · decide

theorem not_mem_unseen_of_leaf? {cs after : List Char} {token : Token} {text : String}
    (h : leaf? cs = some (token, after)) (texts : token.texts = [text]) : text ∉ unseen := by
  obtain ⟨_, same, split, -, noMark, ⟨-, space⟩, -⟩ := cases_of_leaf? h
  obtain rfl : text = _ := List.singleton_inj.1 (texts.symm.trans same)
  intro member
  simp only [unseen, List.mem_cons, List.not_mem_nil, or_false] at member
  obtain rfl | rfl | rfl := member
  · have mark := space '\u200e' (by rw [split]; rfl)
    exact absurd mark (by decide)
  · have mark := space '\u200f' (by rw [split]; rfl)
    exact absurd mark (by decide)
  · exact noMark (by rw [split]; rfl)

/-- The pieces that can be seen are the texts of the tokens. -/
theorem Written.filter_eq {cs rest : List Char} {pieces : List String} {tokens : List Token}
    (written : Written cs pieces tokens rest) :
    pieces.filter (fun piece => decide (piece ∉ unseen)) = textsAll tokens := by
  induction written with
  | done space _ => exact filter_marksOf space
  | @group _ _ _ _ bracket _ _ _ _ space _ _ ihWithin ihOthers =>
    have seen : String.singleton bracket.opening ∉ unseen ∧
        String.singleton bracket.closing ∉ unseen := by
      cases bracket <;> decide
    rw [List.filter_append, filter_marksOf space, List.filter_cons_of_pos (by simp [seen]),
      List.filter_append, ihWithin, List.filter_cons_of_pos (by simp [seen]), ihOthers]
    simp [textsAll, texts]
  | leaf space first _ _ ih =>
    obtain ⟨text, texts, -⟩ := cases_of_leaf? first
    have seen := not_mem_unseen_of_leaf? first texts
    rw [List.filter_append, filter_marksOf space, List.filter_append, ih, textsAll, texts,
      List.filter_cons_of_pos (by simp [seen])]
    rfl

/-- Each piece stands in the text. -/
theorem Written.subset {cs rest : List Char} {pieces : List String} {tokens : List Token}
    (written : Written cs pieces tokens rest) : ∀ piece ∈ pieces, piece.toList ⊆ cs := by
  have single {c : Char} {all : List Char} (member : c ∈ all) :
      (String.singleton c).toList ⊆ all := by
    intro d same
    rw [String.toList_singleton, List.mem_singleton] at same
    rwa [same]
  have ofMarks {gap front : List Char} : ∀ piece ∈ marksOf gap, piece.toList ⊆ gap ++ front := by
    intro piece member
    obtain ⟨c, among, rfl⟩ := List.mem_map.1 member
    exact single (List.mem_append_left _ (List.mem_filter.1 among).1)
  induction written with
  | done _ _ => exact ofMarks
  | @group gap inside after rest bracket within others _ _ _ writtenWithin _ ihWithin ihOthers =>
    have behind : bracket.closing :: after ⊆ gap ++ bracket.opening :: inside := fun c member =>
      List.mem_append_right _ (List.mem_cons_of_mem _ (writtenWithin.suffix.subset member))
    intro piece member
    rw [List.mem_append, List.mem_cons, List.mem_append, List.mem_cons] at member
    obtain mark | rfl | inWithin | rfl | inOthers := member
    · exact ofMarks piece mark
    · exact single (List.mem_append_right _ List.mem_cons_self)
    · exact fun c inPiece => List.mem_append_right _
        (List.mem_cons_of_mem _ (ihWithin piece inWithin inPiece))
    · exact single (behind List.mem_cons_self)
    · exact fun c inPiece => behind (List.mem_cons_of_mem _ (ihOthers piece inOthers inPiece))
  | @leaf gap front after _ _ _ _ _ first _ _ ih =>
    obtain ⟨text, texts, split, -⟩ := cases_of_leaf? first
    intro piece member
    rw [texts, List.mem_append, List.mem_append, List.mem_singleton] at member
    obtain mark | rfl | inOthers := member
    · exact ofMarks piece mark
    · rw [split]
      exact fun c inPiece => List.mem_append_right _ (List.mem_append_left _ inPiece)
    · rw [split]
      exact fun c inPiece => List.mem_append_right _
        (List.mem_append_right _ (ih piece inOthers inPiece))

/-! ## Texts in which no comment starts -/

/-- No comment starts anywhere in the text. -/
def CommentFree (cs : List Char) : Prop :=
  ∀ front, front <:+ cs → afterComment? front = none ∧ docComment? front = none

theorem CommentFree.of_suffix {cs after : List Char} (free : CommentFree cs) (h : after <:+ cs) :
    CommentFree after :=
  fun front suffix => free front (suffix.trans h)

theorem commentFree_of_slashFree {cs : List Char} (slashFree : '/' ∉ cs) : CommentFree cs := by
  intro front suffix
  have slashFree : '/' ∉ front := fun inside => slashFree (suffix.subset inside)
  exact ⟨afterComment?_of_slashFree slashFree, docComment?_of_slashFree slashFree⟩

/-- Where no comment starts, nothing but blanks and marks is passed over. -/
theorem Skips.exists_gap {cs after : List Char} (skips : Skips cs after) (free : CommentFree cs) :
    ∃ gap, cs = gap ++ after ∧ ∀ c ∈ gap, isSpace c = true := by
  induction skips with
  | none cs => exact ⟨[], rfl, fun c impossible => (by cases impossible)⟩
  | @blank c _ _ space _ ih =>
    obtain ⟨gap, rfl, spaces⟩ := ih (free.of_suffix (List.suffix_cons _ _))
    exact ⟨c :: gap, rfl, List.forall_mem_cons.2 ⟨space, spaces⟩⟩
  | comment found _ _ =>
    rw [(free _ (List.suffix_refl _)).1] at found
    cases found

theorem exists_written_of_tokens? {fuel : Nat} {cs rest : List Char} {tokens : List Token}
    (free : CommentFree cs) (h : tokens? fuel cs = some (tokens, rest)) :
    ∃ pieces, Written cs pieces tokens rest := by
  induction fuel generalizing cs tokens rest with
  | zero => cases h
  | succ fuel ih =>
    obtain ⟨gap, split, space⟩ := (skips_skipSpace (cs.length + 1) cs).exists_gap free
    have freeFront : CommentFree (skipSpace (cs.length + 1) cs) :=
      free.of_suffix ⟨gap, split.symm⟩
    have plain := (freeFront _ (List.suffix_refl _)).2
    rw [split]
    obtain ⟨rfl, rfl, closes⟩ | ⟨bracket, inside, body, after, more, front, within, others, rfl⟩ |
      ⟨token, after, more, first, outside, others, rfl⟩ := (tokens?_succ_iff rfl plain).1 h
    · exact ⟨_, .done space closes⟩
    · rw [front] at freeFront ⊢
      have freeInside := freeFront.of_suffix (List.suffix_cons _ _)
      obtain ⟨_, written⟩ := ih freeInside within
      obtain ⟨_, writtenOthers⟩ :=
        ih (freeInside.of_suffix ((List.suffix_cons _ _).trans written.suffix)) others
      exact ⟨_, .group space written writtenOthers⟩
    · obtain ⟨text, -, front, -⟩ := cases_of_leaf? first
      obtain ⟨_, written⟩ := ih (freeFront.of_suffix ⟨text.toList, front.symm⟩) others
      exact ⟨_, .leaf space first outside written⟩

/-! ## Whole texts -/

/-- The text consists of blanks and of these pieces, of which the tokens are those that can be
seen. -/
inductive Spells : String → List String → List Token → Prop
  /-- There is no byte order mark. -/
  | plain {text : String} {pieces : List String} {tokens : List Token}
      (unmarked : text.toList.head? ≠ some '\ufeff')
      (written : Written text.toList pieces tokens []) : Spells text pieces tokens
  /-- There is a byte order mark. -/
  | marked {text : String} {cs : List Char} {pieces : List String} {tokens : List Token}
      (mark : text.toList = '\ufeff' :: cs) (written : Written cs pieces tokens []) :
      Spells text ("\ufeff" :: pieces) tokens

theorem withoutByteOrderMark_of_unmarked {cs : List Char} (unmarked : cs.head? ≠ some '\ufeff') :
    withoutByteOrderMark cs = cs := by
  unfold withoutByteOrderMark
  split
  · exact absurd rfl unmarked
  · rfl

/-- The reader finds the tokens of which a text consists. -/
theorem tokenize?_of_spells {text : String} {pieces : List String} {tokens : List Token}
    (spells : Spells text pieces tokens) : tokenize? text = some tokens := by
  obtain ⟨unmarked, written⟩ | ⟨mark, written⟩ := spells
  · have found := written.tokens?_eq (Nat.lt_succ_self _)
    rw [tokenize?, withoutByteOrderMark_of_unmarked unmarked]
    simp only [found]
  · have found := written.tokens?_eq (Nat.lt_succ_self _)
    rw [tokenize?, mark]
    simp only [withoutByteOrderMark, found]

/-- The pieces of a text that can be seen are the texts of its tokens. -/
theorem Spells.filter_eq {text : String} {pieces : List String} {tokens : List Token}
    (spells : Spells text pieces tokens) :
    pieces.filter (fun piece => decide (piece ∉ unseen)) = textsAll tokens := by
  obtain ⟨-, written⟩ | ⟨-, written⟩ := spells
  · exact written.filter_eq
  · rw [List.filter_cons_of_neg (by decide), written.filter_eq]

/-- In a text without marks all pieces are texts of tokens. -/
theorem Spells.eq_of_seen {text : String} {pieces : List String} {tokens : List Token}
    (spells : Spells text pieces tokens)
    (seen : ∀ c ∈ text.toList, c ∉ ['\u200e', '\u200f', '\ufeff']) :
    pieces = textsAll tokens := by
  rw [← spells.filter_eq, eq_comm, List.filter_eq_self]
  obtain ⟨-, written⟩ | ⟨mark, -⟩ := spells
  · intro piece member
    have inside := written.subset piece member
    rw [decide_eq_true_eq]
    intro hidden
    simp only [unseen, List.mem_cons, List.not_mem_nil, or_false] at hidden
    obtain rfl | rfl | rfl := hidden
    · exact seen '\u200e' (inside List.mem_cons_self) (by decide)
    · exact seen '\u200f' (inside List.mem_cons_self) (by decide)
    · exact seen '\ufeff' (inside List.mem_cons_self) (by decide)
  · exact absurd (by decide) (seen '\ufeff' (by rw [mark]; exact List.mem_cons_self))

/-- A text that the reader accepts and in which no comment starts consists of the tokens that the
reader finds. -/
theorem exists_spells_of_tokenize? {text : String} {tokens : List Token}
    (free : CommentFree text.toList) (h : tokenize? text = some tokens) :
    ∃ pieces, Spells text pieces tokens := by
  obtain ⟨fuel, found⟩ := tokens?_of_tokenize? h
  by_cases unmarked : text.toList.head? = some '\ufeff'
  · obtain ⟨cs, shape⟩ := List.head?_eq_some_iff.1 unmarked
    rw [shape] at found free
    obtain ⟨_, written⟩ := exists_written_of_tokens? (free.of_suffix (List.suffix_cons _ _)) found
    exact ⟨_, .marked shape written⟩
  · rw [withoutByteOrderMark_of_unmarked unmarked] at found
    obtain ⟨_, written⟩ := exists_written_of_tokens? free found
    exact ⟨_, .plain unmarked written⟩

end Lexer

end Code

end Slotwise
