import Slotwise.Code.Literal
/-!
# Where literals end

A recognizer of literals answers a rest of the text it is given: a literal is what stands at the
front of the text, and what follows it is left as it is
(`Literal.exists_first_of_afterLiteral?`).
-/

namespace Slotwise.Code.Literal

/-! ## Words -/

theorem suffix_of_afterIdentifier? {cs rest : List Char} (h : afterIdentifier? cs = some rest) :
    rest <:+ cs := by
  unfold afterIdentifier? at h
  split at h
  · cases h
  · split at h
    · cases h
      exact (List.dropWhile_suffix _).trans (List.suffix_cons _ _)
    · cases h

theorem afterSuffix_suffix (cs : List Char) : afterSuffix cs <:+ cs := by
  unfold afterSuffix
  cases found : afterIdentifier? cs with
  | none => exact List.suffix_refl cs
  | some rest => exact suffix_of_afterIdentifier? found

theorem eq_append_of_after? {start : String} {cs rest : List Char}
    (h : after? start cs = some rest) : cs = start.toList ++ rest := by
  unfold after? at h
  split at h
  · next starts =>
    obtain ⟨behind, rfl⟩ := List.isPrefixOf_iff_prefix.1 starts
    cases h
    rw [← String.length_toList, List.drop_left]
  · cases h

/-! ## Texts between quotes -/

theorem suffix_of_afterHexPair? {quotation : Quotation} {cs rest : List Char}
    (h : afterHexPair? quotation cs = some rest) : rest <:+ cs := by
  unfold afterHexPair? at h
  split at h
  · next a b after =>
    have behind : after <:+ a :: b :: after := List.suffix_append [a, b] after
    split at h
    · split at h
      · split at h <;> cases h
        exact behind
      · cases h
        exact behind
      · split at h <;> cases h
        exact behind
    · cases h
  · cases h

theorem suffix_of_codePoint? {count value : Nat} {cs rest : List Char} {result : Nat}
    (h : codePoint? count value cs = some (result, rest)) : rest <:+ cs := by
  fun_induction codePoint? count value cs with
  | case1 => cases h
  | case2 => cases h
  | case3 _ _ c after digit _ _ ih => exact (ih h).trans (List.suffix_cons _ _)
  | case4 => cases h
  | case5 _ _ after _ _ ih => exact (ih h).trans (List.suffix_cons _ _)
  | case6 _ _ after =>
    cases h
    exact List.suffix_cons _ _
  | case7 => cases h

theorem suffix_of_afterCodePoint? {quotation : Quotation} {cs rest : List Char}
    (h : afterCodePoint? quotation cs = some rest) : rest <:+ cs := by
  unfold afterCodePoint? at h
  split at h
  · split at h
    · next found =>
      split at h
      · cases h
        exact (suffix_of_codePoint? found).trans (List.suffix_cons _ _)
      · cases h
    · cases h
  · cases h

theorem suffix_of_afterEscape? {quotation : Quotation} {cs rest : List Char}
    (h : afterEscape? quotation cs = some rest) : rest <:+ cs := by
  unfold afterEscape? at h
  split at h
  · exact (suffix_of_afterHexPair? h).trans (List.suffix_cons _ _)
  · split at h
    · cases h
    · exact (suffix_of_afterCodePoint? h).trans (List.suffix_cons _ _)
  · split at h <;> cases h
    exact List.suffix_cons _ _
  · split at h <;> cases h
    exact List.suffix_cons _ _
  · cases h

theorem suffix_of_afterLineBreak? {cs rest : List Char} (h : afterLineBreak? cs = some rest) :
    rest <:+ cs := by
  fun_induction afterLineBreak? cs with
  | case1 after ih => exact (ih h).trans (List.suffix_cons _ _)
  | case2 => cases h
  | case3 c after _ _ _ ih => exact (ih h).trans (List.suffix_cons _ _)
  | case4 c after =>
    cases h
    exact List.suffix_refl _
  | case5 => cases h

theorem suffix_of_afterCooked? {quotation : Quotation} {fuel : Nat} {cs rest : List Char}
    (h : afterCooked? quotation fuel cs = some rest) : rest <:+ cs := by
  induction fuel generalizing cs with
  | zero => cases h
  | succ fuel ih =>
    -- a step takes a character, an escape or an escaped line break
    have one (c : Char) {after : List Char} (h : afterCooked? quotation fuel after = some rest) :
        rest <:+ c :: after := (ih h).trans (List.suffix_cons c after)
    unfold afterCooked? at h
    split at h
    · cases h
    · cases h
      exact (afterSuffix_suffix _).trans (List.suffix_cons _ _)
    · split at h
      · exact (one '\n' h).trans (List.suffix_cons _ _)
      · cases h
    · split at h
      · obtain ⟨after, found, h⟩ := Option.bind_eq_some_iff.1 h
        exact ((ih h).trans (suffix_of_afterLineBreak? found)).trans (List.suffix_cons _ _)
      · obtain ⟨after, found, h⟩ := Option.bind_eq_some_iff.1 h
        exact ((ih h).trans (suffix_of_afterLineBreak? found)).trans (List.suffix_cons _ _)
      · obtain ⟨after, found, h⟩ := Option.bind_eq_some_iff.1 h
        exact ((ih h).trans (suffix_of_afterEscape? found)).trans (List.suffix_cons _ _)
    · split at h
      · exact one _ h
      · split at h
        · exact one _ h
        · cases h
      · split at h
        · cases h
        · exact one _ h

theorem suffix_of_afterRawBody? {quotation : Quotation} {hashes cs rest : List Char}
    (h : afterRawBody? quotation hashes cs = some rest) : rest <:+ cs := by
  fun_induction afterRawBody? quotation hashes cs with
  | case1 => cases h
  | case2 after _ =>
    cases h
    exact ((afterSuffix_suffix _).trans (List.drop_suffix _ _)).trans (List.suffix_cons _ _)
  | case3 after _ ih => exact (ih h).trans (List.suffix_cons _ _)
  | case4 after ih => exact (ih h).trans (List.suffix_append ['\r', '\n'] after)
  | case5 => cases h
  | case6 => cases h
  | case7 => cases h
  | case8 c after _ _ _ _ _ ih => exact (ih h).trans (List.suffix_cons _ _)

theorem suffix_of_afterRaw? {quotation : Quotation} {cs rest : List Char}
    (h : afterRaw? quotation cs = some rest) : rest <:+ cs := by
  unfold afterRaw? at h
  simp only at h
  split at h
  · next body opened =>
    split at h
    · have within : '"' :: body <:+ cs := by
        rw [← opened]
        exact List.dropWhile_suffix _
      exact ((suffix_of_afterRawBody? h).trans (List.suffix_cons _ _)).trans within
    · cases h
  · cases h

theorem suffix_of_afterApostrophe? {cs rest : List Char} (h : afterApostrophe? cs = some rest) :
    rest <:+ cs := by
  unfold afterApostrophe? at h
  split at h
  · cases h
    exact (afterSuffix_suffix _).trans (List.suffix_cons _ _)
  · cases h

theorem suffix_of_afterCharacter? {quotation : Quotation} {cs rest : List Char}
    (h : afterCharacter? quotation cs = some rest) : rest <:+ cs := by
  unfold afterCharacter? at h
  split at h
  · cases h
  · obtain ⟨after, found, h⟩ := Option.bind_eq_some_iff.1 h
    exact ((suffix_of_afterApostrophe? h).trans (suffix_of_afterEscape? found)).trans
      (List.suffix_cons _ _)
  · split at h
    · cases h
    · exact (suffix_of_afterApostrophe? h).trans (List.suffix_cons _ _)

/-! ## Numbers -/

theorem suffix_of_afterNumberSuffix? {cs rest : List Char} (h : afterNumberSuffix? cs = some rest) :
    rest <:+ cs := by
  have within := afterSuffix_suffix cs
  unfold afterNumberSuffix? at h
  split at h
  · cases h
    exact List.nil_suffix
  · next same =>
    rw [same] at within
    split at h
    · cases h
    · cases h
      exact within

theorem suffix_of_afterExponent? {signed valued : Bool} {cs rest : List Char}
    (h : afterExponent? signed valued cs = some rest) : rest <:+ cs := by
  fun_induction afterExponent? signed valued cs with
  | case1 | case3 | case8 =>
    cases h
    exact List.suffix_refl _
  | case2 | case4 | case9 => cases h
  | case5 _ _ c after _ _ _ ih => exact (ih h).trans (List.suffix_cons c after)
  | case6 _ _ c after _ _ ih => exact (ih h).trans (List.suffix_cons c after)
  | case7 _ _ after _ _ ih => exact (ih h).trans (List.suffix_cons '_' after)

/-- A floating point number starts with a digit. -/
theorem exists_first_of_afterFloatDigits? {cs rest : List Char}
    (h : afterFloatDigits? cs = some rest) :
    ∃ c tail, cs = c :: tail ∧ c.isDigit = true ∧ rest <:+ tail := by
  unfold afterFloatDigits? at h
  split at h
  · next digit =>
    cases cs with
    | nil => cases digit
    | cons c tail =>
      have digit : c.isDigit = true := digit
      refine ⟨c, tail, rfl, digit, ?_⟩
      have digits : (c :: tail).dropWhile isDigitOrUnderscore <:+ tail := by
        rw [List.dropWhile_cons_of_pos (by simp [isDigitOrUnderscore, digit])]
        exact List.dropWhile_suffix _
      split at h
      · next fraction opened =>
        rw [opened] at digits
        have within : fraction.dropWhile isDigitOrUnderscore <:+ tail :=
          ((List.dropWhile_suffix _).trans (List.suffix_cons _ _)).trans digits
        have exponent (after : List Char) (inside : after <:+ tail)
            (h : some ((afterExponent? false false after).getD
              (fraction.dropWhile isDigitOrUnderscore)) = some rest) : rest <:+ tail := by
          cases found : afterExponent? false false after with
          | none =>
            rw [found] at h
            cases h
            exact within
          | some _ =>
            rw [found] at h
            cases h
            exact (suffix_of_afterExponent? found).trans inside
        simp only at h
        split at h
        · cases h
        · split at h
          · next same => exact exponent _ ((List.suffix_cons _ _).trans (same ▸ within)) h
          · next same => exact exponent _ ((List.suffix_cons _ _).trans (same ▸ within)) h
          · cases h
            exact within
      · next opened =>
        rw [opened] at digits
        exact ((suffix_of_afterExponent? h).trans (List.suffix_cons _ _)).trans digits
      · next opened =>
        rw [opened] at digits
        exact ((suffix_of_afterExponent? h).trans (List.suffix_cons _ _)).trans digits
      · cases h
  · cases h

theorem suffix_of_afterDigits? {base : Nat} {seen : Bool} {cs rest : List Char}
    (h : afterDigits? base seen cs = some rest) : rest <:+ cs := by
  fun_induction afterDigits? base seen cs with
  | case1 | case7 | case9 =>
    cases h
    exact List.suffix_refl _
  | case2 | case3 | case6 | case8 | case10 => cases h
  | case4 _ after _ ih => exact (ih h).trans (List.suffix_cons '_' after)
  | case5 _ c after _ _ _ _ ih => exact (ih h).trans (List.suffix_cons c after)

theorem afterDigits?_eq_none {c : Char} (notDigit : c.isDigit = false) (rest : List Char) :
    afterDigits? 10 false (c :: rest) = none := by
  rw [afterDigits?]
  split
  · rfl
  · split
    · next digit value =>
      have large : ¬ digit < 10 := by
        rw [hexValue?, notDigit] at value
        simp only [Bool.false_eq_true, if_false] at value
        split at value
        · cases value
          omega
        · split at value
          · cases value
            omega
          · cases value
      rw [if_neg large, notDigit]
      rfl
    · rfl

/-- The digits of an integer are at least one character. -/
theorem exists_first_of_afterDigits? {base : Nat} {cs rest : List Char}
    (h : afterDigits? base false cs = some rest) : ∃ c tail, cs = c :: tail ∧ rest <:+ tail := by
  cases cs with
  | nil => cases h
  | cons c tail =>
    refine ⟨c, tail, rfl, ?_⟩
    rw [afterDigits?] at h
    split at h
    · split at h
      · cases h
      · exact suffix_of_afterDigits? h
    · split at h
      · split at h
        · exact suffix_of_afterDigits? h
        · split at h <;> cases h
      · cases h

/-- An integer starts with a digit. -/
theorem exists_first_of_afterIntegerDigits? {cs rest : List Char}
    (h : afterIntegerDigits? cs = some rest) :
    ∃ c tail, cs = c :: tail ∧ c.isDigit = true ∧ rest <:+ tail := by
  unfold afterIntegerDigits? at h
  split at h
  · exact ⟨'0', _, rfl, by decide, (suffix_of_afterDigits? h).trans (List.suffix_cons _ _)⟩
  · exact ⟨'0', _, rfl, by decide, (suffix_of_afterDigits? h).trans (List.suffix_cons _ _)⟩
  · exact ⟨'0', _, rfl, by decide, (suffix_of_afterDigits? h).trans (List.suffix_cons _ _)⟩
  · obtain ⟨c, tail, rfl, shorter⟩ := exists_first_of_afterDigits? h
    refine ⟨c, tail, rfl, ?_, shorter⟩
    rw [← Bool.not_eq_false]
    intro notDigit
    rw [afterDigits?_eq_none notDigit] at h
    cases h

/-! ## All literals -/

/-- What a literal is: a text in one of three quotations, a byte, a character or a number. -/
theorem cases_of_afterLiteral? {cs rest : List Char} (h : afterLiteral? cs = some rest) :
    (∃ quotation, ∃ letter ∈ ["", "b", "c"], afterText? quotation letter cs = some rest) ∨
      (∃ quotation, ∃ start ∈ ["b'", "'"], ∃ body, after? start cs = some body ∧
        afterCharacter? quotation body = some rest) ∨
      ∃ digits, (afterFloatDigits? cs = some digits ∨ afterIntegerDigits? cs = some digits) ∧
        afterNumberSuffix? digits = some rest := by
  simp only [afterLiteral?, Option.orElse_eq_orElse, Option.orElse_eq_or, Option.or_eq_some_iff,
    Option.bind_eq_some_iff] at h
  obtain h | ⟨-, h | ⟨-, h | ⟨-, ⟨body, opened, h⟩ | ⟨-, ⟨body, opened, h⟩ |
    ⟨-, ⟨digits, found, h⟩ | ⟨-, digits, found, h⟩⟩⟩⟩⟩⟩ := h
  · exact .inl ⟨_, "", by simp, h⟩
  · exact .inl ⟨_, "b", by simp, h⟩
  · exact .inl ⟨_, "c", by simp, h⟩
  · exact .inr (.inl ⟨_, "b'", by simp, body, opened, h⟩)
  · exact .inr (.inl ⟨_, "'", by simp, body, opened, h⟩)
  · exact .inr (.inr ⟨digits, .inl found, h⟩)
  · exact .inr (.inr ⟨digits, .inr found, h⟩)

/-- A text literal starts with a quote or a letter. -/
theorem exists_first_of_afterText? {quotation : Quotation} {letter : String}
    (isLetter : letter ∈ ["", "b", "c"]) {cs rest : List Char}
    (h : afterText? quotation letter cs = some rest) :
    ∃ c tail, cs = c :: tail ∧ c ∈ ['"', '\'', 'b', 'c', 'r'] ∧ rest <:+ tail := by
  obtain ⟨mark, isMark, body, rfl, shorter⟩ : ∃ mark ∈ ["\"", "r"], ∃ body,
      cs = (letter ++ mark).toList ++ body ∧ rest <:+ body := by
    unfold afterText? at h
    split at h
    · next body opened =>
      exact ⟨"\"", by simp, body, eq_append_of_after? opened, suffix_of_afterCooked? h⟩
    · obtain ⟨body, opened, h⟩ := Option.bind_eq_some_iff.1 h
      exact ⟨"r", by simp, body, eq_append_of_after? opened, suffix_of_afterRaw? h⟩
  simp only [List.mem_cons, List.not_mem_nil, or_false] at isLetter isMark
  obtain rfl | rfl | rfl := isLetter <;> obtain rfl | rfl := isMark
  · exact ⟨'"', body, rfl, by decide, shorter⟩
  · exact ⟨'r', body, rfl, by decide, shorter⟩
  · exact ⟨'b', '"' :: body, rfl, by decide, shorter.trans (List.suffix_cons _ _)⟩
  · exact ⟨'b', 'r' :: body, rfl, by decide, shorter.trans (List.suffix_cons _ _)⟩
  · exact ⟨'c', '"' :: body, rfl, by decide, shorter.trans (List.suffix_cons _ _)⟩
  · exact ⟨'c', 'r' :: body, rfl, by decide, shorter.trans (List.suffix_cons _ _)⟩

/-- A literal starts with a quote, a letter or a digit, and stands at the front of the text. -/
theorem exists_first_of_afterLiteral? {cs rest : List Char} (h : afterLiteral? cs = some rest) :
    ∃ c tail, cs = c :: tail ∧ (c ∈ ['"', '\'', 'b', 'c', 'r'] ∨ c.isDigit = true) ∧
      rest <:+ tail := by
  obtain ⟨quotation, letter, isLetter, h⟩ | ⟨quotation, start, isStart, body, opened, h⟩ |
    ⟨digits, found | found, h⟩ := cases_of_afterLiteral? h
  · obtain ⟨c, tail, same, first, shorter⟩ := exists_first_of_afterText? isLetter h
    exact ⟨c, tail, same, .inl first, shorter⟩
  · have shorter := suffix_of_afterCharacter? h
    rw [eq_append_of_after? opened]
    simp only [List.mem_cons, List.not_mem_nil, or_false] at isStart
    obtain rfl | rfl := isStart
    · exact ⟨'b', '\'' :: body, rfl, .inl (by decide), shorter.trans (List.suffix_cons _ _)⟩
    · exact ⟨'\'', body, rfl, .inl (by decide), shorter⟩
  · obtain ⟨c, tail, same, digit, shorter⟩ := exists_first_of_afterFloatDigits? found
    exact ⟨c, tail, same, .inr digit, (suffix_of_afterNumberSuffix? h).trans shorter⟩
  · obtain ⟨c, tail, same, digit, shorter⟩ := exists_first_of_afterIntegerDigits? found
    exact ⟨c, tail, same, .inr digit, (suffix_of_afterNumberSuffix? h).trans shorter⟩

end Slotwise.Code.Literal
