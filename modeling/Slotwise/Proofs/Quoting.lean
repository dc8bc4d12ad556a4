import Mathlib.Algebra.Group.Nat.Defs
import Slotwise.Code.Literal
import Slotwise.Text.Quoted
/-!
# Literals of texts

A text that is written as a literal of generated code reads back as itself
(`textValue?_quoteLiteral`): every escape that the writer uses stands for the character it was made
from, and a character that is written as it is starts no escape.
-/

namespace Slotwise.Code.Literal

open Text

/-! ## Escapes by code point -/

theorem hexValue?_digitChar {digit : Nat} (small : digit < 16) :
    hexValue? digit.digitChar = some digit := by
  revert digit
  decide

/-- Hexadecimal digits add up to the number that they were made from. -/
theorem codePoint?_toDigits (number count value : Nat) (rest : List Char)
    (room : count + (Nat.toDigits 16 number).length ≤ 6) :
    codePoint? count value (Nat.toDigits 16 number ++ rest) =
      codePoint? (count + (Nat.toDigits 16 number).length)
        (16 ^ (Nat.toDigits 16 number).length * value + number) rest := by
  induction number using Nat.strongRecOn generalizing rest with
  | ind number ih =>
    have split := Nat.toDigits_eq_if (b := 16) (n := number) (by decide)
    by_cases small : number < 16
    · rw [if_pos small] at split
      rw [split, List.length_singleton] at room ⊢
      have count_ne : count ≠ 6 := by omega
      rw [List.singleton_append, codePoint?, hexValue?_digitChar small]
      simp only [if_neg count_ne, Nat.pow_one]
    · -- the digits before the last one are those of `number / 16`
      rw [if_neg small] at split
      rw [split, List.length_append, List.length_singleton] at room ⊢
      have smaller : number / 16 < number := Nat.div_lt_self (by omega) (by decide)
      have count_ne : count + (Nat.toDigits 16 (number / 16)).length ≠ 6 := by omega
      rw [List.append_assoc, ih _ smaller _ (by omega), List.singleton_append, codePoint?,
        hexValue?_digitChar (Nat.mod_lt _ (by decide))]
      simp only [if_neg count_ne]
      congr 1
      rw [Nat.pow_succ, Nat.mul_add, Nat.add_assoc, Nat.div_add_mod, Nat.mul_comm (16 ^ _) 16,
        Nat.mul_assoc]

theorem length_toDigits_toNat (c : Char) : (Nat.toDigits 16 c.toNat).length ≤ 6 := by
  rw [Nat.length_toDigits_le_iff (by decide) (by decide)]
  have bound : c.toNat < 1114112 := by
    obtain small | ⟨-, small⟩ := c.valid <;> exact Nat.lt_of_lt_of_le small (by decide)
  exact Nat.lt_of_lt_of_le bound (by decide)

theorem codePoint?_codePointEscape (c : Char) (rest : List Char) :
    codePoint? 0 0 (Nat.toDigits 16 c.toNat ++ '\x7d' :: rest) = some (c.toNat, rest) := by
  have positive := Nat.length_toDigits_pos (b := 16) (n := c.toNat)
  have room : 0 + (Nat.toDigits 16 c.toNat).length ≤ 6 := by
    rw [Nat.zero_add]
    exact length_toDigits_toNat c
  have noDigit : hexValue? '\x7d' = none := by decide
  rw [codePoint?_toDigits _ _ _ _ room, codePoint?, noDigit]
  simp [Nat.ne_of_gt positive]

/-! ## Reading back -/

theorem cookedValue?_plain {c : Char} (notQuote : c ≠ '"') (notEscape : c ≠ '\\')
    (notReturn : c ≠ '\r') (fuel : Nat) (rest : List Char) :
    cookedValue? (fuel + 1) (c :: rest) = (cookedValue? fuel rest).map (c :: ·) := by
  rw [cookedValue?] <;> intros <;> contradiction

theorem cookedValue?_codePoint (fuel : Nat) (rest : List Char) :
    cookedValue? (fuel + 1) ('\\' :: 'u' :: '\x7b' :: rest) =
      match codePoint? 0 0 rest with
      | some (value, rest) => (cookedValue? fuel rest).map (Char.ofNat value :: ·)
      | none => none := rfl

/-- The escaped form of a character stands for the character. -/
theorem cookedValue?_escapedChar (c : Char) (fuel : Nat) (rest : List Char) :
    cookedValue? (fuel + 1) (escapedChar c ++ rest) = (cookedValue? fuel rest).map (c :: ·) := by
  unfold escapedChar
  split
  · rfl
  · rfl
  · rfl
  · rfl
  · rfl
  · next notTab notFeed notReturn notQuote notEscape =>
    split
    · rw [codePointEscape]
      simp only [List.append_assoc, List.cons_append, List.nil_append]
      rw [cookedValue?_codePoint, codePoint?_codePointEscape]
      simp
    · exact cookedValue?_plain notQuote notEscape notReturn fuel rest

/-- The body of a literal stands for the characters it was made from. -/
theorem cookedValue?_literalChars (cs rest : List Char) {fuel : Nat} (enough : cs.length < fuel) :
    cookedValue? fuel (literalChars cs ++ '"' :: rest) = some cs := by
  induction cs generalizing fuel with
  | nil =>
    obtain ⟨fuel, rfl⟩ := Nat.exists_eq_add_of_lt enough
    rfl
  | cons c cs ih =>
    -- one step reads one character back, however long its escape is
    obtain ⟨less, rfl⟩ := Nat.exists_eq_add_one_of_ne_zero (Nat.ne_zero_of_lt enough)
    have behind := ih (Nat.lt_of_succ_lt_succ enough)
    have numbered : cookedValue? (less + 1)
        ('\\' :: 'x' :: '0' :: '0' :: (literalChars cs ++ '"' :: rest)) = some ('\x00' :: cs) := by
      show (cookedValue? less (literalChars cs ++ '"' :: rest)).map ('\x00' :: ·) = _
      rw [behind, Option.map_some]
    have short : cookedValue? (less + 1) ('\\' :: '0' :: (literalChars cs ++ '"' :: rest)) =
        some ('\x00' :: cs) := by
      show (cookedValue? less (literalChars cs ++ '"' :: rest)).map ('\x00' :: ·) = _
      rw [behind, Option.map_some]
    by_cases isNull : c = '\x00'
    · -- the digit behind the null character decides about its escape alone
      subst isNull
      cases cs with
      | nil => simpa [literalChars] using short
      | cons d ds =>
        rw [literalChars, if_pos rfl, List.append_assoc]
        split
        · exact numbered
        · exact short
    · have written : literalChars (c :: cs) = escapedChar c ++ literalChars cs := by
        simp [literalChars, isNull]
      rw [written, List.append_assoc, cookedValue?_escapedChar, behind, Option.map_some]

theorem escapedChar_ne_nil (c : Char) : escapedChar c ≠ [] := by
  unfold escapedChar
  split <;> simp [codePointEscape]
  split <;> simp

theorem length_le_literalChars (cs : List Char) : cs.length ≤ (literalChars cs).length := by
  induction cs with
  | nil => exact Nat.le_refl 0
  | cons c cs ih =>
    obtain ⟨written, shown, split⟩ : ∃ written, written ≠ [] ∧
        literalChars (c :: cs) = written ++ literalChars cs := by
      refine ⟨_, ?_, by rw [literalChars.eq_def]⟩
      have shown := escapedChar_ne_nil c
      repeat' split
      all_goals first | exact shown | exact List.cons_ne_nil _ _
    have positive := List.length_pos_iff.2 shown
    rw [split, List.length_append, List.length_cons]
    omega

/-- A literal stands for the text it was made from. -/
theorem textValue?_quoteLiteral (text : String) : textValue? (quoteLiteral text) = some text := by
  have enough : text.toList.length < (literalChars text.toList ++ ['"']).length + 1 := by
    have written := length_le_literalChars text.toList
    rw [List.length_append]
    omega
  rw [textValue?, quoteLiteral, String.toList_ofList, List.cons_append]
  simp only
  rw [cookedValue?_literalChars _ _ enough, Option.map_some, String.ofList_toList]

end Slotwise.Code.Literal
