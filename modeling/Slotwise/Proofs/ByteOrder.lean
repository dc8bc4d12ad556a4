import Slotwise.Proofs.Order
/-!
# The order of bytes

Texts are compared by their code points. Their encoding keeps this order: of two different
characters the smaller one has the smaller bytes, whatever follows (`utf8EncodeChar_lt`), so two
texts compare as the sequences of their bytes do (`Text.compare_eq_lt_iff`), and a sorted set of
texts is in strictly ascending order of bytes (`Ordered.pairwise_sortedTexts`).
-/

namespace Slotwise

namespace Text

/-- The bytes in which a text is stored. -/
def bytes (text : String) : List UInt8 :=
  text.toUTF8.data.toList

theorem bytes_eq_flatMap (text : String) :
    bytes text = text.toList.flatMap String.utf8EncodeChar := by
  obtain ⟨cs, rfl⟩ : ∃ cs, text = String.ofList cs := ⟨text.toList, by simp⟩
  rw [bytes, String.toUTF8_eq_toByteArray, String.toByteArray_ofList, List.utf8Encode,
    List.toList_data_toByteArray, String.toList_ofList]

/-! ## Characters -/

theorem byte_lt_iff {m n : Nat} (hm : m < 256) (hn : n < 256) :
    UInt8.ofNat m < UInt8.ofNat n ↔ m < n := by
  rw [UInt8.lt_iff_toNat_lt, UInt8.toNat_ofNat', UInt8.toNat_ofNat', Nat.mod_eq_of_lt hm,
    Nat.mod_eq_of_lt hn]

theorem byte_eq_iff {m n : Nat} (hm : m < 256) (hn : n < 256) :
    UInt8.ofNat m = UInt8.ofNat n ↔ m = n := by
  rw [← UInt8.toNat_inj, UInt8.toNat_ofNat', UInt8.toNat_ofNat', Nat.mod_eq_of_lt hm,
    Nat.mod_eq_of_lt hn]

/-- Numbers compare as their digits to the base 64 do, from the first digit on. -/
theorem sextets_lt {m n : Nat} (less : m < n) :
    m / 262144 < n / 262144 ∨ m / 262144 = n / 262144 ∧
      (m / 4096 % 64 < n / 4096 % 64 ∨ m / 4096 % 64 = n / 4096 % 64 ∧
        (m / 64 % 64 < n / 64 % 64 ∨ m / 64 % 64 = n / 64 % 64 ∧ m % 64 < n % 64)) := by
  have fourth (k : Nat) : k / 262144 = k / 4096 / 64 := (Nat.div_div_eq_div_mul k 4096 64).symm
  have third (k : Nat) : k / 4096 = k / 64 / 64 := (Nat.div_div_eq_div_mul k 64 64).symm
  have digit {i j : Nat} (h : i < j) : i / 64 < j / 64 ∨ i / 64 = j / 64 ∧ i % 64 < j % 64 := by
    omega
  rw [fourth, fourth, third, third]
  obtain less | ⟨same, last⟩ := digit less
  · obtain less | ⟨same, last⟩ := digit less
    · obtain less | ⟨same, last⟩ := digit less
      · exact .inl less
      · exact .inr ⟨same, .inl last⟩
    · rw [same]
      exact .inr ⟨rfl, .inr ⟨rfl, .inl last⟩⟩
  · rw [same]
    exact .inr ⟨rfl, .inr ⟨rfl, .inr ⟨rfl, last⟩⟩⟩

/-- The smaller of two characters has the smaller bytes, whatever follows. -/
theorem utf8EncodeChar_lt {c d : Char} (less : c < d) (xs ys : List UInt8) :
    String.utf8EncodeChar c ++ xs < String.utf8EncodeChar d ++ ys := by
  have lt : c.val.toNat < d.val.toNat := less
  have bound : d.val.toNat < 1114112 := by
    obtain small | ⟨-, small⟩ := d.valid <;> exact Nat.lt_of_lt_of_le small (by decide)
  unfold String.utf8EncodeChar
  dsimp only
  generalize c.val.toNat = m at *
  generalize d.val.toNat = n at *
  have digits := sextets_lt lt
  have lead : m / 262144 % 8 = m / 262144 ∧ n / 262144 % 8 = n / 262144 :=
    ⟨Nat.mod_eq_of_lt (by omega), Nat.mod_eq_of_lt (by omega)⟩
  -- a case for each pair of lengths; `omega` refutes those where the smaller one is longer
  split <;> split
  all_goals try split
  all_goals try split
  all_goals try split
  all_goals try split
  all_goals try omega
  all_goals
    simp only [List.cons_append, List.nil_append, List.cons_lt_cons_iff]
    (repeat rw [byte_lt_iff (by omega) (by omega)])
    (repeat rw [byte_eq_iff (by omega) (by omega)])
    omega

/-! ## Texts -/

theorem flatMap_utf8EncodeChar_lt {cs ds : List Char} (less : cs < ds) :
    cs.flatMap String.utf8EncodeChar < ds.flatMap String.utf8EncodeChar := by
  induction cs generalizing ds with
  | nil =>
    cases ds with
    | nil => exact absurd less (List.lt_irrefl [])
    | cons d ds =>
      have filled : String.utf8EncodeChar d ≠ [] := by simp
      obtain ⟨byte, rest, encoded⟩ := List.exists_cons_of_ne_nil filled
      rw [List.flatMap_nil, List.flatMap_cons, encoded]
      exact List.nil_lt_cons ..
  | cons c cs ih =>
    cases ds with
    | nil => exact absurd less (List.not_lt_nil _)
    | cons d ds =>
      rw [List.flatMap_cons, List.flatMap_cons]
      obtain first | ⟨rfl, rest⟩ := List.cons_lt_cons_iff.1 less
      · exact utf8EncodeChar_lt first _ _
      · exact List.append_left_lt (ih rest)

theorem bytes_lt_of_lt {s t : String} (less : s < t) : bytes s < bytes t := by
  rw [bytes_eq_flatMap, bytes_eq_flatMap]
  exact flatMap_utf8EncodeChar_lt less

/-- Texts compare as their bytes do. -/
theorem compare_eq_lt_iff {s t : String} : compare s t = .lt ↔ bytes s < bytes t := by
  show compareOfLessAndEq s t = .lt ↔ _
  rw [compareOfLessAndEq_eq_lt]
  constructor
  · exact bytes_lt_of_lt
  · intro less
    refine Decidable.byContradiction fun notBefore => ?_
    have notAfter : ¬ t < s := fun after => List.lt_asymm less (bytes_lt_of_lt after)
    have same : s = t :=
      String.le_antisymm (String.not_lt.1 notAfter) (String.not_lt.1 notBefore)
    subst same
    exact List.lt_irrefl _ less

end Text

theorem Ordered.pairwise_sortedTexts (texts : List String) :
    (sortedTexts texts).Pairwise (Text.bytes · < Text.bytes ·) :=
  (pairwise_sortedSet texts).imp Text.compare_eq_lt_iff.1

end Slotwise
