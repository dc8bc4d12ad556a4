import Slotwise.Proofs.FilePath
import Slotwise.Proofs.ModulePath
/-!
# Legal names

What a legal identifier is made of: no blank, slash, colon or dot. So it stands for itself as a
segment of a module path and as a component of a file path. The numbered names of generated code
are legal.
-/

namespace Slotwise.Text

theorem isXidContinue_of_isDigit {c : Char} (h : c.isDigit = true) : isXidContinue c = true := by
  have small : c.toNat < 128 := by
    rw [Char.isDigit, Bool.and_eq_true, decide_eq_true_iff, decide_eq_true_iff] at h
    exact Nat.lt_of_le_of_lt h.2 (by decide)
  simp [isXidContinue, small, h]

theorem exists_code_of_le {first last c : Char} (lower : first ≤ c) (upper : c ≤ last) :
    ∃ code ∈ List.range' first.toNat (last.toNat + 1 - first.toNat), c = Char.ofNat code := by
  refine ⟨c.toNat, ?_, (Char.ofNat_toNat c).symm⟩
  have low : first.toNat ≤ c.toNat := lower
  have high : c.toNat ≤ last.toNat := upper
  rw [List.mem_range'_1]
  omega

theorem inRanges_eq_false {ranges : List (Nat × Nat)} {first last : Nat} {c : Char}
    (lower : first ≤ c.toNat) (upper : c.toNat ≤ last)
    (apart : ranges.all (fun range => range.2.blt first || last.blt range.1) = true) :
    inRanges ranges c = false := by
  rw [inRanges, List.any_eq_false]
  intro range member
  have away := List.all_eq_true.1 apart range member
  rw [Bool.or_eq_true, Nat.blt_eq, Nat.blt_eq] at away
  rw [Bool.and_eq_true, decide_eq_true_iff, decide_eq_true_iff]
  omega

/-- Code points behind the first 128 that the tables of identifiers leave out: the blanks, the marks for
the direction of a text, and the byte order mark. -/
def gaps : { ranges : List (Nat × Nat) // ∀ gap ∈ ranges, 128 ≤ gap.1 ∧
    (identifierStarts ++ identifierMarks).all
      (fun range => range.2.blt gap.1 || gap.2.blt range.1) = true } :=
  ⟨[(0x85, 0x85), (0xa0, 0xa0), (0x1680, 0x1680), (0x2000, 0x200a), (0x200e, 0x200f),
    (0x2028, 0x2029), (0x202f, 0x202f), (0x205f, 0x205f), (0x3000, 0x3000), (0xfeff, 0xfeff)],
    by decide +kernel⟩

/-- Characters in a gap do not continue a name. -/
theorem isXidContinue_eq_false {c : Char} (h : inRanges gaps.val c = true) :
    isXidContinue c = false := by
  obtain ⟨gap, member, within⟩ := List.any_eq_true.1 h
  rw [Bool.and_eq_true, decide_eq_true_iff, decide_eq_true_iff] at within
  obtain ⟨behind, apart⟩ := gaps.property gap member
  have big : ¬c.toNat < 128 := Nat.not_lt.2 (Nat.le_trans behind within.1)
  rw [List.all_append, Bool.and_eq_true] at apart
  rw [isXidContinue, isXidStart, if_neg big, if_neg big,
    inRanges_eq_false within.1 within.2 apart.1, inRanges_eq_false within.1 within.2 apart.2]
  rfl

theorem not_isBlank_of_isXidContinue {c : Char} (h : isXidContinue c = true) :
    isBlank c = false := by
  rw [← Bool.not_eq_true]
  intro blank
  simp only [isBlank, Bool.or_eq_true, Bool.and_eq_true, decide_eq_true_iff, or_assoc] at blank
  obtain rfl | ⟨lower, upper⟩ | rfl | rfl | rfl | ⟨lower, upper⟩ | rfl | rfl | rfl | rfl | rfl :=
    blank
  case inl => exact absurd h (by decide)
  case inr.inl =>
    obtain ⟨code, member, rfl⟩ := exists_code_of_le lower upper
    revert code
    decide
  case inr.inr.inr.inr.inr.inl =>
    have within : inRanges gaps.val c = true := List.any_eq_true.2
      ⟨(0x2000, 0x200a), by decide, Bool.and_eq_true_iff.2 ⟨decide_eq_true lower, decide_eq_true upper⟩⟩
    rw [isXidContinue_eq_false within] at h
    cases h
  all_goals
    rw [isXidContinue_eq_false (by decide)] at h
    cases h

theorem isIdentifier_append {cs rest : List Char} (identifier : isIdentifier cs = true)
    (continues : ∀ c ∈ rest, isXidContinue c = true) : isIdentifier (cs ++ rest) = true := by
  cases cs with
  | nil => cases identifier
  | cons c cs =>
    rw [isIdentifier, Bool.and_eq_true, List.all_eq_true] at identifier
    rw [List.cons_append, isIdentifier, identifier.1, Bool.true_and, List.all_append,
      Bool.and_eq_true, List.all_eq_true, List.all_eq_true]
    exact ⟨identifier.2, continues⟩

theorem isXidContinue_of_mem_toString {n : Nat} {c : Char} (h : c ∈ (toString n).toList) :
    isXidContinue c = true := by
  rw [Nat.toString_eq_ofList_toDigits, String.toList_ofList] at h
  exact isXidContinue_of_isDigit (Nat.isDigit_of_mem_toDigits (by decide) (by decide) h)

end Slotwise.Text

namespace Slotwise.Naming

theorem isXidContinue_of_isIdentifier {cs : List Char} (h : Text.isIdentifier cs = true) :
    ∀ c ∈ cs, Text.isXidContinue c = true := by
  cases cs with
  | nil => cases h
  | cons first rest =>
    rw [Text.isIdentifier, Bool.and_eq_true, List.all_eq_true] at h
    exact List.forall_mem_cons.2 ⟨Text.isXidContinue_of_startsIdentifier h.1, h.2⟩

theorem isXidContinue_of_isLegal {text : String} (legal : isLegal text = true) {c : Char}
    (member : c ∈ text.toList) : Text.isXidContinue c = true ∨ c = '#' := by
  unfold isLegal at legal
  split at legal
  · next rest raw =>
    rw [Bool.and_eq_true] at legal
    rw [raw] at member
    obtain rfl | rfl | member := by simpa only [List.mem_cons] using member
    · exact .inl (by decide)
    · exact .inr rfl
    · exact .inl (isXidContinue_of_isIdentifier legal.1 c member)
  · exact .inl (isXidContinue_of_isIdentifier legal c member)

theorem legal_eq_ok {text name : String} (h : legal text = .ok name) : name = text := by
  unfold legal at h
  split at h <;> cases h
  rfl

theorem isLegal_of_isIdentifier {text : String} (h : Text.isIdentifier text.toList = true) :
    isLegal text = true := by
  unfold isLegal
  split
  · next rest raw =>
    have mark := isXidContinue_of_isIdentifier h '#' (by rw [raw]; simp)
    exact absurd mark (by decide)
  · exact h

/-- A numbered name is legal. -/
theorem isLegal_append_toString (base : String) (h : Text.isIdentifier base.toList = true)
    (number : Nat) : isLegal (base ++ toString number) = true := by
  apply isLegal_of_isIdentifier
  rw [String.toList_append]
  exact Text.isIdentifier_append h fun c => Text.isXidContinue_of_mem_toString

/-- An identifier, behind a raw mark or not. -/
theorem shape_of_isLegal {name : String} (legal : isLegal name = true) :
    ∃ mark c rest, name.toList = mark ++ c :: rest ∧ (mark = [] ∨ mark = ['r', '#']) ∧
      Text.startsIdentifier c = true ∧ ∀ d ∈ rest, Text.isXidContinue d = true := by
  have split {cs : List Char} (identifier : Text.isIdentifier cs = true) :
      ∃ c rest, cs = c :: rest ∧ Text.startsIdentifier c = true ∧
        ∀ d ∈ rest, Text.isXidContinue d = true := by
    cases cs with
    | nil => cases identifier
    | cons c rest =>
      rw [Text.isIdentifier, Bool.and_eq_true, List.all_eq_true] at identifier
      exact ⟨c, rest, rfl, identifier⟩
  unfold isLegal at legal
  split at legal
  · next raw =>
    obtain ⟨c, rest, rfl, starts⟩ := split (Bool.and_eq_true _ _ ▸ legal).1
    exact ⟨['r', '#'], c, rest, raw, .inr rfl, starts⟩
  · obtain ⟨c, rest, same, starts⟩ := split legal
    exact ⟨[], c, rest, same, .inl rfl, starts⟩

theorem exists_first_of_isLegal {name : String} (legal : isLegal name = true) :
    ∃ first more, name.toList = first :: more ∧ Text.startsIdentifier first = true := by
  obtain ⟨mark, c, rest, shape, rfl | rfl, starts, -⟩ := shape_of_isLegal legal
  · exact ⟨c, rest, shape, starts⟩
  · exact ⟨'r', '#' :: c :: rest, shape, by decide⟩

theorem isDigit_of_startsIdentifier {c : Char} (starts : Text.startsIdentifier c = true) :
    c.isDigit = false := by
  rw [← Bool.not_eq_true]
  intro digit
  rw [Char.isDigit, Bool.and_eq_true, decide_eq_true_iff, decide_eq_true_iff] at digit
  obtain ⟨code, member, rfl⟩ := Text.exists_code_of_le (show '0' ≤ c from digit.1)
    (show c ≤ '9' from digit.2)
  have none : ∀ code ∈ List.range' '0'.toNat ('9'.toNat + 1 - '0'.toNat),
      Text.startsIdentifier (Char.ofNat code) = false := by decide
  rw [none code member] at starts
  cases starts

theorem ne_nil_of_isLegal {text : String} (legal : isLegal text = true) : text.toList ≠ [] := by
  intro empty
  rw [isLegal, empty] at legal
  cases legal

theorem not_mem_of_isLegal {text : String} (legal : isLegal text = true) {c : Char}
    (other : Text.isXidContinue c = false ∧ c ≠ '#') : c ∉ text.toList := by
  intro member
  obtain continues | mark := isXidContinue_of_isLegal legal member
  · rw [other.1] at continues
    cases continues
  · exact other.2 mark

@[simp] theorem withoutRawMark_of_not_mem {text : String} (h : '#' ∉ text.toList) :
    withoutRawMark text = text := by
  unfold withoutRawMark
  split
  · next rest raw => simp [raw] at h
  · rfl

/-- A legal name bears no raw mark within. -/
theorem mark_not_mem_withoutRawMark {text : String} (legal : isLegal text = true) :
    '#' ∉ (withoutRawMark text).toList := by
  have markFree {cs : List Char} (identifier : Text.isIdentifier cs = true) : '#' ∉ cs := by
    intro inside
    have continues := isXidContinue_of_isIdentifier identifier '#' inside
    exact absurd continues (by decide)
  unfold isLegal at legal
  unfold withoutRawMark
  split at legal
  · next rest raw =>
    rw [Bool.and_eq_true] at legal
    simpa [raw] using markFree legal.1
  · exact markFree legal

theorem isIdentifier_withoutRawMark {text : String} (legal : isLegal text = true) :
    Text.isIdentifier (withoutRawMark text).toList = true := by
  unfold isLegal at legal
  unfold withoutRawMark
  split at legal
  · next rest raw =>
    rw [Bool.and_eq_true] at legal
    simpa [raw] using legal.1
  · exact legal

/-- A legal name without its raw mark can be continued. -/
theorem isLegal_withoutRawMark_append {text suffix : String} (legal : isLegal text = true)
    (continues : ∀ c ∈ suffix.toList, Text.isXidContinue c = true) :
    isLegal (withoutRawMark text ++ suffix) = true := by
  apply isLegal_of_isIdentifier
  rw [String.toList_append]
  exact Text.isIdentifier_append (isIdentifier_withoutRawMark legal) continues

/-- A legal name can be continued if that does not make it a word that cannot be raw. -/
theorem isLegal_append {text suffix : String} (legal : isLegal text = true)
    (continues : ∀ c ∈ suffix.toList, Text.isXidContinue c = true)
    (long : ∀ word ∈ unrawWords, word.toList.length < suffix.toList.length) :
    isLegal (text ++ suffix) = true := by
  rw [isLegal] at legal
  split at legal
  · next rest raw =>
    rw [Bool.and_eq_true] at legal
    have whole : (text ++ suffix).toList = 'r' :: '#' :: (rest ++ suffix.toList) := by
      rw [String.toList_append, raw]
      rfl
    have unreserved : unrawWords.contains (String.ofList (rest ++ suffix.toList)) = false := by
      rw [Bool.eq_false_iff]
      intro inside
      have shorter := long _ (List.contains_iff_mem.1 inside)
      rw [String.toList_ofList, List.length_append] at shorter
      omega
    rw [isLegal, whole]
    simp only [Text.isIdentifier_append legal.1 continues, unreserved]
    rfl
  · apply isLegal_of_isIdentifier
    rw [String.toList_append]
    exact Text.isIdentifier_append legal continues

/-! ## Numbered names -/

/-- A numbered name bears no raw mark. -/
theorem withoutRawMark_numbered (base : String) (h : '#' ∉ base.toList) (number : Nat) :
    withoutRawMark (base ++ toString number) = base ++ toString number := by
  apply withoutRawMark_of_not_mem
  rw [String.toList_append, List.mem_append, not_or]
  refine ⟨h, fun inside => ?_⟩
  have continues := Text.isXidContinue_of_mem_toString inside
  exact absurd continues (by decide)

@[simp] theorem withoutRawMark_factor (slot : Nat) : withoutRawMark (factor slot) = factor slot :=
  withoutRawMark_numbered "factor" (by decide) slot

@[simp] theorem withoutRawMark_summand (slot : Nat) :
    withoutRawMark (summand slot) = summand slot :=
  withoutRawMark_numbered "Summand" (by decide) slot

@[simp] theorem withoutRawMark_mapSlot (slot : Nat) :
    withoutRawMark (mapSlot slot) = mapSlot slot :=
  withoutRawMark_numbered "map" (by decide) slot

@[simp] theorem withoutRawMark_productType (dimension : Nat) :
    withoutRawMark (productType dimension) = productType dimension :=
  withoutRawMark_numbered "Product" (by decide) dimension

@[simp] theorem withoutRawMark_sumType (dimension : Nat) :
    withoutRawMark (sumType dimension) = sumType dimension :=
  withoutRawMark_numbered "Sum" (by decide) dimension

/-- Numbered names tell their numbers apart. -/
theorem numbered_injective (base : String) :
    Function.Injective fun number : Nat => base ++ toString number := by
  intro m n same
  have digits : (toString m).toList = (toString n).toList := by
    have texts : (base ++ toString m).toList = (base ++ toString n).toList :=
      congrArg String.toList same
    rwa [String.toList_append, String.toList_append, List.append_cancel_left_eq] at texts
  rw [Nat.toString_eq_ofList_toDigits, Nat.toString_eq_ofList_toDigits, String.toList_ofList,
    String.toList_ofList] at digits
  rw [← Nat.ofDigitChars_ten_toDigits (n := m), digits, Nat.ofDigitChars_ten_toDigits]

theorem factor_injective : Function.Injective factor :=
  numbered_injective "factor"

theorem summand_injective : Function.Injective summand :=
  numbered_injective "Summand"

theorem mapSlot_injective : Function.Injective mapSlot :=
  numbered_injective "map"

theorem productType_injective : Function.Injective productType :=
  numbered_injective "Product"

theorem sumType_injective : Function.Injective sumType :=
  numbered_injective "Sum"

/-- Numbered names tell bases apart that begin differently. -/
theorem numbered_ne {base other : String} (h : base.toList.head? ≠ other.toList.head?)
    (filled : base ≠ "" ∧ other ≠ "") (m n : Nat) : base ++ toString m ≠ other ++ toString n := by
  intro same
  have texts : (base ++ toString m).toList = (other ++ toString n).toList :=
    congrArg String.toList same
  rw [String.toList_append, String.toList_append] at texts
  cases first : base.toList with
  | nil => exact filled.1 (String.toList_eq_nil_iff.1 first)
  | cons c cs =>
    cases second : other.toList with
    | nil => exact filled.2 (String.toList_eq_nil_iff.1 second)
    | cons d ds => simp_all

end Slotwise.Naming


namespace Slotwise

theorem Naming.bare_of_isLegal {text : String} (legal : Naming.isLegal text = true) :
    Text.Bare text.toList := by
  have solid : ∀ c ∈ text.toList, Text.isBlank c = false := by
    intro c member
    obtain continues | rfl := Naming.isXidContinue_of_isLegal legal member
    · exact Text.not_isBlank_of_isXidContinue continues
    · decide
  exact ⟨fun c first => solid c (List.mem_of_mem_head? first),
    fun c last => solid c (List.mem_of_getLast? last)⟩

theorem ModulePath.plain_of_isLegal {text : String} (legal : Naming.isLegal text = true) :
    ModulePath.Plain text :=
  ⟨Naming.not_mem_of_isLegal legal (by decide), Naming.bare_of_isLegal legal,
    Naming.ne_nil_of_isLegal legal⟩

theorem FilePath.isPlain_of_isLegal {text : String} (legal : Naming.isLegal text = true) :
    FilePath.IsPlain text := by
  have dotFree : '.' ∉ text.toList := Naming.not_mem_of_isLegal legal (by decide)
  refine ⟨Naming.not_mem_of_isLegal legal (by decide), Naming.ne_nil_of_isLegal legal, ?_, ?_⟩
  · intro dot
    exact dotFree (by simp [dot])
  · intro dots
    exact dotFree (by simp [dots])

theorem FilePath.isPlain_append_of_isLegal {text : String} (legal : Naming.isLegal text = true)
    {extension : String} (slashFree : '/' ∉ extension.toList) :
    FilePath.IsPlain (text ++ extension) := by
  have slashFreeText : '/' ∉ text.toList := Naming.not_mem_of_isLegal legal (by decide)
  have dotFree : '.' ∉ text.toList := Naming.not_mem_of_isLegal legal (by decide)
  cases split : text.toList with
  | nil => exact absurd split (Naming.ne_nil_of_isLegal legal)
  | cons c rest =>
    have notDot : c ≠ '.' := fun dot => dotFree (by simp [split, dot])
    refine ⟨?_, ?_, ?_, ?_⟩ <;> rw [String.toList_append]
    · exact fun inside => (List.mem_append.1 inside).elim slashFreeText slashFree
    · simp [split]
    · simp [split, notDot]
    · simp [split, notDot]

end Slotwise
