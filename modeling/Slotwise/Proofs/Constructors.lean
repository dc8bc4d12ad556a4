import Slotwise.Proofs.ReadNames
import Slotwise.Proofs.Rendering
import Slotwise.Proofs.SnakeCase
/-!
# Constructors of variants

A constructor is read from the snake case of the variant's name. The name is read from a text with
blanks and comments around it, and the snake case of such a text has the same blanks, and comments
in the same places (`Code.Lexer.Skips.snakeChars`). So the constructor is the snake case of the name
of the case (`Optics.Prism.constructor_eq_snakeCase`).

Main statement: what snake case does to a text, and that files and constructors lose the difference
of two names only if these are equal up to case and underscores (`Naming.snakeCase_faithful`).
-/

namespace Slotwise

open Naming

namespace Code.Lexer

/-! ## Plain comments -/

/-- What stands behind the opening of a comment does not make it a documentation comment. -/
def Undocumented (mark : Char) (more : List Char) : Prop :=
  (∀ c ∈ more.head?, c ≠ mark ∧ c ≠ '!') ∨
    ∃ c behind, more = mark :: c :: behind ∧ (c = mark ∨ c = '/')

theorem ne_of_mem_head? {more : List Char} {c d : Char} (first : c ∈ more.head?)
    (none : ∀ behind, more = d :: behind → False) : c ≠ d := by
  rintro rfl
  obtain ⟨behind, same⟩ := List.head?_eq_some_iff.1 first
  exact none behind same

theorem afterComment?_eq_some_iff {cs rest : List Char} :
    afterComment? cs = some rest ↔
      (∃ more, cs = '/' :: '/' :: more ∧ Undocumented '/' more ∧ (restOfLine more).2 = rest) ∨
      ∃ more body, cs = '/' :: '*' :: more ∧ Undocumented '*' more ∧
        blockBody? 0 more = some (body, rest) := by
  have block {more : List Char} (h : (blockComment? ('/' :: '*' :: more)).map (·.2) = some rest) :
      ∃ body, blockBody? 0 more = some (body, rest) := by
    obtain ⟨⟨body, _⟩, found, same⟩ := Option.map_eq_some_iff.1 h
    cases same
    exact ⟨body, found⟩
  constructor
  · intro h
    unfold afterComment? at h
    split at h
    · next more =>
      refine .inl ⟨more, rfl, ?_⟩
      split at h
      · cases h
        exact ⟨.inr ⟨'/', _, rfl, .inl rfl⟩, rfl⟩
      · cases h
      · cases h
      · next noMark noBang =>
        cases h
        exact ⟨.inl fun c first =>
          ⟨ne_of_mem_head? first noMark, ne_of_mem_head? first noBang⟩, rfl⟩
    · next more =>
      refine .inr ⟨more, ?_⟩
      split at h
      · cases h
        exact ⟨[], rfl, .inr ⟨'/', _, rfl, .inr rfl⟩, rfl⟩
      · obtain ⟨body, found⟩ := block h
        exact ⟨body, rfl, .inr ⟨'*', _, rfl, .inl rfl⟩, found⟩
      · cases h
      · cases h
      · next noMark noBang =>
        obtain ⟨body, found⟩ := block h
        exact ⟨body, rfl, .inl fun c first =>
          ⟨ne_of_mem_head? first noMark, ne_of_mem_head? first noBang⟩, found⟩
    · cases h
  · rintro (⟨more, rfl, plain, rfl⟩ | ⟨more, body, rfl, plain, found⟩)
    · obtain first | ⟨c, behind, rfl, rfl | rfl⟩ := plain
      · unfold afterComment?
        simp only
        split
        · exact absurd rfl (first _ rfl).1
        · exact absurd rfl (first _ rfl).1
        · exact absurd rfl (first _ rfl).2
        · rfl
      · rfl
      · rfl
    · have whole : (blockComment? ('/' :: '*' :: more)).map (·.2) = some rest := by
        show (blockBody? 0 more).map (·.2) = some rest
        rw [found]
        rfl
      obtain first | ⟨c, behind, rfl, rfl | rfl⟩ := plain
      · unfold afterComment?
        simp only
        split
        · exact absurd rfl (first _ rfl).1
        · exact absurd rfl (first _ rfl).1
        · exact absurd rfl (first _ rfl).1
        · exact absurd rfl (first _ rfl).2
        · exact whole
      · exact whole
      · cases found
        rfl

/-! ## Comments in small letters -/

/-- The characters that open, close and mark comments. -/
def commentMarks : List Char := ['/', '*', '!', '\n', '\r']

theorem of_mem_commentMarks : ∀ c ∈ commentMarks,
    c.isAscii = true ∧ c.isUpper = false ∧ c.toLower = c ∧ isSmall c = false ∧ c ≠ '_' :=
  List.all_iff_forall_prop.1 (by decide)

theorem eq_of_toLower_mem {c : Char} (ascii : c.isAscii = true)
    (mark : c.toLower ∈ commentMarks) : c.toLower = c :=
  Text.of_isAscii (P := fun c => c.toLower ∈ commentMarks → c.toLower = c) (by decide) ascii mark

/-- A mark stands for itself. -/
theorem snakeChars_cons_of_mem {c : Char} (mark : c ∈ commentMarks) (afterSmall : Bool)
    (rest : List Char) : snakeChars afterSmall (c :: rest) = c :: snakeChars false rest := by
  obtain ⟨ascii, noCapital, same, noSmall, -⟩ := of_mem_commentMarks c mark
  rw [snakeChars_cons ascii, noCapital, same, noSmall]
  rfl

/-- A mark at the front stood there before. -/
theorem exists_of_snakeChars_eq_cons {cs : List Char} (ascii : ∀ c ∈ cs, c.isAscii = true)
    {c : Char} (mark : c ∈ commentMarks) {afterSmall : Bool} {more : List Char}
    (h : snakeChars afterSmall cs = c :: more) :
    ∃ rest, cs = c :: rest ∧ more = snakeChars false rest := by
  cases cs with
  | nil => cases h
  | cons d rest =>
    have here := (List.forall_mem_cons.1 ascii).1
    have image := h
    rw [snakeChars_cons here] at image
    split at image
    · exact absurd (List.cons.inj image).1.symm (of_mem_commentMarks c mark).2.2.2.2
    · have same : d = c := by
        have lower : d.toLower = c := (List.cons.inj image).1
        rw [← lower, eq_of_toLower_mem here (lower ▸ mark)]
      subst same
      rw [snakeChars_cons_of_mem mark] at h
      exact ⟨rest, rfl, (List.cons.inj h).2.symm⟩

section Ascii

variable {cs : List Char} (ascii : ∀ c ∈ cs, c.isAscii = true)
include ascii

theorem restOfLine_snakeChars (afterSmall : Bool) :
    (restOfLine (snakeChars afterSmall cs)).2 = snakeChars false (restOfLine cs).2 := by
  fun_induction restOfLine cs generalizing afterSmall with
  | case1 => rfl
  | case2 rest =>
    rw [snakeChars_cons_of_mem (by decide), snakeChars_cons_of_mem (by decide)]
    rfl
  | case3 rest =>
    rw [snakeChars_cons_of_mem (by decide), snakeChars_cons_of_mem (by decide)]
    rfl
  | case4 c rest noBreak noReturn ih =>
    obtain ⟨here, others⟩ := List.forall_mem_cons.1 ascii
    -- a line break in small letters was one before, and an underscore is none
    have lower : (restOfLine (c.toLower :: snakeChars (isSmall c) rest)).2 =
        (restOfLine (snakeChars (isSmall c) rest)).2 := by
      rw [restOfLine]
      · intro same
        rw [eq_of_toLower_mem here (same ▸ by decide)] at same
        exact noBreak same
      · intro more same front
        rw [eq_of_toLower_mem here (same ▸ by decide)] at same
        obtain ⟨behind, shape, -⟩ := exists_of_snakeChars_eq_cons others (by decide) front
        exact noReturn behind same shape
    rw [snakeChars_cons here]
    split
    · exact lower.trans (ih others _)
    · exact lower.trans (ih others _)

theorem blockBody?_snakeChars {depth : Nat} {body rest : List Char}
    (h : blockBody? depth cs = some (body, rest)) (afterSmall : Bool) :
    ∃ other, blockBody? depth (snakeChars afterSmall cs) = some (other, snakeChars false rest) := by
  fun_induction blockBody? depth cs generalizing body afterSmall with
  | case1 depth after ih =>
    obtain ⟨⟨inner, _⟩, found, same⟩ := Option.bind_eq_some_iff.1 h
    cases same
    obtain ⟨other, read⟩ := ih (fun c member => ascii c (by simp [member])) found false
    rw [snakeChars_cons_of_mem (by decide), snakeChars_cons_of_mem (by decide)]
    exact ⟨_, Option.bind_eq_some_iff.2 ⟨_, read, rfl⟩⟩
  | case2 after =>
    cases h
    rw [snakeChars_cons_of_mem (by decide), snakeChars_cons_of_mem (by decide)]
    exact ⟨[], rfl⟩
  | case3 depth after ih =>
    obtain ⟨⟨inner, _⟩, found, same⟩ := Option.bind_eq_some_iff.1 h
    cases same
    obtain ⟨other, read⟩ := ih (fun c member => ascii c (by simp [member])) found false
    rw [snakeChars_cons_of_mem (by decide), snakeChars_cons_of_mem (by decide)]
    exact ⟨_, Option.bind_eq_some_iff.2 ⟨_, read, rfl⟩⟩
  | case4 depth c after noOpening noClosing ih =>
    obtain ⟨⟨inner, _⟩, found, same⟩ := Option.bind_eq_some_iff.1 h
    cases same
    obtain ⟨here, others⟩ := List.forall_mem_cons.1 ascii
    obtain ⟨other, read⟩ := ih others found (isSmall c)
    -- what opens or closes a comment in small letters did so before
    have lower : blockBody? depth (c.toLower :: snakeChars (isSmall c) after) =
        some (c.toLower :: other, snakeChars false rest) := by
      rw [blockBody?, read]
      · rfl
      · intro more same front
        rw [eq_of_toLower_mem here (same ▸ by decide)] at same
        obtain ⟨behind, shape, -⟩ := exists_of_snakeChars_eq_cons others (by decide) front
        exact noOpening behind same shape
      · intro more same front
        rw [eq_of_toLower_mem here (same ▸ by decide)] at same
        obtain ⟨behind, shape, -⟩ := exists_of_snakeChars_eq_cons others (by decide) front
        exact noClosing behind same shape
    rw [snakeChars_cons here]
    split
    · exact ⟨_, Option.bind_eq_some_iff.2 ⟨_, lower, rfl⟩⟩
    · exact ⟨_, lower⟩
  | case5 => cases h

theorem Undocumented.snakeChars {mark : Char} (isMark : mark ∈ ['/', '*'])
    (plain : Undocumented mark cs) : Undocumented mark (snakeChars false cs) := by
  have among : mark ∈ commentMarks := by
    obtain rfl | rfl := List.mem_pair.1 isMark <;> decide
  obtain first | ⟨c, behind, rfl, marks⟩ := plain
  · refine .inl fun c front => ?_
    obtain ⟨more, shape⟩ := List.head?_eq_some_iff.1 front
    constructor
    · rintro rfl
      obtain ⟨rest, rfl, -⟩ := exists_of_snakeChars_eq_cons ascii among shape
      exact (first c rfl).1 rfl
    · rintro rfl
      obtain ⟨rest, rfl, -⟩ := exists_of_snakeChars_eq_cons ascii (by decide) shape
      exact (first '!' rfl).2 rfl
  · have other : c ∈ commentMarks := by
      obtain rfl | rfl := marks
      · exact among
      · decide
    rw [snakeChars_cons_of_mem among, snakeChars_cons_of_mem other]
    exact .inr ⟨c, _, rfl, marks⟩

theorem afterComment?_snakeChars {rest : List Char} (h : afterComment? cs = some rest) :
    afterComment? (snakeChars false cs) = some (snakeChars false rest) := by
  rw [afterComment?_eq_some_iff] at h ⊢
  obtain ⟨more, rfl, plain, rfl⟩ | ⟨more, body, rfl, plain, found⟩ := h
  · have others : ∀ c ∈ more, c.isAscii = true := fun c member => ascii c (by simp [member])
    rw [snakeChars_cons_of_mem (by decide), snakeChars_cons_of_mem (by decide)]
    exact .inl ⟨_, rfl, plain.snakeChars others (by decide), restOfLine_snakeChars others false⟩
  · have others : ∀ c ∈ more, c.isAscii = true := fun c member => ascii c (by simp [member])
    rw [snakeChars_cons_of_mem (by decide), snakeChars_cons_of_mem (by decide)]
    obtain ⟨other, read⟩ := blockBody?_snakeChars others found false
    exact .inr ⟨_, other, rfl, plain.snakeChars others (by decide), read⟩

/-- Blanks and comments lead to the same place in small letters. -/
theorem Skips.snakeChars {after : List Char} (skips : Skips cs after) :
    Skips (snakeChars false cs) (snakeChars false after) := by
  induction skips with
  | none cs => exact .none _
  | @blank c rest after space more ih =>
    obtain ⟨here, others⟩ := List.forall_mem_cons.1 ascii
    obtain ⟨noCapital, noSmall⟩ : c.isUpper = false ∧ isSmall c = false :=
      Text.of_isAscii (P := fun c => isSpace c = true → c.isUpper = false ∧ isSmall c = false)
        (by decide) here space
    rw [snakeChars_cons here, noCapital, noSmall, Text.toLower_of_isUpper_eq_false here noCapital]
    exact .blank space (ih others)
  | @comment cs rest after found more ih =>
    obtain ⟨c, behind, rfl, shorter⟩ := suffix_of_afterComment? found
    have others : ∀ c ∈ rest, c.isAscii = true := fun c member =>
      ascii c (List.mem_cons_of_mem _ (shorter.subset member))
    exact .comment (afterComment?_snakeChars ascii found) (ih others)

end Ascii

end Code.Lexer

/-! ## Names in small letters -/

namespace Code

open Lexer

/-- The characters of an identifier, with a raw mark or not. -/
structure Wordlike (cs : List Char) : Prop where
  /-- The first one may start an identifier. -/
  starts : ∃ first more, cs = first :: more ∧ Text.startsIdentifier first = true
  /-- Hash marks apart, they continue an identifier. -/
  continues : ∀ c ∈ cs, (Text.isXidContinue c || c == '#') = true

theorem wordlike_of_isLegal {name : String} (legal : isLegal name = true) :
    Wordlike name.toList :=
  ⟨exists_first_of_isLegal legal, fun c member => by
    simpa using isXidContinue_of_isLegal legal member⟩

theorem Wordlike.snakeChars {cs : List Char} (word : Wordlike cs)
    (ascii : ∀ c ∈ cs, c.isAscii = true) : Wordlike (snakeChars false cs) := by
  obtain ⟨⟨first, more, rfl, starts⟩, continues⟩ := word
  have here := (List.forall_mem_cons.1 ascii).1
  have lower : Text.startsIdentifier first.toLower = true :=
    Text.of_isAscii (P := fun c => Text.startsIdentifier c = true →
      Text.startsIdentifier c.toLower = true) (by decide) here starts
  refine ⟨⟨first.toLower, Naming.snakeChars (isSmall first) more, ?_, lower⟩, ?_⟩
  · rw [snakeChars_cons here, Bool.and_false]
    rfl
  · refine forall_mem_snakeChars (by decide) ascii (fun c member => ?_) false
    exact Text.of_isAscii (P := fun c => (Text.isXidContinue c || c == '#') = true →
      (Text.isXidContinue c.toLower || c.toLower == '#') = true) (by decide) (ascii c member)
      (continues c member)

theorem Wordlike.solid {cs : List Char} (word : Wordlike cs) (after : List Char) :
    Solid (cs ++ after) := by
  obtain ⟨⟨first, more, rfl, starts⟩, -⟩ := word
  have continues := Text.isXidContinue_of_startsIdentifier starts
  refine (solid_cons (isSpace_of_continues (.inl continues)) fun slash => ?_).1
  rw [slash] at continues
  exact absurd continues (by decide)

theorem takeWhile_of_wordlike {cs after : List Char} (word : Wordlike cs)
    (stops : StopsWord after) :
    (cs ++ after).takeWhile (fun c => Text.isXidContinue c || c == '#') = cs := by
  rw [List.takeWhile_append_of_pos word.continues]
  cases after with
  | nil => exact List.append_nil cs
  | cons c after =>
    obtain ⟨ends, mark⟩ := stops c rfl
    have other : c ≠ '#' := fun same => mark (by simp [same])
    rw [List.takeWhile_cons_of_neg (by simp [ends, other]), List.append_nil]

/-- A text encloses one name. -/
theorem Encloses.unique {text name other : String} (encloses : Encloses text name)
    (otherEncloses : Encloses text other) (word : Wordlike name.toList)
    (otherWord : Wordlike other.toList) : name = other := by
  obtain ⟨after, before, behind⟩ := encloses
  obtain ⟨otherAfter, otherBefore, otherBehind⟩ := otherEncloses
  have place := (skipSpace_eq_iff (Nat.lt_succ_self _)).2 ⟨before, word.solid after⟩
  have otherPlace :=
    (skipSpace_eq_iff (Nat.lt_succ_self _)).2 ⟨otherBefore, otherWord.solid otherAfter⟩
  rw [← String.toList_inj, ← takeWhile_of_wordlike word (stopsWord_of_skips behind), ← place,
    otherPlace, takeWhile_of_wordlike otherWord (stopsWord_of_skips otherBehind)]

theorem withoutByteOrderMark_of_isAscii {cs : List Char} (ascii : ∀ c ∈ cs, c.isAscii = true) :
    withoutByteOrderMark cs = cs := by
  unfold withoutByteOrderMark
  split
  · exact absurd (ascii '\ufeff' List.mem_cons_self) (by decide)
  · rfl

theorem Encloses.isAscii {text name : String} (ascii : Text.IsAscii text)
    (encloses : Encloses text name) : Text.IsAscii name := by
  obtain ⟨after, before, -⟩ := encloses
  rw [withoutByteOrderMark_of_isAscii ascii] at before
  exact fun c member => ascii c (before.suffix.subset (List.mem_append_left _ member))

/-- The snake case of a text encloses the snake case of its name. -/
theorem Encloses.snakeCase {text name : String} (ascii : Text.IsAscii text)
    (encloses : Encloses text name) : Encloses (snakeCase text) (snakeCase name) := by
  have nameAscii := encloses.isAscii ascii
  obtain ⟨after, before, behind⟩ := encloses
  rw [withoutByteOrderMark_of_isAscii ascii] at before
  have afterAscii : ∀ c ∈ after, c.isAscii = true := fun c member =>
    ascii c (before.suffix.subset (List.mem_append_right _ member))
  -- no capital follows the name, so it does not matter what the name ends in
  have apart (afterSmall : Bool) : snakeChars afterSmall after = snakeChars false after := by
    cases after with
    | nil => rfl
    | cons c rest =>
      obtain ⟨here, -⟩ := List.forall_mem_cons.1 afterAscii
      have noCapital : c.isUpper = false :=
        Text.of_isAscii (P := fun c => Text.isXidContinue c = false → c.isUpper = false)
          (by decide) here (stopsWord_of_skips behind c rfl).1
      rw [snakeChars_cons here, snakeChars_cons here, noCapital]
      rfl
  refine ⟨snakeChars false after, ?_, behind.snakeChars afterAscii⟩
  rw [withoutByteOrderMark_of_isAscii (isAscii_snakeCase ascii), toList_snakeCase, toList_snakeCase,
    ← apart, ← snakeChars_append nameAscii]
  exact before.snakeChars ascii

end Code

/-! ## Constructors -/

namespace Optics.Prism

/-- The constructor is the snake case of the name of the case. -/
theorem constructor_eq_snakeCase {set : VariantSet} {base : List FieldCode} {variant : Variant}
    {code : VariantCode} (h : VariantCode.ofVariant set base variant = .ok code)
    (ascii : Text.IsAscii variant.name) :
    Text.IsAscii code.name ∧ code.constructor = snakeCase code.name := by
  have reads := readsVariant_of_ofVariant h
  obtain ⟨-, nameRead⟩ := ModelText.identifier_eq_ok_iff.1 reads.name
  obtain ⟨-, constructorRead⟩ := ModelText.identifier_eq_ok_iff.1 reads.constructor
  obtain ⟨nameLegal, -, nameEncloses⟩ := Code.Node.identifier?_eq_some_iff.1 nameRead
  obtain ⟨legal, -, encloses⟩ := Code.Node.identifier?_eq_some_iff.1 constructorRead
  have nameAscii := nameEncloses.isAscii ascii
  have word : Code.Wordlike (snakeCase code.name).toList := by
    rw [toList_snakeCase]
    exact (Code.wordlike_of_isLegal nameLegal).snakeChars nameAscii
  exact ⟨nameAscii,
    encloses.unique (nameEncloses.snakeCase ascii) (Code.wordlike_of_isLegal legal) word⟩

end Optics.Prism

/-! ## Main statement -/

namespace Naming

open Optics.Prism

/-- The snake case of an ASCII text is the text in small letters, with an underscore directly before
each capital that stands directly behind a small letter or a digit, and with no other character put
in; it holds no capital and stays as it is in snake case. Two names share the result, the module of
a file or the constructor of a case only if they are equal up to case and underscores. -/
theorem snakeCase_faithful {text other : String} (ascii : Text.IsAscii text)
    (otherAscii : Text.IsAscii other) :
    (∀ c ∈ (snakeCase text).toList, c.isAscii = true ∧ c.isUpper = false) ∧
    SnakeCased text.toList (snakeCase text).toList ∧
    snakeCase (snakeCase text) = snakeCase text ∧
    (snakeCase text = snakeCase other → folded text = folded other) ∧
    (keysModule text = keysModule other → folded text = folded other) ∧
    (∀ task otherTask : Task,
      task.declaredName? = some text → otherTask.declaredName? = some other →
      task.fileModule = otherTask.fileModule → folded text = folded other) ∧
    ∀ (set : VariantSet) (base : List Optics.FieldCode) (variant otherVariant : Variant)
      (code otherCode : VariantCode),
      variant.name = text → otherVariant.name = other →
      VariantCode.ofVariant set base variant = .ok code →
      VariantCode.ofVariant set base otherVariant = .ok otherCode →
      code.constructor = otherCode.constructor → folded code.name = folded otherCode.name := by
  refine ⟨fun c member => ?_, ?_, snakeCase_snakeCase ascii,
    folded_eq_of_snakeCase_eq ascii otherAscii, folded_eq_of_keysModule_eq ascii otherAscii, ?_, ?_⟩
  · exact ⟨isAscii_snakeCase ascii c member, isUpper_of_mem_snakeCase ascii c member⟩
  · rw [toList_snakeCase]
    exact snakeCased_snakeChars ascii
  · intro task otherTask declared otherDeclared
    exact Task.folded_eq_of_fileModule_eq declared otherDeclared ascii otherAscii
  · rintro set base variant otherVariant code otherCode rfl rfl read otherRead same
    obtain ⟨nameAscii, constructor⟩ := constructor_eq_snakeCase read ascii
    obtain ⟨otherNameAscii, otherConstructor⟩ := constructor_eq_snakeCase otherRead otherAscii
    rw [constructor, otherConstructor] at same
    exact folded_eq_of_snakeCase_eq nameAscii otherNameAscii same

/-- A record, a key group and two variants whose names fall together. -/
theorem snakeCase_faithful_user2Keys :
    Text.IsAscii "User2Keys" ∧ Text.IsAscii "user2_keys" ∧ marks "User2Keys".toList = [5] ∧
      SnakeCased "User2Keys".toList "user2_keys".toList ∧
      snakeCase "User2Keys" = snakeCase "user2_keys" ∧
      keysModule "User2Keys" = keysModule "user2_keys" ∧
      (Task.lens 0 (.new "User2Keys")).declaredName? = some "User2Keys" ∧
      (Task.keys 0 (.new "user2" 1)).declaredName? = some "user2_keys" ∧
      (Task.lens 0 (.new "User2Keys")).fileModule = (Task.keys 0 (.new "user2" 1)).fileModule ∧
      folded "User2Keys" = folded "user2_keys" ∧
      ∃ code otherCode,
        VariantCode.ofVariant (.new "Store") [] (.new "User2Keys") = .ok code ∧
        VariantCode.ofVariant (.new "Store") [] (.new "user2_keys") = .ok otherCode ∧
        code.constructor = otherCode.constructor ∧ code.name ≠ otherCode.name ∧
        folded code.name = folded otherCode.name := by
  have ascii : Text.IsAscii "User2Keys" := by decide
  have otherAscii : Text.IsAscii "user2_keys" := by decide
  obtain ⟨code, read, names⟩ := Outcome.map_eq_ok_iff.1
    (show (fun code : VariantCode => (code.name, code.constructor)) <$>
      VariantCode.ofVariant (.new "Store") [] (.new "User2Keys") =
        .ok ("User2Keys", "user2_keys") by decide +kernel)
  obtain ⟨otherCode, otherRead, otherNames⟩ := Outcome.map_eq_ok_iff.1
    (show (fun code : VariantCode => (code.name, code.constructor)) <$>
      VariantCode.ofVariant (.new "Store") [] (.new "user2_keys") =
        .ok ("user2_keys", "user2_keys") by decide +kernel)
  obtain ⟨name, constructor⟩ := Prod.mk.inj names
  obtain ⟨otherName, otherConstructor⟩ := Prod.mk.inj otherNames
  obtain ⟨-, cased, -, -, -, foldFiles, foldCases⟩ := snakeCase_faithful ascii otherAscii
  have sameCase := constructor.trans otherConstructor.symm
  have sameFile : (Task.lens 0 (.new "User2Keys")).fileModule =
      (Task.keys 0 (.new "user2" 1)).fileModule := by decide
  refine ⟨ascii, otherAscii, by decide, cased, by decide, by decide, rfl, by decide, sameFile,
    foldFiles _ _ rfl (by decide) sameFile, code, otherCode, read, otherRead, sameCase, ?_,
    foldCases _ _ _ _ _ _ rfl rfl read otherRead sameCase⟩
  rw [name, otherName]
  decide

end Naming

end Slotwise
