import Mathlib.Data.Bool.AllAny
import Mathlib.Data.List.Induction
import Mathlib.Data.Nat.Count
import Slotwise.Job
/-!
# Names in small letters

`Naming.snakeChars` reads a name once, with a flag for whether a small letter or a digit came just
before. So what it writes for one more character depends on the character before it alone
(`Naming.snakeChars_append`), and induction from the end of the name says where every character and
every underscore goes (`Naming.snakeCased_snakeChars`). A text without capitals stays as it is
(`Naming.snakeChars_of_isUpper_eq_false`).

Two names with the same result are equal up to case and underscores
(`Naming.folded_eq_of_snakeCase_eq`). The file modules of declarations lose nothing else
(`Task.folded_eq_of_fileModule_eq`).
-/

namespace Slotwise

/-! ## Characters of ASCII texts -/

namespace Text

/-- All characters of the text are ASCII. -/
def IsAscii (text : String) : Prop :=
  ∀ c ∈ text.toList, c.isAscii = true

instance (text : String) : Decidable (IsAscii text) :=
  List.decidableBAll _ text.toList

theorem isAscii_append_iff {text suffix : String} :
    IsAscii (text ++ suffix) ↔ IsAscii text ∧ IsAscii suffix := by
  unfold IsAscii
  rw [String.toList_append]
  exact List.forall_mem_append

/-- What holds of the first 128 codes holds of every ASCII character. -/
theorem of_isAscii {P : Char → Prop} (all : ∀ code < 128, P (Char.ofNat code))
    {c : Char} (ascii : c.isAscii = true) : P c := by
  have holds := all c.toNat (of_decide_eq_true ascii)
  rwa [Char.ofNat_toNat] at holds

section Ascii

variable {c : Char} (ascii : c.isAscii = true)
include ascii

theorem isUpper_of_isAscii : isUpper c = c.isUpper := by
  rw [isUpper, if_pos (of_decide_eq_true ascii)]
  exact (Bool.decide_and _ _).symm

theorem isLower_of_isAscii : isLower c = c.isLower := by
  rw [isLower, if_pos (of_decide_eq_true ascii)]
  rfl

theorem toLower_of_isAscii : toLower c = [c.toLower] :=
  toLower_of_ascii (of_decide_eq_true ascii)

theorem isAscii_toLower : c.toLower.isAscii = true :=
  of_isAscii (P := fun c => c.toLower.isAscii = true) (by decide) ascii

theorem isUpper_toLower : c.toLower.isUpper = false :=
  of_isAscii (P := fun c => c.toLower.isUpper = false) (by decide) ascii

theorem toLower_of_isUpper_eq_false (other : c.isUpper = false) : c.toLower = c :=
  of_isAscii (P := fun c => c.isUpper = false → c.toLower = c) (by decide) ascii other

end Ascii

end Text

namespace Naming

/-! ## What the words of a name are -/

/-- Small letters and digits. -/
def isSmall (c : Char) : Bool := c.isLower || c.isDigit

/-- A capital stands at this position, directly behind a small letter or a digit. -/
def StartsWord (cs : List Char) (i : Nat) : Prop :=
  0 < i ∧ cs[i]?.any Char.isUpper = true ∧ cs[i - 1]?.any isSmall = true

instance (cs : List Char) : DecidablePred (StartsWord cs) := fun i =>
  inferInstanceAs (Decidable
    (0 < i ∧ cs[i]?.any Char.isUpper = true ∧ cs[i - 1]?.any isSmall = true))

/-- Where the underscores before the starts of words stand in the result: each one further on by
those before it. -/
def marks (cs : List Char) : List Nat :=
  ((List.range cs.length).filter (StartsWord cs)).map fun i => i + Nat.count (StartsWord cs) i

/-- The characters without those at the given positions. -/
def withoutAt (positions : List Nat) (cs : List Char) : List Char :=
  (cs.zipIdx.filter fun entry => entry.2 ∉ positions).map (·.1)

/-- The result has the characters of the text in small letters, and one underscore directly before
each start of a word and nowhere else. -/
structure SnakeCased (cs result : List Char) : Prop where
  /-- One more character for each start of a word. -/
  length : result.length = cs.length + Nat.count (StartsWord cs) cs.length
  /-- Each character stands in small letters behind the underscores of the words up to it. -/
  image : ∀ i c, cs[i]? = some c →
    result[i + Nat.count (StartsWord cs) (i + 1)]? = some c.toLower
  /-- Directly before the image of the start of a word stands an underscore. -/
  mark : ∀ i, StartsWord cs i → result[i + Nat.count (StartsWord cs) i]? = some '_'
  /-- Without these underscores the result is the text in small letters. -/
  without : withoutAt (marks cs) result = cs.map Char.toLower

/-- The characters of the text in small letters, without underscores. -/
def folded (text : String) : List Char :=
  text.toLower.toList.filter (· ≠ '_')

/-! ## One character more -/

theorem isSmall_of_isAscii {c : Char} (ascii : c.isAscii = true) :
    (Text.isLower c || c.isDigit) = isSmall c := by
  rw [Text.isLower_of_isAscii ascii, isSmall]

theorem isSmall_of_isUpper {c : Char} (ascii : c.isAscii = true) (capital : c.isUpper = true) :
    isSmall c = false :=
  Text.of_isAscii (P := fun c => c.isUpper = true → isSmall c = false) (by decide) ascii capital

/-- What stands for one character, behind a small letter or a digit or not. -/
theorem snakeChars_cons {c : Char} (ascii : c.isAscii = true) (afterSmall : Bool)
    (rest : List Char) :
    snakeChars afterSmall (c :: rest) =
      (if c.isUpper && afterSmall then ['_', c.toLower] else [c.toLower]) ++
        snakeChars (isSmall c) rest := by
  rw [snakeChars, Text.isUpper_of_isAscii ascii]
  cases capital : c.isUpper with
  | true =>
    rw [if_pos rfl, Text.toLower_of_isAscii ascii, isSmall_of_isUpper ascii capital]
    cases afterSmall <;> rfl
  | false =>
    rw [if_neg Bool.false_ne_true, isSmall_of_isAscii ascii,
      Text.toLower_of_isUpper_eq_false ascii capital]
    rfl

/-- What follows depends on the last character before it. -/
theorem snakeChars_append {cs : List Char} (ascii : ∀ c ∈ cs, c.isAscii = true)
    (afterSmall : Bool) (more : List Char) :
    snakeChars afterSmall (cs ++ more) =
      snakeChars afterSmall cs ++ snakeChars ((cs.getLast?.map isSmall).getD afterSmall) more := by
  induction cs generalizing afterSmall with
  | nil => rfl
  | cons c rest ih =>
    obtain ⟨here, others⟩ := List.forall_mem_cons.1 ascii
    rw [List.cons_append, snakeChars_cons here, snakeChars_cons here, ih others, List.append_assoc,
      List.getLast?_cons, Option.map_some, Option.getD_some]
    cases rest.getLast? <;> rfl

section Concat

variable {cs : List Char} {c : Char}

theorem StartsWord.lt {i : Nat} (starts : StartsWord cs i) : i < cs.length := by
  obtain ⟨-, capital, -⟩ := starts
  obtain ⟨d, found, -⟩ := Option.any_eq_true _ _ |>.1 capital
  exact (List.getElem?_eq_some_iff.1 found).1

theorem startsWord_concat_of_lt {i : Nat} (within : i < cs.length) :
    StartsWord (cs ++ [c]) i ↔ StartsWord cs i := by
  unfold StartsWord
  rw [List.getElem?_append_left within,
    List.getElem?_append_left (Nat.lt_of_le_of_lt (Nat.sub_le i 1) within)]

theorem startsWord_concat_length :
    StartsWord (cs ++ [c]) cs.length ↔ (c.isUpper && cs.getLast?.any isSmall) = true := by
  unfold StartsWord
  rw [List.getElem?_concat_length, Option.any_some, Bool.and_eq_true]
  cases cs with
  | nil => simp
  | cons d cs =>
    rw [List.getLast?_eq_getElem?, List.getElem?_append_left (by simp)]
    simp

theorem count_concat {i : Nat} (within : i ≤ cs.length) :
    Nat.count (StartsWord (cs ++ [c])) i = Nat.count (StartsWord cs) i := by
  induction i with
  | zero => rfl
  | succ i ih =>
    rw [Nat.count_succ, Nat.count_succ, ih (Nat.le_of_succ_le within)]
    simp only [startsWord_concat_of_lt within]

theorem marks_concat :
    marks (cs ++ [c]) = marks cs ++
      if StartsWord (cs ++ [c]) cs.length then
        [cs.length + Nat.count (StartsWord cs) cs.length] else [] := by
  have before : (List.range cs.length).filter (StartsWord (cs ++ [c])) =
      (List.range cs.length).filter (StartsWord cs) :=
    List.filter_congr fun i member => by
      simp only [startsWord_concat_of_lt (List.mem_range.1 member)]
  have shifted : ∀ i ∈ (List.range cs.length).filter (StartsWord cs),
      i + Nat.count (StartsWord (cs ++ [c])) i = i + Nat.count (StartsWord cs) i := by
    intro i member
    rw [count_concat (List.mem_range.1 (List.mem_filter.1 member).1).le]
  rw [marks, List.length_append, List.length_singleton, List.range_succ, List.filter_append,
    List.map_append, before, List.map_congr_left shifted, marks]
  by_cases starts : StartsWord (cs ++ [c]) cs.length
  · simp [starts, count_concat (Nat.le_refl cs.length)]
  · simp [starts]

end Concat

theorem withoutAt_concat (positions : List Nat) (cs : List Char) (c : Char) :
    withoutAt positions (cs ++ [c]) =
      withoutAt positions cs ++ if cs.length ∈ positions then [] else [c] := by
  rw [withoutAt, List.zipIdx_append, List.filter_append, List.map_append, withoutAt]
  by_cases among : cs.length ∈ positions <;> simp [among]

theorem withoutAt_congr {positions others : List Nat} {cs : List Char}
    (same : ∀ i < cs.length, (i ∈ positions ↔ i ∈ others)) :
    withoutAt positions cs = withoutAt others cs := by
  refine congrArg _ (List.filter_congr fun entry member => ?_)
  have within : entry.2 < cs.length := by
    have bound := List.snd_lt_of_mem_zipIdx member
    omega
  simp only [same entry.2 within]

section Bounded

variable {positions : List Nat} {cs : List Char}
  (bound : ∀ position ∈ positions, position < cs.length)
include bound

theorem withoutAt_unmarked (c : Char) :
    withoutAt positions (cs ++ [c]) = withoutAt positions cs ++ [c] := by
  have fresh : cs.length ∉ positions := fun member => Nat.lt_irrefl _ (bound _ member)
  rw [withoutAt_concat, if_neg fresh]

/-- A mark behind all characters so far goes. -/
theorem withoutAt_marked (mark c : Char) :
    withoutAt (positions ++ [cs.length]) (cs ++ [mark, c]) = withoutAt positions cs ++ [c] := by
  have unchanged : withoutAt (positions ++ [cs.length]) cs = withoutAt positions cs := by
    refine withoutAt_congr fun i inside => ?_
    rw [List.mem_append, List.mem_singleton]
    exact ⟨fun member => member.resolve_right inside.ne, .inl⟩
  have fresh : ∀ position ∈ positions ++ [cs.length], position < (cs ++ [mark]).length := by
    rw [List.length_append, List.length_singleton]
    refine List.forall_mem_append.2 ⟨fun position member => ?_, by simp⟩
    exact Nat.lt_succ_of_lt (bound position member)
  rw [List.append_cons cs, withoutAt_unmarked fresh, withoutAt_concat, if_pos (by simp),
    List.append_nil, unchanged]

end Bounded

theorem getElem?_append_of_eq_some {cs more : List Char} {i : Nat} {c : Char}
    (found : cs[i]? = some c) : (cs ++ more)[i]? = some c := by
  rw [List.getElem?_append_left (List.getElem?_eq_some_iff.1 found).1, found]

theorem SnakeCased.lt_of_mem_marks {cs result : List Char} (cased : SnakeCased cs result) {i : Nat}
    (member : i ∈ marks cs) : i < result.length := by
  obtain ⟨start, among, rfl⟩ := List.mem_map.1 member
  have found := cased.mark start (of_decide_eq_true (List.mem_filter.1 among).2)
  exact (List.getElem?_eq_some_iff.1 found).1

/-- One character more, with an underscore before it if a word starts there. -/
theorem SnakeCased.concat {cs result : List Char} (cased : SnakeCased cs result) (c : Char) :
    SnakeCased (cs ++ [c]) (result ++
      if StartsWord (cs ++ [c]) cs.length then ['_', c.toLower] else [c.toLower]) := by
  have all : Nat.count (StartsWord (cs ++ [c])) (cs.length + 1) =
      Nat.count (StartsWord cs) cs.length +
        if StartsWord (cs ++ [c]) cs.length then 1 else 0 := by
    rw [Nat.count_succ, count_concat (Nat.le_refl _)]
  have within {i : Nat} (inside : i < (cs ++ [c]).length) : i < cs.length ∨ i = cs.length := by
    rw [List.length_append, List.length_singleton] at inside
    exact Nat.lt_succ_iff_lt_or_eq.1 inside
  refine ⟨?length, ?image, ?mark, ?without⟩
  case length =>
    rw [List.length_append, List.length_append, List.length_singleton, all, cased.length]
    split <;> simp only [List.length_cons, List.length_nil] <;> omega
  case image =>
    intro i d found
    obtain before | rfl := within (List.getElem?_eq_some_iff.1 found).1
    · rw [List.getElem?_append_left before] at found
      rw [count_concat before]
      exact getElem?_append_of_eq_some (cased.image i d found)
    · -- the new image comes last, behind the new underscore if there is one
      rw [List.getElem?_concat_length] at found
      cases found
      rw [all, List.getElem?_append_right (by rw [cased.length]; omega), cased.length]
      split
      · rw [show cs.length + (Nat.count (StartsWord cs) cs.length + 1) -
          (cs.length + Nat.count (StartsWord cs) cs.length) = 1 by omega]
        rfl
      · rw [Nat.add_zero, Nat.sub_self]
        rfl
  case mark =>
    intro i starts
    obtain before | rfl := within starts.lt
    · rw [count_concat before.le]
      exact getElem?_append_of_eq_some (cased.mark i ((startsWord_concat_of_lt before).1 starts))
    · rw [if_pos starts, count_concat (Nat.le_refl _), ← cased.length,
        List.getElem?_append_right (Nat.le_refl _), Nat.sub_self]
      rfl
  case without =>
    rw [List.map_append, ← cased.without, marks_concat, ← cased.length]
    have bound : ∀ position ∈ marks cs, position < result.length := fun _ => cased.lt_of_mem_marks
    split
    · exact withoutAt_marked bound '_' c.toLower
    · rw [List.append_nil]
      exact withoutAt_unmarked bound c.toLower

/-- The name in small letters, with one underscore directly before each start of a word and nowhere
else. -/
theorem snakeCased_snakeChars {cs : List Char} (ascii : ∀ c ∈ cs, c.isAscii = true) :
    SnakeCased cs (snakeChars false cs) := by
  induction cs using List.reverseRecOn with
  | nil =>
    refine ⟨rfl, fun i c found => ?_, fun i starts => ?_, rfl⟩
    · cases found
    · exact absurd starts.lt (Nat.not_lt_zero i)
  | append_singleton cs c ih =>
    obtain ⟨before, here⟩ := List.forall_mem_append.1 ascii
    have cased := (ih before).concat c
    -- the flag of the scan says what the positions say: a small letter or a digit comes last
    have flag : (cs.getLast?.map isSmall).getD false = cs.getLast?.any isSmall := by
      cases cs.getLast? <;> rfl
    rw [snakeChars_append before, snakeChars_cons (here c (List.mem_singleton_self c)), flag]
    simpa only [startsWord_concat_length, snakeChars, List.append_nil] using cased

example : snakeCase "HTTPPort2X" = "httpport2_x" ∧ marks "HTTPPort2X".toList = [9] := by decide

/-! ## Results stay as they are -/

theorem snakeChars_of_isUpper_eq_false {cs : List Char} (small : ∀ c ∈ cs, Text.isUpper c = false)
    (afterSmall : Bool) : snakeChars afterSmall cs = cs := by
  induction cs generalizing afterSmall with
  | nil => rfl
  | cons c rest ih =>
    obtain ⟨here, others⟩ := List.forall_mem_cons.1 small
    rw [snakeChars, here, if_neg Bool.false_ne_true, ih others]

/-- An ending without capitals stays as it is. -/
theorem snakeChars_append_of_isUpper_eq_false {suffix : List Char}
    (small : ∀ c ∈ suffix, Text.isUpper c = false) (afterSmall : Bool) (cs : List Char) :
    snakeChars afterSmall (cs ++ suffix) = snakeChars afterSmall cs ++ suffix := by
  induction cs generalizing afterSmall with
  | nil => exact snakeChars_of_isUpper_eq_false small afterSmall
  | cons c rest ih =>
    rw [List.cons_append, snakeChars, snakeChars]
    split <;> simp only [ih, List.append_assoc, List.cons_append]

theorem forall_mem_snakeChars {P : Char → Prop} (mark : P '_') {cs : List Char}
    (ascii : ∀ c ∈ cs, c.isAscii = true) (image : ∀ c ∈ cs, P c.toLower)
    (afterSmall : Bool) : ∀ c ∈ snakeChars afterSmall cs, P c := by
  induction cs generalizing afterSmall with
  | nil => exact fun c impossible => absurd impossible List.not_mem_nil
  | cons c rest ih =>
    obtain ⟨here, others⟩ := List.forall_mem_cons.1 ascii
    obtain ⟨imageHere, imageOthers⟩ := List.forall_mem_cons.1 image
    rw [snakeChars_cons here, List.forall_mem_append]
    refine ⟨?_, ih others imageOthers (isSmall c)⟩
    split
    · simpa using ⟨mark, imageHere⟩
    · simpa using imageHere

theorem toList_snakeCase (text : String) :
    (snakeCase text).toList = snakeChars false text.toList :=
  String.toList_ofList

section Ascii

variable {text : String} (ascii : Text.IsAscii text)
include ascii

theorem isAscii_snakeCase : Text.IsAscii (snakeCase text) := by
  have image : ∀ c ∈ text.toList, c.toLower.isAscii = true := fun c member =>
    Text.isAscii_toLower (ascii c member)
  unfold Text.IsAscii
  rw [toList_snakeCase]
  exact forall_mem_snakeChars (by decide) ascii image false

theorem isUpper_of_mem_snakeCase : ∀ c ∈ (snakeCase text).toList, c.isUpper = false := by
  have image : ∀ c ∈ text.toList, c.toLower.isUpper = false := fun c member =>
    Text.isUpper_toLower (ascii c member)
  rw [toList_snakeCase]
  exact forall_mem_snakeChars (by decide) ascii image false

theorem snakeCase_snakeCase : snakeCase (snakeCase text) = snakeCase text := by
  have small : ∀ c ∈ (snakeCase text).toList, Text.isUpper c = false := fun c member => by
    rw [Text.isUpper_of_isAscii (isAscii_snakeCase ascii c member)]
    exact isUpper_of_mem_snakeCase ascii c member
  conv_lhs => rw [snakeCase, snakeChars_of_isUpper_eq_false small, String.ofList_toList]

end Ascii

/-! ## Names with the same result -/

theorem filter_snakeChars {cs : List Char} (ascii : ∀ c ∈ cs, c.isAscii = true)
    (afterSmall : Bool) :
    (snakeChars afterSmall cs).filter (· ≠ '_') = (cs.map Char.toLower).filter (· ≠ '_') := by
  induction cs generalizing afterSmall with
  | nil => rfl
  | cons c rest ih =>
    obtain ⟨here, others⟩ := List.forall_mem_cons.1 ascii
    have image : (if c.isUpper && afterSmall then ['_', c.toLower] else [c.toLower]).filter
        (· ≠ '_') = [c.toLower].filter (· ≠ '_') := by
      split <;> rfl
    rw [snakeChars_cons here, List.filter_append, image, ih others, ← List.filter_append]
    rfl

theorem toList_toLower (text : String) : text.toLower.toList = text.toList.map Char.toLower :=
  String.toList_map

theorem filter_snakeCase {text : String} (ascii : Text.IsAscii text) :
    (snakeCase text).toList.filter (· ≠ '_') = folded text := by
  rw [toList_snakeCase, filter_snakeChars ascii, folded, toList_toLower]

theorem folded_eq_of_snakeCase_eq {text other : String} (ascii : Text.IsAscii text)
    (otherAscii : Text.IsAscii other) (same : snakeCase text = snakeCase other) :
    folded text = folded other := by
  rw [← filter_snakeCase ascii, same, filter_snakeCase otherAscii]

theorem folded_append (text suffix : String) :
    folded (text ++ suffix) = folded text ++ folded suffix := by
  simp [folded, toList_toLower]

/-- The module of a key group is the snake case of a name with the same ending. -/
theorem snakeCase_append_keys (stem : String) : snakeCase (stem ++ "_keys") = keysModule stem := by
  rw [snakeCase, String.toList_append,
    snakeChars_append_of_isUpper_eq_false (List.all_iff_forall_prop.1 (by decide)),
    String.ofList_append, String.ofList_toList]
  rfl

theorem folded_eq_of_keysModule_eq {stem other : String} (ascii : Text.IsAscii stem)
    (otherAscii : Text.IsAscii other) (same : keysModule stem = keysModule other) :
    folded stem = folded other := by
  rw [← snakeCase_append_keys, ← snakeCase_append_keys] at same
  have ending : Text.IsAscii "_keys" := by decide
  have folds := folded_eq_of_snakeCase_eq (Text.isAscii_append_iff.2 ⟨ascii, ending⟩)
    (Text.isAscii_append_iff.2 ⟨otherAscii, ending⟩) same
  rw [folded_append, folded_append] at folds
  exact List.append_cancel_right folds

end Naming

namespace Task

open Naming

/-- The name that gives the file of a declaration its module; key groups add the ending of their
modules. -/
def declaredName? : Task → Option String
  | keys _ group => some (group.stem ++ "_keys")
  | lens _ record => some record.name
  | prism _ set => some set.name
  | _ => none

theorem fileModule_eq_snakeCase {task : Task} {name : String}
    (declared : task.declaredName? = some name) : task.fileModule = snakeCase name := by
  cases task with
  | keys index group =>
    cases declared
    exact (snakeCase_append_keys group.stem).symm
  | lens index record =>
    cases declared
    rfl
  | prism index set =>
    cases declared
    rfl
  | _ => cases declared

theorem folded_eq_of_fileModule_eq {task other : Task} {name otherName : String}
    (declared : task.declaredName? = some name)
    (otherDeclared : other.declaredName? = some otherName)
    (ascii : Text.IsAscii name) (otherAscii : Text.IsAscii otherName)
    (same : task.fileModule = other.fileModule) : folded name = folded otherName := by
  rw [fileModule_eq_snakeCase declared, fileModule_eq_snakeCase otherDeclared] at same
  exact folded_eq_of_snakeCase_eq ascii otherAscii same

end Task

end Slotwise
