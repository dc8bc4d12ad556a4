import Slotwise.Proofs.Consistent
import Slotwise.Proofs.WrittenTokens
/-!
# How types are compared

Types are compared by their names without blanks. Over names without comments this compares what the
tokens are run together (`SharedField.sameType_iff_runTogether`), which decides whether the tokens
are the same wherever these keep apart without blanks (`Text.runTogether_injective_of_isFirm`). It
does not where a blank keeps two words apart (`SharedField.same_but_not_alike`).

Main statement: `SharedField.sameType_exact`.
-/

namespace Slotwise

namespace Text

/-! ## Texts without their blanks -/

/-- The characters of several texts one after the other, without blanks. -/
def runTogether (texts : List String) : List Char :=
  texts.flatMap fun text => text.toList.filter fun c => !isBlank c

/-- The blanks of a text at their places. -/
def frame (text : String) : List (Option Char) :=
  text.toList.map fun c => if isBlank c then some c else none

@[simp] theorem runTogether_nil : runTogether [] = [] := rfl

@[simp] theorem runTogether_cons (text : String) (rest : List String) :
    runTogether (text :: rest) = (text.toList.filter fun c => !isBlank c) ++ runTogether rest :=
  List.flatMap_cons

@[simp] theorem runTogether_append (texts rest : List String) :
    runTogether (texts ++ rest) = runTogether texts ++ runTogether rest :=
  List.flatMap_append

/-- Blanks at their places and the other characters make up a text. -/
theorem eq_of_frame_of_filter {cs ds : List Char}
    (frames : cs.map (fun c => if isBlank c then some c else none) =
      ds.map fun c => if isBlank c then some c else none)
    (others : (cs.filter fun c => !isBlank c) = ds.filter fun c => !isBlank c) : cs = ds := by
  induction cs generalizing ds with
  | nil =>
    cases ds with
    | nil => rfl
    | cons d ds => cases frames
  | cons c cs ih =>
    cases ds with
    | nil => cases frames
    | cons d ds =>
      obtain ⟨first, frames⟩ := List.cons.inj frames
      cases blankC : isBlank c <;> cases blankD : isBlank d <;>
        simp only [blankC, blankD, Bool.false_eq_true, if_false, if_true, reduceCtorEq,
          List.filter_cons, Bool.not_false, Bool.not_true, Option.some.injEq] at first others
      · obtain ⟨same, others⟩ := List.cons.inj others
        rw [same, ih frames others]
      · rw [first, ih frames others]

theorem length_filter_of_frame {cs ds : List Char}
    (frames : cs.map (fun c => if isBlank c then some c else none) =
      ds.map fun c => if isBlank c then some c else none) :
    (cs.filter fun c => !isBlank c).length = (ds.filter fun c => !isBlank c).length := by
  have counted (es : List Char) : (es.filter fun c => !isBlank c).length =
      ((es.map fun c => if isBlank c then some c else none).filter (·.isNone)).length := by
    induction es with
    | nil => rfl
    | cons e es ih =>
      cases blank : isBlank e <;> simp [blank, ih]
  rw [counted, counted, frames]

/-- Texts are what they are run together, once the blanks within each are fixed. -/
theorem eq_of_runTogether {texts others : List String}
    (frames : texts.map frame = others.map frame)
    (run : runTogether texts = runTogether others) : texts = others := by
  induction texts generalizing others with
  | nil =>
    cases others with
    | nil => rfl
    | cons _ _ => cases frames
  | cons text texts ih =>
    cases others with
    | nil => cases frames
    | cons other others =>
      obtain ⟨first, frames⟩ := List.cons.inj frames
      rw [runTogether_cons, runTogether_cons] at run
      obtain ⟨same, run⟩ := List.append_inj run (length_filter_of_frame first)
      rw [String.toList_inj.1 (eq_of_frame_of_filter first same), ih frames run]

/-! ## Texts that keep apart -/

/-- Whether a text is a word or a number: characters that continue a word, and no others. -/
def isWordText (text : String) : Bool :=
  !text.toList.isEmpty && text.toList.all isXidContinue

/-- Whether a text is an apostrophe with a word behind it. -/
def isLifetimeText (text : String) : Bool :=
  match text.toList with
  | '\'' :: rest => !rest.isEmpty && rest.all isXidContinue
  | _ => false

/-- Whether a text is one character that is neither a blank nor part of a word or of a lifetime. -/
def isSignText (text : String) : Bool :=
  match text.toList with
  | [c] => !isXidContinue c && !isBlank c && c != '\''
  | _ => false

/-- Whether texts keep apart without blanks between them: all are words, lifetimes and signs, and no
word comes behind a word or a lifetime. -/
def isFirm : List String → Bool
  | [] => true
  | [text] => isWordText text || isLifetimeText text || isSignText text
  | text :: next :: rest =>
    (isSignText text || (isWordText text || isLifetimeText text) && !isWordText next) &&
      isFirm (next :: rest)

/-- The word, lifetime or sign at the front. -/
def firstText : List Char → List Char
  | [] => []
  | '\'' :: rest => '\'' :: rest.takeWhile isXidContinue
  | c :: rest => if isXidContinue c then c :: rest.takeWhile isXidContinue else [c]

theorem exists_of_isWordText {text : String} (h : isWordText text = true) :
    ∃ c rest, text.toList = c :: rest ∧ isXidContinue c = true ∧
      ∀ d ∈ rest, isXidContinue d = true := by
  rw [isWordText, Bool.and_eq_true, List.all_eq_true] at h
  obtain ⟨filled, all⟩ := h
  cases shape : text.toList with
  | nil =>
    rw [shape] at filled
    cases filled
  | cons c rest =>
    rw [shape] at all
    exact ⟨c, rest, rfl, List.forall_mem_cons.1 all⟩

theorem exists_of_isLifetimeText {text : String} (h : isLifetimeText text = true) :
    ∃ rest, text.toList = '\'' :: rest ∧ ∀ d ∈ rest, isXidContinue d = true := by
  unfold isLifetimeText at h
  split at h
  · next rest shape =>
    rw [Bool.and_eq_true, List.all_eq_true] at h
    exact ⟨rest, shape, h.2⟩
  · cases h

theorem exists_of_isSignText {text : String} (h : isSignText text = true) :
    ∃ c, text.toList = [c] ∧ isXidContinue c = false ∧ isBlank c = false ∧ c ≠ '\'' := by
  unfold isSignText at h
  split at h
  · next c shape =>
    simp only [Bool.and_eq_true, Bool.not_eq_true', bne_iff_ne] at h
    exact ⟨c, shape, h.1.1, h.1.2, h.2⟩
  · cases h

/-- What a firm sequence starts with, and what comes behind it. -/
theorem isFirm_cons_iff {text : String} {rest : List String} :
    isFirm (text :: rest) = true ↔
      (isSignText text = true ∨ (isWordText text = true ∨ isLifetimeText text = true) ∧
        ∀ next ∈ rest.head?, isWordText next = false) ∧ isFirm rest = true := by
  cases rest with
  | nil => grind [isFirm]
  | cons next rest => simp [isFirm]

theorem takeWhile_append_of_stops {cs rest : List Char}
    (all : ∀ c ∈ cs, isXidContinue c = true) (stops : ∀ c ∈ rest.head?, isXidContinue c = false) :
    (cs ++ rest).takeWhile isXidContinue = cs := by
  rw [List.takeWhile_append_of_pos all]
  cases rest with
  | nil => simp
  | cons c rest => rw [List.takeWhile_cons_of_neg (by simp [stops c rfl]), List.append_nil]

theorem firstText_cons {c : Char} (other : c ≠ '\'') (rest : List Char) :
    firstText (c :: rest) =
      if isXidContinue c then c :: rest.takeWhile isXidContinue else [c] := by
  unfold firstText
  split
  · next same => cases same
  · next same => exact absurd (List.cons.inj same).1 other
  · next same =>
    cases same
    rfl

/-- A word, lifetime or sign has no blanks, and what starts like a word is one. -/
theorem exists_first_of_kind {text : String}
    (kind : isSignText text = true ∨ isWordText text = true ∨ isLifetimeText text = true) :
    (∀ c ∈ text.toList, isBlank c = false) ∧ ∃ c behind, text.toList = c :: behind ∧
      (isXidContinue c = true → isWordText text = true) := by
  obtain sign | word | lifetime := kind
  · obtain ⟨c, shape, ends, visible, -⟩ := exists_of_isSignText sign
    rw [shape]
    refine ⟨List.forall_mem_singleton.2 visible, c, [], rfl, fun continues => ?_⟩
    rw [ends] at continues
    cases continues
  · obtain ⟨c, behind, shape, starts, continues⟩ := exists_of_isWordText word
    rw [shape]
    refine ⟨fun d member => not_isBlank_of_isXidContinue ?_, c, behind, rfl, fun _ => word⟩
    obtain rfl | member := List.mem_cons.1 member
    · exact starts
    · exact continues d member
  · obtain ⟨behind, shape, continues⟩ := exists_of_isLifetimeText lifetime
    rw [shape]
    refine ⟨fun d member => ?_, '\'', behind, rfl, fun impossible => (by cases impossible)⟩
    obtain rfl | member := List.mem_cons.1 member
    · decide
    · exact not_isBlank_of_isXidContinue (continues d member)

theorem runTogether_of_isFirm {text : String} {rest : List String}
    (firm : isFirm (text :: rest) = true) :
    runTogether (text :: rest) = text.toList ++ runTogether rest := by
  have solid := (exists_first_of_kind ((isFirm_cons_iff.1 firm).1.imp_right And.left)).1
  rw [runTogether_cons]
  congr 1
  rw [List.filter_eq_self]
  intro c member
  rw [solid c member]
  rfl

/-- A word or lifetime ends where the next one of some firm texts starts. -/
theorem stops_of_isFirm {rest : List String} (firm : isFirm rest = true)
    (apart : ∀ next ∈ rest.head?, isWordText next = false) :
    ∀ c ∈ (runTogether rest).head?, isXidContinue c = false := by
  intro c member
  cases rest with
  | nil => cases member
  | cons next rest =>
    obtain ⟨-, d, behind, shape, starts⟩ :=
      exists_first_of_kind ((isFirm_cons_iff.1 firm).1.imp_right And.left)
    rw [runTogether_of_isFirm firm, shape] at member
    cases member
    rw [← Bool.not_eq_true]
    intro continues
    rw [apart next rfl] at starts
    cases starts continues

/-- The first of some firm texts is found at the front of what they are run together. -/
theorem firstText_of_isFirm {text : String} {rest : List String}
    (firm : isFirm (text :: rest) = true) :
    firstText (runTogether (text :: rest)) = text.toList := by
  obtain ⟨kind, firmRest⟩ := isFirm_cons_iff.1 firm
  rw [runTogether_of_isFirm firm]
  obtain sign | ⟨word | lifetime, apart⟩ := kind
  · obtain ⟨c, shape, ends, -, other⟩ := exists_of_isSignText sign
    rw [shape, List.singleton_append, firstText_cons other, ends]
    rfl
  · obtain ⟨c, behind, shape, starts, continues⟩ := exists_of_isWordText word
    have other : c ≠ '\'' := by
      rintro rfl
      cases starts
    rw [shape, List.cons_append, firstText_cons other, if_pos starts,
      takeWhile_append_of_stops continues (stops_of_isFirm firmRest apart)]
  · obtain ⟨behind, shape, continues⟩ := exists_of_isLifetimeText lifetime
    rw [shape, List.cons_append, firstText,
      takeWhile_append_of_stops continues (stops_of_isFirm firmRest apart)]

theorem runTogether_ne_nil_of_isFirm {text : String} {rest : List String}
    (firm : isFirm (text :: rest) = true) : runTogether (text :: rest) ≠ [] := by
  obtain ⟨-, c, behind, shape, -⟩ :=
    exists_first_of_kind ((isFirm_cons_iff.1 firm).1.imp_right And.left)
  rw [runTogether_of_isFirm firm, shape]
  exact List.cons_ne_nil _ _

/-- Firm texts are told apart when they are run together. -/
theorem runTogether_injective_of_isFirm {texts others : List String} (firm : isFirm texts = true)
    (otherFirm : isFirm others = true) (run : runTogether texts = runTogether others) :
    texts = others := by
  induction texts generalizing others with
  | nil =>
    cases others with
    | nil => rfl
    | cons other others => exact absurd run.symm (runTogether_ne_nil_of_isFirm otherFirm)
  | cons text texts ih =>
    cases others with
    | nil => exact absurd run (runTogether_ne_nil_of_isFirm firm)
    | cons other others =>
      have same : text.toList = other.toList := by
        rw [← firstText_of_isFirm firm, run, firstText_of_isFirm otherFirm]
      rw [runTogether_of_isFirm firm, runTogether_of_isFirm otherFirm, same] at run
      rw [String.toList_inj.1 same, ih (isFirm_cons_iff.1 firm).2 (isFirm_cons_iff.1 otherFirm).2
        (List.append_cancel_left run)]

end Text

/-! ## Types as written -/

namespace Code.Lexer

theorem runTogether_marksOf (gap : List Char) :
    Text.runTogether (marksOf gap) = gap.filter fun c => !Text.isBlank c := by
  induction gap with
  | nil => rfl
  | cons c gap ih =>
    cases blank : Text.isBlank c <;> simp_all [marksOf]

/-- The pieces of a text are run together what it is without blanks. -/
theorem Written.runTogether_eq {cs rest : List Char} {pieces : List String} {tokens : List Token}
    (written : Written cs pieces tokens rest) :
    (cs.filter fun c => !Text.isBlank c) =
      Text.runTogether pieces ++ rest.filter fun c => !Text.isBlank c := by
  induction written with
  | done _ _ => rw [List.filter_append, runTogether_marksOf]
  | @group gap inside after rest bracket _ _ _ _ _ _ _ ihWithin ihOthers =>
    have visible : Text.isBlank bracket.opening = false ∧ Text.isBlank bracket.closing = false := by
      cases bracket <;> decide
    rw [List.filter_append, List.filter_cons, ihWithin, List.filter_cons, ihOthers]
    simp [visible, runTogether_marksOf]
  | leaf _ first _ _ ih =>
    obtain ⟨text, texts, rfl, -⟩ := cases_of_leaf? first
    rw [List.filter_append, List.filter_append, ih, texts]
    simp [runTogether_marksOf]

theorem Spells.withoutBlanks_eq {text : String} {pieces : List String} {tokens : List Token}
    (spells : Spells text pieces tokens) :
    Text.withoutBlanks text = String.ofList (Text.runTogether pieces) := by
  obtain ⟨-, written⟩ | ⟨mark, written⟩ := spells
  · rw [Text.withoutBlanks, written.runTogether_eq, List.filter_nil, List.append_nil]
  · rw [Text.withoutBlanks, mark, List.filter_cons_of_pos (by decide), written.runTogether_eq,
      List.filter_nil, List.append_nil]
    rfl

end Code.Lexer

namespace Optics.SharedField

open Code Token Lexer Text

/-- Types are compared by what the pieces of their names are run together. -/
theorem sameType_iff_runTogether {a b : TypeRef} {p q : List String} {s t : List Token}
    (first : Spells a.name p s) (second : Spells b.name q t) :
    sameType a b = true ↔ runTogether p = runTogether q := by
  rw [sameType_iff, first.withoutBlanks_eq, second.withoutBlanks_eq]
  exact String.ofList_inj

/-- The names of the types are the same when they are run together, and have the same tokens if no
blank is needed to keep these apart. -/
def WrittenAlike (a b : TypeRef) : Prop :=
  ∀ p q s t, Spells a.name p s → Spells b.name q t →
    runTogether p = runTogether q ∧
      (isFirm p = true → isFirm q = true → textsAll s = textsAll t)

theorem writtenAlike_of_sameType {a b : TypeRef} (same : sameType a b = true) :
    WrittenAlike a b := by
  intro p q s t first second
  have run := (sameType_iff_runTogether first second).1 same
  refine ⟨run, fun firm otherFirm => ?_⟩
  rw [← first.filter_eq, ← second.filter_eq, runTogether_injective_of_isFirm firm otherFirm run]

/-- What the comparison of types says of their tokens. The name of a type without comments consists
of pieces, which are its tokens and, if there are any, marks that cannot be seen. The comparison
holds exactly if the pieces are the same when they are run together. So it holds of types with the
same pieces; the pieces of types of which it holds are the same if and only if they end at the same
places and have the same blanks within; and for pieces that keep apart without blanks it decides
whether they are the same. In an accepted set, the types of all fields of one name, and those of a
base field and of what overrides it, are written alike up to this. -/
theorem sameType_exact (a b : TypeRef) :
    ((Node.type? a.name).isSome = true → CommentFree a.name.toList →
      ∃ pieces tokens, tokenize? a.name = some tokens ∧ Spells a.name pieces tokens ∧
        pieces.filter (fun piece => decide (piece ∉ unseen)) = textsAll tokens ∧
        ((∀ c ∈ a.name.toList, c ∉ ['\u200e', '\u200f', '\ufeff']) →
          pieces = textsAll tokens)) ∧
    (∀ (p q : List String) (s t : List Token),
      Spells a.name p s → Spells b.name q t →
      (sameType a b = true ↔ runTogether p = runTogether q) ∧
      (p = q ↔ sameType a b = true ∧ p.map frame = q.map frame) ∧
      (isFirm p = true → isFirm q = true → (sameType a b = true ↔ p = q))) ∧
    ∀ set, Check.variantSet set = .ok () →
      (∀ f ∈ Check.variantFields set, ∀ g ∈ Check.variantFields set, f.name = g.name →
        WrittenAlike f.type g.type) ∧
      ∀ variant ∈ set.variants, ∀ name ∈ variant.overrides,
        ∃ base ∈ set.fields, ∃ own ∈ variant.fields, base.name = name ∧ own.name = name ∧
          WrittenAlike base.type own.type := by
  refine ⟨fun parses free => ?_, fun p q s t first second => ?_, fun set accepted => ?_⟩
  · obtain ⟨node, parses⟩ := Option.isSome_iff_exists.1 parses
    obtain ⟨tokens, found, -⟩ := Option.bind_eq_some_iff.1 parses
    obtain ⟨pieces, spells⟩ := exists_spells_of_tokenize? free found
    exact ⟨pieces, tokens, found, spells, spells.filter_eq, spells.eq_of_seen⟩
  · have compares := sameType_iff_runTogether first second
    refine ⟨compares, ?_, fun firm otherFirm => ?_⟩
    · rw [compares]
      constructor
      · intro same
        rw [same]
        exact ⟨rfl, rfl⟩
      · exact fun ⟨run, frames⟩ => eq_of_runTogether frames run
    · rw [compares]
      refine ⟨runTogether_injective_of_isFirm firm otherFirm, fun same => ?_⟩
      rw [same]
  · have consistent := Check.consistent_of_variantSet accepted
    constructor
    · intro f fIn g gIn name
      exact writtenAlike_of_sameType (consistent.types f fIn g gIn name)
    · intro variant variantIn name nameIn
      obtain ⟨base, baseIn, own, ownIn, baseName, ownName, same⟩ :=
        consistent.overrides variant variantIn name nameIn
      exact ⟨base, baseIn, own, ownIn, baseName, ownName, writtenAlike_of_sameType same⟩

/-! ### Two sets -/

/-- A set of two variants that have a field of one name, with types of these names. -/
def holding (first second : String) : VariantSet :=
  VariantSet.new "S"
    |>.withVariant (Variant.new "A" |>.withField (.new "x" (.named first)))
    |>.withVariant (Variant.new "B" |>.withField (.new "x" (.named second)))

theorem sameType_vec :
    sameType (.named "Vec<i32>") (.named "Vec< i32 >") = true ∧
      Check.variantSet (holding "Vec<i32>" "Vec< i32 >") = .ok () ∧
      WrittenAlike (.named "Vec<i32>") (.named "Vec< i32 >") := by
  obtain ⟨-, compares, sets⟩ := sameType_exact (.named "Vec<i32>") (.named "Vec< i32 >")
  -- both names consist of the same four tokens, which keep apart without blanks
  have pieces {name : String} (parses : (Node.type? name).isSome = true)
      (slashFree : '/' ∉ name.toList)
      (seen : name.toList.all (fun c => c ∉ ['\u200e', '\u200f', '\ufeff']) = true)
      (texts : (tokenize? name).map textsAll = some ["Vec", "<", "i32", ">"]) :
      ∃ tokens, Spells name ["Vec", "<", "i32", ">"] tokens := by
    obtain ⟨pieces, tokens, found, spells, -, same⟩ :=
      (sameType_exact (.named name) (.named name)).1 parses (commentFree_of_slashFree slashFree)
    have found : tokenize? name = some tokens := found
    rw [found] at texts
    have same : pieces = textsAll tokens := same (List.all_iff_forall_prop.1 seen)
    rw [← Option.some.inj texts, ← same]
    exact ⟨tokens, spells⟩
  obtain ⟨s, first⟩ : ∃ tokens, Spells "Vec<i32>" _ tokens :=
    pieces (by decide +kernel) (by decide) (by decide) (by decide +kernel)
  obtain ⟨t, second⟩ : ∃ tokens, Spells "Vec< i32 >" _ tokens :=
    pieces (by decide +kernel) (by decide) (by decide) (by decide +kernel)
  have firm : isFirm ["Vec", "<", "i32", ">"] = true := by decide +kernel
  obtain ⟨_, accepted⟩ := Outcome.exists_of_isOk
    (show (Check.variantSet (holding "Vec<i32>" "Vec< i32 >")).isOk = true by decide +kernel)
  have fieldsAre : Check.variantFields (holding "Vec<i32>" "Vec< i32 >") =
      [.new "x" (.named "Vec<i32>"), .new "x" (.named "Vec< i32 >")] := rfl
  have alike := (sets _ accepted).1
  rw [fieldsAre] at alike
  have same := compares _ _ s t first second
  refine ⟨(same.2.2 firm firm).2 rfl, accepted, ?_⟩
  exact alike _ List.mem_cons_self _ (List.mem_cons_of_mem _ List.mem_cons_self) rfl

/-- Two types that differ in a word, and a set that passes all checks although a field has the one
type in one variant and the other in another; and two types with the same tokens, which do not count
as the same for a mark between these. -/
theorem same_but_not_alike :
    (sameType (.named "Box<dyn Foo>") (.named "Box<dynFoo>") = true ∧
      (Node.type? "Box<dyn Foo>").isSome = true ∧ (Node.type? "Box<dynFoo>").isSome = true ∧
      (tokenize? "Box<dyn Foo>").map textsAll = some ["Box", "<", "dyn", "Foo", ">"] ∧
      (tokenize? "Box<dynFoo>").map textsAll = some ["Box", "<", "dynFoo", ">"] ∧
      Check.variantSet (holding "Box<dyn Foo>" "Box<dynFoo>") = .ok ()) ∧
    sameType (.named "Vec<i32>") (.named "Vec<\u200ei32>") = false ∧
      (Node.type? "Vec<\u200ei32>").isSome = true ∧
      (tokenize? "Vec<\u200ei32>").map textsAll = (tokenize? "Vec<i32>").map textsAll := by
  obtain ⟨_, accepted⟩ := Outcome.exists_of_isOk
    (show (Check.variantSet (holding "Box<dyn Foo>" "Box<dynFoo>")).isOk = true by decide +kernel)
  refine ⟨⟨?_, ?_, ?_, ?_, ?_, accepted⟩, ?_, ?_, ?_⟩ <;> decide +kernel

end Optics.SharedField

end Slotwise
