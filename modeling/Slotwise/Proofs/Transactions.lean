import Slotwise.Proofs.Variants
/-!
# The meaning of transactions

What the methods of a variant set make of a live variant. A transaction hands the unchanging setters
of the live variant to its block (`apply_transaction`). Applying a transaction whose setters belong
to the live variant edits each field by its own setter (`eval_setBody_target`), and any other
transaction leaves the live variant as it is (`eval_setBody_other`). Both rest on the names of
variants and of the fields of each variant being distinct in the code; where a name repeats, code is
stuck or another variant answers (`eval_setBody_stuck`, `apply_transaction_first`).
-/

namespace Slotwise.Optics.Prism

open Code Naming

/-- The names in the declaration of an enumeration tell its cases apart. -/
def SetCode.casesApart (code : SetCode) : Prop :=
  (code.variants.map fun variant => withoutRawMark variant.name).Nodup

/-- The names of the fields of a variant tell them apart. -/
def VariantCode.fieldsApart (code : VariantCode) : Prop :=
  (code.case.fields.map Prod.fst).Nodup

theorem SetCode.casesApart.ne {code : SetCode} (apart : code.casesApart) {i k : Nat}
    {target other : VariantCode} (targetIs : code.variants[i]? = some target)
    (otherIs : code.variants[k]? = some other) (different : i ≠ k) :
    withoutRawMark target.name ≠ withoutRawMark other.name := by
  intro same
  have inside : i < (code.variants.map fun variant => withoutRawMark variant.name).length := by
    rw [List.length_map]
    exact (List.getElem?_eq_some_iff.1 targetIs).1
  refine different ((List.getElem?_inj inside apart).1 ?_)
  rw [List.getElem?_map, List.getElem?_map, targetIs, otherIs, Option.map_some, Option.map_some,
    same]

/-- A variant stands at one place. -/
theorem eq_of_mem_zipIdx {code : SetCode} {i : Nat} {target : VariantCode}
    (targetIs : code.variants[i]? = some target) {arm : VariantCode × Nat}
    (member : arm ∈ code.variants.zipIdx) (same : arm.2 = i) : arm = (target, i) := by
  have armIs := List.mk_mem_zipIdx_iff_getElem?.1 member
  rw [same, targetIs, Option.some.injEq] at armIs
  exact Prod.ext armIs.symm same

section Set

variable {Data : Type} {world : World Data} {type : String} {code : SetCode} {flavor : Flavor}

/-- The pattern of an arm of the methods that apply a transaction. -/
def setPattern (code : SetCode) (arm : VariantCode × Nat) : Node :=
  .tuple [code.inVariant (arm.2 + 1) (Shape.pattern arm.1.width), arm.1.pattern] false

theorem eval_setBody {live transaction setters : Value Data}
    (chosen : apply world transaction [live] = some setters) :
    eval world type [("self", live), ("transaction", transaction)] (setBody code flavor) =
      select world type [("self", live), ("transaction", transaction)]
        ((code.variants.zipIdx.map fun arm =>
            Node.arm (setPattern code arm) none (arm.1.rebuilt flavor) true) ++
          [Node.arm (.tuple [.wild, .binding "unchanged"] false) none (.named "unchanged") true])
        (.tuple [setters, live]) := by
  have callable : (List.lookup (withoutRawMark "transaction")
      [("self", live), ("transaction", transaction)]).isSome := rfl
  have called : eval world type [("self", live), ("transaction", transaction)]
      (.call (.named "transaction") [.shared .self] false) = some setters := by
    rw [eval_call_variable callable]
    simpa [List.lookup_cons] using chosen
  rw [setBody, eval_choice, eval_tuple]
  simp only [List.mapM_cons, List.mapM_nil, called, eval_self]
  rfl

/-- An arm for other setters, and a live variant that its pattern can tell. -/
theorem matchPattern_setPattern_of_ne {arm : VariantCode × Nat} {i : Nat} {setters live : Value Data}
    (different : arm.2 ≠ i) {fits : Option (Variables Data)}
    (liveFits : matchPattern type arm.1.pattern live = some fits) :
    matchPattern type (setPattern code arm) (.tuple [inSummand code.count (i + 1) setters, live]) =
      some none := by
  have other : arm.2 + 1 ≠ i + 1 := by omega
  rw [setPattern, matchPattern_pair, matchPattern_inVariant, if_neg other, liveFits]
  cases fits <;> rfl

/-- The pattern of any variant can tell a live variant, if names repeat nowhere. -/
theorem exists_matchPattern (apart : code.casesApart)
    (fields : ∀ variant ∈ code.variants, variant.fieldsApart) {k : Nat} {subject : VariantCode}
    (subjectIs : code.variants[k]? = some subject) {values : List (Value Data)}
    (length : values.length = subject.width) {arm : VariantCode × Nat}
    (member : arm ∈ code.variants.zipIdx) :
    ∃ fits, matchPattern type arm.1.pattern (subject.case.live type values) = some fits := by
  by_cases same : arm.2 = k
  · rw [eq_of_mem_zipIdx subjectIs member same]
    exact ⟨_, matchPattern_pattern (fields subject (List.mem_of_getElem? subjectIs)) length⟩
  · have armIs := List.mk_mem_zipIdx_iff_getElem?.1 member
    exact ⟨none, matchPattern_pattern_of_ne (apart.ne armIs subjectIs same) values⟩

/-- A transaction for the live variant edits each field by its own setter. -/
theorem eval_setBody_target (apart : code.casesApart)
    (fields : ∀ variant ∈ code.variants, variant.fieldsApart) {i : Nat} {target : VariantCode}
    (targetIs : code.variants[i]? = some target) {setters values : List (Value Data)}
    (width : setters.length = target.width) (length : values.length = target.width)
    {transaction : Value Data}
    (chosen : apply world transaction [target.case.live type values] =
      some (inSummand code.count (i + 1) (Shape.value setters))) :
    eval world type [("self", target.case.live type values), ("transaction", transaction)]
        (setBody code flavor) =
      ((setters.zip values).mapM fun (setter, value) => edited world flavor setter value).map
        (target.case.live type) := by
  have once := fields target (List.mem_of_getElem? targetIs)
  have fits : matchPattern type (setPattern code (target, i))
      (.tuple [inSummand code.count (i + 1) (Shape.value setters),
        target.case.live type values]) =
      some (some (Shape.bindings setters ++ target.bindings values)) := by
    rw [setPattern, matchPattern_pair, matchPattern_inVariant, if_pos rfl,
      matchPattern_pattern once length, ← width, Shape.matchPattern_pattern]
    simp
  have member : (target, i) ∈ code.variants.zipIdx := List.mk_mem_zipIdx_iff_getElem?.2 targetIs
  rw [eval_setBody chosen, select_of_mem member (by rw [fits]; simp) ?_, select_fits fits]
  · exact eval_rebuilt once flavor width length fun row inside => lookup_variables length inside
  · intro arm among other
    obtain ⟨liveFits, fitsIs⟩ := exists_matchPattern apart fields targetIs length among
    exact matchPattern_setPattern_of_ne (fun same => other (eq_of_mem_zipIdx targetIs among same))
      fitsIs

/-- A transaction for another variant changes nothing. -/
theorem eval_setBody_other (apart : code.casesApart)
    (fields : ∀ variant ∈ code.variants, variant.fieldsApart) {i k : Nat}
    {target subject : VariantCode} (targetIs : code.variants[i]? = some target)
    (subjectIs : code.variants[k]? = some subject) (different : i ≠ k)
    {setters values : List (Value Data)} (width : setters.length = target.width)
    (length : values.length = subject.width) {transaction : Value Data}
    (chosen : apply world transaction [subject.case.live type values] =
      some (inSummand code.count (i + 1) (Shape.value setters))) :
    eval world type [("self", subject.case.live type values), ("transaction", transaction)]
        (setBody code flavor) = some (subject.case.live type values) := by
  have unchanged : matchPattern type (.tuple [.wild, .binding "unchanged"] false)
      (.tuple [inSummand code.count (i + 1) (Shape.value setters),
        subject.case.live type values]) =
      some (some [("unchanged", subject.case.live type values)]) := by
    rw [matchPattern_pair]
    simp
  rw [eval_setBody chosen, select_append ?_, select_fits unchanged]
  · simp
  · intro arm among
    obtain ⟨liveFits, fitsIs⟩ := exists_matchPattern apart fields subjectIs length among
    by_cases same : arm.2 = i
    · -- the setters fit this arm, but the live variant is another one
      rw [eq_of_mem_zipIdx targetIs among same, setPattern, matchPattern_pair,
        matchPattern_inVariant, if_pos rfl, ← width, Shape.matchPattern_pattern,
        matchPattern_pattern_of_ne (apart.ne targetIs subjectIs different)]
      simp
    · exact matchPattern_setPattern_of_ne same fitsIs

/-- Where two fields of a variant bear one name, a transaction for it gets nowhere. -/
theorem eval_setBody_stuck (apart : code.casesApart) {i : Nat} {target : VariantCode}
    (targetIs : code.variants[i]? = some target) (repeated : ¬ target.fieldsApart)
    {setters values : List (Value Data)} (length : values.length = target.width)
    {transaction : Value Data}
    (chosen : apply world transaction [target.case.live type values] =
      some (inSummand code.count (i + 1) (Shape.value setters))) :
    eval world type [("self", target.case.live type values), ("transaction", transaction)]
        (setBody code flavor) = none := by
  have stuck : matchPattern type (setPattern code (target, i))
      (.tuple [inSummand code.count (i + 1) (Shape.value setters),
        target.case.live type values]) = none := by
    rw [setPattern, matchPattern_pair, matchPattern_pattern_stuck repeated length]
    cases matchPattern type (code.inVariant (i + 1) (Shape.pattern target.width))
        (inSummand code.count (i + 1) (Shape.value setters)) <;> simp [bothFit]
  have member : (target, i) ∈ code.variants.zipIdx := List.mk_mem_zipIdx_iff_getElem?.2 targetIs
  rw [eval_setBody chosen, select_of_mem member (by rw [stuck]; simp) ?_, select_stuck stuck]
  intro arm among other
  have armIs := List.mk_mem_zipIdx_iff_getElem?.1 among
  have different : arm.2 ≠ i := fun same => other (eq_of_mem_zipIdx targetIs among same)
  exact matchPattern_setPattern_of_ne different
    (matchPattern_pattern_of_ne (apart.ne armIs targetIs different) values)

end Set

section Transaction

variable {Data : Type} {world : World Data} {type : String} {code : SetCode} {flavor : Flavor}

/-- The variant whose arm answers for a live variant, with its index. -/
def SetCode.answering? (code : SetCode) (subject : VariantCode) : Option (VariantCode × Nat) :=
  code.variants.zipIdx.find? fun arm =>
    withoutRawMark arm.1.name == withoutRawMark subject.name

/-- A transaction hands unchanging setters to its block, those of the variant that answers. -/
theorem apply_transaction_answering {widths : List Nat} (supports : Supports world widths) :
    ∃ same, Unchanging world flavor same ∧
      ∀ block, ∃ transaction,
        eval world type [("block", block)] (transactionBody code flavor) = some transaction ∧
        ∀ (subject : VariantCode) (values : List (Value Data)),
          apply world transaction [subject.case.live type values] =
            (code.answering? subject).bind fun arm =>
              apply world block [inSummand code.count (arm.2 + 1)
                (Shape.value (List.replicate arm.1.width same))] := by
  obtain ⟨same, unchanging, called⟩ := exists_unchanging supports flavor
  refine ⟨same, unchanging, fun block => ⟨_, eval_closure _ _ _ _ _ _, fun subject values => ?_⟩⟩
  have inputs : bindInputs type [.input "live" (.shared (.named "Self"))]
      [subject.case.live type values] = some [("live", subject.case.live type values)] := by
    simp
  have liveIs : eval world type [("live", subject.case.live type values), ("block", block)]
      (.named "live") = some (subject.case.live type values) := by
    simp
  have callable : (List.lookup (withoutRawMark "block")
      [("live", subject.case.live type values), ("block", block)]).isSome := rfl
  have blockIs : List.lookup (withoutRawMark "block")
      [("live", subject.case.live type values), ("block", block)] = some block := rfl
  have tells : ∀ arm ∈ code.variants.zipIdx,
      matchPattern type (.fields arm.1.path [.range none false none] false)
        (subject.case.live type values) =
      if withoutRawMark arm.1.name == withoutRawMark subject.name then some (some [])
      else some none := by
    intro arm _
    rw [Case.live, matchPattern_open _ _ arm.1.names?_path, Node.resolve_self]
    simp [VariantCode.case]
  have free : List.lookup flavor.identity
      [("live", subject.case.live type values), ("block", block)] = none := by
    cases flavor <;> rfl
  have identities (arm : VariantCode × Nat) :
      eval world type [("live", subject.case.live type values), ("block", block)]
        (code.inVariant (arm.2 + 1) (Shape.identity flavor arm.1.width)) =
      some (inSummand code.count (arm.2 + 1) (Shape.value (List.replicate arm.1.width same))) := by
    rw [eval_inVariant, Shape.eval_identity (called _ _ free), Option.map_some]
  rw [apply_closure inputs, List.singleton_append, eval_block, run_singleton,
    eval_call_variable callable, blockIs]
  simp only [Option.bind_some, List.mapM_cons, List.mapM_nil, eval_choice, liveIs]
  rw [select_find? tells]
  simp only [identities, SetCode.answering?]
  cases code.variants.zipIdx.find? fun arm =>
    withoutRawMark arm.1.name == withoutRawMark subject.name <;> rfl

theorem SetCode.casesApart.answering? {code : SetCode} (apart : code.casesApart) {k : Nat}
    {subject : VariantCode} (subjectIs : code.variants[k]? = some subject) :
    code.answering? subject = some (subject, k) := by
  have member : (subject, k) ∈ code.variants.zipIdx :=
    List.mk_mem_zipIdx_iff_getElem?.2 subjectIs
  obtain ⟨arm, answers⟩ := Option.isSome_iff_exists.1
    (List.find?_isSome.2 ⟨(subject, k), member, beq_self_eq_true _⟩ :
      (code.answering? subject).isSome)
  have inside := List.mem_of_find?_eq_some answers
  have name : withoutRawMark arm.1.name = withoutRawMark subject.name := by
    simpa using List.find?_some answers
  by_contra other
  have armIs := List.mk_mem_zipIdx_iff_getElem?.1 inside
  refine apart.ne armIs subjectIs (fun same => other ?_) name
  exact answers.trans (congrArg some (eq_of_mem_zipIdx subjectIs inside same))

/-- The variants answer for themselves only if their names tell them apart. -/
theorem SetCode.casesApart_of_answering? {code : SetCode}
    (answers : ∀ k subject, code.variants[k]? = some subject →
      ∃ arm, code.answering? subject = some arm ∧ arm.2 = k) : code.casesApart := by
  rw [SetCode.casesApart, List.nodup_iff_getElem?_ne_getElem?]
  intro i k lt inside
  rw [List.length_map] at inside
  rw [List.getElem?_map, List.getElem?_map, List.getElem?_eq_getElem (Nat.lt_trans lt inside),
    List.getElem?_eq_getElem inside]
  intro same
  have names := Option.some.inj same
  -- both variants would have the same answer, each at its own place
  obtain ⟨arm, first, atFirst⟩ := answers i _ (List.getElem?_eq_getElem (Nat.lt_trans lt inside))
  obtain ⟨other, second, atSecond⟩ := answers k _ (List.getElem?_eq_getElem inside)
  have equal : code.answering? code.variants[i] = code.answering? code.variants[k] := by
    simp only [SetCode.answering?, names]
  rw [equal, second, Option.some.injEq] at first
  subst first
  omega

end Transaction

end Slotwise.Optics.Prism
