import Mathlib.Data.List.Nodup
import Mathlib.Data.List.Perm.Subperm
import Slotwise.Check.Declaration
import Slotwise.Proofs.Lens
/-!
# Type parameters of methods

The method that edits a field and awaits the new value has a type parameter of its own, for the
future. Its name is searched among `Fut`, `Fut_`, `Fut__` and so on: the first one that is no type
parameter of the record. The search ends, since a record has finitely many type parameters
(`TypeParameters.exists_candidate_of_fresh`).

Whether the name is taken otherwise plays no part in the search. A file is hygienic if no type
parameter of a method is one of the implementation around it or occurs in the type of a field. For
the file of a record this says that a search which also keeps clear of the words of these types, and
of type parameters behind their raw marks, gives the same name (`Lens.future_hygienic_iff`). A field
whose type is named `Fut` makes the difference (`Lens.not_hygienic_waiting`).
-/

namespace Slotwise

open Code Naming

/-! ## Words and scopes -/

namespace Code

namespace Token

mutual

/-- The words in a token, without raw marks. -/
def wordsIn : Token → List String
  | word text => [withoutRawMark text]
  | group _ body => wordsInAll body
  | _ => []

/-- The words in a sequence of tokens, at any depth and without raw marks. -/
def wordsInAll : List Token → List String
  | [] => []
  | token :: rest => wordsIn token ++ wordsInAll rest

end

end Token

/-- The type parameters of a function, and those of the block around it. -/
structure Scope where
  /-- The parameters of the block. -/
  around : List String
  /-- The parameters of the function. -/
  own : List String
deriving DecidableEq

namespace Node

/-- The words of a piece of code. -/
def wordsIn (node : Node) : List String :=
  Token.wordsInAll node.tokens

/-- The names of declared type parameters. -/
def parameterNames : Option Node → List String
  | some (generics parameters _) => parameters.filterMap parameterName?
  | _ => []

/-- The type parameters of the function that an item defines. -/
def ownParameters : Node → List String
  | attributed _ item => item.ownParameters
  | visible _ item => item.ownParameters
  | function _ _ declared _ _ _ _ _ => parameterNames declared
  | _ => []

/-- The type parameters in scope in the functions of an item. -/
def scopes : Node → List Scope
  | attributed _ item => item.scopes
  | visible _ item => item.scopes
  | implementation _ declared _ _ _ _ items
  | traitItem _ _ declared _ _ items =>
    items.map fun item => ⟨parameterNames declared, item.ownParameters⟩
  | _ => []

theorem scopes_of_isUse {node : Node} (h : node.isUse = true) : node.scopes = [] := by
  fun_induction isUse node with
  | case1 _ item ih => exact ih h
  | case2 _ item ih => exact ih h
  | case3 => rfl
  | case4 => cases h

@[simp] theorem scopes_behind (attributes : List Node) (node : Node) :
    (behind attributes node).scopes = node.scopes := by
  unfold behind
  split <;> simp [scopes]

end Node

namespace File

/-- The type parameters in scope in the functions of a file. -/
def scopes (file : File) : List Scope :=
  file.items.flatMap Node.scopes

/-- No type parameter of a function is one of the block around it, or a word of the type of a field
of the struct. -/
def Hygienic (file : File) : Prop :=
  ∀ scope ∈ file.scopes, ∀ name ∈ scope.own, name ∉ scope.around ∧
    ∀ declared, file.struct? = some declared → ∀ part ∈ declared.fields, name ∉ part.2.wordsIn

end File

end Code

namespace Optics

/-! ## The search for a name -/

namespace TypeParameters

/-- A name behind so many steps of the search. -/
def candidate (stem : String) (count : Nat) : String :=
  stem ++ String.ofList (List.replicate count '_')

theorem candidate_zero (stem : String) : candidate stem 0 = stem := by
  simp [candidate]

theorem candidate_succ (stem : String) (count : Nat) :
    candidate (stem ++ "_") count = candidate stem (count + 1) := by
  have underscore : "_" = String.ofList ['_'] := rfl
  rw [candidate, candidate, underscore, String.append_assoc, ← String.ofList_append,
    List.replicate_succ, List.singleton_append]

theorem candidate_injective (stem : String) : Function.Injective (candidate stem) := by
  intro i j same
  have lengths := congrArg String.length same
  simpa [candidate] using lengths

/-- The search tries one candidate after the other, and stops before the bound only at one that is
not taken. -/
theorem exists_candidate_of_freshAmong (taken : List String) (stem : String) (bound : Nat) :
    ∃ count ≤ bound, freshAmong taken stem bound = candidate stem count ∧
      (∀ i < count, candidate stem i ∈ taken) ∧
      (candidate stem count ∈ taken → count = bound) := by
  induction bound generalizing stem with
  | zero =>
    refine ⟨0, Nat.le_refl 0, (candidate_zero stem).symm, ?_, fun _ => rfl⟩
    intro i impossible
    exact absurd impossible (Nat.not_lt_zero i)
  | succ bound ih =>
    rw [freshAmong]
    split
    · next isTaken =>
      obtain ⟨count, within, found, before, stops⟩ := ih (stem ++ "_")
      simp only [candidate_succ] at found before stops
      refine ⟨count + 1, Nat.succ_le_succ within, found, fun i earlier => ?_, fun inside => ?_⟩
      · cases i with
        | zero =>
          rw [candidate_zero]
          simpa using isTaken
        | succ i => exact before i (Nat.lt_of_succ_lt_succ earlier)
      · rw [stops inside]
    · next isFree =>
      rw [← candidate_zero stem] at isFree
      refine ⟨0, Nat.zero_le _, (candidate_zero stem).symm, ?_, ?_⟩
      · intro i impossible
        exact absurd impossible (Nat.not_lt_zero i)
      · intro inside
        exact absurd (List.contains_iff_mem.2 inside) isFree

/-- The search ends: after as many steps as there are type parameters at the latest, at the first
candidate that is none of them. -/
theorem exists_candidate_of_fresh (parameters : TypeParameters) (stem : String) :
    ∃ count ≤ parameters.names.length, parameters.fresh stem = candidate stem count ∧
      (∀ i < count, candidate stem i ∈ parameters.names) ∧
      candidate stem count ∉ parameters.names := by
  obtain ⟨count, within, found, before, stops⟩ :=
    exists_candidate_of_freshAmong parameters.names stem parameters.names.length
  refine ⟨count, within, found, before, fun inside => ?_⟩
  have all := stops inside
  -- the bound is reached only if all candidates up to it are taken, one more than there are names
  have distinct : ((List.range (count + 1)).map (candidate stem)).Nodup :=
    List.nodup_range.map (candidate_injective stem)
  have among : (List.range (count + 1)).map (candidate stem) ⊆ parameters.names := by
    intro name member
    obtain ⟨i, inRange, rfl⟩ := List.mem_map.1 member
    obtain earlier | rfl := Nat.lt_succ_iff_lt_or_eq.1 (List.mem_range.1 inRange)
    · exact before i earlier
    · exact inside
  have tooMany := (distinct.subperm among).length_le
  rw [List.length_map, List.length_range, all] at tooMany
  exact absurd tooMany (Nat.not_succ_le_self _)

theorem fresh_eq_candidate_iff {parameters : TypeParameters} {stem : String} {count : Nat} :
    parameters.fresh stem = candidate stem count ↔
      (∀ i < count, candidate stem i ∈ parameters.names) ∧
      candidate stem count ∉ parameters.names := by
  obtain ⟨first, -, found, before, free⟩ := exists_candidate_of_fresh parameters stem
  rw [found]
  constructor
  · intro same
    rw [← candidate_injective stem same]
    exact ⟨before, free⟩
  · rintro ⟨others, otherFree⟩
    obtain less | same | greater := Nat.lt_trichotomy first count
    · exact absurd (others first less) free
    · rw [same]
    · exact absurd (before count greater) otherFree

/-- A search that keeps clear of further names gives the same one if and only if that is none of
them. -/
theorem fresh_append_eq_iff (parameters : TypeParameters) (further : List String) (stem : String) :
    (⟨parameters.names ++ further⟩ : TypeParameters).fresh stem = parameters.fresh stem ↔
      parameters.fresh stem ∉ further := by
  obtain ⟨count, -, found, before, free⟩ := exists_candidate_of_fresh parameters stem
  rw [found, fresh_eq_candidate_iff]
  constructor
  · rintro ⟨-, otherFree⟩ inside
    exact otherFree (List.mem_append_right _ inside)
  · intro outside
    refine ⟨fun i earlier => List.mem_append_left _ (before i earlier), ?_⟩
    rw [List.mem_append]
    exact not_or.2 ⟨free, outside⟩

end TypeParameters

/-! ## The file of a record -/

namespace Lens

theorem parameterNames_generics (names : List String) (bounds : List Node) :
    Node.parameterNames (some (.generics
      (names.map fun name => .parameter (.named name) bounds none) false)) =
      names.map withoutRawMark :=
  filterMap_map_some (g := Node.parameterName?) (fun _ => rfl) names

theorem parameterNames_declared (parameters : TypeParameters) :
    Node.parameterNames parameters.declared = parameters.names.map withoutRawMark := by
  unfold TypeParameters.declared
  split
  · next empty =>
    rw [List.isEmpty_iff.1 empty]
    rfl
  · exact parameterNames_generics _ _

theorem parameterNames_declaredOwned (parameters : TypeParameters) :
    Node.parameterNames parameters.declaredOwned = parameters.names.map withoutRawMark := by
  unfold TypeParameters.declaredOwned
  split
  · next empty =>
    rw [List.isEmpty_iff.1 empty]
    rfl
  · exact parameterNames_generics _ _

namespace RecordCode

variable (code : RecordCode)

/-- The name of the type parameter for the future. -/
def future : String :=
  code.parameters.fresh "Fut"

/-- The type parameters in scope in a method that awaits a new value. -/
def futureScope : Scope :=
  ⟨code.parameters.names.map withoutRawMark, [code.future]⟩

/-- The words in scope: the type parameters, and the words of the types of the fields. -/
def wordsInScope : List String :=
  code.parameters.names.map withoutRawMark ++ code.fields.flatMap fun field => field.type.wordsIn

theorem withoutRawMark_future : withoutRawMark code.future = code.future := by
  obtain ⟨count, -, found, -⟩ := code.parameters.exists_candidate_of_fresh "Fut"
  apply withoutRawMark_of_not_mem
  rw [future, found, TypeParameters.candidate]
  simp

end RecordCode

/-- Of the two methods that edit a field, the second one has the future for its type parameter. -/
theorem ownParameters_of_simpleSetters {code : RecordCode} {row : FieldCode × String}
    {items : List Node} (h : simpleSetters code row.1 row.2 = .ok items) :
    items.map Node.ownParameters = [[], [code.future]] := by
  obtain ⟨asyncName, -, h⟩ := Outcome.bind_eq_ok_iff.1 h
  have named : Node.parameterNames (some (.generics
      [.parameter (.named code.future) [.boundWith "Future" "Output" row.1.type] none] false)) =
      [code.future] :=
    (parameterNames_generics [code.future] _).trans (congrArg ([·]) code.withoutRawMark_future)
  rw [← Outcome.pure_eq_ok_iff.1 h, ← named]
  rfl

theorem own_of_simpleSetters {code : RecordCode} {simple : List (List Node)}
    (h : code.rows.mapM (fun row => simpleSetters code row.1 row.2) = .ok simple) {item : Node}
    (member : item ∈ simple.flatten) :
    item.ownParameters = [] ∨ item.ownParameters = [code.future] := by
  obtain ⟨items, fromRow, member⟩ := List.mem_flatten.1 member
  obtain ⟨row, -, ok⟩ := Outcome.mem_of_mapM h fromRow
  have among : item.ownParameters ∈ [[], [code.future]] := by
    rw [← ownParameters_of_simpleSetters ok]
    exact List.mem_map_of_mem member
  exact List.mem_pair.1 among

theorem exists_future_of_simpleSetters {code : RecordCode} {simple : List (List Node)}
    (h : code.rows.mapM (fun row => simpleSetters code row.1 row.2) = .ok simple)
    (more : code.rows ≠ []) : ∃ item ∈ simple.flatten, item.ownParameters = [code.future] := by
  obtain ⟨row, rest, rowsAre⟩ := List.exists_cons_of_ne_nil more
  have member : row ∈ code.rows := by
    rw [rowsAre]
    exact List.mem_cons_self
  obtain ⟨items, fromRow, ok⟩ := Outcome.exists_of_mapM h member
  have among : [code.future] ∈ items.map Node.ownParameters := by
    rw [ownParameters_of_simpleSetters ok]
    exact List.mem_pair.2 (.inr rfl)
  obtain ⟨item, inside, own⟩ := List.mem_map.1 among
  exact ⟨item, List.mem_flatten.2 ⟨items, fromRow, inside⟩, own⟩

theorem own_of_transactional {code : RecordCode} {setters asyncSetters item : Node}
    (member : item ∈ transactional code setters asyncSetters) : item.ownParameters = [] := by
  have all : ∀ item ∈ transactional code setters asyncSetters, item.ownParameters = [] := by
    simp only [transactional, List.forall_mem_cons]
    exact ⟨rfl, rfl, rfl, rfl, fun _ impossible => (by cases impossible)⟩
  exact all item member

theorem own_of_setterOps {code : RecordCode} {flavor : Flavor} {setters : Node} {ops : List Node}
    (h : setterOps code flavor setters = .ok ops) {scope : Scope}
    (member : scope ∈ ops.flatMap Node.scopes) : scope.own = [] := by
  obtain ⟨trait, -, h⟩ := Outcome.bind_eq_ok_iff.1 h
  rw [← Outcome.pure_eq_ok_iff.1 h] at member
  simp only [SetterMethod.items, SetterMethod.item, Node.traitFor, Node.isPublic, Node.scopes,
    List.flatMap_cons, List.flatMap_nil, List.append_nil, List.mem_append, List.map_map,
    List.mem_map] at member
  obtain ⟨method, -, rfl⟩ | ⟨method, -, rfl⟩ := member <;> rfl

/-- The only type parameters of methods are those for futures. -/
theorem scopes_of_file {record : Record} {around : Surroundings} {file : File}
    (h : Lens.file record around = .ok file) :
    ∃ code, RecordCode.ofRecord record = .ok code ∧
      (∀ scope ∈ file.scopes, scope.own = [] ∨ scope = code.futureScope) ∧
      (code.fields ≠ [] → code.futureScope ∈ file.scopes) := by
  obtain ⟨code, imports, simple, ops, asyncOps, codeOk, areUses, simpleOk, opsOk, asyncOpsOk,
    itemsAre⟩ := items_of_file h
  have ofImports : imports.flatMap Node.scopes = [] := by
    rw [List.flatMap_eq_nil_iff]
    exact fun node member => Node.scopes_of_isUse (areUses node member)
  have ofStruct : (struct record code).scopes = [] := Node.scopes_behind _ _
  have aliases (doc name : String) (generics : Option Node) (type : Node) :
      (typeAlias doc name generics type).scopes = [] := rfl
  have methods (generics : Option Node) (items : List Node) :
      (Node.methodsOf generics code.type items).scopes =
        items.map fun item => ⟨Node.parameterNames generics, item.ownParameters⟩ := rfl
  have scopesAre : file.scopes = (constructor code :: simple.flatten).map
        (fun item => ⟨code.parameters.names.map withoutRawMark, item.ownParameters⟩) ++
      (transactional code (code.setters .direct) (code.setters .asynchronous)).map
        (fun item => ⟨code.parameters.names.map withoutRawMark, item.ownParameters⟩) ++
      (ops.flatMap Node.scopes ++ asyncOps.flatMap Node.scopes) := by
    rw [File.scopes, itemsAre, List.flatMap_append, ofImports, List.nil_append, RecordCode.items,
      List.flatMap_append, List.flatMap_append]
    simp only [List.flatMap_cons, List.flatMap_nil, ofStruct, aliases, methods,
      parameterNames_declared, parameterNames_declaredOwned, List.nil_append, List.append_nil]
  refine ⟨code, codeOk, ?_, ?_⟩
  · intro scope member
    rw [scopesAre, List.mem_append, List.mem_append, List.mem_append] at member
    obtain (edits | transactions) | ops | ops := member
    · obtain ⟨item, inside, rfl⟩ := List.mem_map.1 edits
      obtain rfl | inside := List.mem_cons.1 inside
      · exact .inl rfl
      · exact (own_of_simpleSetters simpleOk inside).imp_right (congrArg (Scope.mk _))
    · obtain ⟨item, inside, rfl⟩ := List.mem_map.1 transactions
      exact .inl (own_of_transactional inside)
    · exact .inl (own_of_setterOps opsOk ops)
    · exact .inl (own_of_setterOps asyncOpsOk ops)
  · intro more
    have rows : code.rows ≠ [] := by
      intro none
      have width : code.rows.length = code.fields.length := by
        rw [RecordCode.rows, List.length_zip, (reads_of_ofRecord codeOk).setterNames_length,
          Nat.min_self]
      rw [none] at width
      exact more (List.eq_nil_of_length_eq_zero width.symm)
    obtain ⟨item, inside, own⟩ := exists_future_of_simpleSetters simpleOk rows
    rw [scopesAre, List.append_assoc, List.mem_append, RecordCode.futureScope, ← own]
    exact .inl (List.mem_map.2 ⟨item, List.mem_cons_of_mem _ inside, rfl⟩)

/-- A record without fields brings no words into scope. -/
theorem Reads.wordsInScope_eq_nil {record : Record} {code : RecordCode} (reads : Reads record code)
    (none : code.fields = []) : code.wordsInScope = [] := by
  have recordNone : record.fields = [] := by
    apply List.eq_nil_of_length_eq_zero
    rw [← reads.width, RecordCode.width, none]
    rfl
  have parameters := reads.parameters
  rw [recordNone] at parameters
  have noParameters : code.parameters = ⟨[]⟩ := (Except.ok.inj parameters).symm
  rw [RecordCode.wordsInScope, none, noParameters]
  rfl

/-- The file of a record is hygienic if the name for the future is no word in scope. -/
theorem hygienic_iff_not_mem {record : Record} {around : Surroundings} {file : File}
    (h : Lens.file record around = .ok file) {code : RecordCode}
    (codeOk : RecordCode.ofRecord record = .ok code) :
    file.Hygienic ↔ code.future ∉ code.wordsInScope := by
  obtain ⟨code', codeOk', emits⟩ := emits_of_file h
  obtain rfl : code = code' := Except.ok.inj (codeOk.symm.trans codeOk')
  obtain ⟨code', codeOk', only, present⟩ := scopes_of_file h
  obtain rfl : code = code' := Except.ok.inj (codeOk.symm.trans codeOk')
  constructor
  · intro hygienic inside
    by_cases none : code.fields = []
    · rw [(reads_of_ofRecord codeOk).wordsInScope_eq_nil none] at inside
      cases inside
    · obtain ⟨outside, unnamed⟩ :=
        hygienic code.futureScope (present none) code.future List.mem_cons_self
      obtain parameter | inside := List.mem_append.1 inside
      · exact outside parameter
      · obtain ⟨field, member, inside⟩ := List.mem_flatMap.1 inside
        exact unnamed _ emits.struct _ (List.mem_map.2 ⟨field, member, rfl⟩) inside
  · intro outside scope member name own
    obtain none | rfl := only scope member
    · rw [none] at own
      cases own
    · obtain rfl := List.mem_singleton.1 own
      refine ⟨fun inside => outside (List.mem_append_left _ inside), ?_⟩
      intro declared declaredIs part partIn inside
      obtain rfl := Option.some.inj (emits.struct.symm.trans declaredIs)
      obtain ⟨field, fieldIn, rfl⟩ := List.mem_map.1 partIn
      exact outside (List.mem_append_right _ (List.mem_flatMap.2 ⟨field, fieldIn, inside⟩))

/-- The name for the future is found by a search that ends, and is none of the type parameters as
they are written. The methods that await new values have it for their type parameter, and no other
function of the file has one. The file is hygienic if and only if a search that also keeps clear of
all words in scope gives the same name, as it does if none of the candidates is such a word without
being a type parameter. -/
theorem future_hygienic_iff {record : Record} {around : Surroundings} {file : File}
    (generated : Lens.file record around = .ok file) :
    ∃ code, RecordCode.ofRecord record = .ok code ∧
      (∃ count ≤ code.parameters.names.length,
        code.future = TypeParameters.candidate "Fut" count ∧
        ∀ i < count, TypeParameters.candidate "Fut" i ∈ code.parameters.names) ∧
      code.future ∉ code.parameters.names ∧
      (∀ scope ∈ file.scopes, scope.own = [] ∨ scope = code.futureScope) ∧
      (code.fields ≠ [] → code.futureScope ∈ file.scopes) ∧
      (file.Hygienic ↔
        (⟨code.parameters.names ++ code.wordsInScope⟩ : TypeParameters).fresh "Fut" =
          code.future) ∧
      ((∀ i, TypeParameters.candidate "Fut" i ∈ code.wordsInScope →
        TypeParameters.candidate "Fut" i ∈ code.parameters.names) → file.Hygienic) := by
  obtain ⟨code, codeOk, only, present⟩ := scopes_of_file generated
  obtain ⟨count, within, found, before, free⟩ :=
    code.parameters.exists_candidate_of_fresh "Fut"
  have futureIs : code.future = TypeParameters.candidate "Fut" count := found
  have apart := hygienic_iff_not_mem generated codeOk
  refine ⟨code, codeOk, ⟨count, within, found, before⟩, ?_, only, present, ?_, ?_⟩
  · rwa [futureIs]
  · rw [apart]
    exact (code.parameters.fresh_append_eq_iff code.wordsInScope "Fut").symm
  · intro spelled
    rw [apart, futureIs]
    exact fun inside => free (spelled count inside)

/-! ### Two records -/

/-- A record with a type variable of the name that is tried first. -/
def holder : Record :=
  (Record.new "Holder").withField (.new "f" (.typeVariable "Fut"))

/-- A record with a field whose type has the name that is tried first. -/
def waiting : Record :=
  (Record.new "Waiting").withField (.new "f" (.named "Fut"))

/-- The file of the first record. -/
def holderLens : { file : File // Lens.file holder Prism.besideEachOther = .ok file } :=
  Outcome.value <| by
    simp only [Lens.file, productImports, typeImports, Ordered.sortedTexts,
      Ordered.sortedSet_eq_foldr]
    decide +kernel

/-- The file of the second record. -/
def waitingLens : { file : File // Lens.file waiting Prism.besideEachOther = .ok file } :=
  Outcome.value <| by
    simp only [Lens.file, productImports, typeImports, Ordered.sortedTexts,
      Ordered.sortedSet_eq_foldr]
    decide +kernel

theorem future_hygienic_holder :
    Check.record holder = .ok () ∧
      ∃ file code, Lens.file holder Prism.besideEachOther = .ok file ∧
        RecordCode.ofRecord holder = .ok code ∧ code.future = "Fut_" ∧ file.Hygienic := by
  obtain ⟨_, accepted⟩ := Outcome.exists_of_isOk
    (show (Check.record holder).isOk = true by decide +kernel)
  obtain ⟨file, generated⟩ := holderLens
  obtain ⟨code, codeOk, -, -, -, -, hygienic, -⟩ := future_hygienic_iff generated
  have computed : (RecordCode.ofRecord holder).toOption.any (fun code => code.future = "Fut_" ∧
      (⟨code.parameters.names ++ code.wordsInScope⟩ : TypeParameters).fresh "Fut" = code.future) =
        true := by decide +kernel
  rw [codeOk] at computed
  obtain ⟨futureIs, same⟩ := of_decide_eq_true computed
  exact ⟨accepted, file, code, generated, codeOk, futureIs, hygienic.2 same⟩

/-- A record that passes all checks and is generated, in whose file the type of a field is taken for
the type parameter of a method. -/
theorem not_hygienic_waiting :
    Check.record waiting = .ok () ∧
      ∃ file, Lens.file waiting Prism.besideEachOther = .ok file ∧ ¬ file.Hygienic := by
  obtain ⟨_, accepted⟩ := Outcome.exists_of_isOk
    (show (Check.record waiting).isOk = true by decide +kernel)
  obtain ⟨file, generated⟩ := waitingLens
  obtain ⟨code, codeOk, -⟩ := scopes_of_file generated
  have computed : (RecordCode.ofRecord waiting).toOption.any
      (fun code => code.future ∈ code.wordsInScope) = true := by decide +kernel
  rw [codeOk] at computed
  refine ⟨accepted, file, generated, fun hygienic => ?_⟩
  exact (hygienic_iff_not_mem generated codeOk).1 hygienic (of_decide_eq_true computed)

end Lens

end Optics

end Slotwise
