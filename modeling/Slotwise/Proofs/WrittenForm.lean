import Slotwise.Proofs.ReadingBack
/-!
# The written form of the model

What is written is read back, and a type is converted to its form and back. One thing that can be
written cannot be read. A form gives the relation to type variables by a word and the variables in a
list beside it, and the list is for parametric types only. Where another type has one, the type is not
read, and with it nothing that it stands in: no type that depends on it, no declaration with a field of
it and no request with such a declaration.

Main statements: a request with such a type is not read (`request?_of_mismatched`), and the laws of the
written form, for every part of a request (`model_reads_back`).
-/

namespace Slotwise

namespace TypeRef

/-- A form is refused just if it lists variables although its word is another one, and the error names
the type and these variables. -/
theorem ofForm_eq_mismatch_iff {form : TypeForm} {error : ModelError} :
    ofForm form = .error error ↔ (form.generic ≠ .inVariables ∧ form.variableNames ≠ []) ∧
      error = .genericMismatch form.name form.variableNames := by
  rcases form with ⟨name, package, generic, variableNames, dependencies, serialization⟩
  cases generic <;> cases variableNames <;> simp [ofForm, eq_comm]

/-- A form that is accepted can be told from its type. -/
theorem toForm_of_ofForm {form : TypeForm} {type : TypeRef} (h : ofForm form = .ok type) :
    type.toForm = form := by
  rcases form with ⟨name, package, generic, variableNames, dependencies, serialization⟩
  cases generic <;> cases variableNames <;> cases h <;> rfl

end TypeRef

namespace Codec

variable {dialect : Dialect}

/-! ## Places in a document -/

/-- The value of a field in a written value. -/
def valueUnder? (dialect : Dialect) (names : List String) (name : String) (document : Document) :
    Option Document :=
  (look? dialect true names document).bind fun look => look name

/-- A field of a written value holds a list with this document. -/
def Lists (dialect : Dialect) (names : List String) (name : String)
    (document item : Document) : Prop :=
  ∃ items, valueUnder? dialect names name document = some (.list items) ∧ item ∈ items

/-- The fields of a written field of a declaration. -/
def fieldNames : List String :=
  ["name", "type", "default_value", "modifiers", "doc"]

/-- The fields of a written record. -/
def recordNames : List String :=
  ["name", "location", "fields", "setters_suffix", "serializable", "doc"]

/-- The fields of a written variant. -/
def variantNames : List String :=
  ["name", "fields", "overrides", "default_values", "doc"]

/-- The fields of a written variant set. -/
def variantSetNames : List String :=
  ["name", "location", "fields", "variants", "setters_suffix", "serializable", "serialization",
    "doc"]

/-- The request has a declaration with this field: a record, a variant set or one of its variants. -/
inductive HasField (dialect : Dialect) (request field : Document) : Prop where
  /-- A field of a record. -/
  | ofRecord {record : Document} (declared : Lists dialect requestNames "data_classes" request record)
    (owned : Lists dialect recordNames "fields" record field)
  /-- A base field of a variant set. -/
  | ofSet {set : Document} (declared : Lists dialect requestNames "sealed_classes" request set)
    (owned : Lists dialect variantSetNames "fields" set field)
  /-- A field of a variant. -/
  | ofVariant {set variant : Document}
    (declared : Lists dialect requestNames "sealed_classes" request set)
    (among : Lists dialect variantSetNames "variants" set variant)
    (owned : Lists dialect variantNames "fields" variant field)

/-- The type, or one that it depends on however deeply, lists variables although it is not
parametric. -/
inductive Mismatched (dialect : Dialect) : Document → Prop where
  /-- The type itself. -/
  | here {type : Document} {listedNames : List Document}
    (listed : valueUnder? dialect typeNames "generic_in" type = some (.list listedNames))
    (nonempty : listedNames ≠ [])
    (other : ∀ word, valueUnder? dialect typeNames "generic" type = some word →
      (word? dialect word).bind genericWord? ≠ some .inVariables) : Mismatched dialect type
  /-- A type that it depends on. -/
  | inside {type dependency : Document}
    (depends : Lists dialect typeNames "dependencies" type dependency)
    (mismatched : Mismatched dialect dependency) : Mismatched dialect type

/-! ## What cannot be read -/

/-- A list in a field is not read if one of its members is not. -/
theorem listOf?_of_lists {α : Type} {names : List String} {name : String}
    {document item : Document} {look : Look} {read : Document → Option α}
    (looked : look? dialect true names document = some look)
    (listed : Lists dialect names name document item) (unread : read item = none) :
    ∃ items, look name = some items ∧ listOf? read items = none := by
  obtain ⟨items, given, member⟩ := listed
  rw [valueUnder?, looked] at given
  exact ⟨.list items, given, Outcome.mapM_eq_none member unread⟩

theorem ne_of_lists_orElse {α : Type} {names : List String} {name : String}
    {document item : Document} {look : Look} {read : Document → Option α}
    (looked : look? dialect true names document = some look)
    (listed : Lists dialect names name document item) (unread : read item = none)
    (fallback values : List α) : orElse look name fallback (listOf? read) ≠ some values := by
  obtain ⟨items, given, nothing⟩ := listOf?_of_lists looked listed unread
  rw [orElse, given]
  exact fun same => by cases nothing.symm.trans same

theorem ne_of_lists_required {α : Type} {names : List String} {name : String}
    {document item : Document} {look : Look} {read : Document → Option α}
    (looked : look? dialect true names document = some look)
    (listed : Lists dialect names name document item) (unread : read item = none)
    (values : List α) : required look name (listOf? read) ≠ some values := by
  obtain ⟨items, given, nothing⟩ := listOf?_of_lists looked listed unread
  rw [required, given]
  exact fun same => by cases nothing.symm.trans same

theorem ofForm_of_here {dependency? : Document → Option TypeRef} {type : Document}
    {listedNames : List Document} {form : TypeForm}
    (listed : valueUnder? dialect typeNames "generic_in" type = some (.list listedNames))
    (nonempty : listedNames ≠ [])
    (other : ∀ word, valueUnder? dialect typeNames "generic" type = some word →
      (word? dialect word).bind genericWord? ≠ some .inVariables)
    (h : typeFormWith? dialect dependency? type = some form) :
    ∃ error, TypeRef.ofForm form = .error error := by
  simp only [typeFormWith?, Option.bind_eq_bind, Option.bind_eq_some_iff, Option.pure_def,
    Option.some.injEq] at h
  obtain ⟨look, looked, name, _, package, _, generic, word, variableNames, names, dependencies, _,
    serialization, _, rfl⟩ := h
  rw [valueUnder?, looked, Option.bind_some] at listed
  refine ⟨_, TypeRef.ofForm_eq_mismatch_iff.2 ⟨⟨fun parametric => ?_, fun empty => ?_⟩, rfl⟩⟩
  · rw [orElse] at word
    split at word
    · cases word
      cases parametric
    · next document given =>
      refine other document ?_ (word.trans (congrArg some parametric))
      rw [valueUnder?, looked, Option.bind_some, given]
  · rw [orElse, listed] at names
    cases listedNames with
    | nil => exact nonempty rfl
    | cons first rest =>
      simp only [listOf?, List.mapM_cons, Option.bind_eq_bind, Option.bind_eq_some_iff,
        Option.pure_def, Option.some.injEq] at names
      obtain ⟨_, _, _, _, rfl⟩ := names
      cases empty

/-- A mismatched type is not read, whatever bounds its depth. -/
theorem typeBelow?_of_mismatched {type : Document} (mismatched : Mismatched dialect type)
    (bound : Nat) : typeBelow? dialect bound type = none := by
  induction mismatched generalizing bound with
  | here listed nonempty other =>
    cases bound with
    | zero => rfl
    | succ bound =>
      rw [typeBelow?]
      cases read : typeFormWith? dialect (typeBelow? dialect bound) _ with
      | none => rfl
      | some form =>
        obtain ⟨error, refused⟩ := ofForm_of_here listed nonempty other read
        simp [refused]
  | inside depends _ ih =>
    cases bound with
    | zero => rfl
    | succ bound =>
      rw [typeBelow?]
      cases read : typeFormWith? dialect (typeBelow? dialect bound) _ with
      | none => rfl
      | some form =>
        simp only [typeFormWith?, Option.bind_eq_bind, Option.bind_eq_some_iff, Option.pure_def,
          Option.some.injEq] at read
        obtain ⟨look, looked, _, _, _, _, _, _, _, _, dependencies, given, _⟩ := read
        exact absurd given (ne_of_lists_orElse looked depends (ih bound) _ _)

theorem field?_of_mismatched {field type : Document}
    (given : valueUnder? dialect fieldNames "type" field = some type)
    (mismatched : Mismatched dialect type) : field? dialect field = none := by
  cases read : field? dialect field with
  | none => rfl
  | some value =>
    simp only [field?, Option.bind_eq_bind, Option.bind_eq_some_iff, Option.pure_def,
      Option.some.injEq] at read
    obtain ⟨look, looked, _, _, type', found, _⟩ := read
    have same : look "type" = some type := by
      rw [valueUnder?, fieldNames, looked] at given
      exact given
    rw [required, same, Option.bind_some, type?, typeBelow?_of_mismatched mismatched] at found
    cases found

theorem record?_of_field {record field : Document}
    (owned : Lists dialect recordNames "fields" record field) (unread : field? dialect field = none) :
    record? dialect record = none := by
  cases read : record? dialect record with
  | none => rfl
  | some value =>
    simp only [record?, Option.bind_eq_bind, Option.bind_eq_some_iff] at read
    obtain ⟨look, looked, _, _, _, _, fields, given, _⟩ := read
    exact absurd given (ne_of_lists_required looked owned unread fields)

theorem variant?_of_field {variant field : Document}
    (owned : Lists dialect variantNames "fields" variant field)
    (unread : field? dialect field = none) : variant? dialect variant = none := by
  cases read : variant? dialect variant with
  | none => rfl
  | some value =>
    simp only [variant?, Option.bind_eq_bind, Option.bind_eq_some_iff] at read
    obtain ⟨look, looked, _, _, fields, given, _⟩ := read
    exact absurd given (ne_of_lists_orElse looked owned unread [] fields)

theorem variantSet?_of_field {set field : Document}
    (owned : Lists dialect variantSetNames "fields" set field)
    (unread : field? dialect field = none) : variantSet? dialect set = none := by
  cases read : variantSet? dialect set with
  | none => rfl
  | some value =>
    obtain ⟨look, looked, given, -⟩ := exists_look_of_variantSet? read
    exact absurd given (ne_of_lists_orElse looked owned unread [] _)

theorem variantSet?_of_variant {set variant : Document}
    (among : Lists dialect variantSetNames "variants" set variant)
    (unread : variant? dialect variant = none) : variantSet? dialect set = none := by
  cases read : variantSet? dialect set with
  | none => rfl
  | some value =>
    obtain ⟨look, looked, -, given⟩ := exists_look_of_variantSet? read
    exact absurd given (ne_of_lists_required looked among unread _)

theorem request?_of_record {request record : Document}
    (declared : Lists dialect requestNames "data_classes" request record)
    (unread : record? dialect record = none) : request? dialect request = none := by
  cases read : request? dialect request with
  | none => rfl
  | some value =>
    obtain ⟨look, looked, given⟩ := exists_look_of_request? read
    exact absurd given.records (ne_of_lists_orElse looked declared unread [] _)

theorem request?_of_variantSet {request set : Document}
    (declared : Lists dialect requestNames "sealed_classes" request set)
    (unread : variantSet? dialect set = none) : request? dialect request = none := by
  cases read : request? dialect request with
  | none => rfl
  | some value =>
    obtain ⟨look, looked, given⟩ := exists_look_of_request? read
    exact absurd given.variantSets (ne_of_lists_orElse looked declared unread [] _)

/-- A request with a field of a mismatched type is not read. -/
theorem request?_of_mismatched {request field type : Document}
    (has : HasField dialect request field)
    (given : valueUnder? dialect fieldNames "type" field = some type)
    (mismatched : Mismatched dialect type) : request? dialect request = none := by
  have unread := field?_of_mismatched given mismatched
  cases has with
  | ofRecord declared owned => exact request?_of_record declared (record?_of_field owned unread)
  | ofSet declared owned => exact request?_of_variantSet declared (variantSet?_of_field owned unread)
  | ofVariant declared among owned =>
    exact request?_of_variantSet declared
      (variantSet?_of_variant among (variant?_of_field owned unread))

/-! ## The written form of the model -/

/-- Everything that requests are made of is read back as it was written. -/
structure ReadsBack (dialect : Dialect) : Prop where
  /-- The words for the relation to type variables. -/
  word : ∀ word, genericWord? (genericWord word) = some word
  /-- Parts in serialization. -/
  serialization : ∀ serialization,
    serialization? (writeSerialization serialization) = some serialization
  /-- Types with everything that they depend on. -/
  type : ∀ type, type? dialect (writeType type) = some type
  /-- Types are written in their forms. -/
  form : ∀ type, typeForm? dialect (writeType type) = some type.toForm
  /-- Fields of declarations. -/
  field : ∀ field, field? dialect (writeField field) = some field
  /-- Locations. -/
  location : ∀ location, location? dialect (writeLocation location) = some location
  /-- Output options. -/
  options : ∀ options, options? dialect (writeOptions options) = some options
  /-- Records. -/
  record : ∀ record, record? dialect (writeRecord record) = some record
  /-- Variants. -/
  variant : ∀ variant : Variant, variant.InOrder →
    variant? dialect (writeVariant variant) = some variant
  /-- Variant sets. -/
  variantSet : ∀ set : VariantSet, (∀ variant ∈ set.variants, variant.InOrder) →
    variantSet? dialect (writeVariantSet set) = some set
  /-- Key groups. -/
  keyGroup : ∀ group : KeyGroup, group.count < numberBound →
    keyGroup? dialect (writeKeyGroup group) = some group
  /-- Selections with all their members. -/
  selection : ∀ selection : Selection, (∀ n ∈ selection.numbers, n < numberBound) →
    selection? dialect (writeSelection selection) = some selection
  /-- Requests. -/
  request : ∀ request : Request, Storable request →
    request? dialect (writeRequest request) = some request

/-- What is written is read back, in every notation, and so is a request that was read. A type is
converted to its form and back without loss. A form is refused just if it lists variables although it
is not parametric, and a request with such a type in or below a field is not read. -/
theorem model_reads_back (dialect : Dialect) :
    ReadsBack dialect ∧
    (∀ document request, request? dialect document = some request →
      request? dialect (writeRequest request) = some request) ∧
    (∀ type : TypeRef, TypeRef.ofForm type.toForm = .ok type) ∧
    (∀ form error, TypeRef.ofForm form = .error error ↔
      (form.generic ≠ .inVariables ∧ form.variableNames ≠ []) ∧
        error = .genericMismatch form.name form.variableNames) ∧
    (∀ form type, TypeRef.ofForm form = .ok type → type.toForm = form) ∧
    ∀ request field type, HasField dialect request field →
      valueUnder? dialect fieldNames "type" field = some type → Mismatched dialect type →
      request? dialect request = none := by
  refine ⟨?_, fun _ _ read => request?_writeRequest dialect (storable_of_request? read),
    TypeRef.ofForm_toForm, fun _ _ => TypeRef.ofForm_eq_mismatch_iff,
    fun _ _ => TypeRef.toForm_of_ofForm, fun _ _ _ => request?_of_mismatched⟩
  exact {
    word := genericWord?_genericWord
    serialization := serialization?_writeSerialization
    type := type?_writeType dialect
    form := typeForm?_writeType dialect
    field := field?_writeField dialect
    location := location?_writeLocation dialect
    options := options?_writeOptions dialect
    record := record?_writeRecord dialect
    variant := fun _ => variant?_writeVariant dialect
    variantSet := fun _ => variantSet?_writeVariantSet dialect
    keyGroup := fun _ => keyGroup?_writeKeyGroup dialect
    selection := fun _ => selection?_writeSelection dialect
    request := fun _ => request?_writeRequest dialect }

/-- A request with nested selections and types, with the greatest number that fits, and with a set and
a table of two names each. -/
def written : Request :=
  { Request.empty with
    products := some (.composite [.range 2 4 .anywhere, .list [3, 5] (.inPackage "app")] .anywhere)
    keys := [KeyGroup.new "Slot" 18446744073709551615]
    records := [(Record.new "Log").withField (.new "entries" (.mk "Vec<T>" "" (.parametric ["T"])
      [.mk "NaiveDate" "chrono" .concrete [] (.through (some "crate::dates"))] .plain))]
    variantSets := [⟨"Shape", .anywhere, [], [⟨"Circle", [], ["area", "label"],
      [("depth", "0"), ("height", "1")], []⟩], none, true, .polymorphic, []⟩] }

/-- A written request with a record that has one field, of a type with one dependency. -/
def dependingOn (dependency : Document) : Document :=
  .table [("data_classes", .list [.table [("name", .text "Log"), ("fields", .list [.table
    [("name", .text "entries"), ("type", .table [("name", .text "Entry"),
      ("dependencies", .list [dependency])])]])]])]

theorem model_reads_back_written :
    Storable written ∧
    request? .configuration (writeRequest written) = some written ∧
    request? .configuration (dependingOn (.table [("name", .text "Tag"),
      ("generic_in", .list [.text "T"])])) = none := by
  obtain ⟨back, -, -, -, -, unread⟩ := model_reads_back .configuration
  have storable : Storable written := by
    refine ⟨by decide, fun set member variant among => ?_⟩
    cases List.mem_singleton.1 member
    cases List.mem_singleton.1 among
    exact ⟨by decide +kernel, by decide +kernel⟩
  refine ⟨storable, back.request written storable, ?_⟩
  refine unread _ _ _ (.ofRecord ⟨_, rfl, List.mem_singleton_self _⟩
    ⟨_, rfl, List.mem_singleton_self _⟩) rfl (.inside ⟨_, rfl, List.mem_singleton_self _⟩ ?_)
  exact .here rfl (List.cons_ne_nil _ _) fun _ given => by cases given

end Codec

end Slotwise
