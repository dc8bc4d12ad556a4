import Slotwise.Codec.Request
import Slotwise.Proofs.Order
import Slotwise.Proofs.Outcome
/-!
# Reading back what was written

Every value of the model is read back as it was written, in every notation: types however deep their
dependencies nest, selections however deep their composites do. Two things are asked of a request.
Its numbers fit in their fields, and the lists of a variant that stand for a set and for a table are
in order, with each name once; both hold of every request that was read.

Main statements: a request is read back as it was written (`request?_writeRequest`), and every request
that was read can be written and read again (`storable_of_request?`).
-/

namespace Slotwise

/-! ## Values that can be stored -/

namespace Selection

mutual

/-- The numbers that a selection is written with. -/
def numbers : Selection → List Nat
  | single dimension _ => [dimension]
  | range first last _ => [first, last]
  | list dimensions _ => dimensions
  | composite members _ => numbersAll members

/-- The numbers that several selections are written with. -/
def numbersAll : List Selection → List Nat
  | [] => []
  | member :: rest => numbers member ++ numbersAll rest

end

theorem numbersAll_eq_flatMap (members : List Selection) :
    numbersAll members = members.flatMap numbers := by
  induction members with
  | nil => rfl
  | cons member rest ih =>
    rw [List.flatMap_cons, ← ih]
    rfl

end Selection

/-- The lists that stand for a set and for a table are in order, with each name once. -/
structure Variant.InOrder (variant : Variant) : Prop where
  /-- The names of overriding fields. -/
  overrides : variant.overrides.Pairwise (compare · · = .lt)
  /-- The values by the names of their fields. -/
  baseValues : variant.baseValues.Pairwise fun a b => compare a.1 b.1 = .lt

/-- The numbers that a request is written with. -/
def Request.numbers (request : Request) : List Nat :=
  request.selections.flatMap Selection.numbers ++ request.keys.map (·.count)

namespace Codec

/-- All numbers of a request fit in their fields, and the sets and tables of its variants are in
order. -/
structure Storable (request : Request) : Prop where
  /-- The numbers. -/
  numbers : ∀ n ∈ request.numbers, n < numberBound
  /-- The sets and tables. -/
  inOrder : ∀ set ∈ request.variantSets, ∀ variant ∈ set.variants, variant.InOrder

theorem insertValue_of_greater {key value : String} {pairs : List (String × String)}
    (greater : ∀ pair ∈ pairs, compare pair.1 key = .lt) :
    insertValue key value pairs = pairs ++ [(key, value)] := by
  induction pairs with
  | nil => rfl
  | cons pair rest ih =>
    have above : compare key pair.1 = .gt :=
      Std.OrientedCmp.gt_of_lt (greater pair List.mem_cons_self)
    rw [insertValue, above, ih fun other among => greater other (List.mem_cons_of_mem _ among)]
    rfl

theorem sortedPairs_of_pairwise {pairs : List (String × String)}
    (sorted : pairs.Pairwise fun a b => compare a.1 b.1 = .lt) : sortedPairs pairs = pairs := by
  -- the pairs that were taken in come before those that are left
  suffices all : ∀ done, (done ++ pairs).Pairwise (fun a b => compare a.1 b.1 = .lt) →
      pairs.foldl (fun sorted pair => insertValue pair.1 pair.2 sorted) done = done ++ pairs by
    exact all [] sorted
  clear sorted
  intro done sorted
  induction pairs generalizing done with
  | nil => exact (List.append_nil done).symm
  | cons pair rest ih =>
    rw [List.append_cons] at sorted ⊢
    have before := (List.pairwise_append.1 (List.pairwise_append.1 sorted).1).2.2
    have step : insertValue pair.1 pair.2 done = done ++ [pair] :=
      insertValue_of_greater fun other among => before other among pair (List.mem_singleton_self _)
    show rest.foldl _ (insertValue pair.1 pair.2 done) = _
    rw [step]
    exact ih _ sorted

/-! ## Reading a table field by field -/

section Steps

variable {dialect : Dialect} {closed : Bool} {names : List String} {name : String}
  {entries : List (String × Document)} {look : Look} {document : Document} {α β : Type}
  {read : Document → Option α} {value : α} {result : Option β}

theorem look_bind {rest : Look → Option β} (known : allKnown names entries = true)
    (h : rest (fun name => Document.value? name entries) = result) :
    (look? dialect closed names (.table entries) >>= rest) = result := by
  rw [look_table known]
  exact h

theorem required_bind {rest : α → Option β} (given : look name = some document)
    (fits : read document = some value) (h : rest value = result) :
    (required look name read >>= rest) = result := by
  rw [required, given, Option.bind_some, fits]
  exact h

theorem orElse_bind {fallback : α} {rest : α → Option β} (given : look name = some document)
    (fits : read document = some value) (h : rest value = result) :
    (orElse look name fallback read >>= rest) = result := by
  rw [orElse, given]
  show (read document >>= rest) = result
  rw [fits]
  exact h

theorem optional_bind {value : Option α} {rest : Option α → Option β}
    (given : look name = some document) (fits : optional? read document = some value)
    (h : rest value = result) : (optional look name read >>= rest) = result :=
  orElse_bind given fits h

end Steps

/-! ## Lists and depths -/

theorem listOf?_map {α : Type} {read : Document → Option α} {write : α → Document}
    {values : List α} (h : ∀ value ∈ values, read (write value) = some value) :
    listOf? read (.list (values.map write)) = some values := by
  have each : values.mapM (read ∘ write) = some (values.map id) := Outcome.mapM_eq_some_map h
  rw [listOf?, List.mapM_map, each, List.map_id]

theorem depth_le_depthList {document : Document} {items : List Document} (h : document ∈ items) :
    document.depth ≤ Document.depthList items := by
  induction items with
  | nil => cases h
  | cons first rest ih =>
    show document.depth ≤ max first.depth (Document.depthList rest)
    obtain rfl | among := List.mem_cons.1 h
    · exact Nat.le_max_left _ _
    · exact Nat.le_trans (ih among) (Nat.le_max_right _ _)

theorem depth_le_depthEntries {entry : String × Document} {entries : List (String × Document)}
    (h : entry ∈ entries) : entry.2.depth ≤ Document.depthEntries entries := by
  induction entries with
  | nil => cases h
  | cons first rest ih =>
    show entry.2.depth ≤ max first.2.depth (Document.depthEntries rest)
    obtain rfl | among := List.mem_cons.1 h
    · exact Nat.le_max_left _ _
    · exact Nat.le_trans (ih among) (Nat.le_max_right _ _)

/-- What a list in an entry of a table holds is less deep than the table, by two. -/
theorem depth_lt_of_entry {name : String} {item : Document} {items : List Document}
    {entries : List (String × Document)} (entry : (name, .list items) ∈ entries)
    (member : item ∈ items) : item.depth + 1 < (Document.table entries).depth := by
  have inList := depth_le_depthList member
  have inTable : Document.depthList items + 1 ≤ Document.depthEntries entries :=
    depth_le_depthEntries entry
  show item.depth + 1 < Document.depthEntries entries + 1
  omega

theorem flag?_flag (value : Bool) : flag? (.flag value) = some value := rfl

theorem number?_natural {value : Nat} (fits : value < numberBound) :
    number? (.natural value) = some value := by
  rw [number?, if_pos fits]

/-! ## Types -/

theorem writeTypes_eq_map (types : List TypeRef) : writeTypes types = types.map writeType := by
  induction types with
  | nil => rfl
  | cons type rest ih =>
    rw [List.map_cons, ← ih]
    rfl

theorem typeFormWith?_writeType {dialect : Dialect} {dependency? : Document → Option TypeRef}
    {type : TypeRef}
    (h : ∀ dependency ∈ type.dependencies, dependency? (writeType dependency) = some dependency) :
    typeFormWith? dialect dependency? (writeType type) = some type.toForm := by
  rcases type with ⟨name, package, generic, dependencies, serialization⟩
  have list : listOf? dependency? (.list (writeTypes dependencies)) = some dependencies := by
    rw [writeTypes_eq_map]
    exact listOf?_map h
  refine look_bind rfl ?_
  refine orElse_bind rfl (text?_text _) ?_
  refine orElse_bind rfl (text?_text _) ?_
  refine orElse_bind rfl (genericWord?_genericWord _) ?_
  refine orElse_bind rfl (listOf?_texts _) ?_
  refine orElse_bind rfl list ?_
  refine orElse_bind rfl (serialization?_writeSerialization _) ?_
  rfl

theorem depth_dependency_lt {type dependency : TypeRef} (member : dependency ∈ type.dependencies) :
    (writeType dependency).depth < (writeType type).depth := by
  rcases type with ⟨name, package, generic, dependencies, serialization⟩
  have inside : writeType dependency ∈ writeTypes dependencies := by
    rw [writeTypes_eq_map]
    exact List.mem_map_of_mem member
  refine Nat.lt_of_succ_lt (@depth_lt_of_entry "dependencies" _ (writeTypes dependencies) _ ?_ inside)
  simp

theorem typeBelow?_writeType {dialect : Dialect} {bound : Nat} {type : TypeRef}
    (deep : (writeType type).depth ≤ bound) :
    typeBelow? dialect bound (writeType type) = some type := by
  induction bound generalizing type with
  | zero =>
    rcases type with ⟨name, package, generic, dependencies, serialization⟩
    exact absurd deep (Nat.not_succ_le_zero _)
  | succ bound ih =>
    have form : typeFormWith? dialect (typeBelow? dialect bound) (writeType type) =
        some type.toForm :=
      typeFormWith?_writeType fun dependency member =>
        ih (Nat.le_of_lt_succ (Nat.lt_of_lt_of_le (depth_dependency_lt member) deep))
    simp [typeBelow?, form, TypeRef.ofForm_toForm]

@[simp] theorem type?_writeType (dialect : Dialect) (type : TypeRef) :
    type? dialect (writeType type) = some type :=
  typeBelow?_writeType Nat.le.refl

@[simp] theorem typeForm?_writeType (dialect : Dialect) (type : TypeRef) :
    typeForm? dialect (writeType type) = some type.toForm :=
  typeFormWith?_writeType fun _ member =>
    typeBelow?_writeType (Nat.le_of_lt (depth_dependency_lt member))

@[simp] theorem field?_writeField (dialect : Dialect) (field : Field) :
    field? dialect (writeField field) = some field := by
  refine look_bind rfl ?_
  refine required_bind rfl (text?_text _) ?_
  refine required_bind rfl (type?_writeType dialect _) ?_
  refine optional_bind rfl (optional?_optionalText _) ?_
  refine orElse_bind rfl (listOf?_texts _) ?_
  refine orElse_bind rfl (listOf?_texts _) ?_
  rfl

theorem listOf?_writeFields (dialect : Dialect) (fields : List Field) :
    listOf? (field? dialect) (.list (fields.map writeField)) = some fields :=
  listOf?_map fun field _ => field?_writeField dialect field

/-! ## Declarations -/

@[simp] theorem options?_writeOptions (dialect : Dialect) (options : OutputOptions) :
    options? dialect (writeOptions options) = some options := by
  refine look_bind rfl ?_
  refine orElse_bind rfl (text?_text _) ?_
  refine orElse_bind rfl (text?_text _) ?_
  refine orElse_bind rfl (flag?_flag _) ?_
  refine orElse_bind rfl (flag?_flag _) ?_
  rfl

@[simp] theorem record?_writeRecord (dialect : Dialect) (record : Record) :
    record? dialect (writeRecord record) = some record := by
  refine look_bind rfl ?_
  refine required_bind rfl (text?_text _) ?_
  refine orElse_bind rfl (location?_writeLocation dialect _) ?_
  refine required_bind rfl (listOf?_writeFields dialect _) ?_
  refine optional_bind rfl (optional?_optionalText _) ?_
  refine orElse_bind rfl (flag?_flag _) ?_
  refine orElse_bind rfl (listOf?_texts _) ?_
  rfl

theorem textTable?_writeTable (pairs : List (String × String)) :
    textTable? (.table (pairs.map fun (key, value) => (key, .text value))) = some pairs := by
  rw [textTable?]
  induction pairs with
  | nil => rfl
  | cons pair rest ih => simp [List.mapM_cons, ih]

theorem variant?_writeVariant (dialect : Dialect) {variant : Variant} (inOrder : variant.InOrder) :
    variant? dialect (writeVariant variant) = some variant := by
  have overrides : Ordered.sortedTexts variant.overrides = variant.overrides :=
    Ordered.sortedSet_of_pairwise inOrder.overrides
  refine look_bind rfl ?_
  refine required_bind rfl (text?_text _) ?_
  refine orElse_bind rfl (listOf?_writeFields dialect _) ?_
  refine orElse_bind rfl (listOf?_texts _) ?_
  refine orElse_bind rfl (textTable?_writeTable _) ?_
  refine orElse_bind rfl (listOf?_texts _) ?_
  rw [overrides, sortedPairs_of_pairwise inOrder.baseValues]
  rfl

theorem variantSet?_writeVariantSet (dialect : Dialect) {set : VariantSet}
    (inOrder : ∀ variant ∈ set.variants, variant.InOrder) :
    variantSet? dialect (writeVariantSet set) = some set := by
  have variants : listOf? (variant? dialect) (.list (set.variants.map writeVariant)) =
      some set.variants :=
    listOf?_map fun variant member => variant?_writeVariant dialect (inOrder variant member)
  refine look_bind rfl ?_
  refine required_bind rfl (text?_text _) ?_
  refine orElse_bind rfl (location?_writeLocation dialect _) ?_
  refine orElse_bind rfl (listOf?_writeFields dialect _) ?_
  refine required_bind rfl variants ?_
  refine optional_bind rfl (optional?_optionalText _) ?_
  refine orElse_bind rfl (flag?_flag _) ?_
  refine orElse_bind rfl (serialization?_writeSerialization _) ?_
  refine orElse_bind rfl (listOf?_texts _) ?_
  rfl

theorem keyGroup?_writeKeyGroup (dialect : Dialect) {group : KeyGroup}
    (fits : group.count < numberBound) :
    keyGroup? dialect (writeKeyGroup group) = some group := by
  refine look_bind rfl ?_
  refine required_bind rfl (text?_text _) ?_
  refine required_bind rfl (number?_natural fits) ?_
  refine orElse_bind rfl (flag?_flag _) ?_
  refine orElse_bind rfl (location?_writeLocation dialect _) ?_
  rfl

/-! ## Selections -/

theorem writeSelections_eq_map (members : List Selection) :
    writeSelections members = members.map writeSelection := by
  induction members with
  | nil => rfl
  | cons member rest ih =>
    rw [List.map_cons, ← ih]
    rfl

theorem lookPart_bind {dialect : Dialect} {names : List String}
    {entries : List (String × Document)} {β : Type} {rest : Look → Option β} {result : Option β}
    (known : allKnown names entries = true)
    (h : rest (fun name => Document.value? name entries) = result) :
    (lookPart? dialect names (.table entries) >>= rest) = result :=
  @look_bind dialect _ _ _ _ _ _ known h

theorem listOf?_naturals {dimensions : List Nat} (fit : ∀ n ∈ dimensions, n < numberBound) :
    listOf? number? (.list (dimensions.map .natural)) = some dimensions :=
  listOf?_map fun n member => number?_natural (fit n member)

theorem depth_member_lt {members : List Selection} {location : Location} {member : Selection}
    (among : member ∈ members) :
    (writeSelection member).depth < (writeSelection (.composite members location)).depth := by
  have inside : writeSelection member ∈ writeSelections members := by
    rw [writeSelections_eq_map]
    exact List.mem_map_of_mem among
  have deeper := @depth_lt_of_entry "selections" _ (writeSelections members)
    [("selections", .list (writeSelections members)), ("location", writeLocation location)]
    List.mem_cons_self inside
  have outer : (writeSelection (.composite members location)).depth =
      max (Document.table [("selections", .list (writeSelections members)),
        ("location", writeLocation location)]).depth 0 + 1 := rfl
  omega

theorem selectionBelow?_writeSelection {dialect : Dialect} {bound : Nat} {selection : Selection}
    (fit : ∀ n ∈ selection.numbers, n < numberBound)
    (deep : (writeSelection selection).depth ≤ bound) :
    selectionBelow? dialect bound (writeSelection selection) = some selection := by
  induction bound generalizing selection with
  | zero => cases selection <;> exact absurd deep (Nat.not_succ_le_zero _)
  | succ bound ih =>
    cases selection with
    | single dimension location =>
      have fits : dimension < numberBound := fit dimension (by simp [Selection.numbers])
      rw [writeSelection, selectionBelow?]
      refine lookPart_bind rfl ?_
      refine required_bind rfl (number?_natural fits) ?_
      refine orElse_bind rfl (location?_writeLocation dialect _) ?_
      rfl
    | range first last location =>
      have firstFits : first < numberBound := fit first (by simp [Selection.numbers])
      have lastFits : last < numberBound := fit last (by simp [Selection.numbers])
      rw [writeSelection, selectionBelow?]
      refine lookPart_bind rfl ?_
      refine required_bind rfl (number?_natural firstFits) ?_
      refine required_bind rfl (number?_natural lastFits) ?_
      refine orElse_bind rfl (location?_writeLocation dialect _) ?_
      rfl
    | list dimensions location =>
      have fits : listOf? number? (.list (dimensions.map .natural)) = some dimensions :=
        listOf?_naturals (by simpa [Selection.numbers] using fit)
      rw [writeSelection, selectionBelow?]
      refine lookPart_bind rfl ?_
      refine required_bind rfl fits ?_
      refine orElse_bind rfl (location?_writeLocation dialect _) ?_
      rfl
    | composite members location =>
      have inner : listOf? (selectionBelow? dialect bound) (.list (members.map writeSelection)) =
          some members := by
        refine listOf?_map fun member among => ih (fun n inside => fit n ?_) ?_
        · rw [Selection.numbers, Selection.numbersAll_eq_flatMap]
          exact List.mem_flatMap.2 ⟨member, among, inside⟩
        · exact Nat.le_of_lt_succ (Nat.lt_of_lt_of_le (depth_member_lt among) deep)
      rw [writeSelection, selectionBelow?, writeSelections_eq_map]
      refine lookPart_bind rfl ?_
      refine required_bind rfl inner ?_
      refine orElse_bind rfl (location?_writeLocation dialect _) ?_
      rfl

theorem selection?_writeSelection (dialect : Dialect) {selection : Selection}
    (fit : ∀ n ∈ selection.numbers, n < numberBound) :
    selection? dialect (writeSelection selection) = some selection :=
  selectionBelow?_writeSelection fit Nat.le.refl

theorem optional?_optionalSelection (dialect : Dialect) {selection : Option Selection}
    (fit : ∀ given ∈ selection, ∀ n ∈ given.numbers, n < numberBound) :
    optional? (selection? dialect) (optionalSelection selection) = some selection := by
  cases selection with
  | none => rfl
  | some given =>
    have present : writeSelection given ≠ .null := by
      cases given <;> exact fun same => nomatch same
    rw [optionalSelection, optional?, selection?_writeSelection dialect (fit given rfl),
      Option.map_some]
    exact present

theorem request?_writeRequest (dialect : Dialect) {request : Request} (storable : Storable request) :
    request? dialect (writeRequest request) = some request := by
  have fit : ∀ selection ∈ request.selections, ∀ n ∈ selection.numbers, n < numberBound :=
    fun selection given n inside => storable.numbers n
      (List.mem_append_left _ (List.mem_flatMap.2 ⟨selection, given, inside⟩))
  have keys : listOf? (keyGroup? dialect) (.list (request.keys.map writeKeyGroup)) =
      some request.keys :=
    listOf?_map fun group member => keyGroup?_writeKeyGroup dialect
      (storable.numbers _ (List.mem_append_right _ (List.mem_map_of_mem member)))
  have records : listOf? (record? dialect) (.list (request.records.map writeRecord)) =
      some request.records :=
    listOf?_map fun record _ => record?_writeRecord dialect record
  have variantSets : listOf? (variantSet? dialect)
      (.list (request.variantSets.map writeVariantSet)) = some request.variantSets :=
    listOf?_map fun set member => variantSet?_writeVariantSet dialect (storable.inOrder set member)
  have chosen {selection : Option Selection}
      (among : selection ∈ [request.products, request.sums, request.dualities,
        request.arithmetics, request.evolvingProducts, request.evolvingSums]) :
      optional? (selection? dialect) (optionalSelection selection) = some selection :=
    optional?_optionalSelection dialect fun given same => fit given
      (List.mem_filterMap.2 ⟨selection, among, same⟩)
  refine look_bind rfl ?_
  refine orElse_bind rfl (options?_writeOptions dialect _) ?_
  refine orElse_bind rfl (location?_writeLocation dialect _) ?_
  refine optional_bind rfl (chosen (by simp)) ?_
  refine optional_bind rfl (chosen (by simp)) ?_
  refine optional_bind rfl (chosen (by simp)) ?_
  refine optional_bind rfl (chosen (by simp)) ?_
  refine optional_bind rfl (chosen (by simp)) ?_
  refine optional_bind rfl (chosen (by simp)) ?_
  refine orElse_bind rfl keys ?_
  refine orElse_bind rfl records ?_
  refine orElse_bind rfl variantSets ?_
  rfl

/-! ## What was read -/

theorem insertValue_eq_insertFirst (key value : String) (pairs : List (String × String)) :
    insertValue key value pairs =
      Ordered.insertFirst (fun a b => compare a.1 b.1) (key, value) pairs := by
  induction pairs with
  | nil => rfl
  | cons pair rest ih =>
    obtain ⟨k, v⟩ := pair
    cases order : compare key k <;> simp only [insertValue, Ordered.insertFirst, order, ih]

theorem pairwise_sortedPairs (pairs : List (String × String)) :
    (sortedPairs pairs).Pairwise fun a b => compare a.1 b.1 = .lt := by
  have := @transCmp_of_part (String × String) String compare _ Prod.fst
  suffices all : ∀ done : List (String × String), done.Pairwise (fun a b => compare a.1 b.1 = .lt) →
      (pairs.foldl (fun sorted pair => insertValue pair.1 pair.2 sorted) done).Pairwise
        fun a b => compare a.1 b.1 = .lt by
    exact all [] .nil
  induction pairs with
  | nil => exact fun done sorted => sorted
  | cons pair rest ih =>
    intro done sorted
    refine ih _ ?_
    show (insertValue pair.1 pair.2 done).Pairwise _
    rw [insertValue_eq_insertFirst]
    exact Ordered.pairwise_insertFirst sorted

theorem exists_of_listOf? {α : Type} {read : Document → Option α} {document : Document}
    {values : List α} (h : listOf? read document = some values) {value : α}
    (member : value ∈ values) : ∃ item, read item = some value := by
  cases document with
  | list items =>
    obtain ⟨item, -, found⟩ := Outcome.mem_of_mapM_eq_some h member
    exact ⟨item, found⟩
  | _ => cases h

/-- Of a list in a field that may be missing, every member was read. -/
theorem exists_of_orElse {α : Type} {look : Look} {name : String} {read : Document → Option α}
    {values : List α} (h : orElse look name [] (listOf? read) = some values) {value : α}
    (member : value ∈ values) : ∃ item, read item = some value := by
  unfold orElse at h
  split at h
  · cases h
    cases member
  · exact exists_of_listOf? h member

theorem exists_of_required {α : Type} {look : Look} {name : String} {read : Document → Option α}
    {value : α} (h : required look name read = some value) : ∃ item, read item = some value := by
  obtain ⟨item, -, found⟩ := Option.bind_eq_some_iff.1 h
  exact ⟨item, found⟩

theorem lt_of_number? {document : Document} {n : Nat} (h : number? document = some n) :
    n < numberBound := by
  cases document with
  | natural value =>
    rw [number?, Option.ite_none_right_eq_some] at h
    exact Option.some.inj h.2 ▸ h.1
  | _ => cases h

theorem inOrder_of_variant? {dialect : Dialect} {document : Document} {variant : Variant}
    (h : variant? dialect document = some variant) : variant.InOrder := by
  simp only [variant?, Option.bind_eq_bind, Option.bind_eq_some_iff, Option.pure_def,
    Option.some.injEq] at h
  obtain ⟨_, _, name, _, fields, _, overrides, _, baseValues, _, doc, _, rfl⟩ := h
  exact ⟨Ordered.pairwise_sortedSet overrides, pairwise_sortedPairs baseValues⟩

/-- The lists of a variant set that was read. -/
theorem exists_look_of_variantSet? {dialect : Dialect} {document : Document} {set : VariantSet}
    (h : variantSet? dialect document = some set) :
    ∃ look, look? dialect true ["name", "location", "fields", "variants", "setters_suffix",
        "serializable", "serialization", "doc"] document = some look ∧
      orElse look "fields" [] (listOf? (field? dialect)) = some set.fields ∧
      required look "variants" (listOf? (variant? dialect)) = some set.variants := by
  obtain ⟨look, looked, h⟩ := Option.bind_eq_some_iff.1 h
  obtain ⟨name, -, h⟩ := Option.bind_eq_some_iff.1 h
  obtain ⟨location, -, h⟩ := Option.bind_eq_some_iff.1 h
  obtain ⟨fields, fieldsRead, h⟩ := Option.bind_eq_some_iff.1 h
  obtain ⟨variants, variantsRead, h⟩ := Option.bind_eq_some_iff.1 h
  obtain ⟨suffix, -, h⟩ := Option.bind_eq_some_iff.1 h
  obtain ⟨serializable, -, h⟩ := Option.bind_eq_some_iff.1 h
  obtain ⟨serialization, -, h⟩ := Option.bind_eq_some_iff.1 h
  obtain ⟨doc, -, h⟩ := Option.bind_eq_some_iff.1 h
  obtain rfl := Option.some.inj h
  exact ⟨look, looked, fieldsRead, variantsRead⟩

theorem inOrder_of_variantSet? {dialect : Dialect} {document : Document} {set : VariantSet}
    (h : variantSet? dialect document = some set) : ∀ variant ∈ set.variants, variant.InOrder := by
  obtain ⟨look, -, -, variants⟩ := exists_look_of_variantSet? h
  intro variant member
  obtain ⟨_, listed⟩ := exists_of_required variants
  obtain ⟨_, found⟩ := exists_of_listOf? listed member
  exact inOrder_of_variant? found

theorem lt_of_keyGroup? {dialect : Dialect} {document : Document} {group : KeyGroup}
    (h : keyGroup? dialect document = some group) : group.count < numberBound := by
  simp only [keyGroup?, Option.bind_eq_bind, Option.bind_eq_some_iff, Option.pure_def,
    Option.some.injEq] at h
  obtain ⟨_, _, stem, _, count, given, _, _, _, _, rfl⟩ := h
  obtain ⟨_, found⟩ := exists_of_required given
  exact lt_of_number? found

theorem lt_of_selectionBelow? {dialect : Dialect} {bound : Nat} {document : Document}
    {selection : Selection} (h : selectionBelow? dialect bound document = some selection) :
    ∀ n ∈ selection.numbers, n < numberBound := by
  induction bound generalizing document selection with
  | zero => cases h
  | succ bound ih =>
    unfold selectionBelow? at h
    split at h
    · next impossible => cases impossible
    · simp only [Option.bind_eq_bind, Option.bind_eq_some_iff, Option.pure_def,
        Option.some.injEq] at h
      obtain ⟨_, _, dimension, given, location, _, rfl⟩ := h
      obtain ⟨_, found⟩ := exists_of_required given
      simpa [Selection.numbers] using lt_of_number? found
    · simp only [Option.bind_eq_bind, Option.bind_eq_some_iff, Option.pure_def,
        Option.some.injEq] at h
      obtain ⟨_, _, first, given, last, given', location, _, rfl⟩ := h
      obtain ⟨_, found⟩ := exists_of_required given
      obtain ⟨_, found'⟩ := exists_of_required given'
      simpa [Selection.numbers] using ⟨lt_of_number? found, lt_of_number? found'⟩
    · simp only [Option.bind_eq_bind, Option.bind_eq_some_iff, Option.pure_def,
        Option.some.injEq] at h
      obtain ⟨_, _, dimensions, given, location, _, rfl⟩ := h
      obtain ⟨_, listed⟩ := exists_of_required given
      intro n member
      rw [Selection.numbers] at member
      obtain ⟨_, found⟩ := exists_of_listOf? listed member
      exact lt_of_number? found
    · next same =>
      cases same
      simp only [Option.bind_eq_bind, Option.bind_eq_some_iff, Option.pure_def,
        Option.some.injEq] at h
      obtain ⟨_, _, members, given, location, _, rfl⟩ := h
      obtain ⟨_, listed⟩ := exists_of_required given
      intro n member
      rw [Selection.numbers, Selection.numbersAll_eq_flatMap] at member
      obtain ⟨selection, among, inside⟩ := List.mem_flatMap.1 member
      obtain ⟨_, found⟩ := exists_of_listOf? listed among
      exact ih found n inside
    · cases h

theorem exists_of_optional {α : Type} {look : Look} {name : String} {read : Document → Option α}
    {value : α} (h : optional look name read = some (some value)) :
    ∃ item, read item = some value := by
  unfold optional orElse at h
  split at h
  · cases h
  · next document _ =>
    unfold optional? at h
    split at h
    · cases h
    · obtain ⟨given, found, same⟩ := Option.map_eq_some_iff.1 h
      cases same
      exact ⟨document, found⟩

theorem lt_of_optionalSelection {dialect : Dialect} {look : Look} {name : String}
    {selection : Selection} (h : optional look name (selection? dialect) = some (some selection)) :
    ∀ n ∈ selection.numbers, n < numberBound := by
  obtain ⟨_, found⟩ := exists_of_optional h
  exact lt_of_selectionBelow? found

/-- The request has its selections and lists from the fields of a document. -/
structure RequestRead (dialect : Dialect) (look : Look) (request : Request) : Prop where
  /-- The selected products. -/
  products : optional look "products" (selection? dialect) = some request.products
  /-- The selected sums. -/
  sums : optional look "sums" (selection? dialect) = some request.sums
  /-- The selected dualities. -/
  dualities : optional look "dualities" (selection? dialect) = some request.dualities
  /-- The selected arithmetic. -/
  arithmetics : optional look "product_arithmetics" (selection? dialect) = some request.arithmetics
  /-- The selected evolution of products. -/
  evolvingProducts :
    optional look "evoleq_products" (selection? dialect) = some request.evolvingProducts
  /-- The selected evolution of sums. -/
  evolvingSums : optional look "evoleq_sums" (selection? dialect) = some request.evolvingSums
  /-- The key groups. -/
  keys : orElse look "keys" [] (listOf? (keyGroup? dialect)) = some request.keys
  /-- The records. -/
  records : orElse look "data_classes" [] (listOf? (record? dialect)) = some request.records
  /-- The variant sets. -/
  variantSets :
    orElse look "sealed_classes" [] (listOf? (variantSet? dialect)) = some request.variantSets

theorem exists_look_of_request? {dialect : Dialect} {document : Document} {request : Request}
    (h : request? dialect document = some request) :
    ∃ look, look? dialect true requestNames document = some look ∧
      RequestRead dialect look request := by
  obtain ⟨look, looked, h⟩ := Option.bind_eq_some_iff.1 h
  obtain ⟨output, -, h⟩ := Option.bind_eq_some_iff.1 h
  obtain ⟨module, -, h⟩ := Option.bind_eq_some_iff.1 h
  obtain ⟨products, productsRead, h⟩ := Option.bind_eq_some_iff.1 h
  obtain ⟨sums, sumsRead, h⟩ := Option.bind_eq_some_iff.1 h
  obtain ⟨dualities, dualitiesRead, h⟩ := Option.bind_eq_some_iff.1 h
  obtain ⟨arithmetics, arithmeticsRead, h⟩ := Option.bind_eq_some_iff.1 h
  obtain ⟨evolvingProducts, evolvingProductsRead, h⟩ := Option.bind_eq_some_iff.1 h
  obtain ⟨evolvingSums, evolvingSumsRead, h⟩ := Option.bind_eq_some_iff.1 h
  obtain ⟨keys, keysRead, h⟩ := Option.bind_eq_some_iff.1 h
  obtain ⟨records, recordsRead, h⟩ := Option.bind_eq_some_iff.1 h
  obtain ⟨variantSets, variantSetsRead, h⟩ := Option.bind_eq_some_iff.1 h
  obtain rfl := Option.some.inj h
  exact ⟨look, looked, productsRead, sumsRead, dualitiesRead, arithmeticsRead, evolvingProductsRead,
    evolvingSumsRead, keysRead, recordsRead, variantSetsRead⟩

theorem storable_of_request? {dialect : Dialect} {document : Document} {request : Request}
    (h : request? dialect document = some request) : Storable request := by
  obtain ⟨look, -, read⟩ := exists_look_of_request? h
  refine ⟨fun n member => ?_, fun set member => ?_⟩
  · obtain chosen | counted := List.mem_append.1 member
    · obtain ⟨selection, among, inside⟩ := List.mem_flatMap.1 chosen
      simp only [Request.selections, List.mem_filterMap, List.mem_cons, List.not_mem_nil,
        or_false, id] at among
      obtain ⟨_, rfl | rfl | rfl | rfl | rfl | rfl, given⟩ := among
      · exact lt_of_optionalSelection (given ▸ read.products) n inside
      · exact lt_of_optionalSelection (given ▸ read.sums) n inside
      · exact lt_of_optionalSelection (given ▸ read.dualities) n inside
      · exact lt_of_optionalSelection (given ▸ read.arithmetics) n inside
      · exact lt_of_optionalSelection (given ▸ read.evolvingProducts) n inside
      · exact lt_of_optionalSelection (given ▸ read.evolvingSums) n inside
    · obtain ⟨group, among, rfl⟩ := List.mem_map.1 counted
      obtain ⟨_, found⟩ := exists_of_orElse read.keys among
      exact lt_of_keyGroup? found
  · obtain ⟨_, found⟩ := exists_of_orElse read.variantSets member
    exact inOrder_of_variantSet? found

end Codec

end Slotwise
