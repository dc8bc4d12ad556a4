import Slotwise.Plan
import Slotwise.Proofs.Locations
import Slotwise.Proofs.Propagation
import Slotwise.Proofs.Selection
/-!
# Jobs of plans

Where the jobs of a plan come from. Each is requested by a selection, a key group, a record or a
variant set, or marks the type of one that is (`Planned.mem_jobs_iff`), and all of them are
at places whose module paths passed their checks (`Includes.sound`).
-/

namespace Slotwise.Plan

open Naming

/-! ## Requested jobs -/

/-- The jobs that a request asks for, apart from the marking traits. -/
inductive Requested (request : Request) : Job → Prop where
  /-- A selected product. -/
  | product {choices : List (Nat × Place)} {dimension : Nat} {place : Place}
      (chosen : selected request .products request.products = .ok choices)
      (member : (dimension, place) ∈ choices) : Requested request ⟨.product dimension, place⟩
  /-- A selected sum. -/
  | sum {choices : List (Nat × Place)} {dimension : Nat} {place : Place}
      (chosen : selected request .sums request.sums = .ok choices)
      (member : (dimension, place) ∈ choices) : Requested request ⟨.sum dimension, place⟩
  /-- A job for selected arithmetic. -/
  | arithmetic {choices : List (Nat × Place)} {dimension : Nat} {place : Place} {job : Job}
      (chosen : selected request .products request.arithmetics = .ok choices)
      (member : (dimension, place) ∈ choices) (among : job ∈ arithmeticJobs dimension place) :
      Requested request job
  /-- A job for a selected duality. -/
  | duality {choices : List (Nat × Place)} {dimension : Nat} {place : Place} {job : Job}
      (chosen : selected request .duality request.dualities = .ok choices)
      (member : (dimension, place) ∈ choices) (among : job ∈ dualityJobs dimension place) :
      Requested request job
  /-- A job for the evolution of a selected product. -/
  | evolvingProduct {choices : List (Nat × Place)} {dimension : Nat} {place : Place} {job : Job}
      (chosen : selected request .evolution request.evolvingProducts = .ok choices)
      (member : (dimension, place) ∈ choices)
      (among : job ∈ evolvingProductJobs dimension place) : Requested request job
  /-- A job for the evolution of a selected sum. -/
  | evolvingSum {choices : List (Nat × Place)} {dimension : Nat} {place : Place} {job : Job}
      (chosen : selected request .evolution request.evolvingSums = .ok choices)
      (member : (dimension, place) ∈ choices) (among : job ∈ evolvingSumJobs dimension place) :
      Requested request job
  /-- A key group. -/
  | keys {jobs : List Job} {job : Job} (kept : keyJobs request = .ok jobs) (among : job ∈ jobs) :
      Requested request job
  /-- A job for a record. -/
  | lens {index : Nat} {record : Record} {job : Job}
      (found : request.records[index]? = some record)
      (among : job ∈ lensJobs request record index) : Requested request job
  /-- A job for a variant set. -/
  | prism {index : Nat} {set : VariantSet} {job : Job}
      (found : request.variantSets[index]? = some set)
      (among : job ∈ prismJobs request set index) : Requested request job

theorem mem_familyJobs_or_iff {request : Request} {families : List Job}
    (h : familyJobs request = .ok families) {keys : List Job} (kept : keyJobs request = .ok keys)
    {job : Job} :
    job ∈ families ++ keys ++
        (request.records.zipIdx.flatMap fun (record, i) => lensJobs request record i) ++
        (request.variantSets.zipIdx.flatMap fun (set, i) => prismJobs request set i) ↔
      Requested request job := by
  simp only [familyJobs, Outcome.bind_eq_ok_iff, Outcome.pure_eq_ok_iff] at h
  obtain ⟨products, hp, sums, hs, arithmetics, ha, dualities, hd, evolvingProducts, hep,
    evolvingSums, hes, rfl⟩ := h
  simp only [List.mem_append, List.mem_map, List.mem_flatMap, Prod.exists,
    List.mem_zipIdx_iff_getElem?, or_assoc]
  constructor
  · rintro (⟨d, place, member, rfl⟩ | ⟨d, place, member, rfl⟩ | ⟨d, place, member, among⟩ |
      ⟨d, place, member, among⟩ | ⟨d, place, member, among⟩ | ⟨d, place, member, among⟩ | among |
      ⟨record, i, found, among⟩ | ⟨set, i, found, among⟩)
    · exact .product hp member
    · exact .sum hs member
    · exact .arithmetic ha member among
    · exact .duality hd member among
    · exact .evolvingProduct hep member among
    · exact .evolvingSum hes member among
    · exact .keys kept among
    · exact .lens found among
    · exact .prism found among
  · intro requested
    cases requested with
    | product chosen member =>
      cases hp.symm.trans chosen
      exact .inl ⟨_, _, member, rfl⟩
    | sum chosen member =>
      cases hs.symm.trans chosen
      exact .inr (.inl ⟨_, _, member, rfl⟩)
    | arithmetic chosen member among =>
      cases ha.symm.trans chosen
      exact .inr (.inr (.inl ⟨_, _, member, among⟩))
    | duality chosen member among =>
      cases hd.symm.trans chosen
      exact .inr (.inr (.inr (.inl ⟨_, _, member, among⟩)))
    | evolvingProduct chosen member among =>
      cases hep.symm.trans chosen
      exact .inr (.inr (.inr (.inr (.inl ⟨_, _, member, among⟩))))
    | evolvingSum chosen member among =>
      cases hes.symm.trans chosen
      exact .inr (.inr (.inr (.inr (.inr (.inl ⟨_, _, member, among⟩)))))
    | keys given among =>
      cases kept.symm.trans given
      exact .inr (.inr (.inr (.inr (.inr (.inr (.inl among))))))
    | lens found among =>
      exact .inr (.inr (.inr (.inr (.inr (.inr (.inr (.inl ⟨_, _, found, among⟩)))))))
    | prism found among =>
      exact .inr (.inr (.inr (.inr (.inr (.inr (.inr (.inr ⟨_, _, found, among⟩)))))))

/-! ## Jobs of a plan -/

/-- A task that names a declaration holds the one with its number. -/
def Numbered (request : Request) : Task → Prop
  | .keys index group => request.keys[index]? = some group
  | .lens index record => request.records[index]? = some record
  | .prism index set => request.variantSets[index]? = some set
  | _ => True

theorem mem_keyJobsAfter {request : Request} {seen : List (KeyGroup × Place)}
    {groups : List (KeyGroup × Nat)} {jobs : List Job}
    (h : keyJobsAfter request seen groups = .ok jobs) {job : Job} (member : job ∈ jobs) :
    ∃ group index, (group, index) ∈ groups ∧
      job = ⟨.keys index group, familyPlace request .keys group.location⟩ := by
  induction groups generalizing seen jobs with
  | nil =>
    cases h
    cases member
  | cons head rest ih =>
    obtain ⟨group, index⟩ := head
    rw [keyJobsAfter] at h
    simp only at h
    split at h
    · split at h
      · obtain ⟨other, i, inside, same⟩ := ih h member
        exact ⟨other, i, List.mem_cons_of_mem _ inside, same⟩
      · cases h
    · obtain ⟨others, found, result⟩ := Outcome.bind_eq_ok_iff.1 h
      rw [← Outcome.pure_eq_ok_iff.1 result] at member
      obtain rfl | member := List.mem_cons.1 member
      · exact ⟨group, index, List.mem_cons_self, rfl⟩
      · obtain ⟨other, i, inside, same⟩ := ih found member
        exact ⟨other, i, List.mem_cons_of_mem _ inside, same⟩

theorem mem_keyJobs {request : Request} {jobs : List Job} (h : keyJobs request = .ok jobs)
    {job : Job} (member : job ∈ jobs) :
    ∃ group index, request.keys[index]? = some group ∧
      job = ⟨.keys index group, familyPlace request .keys group.location⟩ := by
  obtain ⟨group, index, inside, same⟩ := mem_keyJobsAfter h member
  exact ⟨group, index, List.mem_zipIdx_iff_getElem?.1 inside, same⟩

theorem mem_productOfWidth_iff {place : Place} {width : Nat} {job : Job} :
    job ∈ productOfWidth place width ↔ 2 ≤ width ∧ job = ⟨.product width, place⟩ := by
  unfold productOfWidth
  split
  · next wide => simp [wide]
  · next narrow => simp [narrow]

theorem mem_lensJobs_iff {request : Request} {record : Record} {index : Nat} {job : Job} :
    job ∈ lensJobs request record index ↔
      (2 ≤ record.fields.length ∧
        job = ⟨.product record.fields.length,
          (surroundings (opticsPlace .lenses record.location request.output)).products⟩) ∨
      job = ⟨.setters,
        (surroundings (opticsPlace .lenses record.location request.output)).support⟩ ∨
      job = ⟨.lens index record, opticsPlace .lenses record.location request.output⟩ := by
  simp [lensJobs, mem_productOfWidth_iff]

theorem mem_prismJobs_iff {request : Request} {set : VariantSet} {index : Nat} {job : Job} :
    job ∈ prismJobs request set index ↔
      job = ⟨.sum set.variants.length,
        (surroundings (opticsPlace .prisms set.location request.output)).sums⟩ ∨
      (∃ variant ∈ set.variants, 2 ≤ variant.fields.length ∧
        job = ⟨.product variant.fields.length,
          (surroundings (opticsPlace .prisms set.location request.output)).products⟩) ∨
      job = ⟨.setters,
        (surroundings (opticsPlace .prisms set.location request.output)).support⟩ ∨
      job = ⟨.prism index set, opticsPlace .prisms set.location request.output⟩ := by
  simp [prismJobs, mem_productOfWidth_iff]

theorem mem_arithmeticJobs_iff {dimension : Nat} {place : Place} {job : Job} :
    job ∈ arithmeticJobs dimension place ↔
      (∃ width, 2 ≤ width ∧ width ≤ dimension ∧ job = ⟨.product width, place⟩) ∨
        job = ⟨.arithmetic dimension, place⟩ := by
  simp only [arithmeticJobs, List.mem_append, List.mem_map, List.mem_range'_1, List.mem_singleton]
  refine or_congr_left ⟨?_, ?_⟩
  · rintro ⟨width, bounds, rfl⟩
    exact ⟨width, bounds.1, by omega, rfl⟩
  · rintro ⟨width, lower, upper, rfl⟩
    exact ⟨width, ⟨lower, by omega⟩, rfl⟩

theorem Requested.numbered {request : Request} {job : Job} (requested : Requested request job) :
    Numbered request job.task := by
  cases requested with
  | product | sum => trivial
  | arithmetic _ _ among =>
    obtain ⟨width, -, -, rfl⟩ | rfl := mem_arithmeticJobs_iff.1 among <;> trivial
  | duality _ _ among =>
    simp only [dualityJobs, List.mem_cons, List.not_mem_nil, or_false] at among
    obtain rfl | rfl | rfl := among <;> trivial
  | evolvingProduct _ _ among =>
    simp only [evolvingProductJobs, List.mem_cons, List.not_mem_nil, or_false] at among
    obtain rfl | rfl := among <;> trivial
  | evolvingSum _ _ among =>
    simp only [evolvingSumJobs, List.mem_cons, List.not_mem_nil, or_false] at among
    obtain rfl | rfl | rfl := among <;> trivial
  | keys kept among =>
    obtain ⟨group, index, found, rfl⟩ := mem_keyJobs kept among
    exact found
  | lens found among =>
    obtain ⟨-, rfl⟩ | rfl | rfl := mem_lensJobs_iff.1 among
    · trivial
    · trivial
    · exact found
  | prism found among =>
    obtain rfl | ⟨variant, -, -, rfl⟩ | rfl | rfl := mem_prismJobs_iff.1 among
    · trivial
    · trivial
    · trivial
    · exact found

theorem mem_markerJobs_iff {job marker : Job} :
    marker ∈ markerJobs job ↔
      (∃ dimension, job.task = .product dimension ∧ marker = ⟨.productMarker, job.place⟩) ∨
        ∃ dimension, job.task = .sum dimension ∧ marker = ⟨.sumMarker, job.place⟩ := by
  rcases job with ⟨task, place⟩
  cases task <;> simp [markerJobs]

theorem Place.eq_of_compare {p₁ p₂ : Place} (h : p₁.compare p₂ = .eq) : p₁ = p₂ := by
  rcases p₁ with ⟨root₁, domain₁, package₁⟩
  rcases p₂ with ⟨root₂, domain₂, package₂⟩
  simp only [Place.compare, Ordering.then_eq_eq] at h
  rw [Std.LawfulEqOrd.eq_of_compare h.1, Std.LawfulEqOrd.eq_of_compare h.2.1,
    Std.LawfulEqOrd.eq_of_compare h.2.2]

/-- Tasks of one rank and one number are the same task of one request. -/
theorem eq_of_numbered {request : Request} {t₁ t₂ : Task} (h₁ : Numbered request t₁)
    (h₂ : Numbered request t₂) (rank : t₁.rank = t₂.rank)
    (number : t₁.number?.getD 0 = t₂.number?.getD 0) : t₁ = t₂ := by
  cases t₁ <;> cases t₂ <;> simp_all [Task.rank, Task.number?, Numbered]

theorem Job.eq_of_compare {request : Request} {j₁ j₂ : Job} (h₁ : Numbered request j₁.task)
    (h₂ : Numbered request j₂.task) (h : j₁.compare j₂ = .eq) : j₁ = j₂ := by
  obtain ⟨rank, rest⟩ := Ordering.then_eq_eq.1 h
  obtain ⟨number, place⟩ := Ordering.then_eq_eq.1 rest
  have task := eq_of_numbered h₁ h₂ (Std.LawfulEqOrd.eq_of_compare rank)
    (Std.LawfulEqOrd.eq_of_compare number)
  have place := Place.eq_of_compare place
  cases j₁
  cases j₂
  cases task
  cases place
  rfl

/-- The job belongs to the plan of a request: it is requested or marks a type that is. -/
def Includes (request : Request) (job : Job) : Prop :=
  Requested request job ∨ ∃ other, Requested request other ∧ job ∈ markerJobs other

theorem mem_allJobs_iff {request : Request} {jobs : List Job} (h : allJobs request = .ok jobs)
    {job : Job} : job ∈ jobs ↔ Includes request job := by
  obtain ⟨families, familiesOk, h⟩ := Outcome.bind_eq_ok_iff.1 h
  obtain ⟨keys, keysOk, h⟩ := Outcome.bind_eq_ok_iff.1 h
  rw [← Outcome.pure_eq_ok_iff.1 h]
  have requested_iff := @mem_familyJobs_or_iff request families familiesOk keys keysOk
  generalize families ++ keys ++
    (request.records.zipIdx.flatMap fun (record, i) => lensJobs request record i) ++
    (request.variantSets.zipIdx.flatMap fun (set, i) => prismJobs request set i) = requested
    at requested_iff ⊢
  have members : ∀ job, job ∈ requested ++ requested.flatMap markerJobs ↔
      Includes request job := by
    intro job
    simp only [Includes, List.mem_append, List.mem_flatMap, requested_iff]
  have numbered : ∀ job ∈ requested ++ requested.flatMap markerJobs,
      Numbered request job.task := by
    intro job member
    obtain requested | ⟨other, -, marks⟩ := (members job).1 member
    · exact requested.numbered
    · obtain ⟨_, -, rfl⟩ | ⟨_, -, rfl⟩ := mem_markerJobs_iff.1 marks <;> trivial
  rw [← members]
  exact Ordered.mem_sortedSet_iff fun j₁ h₁ j₂ h₂ =>
    Job.eq_of_compare (numbered j₁ h₁) (numbered j₂ h₂)

/-! ## Plans that were made -/

/-- What a plan that was made says about its request. -/
structure Planned (request : Request) (plan : Plan) : Prop where
  /-- The request passed its check. -/
  checked : Check.request request = .ok ()
  /-- The plan is for the request with serialization spread. -/
  request_eq : plan.request = request.propagated
  /-- The jobs are those of that request. -/
  jobs : allJobs plan.request = .ok plan.jobs
  /-- No two jobs write one file. -/
  paths : checkPaths plan.jobs = .ok ()

theorem planned_of_ofRequest {request : Request} {plan : Plan} (h : ofRequest request = .ok plan) :
    Planned request plan := by
  obtain ⟨_, checked, h⟩ := Outcome.bind_eq_ok_iff.1 h
  obtain ⟨jobs, found, h⟩ := Outcome.bind_eq_ok_iff.1 h
  obtain ⟨_, paths, h⟩ := Outcome.bind_eq_ok_iff.1 h
  cases Outcome.pure_eq_ok_iff.1 h
  exact ⟨checked, rfl, found, paths⟩

theorem Planned.mem_jobs_iff {request : Request} {plan : Plan} (planned : Planned request plan)
    {job : Job} : job ∈ plan.jobs ↔ Includes plan.request job :=
  mem_allJobs_iff planned.jobs

/-! ## Checked places -/

/-- The module paths that a location gives are sound. -/
def SoundLocation (location : Location) : Prop :=
  (∀ path ∈ location.domain, ModulePath.Sound path) ∧
    ∀ path ∈ location.package, ModulePath.Sound path

theorem soundLocation_of_check {owner : String} {location : Location}
    (h : Check.location owner location = .ok ()) : SoundLocation location := by
  obtain ⟨_, domain, package⟩ := Outcome.bind_eq_ok_iff.1 h
  rw [Outcome.optionForM_eq_ok_iff] at domain package
  exact ⟨fun path given => ModulePath.sound_of_check (domain path given),
    fun path given => ModulePath.sound_of_check (package path given)⟩

theorem SoundLocation.overriddenBy {location forced : Location} (own : SoundLocation location)
    (above : SoundLocation forced) : SoundLocation (location.overriddenBy forced) := by
  rcases forced with ⟨_, _ | domain, _ | package⟩
  · exact own
  · exact ⟨own.1, above.2⟩
  · exact ⟨above.1, own.2⟩
  · exact above

theorem SoundLocation.resolve {location : Location} (sound : SoundLocation location)
    {options : OutputOptions} (domain : ModulePath.Sound options.domain) {package : String}
    (fallback : ModulePath.Sound package) : (location.resolve options package).Sound := by
  constructor
  · rw [Location.resolve]
    cases given : location.domain with
    | none => exact domain
    | some path => exact sound.1 path given
  · rw [Location.resolve]
    cases given : location.package with
    | none => exact fallback
    | some path => exact sound.2 path given

theorem sound_empty : ModulePath.Sound "" := .inr (by simp [ModulePath.segments,
  ModulePath.pieces])

/-- The module paths of everything that a request places are sound. -/
structure SoundRequest (request : Request) : Prop where
  /-- The domain of the output is sound. -/
  domain : ModulePath.Sound request.output.domain
  /-- The location that is forced onto selections is sound. -/
  module : SoundLocation request.module
  /-- All choices are at sound locations. -/
  selections : ∀ selection ∈ request.selections, ∃ choices, selection.simplify = .ok choices ∧
    ∀ choice ∈ choices, SoundLocation choice.location
  /-- All key groups are at sound locations. -/
  keys : ∀ group ∈ request.keys, SoundLocation group.location
  /-- All records are at sound locations. -/
  records : ∀ record ∈ request.records, SoundLocation record.location
  /-- All variant sets are at sound locations. -/
  variantSets : ∀ set ∈ request.variantSets, SoundLocation set.location

theorem soundRequest_of_check {request : Request} (h : Check.request request = .ok ()) :
    SoundRequest request := by
  obtain ⟨_, selections, h⟩ := Outcome.bind_eq_ok_iff.1 h
  obtain ⟨_, module, h⟩ := Outcome.bind_eq_ok_iff.1 h
  obtain ⟨_, output, h⟩ := Outcome.bind_eq_ok_iff.1 h
  obtain ⟨_, records, h⟩ := Outcome.bind_eq_ok_iff.1 h
  obtain ⟨_, variantSets, keys⟩ := Outcome.bind_eq_ok_iff.1 h
  rw [Outcome.forM_eq_ok_iff] at selections records variantSets keys
  refine ⟨(soundLocation_of_check output).1 _ rfl, soundLocation_of_check module, ?_, ?_, ?_, ?_⟩
  · intro selection member
    have checked := selections selection member
    unfold Check.selection at checked
    split at checked
    · cases checked
    · next choices found =>
      rw [Outcome.forM_eq_ok_iff] at checked
      exact ⟨choices, found, fun choice inside => soundLocation_of_check (checked choice inside)⟩
  · intro group member
    obtain ⟨_, -, checked⟩ := Outcome.bind_eq_ok_iff.1 (keys group member)
    obtain ⟨_, -, checked⟩ := Outcome.bind_eq_ok_iff.1 checked
    obtain ⟨_, placed, -⟩ := Outcome.bind_eq_ok_iff.1 checked
    exact soundLocation_of_check placed
  · intro record member
    obtain ⟨_, -, checked⟩ := Outcome.bind_eq_ok_iff.1 (records record member)
    obtain ⟨_, -, checked⟩ := Outcome.bind_eq_ok_iff.1 checked
    obtain ⟨_, placed, -⟩ := Outcome.bind_eq_ok_iff.1 checked
    exact soundLocation_of_check placed
  · intro set member
    obtain ⟨_, -, checked⟩ := Outcome.bind_eq_ok_iff.1 (variantSets set member)
    obtain ⟨_, -, checked⟩ := Outcome.bind_eq_ok_iff.1 checked
    obtain ⟨_, placed, -⟩ := Outcome.bind_eq_ok_iff.1 checked
    exact soundLocation_of_check placed

theorem SoundRequest.propagated {request : Request} (sound : SoundRequest request) :
    SoundRequest request.propagated := by
  have frame := Propagation.sameFrame_propagated request
  have output : request.propagated.output = request.output := by rw [frame]
  have module : request.propagated.module = request.module := by rw [frame]
  have selections : request.propagated.selections = request.selections := by rw [frame]; rfl
  have keys : request.propagated.keys = request.keys := by rw [frame]
  refine ⟨output ▸ sound.domain, module ▸ sound.module, selections ▸ sound.selections,
    keys ▸ sound.keys, ?_, ?_⟩
  · intro record member
    obtain ⟨i, found⟩ := List.mem_iff_getElem?.1 member
    obtain ⟨original, found, same⟩ := Propagation.getElem?_records_propagated found
    rw [same]
    exact sound.records original (List.mem_of_getElem? found)
  · intro set member
    obtain ⟨i, found⟩ := List.mem_iff_getElem?.1 member
    obtain ⟨original, found, same⟩ := Propagation.getElem?_variantSets_propagated found
    rw [same]
    exact sound.variantSets original (List.mem_of_getElem? found)

theorem SoundRequest.familyPlace {request : Request} (sound : SoundRequest request) (kind : Kind)
    {location : Location} (placed : SoundLocation location) :
    (familyPlace request kind location).Sound :=
  sound_sibling (placed.resolve sound.domain sound_empty) kind

theorem SoundRequest.selected {request : Request} (sound : SoundRequest request) {kind : Kind}
    {selection : Option Selection} (among : ∀ chosen, selection = some chosen → chosen ∈ request.selections)
    {choices : List (Nat × Place)} (h : selected request kind selection = .ok choices)
    {dimension : Nat} {place : Place} (member : (dimension, place) ∈ choices) :
    place.Sound ∧ 2 ≤ dimension := by
  cases selection with
  | none =>
    cases h
    cases member
  | some selection =>
    rw [Plan.selected] at h
    split at h
    · cases h
    · next forcedChoices found =>
      cases h
      obtain ⟨choice, inside, same⟩ := List.mem_map.1 member
      cases same
      obtain ⟨own, simplified, placed⟩ := sound.selections selection (among selection rfl)
      obtain ⟨original, isOwn, rfl⟩ :=
        (Selection.mem_simplify_modularize simplified found).1 inside
      refine ⟨sound.familyPlace kind ((placed original isOwn).overriddenBy sound.module), ?_⟩
      obtain ⟨gathered, gather, own_iff⟩ := Selection.mem_of_simplify simplified
      have two_le : 2 ≤ original.dimension :=
        Selection.two_le_of_mem_gather selection gather ((own_iff original).1 isOwn)
      exact two_le

theorem SoundRequest.opticsPlace {request : Request} (sound : SoundRequest request) {kind : Kind}
    {folder : String} (given : kind.folder? = some folder) {location : Location}
    (placed : SoundLocation location) :
    (opticsPlace kind location request.output).Sound := by
  rw [Naming.opticsPlace, given]
  exact placed.resolve sound.domain
    (ModulePath.sound_of_plain (ModulePath.plain_of_isLegal (isLegal_of_folder? given)))

theorem sound_domainPackage {place : Place} (sound : place.Sound) (kind : Kind) :
    (domainPackage place kind).Sound :=
  ⟨sound.domain, sound_derivePackage sound_empty kind⟩

theorem mem_selections {request : Request} {selection : Selection}
    (h : request.products = some selection ∨ request.sums = some selection ∨
      request.dualities = some selection ∨ request.arithmetics = some selection ∨
      request.evolvingProducts = some selection ∨ request.evolvingSums = some selection) :
    selection ∈ request.selections := by
  simp only [Request.selections, List.mem_filterMap, List.mem_cons, List.not_mem_nil, or_false,
    id_eq, exists_eq_right]
  obtain h | h | h | h | h | h := h <;> simp [h]

/-- Every requested job is at a place whose module paths are sound. -/
theorem Requested.sound {request : Request} (sound : SoundRequest request) {job : Job}
    (requested : Requested request job) : job.place.Sound := by
  cases requested with
  | product chosen member =>
    exact (sound.selected (fun _ given => mem_selections (.inl given)) chosen member).1
  | sum chosen member =>
    exact (sound.selected (fun _ given => mem_selections (.inr (.inl given))) chosen member).1
  | arithmetic chosen member among =>
    have place := (sound.selected
      (fun _ given => mem_selections (.inr (.inr (.inr (.inl given))))) chosen member).1
    obtain ⟨width, -, -, rfl⟩ | rfl := mem_arithmeticJobs_iff.1 among
    · exact place
    · exact place
  | duality chosen member among =>
    have place := (sound.selected
      (fun _ given => mem_selections (.inr (.inr (.inl given)))) chosen member).1
    simp only [dualityJobs, List.mem_cons, List.not_mem_nil, or_false] at among
    obtain rfl | rfl | rfl := among
    · exact sound_sibling place .products
    · exact sound_sibling place .sums
    · exact place
  | evolvingProduct chosen member among =>
    have place := (sound.selected
      (fun _ given => mem_selections (.inr (.inr (.inr (.inr (.inl given)))))) chosen member).1
    simp only [evolvingProductJobs, List.mem_cons, List.not_mem_nil, or_false] at among
    obtain rfl | rfl := among
    · exact sound_sibling place .products
    · exact place
  | evolvingSum chosen member among =>
    have place := (sound.selected
      (fun _ given => mem_selections (.inr (.inr (.inr (.inr (.inr given)))))) chosen member).1
    simp only [evolvingSumJobs, List.mem_cons, List.not_mem_nil, or_false] at among
    obtain rfl | rfl | rfl := among
    · exact sound_sibling place .products
    · exact sound_sibling place .sums
    · exact place
  | keys kept among =>
    obtain ⟨group, index, found, rfl⟩ := mem_keyJobs kept among
    exact sound.familyPlace .keys (sound.keys group (List.mem_of_getElem? found))
  | lens found among =>
    have place := sound.opticsPlace (rfl : Kind.lenses.folder? = some _)
      (sound.records _ (List.mem_of_getElem? found))
    obtain ⟨-, rfl⟩ | rfl | rfl := mem_lensJobs_iff.1 among
    · exact sound_domainPackage place .products
    · exact sound_domainPackage place .lenses
    · exact place
  | prism found among =>
    have place := sound.opticsPlace (rfl : Kind.prisms.folder? = some _)
      (sound.variantSets _ (List.mem_of_getElem? found))
    obtain rfl | ⟨variant, -, -, rfl⟩ | rfl | rfl := mem_prismJobs_iff.1 among
    · exact sound_domainPackage place .sums
    · exact sound_domainPackage place .products
    · exact sound_domainPackage place .lenses
    · exact place

theorem Includes.sound {request : Request} (sound : SoundRequest request) {job : Job}
    (included : Includes request job) : job.place.Sound := by
  obtain requested | ⟨other, requested, marks⟩ := included
  · exact requested.sound sound
  · obtain ⟨_, -, rfl⟩ | ⟨_, -, rfl⟩ := mem_markerJobs_iff.1 marks
    · exact requested.sound sound
    · exact requested.sound sound

end Slotwise.Plan
