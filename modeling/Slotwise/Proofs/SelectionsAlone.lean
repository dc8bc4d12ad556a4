import Slotwise.Proofs.Choices
import Slotwise.Proofs.Siblings
import Slotwise.Proofs.Verdicts
/-!
# Requests for selections alone

The file of a family is called after its task and dimension, and lies in the folder of its kind
beside the package that was selected. However packages are spelled, the package of a kind is written
in one way, so what is selected twice is one job. Only declarations bring in names of their own, and
only a source root or a domain of its own can bring a package to where another one is.

Main statement: a request that passed its check has a plan if it has no declarations and its
selections name only packages (`selections_planned`).
-/

namespace Slotwise

/-! ## Files of families -/

namespace Task

open Naming

/-- What the modules of families and of the traits that mark them are called before the dimension,
in the order of tasks. -/
def bases : List String :=
  [productMarkerModule, "product_", "product_arithmetic_", sumMarkerModule, "sum_", "duality_",
    "evolving_product_", "evolving_sum_"]

/-- The dimension as it stands in the name of a module. -/
def digits (task : Task) : String :=
  (task.number?.map toString).getD ""

variable {task other : Task}

theorem isDigit_of_mem_digits {c : Char} (member : c ∈ task.digits.toList) : c.isDigit = true := by
  rw [digits] at member
  cases number : task.number? with
  | none =>
    rw [number] at member
    cases member
  | some n =>
    rw [number, Option.map_some, Option.getD_some, Nat.toString_eq_ofList_toDigits,
      String.toList_ofList] at member
    exact Nat.isDigit_of_mem_toDigits (by decide) (by decide) member

/-- The module of a family's file is called after the form of the task, then after the dimension. -/
theorem exists_base (family : task.rank < bases.length) :
    ∃ base, bases[task.rank]? = some base ∧ task.fileModule = base ++ task.digits := by
  cases task with
  | keys | setters | lens | prism => simp [rank, bases] at family
  | productMarker | product | arithmetic | sumMarker | sum | duality | evolvingProduct
  | evolvingSum => exact ⟨_, rfl, rfl⟩

/-- No base ends in a digit, so it is what remains of a name without the digits at its end. -/
theorem dropWhile_isDigit {base digits : String} (known : base ∈ bases)
    (all : ∀ c ∈ digits.toList, c.isDigit = true) :
    (base ++ digits).toList.reverse.dropWhile Char.isDigit = base.toList.reverse := by
  have ends : ∀ base ∈ bases, base.toList.reverse.dropWhile Char.isDigit = base.toList.reverse := by
    decide +kernel
  rw [String.toList_append, List.reverse_append, List.dropWhile_append_of_pos, ends base known]
  intro c member
  exact all c (List.mem_reverse.1 member)

theorem isLegal_fileModule (family : task.rank < bases.length) :
    isLegal task.fileModule = true := by
  obtain ⟨base, found, named⟩ := exists_base family
  have identifiers : ∀ base ∈ bases, Text.isIdentifier base.toList = true := by decide +kernel
  apply isLegal_of_isIdentifier
  rw [named, String.toList_append]
  refine Text.isIdentifier_append (identifiers base (List.mem_of_getElem? found)) ?_
  intro c member
  exact Text.isXidContinue_of_isDigit (isDigit_of_mem_digits member)

theorem number?_eq_of_digits (same : task.digits = other.digits) :
    task.number? = other.number? := by
  have filled (n : Nat) : toString n ≠ "" := by
    intro empty
    have none_ := congrArg String.toList empty
    rw [Nat.toString_eq_ofList_toDigits, String.toList_ofList] at none_
    exact Nat.toDigits_ne_nil none_
  rw [digits, digits] at same
  cases number : task.number? with
  | none =>
    cases number' : other.number? with
    | none => rfl
    | some n =>
      rw [number, number'] at same
      exact absurd same.symm (filled n)
  | some m =>
    cases number' : other.number? with
    | none =>
      rw [number, number'] at same
      exact absurd same (filled m)
    | some n =>
      rw [number, number'] at same
      exact congrArg some (numbered_injective "" (congrArg ("" ++ ·) same))

/-- The module of a family's file tells the task. -/
theorem eq_of_fileModule (family : task.rank < bases.length) (family' : other.rank < bases.length)
    (same : task.fileModule = other.fileModule) : task = other := by
  obtain ⟨base, found, named⟩ := exists_base family
  obtain ⟨base', found', named'⟩ := exists_base family'
  rw [named, named'] at same
  -- without the digits at its end each name leaves its base, so both have one base
  have bases_eq : base = base' := by
    have remains := dropWhile_isDigit (List.mem_of_getElem? found) (@isDigit_of_mem_digits task)
    have remains' := dropWhile_isDigit (List.mem_of_getElem? found') (@isDigit_of_mem_digits other)
    rw [same, remains'] at remains
    exact String.toList_inj.1 (List.reverse_injective remains.symm)
  subst bases_eq
  have once : bases.Nodup := by decide
  have rank : task.rank = other.rank := (List.getElem?_inj family once).1 (found.trans found'.symm)
  have number : task.number? = other.number? :=
    number?_eq_of_digits ((String.append_right_inj _).1 same)
  -- a family's task names no declaration, so any request will do
  have numbered {task : Task} (family : task.rank < bases.length) :
      Plan.Numbered Request.empty task := by
    cases task with
    | keys | lens | prism => simp [Task.rank, bases] at family
    | _ => trivial
  exact Plan.eq_of_numbered (numbered family) (numbered family') rank (by rw [number])

end Task

/-! ## Locations of choices -/

/-- The location names no source root and no domain, and no package but with legal segments. -/
structure Location.PackageOnly (location : Location) : Prop where
  /-- The source root is open. -/
  sourceRoot : location.sourceRoot = none
  /-- The domain is open. -/
  domain : location.domain = none
  /-- The segments of a package are legal. -/
  legal : ∀ package, location.package = some package →
    ∀ segment ∈ ModulePath.segments package, Naming.isLegal segment = true

namespace Location.PackageOnly

variable {location above : Location}

theorem anywhere : Location.anywhere.PackageOnly := by
  refine ⟨rfl, rfl, ?_⟩
  intro package given
  cases given

theorem inPackage {package : String}
    (legal : ∀ segment ∈ ModulePath.segments package, Naming.isLegal segment = true) :
    (Location.inPackage package).PackageOnly := by
  refine ⟨rfl, rfl, ?_⟩
  intro other given
  cases given
  exact legal

theorem inherit (own : location.PackageOnly) (outer : above.PackageOnly) :
    (location.inherit above).PackageOnly := by
  refine ⟨?_, ?_, ?_⟩
  · rw [Location.inherit, own.sourceRoot, outer.sourceRoot]
    rfl
  · rw [Location.inherit, own.domain, outer.domain]
    rfl
  · intro package given
    cases inner : location.package with
    | none =>
      rw [Location.inherit, inner] at given
      exact outer.legal package given
    | some name =>
      rw [Location.inherit, inner] at given
      cases given
      exact own.legal package inner

end Location.PackageOnly

namespace Selection

mutual

/-- What holds of every node and of all above them holds all the way up from each. -/
theorem forall_mem_way {P : Location → Prop} {above : List Location}
    (outer : ∀ location ∈ above, P location) (selection : Selection)
    (own : ∀ position ∈ positions above selection, P position.node.location) :
    ∀ position ∈ positions above selection, ∀ location ∈ position.way, P location := by
  cases selection with
  | single | range | list =>
    intro position inside
    have given := own position inside
    cases List.mem_singleton.1 inside
    exact List.forall_mem_cons.2 ⟨given, outer⟩
  | composite members location =>
    -- below a composite its own location is one of those above
    obtain ⟨given, below⟩ := List.forall_mem_cons.1 own
    have outer' := List.forall_mem_cons.2 ⟨given, outer⟩
    exact List.forall_mem_cons.2 ⟨outer', forall_mem_way_all outer' members below⟩

theorem forall_mem_way_all {P : Location → Prop} {above : List Location}
    (outer : ∀ location ∈ above, P location) (members : List Selection)
    (own : ∀ position ∈ positionsAll above members, P position.node.location) :
    ∀ position ∈ positionsAll above members, ∀ location ∈ position.way, P location := by
  cases members with
  | nil =>
    intro position inside
    cases inside
  | cons member rest =>
    obtain ⟨first, others⟩ := List.forall_mem_append.1 own
    exact List.forall_mem_append.2
      ⟨forall_mem_way outer member first, forall_mem_way_all outer rest others⟩

end

theorem packageOnly_nearest {way : List Location} (all : ∀ location ∈ way, location.PackageOnly) :
    (nearest way).PackageOnly := by
  induction way with
  | nil => exact .anywhere
  | cons location above ih =>
    obtain ⟨own, outer⟩ := List.forall_mem_cons.1 all
    rw [nearest_cons]
    exact own.inherit (ih outer)

/-- Choices name packages alone if all nodes of the selection do. -/
theorem packageOnly_of_simplify {selection : Selection} {choices : List Choice}
    (h : selection.simplify = .ok choices)
    (nodes : ∀ position ∈ selection.positions [], position.node.location.PackageOnly)
    {choice : Choice} (member : choice ∈ choices) : choice.location.PackageOnly := by
  obtain ⟨-, rfl⟩ := simplify_eq_ok_iff.1 h
  obtain ⟨position, inside, among⟩ := List.mem_flatMap.1 (Ordered.mem_of_mem_sortedSet member)
  rw [(mem_choices_iff.1 among).2]
  have none_ : ∀ location ∈ ([] : List Location), location.PackageOnly := by
    intro location among
    cases among
  exact packageOnly_nearest (forall_mem_way none_ selection nodes position inside)

end Selection

/-! ## Places of jobs -/

/-- The place is below the domain of the output. Its package is written with a pair of colons
between legal segments, as the packages of kinds are. -/
structure Place.Regular (options : OutputOptions) (place : Place) : Prop where
  /-- The source root is that of the output. -/
  sourceRoot : place.sourceRoot = options.sourceRoot
  /-- The domain is that of the output. -/
  domain : place.domain = options.domain
  /-- The package is written by its segments. -/
  written : place.package = ModulePath.ofSegments (ModulePath.segments place.package)
  /-- The segments of the package are legal. -/
  legal : ∀ segment ∈ ModulePath.segments place.package, Naming.isLegal segment = true

namespace Place.Regular

open Naming

variable {options : OutputOptions} {place other : Place} {kind : Kind} {folder : String}

theorem eq_of_segments (regular : place.Regular options) (regular' : other.Regular options)
    (same : ModulePath.segments place.package = ModulePath.segments other.package) :
    place = other := by
  have package : place.package = other.package := by
    rw [regular.written, regular'.written, same]
  have sourceRoot := regular.sourceRoot.trans regular'.sourceRoot.symm
  have domain := regular.domain.trans regular'.domain.symm
  cases place
  cases other
  simp only at package sourceRoot domain
  rw [package, sourceRoot, domain]

/-- Wherever a package comes from, that of a kind is written in one way. -/
theorem of_derivePackage (given : kind.folder? = some folder) {package : String}
    (legal : ∀ segment ∈ ModulePath.segments package, isLegal segment = true) :
    Place.Regular options ⟨options.sourceRoot, options.domain, derivePackage kind package⟩ := by
  have colonFree : ColonFree package := by
    intro segment member
    exact not_mem_of_isLegal (legal segment member) (by decide)
  -- legal segments hold no colon, so they are found again in the text that is made of them
  have segments := segments_derivePackage given colonFree
  refine ⟨rfl, rfl, ?_, ?_⟩
  · show derivePackage kind package = _
    rw [segments, derivePackage_eq given]
  · intro segment member
    rw [segments] at member
    rcases List.mem_append.1 member with kept | last
    · exact legal segment (packageBase_subset package kept)
    · rw [List.mem_singleton.1 last]
      exact isLegal_of_folder? given

theorem sibling (regular : place.Regular options) (given : kind.folder? = some folder) :
    (Naming.sibling place kind).Regular options := by
  have beside := @of_derivePackage options kind folder given place.package regular.legal
  rw [← regular.sourceRoot, ← regular.domain] at beside
  exact beside

end Place.Regular

namespace Plan

open Naming

variable {request : Request} {options : OutputOptions} {job other : Job}

theorem regular_familyPlace {kind : Kind} {folder : String} (given : kind.folder? = some folder)
    {location : Location} (only : location.PackageOnly) :
    (familyPlace request kind location).Regular request.output := by
  have place : familyPlace request kind location = ⟨request.output.sourceRoot,
      request.output.domain, derivePackage kind (location.package.getD "")⟩ := by
    rw [familyPlace, Location.resolve, only.sourceRoot, only.domain]
    rfl
  rw [place]
  apply Place.Regular.of_derivePackage given
  intro segment member
  cases package : location.package with
  | none =>
    rw [package] at member
    cases member
  | some text =>
    rw [package] at member
    exact only.legal text package segment member

/-- The job is for a family or for a trait that marks families, at a regular place. -/
structure RegularFamily (options : OutputOptions) (job : Job) : Prop where
  /-- The task is for a family. -/
  family : job.task.rank < Task.bases.length
  /-- The place is regular. -/
  place : job.place.Regular options

/-- What a dimension at a regular place brings along is at regular places. -/
theorem regularFamily_of_mem_jobs {capability : Capability} {dimension : Nat} {place : Place}
    (regular : place.Regular options) (among : job ∈ capability.jobs dimension place) :
    RegularFamily options job := by
  have products := regular.sibling (rfl : Kind.products.folder? = some _)
  have sums := regular.sibling (rfl : Kind.sums.folder? = some _)
  cases capability with
  | products | sums =>
    cases List.mem_singleton.1 among
    exact ⟨by simp [Task.rank, Task.bases], regular⟩
  | arithmetics =>
    rcases mem_arithmeticJobs_iff.1 among with ⟨width, -, -, rfl⟩ | rfl
    · exact ⟨by simp [Task.rank, Task.bases], regular⟩
    · exact ⟨by simp [Task.rank, Task.bases], regular⟩
  | dualities =>
    simp only [Capability.jobs, dualityJobs, List.mem_cons, List.not_mem_nil, or_false] at among
    rcases among with rfl | rfl | rfl
    · exact ⟨by simp [productBeside, Task.rank, Task.bases], products⟩
    · exact ⟨by simp [sumBeside, Task.rank, Task.bases], sums⟩
    · exact ⟨by simp [Task.rank, Task.bases], regular⟩
  | evolvingProducts =>
    simp only [Capability.jobs, evolvingProductJobs, List.mem_cons, List.not_mem_nil, or_false]
      at among
    rcases among with rfl | rfl
    · exact ⟨by simp [productBeside, Task.rank, Task.bases], products⟩
    · exact ⟨by simp [Task.rank, Task.bases], regular⟩
  | evolvingSums =>
    simp only [Capability.jobs, evolvingSumJobs, List.mem_cons, List.not_mem_nil, or_false] at among
    rcases among with rfl | rfl | rfl
    · exact ⟨by simp [productBeside, Task.rank, Task.bases], products⟩
    · exact ⟨by simp [sumBeside, Task.rank, Task.bases], sums⟩
    · exact ⟨by simp [Task.rank, Task.bases], regular⟩

/-- The components of the path of a job at a regular place. -/
theorem RegularFamily.components_path (regular : RegularFamily options job) :
    job.path.components =
      ((ModulePath.segments options.domain).foldl FilePath.push ⟨options.sourceRoot⟩).components ++
        (ModulePath.segments job.place.package ++ [job.task.fileModule ++ ".rs"]).map .entry := by
  have plain : FilePath.IsPlain (job.task.fileModule ++ ".rs") :=
    FilePath.isPlain_append_of_isLegal (Task.isLegal_fileModule regular.family) (by decide)
  rw [Job.path, FilePath.components_push _ plain, Place.directory, Place.segments,
    List.foldl_append, FilePath.components_foldl_push _ _ fun segment member =>
      FilePath.isPlain_of_isLegal (regular.place.legal segment member),
    regular.place.sourceRoot, regular.place.domain, List.map_append, List.append_assoc]
  rfl

/-- The path of such a job tells the job. -/
theorem RegularFamily.eq_of_path (regular : RegularFamily options job)
    (regular' : RegularFamily options other)
    (same : job.path.components = other.path.components) : job = other := by
  -- both paths begin in the domain, and end in the segments of the package and the file
  rw [regular.components_path, regular'.components_path, List.append_cancel_left_eq] at same
  have names := List.map_injective_iff.2 (fun _ _ => FilePath.Component.entry.inj) same
  obtain ⟨segments, file⟩ := List.append_inj' names rfl
  have module : job.task.fileModule = other.task.fileModule :=
    (String.append_left_inj _).1 (List.singleton_inj.1 file)
  have task := Task.eq_of_fileModule regular.family regular'.family module
  have place := regular.place.eq_of_segments regular'.place segments
  show Job.mk job.task job.place = Job.mk other.task other.place
  rw [task, place]

/-! ## Requests -/

/-- The request declares nothing, and its selections name packages alone. -/
structure SelectsPackages (request : Request) : Prop where
  /-- There are no key groups. -/
  keys : request.keys = []
  /-- There are no records. -/
  records : request.records = []
  /-- There are no variant sets. -/
  variantSets : request.variantSets = []
  /-- The location that is forced onto selections names a package alone. -/
  module : request.module.PackageOnly
  /-- Every node of a selection names a package alone. -/
  nodes : ∀ selection ∈ request.selections, ∀ position ∈ selection.positions [],
    position.node.location.PackageOnly

namespace SelectsPackages

/-- There is nothing that serialization could spread to. -/
theorem propagated_eq (alone : SelectsPackages request) : request.propagated = request := by
  rw [Request.propagated, alone.records, alone.variantSets]
  rfl

theorem regular_of_chosen (alone : SelectsPackages request) {capability : Capability}
    {dimension : Nat} {place : Place} (chosen : Chosen request capability dimension place) :
    place.Regular request.output := by
  obtain ⟨selection, choices, given, simplified, choice, member, -, rfl⟩ := chosen_iff.1 chosen
  have inside : selection ∈ request.selections := Request.mem_selections_iff.2 ⟨capability, given⟩
  have own := Selection.packageOnly_of_simplify simplified (alone.nodes selection inside) member
  have forced := alone.module.inherit own
  cases capability <;> exact regular_familyPlace rfl forced

theorem regularFamily_of_requested (alone : SelectsPackages request)
    (requested : Requested request job) : RegularFamily request.output job := by
  rcases requested_iff.1 requested with chosen | declared
  · obtain ⟨capability, dimension, place, chosen, among⟩ := chosen
    exact regularFamily_of_mem_jobs (alone.regular_of_chosen chosen) among
  · exfalso
    cases declared with
    | keys kept among =>
      obtain ⟨group, index, found, -⟩ := mem_keyJobs kept among
      rw [alone.keys] at found
      cases found
    | lens found =>
      rw [alone.records] at found
      cases found
    | prism found =>
      rw [alone.variantSets] at found
      cases found

theorem regularFamily_of_includes (alone : SelectsPackages request)
    (included : Includes request job) : RegularFamily request.output job := by
  rcases included with requested | ⟨marked, requested, marks⟩
  · exact alone.regularFamily_of_requested requested
  · -- the traits that mark families stand beside them
    have place := (alone.regularFamily_of_requested requested).place
    rcases mem_markerJobs_iff.1 marks with ⟨_, -, rfl⟩ | ⟨_, -, rfl⟩
    · exact ⟨by simp [Task.rank, Task.bases], place⟩
    · exact ⟨by simp [Task.rank, Task.bases], place⟩

end SelectsPackages

/-- A request that passed its check has a plan if it has no key groups, records and variant sets,
and neither the location that it forces onto selections nor any node of them names a source root or
a domain, or a package with segments that are not legal. No two jobs write one file then, whatever
dimensions and capabilities are selected, and in however many ways their packages are spelled. The
domain of the output can be anything that passes the check. -/
theorem selections_planned (alone : SelectsPackages request)
    (checked : Check.request request = .ok ()) :
    ∃ plan, ofRequest request = .ok plan ∧ ∀ job ∈ plan.jobs, ∀ other ∈ plan.jobs,
      job.path.components = other.path.components → job = other := by
  have agree : ¬KeysConflict request := by
    intro conflict
    obtain ⟨group, member, -⟩ := conflict
    rw [alone.keys] at member
    cases member
  obtain ⟨jobs, listed, -, accepted⟩ := ofRequest_of_keysAgree checked agree
  have apart : ∀ job ∈ jobs, ∀ other ∈ jobs,
      job.path.components = other.path.components → job = other := by
    rw [alone.propagated_eq] at listed
    intro job member other member' same
    have regular := alone.regularFamily_of_includes ((mem_allJobs_iff listed).1 member)
    have regular' := alone.regularFamily_of_includes ((mem_allJobs_iff listed).1 member')
    exact regular.eq_of_path regular' same
  refine ⟨_, accepted ?_, apart⟩
  intro clash
  obtain ⟨first, member, second, member', differ, same⟩ := clash
  exact differ (apart first member second member' same)

/-- Products in a package that is named in two ways. -/
def namedTwice : Selection :=
  .composite [.single 2 (.inPackage "app::sums"), .single 2 (.inPackage " app ::")] .anywhere

/-- The products, and a duality in the package, which is named in a third way. -/
def namedThrice : Request :=
  { Request.empty with
    products := some namedTwice, dualities := some (.single 2 (.inPackage "::app::products")) }

/-- However the package is named, its product is one job. -/
theorem selections_planned_namedThrice :
    SelectsPackages namedThrice ∧ Check.request namedThrice = .ok () ∧
    ∃ plan, ofRequest namedThrice = .ok plan ∧ ∀ job ∈ plan.jobs, ∀ other ∈ plan.jobs,
      job.path.components = other.path.components → job = other := by
  have works (request : Request) (same : request = namedThrice) :
      (Check.request request).isOk = true := by
    simp only [Check.request, funext Check.selection.eq_def, Selection.simplify,
      Ordered.sortedSet_eq_foldr]
    subst same
    decide +kernel
  obtain ⟨_, checked⟩ := Outcome.exists_of_isOk (works _ rfl)
  have legal : ∀ package ∈ ["app::sums", " app ::", "::app::products"],
      ∀ segment ∈ ModulePath.segments package, isLegal segment = true := by
    decide +kernel
  have alone : SelectsPackages namedThrice := by
    refine ⟨rfl, rfl, rfl, .anywhere, ?_⟩
    have selections : namedThrice.selections =
        [namedTwice, .single 2 (.inPackage "::app::products")] := rfl
    simp only [selections, namedTwice, List.forall_mem_cons, Selection.positions,
      Selection.positionsAll, List.nil_append, List.append_nil, List.cons_append]
    refine ⟨⟨.anywhere, ?_, ?_, by simp⟩, ⟨?_, by simp⟩, by simp⟩ <;>
      exact .inPackage (legal _ (by simp))
  exact ⟨alone, checked, selections_planned alone checked⟩

end Plan

end Slotwise
