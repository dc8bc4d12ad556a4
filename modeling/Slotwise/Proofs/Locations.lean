import Slotwise.Check.Basic
import Slotwise.ItemPath
import Slotwise.Proofs.Outcome
import Slotwise.Proofs.Spelling
/-!
# Paths to items at checked locations

A module path that passed its check is sound: unless it holds a comment, none of its segments holds
a colon. So a path to an item that generated code names from the root of the crate has exactly the
segments of the place and then the file (`ofFileItem_eq`), also where the package is derived for
another kind.
-/

namespace Slotwise

open Naming

/-- A module path that keeps its segments when it is written again, unless a slash makes it
illegal. -/
def ModulePath.Sound (path : String) : Prop :=
  '/' ∈ path.toList ∨ ∀ segment ∈ segments path, ':' ∉ segment.toList

/-- A place whose module paths are sound. -/
structure Place.Sound (place : Place) : Prop where
  /-- The domain is sound. -/
  domain : ModulePath.Sound place.domain
  /-- The package is sound. -/
  package : ModulePath.Sound place.package

namespace ModulePath

theorem sound_of_check {owner path : String} (h : Check.modulePath owner path = .ok ()) :
    Sound path := by
  rw [Check.modulePath, Outcome.forM_eq_ok_iff] at h
  by_cases slash : '/' ∈ path.toList
  · exact .inl slash
  refine .inr fun segment member => ?_
  obtain ⟨name, read, -⟩ := Outcome.bind_eq_ok_iff.1 (h segment member)
  have reads : Code.Node.identifier? segment = some name := by
    unfold ModelText.identifier ModelText.orInvalid at read
    split at read
    · cases read
    · split at read <;> simp_all
  obtain inside | colonFree := Code.Node.colonFree_of_identifier? reads
  · exact absurd ((exists_mem_segments_iff (by decide) (by decide)).1 ⟨segment, member, inside⟩)
      slash
  · exact colonFree

theorem segments_ofSegments_append {path : String} (colonFree : ∀ segment ∈ segments path,
    ':' ∉ segment.toList) {kept more : List String} (sub : kept ⊆ segments path)
    (plain : ∀ segment ∈ more, Plain segment) :
    segments (ofSegments (kept ++ more)) = kept ++ more := by
  apply segments_ofSegments
  intro segment member
  obtain member | member := List.mem_append.1 member
  · exact plain_of_mem_segments (sub member) (colonFree segment (sub member))
  · exact plain segment member

theorem sound_of_plain {text : String} (plain : Plain text) : Sound text := by
  refine .inr fun segment member => ?_
  have same : segments text = [text] := plain.segmentsOf
  rw [same] at member
  exact List.mem_singleton.1 member ▸ plain.colonFree

end ModulePath

namespace Naming

theorem isLegal_of_folder? {kind : Kind} {folder : String} (h : kind.folder? = some folder) :
    isLegal folder = true := by
  cases kind <;> cases h <;> decide

/-- The segments of a package without a folder of some kind at the end. -/
def packageBase (package : String) : List String :=
  if Kind.all.any (fun other =>
      other.folder?.isSome && other.folder? == (ModulePath.segments package).getLast?) then
    (ModulePath.segments package).dropLast
  else ModulePath.segments package

theorem packageBase_subset (package : String) :
    packageBase package ⊆ ModulePath.segments package := by
  unfold packageBase
  split
  · exact List.dropLast_subset _
  · exact List.Subset.refl _

theorem mem_packageBase {package segment : String} (h : segment ∈ ModulePath.segments package)
    (illegal : isLegal segment = false) : segment ∈ packageBase package := by
  unfold packageBase
  split
  · next folder =>
    obtain ⟨other, -, isFolder⟩ := List.any_eq_true.1 folder
    rw [Bool.and_eq_true, beq_iff_eq] at isFolder
    obtain ⟨name, named⟩ := Option.isSome_iff_exists.1 isFolder.1
    obtain ⟨front, split⟩ := List.getLast?_eq_some_iff.1 (isFolder.2.symm.trans named)
    rw [split, List.dropLast_concat]
    rw [split, List.mem_append, List.mem_singleton] at h
    obtain h | rfl := h
    · exact h
    · rw [isLegal_of_folder? named] at illegal
      cases illegal
  · exact h

theorem derivePackage_eq {kind : Kind} {folder : String} (h : kind.folder? = some folder)
    (package : String) :
    derivePackage kind package = ModulePath.ofSegments (packageBase package ++ [folder]) := by
  rw [derivePackage, h]
  rfl

theorem sound_derivePackage {package : String} (sound : ModulePath.Sound package) (kind : Kind) :
    ModulePath.Sound (derivePackage kind package) := by
  cases folder : kind.folder? with
  | none =>
    rw [derivePackage, folder]
    exact sound
  | some name =>
    have legal := isLegal_of_folder? folder
    rw [derivePackage_eq folder]
    obtain slash | colonFree := sound
    · obtain ⟨segment, member, inside⟩ :=
        (ModulePath.exists_mem_segments_iff (by decide) (by decide)).2 slash
      have illegal : isLegal segment = false := by
        rw [← Bool.not_eq_true]
        exact fun legal => not_mem_of_isLegal legal (by decide) inside
      exact .inl (ModulePath.mem_ofSegments
        (List.mem_append_left _ (mem_packageBase member illegal)) inside)
    · refine .inr fun segment member => ?_
      rw [ModulePath.segments_ofSegments_append colonFree (packageBase_subset package)
        (by simpa using ModulePath.plain_of_isLegal legal)] at member
      obtain member | member := List.mem_append.1 member
      · exact colonFree segment (packageBase_subset package member)
      · rw [List.mem_singleton.1 member]
        exact not_mem_of_isLegal legal (by decide)

theorem sound_sibling {place : Place} (sound : place.Sound) (kind : Kind) :
    (sibling place kind).Sound :=
  ⟨sound.domain, sound_derivePackage sound.package kind⟩

end Naming

/-! ## Segments of places -/

theorem Place.segments_cases {place : Place} (sound : place.Sound) :
    (∃ segment ∈ place.segments, '/' ∈ segment.toList) ∨
      ∀ segment ∈ place.segments, ModulePath.Plain segment := by
  have found {path : String} (slash : '/' ∈ path.toList) :=
    (ModulePath.exists_mem_segments_iff (c := '/') (by decide) (by decide)).2 slash
  obtain slash | domainFree := sound.domain
  · obtain ⟨segment, member, inside⟩ := found slash
    exact .inl ⟨segment, List.mem_append_left _ member, inside⟩
  obtain slash | packageFree := sound.package
  · obtain ⟨segment, member, inside⟩ := found slash
    exact .inl ⟨segment, List.mem_append_right _ member, inside⟩
  refine .inr fun segment member => ?_
  obtain member | member := List.mem_append.1 member
  · exact ModulePath.plain_of_mem_segments member (domainFree segment member)
  · exact ModulePath.plain_of_mem_segments member (packageFree segment member)

/-- The segments of a file in the module of a place. -/
theorem Place.segments_joined_of_plain {place : Place} {file : String}
    (plain : ∀ segment ∈ place.segments, ModulePath.Plain segment)
    (filePlain : ModulePath.Plain file) :
    ModulePath.segments (ModulePath.joined [place.modulePath, file]) =
      place.segments ++ [file] := by
  have fileSegments : ModulePath.segments file = [file] := filePlain.segmentsOf
  rw [ModulePath.joined, List.flatMap_cons, List.flatMap_singleton, fileSegments,
    Place.modulePath, ModulePath.segments_ofSegments plain]
  apply ModulePath.segments_ofSegments
  simpa [or_imp, forall_and] using ⟨plain, filePlain⟩

/-- They are the same unless one of them is illegal. -/
theorem Place.segments_joined {place : Place} (sound : place.Sound) {file : String}
    (fileLegal : isLegal file = true)
    (legal : ∀ segment ∈ ModulePath.segments (ModulePath.joined [place.modulePath, file]),
      isLegal segment = true) :
    ModulePath.segments (ModulePath.joined [place.modulePath, file]) =
      place.segments ++ [file] := by
  have filePlain := ModulePath.plain_of_isLegal fileLegal
  obtain ⟨segment, member, inside⟩ | plain := place.segments_cases sound
  · -- a slash would still be there in an illegal segment
    have found (path : String) :=
      @ModulePath.exists_mem_segments_iff path '/' (by decide) (by decide)
    have fileSegments : ModulePath.segments file = [file] := filePlain.segmentsOf
    rw [ModulePath.joined, List.flatMap_cons, List.flatMap_singleton, fileSegments] at legal
    obtain ⟨whole, member, inside⟩ := (found _).2 (ModulePath.mem_ofSegments member inside)
    obtain ⟨illegal, member, inside⟩ := (found _).2
      (ModulePath.mem_ofSegments (List.mem_append_left [file] member) inside)
    exact absurd inside (not_mem_of_isLegal (legal illegal member) (by decide))
  · exact place.segments_joined_of_plain plain filePlain

/-! ## Paths to items -/

theorem mapM_legal_eq_ok_iff {names result : List String} :
    names.mapM legal = .ok result ↔ result = names ∧ ∀ name ∈ names, isLegal name = true := by
  rw [Outcome.mapM_eq_ok_iff]
  have step : ∀ name result, legal name = .ok result ↔ result = name ∧ isLegal name = true := by
    intro name result
    unfold legal
    split
    · next legal => simp [legal, eq_comm]
    · next illegal => simp [illegal]
  simp only [step]
  constructor
  · intro related
    induction related with
    | nil => simp
    | cons head _ ih =>
      obtain ⟨rfl, legal⟩ := head
      obtain ⟨rfl, others⟩ := ih
      exact ⟨rfl, List.forall_mem_cons.2 ⟨legal, others⟩⟩
  · rintro ⟨rfl, legal⟩
    exact List.forall₂_same.2 fun name member => ⟨rfl, legal name member⟩

/-- A path to an item of a file goes along the segments of the place, which then are legal. -/
theorem ofFileItem_eq {place : Place} (sound : place.Sound) {file item : String}
    (fileLegal : isLegal file = true) {path : List String}
    (h : ItemPath.ofFileItem place file item = .ok path) :
    path = "crate" :: (place.segments ++ [file, item]) ∧
      ∀ segment ∈ place.segments, isLegal segment = true := by
  obtain ⟨_, rooted, result⟩ := Outcome.bind_eq_ok_iff.1 h
  obtain ⟨names, split, root⟩ := Outcome.bind_eq_ok_iff.1 rooted
  obtain ⟨same, legal⟩ := mapM_legal_eq_ok_iff.1 split
  have segments := place.segments_joined sound fileLegal legal
  have rootIs := Outcome.pure_eq_ok_iff.1 root
  have resultIs := Outcome.pure_eq_ok_iff.1 result
  rw [segments] at same legal
  refine ⟨?_, fun segment member => legal segment (List.mem_append_left _ member)⟩
  rw [← resultIs, ← rootIs, same, List.cons_append, List.append_assoc]
  rfl

end Slotwise
