import Slotwise.Job
import Slotwise.Selection
/-!
# Orders

The comparisons that lists are sorted by are total preorders: of two members one comes first or they
count as equal, and the order is transitive. So a sorted list without repetitions can be built
member by member: each member goes before those that were there, and stands in for one that it
equals (`sortedSet_eq_foldr`).
-/

namespace Slotwise

/-! ## Sorting by insertion -/

namespace Ordered

/-- The sorted list with one more member, which stands in for one that it equals. -/
def insertFirst {α : Type} (cmp : α → α → Ordering) (x : α) : List α → List α
  | [] => [x]
  | y :: rest =>
    match cmp x y with
    | .lt => x :: y :: rest
    | .eq => x :: rest
    | .gt => y :: insertFirst cmp x rest

theorem insertFirst_cons {α : Type} (cmp : α → α → Ordering) (x y : α) (rest : List α) :
    insertFirst cmp x (y :: rest) =
      match cmp x y with
      | .lt => x :: y :: rest
      | .eq => x :: rest
      | .gt => y :: insertFirst cmp x rest := rfl

theorem mem_insertFirst_self {α : Type} {cmp : α → α → Ordering} {x : α} {xs : List α} :
    x ∈ insertFirst cmp x xs := by
  induction xs with
  | nil => exact List.mem_singleton_self x
  | cons y rest ih =>
    rw [insertFirst_cons]
    split
    · exact List.mem_cons_self
    · exact List.mem_cons_self
    · exact List.mem_cons_of_mem _ ih

theorem eq_or_mem_of_mem_insertFirst {α : Type} {cmp : α → α → Ordering} {x z : α}
    {xs : List α} (h : z ∈ insertFirst cmp x xs) : z = x ∨ z ∈ xs := by
  induction xs with
  | nil => exact .inl (List.mem_singleton.1 h)
  | cons y rest ih =>
    rw [insertFirst_cons] at h
    split at h
    · exact List.mem_cons.1 h
    · exact (List.mem_cons.1 h).imp_right (List.mem_cons_of_mem _)
    · obtain rfl | among := List.mem_cons.1 h
      · exact .inr List.mem_cons_self
      · exact (ih among).imp_right (List.mem_cons_of_mem _)

/-- A member stays unless the inserted one stands in for it. -/
theorem mem_insertFirst_or {α : Type} {cmp : α → α → Ordering} {x y : α} {xs : List α}
    (member : y ∈ xs) : y ∈ insertFirst cmp x xs ∨ cmp x y = .eq := by
  induction xs with
  | nil => cases member
  | cons z rest ih =>
    rw [insertFirst_cons]
    split
    · exact .inl (List.mem_cons_of_mem _ member)
    · next same =>
      obtain rfl | among := List.mem_cons.1 member
      · exact .inr same
      · exact .inl (List.mem_cons_of_mem _ among)
    · obtain rfl | among := List.mem_cons.1 member
      · exact .inl List.mem_cons_self
      · exact (ih among).imp_left (List.mem_cons_of_mem _)

section Insertion

variable {α : Type} {cmp : α → α → Ordering} [Std.TransCmp cmp]

theorem dropRepeatsAfter_congr {x y : α} (same : cmp x y = .eq) (xs : List α) :
    dropRepeats.dropRepeatsAfter (fun a b => cmp a b == .eq) x xs =
      dropRepeats.dropRepeatsAfter (fun a b => cmp a b == .eq) y xs := by
  induction xs with
  | nil => rfl
  | cons z rest ih =>
    rw [dropRepeats.dropRepeatsAfter, dropRepeats.dropRepeatsAfter,
      Std.TransCmp.congr_left same, ih]

/-- A member that comes strictly after `last` and the members before it, and not after any member
behind it. -/
theorem dropRepeatsAfter_append_cons {last x : α} {before behind : List α}
    (after : cmp last x = .lt) (greater : ∀ y ∈ before, cmp y x = .lt)
    (least : ∀ y ∈ behind, (cmp x y).isLE) :
    dropRepeats.dropRepeatsAfter (fun a b => cmp a b == .eq) last (before ++ x :: behind) =
      insertFirst cmp x
        (dropRepeats.dropRepeatsAfter (fun a b => cmp a b == .eq) last (before ++ behind)) := by
  induction before generalizing last with
  | nil =>
    cases behind with
    | nil => simp [dropRepeats.dropRepeatsAfter, insertFirst, after]
    | cons y rest =>
      have order : (cmp x y).isLE := least y List.mem_cons_self
      have beyond : cmp last y = .lt := Std.TransCmp.lt_of_lt_of_isLE after order
      cases h : cmp x y with
      | lt => simp [dropRepeats.dropRepeatsAfter, insertFirst_cons, after, beyond, h]
      | eq =>
        simp [dropRepeats.dropRepeatsAfter, insertFirst_cons, after, beyond, h,
          dropRepeatsAfter_congr h rest]
      | gt => simp [h] at order
  | cons y before ih =>
    have less : cmp y x = .lt := greater y List.mem_cons_self
    have more : cmp x y = .gt := Std.OrientedCmp.gt_of_lt less
    have others : ∀ z ∈ before, cmp z x = .lt := fun z hz => greater z (List.mem_cons_of_mem _ hz)
    rw [List.cons_append, List.cons_append, dropRepeats.dropRepeatsAfter,
      dropRepeats.dropRepeatsAfter]
    split
    · exact ih after others
    · rw [ih less others, insertFirst_cons, more]

theorem dropRepeats_append_cons {x : α} {before behind : List α}
    (greater : ∀ y ∈ before, cmp y x = .lt) (least : ∀ y ∈ behind, (cmp x y).isLE) :
    dropRepeats (fun a b => cmp a b == .eq) (before ++ x :: behind) =
      insertFirst cmp x (dropRepeats (fun a b => cmp a b == .eq) (before ++ behind)) := by
  cases before with
  | nil =>
    cases behind with
    | nil => rfl
    | cons y rest =>
      have order : (cmp x y).isLE := least y List.mem_cons_self
      cases h : cmp x y with
      | lt => simp [dropRepeats, dropRepeats.dropRepeatsAfter, insertFirst_cons, h]
      | eq =>
        simp [dropRepeats, dropRepeats.dropRepeatsAfter, insertFirst_cons, h,
          dropRepeatsAfter_congr h rest]
      | gt => simp [h] at order
  | cons y before =>
    have less : cmp y x = .lt := greater y List.mem_cons_self
    have more : cmp x y = .gt := Std.OrientedCmp.gt_of_lt less
    rw [List.cons_append, List.cons_append, dropRepeats, dropRepeats,
      dropRepeatsAfter_append_cons less (fun z hz => greater z (List.mem_cons_of_mem _ hz)) least,
      insertFirst_cons, more]

theorem sortedSet_cons (x : α) (xs : List α) :
    sortedSet cmp (x :: xs) = insertFirst cmp x (sortedSet cmp xs) := by
  have trans : ∀ a b c : α, (cmp a b).isLE → (cmp b c).isLE → (cmp a c).isLE :=
    fun _ _ _ => Std.TransCmp.isLE_trans
  have total : ∀ a b : α, (cmp a b).isLE || (cmp b a).isLE := by
    intro a b
    rw [show cmp b a = (cmp a b).swap from Std.OrientedCmp.eq_swap]
    cases cmp a b <;> rfl
  obtain ⟨before, behind, whole, rest, beforeLess⟩ := List.mergeSort_cons trans total x xs
  have sorted := List.pairwise_mergeSort trans total (x :: xs)
  rw [whole, List.pairwise_append, List.pairwise_cons] at sorted
  rw [sortedSet, sortedSet, whole, rest]
  refine dropRepeats_append_cons (fun y hy => ?_) sorted.2.1.1
  have later : (cmp x y).isLE = false := by simpa using beforeLess y hy
  exact Std.OrientedCmp.lt_of_gt (by cases h : cmp x y <;> simp [h] at later ⊢)

theorem sortedSet_eq_foldr (xs : List α) :
    sortedSet cmp xs = xs.foldr (insertFirst cmp) [] := by
  induction xs with
  | nil => simp [sortedSet, dropRepeats]
  | cons x rest ih => rw [sortedSet_cons, ih, List.foldr_cons]

/-- Inserting keeps a list in strict order. -/
theorem pairwise_insertFirst {x : α} {xs : List α} (sorted : xs.Pairwise (cmp · · = .lt)) :
    (insertFirst cmp x xs).Pairwise (cmp · · = .lt) := by
  induction xs with
  | nil => exact List.pairwise_singleton _ x
  | cons y rest ih =>
    obtain ⟨above, sorted'⟩ := List.pairwise_cons.1 sorted
    rw [insertFirst_cons]
    split
    · next less =>
      refine List.pairwise_cons.2 ⟨List.forall_mem_cons.2 ⟨less, fun z member => ?_⟩, sorted⟩
      exact Std.TransCmp.lt_trans less (above z member)
    · next same =>
      refine List.pairwise_cons.2 ⟨fun z member => ?_, sorted'⟩
      rw [Std.TransCmp.congr_left same]
      exact above z member
    · next greater =>
      refine List.pairwise_cons.2 ⟨fun z member => ?_, ih sorted'⟩
      obtain rfl | among := eq_or_mem_of_mem_insertFirst member
      · exact Std.OrientedCmp.lt_of_gt greater
      · exact above z among

/-- A sorted set is in strict order. -/
theorem pairwise_sortedSet (xs : List α) : (sortedSet cmp xs).Pairwise (cmp · · = .lt) := by
  rw [sortedSet_eq_foldr]
  induction xs with
  | nil => exact .nil
  | cons x rest ih => exact pairwise_insertFirst ih

/-- A list in strict order is a sorted set as it is. -/
theorem sortedSet_of_pairwise {xs : List α} (sorted : xs.Pairwise (cmp · · = .lt)) :
    sortedSet cmp xs = xs := by
  rw [sortedSet_eq_foldr]
  induction xs with
  | nil => rfl
  | cons x rest ih =>
    obtain ⟨less, sorted⟩ := List.pairwise_cons.1 sorted
    rw [List.foldr_cons, ih sorted]
    cases rest with
    | nil => rfl
    | cons y rest => rw [insertFirst_cons, less y List.mem_cons_self]

/-- A list in strict order has no member twice. -/
theorem nodup_of_pairwise {xs : List α} (sorted : xs.Pairwise (cmp · · = .lt)) : xs.Nodup := by
  refine sorted.imp fun {x y} less equal => ?_
  have reflexive : cmp y y = .eq := Std.ReflCmp.compare_self
  rw [equal, reflexive] at less
  cases less

/-- Lists in strict order with the same members are the same. -/
theorem eq_of_mem_iff {xs ys : List α} (sorted : xs.Pairwise (cmp · · = .lt))
    (sorted' : ys.Pairwise (cmp · · = .lt)) (same : ∀ x, x ∈ xs ↔ x ∈ ys) : xs = ys := by
  have perm : xs.Perm ys :=
    (List.perm_ext_iff_of_nodup (nodup_of_pairwise sorted) (nodup_of_pairwise sorted')).2 same
  refine perm.eq_of_pairwise (fun a b _ _ less greater => ?_) sorted sorted'
  rw [Std.OrientedCmp.gt_of_lt less] at greater
  cases greater

/-- A sorted set depends on its members alone, where the comparison tells different ones apart. -/
theorem sortedSet_congr (eq_of_cmp : ∀ x y : α, cmp x y = .eq → x = y) {xs ys : List α}
    (same : ∀ x, x ∈ xs ↔ x ∈ ys) : sortedSet cmp xs = sortedSet cmp ys := by
  have members (zs : List α) (x : α) : x ∈ sortedSet cmp zs ↔ x ∈ zs :=
    mem_sortedSet_iff fun y _ z _ => eq_of_cmp y z
  refine eq_of_mem_iff (pairwise_sortedSet xs) (pairwise_sortedSet ys) fun x => ?_
  exact (members xs x).trans ((same x).trans (members ys x).symm)

/-- A sorted set has a member that stands for each one it was made of. -/
theorem exists_mem_sortedSet {x : α} {xs : List α} (member : x ∈ xs) :
    ∃ y ∈ sortedSet cmp xs, cmp x y = .eq := by
  rw [sortedSet_eq_foldr]
  induction xs with
  | nil => cases member
  | cons first rest ih =>
    rw [List.foldr_cons]
    obtain rfl | among := List.mem_cons.1 member
    · exact ⟨x, mem_insertFirst_self, Std.ReflCmp.compare_self⟩
    · obtain ⟨y, inside, same⟩ := ih among
      obtain kept | standsIn := mem_insertFirst_or inside
      · exact ⟨y, kept, same⟩
      · exact ⟨first, mem_insertFirst_self,
          Std.TransCmp.eq_trans same (Std.OrientedCmp.eq_symm standsIn)⟩

end Insertion

end Ordered

/-! ## The comparisons -/

section Comparisons

open Std

/-- Comparing parts. -/
theorem transCmp_of_part {α β : Type} {cmp : β → β → Ordering} [TransCmp cmp] (part : α → β) :
    TransCmp fun x y => cmp (part x) (part y) where
  eq_swap := OrientedCmp.eq_swap
  isLE_trans := TransCmp.isLE_trans

instance : TransCmp Ordered.compareOptional where
  eq_swap {x y} := by
    cases x <;> cases y <;> first | rfl | exact OrientedOrd.eq_swap
  isLE_trans {x y z} first second := by
    cases x <;> cases y <;> cases z <;>
      first | rfl | exact TransOrd.isLE_trans first second | cases first | cases second

instance : TransCmp Location.compare :=
  have : ∀ part : Location → Option String,
      TransCmp fun l₁ l₂ => Ordered.compareOptional (part l₁) (part l₂) := transCmp_of_part
  inferInstanceAs (TransCmp (compareLex
    (fun l₁ l₂ : Location => Ordered.compareOptional l₁.sourceRoot l₂.sourceRoot)
    (compareLex
      (fun l₁ l₂ : Location => Ordered.compareOptional l₁.domain l₂.domain)
      (fun l₁ l₂ : Location => Ordered.compareOptional l₁.package l₂.package))))

instance : TransCmp Choice.compare :=
  have : TransCmp fun c₁ c₂ : Choice => c₁.location.compare c₂.location :=
    transCmp_of_part Choice.location
  inferInstanceAs (TransCmp (compareLex (compareOn Choice.dimension)
    (fun c₁ c₂ => c₁.location.compare c₂.location)))

instance : TransCmp Place.compare :=
  inferInstanceAs (TransCmp (compareLex (compareOn Place.sourceRoot)
    (compareLex (compareOn Place.domain) (compareOn Place.package))))

instance : TransCmp Job.compare :=
  have : TransCmp fun j₁ j₂ : Job => j₁.place.compare j₂.place := transCmp_of_part Job.place
  inferInstanceAs (TransCmp (compareLex (compareOn fun job : Job => job.task.rank)
    (compareLex (compareOn fun job : Job => job.task.number?.getD 0)
      (fun j₁ j₂ => j₁.place.compare j₂.place))))

/-- The name of a component; those of another kind have none. -/
def FilePath.Component.nameOr : FilePath.Component → String
  | .entry name => name
  | _ => ""

theorem FilePath.Component.compare_eq (a b : FilePath.Component) :
    a.compare b = (Ord.compare a.rank b.rank).then (Ord.compare a.nameOr b.nameOr) := by
  cases a <;> cases b <;> rfl

instance : TransCmp FilePath.Component.compare := by
  rw [show FilePath.Component.compare = compareLex (compareOn FilePath.Component.rank)
    (compareOn FilePath.Component.nameOr) from
      funext fun a => funext fun b => FilePath.Component.compare_eq a b]
  infer_instance

instance : LawfulEqCmp FilePath.Component.compare where
  eq_of_compare {a b} same := by
    obtain ⟨rank, name⟩ := Ordering.then_eq_eq.1 (FilePath.Component.compare_eq a b ▸ same)
    have rank := LawfulEqOrd.eq_of_compare rank
    have name := LawfulEqOrd.eq_of_compare name
    cases a <;> cases b <;>
      simp_all [FilePath.Component.rank, FilePath.Component.nameOr]

theorem Ordered.compareLists_eq {α : Type} (cmp : α → α → Ordering) :
    Ordered.compareLists cmp = List.compareLex cmp := by
  funext xs ys
  induction xs generalizing ys with
  | nil => cases ys <;> rfl
  | cons x xs ih => cases ys with
    | nil => rfl
    | cons y ys =>
      rw [Ordered.compareLists, ih, List.compareLex_cons_cons]

instance : TransCmp FilePath.compare := by
  have : TransCmp (Ordered.compareLists FilePath.Component.compare) := by
    rw [Ordered.compareLists_eq]
    infer_instance
  exact transCmp_of_part FilePath.components

/-- Paths count as equal just if they have the same components. -/
theorem FilePath.compare_eq_iff {p₁ p₂ : FilePath} :
    p₁.compare p₂ = .eq ↔ p₁.components = p₂.components := by
  rw [FilePath.compare, Ordered.compareLists_eq]
  exact LawfulEqCmp.compare_eq_iff_eq

end Comparisons

end Slotwise
