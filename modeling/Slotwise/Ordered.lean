/-!
# Sorted sequences without repetitions

A finite set is shown as a sorted list. Where two members count as equal although they are written
differently, the one that was named first stays.

Main statement: sorting and dropping repetitions keeps exactly the members where the comparison
tells different members apart (`mem_sortedSet_iff`).
-/

namespace Slotwise.Ordered

/-- A sorted list without the members that equal their predecessor. -/
def dropRepeats {α : Type} (same : α → α → Bool) : List α → List α
  | [] => []
  | x :: rest => x :: dropRepeatsAfter x rest
where
  /-- The rest of a sorted list after `last` has been kept. -/
  dropRepeatsAfter (last : α) : List α → List α
    | [] => []
    | y :: rest =>
      if same last y then dropRepeatsAfter last rest else y :: dropRepeatsAfter y rest

/-- The members in order, each once, the first of equal ones. -/
def sortedSet {α : Type} (cmp : α → α → Ordering) (xs : List α) : List α :=
  dropRepeats (fun x y => cmp x y == .eq) (xs.mergeSort fun x y => (cmp x y).isLE)

/-- The texts in the order of their code points, each once. -/
def sortedTexts (xs : List String) : List String :=
  sortedSet compare xs

/-- An absent text comes before a present one. -/
def compareOptional : Option String → Option String → Ordering
  | none, none => .eq
  | none, some _ => .lt
  | some _, none => .gt
  | some x, some y => compare x y

/-- The order of lists by the first place where they differ. -/
def compareLists {α : Type} (cmp : α → α → Ordering) : List α → List α → Ordering
  | [], [] => .eq
  | [], _ :: _ => .lt
  | _ :: _, [] => .gt
  | x :: xs, y :: ys => (cmp x y).then (compareLists cmp xs ys)

theorem mem_of_mem_dropRepeatsAfter {α : Type} {same : α → α → Bool} {last x : α} {xs : List α}
    (h : x ∈ dropRepeats.dropRepeatsAfter same last xs) : x ∈ xs := by
  induction xs generalizing last with
  | nil => simp [dropRepeats.dropRepeatsAfter] at h
  | cons y rest ih =>
    rw [dropRepeats.dropRepeatsAfter] at h
    split at h
    · exact List.mem_cons_of_mem _ (ih h)
    · rcases List.mem_cons.1 h with h | h
      · exact h ▸ List.mem_cons_self
      · exact List.mem_cons_of_mem _ (ih h)

theorem mem_of_mem_dropRepeats {α : Type} {same : α → α → Bool} {x : α} {xs : List α}
    (h : x ∈ dropRepeats same xs) : x ∈ xs := by
  cases xs with
  | nil => simp [dropRepeats] at h
  | cons y rest =>
    rcases List.mem_cons.1 h with h | h
    · exact h ▸ List.mem_cons_self
    · exact List.mem_cons_of_mem _ (mem_of_mem_dropRepeatsAfter h)

theorem mem_of_mem_sortedSet {α : Type} {cmp : α → α → Ordering} {x : α} {xs : List α}
    (h : x ∈ sortedSet cmp xs) : x ∈ xs :=
  List.mem_mergeSort.1 (mem_of_mem_dropRepeats h)

theorem eq_or_mem_dropRepeatsAfter {α : Type} {same : α → α → Bool} {last x : α} {xs : List α}
    (eq_of_same : ∀ y ∈ last :: xs, ∀ z ∈ last :: xs, same y z = true → y = z) (h : x ∈ xs) :
    x = last ∨ x ∈ dropRepeats.dropRepeatsAfter same last xs := by
  induction xs generalizing last with
  | nil => cases h
  | cons y rest ih =>
    rw [dropRepeats.dropRepeatsAfter]
    split
    · next repeated =>
      have isLast : last = y := eq_of_same last (by simp) y (by simp) repeated
      rcases List.mem_cons.1 h with h | h
      · exact .inl (h.trans isLast.symm)
      · exact ih (fun y hy z hz => eq_of_same y (by grind) z (by grind)) h
    · rcases List.mem_cons.1 h with h | h
      · exact .inr (h ▸ List.mem_cons_self)
      · have inRest : x = y ∨ x ∈ dropRepeats.dropRepeatsAfter same y rest :=
          ih (fun y hy z hz => eq_of_same y (List.mem_cons_of_mem _ hy) z
            (List.mem_cons_of_mem _ hz)) h
        exact .inr (List.mem_cons.2 inRest)

theorem mem_sortedSet_iff {α : Type} {cmp : α → α → Ordering} {xs : List α}
    (eq_of_cmp : ∀ x ∈ xs, ∀ y ∈ xs, cmp x y = .eq → x = y) {x : α} :
    x ∈ sortedSet cmp xs ↔ x ∈ xs := by
  refine ⟨mem_of_mem_sortedSet, fun h => ?_⟩
  have sorted : x ∈ xs.mergeSort fun x y => (cmp x y).isLE := List.mem_mergeSort.2 h
  have members : ∀ y ∈ xs.mergeSort (fun x y => (cmp x y).isLE), y ∈ xs :=
    fun y hy => List.mem_mergeSort.1 hy
  rw [sortedSet]
  cases hs : xs.mergeSort fun x y => (cmp x y).isLE with
  | nil => simp [hs] at sorted
  | cons y rest =>
    rw [hs] at sorted members
    rw [dropRepeats, List.mem_cons]
    rcases List.mem_cons.1 sorted with h | h
    · exact .inl h
    · refine eq_or_mem_dropRepeatsAfter (fun a ha b hb same => ?_) h
      exact eq_of_cmp a (members a ha) b (members b hb) (by simpa using same)

end Slotwise.Ordered
