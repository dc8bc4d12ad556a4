import Mathlib.Data.List.Forall2
/-!
# Computations that can fail

What it takes for a computation to succeed, step by step: a sequence of steps succeeds if each one
does, and a traversal of a list if it succeeds at every member.
-/

namespace Slotwise.Outcome

variable {ε α β γ : Type}

theorem bind_eq_ok_iff {x : Except ε α} {f : α → Except ε β} {b : β} :
    (x >>= f) = .ok b ↔ ∃ a, x = .ok a ∧ f a = .ok b := by
  cases x with
  | error e =>
    constructor
    · intro h
      cases h
    · rintro ⟨_, h, -⟩
      cases h
  | ok a =>
    constructor
    · intro h
      exact ⟨a, rfl, h⟩
    · rintro ⟨_, h, result⟩
      cases h
      exact result

theorem bind_eq_error_iff {x : Except ε α} {f : α → Except ε β} {e : ε} :
    (x >>= f) = .error e ↔ x = .error e ∨ ∃ a, x = .ok a ∧ f a = .error e := by
  cases x with
  | error e' =>
    constructor
    · intro h
      cases h
      exact .inl rfl
    · rintro (h | ⟨_, h, -⟩)
      · cases h
        rfl
      · cases h
  | ok a =>
    constructor
    · intro h
      exact .inr ⟨a, rfl, h⟩
    · rintro (h | ⟨_, h, result⟩)
      · cases h
      · cases h
        exact result

theorem exists_of_isOk {x : Except ε α} (h : x.isOk = true) : ∃ a, x = .ok a := by
  cases x with
  | error e => cases h
  | ok a => exact ⟨a, rfl⟩

/-- What is done with a result at the end does not matter to whether there is one. -/
theorem isOk_bind_pure {x : Except ε α} {f : α → Except ε β} {g : β → γ} :
    (x >>= fun a => f a >>= fun b => pure (g b)).isOk = (x >>= f).isOk := by
  cases x with
  | error e => rfl
  | ok a =>
    change (f a >>= fun b => pure (g b)).isOk = (f a).isOk
    cases f a <;> rfl

/-- What a computation that succeeds gives. -/
def value {x : Except ε α} (h : x.isOk = true) : { a : α // x = .ok a } :=
  match x, h with
  | .ok a, _ => ⟨a, rfl⟩

theorem ite_bind_eq_ok_iff {p : Prop} [Decidable p] {x y : Except ε α} {f : α → Except ε β}
    {b : β} :
    (if p then x >>= f else y >>= f) = .ok b ↔ ∃ a, (if p then x else y) = .ok a ∧ f a = .ok b := by
  split <;> exact bind_eq_ok_iff

theorem map_eq_ok_iff {x : Except ε α} {f : α → β} {b : β} :
    f <$> x = .ok b ↔ ∃ a, x = .ok a ∧ f a = b := by
  cases x with
  | error e => simp [Functor.map, Except.map]
  | ok a => simp [Functor.map, Except.map]

theorem pure_eq_ok_iff {a b : α} : (pure a : Except ε α) = .ok b ↔ a = b := by
  simp [pure, Except.pure]

theorem mapM_eq_ok_iff {f : α → Except ε β} {xs : List α} {ys : List β} :
    xs.mapM f = .ok ys ↔ List.Forall₂ (fun x y => f x = .ok y) xs ys := by
  induction xs generalizing ys with
  | nil =>
    rw [List.mapM_nil, pure_eq_ok_iff, List.forall₂_nil_left_iff]
    exact eq_comm
  | cons x rest ih =>
    simp only [List.mapM_cons, bind_eq_ok_iff, pure_eq_ok_iff, ih, List.forall₂_cons_left_iff]
    constructor
    · rintro ⟨y, head, others, tail, rfl⟩
      exact ⟨y, others, head, tail, rfl⟩
    · rintro ⟨y, others, head, tail, rfl⟩
      exact ⟨y, head, others, tail, rfl⟩

theorem forM_eq_ok_iff {f : α → Except ε Unit} {xs : List α} :
    xs.forM f = .ok () ↔ ∀ x ∈ xs, f x = .ok () := by
  induction xs with
  | nil => simp [pure, Except.pure]
  | cons x rest ih =>
    have step : (x :: rest).forM f = (do f x; rest.forM f) := rfl
    rw [step, bind_eq_ok_iff, List.forall_mem_cons, ih]
    constructor
    · rintro ⟨_, head, tail⟩
      exact ⟨head, tail⟩
    · rintro ⟨head, tail⟩
      exact ⟨(), head, tail⟩

theorem optionForM_eq_ok_iff {f : α → Except ε Unit} {x : Option α} :
    x.forM f = .ok () ↔ ∀ a ∈ x, f a = .ok () := by
  cases x with
  | none => simp [Option.forM, pure, Except.pure]
  | some a => simp [Option.forM]

theorem length_of_mapM {f : α → Except ε β} {xs : List α} {ys : List β}
    (h : xs.mapM f = .ok ys) : ys.length = xs.length :=
  (mapM_eq_ok_iff.1 h).length_eq.symm

theorem mem_of_mapM {f : α → Except ε β} {xs : List α} {ys : List β} (h : xs.mapM f = .ok ys)
    {y : β} (member : y ∈ ys) : ∃ x ∈ xs, f x = .ok y := by
  have related := mapM_eq_ok_iff.1 h
  clear h
  induction related with
  | nil => cases member
  | cons head _ ih =>
    rcases List.mem_cons.1 member with rfl | member
    · exact ⟨_, List.mem_cons_self, head⟩
    · obtain ⟨x, inside, found⟩ := ih member
      exact ⟨x, List.mem_cons_of_mem _ inside, found⟩

theorem exists_of_mapM {f : α → Except ε β} {xs : List α} {ys : List β} (h : xs.mapM f = .ok ys)
    {x : α} (member : x ∈ xs) : ∃ y ∈ ys, f x = .ok y := by
  have related := mapM_eq_ok_iff.1 h
  clear h
  induction related with
  | nil => cases member
  | cons head _ ih =>
    rcases List.mem_cons.1 member with rfl | member
    · exact ⟨_, List.mem_cons_self, head⟩
    · obtain ⟨y, inside, found⟩ := ih member
      exact ⟨y, List.mem_cons_of_mem _ inside, found⟩

theorem mem_iff_of_mapM {f : α → Except ε β} {xs : List α} {ys : List β} (h : xs.mapM f = .ok ys)
    {y : β} : y ∈ ys ↔ ∃ x ∈ xs, f x = .ok y := by
  constructor
  · exact mem_of_mapM h
  · rintro ⟨x, member, found⟩
    obtain ⟨other, among, found'⟩ := exists_of_mapM h member
    cases found.symm.trans found'
    exact among

/-- A traversal fails as one of its steps does. -/
theorem exists_of_mapM_eq_error {f : α → Except ε β} {xs : List α} {e : ε}
    (h : xs.mapM f = .error e) : ∃ x ∈ xs, f x = .error e := by
  induction xs with
  | nil => cases h
  | cons x rest ih =>
    rw [List.mapM_cons] at h
    obtain fails | ⟨y, -, h⟩ := bind_eq_error_iff.1 h
    · exact ⟨x, List.mem_cons_self, fails⟩
    · obtain fails | ⟨ys, -, h⟩ := bind_eq_error_iff.1 h
      · obtain ⟨other, member, fails⟩ := ih fails
        exact ⟨other, List.mem_cons_of_mem _ member, fails⟩
      · cases h

/-- What each step keeps is kept by the traversal. -/
theorem map_eq_of_mapM_of_mem {γ : Type} {f : α → Except ε β} {g : α → γ} {k : β → γ}
    {xs : List α} {ys : List β} (each : ∀ x ∈ xs, ∀ y, f x = .ok y → g x = k y)
    (h : xs.mapM f = .ok ys) : xs.map g = ys.map k := by
  have related := mapM_eq_ok_iff.1 h
  clear h
  induction related with
  | nil => rfl
  | cons head _ ih =>
    rw [List.map_cons, List.map_cons, each _ List.mem_cons_self _ head,
      ih fun x member => each x (List.mem_cons_of_mem _ member)]

theorem map_eq_of_mapM {γ : Type} {f : α → Except ε β} {g : α → γ} {k : β → γ}
    (each : ∀ x y, f x = .ok y → g x = k y) {xs : List α} {ys : List β}
    (h : xs.mapM f = .ok ys) : xs.map g = ys.map k :=
  map_eq_of_mapM_of_mem (fun x _ => each x) h

/-! ## Traversals that may give nothing -/

theorem mapM_congr {f g : α → Option β} {xs : List α} (h : ∀ x ∈ xs, f x = g x) :
    xs.mapM f = xs.mapM g := by
  induction xs with
  | nil => rfl
  | cons x rest ih =>
    rw [List.mapM_cons, List.mapM_cons, h x List.mem_cons_self,
      ih fun y member => h y (List.mem_cons_of_mem _ member)]

theorem mapM_eq_some_map {f : α → Option β} {g : α → β} {xs : List α}
    (h : ∀ x ∈ xs, f x = some (g x)) : xs.mapM f = some (xs.map g) := by
  induction xs with
  | nil => rfl
  | cons x rest ih =>
    rw [List.mapM_cons, h x List.mem_cons_self, ih fun y member => h y (List.mem_cons_of_mem _ member)]
    rfl

theorem mem_of_mapM_eq_some {f : α → Option β} {xs : List α} {ys : List β}
    (h : xs.mapM f = some ys) {y : β} (member : y ∈ ys) : ∃ x ∈ xs, f x = some y := by
  induction xs generalizing ys with
  | nil =>
    cases h
    cases member
  | cons x rest ih =>
    simp only [List.mapM_cons, Option.bind_eq_bind, Option.bind_eq_some_iff, Option.pure_def,
      Option.some.injEq] at h
    obtain ⟨first, head, others, tail, rfl⟩ := h
    obtain rfl | among := List.mem_cons.1 member
    · exact ⟨x, List.mem_cons_self, head⟩
    · obtain ⟨x', inside, found⟩ := ih tail among
      exact ⟨x', List.mem_cons_of_mem _ inside, found⟩

/-- A traversal gives nothing as soon as one of its steps does. -/
theorem mapM_eq_none {f : α → Option β} {xs : List α} {x : α} (member : x ∈ xs)
    (nothing : f x = none) : xs.mapM f = none := by
  induction xs with
  | nil => cases member
  | cons first rest ih =>
    rw [List.mapM_cons]
    obtain rfl | among := List.mem_cons.1 member
    · rw [nothing]
      rfl
    · rw [ih among]
      cases f first <;> rfl

/-! ## Success -/

/-- The computation gives a result. -/
def Succeeds (x : Except ε α) : Prop :=
  ∃ a, x = .ok a

theorem succeeds_of_eq {x : Except ε α} {a : α} (h : x = .ok a) : Succeeds x :=
  ⟨a, h⟩

@[simp] theorem succeeds_pure (a : α) : Succeeds (pure a : Except ε α) :=
  ⟨a, rfl⟩

theorem succeeds_bind_iff {x : Except ε α} {f : α → Except ε β} :
    Succeeds (x >>= f) ↔ ∃ a, x = .ok a ∧ Succeeds (f a) := by
  constructor
  · rintro ⟨b, h⟩
    obtain ⟨a, first, second⟩ := bind_eq_ok_iff.1 h
    exact ⟨a, first, b, second⟩
  · rintro ⟨a, first, b, second⟩
    exact ⟨b, bind_eq_ok_iff.2 ⟨a, first, second⟩⟩

/-- A step that is known to succeed hands its result on. -/
theorem succeeds_bind_of_eq {x : Except ε α} {a : α} (h : x = .ok a) {f : α → Except ε β} :
    Succeeds (x >>= f) ↔ Succeeds (f a) := by
  rw [h]
  exact Iff.rfl

theorem succeeds_ite_bind_iff {p : Prop} [Decidable p] {x y : Except ε α} {f : α → Except ε β} :
    Succeeds (if p then x >>= f else y >>= f) ↔
      ∃ a, (if p then x else y) = .ok a ∧ Succeeds (f a) := by
  split <;> exact succeeds_bind_iff

theorem succeeds_map_iff {x : Except ε α} {f : α → β} : Succeeds (f <$> x) ↔ Succeeds x := by
  constructor
  · rintro ⟨_, h⟩
    obtain ⟨a, first, -⟩ := map_eq_ok_iff.1 h
    exact ⟨a, first⟩
  · rintro ⟨a, first⟩
    exact ⟨f a, map_eq_ok_iff.2 ⟨a, first, rfl⟩⟩

/-- A last step that only builds something does not fail. -/
theorem succeeds_bind_pure_iff {x : Except ε α} {f : α → β} :
    Succeeds (x >>= fun a => pure (f a)) ↔ Succeeds x := by
  rw [succeeds_bind_iff]
  constructor
  · rintro ⟨a, h, -⟩
    exact ⟨a, h⟩
  · rintro ⟨a, h⟩
    exact ⟨a, h, succeeds_pure (f a)⟩

theorem succeeds_mapM_iff {f : α → Except ε β} {xs : List α} :
    Succeeds (xs.mapM f) ↔ ∀ x ∈ xs, Succeeds (f x) := by
  constructor
  · rintro ⟨ys, h⟩ x member
    obtain ⟨y, -, found⟩ := exists_of_mapM h member
    exact ⟨y, found⟩
  · intro each
    induction xs with
    | nil => exact ⟨[], rfl⟩
    | cons x rest ih =>
      obtain ⟨head, tail⟩ := List.forall_mem_cons.1 each
      obtain ⟨y, found⟩ := head
      obtain ⟨ys, others⟩ := ih tail
      exact ⟨y :: ys, mapM_eq_ok_iff.2 (.cons found (mapM_eq_ok_iff.1 others))⟩

end Slotwise.Outcome
