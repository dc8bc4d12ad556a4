import Slotwise.Declaration
import Slotwise.ModelText
/-!
# Checks on names, locations and fields

Every declaration is checked before any code is generated, so that a fault ends the whole run and
not only a part of it. Each check answers the first fault it meets.

Main statement: a list of names passes exactly if no name occurs twice (`unique_eq_ok_iff`).
-/

namespace Slotwise.Check

/-- Passes if the text is an identifier. -/
def identifier (owner expected text : String) : Except Failure Unit := do
  let _ ← ModelText.identifier owner expected text

/-- Passes if every segment of a module path is an identifier. -/
def modulePath (owner path : String) : Except Failure Unit :=
  (ModulePath.segments path).forM (identifier owner "module name")

/-- Passes if every segment of a location's domain and package is an identifier. -/
def location (owner : String) (location : Location) : Except Failure Unit := do
  location.domain.forM (modulePath owner)
  location.package.forM (modulePath owner)

/-- Passes if all texts of a field can be read. -/
def field (owner : String) (field : Field) : Except Failure Unit := do
  identifier owner "field name" field.name
  let _ ← ModelText.type owner field.type.name
  field.type.variableNames.forM (identifier owner "type variable")
  let _ ← field.defaultValue.mapM (ModelText.expression owner)
  let _ ← field.modifiers.mapM (ModelText.modifier owner)

/-- Passes if all fields can be read and no name occurs twice or in `seen`. -/
def fieldsAfter (owner : String) (seen : List String) : List Field → Except Failure Unit
  | [] => .ok ()
  | f :: rest => do
    field owner f
    if seen.contains f.name then throw (.duplicateField owner f.name)
    fieldsAfter owner (f.name :: seen) rest

/-- Passes if all fields can be read and have different names. -/
def fields (owner : String) (fields : List Field) : Except Failure Unit :=
  fieldsAfter owner [] fields

/-- Passes if no name occurs twice or in `seen`. -/
def uniqueAfter (owner scope : String) (seen : List String) : List String → Except Failure Unit
  | [] => .ok ()
  | name :: rest =>
    if seen.contains name then .error (.duplicateName owner name scope)
    else uniqueAfter owner scope (name :: seen) rest

/-- Passes if no name occurs twice; `scope` says what the names are generated as. -/
def unique (owner scope : String) (names : List String) : Except Failure Unit :=
  uniqueAfter owner scope [] names

/-- The methods of every record and variant set beside those of its fields. -/
def transactionMethods : List String :=
  ["set", "transaction", "set_async", "transaction_async"]

theorem uniqueAfter_eq_ok_iff {owner scope : String} {seen names : List String} :
    uniqueAfter owner scope seen names = .ok () ↔
      names.Nodup ∧ ∀ name ∈ names, name ∉ seen := by
  induction names generalizing seen with
  | nil => simp [uniqueAfter]
  | cons name rest ih =>
    rw [uniqueAfter]
    split
    · next h => simp_all
    · next h =>
      rw [ih]
      simp only [List.contains_eq_mem, decide_eq_true_eq] at h
      simp only [List.nodup_cons, List.mem_cons, not_or, forall_eq_or_imp]
      constructor
      · rintro ⟨hd, hr⟩
        exact ⟨⟨fun hn => (hr name hn).1 rfl, hd⟩, h, fun x hx => (hr x hx).2⟩
      · rintro ⟨⟨hn, hd⟩, _, hr⟩
        exact ⟨hd, fun x hx => ⟨fun he => hn (he ▸ hx), hr x hx⟩⟩

theorem unique_eq_ok_iff {owner scope : String} {names : List String} :
    unique owner scope names = .ok () ↔ names.Nodup := by
  simp [unique, uniqueAfter_eq_ok_iff]

end Slotwise.Check
