import KeyTree.Tree.Error
/-!
When a chain of operations that may fail succeeds.
-/

set_option autoImplicit false
set_option relaxedAutoImplicit false

namespace KeyTree

variable {ε ε' α β : Type}

@[simp]
theorem ok_bind (a : α) (f : α → Except ε β) : (Except.ok a >>= f) = f a := rfl

@[simp]
theorem error_bind (e : ε) (f : α → Except ε β) : (Except.error e >>= f) = .error e := rfl

theorem bind_eq_ok_iff {x : Except ε α} {f : α → Except ε β} {b : β} :
    (x >>= f) = .ok b ↔ ∃ a, x = .ok a ∧ f a = .ok b := by
  cases x <;> simp

theorem foldlM_keeps {P : β → Prop} {f : β → α → Except ε β}
    (step : ∀ b a b', P b → f b a = .ok b' → P b') {as : List α} {b b' : β} (start : P b)
    (made : as.foldlM f b = .ok b') : P b' := by
  induction as generalizing b with
  | nil =>
      cases made
      exact start
  | cons a as ih =>
      rw [List.foldlM_cons] at made
      obtain ⟨next, first, rest⟩ := bind_eq_ok_iff.mp made
      exact ih (step b a next start first) rest

theorem map_eq_ok_iff {x : Except ε α} {f : α → β} {b : β} :
    x.map f = .ok b ↔ ∃ a, x = .ok a ∧ f a = b := by
  cases x <;> simp [Except.map]

theorem mapError_eq_ok_iff {x : Except ε α} {f : ε → ε'} {a : α} :
    x.mapError f = .ok a ↔ x = .ok a := by
  cases x with
  | ok b =>
      constructor
      · intro same
        cases same
        rfl
      · intro same
        cases same
        rfl
  | error e => exact ⟨nofun, nofun⟩

theorem exists_of_toBool {x : Except ε α} (succeeds : x.toBool = true) : ∃ a, x = .ok a := by
  cases x with
  | error e => cases succeeds
  | ok a => exact ⟨a, rfl⟩

theorem liftCurve_eq_ok_iff {x : Except CurveError α} {a : α} :
    liftCurve x = .ok a ↔ x = .ok a :=
  mapError_eq_ok_iff

@[simp]
theorem liftCurve_ok (a : α) : liftCurve (.ok a) = .ok a := rfl

@[simp]
theorem liftCurve_error (e : CurveError) :
    liftCurve (.error e : Except CurveError α) = .error (.curve e) := rfl

end KeyTree
