/-!
Operations that read and replace a state and may fail.

A failed operation keeps whatever state it had reached; that most operations of this library
fail before they touch their state is a property of each of them, not of `Update`.
-/

set_option autoImplicit false
set_option relaxedAutoImplicit false

namespace KeyTree

/-- An operation on a state `σ` that may fail with an `ε`. -/
abbrev Update (σ ε : Type) := ExceptT ε (StateM σ)

namespace Update

/-- The answer of an operation and the state it leaves. -/
def apply {σ ε α : Type} (op : Update σ ε α) (state : σ) : Except ε α × σ :=
  op.run.run state

def ofExcept {σ ε α : Type} (result : Except ε α) : Update σ ε α :=
  ExceptT.mk (pure result)

/-- The operation with its errors seen through `f`. -/
def mapError {σ ε ε' α : Type} (f : ε → ε') (op : Update σ ε α) : Update σ ε' α :=
  ExceptT.mk fun state =>
    match op.apply state with
    | (.ok a, next) => (.ok a, next)
    | (.error e, next) => (.error (f e), next)

/-- The operation that answers and replaces the state as `f` says. -/
def ofFunction {σ ε α : Type} (f : σ → Except ε α × σ) : Update σ ε α :=
  ExceptT.mk f

variable {σ ε ε' α β : Type}

@[simp]
theorem apply_pure (a : α) (state : σ) :
    (pure a : Update σ ε α).apply state = (.ok a, state) := rfl

@[simp]
theorem apply_throw (e : ε) (state : σ) :
    (throw e : Update σ ε α).apply state = (.error e, state) := rfl

@[simp]
theorem apply_set (next state : σ) :
    (set next : Update σ ε PUnit).apply state = (.ok ⟨⟩, next) := rfl

@[simp]
theorem apply_get (state : σ) : (get : Update σ ε σ).apply state = (.ok state, state) := rfl

@[simp]
theorem apply_ofExcept (result : Except ε α) (state : σ) :
    (ofExcept result : Update σ ε α).apply state = (result, state) := rfl

theorem apply_bind (op : Update σ ε α) (next : α → Update σ ε β) (state : σ) :
    (op >>= next).apply state =
      match op.apply state with
      | (.ok a, reached) => (next a).apply reached
      | (.error e, reached) => (.error e, reached) := by
  change (ExceptT.bindCont next (op.run.run state).1).run (op.run.run state).2 = _
  unfold apply
  cases op.run.run state with
  | mk result reached => cases result <;> rfl

theorem apply_bind_of_error {op : Update σ ε α} {state : σ} {e : ε}
    (failed : (op.apply state).1 = .error e) (next : α → Update σ ε β) :
    ((op >>= next).apply state).1 = .error e := by
  rw [apply_bind]
  cases reached : op.apply state with
  | mk result left =>
      rw [reached] at failed
      cases failed
      rfl

theorem apply_mapError (f : ε → ε') (op : Update σ ε α) (state : σ) :
    (op.mapError f).apply state = ((op.apply state).1.mapError f, (op.apply state).2) := by
  change (match op.apply state with
    | (.ok a, next) => (Except.ok a, next)
    | (.error e, next) => (.error (f e), next)) = _
  cases op.apply state with
  | mk result reached => cases result <;> rfl

end Update

end KeyTree
