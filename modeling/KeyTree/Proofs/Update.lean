import KeyTree.Proofs.Except
import KeyTree.Update
/-!
What operations on a state answer and leave: chains of them that succeed, operations that fail
before they touch their state, and sequences of calls to those.

An operation is atomic if a failure leaves the state as it was.  What only reads is atomic; so is an
atomic operation after a reading one, and one that never fails after an atomic one.  Among calls to
atomic operations the failed ones can be left out (`run_succeeding`).
-/

set_option autoImplicit false
set_option relaxedAutoImplicit false

namespace KeyTree.Update

variable {σ ε ε' α β κ : Type}

theorem ext_apply {op op' : Update σ ε α} (same : ∀ state, op.apply state = op'.apply state) :
    op = op' :=
  funext same

theorem apply_bind_eq_ok_iff {op : Update σ ε α} {next : α → Update σ ε β} {state final : σ}
    {b : β} : (op >>= next).apply state = (.ok b, final) ↔
      ∃ a reached, op.apply state = (.ok a, reached) ∧ (next a).apply reached = (.ok b, final) := by
  rw [apply_bind]
  cases first : op.apply state with
  | mk answer reached =>
      cases answer with
      | ok a =>
          constructor
          · intro second
            exact ⟨a, reached, rfl, second⟩
          · rintro ⟨a', reached', same, second⟩
            cases same
            exact second
      | error fault =>
          constructor
          · nofun
          · rintro ⟨a, reached', same, -⟩
            cases same

theorem apply_ofExcept_eq_ok_iff {result : Except ε α} {state final : σ} {a : α} :
    (ofExcept result).apply state = (.ok a, final) ↔ result = .ok a ∧ state = final := by
  rw [apply_ofExcept, Prod.mk.injEq]

theorem apply_mapError_eq_ok_iff {f : ε → ε'} {op : Update σ ε α} {state final : σ} {a : α} :
    (op.mapError f).apply state = (.ok a, final) ↔ op.apply state = (.ok a, final) := by
  rw [apply_mapError, Prod.mk.injEq, mapError_eq_ok_iff, Prod.ext_iff]

/-! ### Failures that leave the state as it was -/

/-- Whether it fails or not, the operation leaves the state as it is. -/
def Reads (op : Update σ ε α) : Prop :=
  ∀ state, (op.apply state).2 = state

/-- The operation never fails. -/
def Sure (op : Update σ ε α) : Prop :=
  ∀ state, ∃ a reached, op.apply state = (.ok a, reached)

/-- A failure leaves the state as it was. -/
def Atomic (op : Update σ ε α) : Prop :=
  ∀ state fault reached, op.apply state = (.error fault, reached) → reached = state

theorem reads_get : Reads (get : Update σ ε σ) := fun _ => rfl

theorem reads_throw (fault : ε) : Reads (throw fault : Update σ ε α) := fun _ => rfl

theorem reads_ofExcept (result : Except ε α) : Reads (ofExcept result : Update σ ε α) :=
  fun _ => rfl

theorem sure_pure (a : α) : Sure (pure a : Update σ ε α) := fun state => ⟨a, state, rfl⟩

theorem sure_set (next : σ) : Sure (set next : Update σ ε PUnit) := fun _ => ⟨⟨⟩, next, rfl⟩

theorem sure_modify (f : σ → σ) : Sure (modify f : Update σ ε PUnit) :=
  fun state => ⟨⟨⟩, f state, rfl⟩

theorem Reads.atomic {op : Update σ ε α} (reads : Reads op) : Atomic op := by
  intro state fault reached failed
  have kept := reads state
  rw [failed] at kept
  exact kept

theorem Sure.atomic {op : Update σ ε α} (sure : Sure op) : Atomic op := by
  intro state fault reached failed
  obtain ⟨a, next, succeeded⟩ := sure state
  rw [succeeded] at failed
  cases failed

theorem Reads.bind {op : Update σ ε α} {next : α → Update σ ε β} (reads : Reads op)
    (rest : ∀ a, Atomic (next a)) : Atomic (op >>= next) := by
  intro state fault reached failed
  have kept := reads state
  rw [apply_bind] at failed
  cases first : op.apply state with
  | mk answer passed =>
      rw [first] at kept failed
      obtain rfl : passed = state := kept
      cases answer with
      | ok a => exact rest a passed fault reached failed
      | error e =>
          cases failed
          rfl

/-- A rest that never fails cannot spoil an atomic operation. -/
theorem Atomic.bind {op : Update σ ε α} {next : α → Update σ ε β} (atomic : Atomic op)
    (rest : ∀ a, Sure (next a)) : Atomic (op >>= next) := by
  intro state fault reached failed
  rw [apply_bind] at failed
  cases first : op.apply state with
  | mk answer passed =>
      rw [first] at failed
      cases answer with
      | ok a =>
          obtain ⟨b, final, succeeded⟩ := rest a passed
          cases failed.symm.trans succeeded
      | error e =>
          cases failed
          exact atomic state fault reached first

theorem answer_bind_ofExcept (op : Update σ ε α) (f : α → Except ε β) (state : σ) :
    ((op >>= fun a => ofExcept (f a)).apply state).1 = ((op.apply state).1 >>= f) := by
  rw [apply_bind]
  cases op.apply state with
  | mk answer reached => cases answer <;> rfl

/-! ### Sequences of calls -/

def run (operation : κ → Update σ ε α) (calls : List κ) (state : σ) : σ :=
  calls.foldl (fun state call => ((operation call).apply state).2) state

/-- The calls without those that fail in the sequence. -/
def succeeding (operation : κ → Update σ ε α) : List κ → σ → List κ
  | [], _ => []
  | call :: calls, state =>
      match (operation call).apply state with
      | (.ok _, next) => call :: succeeding operation calls next
      | (.error _, next) => succeeding operation calls next

private theorem run_cons (operation : κ → Update σ ε α) (call : κ) (calls : List κ) (state : σ) :
    run operation (call :: calls) state =
      run operation calls ((operation call).apply state).2 := rfl

theorem succeeding_cons_of_ok {operation : κ → Update σ ε α} {call : κ} {calls : List κ}
    {state next : σ} {a : α} (made : (operation call).apply state = (.ok a, next)) :
    succeeding operation (call :: calls) state = call :: succeeding operation calls next := by
  rw [succeeding, made]

theorem succeeding_cons_of_error {operation : κ → Update σ ε α} {call : κ} {calls : List κ}
    {state next : σ} {fault : ε} (made : (operation call).apply state = (.error fault, next)) :
    succeeding operation (call :: calls) state = succeeding operation calls next := by
  rw [succeeding, made]

/-- What can be relied on when calls fail: a failed call leaves the state as it was; without the
failed calls a sequence leads to the same state; and then none of its calls fails. -/
structure FailsCleanly (operation : κ → Update σ ε α) : Prop where
  unchanged : ∀ call state fault reached,
    (operation call).apply state = (.error fault, reached) → reached = state
  removable : ∀ calls state,
    run operation (succeeding operation calls state) state = run operation calls state
  settled : ∀ calls state, succeeding operation (succeeding operation calls state) state =
    succeeding operation calls state

section

variable {operation : κ → Update σ ε α} (atomic : ∀ call, Atomic (operation call))

include atomic

private theorem run_succeeding (calls : List κ) (state : σ) :
    run operation (succeeding operation calls state) state = run operation calls state := by
  induction calls generalizing state with
  | nil => rfl
  | cons call calls ih =>
      rw [run_cons]
      cases made : (operation call).apply state with
      | mk answer next =>
          cases answer with
          | ok a => rw [succeeding_cons_of_ok made, run_cons, made, ih]
          | error fault =>
              obtain rfl : next = state := atomic call state fault next made
              rw [succeeding_cons_of_error made, ih]

private theorem succeeding_succeeding (calls : List κ) (state : σ) :
    succeeding operation (succeeding operation calls state) state =
      succeeding operation calls state := by
  induction calls generalizing state with
  | nil => rfl
  | cons call calls ih =>
      cases made : (operation call).apply state with
      | mk answer next =>
          cases answer with
          | ok a =>
              rw [succeeding_cons_of_ok made, succeeding_cons_of_ok made, ih]
          | error fault =>
              obtain rfl : next = state := atomic call state fault next made
              rw [succeeding_cons_of_error made, ih]

theorem failsCleanly : FailsCleanly operation where
  unchanged := atomic
  removable := run_succeeding atomic
  settled := succeeding_succeeding atomic

end

end KeyTree.Update
