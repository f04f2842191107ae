import KeyTree.Engine.Basic
import KeyTree.Proofs.Update
/-!
The engine of a process through any sequence of calls: starts with any configuration and any self
test, stops, and changes of the memory lock.

The flag that is set while a handle is alive is written in three places, so it is an invariant that
it tells of the handles (`Sound`).  What a start does is said once, in `apply_startWith`.  The
memory lock is always the last setting that was made (`memoryLock_after`), where only a start that
succeeds and the call for it make one.
-/

set_option autoImplicit false
set_option relaxedAutoImplicit false

namespace KeyTree.Engine

/-- What changes the engine of a process.  A handle that is given up is named by its position. -/
inductive Call where
  | start (check : Entropy → Except CurveError Entropy) (config : EngineConfig) (source : Entropy)
  | stop (handle : Nat)
  | setMemoryLock (enabled : Bool)

def Call.operation : Call → Update Engine EngineError Unit
  | start check config source => do
      let _ ← startWith check config source
      return ()
  | stop handle => modify fun e => e.stop handle
  | setMemoryLock enabled => modify fun e => e.setMemoryLock enabled

def Call.next (call : Call) (e : Engine) : Engine :=
  (call.operation.apply e).2

/-- The engine after calls from a state, whether or not some of the starts fail. -/
def after (calls : List Call) (e : Engine) : Engine :=
  Update.run Call.operation calls e

def Call.setting? (e : Engine) : Call → Option Bool
  | start check config source =>
      match ((startWith check config source).apply e).1 with
      | .ok _ => some config.memoryLock
      | .error _ => none
  | stop _ => none
  | setMemoryLock enabled => some enabled

def settings (e : Engine) : List Call → List Bool
  | [] => []
  | call :: calls => (call.setting? e).toList ++ settings (call.next e) calls

/-! ### Starting -/

/-- A start is refused while the engine runs.  Else it hands out a handle, unless a self test that
is asked for fails, and then nothing has changed. -/
theorem apply_startWith (check : Entropy → Except CurveError Entropy) (config : EngineConfig)
    (source : Entropy) (e : Engine) :
    (startWith check config source).apply e =
      if e.running then (.error .alreadyRunning, e)
      else
        match if config.sanityCheck then check source else .ok source with
        | .ok rest => (.ok rest, ⟨true, config.memoryLock, config :: e.handles⟩)
        | .error fault => (.error (.selfTestFailed fault), e) := by
  obtain ⟨running, memoryLock, handles⟩ := e
  obtain ⟨lock, sanityCheck⟩ := config
  cases running with
  | true => rfl
  | false =>
      cases sanityCheck with
      | false => rfl
      | true =>
          simp only [startWith, Update.apply_bind, Update.apply_get]
          cases tested : check source with
          | ok rest => rfl
          | error fault => rfl

section

variable {check : Entropy → Except CurveError Entropy} {config : EngineConfig} {source : Entropy}
  {e : Engine}

private theorem next_start (check : Entropy → Except CurveError Entropy) (config : EngineConfig)
    (source : Entropy) (e : Engine) :
    (Call.start check config source).next e = ((startWith check config source).apply e).2 := by
  rw [Call.next, Call.operation, Update.apply_bind]
  cases (startWith check config source).apply e with
  | mk answer reached => cases answer <;> rfl

private theorem setting?_start_of_ok {rest : Entropy}
    (started : ((startWith check config source).apply e).1 = .ok rest) :
    (Call.start check config source).setting? e = some config.memoryLock := by
  rw [Call.setting?, started]

end

/-! ### The handles -/

/-- At most one handle is alive, and the flag tells whether one is. -/
structure Sound (e : Engine) : Prop where
  length_le : e.handles.length ≤ 1
  running_iff : e.running = true ↔ e.handles ≠ []

private theorem sound_idle : idle.Sound where
  length_le := Nat.zero_le 1
  running_iff := ⟨nofun, fun alive => absurd rfl alive⟩

namespace Sound

variable {e : Engine}

private theorem handles_eq_nil (sound : e.Sound) (stopped : ¬ e.running = true) :
    e.handles = [] := by
  cases alive : e.handles with
  | nil => rfl
  | cons config others =>
      refine absurd (sound.running_iff.mpr ?_) stopped
      rw [alive]
      nofun

private theorem startWith (sound : e.Sound) (check : Entropy → Except CurveError Entropy)
    (config : EngineConfig) (source : Entropy) :
    ((startWith check config source).apply e).2.Sound := by
  rw [apply_startWith]
  split
  · exact sound
  · rename_i stopped
    split
    · -- The flag was not set, so that the handle handed out is the only one.
      rw [sound.handles_eq_nil stopped]
      exact ⟨Nat.le_refl 1, iff_of_true rfl nofun⟩
    · exact sound

private theorem stop (sound : e.Sound) (handle : Nat) : (e.stop handle).Sound := by
  rw [Engine.stop]
  split
  · rename_i alive
    have one := sound.length_le
    have none_left : e.handles.eraseIdx handle = [] := by
      rw [← List.length_eq_zero_iff, List.length_eraseIdx_of_lt alive]
      omega
    rw [none_left]
    exact ⟨Nat.zero_le 1, iff_of_false nofun (fun alive => alive rfl)⟩
  · exact sound

private theorem setMemoryLock (sound : e.Sound) (enabled : Bool) :
    (e.setMemoryLock enabled).Sound :=
  ⟨sound.length_le, sound.running_iff⟩

private theorem next (sound : e.Sound) (call : Call) : (call.next e).Sound := by
  cases call with
  | start check config source =>
      rw [next_start]
      exact sound.startWith check config source
  | stop handle => exact sound.stop handle
  | setMemoryLock enabled => exact sound.setMemoryLock enabled

private theorem after (sound : e.Sound) (calls : List Call) : (after calls e).Sound := by
  induction calls generalizing e with
  | nil => exact sound
  | cons call calls ih => exact ih (sound.next call)

end Sound

/-! ### The memory lock -/

private theorem memoryLock_next (call : Call) (e : Engine) :
    (call.next e).memoryLock = (call.setting? e).getD e.memoryLock := by
  cases call with
  | start check config source =>
      rw [next_start, Call.setting?, apply_startWith]
      split
      · rfl
      · split <;> rfl
  | stop handle =>
      change (e.stop handle).memoryLock = e.memoryLock
      rw [stop]
      split <;> rfl
  | setMemoryLock enabled => rfl

/-- The memory lock is the last setting that was made, or what it was before if there is none. -/
theorem memoryLock_after (calls : List Call) (e : Engine) :
    (after calls e).memoryLock = (settings e calls).getLast?.getD e.memoryLock := by
  induction calls generalizing e with
  | nil => rfl
  | cons call calls ih =>
      have rest : (after (call :: calls) e).memoryLock =
          (settings (call.next e) calls).getLast?.getD (call.next e).memoryLock := ih (call.next e)
      rw [rest, memoryLock_next, settings, List.getLast?_append]
      cases (settings (call.next e) calls).getLast? with
      | some lock => rfl
      | none => cases call.setting? e <;> rfl

/-! ### What starts do -/

/-- What a start answers and leaves.  It is refused exactly if a handle is alive, and then it
changes nothing.  Else it succeeds, unless a self test that is asked for fails; then the engine does
not run and the memory lock is as it was. -/
structure Starts (e : Engine) (check : Entropy → Except CurveError Entropy) (config : EngineConfig)
    (source : Entropy) (answer : Except EngineError Entropy) (reached : Engine) : Prop where
  refused_iff : answer = .error .alreadyRunning ↔ e.handles ≠ []
  refused : answer = .error .alreadyRunning → reached = e
  answered : e.handles = [] →
    answer = (if config.sanityCheck then check source else .ok source).mapError .selfTestFailed
  failed : ∀ fault, answer = .error (.selfTestFailed fault) → config.sanityCheck = true ∧
    reached.running = false ∧ reached.memoryLock = e.memoryLock
  started : ∀ rest, answer = .ok rest → reached.running = true ∧ reached.handles = [config] ∧
    reached.memoryLock = config.memoryLock

private theorem Sound.starts {e : Engine} (sound : e.Sound)
    (check : Entropy → Except CurveError Entropy) (config : EngineConfig) (source : Entropy) :
    let result := (Engine.startWith check config source).apply e
    e.Starts check config source result.1 result.2 := by
  intro result
  have spec : result = _ := apply_startWith check config source e
  cases running : e.running with
  | true =>
      rw [if_pos running] at spec
      have alive := sound.running_iff.mp running
      rw [spec]
      exact {
        refused_iff := iff_of_true rfl alive
        refused := fun _ => rfl
        answered := fun none_alive => absurd none_alive alive
        failed := nofun
        started := nofun }
  | false =>
      have stopped : ¬ e.running = true := Bool.eq_false_iff.mp running
      rw [if_neg stopped] at spec
      have none_alive := sound.handles_eq_nil stopped
      have not_alive : ¬ e.handles ≠ [] := fun alive => alive none_alive
      cases tested : (if config.sanityCheck then check source else .ok source) with
      | ok rest =>
          rw [tested] at spec
          rw [spec]
          exact {
            refused_iff := iff_of_false nofun not_alive
            refused := nofun
            answered := fun _ => by rw [tested]; rfl
            failed := nofun
            started := fun _ _ => ⟨rfl, congrArg (config :: ·) none_alive, rfl⟩ }
      | error fault =>
          rw [tested] at spec
          have asked : config.sanityCheck = true := by
            cases asked : config.sanityCheck with
            | true => rfl
            | false =>
                rw [asked] at tested
                cases tested
          rw [spec]
          exact {
            refused_iff := iff_of_false nofun not_alive
            refused := nofun
            answered := fun _ => by rw [tested]; rfl
            failed := fun _ _ => ⟨asked, running, rfl⟩
            started := nofun }

private theorem startWith_untested {config : EngineConfig} (unasked : config.sanityCheck = false)
    (check check' : Entropy → Except CurveError Entropy) (source : Entropy) :
    startWith check config source = startWith check' config source := by
  unfold startWith
  rw [unasked]
  rfl

private theorem memoryLock_after_of_quiet {e : Engine} {call : Call} {lock : Bool}
    (made : call.setting? e = some lock) {later : List Call}
    (quiet : settings (call.next e) later = []) :
    (after (call :: later) e).memoryLock = lock := by
  rw [memoryLock_after, settings, made, quiet]
  rfl

private theorem after_append (calls later : List Call) (e : Engine) :
    after (calls ++ later) e = after later (after calls e) :=
  List.foldl_append

/-- From the state of a new process, after any calls, at most one handle is alive and the flag tells
whether one is.  Every start is refused, succeeds or fails as it should, and the self test has no
part in one that does not ask for it.  The memory lock is the last setting that was made, or on if
there is none; the one that a start makes stays until the next. -/
theorem lifecycle_sound (calls : List Call) :
    let e := after calls idle
    e.Sound ∧
      (∀ check config source, let result := (startWith check config source).apply e
        e.Starts check config source result.1 result.2) ∧
      (∀ config check check' source, config.sanityCheck = false →
        startWith check config source = startWith check' config source) ∧
      e.memoryLock = (settings idle calls).getLast?.getD true ∧
      ∀ check config source rest later, ((startWith check config source).apply e).1 = .ok rest →
        settings ((Call.start check config source).next e) later = [] →
          (after (calls ++ .start check config source :: later) idle).memoryLock =
            config.memoryLock := by
  intro e
  have sound : e.Sound := sound_idle.after calls
  refine ⟨sound, sound.starts, ?_, memoryLock_after calls idle, ?_⟩
  · intro config check check' source unasked
    exact startWith_untested unasked check check' source
  · intro check config source rest later started quiet
    rw [after_append]
    exact memoryLock_after_of_quiet (setting?_start_of_ok started) quiet

theorem lifecycle_sound_restarted :
    let off : EngineConfig := ⟨false, true⟩
    let failing := Call.start (fun _ => .error .recoveryFailed) off ⟨[]⟩
    let passing := Call.start .ok off ⟨[]⟩
    let refused := Call.start .ok .standard ⟨[]⟩
    (after [failing] idle).memoryLock = true ∧ (after [failing] idle).running = false ∧
      (after [failing, passing, refused, .stop 0] idle).memoryLock = false ∧
      (after [failing, passing, refused, .stop 0] idle).running = false ∧
      ((startWith .ok .standard ⟨[]⟩).apply (after [failing, passing] idle)).2 =
        after [failing, passing] idle := by
  intro off failing passing refused
  obtain ⟨-, starts, -⟩ := lifecycle_sound []
  obtain ⟨-, stopped, kept⟩ := (starts (fun _ => .error .recoveryFailed) off ⟨[]⟩).failed _ rfl
  obtain ⟨-, -, -, -, stays⟩ := lifecycle_sound [failing]
  obtain ⟨-, starts', -⟩ := lifecycle_sound [failing, passing]
  exact ⟨kept, stopped, stays .ok off ⟨[]⟩ ⟨[]⟩ [refused, .stop 0] rfl rfl, rfl,
    (starts' .ok .standard ⟨[]⟩).refused rfl⟩

end KeyTree.Engine
