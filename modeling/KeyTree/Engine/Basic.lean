import KeyTree.Engine.Entropy
import KeyTree.Engine.Environment
import KeyTree.Key.Pair
/-!
The life of the curve engine in a process: at most one running handle, a self test before the
first use, and the setting whether secrets are pinned in memory.
-/

set_option autoImplicit false
set_option relaxedAutoImplicit false

namespace KeyTree

structure EngineConfig where
  memoryLock : Bool
  sanityCheck : Bool
deriving DecidableEq

namespace EngineConfig

/-- Pin secrets and run the self test. -/
def standard : EngineConfig := ⟨true, true⟩

/-- A switch of the environment: on when the variable is not set. -/
def readSwitch (env : Environment) (fault : ConfigError) : Except ConfigError Bool :=
  match env.text? fault.subject with
  | none => .ok true
  | some s =>
      match Environment.readBool? s with
      | some b => .ok b
      | none => .error fault

def ofEnvironment (env : Environment) : Except ConfigError EngineConfig := do
  let memoryLock ← readSwitch env .memoryLock
  let sanityCheck ← readSwitch env .sanityCheck
  return ⟨memoryLock, sanityCheck⟩

def describe (c : EngineConfig) : String :=
  "EccConfig \x7b memory_lock: " ++ toString c.memoryLock ++ ", sanity_check: " ++
    toString c.sanityCheck ++ " \x7d"

def describeHandle (c : EngineConfig) : String :=
  "EccContext \x7b config: " ++ c.describe ++ " \x7d"

end EngineConfig

inductive EngineError where
  | alreadyRunning
  | selfTestFailed (fault : CurveError)
  | config (fault : ConfigError)
deriving DecidableEq

namespace EngineError

def message : EngineError → String
  | alreadyRunning => "Curve engine is already running"
  | selfTestFailed fault => "Curve engine sanity check failed: " ++ fault.message
  | config fault => fault.message

def describe : EngineError → String
  | alreadyRunning => "AlreadyRunning"
  | selfTestFailed fault => "SanityCheckFailed(" ++ fault.describe ++ ")"
  | config fault => "Config(" ++ fault.describe ++ ")"

end EngineError

/-- The engine in a process: whether it runs, whether new secrets are pinned, and the
configurations of the handles that are alive. -/
structure Engine where
  running : Bool
  memoryLock : Bool
  handles : List EngineConfig

namespace Engine

/-- A process before any start. -/
def idle : Engine := ⟨false, true, []⟩

def selfTestText : String := "coinkey engine self test"

/-- Draw a secret, sign with it, verify and recover; the answer is what remains of the supply. -/
def selfTest (source : Entropy) : Except CurveError Entropy := do
  let (secret, rest) ← source.drawSecret
  let pair ← KeyPair.ofSecret secret
  let hash := sha256 (Bytes.ofText selfTestText)
  let der ← pair.sign hash 0
  if !pair.verifies hash der then throw (.invalidSignature .unverified)
  let (raw, id) ← pair.signCompact hash
  let recovered ← KeyPair.recover hash raw id.toByte
  let expected ← pair.publicKey true
  let found ← recovered.publicKey true
  if found ≠ expected then throw .recoveryFailed
  return rest

/-- Start the engine with `check` for its self test, which is run only if the configuration asks
for it.  A failed check leaves the engine stopped. -/
def startWith (check : Entropy → Except CurveError Entropy) (config : EngineConfig)
    (source : Entropy) : Update Engine EngineError Entropy := do
  if (← get).running then throw .alreadyRunning
  modify fun e => { e with running := true }
  let rest ←
    if config.sanityCheck then
      match check source with
      | .ok rest => pure rest
      | .error fault =>
          modify fun e => { e with running := false }
          throw (.selfTestFailed fault)
    else pure source
  modify fun e => { e with memoryLock := config.memoryLock, handles := config :: e.handles }
  return rest

def start (config : EngineConfig) (source : Entropy) : Update Engine EngineError Entropy :=
  startWith selfTest config source

def startFrom (env : Environment) (source : Entropy) : Update Engine EngineError Entropy := do
  let config ← Update.ofExcept ((EngineConfig.ofEnvironment env).mapError .config)
  start config source

/-- Give up the handle at a position; without such a handle nothing changes. -/
def stop (e : Engine) (handle : Nat) : Engine :=
  if handle < e.handles.length then
    { e with running := false, handles := e.handles.eraseIdx handle }
  else e

def setMemoryLock (e : Engine) (enabled : Bool) : Engine :=
  { e with memoryLock := enabled }

end Engine

end KeyTree
