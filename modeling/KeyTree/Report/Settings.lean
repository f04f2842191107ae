import KeyTree.Encoding.Hex
import KeyTree.Engine.Environment
import KeyTree.Tree.Path
/-!
The settings of a report, as the environment gives them.
-/

set_option autoImplicit false
set_option relaxedAutoImplicit false

namespace KeyTree

/-- What to report on: the seed, or none for a random one; the path of the leaf; the text that
the leaf is to sign. -/
structure Settings where
  seed : Option Bytes
  path : Path
  message : Option String
deriving DecidableEq

namespace Settings

def defaultPath : String := "m/0'/0"

/-- A seed has 16 to 64 bytes. -/
def isSeedLength (n : Nat) : Bool :=
  16 ≤ n && n ≤ 64

/-- The seed in a text, with white space at both ends passed over. -/
def readSeed (s : String) : Except ConfigError Bytes :=
  match Hex.decode (String.ofList (Text.trim s.toList)) with
  | .error _ => .error .seed
  | .ok bs => if isSeedLength bs.length then .ok bs else .error .seedLength

def seedOf (env : Environment) : Except ConfigError (Option Bytes) :=
  match env.text? "COINKEY_SEED" with
  | none => .ok none
  | some s => (readSeed s).map some

def pathOf (env : Environment) : Except ConfigError Path :=
  (Path.parse ((env.text? "COINKEY_PATH").getD defaultPath)).mapError fun _ => .path

/-- The settings in the environment; the seed is looked at before the path. -/
def ofEnvironment (env : Environment) : Except ConfigError Settings := do
  let seed ← seedOf env
  let path ← pathOf env
  return ⟨seed, path, env.text? "COINKEY_MESSAGE"⟩

end Settings

end KeyTree
