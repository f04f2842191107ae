import KeyTree.Engine.Basic
import KeyTree.Report.Settings
import KeyTree.Tree.Record
/-!
The report on a key tree: the lines it prints and the errors that end it.

A report shows the root and the leaf at the end of a path, and a signature by the leaf if there is
a message.
-/

set_option autoImplicit false
set_option relaxedAutoImplicit false

namespace KeyTree

/-- What ends a report early. -/
inductive ReportError where
  | config (fault : ConfigError)
  | engine (fault : EngineError)
  | curve (fault : CurveError)
  | key (fault : TreeError)
deriving DecidableEq

namespace ReportError

def describe : ReportError → String
  | config fault => "Config(" ++ fault.describe ++ ")"
  | engine fault => "Context(" ++ fault.describe ++ ")"
  | curve fault => "Crypto(" ++ fault.describe ++ ")"
  | key fault => "Key(" ++ fault.describe ++ ")"

end ReportError

namespace Report

/-- A report under way: the state is the lines printed so far. -/
abbrev Printing := Update (List String) ReportError

def print (line : String) : Printing Unit :=
  modify (· ++ [line])

def seedSize : Nat := 32

def seedLine (seed : Bytes) : String :=
  "seed:        " ++ Hex.encode seed

/-- The seed that is set, or a random one, which is printed. -/
def chooseSeed (settings : Settings) (source : Entropy) : Printing Bytes :=
  match settings.seed with
  | some seed => pure seed
  | none => do
      let (seed, _) ← Update.ofExcept ((source.draw seedSize).mapError .curve)
      print (seedLine seed.toList)
      return seed.toList

def treeLines (root leaf : PublicNode) (path : Path) : List String :=
  ["master xpub: " ++ root.toText,
    "path:        " ++ path.text,
    "leaf xpub:   " ++ leaf.toText,
    "leaf key:    " ++ leaf.key.toHex,
    "leaf id:     " ++ Hex.encode leaf.identifier.toList]

def signatureLines (leaf : PrivateNode) (message : String) : Except TreeError (List String) := do
  let hash := sha256 (Bytes.ofText message)
  let der ← leaf.key.sign hash 0
  let compact ← leaf.key.signCompact hash
  return ["signature:   " ++ Hex.encode der, "compact:     " ++ compact.toHex]

def linesOf (settings : Settings) (seed : Bytes) : Printing Unit := do
  let root ← Update.ofExcept ((PrivateNode.ofSeed seed).mapError .key)
  let leaf ← Update.ofExcept ((root.derivePath settings.path).mapError .key)
  let leafPublic ← Update.ofExcept (leaf.neuter.mapError .key)
  let rootPublic ← Update.ofExcept (root.neuter.mapError .key)
  modify (· ++ treeLines rootPublic leafPublic settings.path)
  match settings.message with
  | none => return ()
  | some message =>
      let lines ← Update.ofExcept ((signatureLines leaf message).mapError .key)
      modify (· ++ lines)

/-- The whole report: start the engine, read the settings, print. -/
def run (env : Environment) (source : Entropy) : Printing Unit := do
  let (started, _) := (Engine.startFrom env source).apply Engine.idle
  let rest ← Update.ofExcept (started.mapError .engine)
  let settings ← Update.ofExcept ((Settings.ofEnvironment env).mapError .config)
  let seed ← chooseSeed settings rest
  linesOf settings seed

/-- What a process leaves behind. -/
structure Outcome where
  lines : List String
  error : Option ReportError

def outcome (env : Environment) (source : Entropy) : Outcome :=
  match (run env source).apply [] with
  | (.ok (), lines) => ⟨lines, none⟩
  | (.error fault, lines) => ⟨lines, some fault⟩

/-- The exit status: zero without an error. -/
def Outcome.status (o : Outcome) : UInt32 :=
  if o.error.isNone then 0 else 1

def Outcome.errorLine? (o : Outcome) : Option String :=
  o.error.map fun fault => "Error: " ++ fault.describe

end Report

end KeyTree
