import KeyTree.Bytes
import KeyTree.Text.Quoted
/-!
Environment variables.  A variable holds bytes; only one whose bytes are a text counts as set.

A process gets its variables as one block of bytes: entries of the form `name=value`, each ended by
a zero byte.
-/

set_option autoImplicit false
set_option relaxedAutoImplicit false

namespace KeyTree

/-- The value of a variable: a text, or bytes that are none. -/
inductive Variable where
  | text (s : String)
  | bytes (bs : Bytes)

def Variable.ofBytes (bs : Bytes) : Variable :=
  match String.fromUTF8? bs.toByteArray with
  | some s => .text s
  | none => .bytes bs

abbrev Environment := String → Option Variable

namespace Environment

/-- The entries of a block, without the zero bytes that end them. -/
def entries : Bytes → List Bytes
  | [] => []
  | b :: block =>
      if b = 0 then [] :: entries block
      else
        match entries block with
        | [] => [[b]]
        | entry :: others => (b :: entry) :: others

def label (name : String) : Bytes :=
  Bytes.ofText name ++ Bytes.ofText "="

/-- The variables in a block; of two entries with one name the first counts. -/
def ofBlock (block : Bytes) : Environment :=
  fun name => ((entries block).findSome? (label name).isPrefixOf?).map Variable.ofBytes

def text? (env : Environment) (name : String) : Option String :=
  match env name with
  | some (.text s) => some s
  | _ => none

def readBool? (s : String) : Option Bool :=
  if s = "true" then some true else if s = "false" then some false else none

end Environment

/-- The settings that the environment can get wrong. -/
inductive ConfigError where
  | memoryLock
  | sanityCheck
  | seed
  | seedLength
  | path
deriving DecidableEq

namespace ConfigError

def subject : ConfigError → String
  | memoryLock => "COINKEY_MEMORY_LOCK"
  | sanityCheck => "COINKEY_SANITY_CHECK"
  | seed => "COINKEY_SEED"
  | seedLength => "COINKEY_SEED must be 16 to 64 bytes"
  | path => "COINKEY_PATH"

def message (e : ConfigError) : String :=
  "Invalid configuration: " ++ e.subject

def describe (e : ConfigError) : String :=
  "Invalid(" ++ Text.quote e.subject ++ ")"

end ConfigError

end KeyTree
