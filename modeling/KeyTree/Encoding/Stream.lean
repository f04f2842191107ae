import KeyTree.Bytes
import KeyTree.Update
/-!
Byte streams that are read from the front, and buffers that may be too small to write to.
-/

set_option autoImplicit false
set_option relaxedAutoImplicit false

namespace KeyTree

inductive StreamError where
  | shortInput
  | fullOutput
deriving DecidableEq

def StreamError.message : StreamError → String
  | .shortInput => "failed to fill whole buffer"
  | .fullOutput => "failed to write whole buffer"

/-- A reader of a byte stream: the state is what has not been read. -/
abbrev Reader := Update Bytes StreamError

namespace Reader

/-- Read exactly `n` bytes; when fewer are left they are used up. -/
def octets (n : Nat) : Reader (Octets n) :=
  Update.ofFunction fun stream =>
    match Octets.ofList? n (stream.take n) with
    | some o => (.ok o, stream.drop n)
    | none => (.error .shortInput, [])

/-- Read a number of `n` bytes, least significant first. -/
def littleEndian (n : Nat) : Reader Nat := do
  let o ← octets n
  return Bytes.littleEndianValue o.toList

end Reader

/-- What has been written to a buffer, and the room that is left in it; one without a bound grows. -/
structure Buffer where
  contents : Bytes
  room : Option Nat

abbrev Writer := Update Buffer StreamError

namespace Writer

/-- Write all of the bytes; a buffer with too little room for them is filled up. -/
def octets (bs : Bytes) : Writer Unit :=
  Update.ofFunction fun buffer =>
    match buffer.room with
    | none => (.ok (), ⟨buffer.contents ++ bs, none⟩)
    | some room =>
        if bs.length ≤ room then (.ok (), ⟨buffer.contents ++ bs, some (room - bs.length)⟩)
        else (.error .fullOutput, ⟨buffer.contents ++ bs.take room, some 0⟩)

/-- What is in an empty buffer of `capacity` bytes, or of any size if there is no bound, after all
has been written. -/
def into (capacity : Option Nat) (op : Writer Unit) : Except StreamError Bytes :=
  match op.apply ⟨[], capacity⟩ with
  | (.ok _, buffer) => .ok buffer.contents
  | (.error fault, _) => .error fault

end Writer

def writeWithin (capacity : Option Nat) (bs : Bytes) : Except StreamError Bytes :=
  (Writer.octets bs).into capacity

end KeyTree
