import KeyTree.Encoding.CompactSize
import KeyTree.Tree.PrivateNode
/-!
Nodes as records of a stream, each after its size, and as Base58Check text, which starts with a
version and ends with a checksum.
-/

set_option autoImplicit false
set_option relaxedAutoImplicit false

namespace KeyTree

namespace Record

def frame (node : Octets 74) : Bytes :=
  CompactSize.encode (UInt64.ofNat nodeSize) ++ node.toList

def read : Update Bytes TreeError (Octets 74) := do
  let size ← CompactSize.read.mapError .stream
  if size.toNat = nodeSize then (Reader.octets 74).mapError .stream
  else throw (.invalidLayout (.frameSize size.toNat nodeSize))

def privateVersion : UInt32 := 0x0488ade4

def publicVersion : UInt32 := 0x0488b21e

/-- The length of the bytes that a text stands for: version, node and checksum. -/
def textSize : Nat := 82

def text (version : UInt32) (node : Octets 74) : String :=
  Base58.encodeCheck (Bytes.bigEndian 4 version.toNat ++ node.toList)

/-- The encoded node of a text.  Digits, length, checksum and version are checked in this
order. -/
def ofText (version : UInt32) (s : String) : Except TreeError (Octets 74) :=
  match Base58.decode s with
  | .error fault => .error (.invalidBase58 fault)
  | .ok bs =>
      match Octets.ofList? 82 bs with
      | none => .error (.invalidLength textSize bs.length)
      | some o =>
          let payload : Octets 78 := o.take (n := 4) 78
          let checksum : Octets 4 := o.drop (n := 4) 78
          let found := UInt32.ofNat (payload.take (n := 74) 4).value
          if checksum.toList ≠ Base58.checksum payload.toList then .error .invalidChecksum
          else if found ≠ version then .error (.invalidVersion found)
          else .ok (payload.drop (n := 74) 4)

end Record

namespace PrivateNode

def toRecord (x : PrivateNode) : Except TreeError Bytes :=
  x.encode.map Record.frame

/-- Read a node from a stream.  A record of the right size is used up even if it holds no node. -/
def read : Update Bytes TreeError PrivateNode := do
  let node ← Record.read
  Update.ofExcept (decode node.toList)

/-- The text of a node; it holds the secret. -/
def toText (x : PrivateNode) : Except TreeError String :=
  x.encode.map (Record.text Record.privateVersion)

def ofText (s : String) : Except TreeError PrivateNode := do
  let node ← Record.ofText Record.privateVersion s
  decode node.toList

end PrivateNode

namespace PublicNode

def toRecord (x : PublicNode) : Bytes :=
  Record.frame x.encode

def read : Update Bytes TreeError PublicNode := do
  let node ← Record.read
  Update.ofExcept (decode node.toList)

def toText (x : PublicNode) : String :=
  Record.text Record.publicVersion x.encode

def ofText (s : String) : Except TreeError PublicNode := do
  let node ← Record.ofText Record.publicVersion s
  decode node.toList

end PublicNode

end KeyTree
