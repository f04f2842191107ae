import KeyTree.Tree.Header
import KeyTree.Tree.SecretKey
/-!
Public nodes: a place in the tree with a public key only.  Plain children can be derived from
them, hardened ones cannot.
-/

set_option autoImplicit false
set_option relaxedAutoImplicit false

namespace KeyTree

structure PublicNode extends NodeHeader where
  key : PublicKey
deriving DecidableEq

namespace PublicNode

def identifier (x : PublicNode) : Octets 20 :=
  x.key.identifier

def fingerprint (x : PublicNode) : Octets 4 :=
  x.key.fingerprint

/-- What is hashed to derive the plain child at an index. -/
def derivationMessage (x : PublicNode) (index : UInt32) : Bytes :=
  SecretKey.plainMessage x.key.toCompressed index

def derive (x : PublicNode) (index : UInt32) : Except TreeError PublicNode :=
  if isHardened index then .error (.hardenedFromPublic index)
  else do
    let (tweak, chainCode) := SecretKey.derivationHash x.chainCode (x.derivationMessage index)
    let (result, pair) := (KeyPair.tweakPublic tweak).apply (KeyPair.ofPublicKey x.key)
    result.mapError (SecretKey.derivationError index)
    let key ← liftCurve (pair.publicKey true)
    return ⟨x.toNodeHeader.child x.fingerprint index chainCode, key⟩

def derivePath (x : PublicNode) (path : Path) : Except TreeError PublicNode :=
  path.indexes.foldlM derive x

def encode (x : PublicNode) : Octets 74 :=
  x.toNodeHeader.toOctets.append x.key.toCompressed

def decode (bs : Bytes) : Except TreeError PublicNode := do
  let (header, marker, key) ← splitNode bs
  if marker = 0x02 ∨ marker = 0x03 then
    match PublicKey.ofBytes (marker :: key.toList) with
    | .ok key => return ⟨header, key⟩
    | .error fault => throw (.invalidLayout (.publicKey fault))
  else throw (.invalidLayout (.publicMarker marker))

def toHex (x : PublicNode) : String :=
  Hex.encode x.encode.toList

def describe (x : PublicNode) : String :=
  "ExtendedPublicKey \x7b " ++ x.describeFields ++ ", public: " ++ x.key.describe ++ " \x7d"

end PublicNode

end KeyTree
