import KeyTree.Tree.PublicNode
/-!
Private nodes: a place in the tree with a secret key, from which every child can be derived.
-/

set_option autoImplicit false
set_option relaxedAutoImplicit false

namespace KeyTree

structure PrivateNode extends NodeHeader where
  key : SecretKey

namespace PrivateNode

/-- Nodes are equal when their headers are and their keys count as equal. -/
instance : BEq PrivateNode :=
  ⟨fun a b => a.toNodeHeader == b.toNodeHeader && a.key == b.key⟩

/-- The key under which a seed is hashed to the root node. -/
def seedKey : String := "Bitcoin seed"

def ofSeed (seed : Bytes) : Except TreeError PrivateNode := do
  let digest := hmacSha512 (Bytes.ofText seedKey) seed
  let key ← SecretKey.ofBytes (digest.take (n := 32) 32).toList true
  return ⟨.root ⟨digest.drop (n := 32) 32⟩, key⟩

def setSeed (seed : Bytes) : Update PrivateNode TreeError Unit := do
  let node ← Update.ofExcept (ofSeed seed)
  set node

def publicKey (x : PrivateNode) : Except TreeError PublicKey :=
  x.key.publicKey

def identifier (x : PrivateNode) : Except TreeError (Octets 20) :=
  x.publicKey.map PublicKey.identifier

/-- The fingerprint of the public key, by which children refer to this node. -/
def fingerprint (x : PrivateNode) : Except TreeError (Octets 4) :=
  x.publicKey.map PublicKey.fingerprint

def derive (x : PrivateNode) (index : UInt32) : Except TreeError PrivateNode := do
  let fingerprint ← x.fingerprint
  let (key, chainCode) ← x.key.derive index x.chainCode
  return ⟨x.toNodeHeader.child fingerprint index chainCode, key⟩

def derivePath (x : PrivateNode) (path : Path) : Except TreeError PrivateNode :=
  path.indexes.foldlM derive x

/-- The same place with the public key only. -/
def neuter (x : PrivateNode) : Except TreeError PublicNode := do
  let key ← x.publicKey
  return ⟨x.toNodeHeader, key.withCompression true⟩

def encode (x : PrivateNode) : Except TreeError (Octets 74) :=
  if x.key.valid then
    let marker : Octets 1 := ⟨[0], rfl⟩
    .ok (x.toNodeHeader.toOctets.append (marker.append x.key.data))
  else .error .invalidSecretKey

def decode (bs : Bytes) : Except TreeError PrivateNode := do
  let (header, marker, secret) ← splitNode bs
  if marker = 0 then
    let key ← SecretKey.ofBytes secret.toList true
    return ⟨header, key⟩
  else throw (.invalidLayout (.privateMarker marker))

def describe (x : PrivateNode) : String :=
  "ExtendedKey \x7b " ++ x.describeFields ++ ", key: " ++ x.key.describe ++ " \x7d"

end PrivateNode

end KeyTree
