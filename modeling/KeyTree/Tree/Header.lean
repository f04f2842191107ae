import KeyTree.Tree.ChainCode
/-!
Where a node stands in the tree: what private and public nodes have in common, with its 41-byte
layout.
-/

set_option autoImplicit false
set_option relaxedAutoImplicit false

namespace KeyTree

/-- The place of a node and the chain code that its children are derived with. -/
structure NodeHeader where
  depth : UInt8
  parentFingerprint : Octets 4
  childNumber : UInt32
  chainCode : ChainCode
deriving DecidableEq

namespace NodeHeader

def root (chainCode : ChainCode) : NodeHeader :=
  ⟨0, Octets.zero 4, 0, chainCode⟩

/-- The header of the child at an index; the depth starts again from zero after 255. -/
def child (h : NodeHeader) (fingerprint : Octets 4) (index : UInt32) (chainCode : ChainCode) :
    NodeHeader :=
  ⟨h.depth + 1, fingerprint, index, chainCode⟩

/-- Depth, parent fingerprint, child number with its most significant byte first, chain code. -/
def toOctets (h : NodeHeader) : Octets 41 :=
  let depth : Octets 1 := ⟨[h.depth], rfl⟩
  ((depth.append h.parentFingerprint).append (Octets.ofNat 4 h.childNumber.toNat)).append
    h.chainCode.octets

/-- Read the layout; every 41 bytes are a header. -/
def ofOctets (o : Octets 41) : NodeHeader :=
  let rest : Octets 40 := o.drop (n := 40) 1
  let numbers : Octets 36 := rest.drop (n := 36) 4
  { depth := o.toList.headD 0
    parentFingerprint := rest.take (n := 36) 4
    childNumber := UInt32.ofNat (numbers.take (n := 32) 4).value
    chainCode := ⟨numbers.drop (n := 32) 4⟩ }

def describeFields (h : NodeHeader) : String :=
  let fingerprint := h.parentFingerprint.toList.map fun b => toString b.toNat
  "depth: " ++ toString h.depth.toNat ++
    ", parent_fingerprint: [" ++ ", ".intercalate fingerprint ++
    "], child_number: " ++ toString h.childNumber.toNat ++
    ", chain_code: " ++ h.chainCode.describe

end NodeHeader

def nodeSize : Nat := 74

/-- Split the layout of a node into its header, its marker byte and the 32 bytes of its key. -/
def splitNode (bs : Bytes) : Except TreeError (NodeHeader × UInt8 × Octets 32) :=
  match Octets.ofList? 74 bs with
  | none => .error (.invalidLength nodeSize bs.length)
  | some o =>
      let key : Octets 33 := o.drop (n := 33) 41
      .ok (.ofOctets (o.take (n := 33) 41), key.toList.headD 0, key.drop (n := 32) 1)

end KeyTree
