import KeyTree.Tree.Error
/-!
Chain codes: 32 bytes that stand beside a key and enter the derivation of its children.
-/

set_option autoImplicit false
set_option relaxedAutoImplicit false

namespace KeyTree

/-- 32 bytes of derivation entropy. -/
structure ChainCode where
  octets : Octets 32
deriving DecidableEq

namespace ChainCode

def zero : ChainCode := ⟨Octets.zero 32⟩

def ofBytes (bs : Bytes) : Except TreeError ChainCode :=
  match Octets.ofList? 32 bs with
  | some o => .ok ⟨o⟩
  | none => .error (.invalidLength 32 bs.length)

def toBytes (c : ChainCode) : Bytes :=
  c.octets.toList

def toHex (c : ChainCode) : String :=
  Hex.encode c.toBytes

def describe (c : ChainCode) : String :=
  "ChainCode(" ++ c.toHex ++ ")"

end ChainCode

end KeyTree
