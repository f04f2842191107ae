import KeyTree.Curve.Point
/-!
The range check of secrets and signature elements, on bytes.

The bytes of any length are compared with the bytes of the bound; the number itself is not
computed.
-/

set_option autoImplicit false
set_option relaxedAutoImplicit false

namespace KeyTree.Curve

/-- The largest second element of a low signature. -/
def halfOrder : Nat :=
  0x7fffffffffffffffffffffffffffffff5d576e7357a4501ddfe92f46681b20a0

theorem halfOrder_eq : halfOrder = order / 2 := by
  decide

def orderOctets : Octets 32 :=
  Octets.ofNat 32 order

def halfOrderOctets : Octets 32 :=
  Octets.ofNat 32 halfOrder

/-- Whether the bytes write a number of at least one that is below the order or, if `half` is
set, at most half of it. -/
def inElementRange (bs : Bytes) (half : Bool) : Bool :=
  if (Bytes.stripLeadingZeros bs).isEmpty then false
  else if half then Bytes.compareBigEndian bs halfOrderOctets.toList != .gt
  else Bytes.compareBigEndian bs orderOctets.toList == .lt

def isSecret (o : Octets 32) : Bool :=
  inElementRange o.toList false

end KeyTree.Curve
