import KeyTree.Bytes
/-!
Buffers for secret bytes: their contents, and whether the pages behind them were pinned when the
buffer was made.
-/

set_option autoImplicit false
set_option relaxedAutoImplicit false

namespace KeyTree

structure SecureBuffer (n : Nat) where
  contents : Octets n
  pinned : Bool

/-- Whether buffers made now are to be pinned, and whether the system would do it. -/
structure PinPolicy where
  enabled : Bool
  granted : Bool

namespace SecureBuffer

def ofOctets {n : Nat} (policy : PinPolicy) (contents : Octets n) : SecureBuffer n :=
  ⟨contents, policy.enabled && policy.granted⟩

def zero (n : Nat) (policy : PinPolicy) : SecureBuffer n :=
  ofOctets policy (Octets.zero n)

/-- A new buffer with the same contents, pinned on its own. -/
def copy {n : Nat} (policy : PinPolicy) (b : SecureBuffer n) : SecureBuffer n :=
  ofOctets policy b.contents

/-- Put a byte at a position; past the end nothing changes. -/
def set {n : Nat} (b : SecureBuffer n) (i : Nat) (x : UInt8) : SecureBuffer n :=
  { b with contents := b.contents.set i x }

def describe {n : Nat} (_ : SecureBuffer n) : String :=
  "LockedBytes<" ++ toString n ++ ">([REDACTED])"

end SecureBuffer

end KeyTree
