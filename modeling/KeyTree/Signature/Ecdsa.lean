import KeyTree.Signature.Basic
/-!
The signature scheme on the curve: signing with a given nonce, verifying, and finding the points
that a signature is good for.
-/

set_option autoImplicit false
set_option relaxedAutoImplicit false

namespace KeyTree.Ecdsa

open Curve

def hashScalar (hash : Octets 32) : Scalar :=
  Residue.ofNat order hash.value

/-- The scalar of a point: its first coordinate modulo the order. -/
def pointScalar (P : Affine) : Scalar :=
  Residue.ofNat order P.x.val

/-- Sign a hash with a secret and a nonce; fails if an element of the signature is zero. -/
def sign? (secret nonce : Scalar) (hash : Octets 32) : Option Signature :=
  match generator.times nonce with
  | .infinity => none
  | .affine R =>
      let r := pointScalar R
      Signature.ofScalars? r ((hashScalar hash + r * secret) / nonce)

def verifies (Q : Affine) (hash : Octets 32) (σ : Signature) : Bool :=
  let w := σ.s.inverse
  match generator.times (hashScalar hash * w) + Q.times (σ.r * w) with
  | .infinity => false
  | .affine R => pointScalar R = σ.r

/-- Which of the points with a given scalar a signature was made from. -/
structure RecoveryId where
  /-- The second coordinate is odd. -/
  odd : Bool
  /-- The first coordinate is not below the order. -/
  reduced : Bool
deriving DecidableEq

namespace RecoveryId

/-- The number of an id: bit 0 for the parity, bit 1 for the reduction. -/
def toByte (id : RecoveryId) : UInt8 :=
  (if id.odd then 1 else 0) + (if id.reduced then 2 else 0)

def ofByte? (b : UInt8) : Option RecoveryId :=
  if b < 4 then some ⟨b % 2 == 1, 2 ≤ b⟩ else none

def opposite (id : RecoveryId) : RecoveryId :=
  { id with odd := !id.odd }

def all : List RecoveryId :=
  [⟨false, false⟩, ⟨true, false⟩, ⟨false, true⟩, ⟨true, true⟩]

end RecoveryId

/-- The point that a signature with first element `r` was made from, by its id. -/
def noncePoint? (r : Scalar) (id : RecoveryId) : Option Affine := do
  let x ← Residue.ofNat? fieldPrime (if id.reduced then r.val + order else r.val)
  Affine.ofX? x id.odd

/-- The public point for which a signature of a hash is good, if it was made from the point with
this id. -/
def recover? (hash : Octets 32) (σ : Signature) (id : RecoveryId) : Option Affine := do
  let R ← noncePoint? σ.r id
  let w := σ.r.inverse
  (generator.times (-(hashScalar hash * w)) + R.times (σ.s * w)).affine?

end KeyTree.Ecdsa
