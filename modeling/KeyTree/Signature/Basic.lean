import KeyTree.Curve.Error
import KeyTree.Curve.Range
import KeyTree.Encoding.Der
/-!
Signatures as pairs of scalars, with their low form, their 64-byte form and their distinguished
encoding.

Negating the second element of a signature gives another one that is good for the same key and
message; of the two exactly one is low.
-/

set_option autoImplicit false
set_option relaxedAutoImplicit false

namespace KeyTree

open Curve

/-- A signature: two scalars, neither of them zero. -/
structure Signature where
  r : Scalar
  s : Scalar
  r_ne_zero : r ≠ 0
  s_ne_zero : s ≠ 0
deriving DecidableEq

namespace Signature

def ofScalars? (r s : Scalar) : Option Signature :=
  if hr : r ≠ 0 then
    if hs : s ≠ 0 then some ⟨r, s, hr, hs⟩ else none
  else none

def ofNats? (r s : Nat) : Option Signature := do
  let r ← Residue.ofNat? order r
  let s ← Residue.ofNat? order s
  ofScalars? r s

/-- The other signature with the same first element that is good for the same key. -/
def twin (σ : Signature) : Signature where
  r := σ.r
  s := -σ.s
  r_ne_zero := σ.r_ne_zero
  s_ne_zero := Residue.neg_ne_zero σ.s_ne_zero

def isLow (σ : Signature) : Bool :=
  inElementRange (σ.s.toOctets 32).toList true

/-- The low one of a signature and its twin. -/
def lowS (σ : Signature) : Signature :=
  if σ.isLow then σ else σ.twin

/-- Bring a signature into its low form: a high one is put together again from its first element
and the opposite of its second, which is refused if the two are no signature. -/
def enforceLow (σ : Signature) : Except CurveError Signature :=
  if σ.isLow then .ok σ
  else
    match ofScalars? σ.r (-σ.s) with
    | some low => .ok low
    | none => .error .lowFormRefused

/-- No signature is refused its low form. -/
@[simp]
theorem enforceLow_eq (σ : Signature) : σ.enforceLow = .ok σ.lowS := by
  have opposite : ofScalars? σ.r (-σ.s) = some σ.twin := by
    rw [ofScalars?, dif_pos σ.r_ne_zero, dif_pos (Residue.neg_ne_zero σ.s_ne_zero)]
    rfl
  rw [enforceLow, lowS, opposite]
  split <;> rfl

def toRaw (σ : Signature) : Octets 64 :=
  (σ.r.toOctets 32).append (σ.s.toOctets 32)

/-- Read both elements from 64 bytes; their range is checked on the bytes first. -/
def ofRaw? (raw : Octets 64) : Option Signature :=
  let r : Octets 32 := raw.take (n := 32) 32
  let s : Octets 32 := raw.drop (n := 32) 32
  if !inElementRange r.toList false || !inElementRange s.toList false then none
  else ofNats? r.value s.value

def toDer (σ : Signature) : Bytes :=
  Der.element Der.sequenceTag (Der.natural σ.r.val ++ Der.natural σ.s.val)

/-- Read a sequence of exactly two integers in range, with nothing after it. -/
def ofDer? (bs : Bytes) : Option Signature := do
  let contents ← Der.only? Der.sequenceTag bs
  let (r, rest) ← Der.readNatural? contents
  let (s, rest) ← Der.readNatural? rest
  if rest.isEmpty then ofNats? r s else none

def isLowDer (bs : Bytes) : Bool :=
  match ofDer? bs with
  | some σ => σ.isLow
  | none => false

end Signature

end KeyTree
