import KeyTree.Curve.Error
import KeyTree.Curve.Point
import KeyTree.Hash.Ripemd160
/-!
Public keys: a point of the curve with the encoding it is written in.

Two keys are equal when they are written alike, so the two encodings of one point are different
keys.
-/

set_option autoImplicit false
set_option relaxedAutoImplicit false

namespace KeyTree

open Curve

/-- A point and whether it is written compressed. -/
structure PublicKey where
  point : Affine
  compressed : Bool
deriving DecidableEq

namespace PublicKey

/-- The parity of `y` as a tag byte, and `x`. -/
def compressedForm (P : Affine) : Octets 33 :=
  let tag : Octets 1 := ⟨[if P.y.isOdd then 0x03 else 0x02], rfl⟩
  tag.append (P.x.toOctets 32)

/-- The tag byte 04 and both coordinates. -/
def uncompressedForm (P : Affine) : Octets 65 :=
  let tag : Octets 1 := ⟨[0x04], rfl⟩
  (tag.append (P.x.toOctets 32)).append (P.y.toOctets 32)

def toBytes (k : PublicKey) : Bytes :=
  if k.compressed then (compressedForm k.point).toList else (uncompressedForm k.point).toList

def toCompressed (k : PublicKey) : Octets 33 :=
  compressedForm k.point

def withCompression (k : PublicKey) (compressed : Bool) : PublicKey :=
  { k with compressed }

/-- The point of a compressed form, given its tag and the bytes after it. -/
def pointOfX? (tag : UInt8) (x : Bytes) : Option Affine := do
  let x ← Residue.ofNat? fieldPrime (Bytes.bigEndianValue x)
  Affine.ofX? x (tag == 0x03)

def pointOfCoordinates? (xy : Bytes) : Option Affine := do
  let x ← Residue.ofNat? fieldPrime (Bytes.bigEndianValue (xy.take 32))
  let y ← Residue.ofNat? fieldPrime (Bytes.bigEndianValue (xy.drop 32))
  let P : Affine := ⟨x, y⟩
  if P.OnCurve then some P else none

/-- Read a key from the bytes of either encoding.  The length decides which one it is. -/
def ofBytes (bs : Bytes) : Except CurveError PublicKey :=
  let tag := bs.headD 0
  if bs.length = 33 then
    if tag = 0x02 ∨ tag = 0x03 then
      match pointOfX? tag bs.tail with
      | some P => .ok ⟨P, true⟩
      | none => .error (.invalidPublicKey .notOnCurve)
    else .error (.invalidPublicKey (.tag tag))
  else if bs.length = 65 then
    if tag = 0x04 then
      match pointOfCoordinates? bs.tail with
      | some P => .ok ⟨P, false⟩
      | none => .error (.invalidPublicKey .notOnCurve)
    else .error (.invalidPublicKey (.tag tag))
  else .error (.invalidLength 33 bs.length)

def toHex (k : PublicKey) : String :=
  Hex.encode k.toBytes

def ofHex (s : String) : Except CurveError PublicKey :=
  match Hex.decode s with
  | .ok bs => ofBytes bs
  | .error fault => .error (.invalidPublicKey (.hex fault))

def identifier (k : PublicKey) : Octets 20 :=
  hash160 k.toBytes

def fingerprint (k : PublicKey) : Octets 4 :=
  (hash160 k.toCompressed.toList).take (n := 16) 4

def describe (k : PublicKey) : String :=
  "PublicKey(" ++ k.toHex ++ ")"

end PublicKey

end KeyTree
