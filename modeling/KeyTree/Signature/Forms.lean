import KeyTree.Signature.Basic
/-!
Signatures in the forms in which they are passed on: encoded bytes taken as they are, and the
compact form of 65 bytes from which the signer can be recovered.

The first byte of the compact form is 27 plus the recovery id, plus four if the signer's key is
compressed.
-/

set_option autoImplicit false
set_option relaxedAutoImplicit false

namespace KeyTree

/-- The bytes of an encoded signature; nothing about them is checked. -/
structure EncodedSignature where
  bytes : Bytes
deriving DecidableEq

namespace EncodedSignature

/-- The most bytes that a text may stand for. -/
def maxSize : Nat := 72

/-- Read hexadecimal text of at most `maxSize` bytes. -/
def ofHex (s : String) : Except CurveError EncodedSignature :=
  match Hex.decode s with
  | .error fault => .error (.invalidSignature (.hex fault))
  | .ok bs =>
      if maxSize < bs.length then .error (.invalidSignature (.tooLong maxSize bs.length))
      else .ok ⟨bs⟩

def toHex (e : EncodedSignature) : String :=
  Hex.encode e.bytes

def isLow (e : EncodedSignature) : Bool :=
  Signature.isLowDer e.bytes

end EncodedSignature

/-- A header byte, then both elements of a signature. -/
structure CompactSignature where
  octets : Octets 65
deriving DecidableEq

namespace CompactSignature

/-- The header of id zero and an uncompressed key. -/
def headerBase : UInt8 := 27

/-- What a compressed key adds to the header. -/
def headerCompressed : UInt8 := 4

structure Parts where
  raw : Octets 64
  recoveryId : UInt8
  compressed : Bool
deriving DecidableEq

/-- Put a compact signature together; the id must be below four. -/
def ofParts (parts : Parts) : Except CurveError CompactSignature :=
  if headerCompressed ≤ parts.recoveryId then .error (.invalidRecoveryId parts.recoveryId)
  else
    let header : Octets 1 :=
      ⟨[headerBase + parts.recoveryId + if parts.compressed then headerCompressed else 0], rfl⟩
    .ok ⟨header.append parts.raw⟩

/-- Take a compact signature apart; the header must be one of the eight. -/
def parts (c : CompactSignature) : Except CurveError Parts :=
  let header := c.octets.toList.headD 0
  if headerBase ≤ header ∧ header < headerBase + 8 then
    let offset := header - headerBase
    .ok ⟨c.octets.drop (n := 64) 1, offset % headerCompressed, headerCompressed ≤ offset⟩
  else .error (.invalidSignature (.header header))

def recoveryId (c : CompactSignature) : Except CurveError UInt8 :=
  c.parts.map Parts.recoveryId

def isCompressed (c : CompactSignature) : Except CurveError Bool :=
  c.parts.map Parts.compressed

def ofBytes (bs : Bytes) : Except CurveError CompactSignature :=
  match Octets.ofList? 65 bs with
  | some o => .ok ⟨o⟩
  | none => .error (.invalidLength 65 bs.length)

def ofHex (s : String) : Except CurveError CompactSignature :=
  match Hex.decode s with
  | .error fault => .error (.invalidSignature (.hex fault))
  | .ok bs => ofBytes bs

def toHex (c : CompactSignature) : String :=
  Hex.encode c.octets.toList

end CompactSignature

end KeyTree
