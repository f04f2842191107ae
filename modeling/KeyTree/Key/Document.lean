import KeyTree.Encoding.Der
/-!
Private key documents: a secret with, optionally, the name of its curve and its public key, as a
distinguished encoding.

    SEQUENCE { INTEGER 1, OCTET STRING secret, [0] { OBJECT IDENTIFIER }, [1] { BIT STRING } }
-/

set_option autoImplicit false
set_option relaxedAutoImplicit false

namespace KeyTree

/-- The fields of a document as they are written; the secret may have any length and the public
key need not be one. -/
structure PrivateKeyDocument where
  secret : Bytes
  curve : Option Bytes
  publicKey : Option Bytes
deriving DecidableEq

namespace PrivateKeyDocument

/-- The object identifier 1.3.132.0.10 of the curve secp256k1. -/
def secp256k1 : Bytes :=
  [0x2b, 0x81, 0x04, 0x00, 0x0a]

/-- The tags of the two optional fields; each comes in a primitive and a constructed spelling. -/
def curveTag : UInt8 := 0xa0

def primitiveCurveTag : UInt8 := 0x80

def publicKeyTag : UInt8 := 0xa1

def primitivePublicKeyTag : UInt8 := 0x81

/-- Whether bytes are a sequence of arcs in base 128, the last byte of each having its top bit
clear; `count` bytes of the current arc have been seen.  From the fifth byte of an arc on the top
four bits are clear. -/
def areArcs (count : Nat) : Bytes → Bool
  | [] => count == 0
  | b :: rest =>
      if 4 ≤ count ∧ 16 ≤ b then false
      else if b < 128 then areArcs 0 rest else areArcs (count + 1) rest

/-- Whether the contents of an element are an object identifier. -/
def isObjectIdentifier (contents : Bytes) : Bool :=
  match contents with
  | [] => false
  | first :: arcs => 3 ≤ contents.length && contents.length ≤ 39 && first < 120 && areArcs 0 arcs

/-- Read the optional name of the curve: what it is, if it stands next, and the bytes after. -/
def readCurve? (bs : Bytes) : Option (Option Bytes × Bytes) :=
  if bs.head? = some curveTag then do
    let (contents, rest) ← Der.expect? curveTag bs
    let identifier ← Der.only? Der.objectIdentifierTag contents
    if isObjectIdentifier identifier then some (some identifier, rest) else none
  else if bs.head? = some primitiveCurveTag then none
  else some (none, bs)

/-- Pass over at most `fuel` elements that are numbered like the name of the curve. -/
def skipCurves? : Nat → Bytes → Option Bytes
  | 0, bs => some bs
  | fuel + 1, bs =>
      if bs.head? = some curveTag ∨ bs.head? = some primitiveCurveTag then do
        let (_, _, rest) ← Der.read? bs
        skipCurves? fuel rest
      else some bs

/-- The bytes of a bit string that fills whole bytes, from the contents of its element. -/
def wholeBytes? : Bytes → Option Bytes
  | [] => none
  | unused :: bs => if unused = 0 then some bs else none

/-- Read the optional public key: what it is, if it stands next, and the bytes after. -/
def readPublicKey? (bs : Bytes) : Option (Option Bytes × Bytes) := do
  let bs ← skipCurves? bs.length bs
  if bs.head? = some publicKeyTag then
    let (contents, rest) ← Der.expect? publicKeyTag bs
    let key ← wholeBytes? (← Der.only? Der.bitStringTag contents)
    some (some key, rest)
  else if bs.head? = some primitivePublicKeyTag then none
  else some (none, bs)

/-- What the length of a document that is read lies below: 256 MiB. -/
def sizeBound : Nat := 1 <<< 28

/-- Read the fields of a document from the contents of its sequence. -/
def ofContents? (contents : Bytes) : Option PrivateKeyDocument := do
  let (version, rest) ← Der.readNatural? contents
  if version ≠ 1 then none
  else
    let (secret, rest) ← Der.expect? Der.octetStringTag rest
    let (curve, rest) ← readCurve? rest
    let (publicKey, rest) ← readPublicKey? rest
    if rest.isEmpty then some ⟨secret, curve, publicKey⟩ else none

def ofDer? (bs : Bytes) : Option PrivateKeyDocument :=
  if bs.length < sizeBound then do ofContents? (← Der.only? Der.sequenceTag bs) else none

def optionalField (tag : UInt8) (contents : Option Bytes) : Bytes :=
  match contents with
  | none => []
  | some bs => Der.element tag bs

def toDer (d : PrivateKeyDocument) : Bytes :=
  Der.element Der.sequenceTag
    (Der.natural 1 ++ Der.element Der.octetStringTag d.secret ++
      optionalField curveTag (d.curve.map (Der.element Der.objectIdentifierTag)) ++
      optionalField publicKeyTag (d.publicKey.map fun key => Der.element Der.bitStringTag (0 :: key)))

end PrivateKeyDocument

end KeyTree
