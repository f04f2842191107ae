import KeyTree.Key.Document
import KeyTree.Key.Public
import KeyTree.Signature.Ecdsa
import KeyTree.Signature.Forms
import KeyTree.Signature.Nonce
import KeyTree.Update
/-!
Key pairs: a secret and a public point, either of which may be absent.

Signing needs the secret.  Verifying and tweaking need the public point, and whatever replaces
the public point drops the secret or brings the one that belongs to it.
-/

set_option autoImplicit false
set_option relaxedAutoImplicit false

namespace KeyTree

open Curve

structure KeyPair where
  secret : Option Scalar
  publicPoint : Option Affine
deriving DecidableEq

namespace KeyPair

def empty : KeyPair := ⟨none, none⟩

def secretOf (o : Octets 32) : Except CurveError Scalar :=
  match Residue.ofOctets? order o with
  | some d => if d = 0 then .error .secretOutOfRange else .ok d
  | none => .error .secretOutOfRange

def tweakOf (o : Octets 32) : Except CurveError Scalar :=
  match Residue.ofOctets? order o with
  | some t => .ok t
  | none => .error .tweakOutOfRange

def ofScalar (d : Scalar) : KeyPair :=
  ⟨some d, (generator.times d).affine?⟩

def ofSecret (o : Octets 32) : Except CurveError KeyPair :=
  (secretOf o).map ofScalar

def ofPublicKey (k : PublicKey) : KeyPair := ⟨none, some k.point⟩

def hasSecret (p : KeyPair) : Bool :=
  p.secret.isSome

def needSecret (p : KeyPair) : Except CurveError Scalar :=
  match p.secret with
  | some d => .ok d
  | none => .error .missingSecret

def needPublic (p : KeyPair) : Except CurveError Affine :=
  match p.publicPoint with
  | some P => .ok P
  | none => .error .missingPublic

def setSecret (o : Octets 32) : Update KeyPair CurveError Unit := do
  let d ← Update.ofExcept (secretOf o)
  set (ofScalar d)

/-- Replace the public point; the secret is dropped. -/
def setPublicKey (_ : KeyPair) (k : PublicKey) : KeyPair :=
  ofPublicKey k

def secretOctets (p : KeyPair) : Except CurveError (Octets 32) := do
  let d ← p.needSecret
  return d.toOctets 32

def publicKey (p : KeyPair) (compressed : Bool) : Except CurveError PublicKey := do
  let P ← p.needPublic
  return ⟨P, compressed⟩

def document (p : KeyPair) (compressed : Bool) : Except CurveError PrivateKeyDocument := do
  let secret ← p.secretOctets
  let key ← p.publicKey compressed
  return ⟨secret.toList, some PrivateKeyDocument.secp256k1, some key.toBytes⟩

def toDer (p : KeyPair) (compressed : Bool) : Except CurveError Bytes := do
  return (← p.document compressed).toDer

/-- Whether what a document says about its curve and its public key fits the public point. -/
def fits (d : PrivateKeyDocument) (point : Option Affine) : Bool :=
  (match d.curve with
    | some curve => curve == PrivateKeyDocument.secp256k1
    | none => true) &&
  (match d.publicKey with
    | some bs =>
        match PublicKey.ofBytes bs with
        | .ok k => point == some k.point
        | .error _ => false
    | none => true)

/-- The pair in the bytes of a private key document.  A secret of fewer than 32 bytes is filled
up with zeros at the front.  Unless `skipCheck` is set, the other fields must fit the secret. -/
def ofDer (der : Bytes) (skipCheck : Bool) : Except CurveError KeyPair :=
  match PrivateKeyDocument.ofDer? der with
  | none => .error .malformedDocument
  | some d =>
      match Octets.padLeft? 32 d.secret with
      | none => .error (.oversizedSecret d.secret.length)
      | some secret => do
          let pair ← ofSecret secret
          if skipCheck || fits d pair.publicPoint then .ok pair
          else .error .inconsistentDocument

def setDer (der : Bytes) (skipCheck : Bool) : Update KeyPair CurveError Unit := do
  let pair ← Update.ofExcept (ofDer der skipCheck)
  set pair

/-- Sign a hash with the nonce that a rule gives for the secret; the signature is low. -/
def signatureBy (nonceOf : Scalar → Option Scalar) (p : KeyPair) (hash : Octets 32) :
    Except CurveError Signature := do
  let d ← p.needSecret
  match (nonceOf d).bind fun nonce => Ecdsa.sign? d nonce hash with
  | none => .error .unusableNonce
  | some σ => σ.enforceLow

def signBy (nonceOf : Scalar → Option Scalar) (p : KeyPair) (hash : Octets 32) :
    Except CurveError Bytes := do
  return (← p.signatureBy nonceOf hash).toDer

/-- Sign a hash and encode the signature.  Each test case gives a nonce of its own. -/
def sign (p : KeyPair) (hash : Octets 32) (testCase : UInt32) : Except CurveError Bytes :=
  p.signBy (fun d => Nonce.derive? d hash testCase) hash

/-- Whether an encoded signature of a hash, low or not, is good for the public point.  Without a
public point, or for bytes that are no signature, the answer is no. -/
def verifies (p : KeyPair) (hash : Octets 32) (der : Bytes) : Bool :=
  match p.publicPoint, Signature.ofDer? der with
  | some Q, some σ =>
      match σ.enforceLow with
      | .ok low => Ecdsa.verifies Q hash low
      | .error _ => false
  | _, _ => false

/-- The first id that recovers the public point from a signature of a hash. -/
def recoveryIdOf (p : KeyPair) (hash : Octets 32) (σ : Signature) :
    Except CurveError Ecdsa.RecoveryId := do
  let own ← p.needPublic
  match Ecdsa.RecoveryId.all.find? fun id => Ecdsa.recover? hash σ id == some own with
  | some id => .ok id
  | none => .error (.brokenInvariant "compact signature does not recover its own key")

def signCompactBy (nonceOf : Scalar → Option Scalar) (p : KeyPair) (hash : Octets 32) :
    Except CurveError (Octets 64 × Ecdsa.RecoveryId) := do
  let σ ← p.signatureBy nonceOf hash
  return (σ.toRaw, ← p.recoveryIdOf hash σ)

def signCompact (p : KeyPair) (hash : Octets 32) :
    Except CurveError (Octets 64 × Ecdsa.RecoveryId) :=
  p.signCompactBy (fun d => Nonce.derive? d hash 0) hash

/-- The public point that a signature of a hash is good for.  The signature may be low or not;
the id three is refused. -/
def recover (hash : Octets 32) (raw : Octets 64) (recoveryId : UInt8) :
    Except CurveError KeyPair :=
  match (if recoveryId < 3 then Ecdsa.RecoveryId.ofByte? recoveryId else none) with
  | none => .error (.invalidRecoveryId recoveryId)
  | some id =>
      match Signature.ofRaw? raw with
      | none => .error (.invalidSignature .elementOutOfRange)
      | some σ => do
          let low ← σ.enforceLow
          match Ecdsa.recover? hash low (if low = σ then id else id.opposite) with
          | none => throw .recoveryFailed
          | some Q => return ⟨none, some Q⟩

def tweakSecret (secret tweak : Octets 32) : Except CurveError (Octets 32) := do
  let d ← secretOf secret
  let t ← tweakOf tweak
  if d + t = 0 then .error .tweakToIdentity else .ok ((d + t).toOctets 32)

/-- The coordinates of a point that is to be a public key; the identity has none. -/
def keyPointOf : Point → Except CurveError Affine
  | .infinity => .error (.invalidPublicKey .notOnCurve)
  | .affine Q => .ok Q

/-- Add the tweak's multiple of the generator to the public point; the secret is dropped. -/
def tweakPublic (tweak : Octets 32) : Update KeyPair CurveError Unit := do
  let P ← Update.ofExcept (← get).needPublic
  let t ← Update.ofExcept (tweakOf tweak)
  let sum := Point.affine P + generator.times t
  if sum = .infinity then throw .tweakToIdentity
  else
    let Q ← Update.ofExcept (keyPointOf sum)
    set (KeyPair.mk none (some Q))

def describe (p : KeyPair) : String :=
  let secret := if p.hasSecret then "Some(\"[REDACTED]\")" else "None"
  let key := match p.publicPoint with
    | some P => "Some(" ++ Text.quote (PublicKey.mk P true).toHex ++ ")"
    | none => "None"
  "CurveKeyPair \x7b secret: " ++ secret ++ ", public: " ++ key ++ " \x7d"

end KeyPair

/-- The signer of a hash, in the encoding that the header asks for. -/
def CompactSignature.recover (c : CompactSignature) (hash : Octets 32) :
    Except CurveError PublicKey := do
  let parts ← c.parts
  let signer ← KeyPair.recover hash parts.raw parts.recoveryId
  signer.publicKey parts.compressed

end KeyTree
