import KeyTree.Engine.Entropy
import KeyTree.Key.Pair
import KeyTree.Tree.ChainCode
/-!
Secret keys: 32 bytes that may hold a usable secret, with the encoding its public key is to have.

A key starts out invalid.  Every operation that loads bytes checks their range, and an invalid
key holds zeros.
-/

set_option autoImplicit false
set_option relaxedAutoImplicit false

namespace KeyTree

/-- The bytes of a key, whether they are a usable secret, and whether the public key is to be
compressed. -/
structure SecretKey where
  valid : Bool
  compressed : Bool
  data : Octets 32

namespace SecretKey

def empty : SecretKey := ⟨false, false, Octets.zero 32⟩

/-- The key after loading bytes: valid exactly if they are 32 bytes in range.  An invalid key
keeps its encoding flag and is cleared. -/
def loadBytes (k : SecretKey) (bs : Bytes) (compressed : Bool) : SecretKey :=
  match Octets.ofList? 32 bs with
  | some o =>
      if Curve.inElementRange bs false then ⟨true, compressed, o⟩
      else ⟨false, k.compressed, Octets.zero 32⟩
  | none => ⟨false, k.compressed, Octets.zero 32⟩

def setBytes (bs : Bytes) (compressed : Bool) : StateM SecretKey Bool := do
  modify fun k => k.loadBytes bs compressed
  return (← get).valid

def ofBytes (bs : Bytes) (compressed : Bool) : Except TreeError SecretKey :=
  let k := empty.loadBytes bs compressed
  if k.valid then .ok k else .error .invalidSecretKey

/-- Replace the key by one drawn at random; the answer is what remains of the supply. -/
def generate (source : Entropy) (compressed : Bool) : Update SecretKey TreeError Entropy := do
  let (secret, rest) ← Update.ofExcept (liftCurve source.drawSecret)
  set (SecretKey.mk true compressed secret)
  return rest

def size (k : SecretKey) : Nat :=
  if k.valid then 32 else 0

/-- The bytes of a valid key; an invalid one shows none. -/
def toBytes (k : SecretKey) : Bytes :=
  k.data.toList.take k.size

/-- Keys are equal when they show the same bytes and ask for the same encoding. -/
instance : BEq SecretKey :=
  ⟨fun a b => a.compressed == b.compressed && a.toBytes == b.toBytes⟩

def keyPair (k : SecretKey) : Except TreeError KeyPair :=
  if k.valid then liftCurve (KeyPair.ofSecret k.data) else .error .invalidSecretKey

def publicKey (k : SecretKey) : Except TreeError PublicKey := do
  let pair ← k.keyPair
  liftCurve (pair.publicKey k.compressed)

/-- Sign a hash with the nonce that a rule gives for the secret. -/
def signBy (nonceOf : Curve.Scalar → Option Curve.Scalar) (k : SecretKey) (hash : Octets 32) :
    Except TreeError Bytes := do
  let pair ← k.keyPair
  liftCurve (pair.signBy nonceOf hash)

/-- Sign a hash.  Each test case gives a nonce of its own; zero is the plain signature. -/
def sign (k : SecretKey) (hash : Octets 32) (testCase : UInt32) : Except TreeError Bytes :=
  k.signBy (fun d => Nonce.derive? d hash testCase) hash

def signCompactBy (nonceOf : Curve.Scalar → Option Curve.Scalar) (k : SecretKey)
    (hash : Octets 32) : Except TreeError CompactSignature := do
  let pair ← k.keyPair
  let (raw, id) ← liftCurve (pair.signCompactBy nonceOf hash)
  liftCurve (CompactSignature.ofParts ⟨raw, id.toByte, k.compressed⟩)

def signCompact (k : SecretKey) (hash : Octets 32) : Except TreeError CompactSignature :=
  k.signCompactBy (fun d => Nonce.derive? d hash 0) hash

def hardenedMessage (secret : Octets 32) (index : UInt32) : Bytes :=
  0 :: secret.toList ++ Bytes.bigEndian 4 index.toNat

def plainMessage (point : Octets 33) (index : UInt32) : Bytes :=
  point.toList ++ Bytes.bigEndian 4 index.toNat

def derivationMessage (k : SecretKey) (index : UInt32) : Except TreeError Bytes := do
  let pair ← k.keyPair
  if isHardened index then return hardenedMessage k.data index
  else
    let key ← liftCurve (pair.publicKey true)
    return plainMessage key.toCompressed index

/-- The two halves of the keyed hash of a message: the tweak and the child's chain code. -/
def derivationHash (chainCode : ChainCode) (message : Bytes) : Octets 32 × ChainCode :=
  let digest := hmacSha512 chainCode.toBytes message
  (digest.take (n := 32) 32, ⟨digest.drop (n := 32) 32⟩)

def derivationError (index : UInt32) : CurveError → TreeError
  | .tweakOutOfRange => .derivationFailed index
  | .tweakToIdentity => .derivationFailed index
  | fault => .curve fault

def derive (k : SecretKey) (index : UInt32) (chainCode : ChainCode) :
    Except TreeError (SecretKey × ChainCode) := do
  let message ← k.derivationMessage index
  let (tweak, childCode) := derivationHash chainCode message
  let secret ← (KeyPair.tweakSecret k.data tweak).mapError (derivationError index)
  let child ← ofBytes secret.toList true
  return (child, childCode)

/-- The text before the candidate in the message that is signed to verify a public key. -/
def verificationText : String := "coinkey key verification\n"

def verificationHash (candidate : PublicKey) : Octets 32 :=
  doubleSha256 (Bytes.ofText verificationText ++ candidate.toBytes)

/-- Whether a public key belongs to this key, by signatures with the nonce that a rule gives.  A
hash bound to the candidate is signed; the compact signature must recover the candidate and the
plain one must be good for it. -/
def verifiesPublicKeyBy (nonceOf : Curve.Scalar → Option Curve.Scalar) (k : SecretKey)
    (candidate : PublicKey) : Bool :=
  if k.valid && candidate.compressed == k.compressed then
    let hash := verificationHash candidate
    match k.signCompactBy nonceOf hash with
    | .error _ => false
    | .ok compact =>
        match compact.recover hash with
        | .error _ => false
        | .ok signer =>
            if signer = candidate then
              match k.signBy nonceOf hash with
              | .error _ => false
              | .ok der => (KeyPair.ofPublicKey candidate).verifies hash der
            else false
  else false

def verifiesPublicKey (k : SecretKey) (candidate : PublicKey) : Bool :=
  k.verifiesPublicKeyBy (fun d => Nonce.derive? d (verificationHash candidate) 0) candidate

def toDer (k : SecretKey) : Except TreeError Bytes := do
  let pair ← k.keyPair
  liftCurve (pair.toDer k.compressed)

def ofDer (der : Bytes) (compressed skipCheck : Bool) : Except TreeError SecretKey := do
  let pair ← liftCurve (KeyPair.ofDer der skipCheck)
  let secret ← liftCurve pair.secretOctets
  ofBytes secret.toList compressed

def setDer (der : Bytes) (compressed skipCheck : Bool) : Update SecretKey TreeError Unit := do
  let key ← Update.ofExcept (ofDer der compressed skipCheck)
  set key

/-- Replace the key by the one in a private key document that belongs to a public key.  Unless
`skipCheck` is set, the public key is verified. -/
def load (der : Bytes) (expected : PublicKey) (skipCheck : Bool) :
    Update SecretKey TreeError Unit := do
  let key ← Update.ofExcept (ofDer der expected.compressed skipCheck)
  if !skipCheck && !key.verifiesPublicKey expected then throw .publicKeyMismatch
  set key

def describe (k : SecretKey) : String :=
  "SecretKey \x7b valid: " ++ toString k.valid ++ ", compressed: " ++ toString k.compressed ++
    ", data: \"[REDACTED]\" \x7d"

end SecretKey

end KeyTree
