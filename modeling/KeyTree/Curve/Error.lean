import KeyTree.Encoding.Hex
/-!
What can go wrong with keys and signatures on the curve, and the wording of each case: for a user
(`message`), and for a developer (`describe`), where the case is named and texts are quoted.
-/

set_option autoImplicit false
set_option relaxedAutoImplicit false

namespace KeyTree

inductive PublicKeyFault where
  | tag (found : UInt8)
  | notOnCurve
  | hex (fault : Hex.Error)
deriving DecidableEq

inductive SignatureFault where
  | elementOutOfRange
  | header (found : UInt8)
  | tooLong (limit actual : Nat)
  | hex (fault : Hex.Error)
  | unverified
deriving DecidableEq

inductive CurveError where
  | invalidLength (expected actual : Nat)
  | secretOutOfRange
  | invalidPublicKey (fault : PublicKeyFault)
  | invalidSignature (fault : SignatureFault)
  | invalidRecoveryId (id : UInt8)
  | malformedDocument
  | oversizedSecret (length : Nat)
  | inconsistentDocument
  | tweakOutOfRange
  | tweakToIdentity
  | missingSecret
  | missingPublic
  | unusableNonce
  | lowFormRefused
  | recoveryFailed
  | entropyExhausted
  | noScalarDrawn
  | brokenInvariant (what : String)
deriving DecidableEq

def PublicKeyFault.message : PublicKeyFault → String
  | .tag found => "unexpected encoding tag " ++ Hex.literal 2 found.toNat
  | .notOnCurve => "signature error"
  | .hex fault => fault.message

def SignatureFault.message : SignatureFault → String
  | .elementOutOfRange => "r or s outside [1, n)"
  | .header found => "Invalid compact header byte " ++ Hex.literal 2 found.toNat
  | .tooLong limit actual =>
      "Expected at most " ++ toString limit ++ " bytes, got " ++ toString actual
  | .hex fault => fault.message
  | .unverified => "self-signed signature does not verify"

/-- The wording for a buffer of the wrong length, wherever it is met. -/
def lengthMessage (expected actual : Nat) : String :=
  "Invalid length: expected " ++ toString expected ++ ", got " ++ toString actual

def CurveError.message : CurveError → String
  | .invalidLength expected actual => lengthMessage expected actual
  | .secretOutOfRange => "Invalid secret key: scalar outside [1, n)"
  | .invalidPublicKey fault => "Invalid public key: " ++ fault.message
  | .invalidSignature fault => "Invalid signature: " ++ fault.message
  | .invalidRecoveryId id => "Invalid recovery id: " ++ toString id.toNat
  | .malformedDocument => "Invalid private key encoding: malformed document"
  | .oversizedSecret length =>
      "Invalid private key encoding: private key is " ++ toString length ++ " bytes"
  | .inconsistentDocument => "Private key blob failed the consistency check"
  | .tweakOutOfRange => "Tweak is not below the curve order"
  | .tweakToIdentity => "Tweak produced the identity"
  | .missingSecret => "No secret key loaded"
  | .missingPublic => "No public key loaded"
  | .unusableNonce => "Signing failed: signature error"
  | .lowFormRefused => "Signing failed: low-S rewrite failed: signature error"
  | .recoveryFailed => "Public key recovery failed"
  | .entropyExhausted => "Randomness source failed: no more bytes"
  | .noScalarDrawn => "Randomness source failed: no valid scalar drawn"
  | .brokenInvariant what => "curve engine invariant violated: " ++ what

def describeText (name detail : String) : String :=
  name ++ "(" ++ Text.quote detail ++ ")"

def describeLength (expected actual : Nat) : String :=
  "InvalidLength \x7b expected: " ++ toString expected ++ ", actual: " ++ toString actual ++
    " \x7d"

/-- A broken invariant stops the process with its message, so it is shown as that. -/
def CurveError.describe : CurveError → String
  | .invalidLength expected actual => describeLength expected actual
  | .secretOutOfRange => describeText "InvalidSecretKey" "scalar outside [1, n)"
  | .invalidPublicKey fault => describeText "InvalidPublicKey" fault.message
  | .invalidSignature fault => describeText "InvalidSignature" fault.message
  | .invalidRecoveryId id => "InvalidRecoveryId(" ++ toString id.toNat ++ ")"
  | .malformedDocument => describeText "InvalidPrivateKeyEncoding" "malformed document"
  | .oversizedSecret length =>
      describeText "InvalidPrivateKeyEncoding" ("private key is " ++ toString length ++ " bytes")
  | .inconsistentDocument => "InconsistentKey"
  | .tweakOutOfRange => "TweakOutOfRange"
  | .tweakToIdentity => "TweakIdentity"
  | .missingSecret => "MissingSecret"
  | .missingPublic => "MissingPublic"
  | .unusableNonce => describeText "SigningFailed" "signature error"
  | .lowFormRefused => describeText "SigningFailed" "low-S rewrite failed: signature error"
  | .recoveryFailed => "RecoveryFailed"
  | .entropyExhausted => describeText "RandomnessError" "no more bytes"
  | .noScalarDrawn => describeText "RandomnessError" "no valid scalar drawn"
  | .brokenInvariant what => (CurveError.brokenInvariant what).message

end KeyTree
