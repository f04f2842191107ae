import KeyTree.Curve.Error
import KeyTree.Encoding.Base58
import KeyTree.Encoding.Stream
import KeyTree.Tree.Path
/-!
What can go wrong with keys and nodes, and the wording of each case for a user and for a developer.
-/

set_option autoImplicit false
set_option relaxedAutoImplicit false

namespace KeyTree

inductive LayoutFault where
  | privateMarker (found : UInt8)
  | publicMarker (found : UInt8)
  | publicKey (fault : CurveError)
  | frameSize (found expected : Nat)
deriving DecidableEq

def LayoutFault.message : LayoutFault → String
  | .privateMarker found => "private key marker is " ++ Hex.literal 2 found.toNat
  | .publicMarker found => "public key marker " ++ Hex.literal 2 found.toNat
  | .publicKey fault => fault.message
  | .frameSize found expected =>
      "framed size is " ++ toString found ++ ", expected " ++ toString expected

inductive TreeError where
  | curve (fault : CurveError)
  | stream (fault : StreamError)
  | invalidLength (expected actual : Nat)
  | invalidSecretKey
  | hardenedFromPublic (index : UInt32)
  | derivationFailed (index : UInt32)
  | invalidLayout (fault : LayoutFault)
  | invalidBase58 (fault : Base58.Error)
  | invalidChecksum
  | invalidVersion (found : UInt32)
  | invalidPath (fault : Path.Error)
  | publicKeyMismatch
deriving DecidableEq

def TreeError.message : TreeError → String
  | .curve fault => fault.message
  | .stream fault => "I/O error: " ++ fault.message
  | .invalidLength expected actual => lengthMessage expected actual
  | .invalidSecretKey => "Invalid secret key"
  | .hardenedFromPublic index =>
      "Cannot derive hardened child " ++ Hex.literal 8 index.toNat ++ " from a public key"
  | .derivationFailed index => "Derivation of child " ++ Hex.literal 8 index.toNat ++ " failed"
  | .invalidLayout fault => "Invalid extended key encoding: " ++ fault.message
  | .invalidBase58 fault => "Invalid Base58: " ++ fault.message
  | .invalidChecksum => "Invalid checksum"
  | .invalidVersion found => "Invalid version: " ++ Hex.literal 8 found.toNat
  | .invalidPath fault => "Invalid derivation path: " ++ fault.message
  | .publicKeyMismatch => "Public key does not match the secret key"

def StreamError.kind : StreamError → String
  | .shortInput => "UnexpectedEof"
  | .fullOutput => "WriteZero"

def StreamError.describe (fault : StreamError) : String :=
  "Error \x7b kind: " ++ fault.kind ++ ", message: " ++ Text.quote fault.message ++ " \x7d"

def TreeError.describe : TreeError → String
  | .curve fault => "Crypto(" ++ fault.describe ++ ")"
  | .stream fault => "Io(" ++ fault.describe ++ ")"
  | .invalidLength expected actual => describeLength expected actual
  | .invalidSecretKey => "InvalidSecretKey"
  | .hardenedFromPublic index => "HardenedFromPublic(" ++ toString index.toNat ++ ")"
  | .derivationFailed index => "DerivationFailed(" ++ toString index.toNat ++ ")"
  | .invalidLayout fault => describeText "InvalidEncoding" fault.message
  | .invalidBase58 fault => describeText "InvalidBase58" fault.message
  | .invalidChecksum => "InvalidChecksum"
  | .invalidVersion found => "InvalidVersion(" ++ toString found.toNat ++ ")"
  | .invalidPath fault => describeText "InvalidPath" fault.message
  | .publicKeyMismatch => "PublicKeyMismatch"

def liftCurve {α : Type} (result : Except CurveError α) : Except TreeError α :=
  result.mapError .curve

end KeyTree
