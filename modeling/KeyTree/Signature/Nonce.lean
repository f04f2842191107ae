import KeyTree.Curve.Point
import KeyTree.Hash.Hmac
/-!
Deterministic nonces: a keyed generator seeded with the secret, the hash that is signed and
optional extra data, from which candidates are drawn until one is usable.
-/

set_option autoImplicit false
set_option relaxedAutoImplicit false

namespace KeyTree.Nonce

open Curve

structure Generator where
  key : Octets 32
  value : Octets 32

namespace Generator

/-- Mix data into the state, set apart by a separator byte. -/
def mix (g : Generator) (separator : UInt8) (data : Bytes) : Generator :=
  let key := hmacSha256 g.key.toList (g.value.toList ++ separator :: data)
  ⟨key, hmacSha256 key.toList g.value.toList⟩

def seed (secret hash : Octets 32) (extra : Bytes) : Generator :=
  let data := secret.toList ++ hash.toList ++ extra
  let start : Generator := ⟨Octets.zero 32, ⟨List.replicate 32 1, rfl⟩⟩
  (start.mix 0 data).mix 1 data

def next (g : Generator) : Octets 32 × Generator :=
  let value := hmacSha256 g.key.toList g.value.toList
  (value, (Generator.mk g.key value).mix 0 [])

/-- The first usable scalar among the next `attempts` candidates. -/
def scalar? (g : Generator) : Nat → Option Scalar
  | 0 => none
  | attempts + 1 =>
      let (candidate, g) := g.next
      match Residue.ofOctets? order candidate with
      | some k => if k = 0 then g.scalar? attempts else some k
      | none => g.scalar? attempts

end Generator

/-- Candidates looked at before giving up; even a second one is needed less than once in 2^127
times. -/
def maxAttempts : Nat := 64

/-- The extra data of a test case: none for zero, else four bytes, least significant first, and
zeros up to 32. -/
def extraData (testCase : UInt32) : Bytes :=
  if testCase = 0 then [] else Bytes.littleEndian 32 testCase.toNat

def derive? (secret : Scalar) (hash : Octets 32) (testCase : UInt32) : Option Scalar :=
  (Generator.seed (secret.toOctets 32) hash (extraData testCase)).scalar? maxAttempts

end KeyTree.Nonce
