import KeyTree.Bytes
import KeyTree.Hash.Sha2
import KeyTree.Text.Quoted
/-!
Base58 text: a byte string as a number in 58 digits, after one `1` for each leading zero byte;
and Base58Check, which adds the first four bytes of a double hash.
-/

set_option autoImplicit false
set_option relaxedAutoImplicit false

namespace KeyTree.Base58

/-- Why a text is not in base 58; the position counts bytes. -/
inductive Error where
  | nonAscii (position : Nat)
  | invalidCharacter (found : Char) (position : Nat)
deriving DecidableEq

def Error.message : Error → String
  | .nonAscii position =>
      "provided string contained non-ascii character starting at byte " ++ toString position
  | .invalidCharacter found position =>
      "provided string contained invalid character " ++ Text.quoteChar found ++ " at byte " ++
        toString position

/-- The digits in order; zero, capital O, capital I and small l are left out. -/
def alphabet : List Char :=
  "123456789ABCDEFGHJKLMNPQRSTUVWXYZabcdefghijkmnopqrstuvwxyz".toList

def digitChar (digit : Nat) : Char :=
  alphabet.getD digit '1'

def digit? (c : Char) : Option Nat :=
  alphabet.idxOf? c

def encodeChars (bs : Bytes) : List Char :=
  List.replicate (bs.takeWhile (· == 0)).length '1' ++
    (Numeral.digits 58 (Bytes.bigEndianValue bs)).map digitChar

def encode (bs : Bytes) : String :=
  String.ofList (encodeChars bs)

/-- The digits of a text given as bytes, from `position` on; the first bad byte is reported. -/
def readDigits (position : Nat) : Bytes → Except Error (List Nat)
  | [] => .ok []
  | b :: rest =>
      if 128 ≤ b then .error (.nonAscii position)
      else
        match digit? (Char.ofNat b.toNat) with
        | none => .error (.invalidCharacter (Char.ofNat b.toNat) position)
        | some d => (readDigits (position + 1) rest).map (d :: ·)

def ofDigits (ds : List Nat) : Bytes :=
  List.replicate (ds.takeWhile (· == 0)).length 0 ++ Bytes.ofNat (Numeral.ofDigits 58 ds)

def decode (s : String) : Except Error Bytes :=
  (readDigits 0 (Bytes.ofText s)).map ofDigits

def checksum (payload : Bytes) : Bytes :=
  (doubleSha256 payload).toList.take 4

def encodeCheck (payload : Bytes) : String :=
  encode (payload ++ checksum payload)

end KeyTree.Base58
