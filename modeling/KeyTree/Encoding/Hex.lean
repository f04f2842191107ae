import KeyTree.Bytes
import KeyTree.Text.Quoted
/-!
Hexadecimal text: two digits for each byte, written in lower case and read in either case.
-/

set_option autoImplicit false
set_option relaxedAutoImplicit false

namespace KeyTree.Hex

inductive Error where
  | oddLength
  /-- The byte at this position of the text is no digit; it is shown as the character of that
  code point. -/
  | invalidCharacter (shown : Char) (position : Nat)
deriving DecidableEq

def Error.message : Error → String
  | .oddLength => "Odd number of digits"
  | .invalidCharacter shown position =>
      "Invalid character " ++ Text.quoteChar shown ++ " at position " ++ toString position

def digitChar (v : UInt8) : Char :=
  if v < 10 then Char.ofNat (48 + v.toNat) else Char.ofNat (87 + v.toNat)

/-- The value of a digit, given as the byte that writes it. -/
def digit? (b : UInt8) : Option UInt8 :=
  if 48 ≤ b ∧ b ≤ 57 then some (b - 48)
  else if 97 ≤ b ∧ b ≤ 102 then some (b - 87)
  else if 65 ≤ b ∧ b ≤ 70 then some (b - 55)
  else none

def encodeChars (bs : Bytes) : List Char :=
  bs.flatMap fun (b : UInt8) => [digitChar (b >>> 4), digitChar (b &&& 15)]

def encode (bs : Bytes) : String :=
  String.ofList (encodeChars bs)

def digitAt (position : Nat) (b : UInt8) : Except Error UInt8 :=
  match digit? b with
  | some v => .ok v
  | none => .error (.invalidCharacter (Char.ofNat b.toNat) position)

/-- Read digits two by two from `position` on; the first bad one is reported. -/
def decodeFrom (position : Nat) : Bytes → Except Error Bytes
  | [] => .ok []
  | [_] => .error .oddLength
  | high :: low :: rest => do
      let h ← digitAt position high
      let l ← digitAt (position + 1) low
      let tail ← decodeFrom (position + 2) rest
      return ((h <<< 4) ||| l) :: tail

/-- Read a hexadecimal text.  An odd number of bytes is reported before any bad digit. -/
def decode (s : String) : Except Error Bytes :=
  let written := Bytes.ofText s
  if written.length % 2 = 1 then .error .oddLength else decodeFrom 0 written

/-- The low `width` hexadecimal digits of `v`, after `0x`. -/
def literal (width v : Nat) : String :=
  let ds := Numeral.digits 16 v
  String.ofList ('0' :: 'x' :: List.replicate (width - ds.length) '0' ++
    ds.map fun d => digitChar (UInt8.ofNat d))

end KeyTree.Hex
