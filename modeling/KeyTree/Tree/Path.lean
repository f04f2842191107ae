import KeyTree.Encoding.Hex
import KeyTree.Text.Blank
/-!
Derivation paths: the child indexes from the root to a key, written like `m/44'/0`.

The lower half of the indexes are plain and the upper half hardened; a hardened index is written
as its offset in the upper half with a mark after it.
-/

set_option autoImplicit false
set_option relaxedAutoImplicit false

namespace KeyTree

/-- The first hardened index. -/
def hardenedBit : UInt32 := 0x80000000

/-- Whether an index is in the upper half. -/
def isHardened (index : UInt32) : Bool :=
  index &&& hardenedBit != 0

namespace Text

/-- The parts of a text between separators; there is always one more than separators. -/
def split (separator : Char) : List Char → List (List Char)
  | [] => [[]]
  | c :: rest =>
      if c = separator then [] :: split separator rest
      else
        match split separator rest with
        | part :: parts => (c :: part) :: parts
        | [] => [[c]]

/-- A number below `bound` with an optional plus sign before its digits. -/
def signedNumber? (bound : Nat) : List Char → Option Nat
  | '+' :: digits => Numeral.ofDecimalBelow? bound digits
  | digits => Numeral.ofDecimalBelow? bound digits

end Text

/-- The indexes in order from the root. -/
structure Path where
  indexes : List UInt32
deriving DecidableEq

namespace Path

inductive Error where
  | missingRoot (text : String)
  | badIndex (part : String)
  | outOfRange (index : Nat)
deriving DecidableEq

def Error.message : Error → String
  | .missingRoot text => Text.quote text ++ " does not start at m"
  | .badIndex part => "bad index " ++ Text.quote part
  | .outOfRange index => "index " ++ toString index ++ " out of range"

def root : Path := ⟨[]⟩

def child (p : Path) (index : UInt32) : Path :=
  ⟨p.indexes ++ [index]⟩

/-- The characters that mark a hardened step. -/
def isMark (c : Char) : Bool :=
  c == '\x27' || c == 'h' || c == 'H'

/-- The digits of a step and whether a mark follows them. -/
def splitMark (part : List Char) : List Char × Bool :=
  match part.getLast? with
  | some c => if isMark c then (part.dropLast, true) else (part, false)
  | none => (part, false)

/-- What the numbers lie below that a step can be read as. -/
def stepBound : Nat := 0x100000000

def readStep (part : List Char) : Except Error UInt32 :=
  let (digits, marked) := splitMark part
  match Text.signedNumber? stepBound digits with
  | none => .error (.badIndex (String.ofList part))
  | some index =>
      if 0x80000000 ≤ index then .error (.outOfRange index)
      else .ok (if marked then UInt32.ofNat index ||| hardenedBit else UInt32.ofNat index)

/-- Read the steps of a path in order; the first bad one is reported. -/
def readSteps : List (List Char) → Except Error (List UInt32)
  | [] => .ok []
  | part :: parts => do
      let index ← readStep part
      let indexes ← readSteps parts
      return index :: indexes

/-- Read a path.  White space at both ends is passed over. -/
def parse (s : String) : Except Error Path :=
  match Text.split '/' (Text.trim s.toList) with
  | ['m'] :: steps => (readSteps steps).map Path.mk
  | _ => .error (.missingRoot s)

def stepChars (index : UInt32) : List Char :=
  if isHardened index then
    '/' :: Numeral.decimal (index &&& ~~~hardenedBit).toNat ++ ['\x27']
  else '/' :: Numeral.decimal index.toNat

def text (p : Path) : String :=
  String.ofList ('m' :: p.indexes.flatMap stepChars)

def describe (p : Path) : String :=
  let items := p.indexes.map fun i => String.ofList (Numeral.decimal i.toNat)
  "DerivationPath([" ++ ", ".intercalate items ++ "])"

end Path

end KeyTree
