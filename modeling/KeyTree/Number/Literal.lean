import KeyTree.Number.Double
import KeyTree.Numeral
/-!
Numbers as they are written in data documents, and the numbers in double precision that they are
read as.

Reading is quick rather than exact: as many leading digits as 64 bits hold are rounded first, and
the result is rounded again when it is multiplied or divided by a power of ten.
-/

set_option autoImplicit false
set_option relaxedAutoImplicit false

namespace KeyTree

/-- A written number: its sign, the digits before the point, and what may follow them. -/
structure NumberLiteral where
  negative : Bool
  whole : List Nat
  fraction : Option (List Nat)
  exponent : Option Int
deriving DecidableEq

namespace NumberLiteral

/-- The digits at the front of a text, at least one, and the text after them. -/
def readDigits? (cs : List Char) : Option (List Nat × List Char) :=
  match cs.span fun c => (Numeral.decimalDigit? c).isSome with
  | ([], _) => none
  | (digits, rest) => some (digits.filterMap Numeral.decimalDigit?, rest)

def readFraction? : List Char → Option (Option (List Nat) × List Char)
  | '.' :: rest => (readDigits? rest).map fun (digits, rest) => (some digits, rest)
  | rest => some (none, rest)

def readPower? : List Char → Option (Int × List Char)
  | '-' :: rest => (readDigits? rest).map fun (digits, rest) =>
      (-(Int.ofNat (Numeral.ofDigits 10 digits)), rest)
  | '+' :: rest => (readDigits? rest).map fun (digits, rest) =>
      (Int.ofNat (Numeral.ofDigits 10 digits), rest)
  | rest => (readDigits? rest).map fun (digits, rest) =>
      (Int.ofNat (Numeral.ofDigits 10 digits), rest)

def readExponent? : List Char → Option (Option Int × List Char)
  | 'e' :: rest => (readPower? rest).map fun (e, rest) => (some e, rest)
  | 'E' :: rest => (readPower? rest).map fun (e, rest) => (some e, rest)
  | rest => some (none, rest)

def readUnsigned? (negative : Bool) (cs : List Char) : Option NumberLiteral := do
  let (whole, rest) ← readDigits? cs
  let (fraction, rest) ← readFraction? rest
  let (exponent, rest) ← readExponent? rest
  if rest.isEmpty then some ⟨negative, whole, fraction, exponent⟩ else none

def ofText? (s : String) : Option NumberLiteral :=
  match s.toList with
  | '-' :: cs => readUnsigned? true cs
  | cs => readUnsigned? false cs

/-- The integer that a number without point and exponent stands for, if it fits in 64 bits, with a
sign bit if it is negative.  Zero with a sign is no integer. -/
def integer? (n : NumberLiteral) : Option Int :=
  if n.fraction.isSome ∨ n.exponent.isSome then none
  else if n.negative then
    match Numeral.ofDigitsBelow? 10 0x8000000000000001 n.whole with
    | some v => if v = 0 then none else some (-(Int.ofNat v))
    | none => none
  else (Numeral.ofDigitsBelow? 10 0x10000000000000000 n.whole).map Int.ofNat

/-- Append digits to a value while it fits in 64 bits; the answer is the value and the digits that
are left. -/
def gather : Nat → List Nat → Nat × List Nat
  | v, [] => (v, [])
  | v, d :: ds =>
      let next := Numeral.pushValue 10 v d
      if next < 0x10000000000000000 then gather next ds else (v, d :: ds)

/-- The largest power of ten that is multiplied or divided by at once. -/
def greatestPower : Nat := 308

/-- A magnitude divided by ten to the `e`, by the largest powers first. -/
def divideByPower? (m : Magnitude) (e : Nat) : Option Magnitude :=
  if m = .zero then some m
  else if greatestPower < e then do
    let smaller ← m.div? (← Magnitude.powerOfTen? greatestPower)
    divideByPower? smaller (e - greatestPower)
  else do
    m.div? (← Magnitude.powerOfTen? e)
termination_by e
decreasing_by simp only [greatestPower] at *; omega

/-- A magnitude times ten to the `e`.  No number that a text stands for is multiplied by more than
the greatest power: the result would be too large. -/
def scale? (m : Magnitude) (e : Int) : Option Magnitude :=
  if m = .zero then some m
  else if e < 0 then divideByPower? m e.natAbs
  else if greatestPower < e.natAbs then none
  else do
    m.mul? (← Magnitude.powerOfTen? e.natAbs)

/-- The number in double precision that the literal is read as; fails if it is too large. -/
def double? (n : NumberLiteral) : Option Double := do
  let (v, skipped) := gather 0 n.whole
  let fraction := n.fraction.getD []
  let (v, ignored) := gather v fraction
  let places := fraction.length - ignored.length
  let e := Int.ofNat skipped.length - Int.ofNat places + n.exponent.getD 0
  let magnitude ← scale? (← Magnitude.ofNat? v) e
  return ⟨n.negative, magnitude⟩

end NumberLiteral

end KeyTree
