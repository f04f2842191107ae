/-!
Numbers in double precision: a sign, and 53 significant bits times a power of two.

Magnitudes are counted in units of the smallest positive one, two to the power -1074, so that each
of them is a natural number of units.
-/

set_option autoImplicit false
set_option relaxedAutoImplicit false

namespace KeyTree

/-- A magnitude of `significand` times two to the `shift` units.  The significand has at most 53
bits, and exactly as many unless the shift is zero. -/
structure Magnitude where
  significand : Nat
  shift : Nat
deriving DecidableEq

namespace Magnitude

def zero : Magnitude := ⟨0, 0⟩

/-- How many units make one. -/
def unitsOfOne : Nat := 1 <<< 1074

def leastFull : Nat := 1 <<< 52

/-- The shift of the largest magnitudes. -/
def greatestShift : Nat := 2045

def units (m : Magnitude) : Nat :=
  m.significand <<< m.shift

/-- The natural number nearest to a quotient; of two equally near ones the even one. -/
def divideToEven (a b : Nat) : Nat :=
  let floor := a / b
  let twice := 2 * (a % b)
  if b < twice ∨ (twice = b ∧ floor % 2 = 1) then floor + 1 else floor

/-- The magnitude nearest to a quotient of units; of two equally near ones that with the even
significand.  Fails if it is too large. -/
def nearest? (a b : Nat) : Option Magnitude :=
  let shift := (a / b).log2 - 52
  let significand := divideToEven a (b <<< shift)
  let m : Magnitude :=
    if significand = 2 * leastFull then ⟨leastFull, shift + 1⟩ else ⟨significand, shift⟩
  if m.shift ≤ greatestShift then some m else none

def ofNat? (n : Nat) : Option Magnitude :=
  nearest? (n * unitsOfOne) 1

def powerOfTen? (e : Nat) : Option Magnitude :=
  ofNat? (Nat.pow 10 e)

def mul? (a b : Magnitude) : Option Magnitude :=
  nearest? (a.units * b.units) unitsOfOne

/-- The magnitude nearest to a quotient by one that is not zero. -/
def div? (a b : Magnitude) : Option Magnitude :=
  nearest? (a.units * unitsOfOne) b.units

end Magnitude

/-- A number in double precision; zero has a sign too. -/
structure Double where
  negative : Bool
  magnitude : Magnitude
deriving DecidableEq

end KeyTree
