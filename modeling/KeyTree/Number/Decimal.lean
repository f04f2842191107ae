import KeyTree.Number.Double
import KeyTree.Numeral
/-!
Decimal texts of numbers in double precision: the fewest digits that read back, and of those the
nearest to the number.

A decimal reads back if it lies halfway or less to each neighbour of the number, counting the
halfway points only if the significand is even.
-/

set_option autoImplicit false
set_option relaxedAutoImplicit false

namespace KeyTree

/-- The digits of a number with the point after the first of them, times ten to the `exponent`. -/
structure Decimal where
  digits : List Nat
  exponent : Int
deriving DecidableEq

namespace Decimal

def ofMultiple (d : Nat) (k : Int) : Decimal :=
  let all := Numeral.digits 10 d
  ⟨(all.reverse.dropWhile (· == 0)).reverse, k + all.length - 1⟩

/-- The characters of some digits, or of a zero if there are none. -/
def someChars (digits : List Nat) : List Char :=
  if digits.isEmpty then ['0'] else digits.map Numeral.decimalChar

def positional (x : Decimal) : List Char :=
  if x.exponent < 0 then
    '0' :: '.' :: someChars (List.replicate (x.exponent.natAbs - 1) 0 ++ x.digits)
  else
    let places := x.exponent.natAbs + 1
    let whole := x.digits.take places
    someChars (whole ++ List.replicate (places - whole.length) 0) ++
      '.' :: someChars (x.digits.drop places)

/-- The digits with the point after the first, if more follow, and the exponent with its sign. -/
def scientific (x : Decimal) : List Char :=
  let point := if x.digits.tail.isEmpty then [] else '.' :: someChars x.digits.tail
  someChars (x.digits.take 1) ++ point ++
    'e' :: (if x.exponent < 0 then '-' else '+') :: Numeral.decimal x.exponent.natAbs

/-- Positional from one exponent to another, scientific outside. -/
def chars (x : Decimal) (least greatest : Int) : List Char :=
  if least ≤ x.exponent ∧ x.exponent ≤ greatest then x.positional else x.scientific

end Decimal

namespace Magnitude

/-- Half the distance to the next larger magnitude, in quarters of a unit. -/
def halfGapAbove (m : Magnitude) : Nat :=
  2 <<< m.shift

/-- Half the distance to the next smaller magnitude, in quarters of a unit.  It is the shorter one
where the shift changes. -/
def halfGapBelow (m : Magnitude) : Nat :=
  if m.significand = leastFull ∧ m.shift ≠ 0 then 1 <<< m.shift else 2 <<< m.shift

/-- What quarters of a unit are multiplied by, that ten to the `k` be a whole number of them. -/
def refinement (k : Int) : Nat :=
  Nat.pow 10 (-k).toNat

/-- Ten to the `k` in quarters of a unit, refined. -/
def step (k : Int) : Nat :=
  4 * unitsOfOne * Nat.pow 10 k.toNat

def readsBack (m : Magnitude) (k : Int) (d : Nat) : Bool :=
  let point := d * step k
  let low := (4 * m.units - m.halfGapBelow) * refinement k
  let high := (4 * m.units + m.halfGapAbove) * refinement k
  if m.significand % 2 = 0 then low ≤ point && point ≤ high else low < point && point < high

/-- The multiple of ten to the `k` that reads back, if one does; the nearer one if two do, and the
even one if both are equally near. -/
def multiple? (m : Magnitude) (k : Int) : Option Nat :=
  let value := 4 * m.units * refinement k
  let below := value / step k
  let nearest := divideToEven value (step k)
  if m.readsBack k nearest then some nearest
  else if m.readsBack k below then some below
  else if m.readsBack k (below + 1) then some (below + 1)
  else none

/-- The exponent of the leading digit of a magnitude that is not zero: the smallest one has it at
-324. -/
def leadingExponent (m : Magnitude) : Int :=
  (Numeral.digits 10 (m.units * Nat.pow 10 324 / unitsOfOne)).length - 325

def exact (m : Magnitude) : Decimal :=
  .ofMultiple (m.units * Nat.pow 5 1074) (-1074)

/-- The decimal with the fewest digits that reads back.  Seventeen digits are always enough. -/
def shortest (m : Magnitude) : Decimal :=
  if m = zero then ⟨[0], 0⟩
  else
    let found := (List.range 17).findSome? fun n =>
      let k := m.leadingExponent - Int.ofNat n
      (m.multiple? k).map fun d => Decimal.ofMultiple d k
    found.getD m.exact

end Magnitude

/-- The text of a number: positional from ten to the `least` up to below ten to the `greatest`
plus one, scientific outside. -/
def Double.text (x : Double) (least greatest : Int) : String :=
  let sign := if x.negative then ['-'] else []
  String.ofList (sign ++ x.magnitude.shortest.chars least greatest)

end KeyTree
