/-!
Positional notation: a number as a list of digits in a base, most significant digit first.

`ofDigits` reads any digit list, with or without leading zeros; `digits` writes the one form
that has none.  `ofDigits_digits` says that reading what was written gives the number back.

`ofDigitsBelow?` reads a number that has to be below a bound, and stops where the digits go beyond
it, so that its cost does not grow with the square of their count.  `ofDigitsBelow?_eq` says that
it finds the same number.
-/

set_option autoImplicit false
set_option relaxedAutoImplicit false

namespace KeyTree.Numeral

def pushValue (base value digit : Nat) : Nat :=
  value * base + digit

/-- The value of a digit list, most significant digit first. -/
def ofDigits (base : Nat) (ds : List Nat) : Nat :=
  ds.foldl (pushValue base) 0

def pushBelow? (base bound value digit : Nat) : Option Nat :=
  let next := pushValue base value digit
  if next < bound then some next else none

/-- The value of a digit list if it is below a positive bound. -/
def ofDigitsBelow? (base bound : Nat) (ds : List Nat) : Option Nat :=
  ds.foldlM (pushBelow? base bound) 0

/-- Put the digits of `v` before `rest`, one digit for each unit of `fuel` at most. -/
def pushDigits (base : Nat) : Nat → Nat → List Nat → List Nat
  | 0, _, rest => rest
  | fuel + 1, v, rest =>
      if v = 0 then rest else pushDigits base fuel (v / base) (v % base :: rest)

/-- The digits of `v`, without leading zeros; zero has none.  A number has at most as many digits
as its value, which is the fuel. -/
def digits (base v : Nat) : List Nat :=
  pushDigits base v v []

theorem ofDigits_append_singleton (base : Nat) (ds : List Nat) (d : Nat) :
    ofDigits base (ds ++ [d]) = ofDigits base ds * base + d := by
  simp [ofDigits, pushValue, List.foldl_append]

private theorem le_foldl_pushValue {base : Nat} (base_pos : 0 < base) (ds : List Nat) (v : Nat) :
    v ≤ ds.foldl (pushValue base) v := by
  induction ds generalizing v with
  | nil => exact Nat.le_refl v
  | cons d ds ih =>
      have grown : v ≤ pushValue base v d :=
        Nat.le_trans (Nat.le_mul_of_pos_right v base_pos) (Nat.le_add_right (v * base) d)
      exact Nat.le_trans grown (ih (pushValue base v d))

private theorem foldlM_pushBelow? {base bound : Nat} (base_pos : 0 < base) (ds : List Nat) (v : Nat)
    (small : v < bound) :
    ds.foldlM (pushBelow? base bound) v =
      if ds.foldl (pushValue base) v < bound then some (ds.foldl (pushValue base) v) else none := by
  induction ds generalizing v with
  | nil => exact (if_pos small).symm
  | cons d ds ih =>
      rw [List.foldlM_cons, List.foldl_cons]
      by_cases next_small : pushValue base v d < bound
      · have pushed : pushBelow? base bound v d = some (pushValue base v d) := if_pos next_small
        rw [pushed]
        exact ih (pushValue base v d) next_small
      · have refused : pushBelow? base bound v d = none := if_neg next_small
        have grown := le_foldl_pushValue base_pos ds (pushValue base v d)
        rw [refused, if_neg (by omega)]
        rfl

theorem ofDigitsBelow?_eq {base bound : Nat} (base_pos : 0 < base) (bound_pos : 0 < bound)
    (ds : List Nat) :
    ofDigitsBelow? base bound ds =
      if ofDigits base ds < bound then some (ofDigits base ds) else none :=
  foldlM_pushBelow? base_pos ds 0 bound_pos

private theorem foldl_pushDigits {base : Nat} (base_gt : 1 < base) (fuel v : Nat) (rest : List Nat)
    (enough : v ≤ fuel) :
    (pushDigits base fuel v rest).foldl (pushValue base) 0 = rest.foldl (pushValue base) v := by
  induction fuel generalizing v rest with
  | zero =>
      obtain rfl : v = 0 := Nat.le_zero.mp enough
      rfl
  | succ fuel ih =>
      unfold pushDigits
      split
      · rename_i zero
        rw [zero]
      · rename_i nonzero
        have smaller : v / base < v := Nat.div_lt_self (Nat.pos_of_ne_zero nonzero) base_gt
        rw [ih (v / base) (v % base :: rest) (by omega)]
        have split_eq : pushValue base (v / base) (v % base) = v := Nat.div_add_mod' v base
        rw [List.foldl_cons, split_eq]

theorem ofDigits_digits {base : Nat} (base_gt : 1 < base) (v : Nat) :
    ofDigits base (digits base v) = v :=
  foldl_pushDigits base_gt v v [] (Nat.le_refl v)

private theorem lt_of_mem_pushDigits {base : Nat} (base_pos : 0 < base) (fuel v : Nat)
    (rest : List Nat)
    (small : ∀ d ∈ rest, d < base) : ∀ d ∈ pushDigits base fuel v rest, d < base := by
  induction fuel generalizing v rest with
  | zero => exact small
  | succ fuel ih =>
      unfold pushDigits
      split
      · exact small
      · apply ih
        intro d member
        rcases List.mem_cons.mp member with rfl | member
        · exact Nat.mod_lt v base_pos
        · exact small d member

theorem lt_of_mem_digits {base : Nat} (base_pos : 0 < base) {v d : Nat}
    (member : d ∈ digits base v) : d < base :=
  lt_of_mem_pushDigits base_pos v v [] (by simp) d member

def decimalChar (digit : Nat) : Char :=
  Char.ofNat (48 + digit)

def decimalDigit? (c : Char) : Option Nat :=
  if 48 ≤ c.toNat ∧ c.toNat ≤ 57 then some (c.toNat - 48) else none

def decimal (v : Nat) : List Char :=
  if v = 0 then ['0'] else (digits 10 v).map decimalChar

/-- The number that a non-empty run of decimal digits stands for, if it is below `bound`; leading
zeros are allowed. -/
def ofDecimalBelow? (bound : Nat) (cs : List Char) : Option Nat :=
  if cs.isEmpty then none else (cs.mapM decimalDigit?).bind (ofDigitsBelow? 10 bound)

end KeyTree.Numeral
