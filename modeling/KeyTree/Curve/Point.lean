import KeyTree.Curve.Residue
/-!
The curve secp256k1, `y² = x³ + 7` over a prime field, with its points and their arithmetic.

Points are added by the chord and tangent rule.  Multiples are computed in Jacobian coordinates,
where a step needs no division, and brought back at the end.
-/

set_option autoImplicit false
set_option relaxedAutoImplicit false

namespace KeyTree.Curve

/-- The prime of the coordinate field. -/
def fieldPrime : Nat :=
  0xfffffffffffffffffffffffffffffffffffffffffffffffffffffffefffffc2f

/-- The number of points, which is prime too. -/
def order : Nat :=
  0xfffffffffffffffffffffffffffffffebaaedce6af48a03bbfd25e8cd0364141

instance : Modulus fieldPrime := ⟨by decide⟩

instance : Modulus order := ⟨by decide⟩

abbrev Coordinate := Residue fieldPrime

/-- A multiplier of points. -/
abbrev Scalar := Residue order

structure Affine where
  x : Coordinate
  y : Coordinate
deriving DecidableEq

def Affine.OnCurve (P : Affine) : Prop :=
  P.y * P.y = P.x * P.x * P.x + 7

instance (P : Affine) : Decidable P.OnCurve :=
  inferInstanceAs (Decidable (_ = _))

/-- The point with this `x` whose `y` has this parity, if there is one. -/
def Affine.ofX? (x : Coordinate) (odd : Bool) : Option Affine :=
  (x * x * x + 7).sqrt?.map fun y => ⟨x, if y.isOdd = odd then y else -y⟩

inductive Point where
  | infinity
  | affine (P : Affine)
deriving DecidableEq

namespace Point

def affine? : Point → Option Affine
  | infinity => none
  | affine P => some P

def neg : Point → Point
  | infinity => infinity
  | affine P => affine ⟨P.x, -P.y⟩

/-- The sum of `P` and a point with first coordinate `x`, given the slope of the line through
both: the opposite of the third point on that line. -/
def sumOnLine (P : Affine) (x slope : Coordinate) : Affine :=
  let x' := slope * slope - P.x - x
  ⟨x', slope * (P.x - x') - P.y⟩

def add : Point → Point → Point
  | infinity, Q => Q
  | P, infinity => P
  | affine P, affine Q =>
      if P.x = Q.x then
        if P.y + Q.y = 0 then infinity
        else affine (sumOnLine P P.x (3 * P.x * P.x / (2 * P.y)))
      else affine (sumOnLine P Q.x ((Q.y - P.y) / (Q.x - P.x)))

instance : Add Point := ⟨add⟩

instance : Neg Point := ⟨neg⟩

end Point

/-- Jacobian coordinates: `x / z²` and `y / z³`, or the identity when `z` is zero. -/
structure Jacobian where
  x : Coordinate
  y : Coordinate
  z : Coordinate

namespace Jacobian

def infinity : Jacobian := ⟨1, 1, 0⟩

def ofAffine (P : Affine) : Jacobian := ⟨P.x, P.y, 1⟩

def toPoint (J : Jacobian) : Point :=
  if J.z = 0 then .infinity
  else
    let inv := J.z.inverse
    .affine ⟨J.x * (inv * inv), J.y * (inv * inv * inv)⟩

def double (J : Jacobian) : Jacobian :=
  let ySquared := J.y * J.y
  let s := 4 * (J.x * ySquared)
  let t := 3 * (J.x * J.x)
  let x := t * t - (s + s)
  ⟨x, t * (s - x) - 8 * (ySquared * ySquared), 2 * (J.y * J.z)⟩

def addAffine (J : Jacobian) (P : Affine) : Jacobian :=
  if J.z = 0 then ofAffine P
  else
    let zSquared := J.z * J.z
    let h := P.x * zSquared - J.x
    let r := P.y * (zSquared * J.z) - J.y
    if h = 0 then
      if r = 0 then double J else infinity
    else
      let hSquared := h * h
      let hCubed := hSquared * h
      let u := J.x * hSquared
      let x := r * r - hCubed - (u + u)
      ⟨x, r * (u - x) - J.y * hCubed, h * J.z⟩

/-- The multiple of `P` by the number that the low `width` bits of `k` write. -/
def multiple (P : Affine) : Nat → Nat → Jacobian
  | 0, _ => infinity
  | width + 1, k =>
      let twice := (multiple P width (k / 2)).double
      if k % 2 = 1 then twice.addAffine P else twice

end Jacobian

def Affine.times (P : Affine) (k : Scalar) : Point :=
  (Jacobian.multiple P 256 k.val).toPoint

def generator : Affine where
  x := 0x79be667ef9dcbbac55a06295ce870b07029bfcdb2dce28d959f2815b16f81798
  y := 0x483ada7726a3c4655da4fbfc0e1108a8fd17b448a68554199c47d08ffb10d4b8

end KeyTree.Curve
