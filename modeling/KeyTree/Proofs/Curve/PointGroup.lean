import KeyTree.Proofs.Curve.Primes
import Mathlib.AlgebraicGeometry.EllipticCurve.Affine.Point
import Mathlib.Tactic.LinearCombination
/-!
The points of the curve as a commutative group.

`PointGroup` is the group of a Weierstrass curve; `Point.ofGroup` gives the coordinates of its
elements.  It is injective, its range is the identity and the points on the curve, and it takes
the group's operations to chord and tangent addition and to `Point.neg`.
-/

set_option autoImplicit false
set_option relaxedAutoImplicit false

namespace KeyTree.Curve

open Residue (toZMod ofZMod)

/-- The curve `y² = x³ + 7` over the field of coordinates. -/
def secp256k1 : WeierstrassCurve.Affine (ZMod fieldPrime) :=
  ⟨0, 0, 0, 0, 7⟩

abbrev PointGroup := secp256k1.Point

theorem two_ne_zero_coordinate : (2 : ZMod fieldPrime) ≠ 0 := by
  decide

private theorem discriminant_ne_zero : secp256k1.Δ ≠ 0 := by
  decide +kernel

private theorem equation_iff {x y : ZMod fieldPrime} :
    secp256k1.Equation x y ↔ y * y = x * x * x + 7 := by
  rw [WeierstrassCurve.Affine.equation_iff]
  simp only [secp256k1]
  constructor
  · intro h
    linear_combination h
  · intro h
    linear_combination h

theorem nonsingular_iff_equation {x y : ZMod fieldPrime} :
    secp256k1.Nonsingular x y ↔ y * y = x * x * x + 7 :=
  (secp256k1.equation_iff_nonsingular_of_Δ_ne_zero discriminant_ne_zero).symm.trans equation_iff

theorem negY_eq (x y : ZMod fieldPrime) : secp256k1.negY x y = -y := by
  simp [WeierstrassCurve.Affine.negY, secp256k1]

namespace Affine

theorem onCurve_iff {P : Affine} :
    P.OnCurve ↔ P.y.toZMod * P.y.toZMod = P.x.toZMod * P.x.toZMod * P.x.toZMod + 7 := by
  rw [OnCurve, ← Residue.toZMod_inj]
  simp only [Residue.toZMod_mul, Residue.toZMod_add, Residue.toZMod_numeral]

def toGroup (P : Affine) (onCurve : P.OnCurve) : PointGroup :=
  .some P.x.toZMod P.y.toZMod (nonsingular_iff_equation.mpr (onCurve_iff.mp onCurve))

end Affine

namespace Point

def ofGroup : PointGroup → Point
  | .zero => infinity
  | .some x y _ => affine ⟨ofZMod x, ofZMod y⟩

@[simp]
theorem ofGroup_zero : ofGroup 0 = infinity := rfl

@[simp]
theorem ofGroup_toGroup (P : Affine) (onCurve : P.OnCurve) :
    ofGroup (P.toGroup onCurve) = affine P := by
  simp [Affine.toGroup, ofGroup]

theorem ofGroup_injective : Function.Injective ofGroup := by
  intro P Q equal
  cases P with
  | zero =>
      cases Q with
      | zero => rfl
      | some x y _ => cases equal
  | some x y _ =>
      cases Q with
      | zero => cases equal
      | some x' y' _ =>
          simp only [ofGroup, affine.injEq, Affine.mk.injEq] at equal
          have x_eq : x = x' := by simpa using congrArg toZMod equal.1
          have y_eq : y = y' := by simpa using congrArg toZMod equal.2
          subst x_eq y_eq
          rfl

@[simp]
theorem ofGroup_inj {P Q : PointGroup} : ofGroup P = ofGroup Q ↔ P = Q :=
  ofGroup_injective.eq_iff

@[simp]
theorem ofGroup_eq_infinity {P : PointGroup} : ofGroup P = infinity ↔ P = 0 := by
  rw [← ofGroup_zero, ofGroup_inj]

theorem onCurve_of_ofGroup {P : PointGroup} {A : Affine} (equal : ofGroup P = affine A) :
    A.OnCurve := by
  cases P with
  | zero => cases equal
  | some x y nonsingular =>
      cases equal
      rw [Affine.onCurve_iff, Residue.toZMod_ofZMod, Residue.toZMod_ofZMod]
      exact nonsingular_iff_equation.mp nonsingular

theorem onCurve_iff_exists_ofGroup {A : Affine} :
    A.OnCurve ↔ ∃ P : PointGroup, ofGroup P = affine A :=
  ⟨fun onCurve => ⟨A.toGroup onCurve, ofGroup_toGroup A onCurve⟩,
    fun ⟨_, equal⟩ => onCurve_of_ofGroup equal⟩

theorem exists_ofGroup_eq_affine {P : PointGroup} (nonzero : P ≠ 0) :
    ∃ A : Affine, ofGroup P = affine A := by
  cases P with
  | zero => exact absurd rfl nonzero
  | some x y _ => exact ⟨_, rfl⟩

theorem affine?_eq_some_iff {P : Point} {A : Affine} : P.affine? = some A ↔ P = affine A := by
  cases P <;> simp [affine?]

theorem ofGroup_neg (P : PointGroup) : ofGroup (-P) = -ofGroup P := by
  cases P with
  | zero => rfl
  | some x y nonsingular =>
      have negated : -(ofZMod y) = ofZMod (-y) := by
        apply Residue.toZMod_injective
        rw [Residue.toZMod_neg, Residue.toZMod_ofZMod, Residue.toZMod_ofZMod]
      rw [WeierstrassCurve.Affine.Point.neg_some]
      change affine ⟨ofZMod x, ofZMod (secp256k1.negY x y)⟩ = affine ⟨ofZMod x, -ofZMod y⟩
      rw [negY_eq, negated]

private theorem sumOnLine_ofZMod (x₁ y₁ x₂ : ZMod fieldPrime) (slope : Coordinate) :
    sumOnLine ⟨ofZMod x₁, ofZMod y₁⟩ (ofZMod x₂) slope =
      ⟨ofZMod (secp256k1.addX x₁ x₂ slope.toZMod),
        ofZMod (secp256k1.addY x₁ x₂ y₁ slope.toZMod)⟩ := by
  rw [sumOnLine, Affine.mk.injEq]
  constructor
  · apply Residue.toZMod_injective
    simp [WeierstrassCurve.Affine.addX, secp256k1]
    ring
  · apply Residue.toZMod_injective
    simp [WeierstrassCurve.Affine.addY, WeierstrassCurve.Affine.negAddY,
      WeierstrassCurve.Affine.addX, WeierstrassCurve.Affine.negY, secp256k1]
    ring

private theorem add_affine (x₁ y₁ x₂ y₂ : ZMod fieldPrime) {h₁ : secp256k1.Nonsingular x₁ y₁}
    {h₂ : secp256k1.Nonsingular x₂ y₂} :
    ofGroup (.some x₁ y₁ h₁) + ofGroup (.some x₂ y₂ h₂) =
      if ofZMod x₁ = ofZMod x₂ then
        if ofZMod y₁ + ofZMod y₂ = 0 then infinity
        else affine (sumOnLine ⟨ofZMod x₁, ofZMod y₁⟩ (ofZMod x₁)
          (3 * ofZMod x₁ * ofZMod x₁ / (2 * ofZMod y₁)))
      else affine (sumOnLine ⟨ofZMod x₁, ofZMod y₁⟩ (ofZMod x₂)
        ((ofZMod y₂ - ofZMod y₁) / (ofZMod x₂ - ofZMod x₁))) := rfl

theorem ofGroup_add (P Q : PointGroup) : ofGroup (P + Q) = ofGroup P + ofGroup Q := by
  cases P with
  | zero => rfl
  | some x₁ y₁ h₁ =>
  cases Q with
  | zero => rfl
  | some x₂ y₂ h₂ =>
  have opposite_iff : ofZMod y₁ + ofZMod y₂ = 0 ↔ y₁ = secp256k1.negY x₂ y₂ := by
    rw [negY_eq, ← Residue.toZMod_eq_zero, Residue.toZMod_add, Residue.toZMod_ofZMod,
      Residue.toZMod_ofZMod, eq_neg_iff_add_eq_zero]
  have x_iff : ofZMod x₁ = ofZMod x₂ ↔ x₁ = x₂ := by
    rw [← Residue.toZMod_inj, Residue.toZMod_ofZMod, Residue.toZMod_ofZMod]
  rw [add_affine]
  simp only [x_iff, opposite_iff]
  split
  · rename_i x_eq
    subst x_eq
    split
    · rename_i opposite
      rw [WeierstrassCurve.Affine.Point.add_of_Y_eq rfl opposite]
      rfl
    · rename_i unlike
      have slope_eq : (3 * ofZMod x₁ * ofZMod x₁ / (2 * ofZMod y₁) : Coordinate).toZMod =
          secp256k1.slope x₁ x₁ y₁ y₂ := by
        rw [WeierstrassCurve.Affine.slope_of_Y_ne rfl unlike, negY_eq]
        simp [secp256k1, pow_two, two_mul, mul_assoc]
      rw [WeierstrassCurve.Affine.Point.add_of_Y_ne unlike, sumOnLine_ofZMod, slope_eq]
      rfl
  · rename_i x_ne
    have slope_eq : ((ofZMod y₂ - ofZMod y₁) / (ofZMod x₂ - ofZMod x₁) : Coordinate).toZMod =
        secp256k1.slope x₁ x₂ y₁ y₂ := by
      rw [WeierstrassCurve.Affine.slope_of_X_ne x_ne]
      simp only [Residue.toZMod_div, Residue.toZMod_sub, Residue.toZMod_ofZMod]
      rw [← neg_sub y₁, ← neg_sub x₁, neg_div_neg_eq]
    rw [WeierstrassCurve.Affine.Point.add_of_X_ne x_ne, sumOnLine_ofZMod, slope_eq]
    rfl

end Point

end KeyTree.Curve
