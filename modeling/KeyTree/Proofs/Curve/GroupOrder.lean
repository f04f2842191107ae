import KeyTree.Proofs.Curve.Multiple
import Mathlib.Algebra.Module.ZMod
import Mathlib.GroupTheory.Perm.Cycle.Type
import Mathlib.GroupTheory.SpecificGroups.Cyclic.Basic
/-!
The group of the curve has `order` elements, so that it is a space over the scalars with the
generator as a basis.

The generator has order `order`, by one computation.  There are at most two points for each `x`,
hence fewer than three times `order`, and no point of order two, so there are `order` of them.
-/

set_option autoImplicit false
set_option relaxedAutoImplicit false

namespace KeyTree.Curve

open Residue (toZMod ofZMod toZMod_injective toZMod_eq_zero)

/-! ### Points by their `x` and the parity of their `y` -/

/-- No element of the field has the cube `-7`: `(-7) ^ ((p - 1) / 3)` is not one. -/
theorem cube_add_seven_ne_zero (x : ZMod fieldPrime) : x * x * x + 7 ≠ 0 := by
  intro zero
  have cube : x ^ 3 = -7 := by linear_combination zero
  have x_ne : x ≠ 0 := by
    rintro rfl
    exact absurd cube (by decide)
  have power : (Residue.pow (-7) ((fieldPrime - 1) / 3) : Coordinate) ≠ 1 := by
    decide +kernel
  apply power
  apply toZMod_injective
  rw [Residue.toZMod_pow, Residue.toZMod_neg, Residue.toZMod_numeral, Residue.toZMod_one, ← cube,
    ← pow_mul, show 3 * ((fieldPrime - 1) / 3) = fieldPrime - 1 by decide]
  exact ZMod.pow_card_sub_one_eq_one x_ne

private theorem y_ne_zero {x y : ZMod fieldPrime} (nonsingular : secp256k1.Nonsingular x y) :
    y ≠ 0 := by
  rintro rfl
  apply cube_add_seven_ne_zero x
  rw [← nonsingular_iff_equation.mp nonsingular, mul_zero]

theorem Affine.y_ne_zero {P : Affine} (onCurve : P.OnCurve) : P.y ≠ 0 := by
  intro zero
  apply cube_add_seven_ne_zero P.x.toZMod
  rw [← Affine.onCurve_iff.mp onCurve, zero, Residue.toZMod_zero, mul_zero]

theorem Affine.eq_of_x_of_parity {P Q : Affine} (hP : P.OnCurve) (hQ : Q.OnCurve)
    (x_eq : P.x = Q.x) (parity : P.y.isOdd = Q.y.isOdd) : P = Q := by
  by_cases y_eq : P.y = Q.y
  · exact Affine.ext_toZMod (congrArg toZMod x_eq) (congrArg toZMod y_eq)
  · have opposite : P.y = -Q.y := by
      have sum := Affine.add_y_eq_zero hP hQ x_eq y_eq
      apply toZMod_injective
      rw [← toZMod_eq_zero, Residue.toZMod_add] at sum
      rw [Residue.toZMod_neg, eq_neg_of_add_eq_zero_left sum]
    rw [opposite, Residue.isOdd_neg (Affine.y_ne_zero hQ)] at parity
    exact absurd parity (by simp)

/-- What determines a point: nothing for the identity, else its `x` and the parity of its `y`. -/
def Point.xAndParity : Point → Option (Coordinate × Bool)
  | .infinity => none
  | .affine P => some (P.x, P.y.isOdd)

private theorem xAndParity_ofGroup_injective :
    Function.Injective fun P : PointGroup => (Point.ofGroup P).xAndParity := by
  intro P Q equal
  apply Point.ofGroup_injective
  cases hP : Point.ofGroup P with
  | infinity =>
      cases hQ : Point.ofGroup Q with
      | infinity => rfl
      | affine B => simp [hP, hQ, Point.xAndParity] at equal
  | affine A =>
      cases hQ : Point.ofGroup Q with
      | infinity => simp [hP, hQ, Point.xAndParity] at equal
      | affine B =>
          simp only [hP, hQ, Point.xAndParity, Option.some.injEq, Prod.mk.injEq] at equal
          rw [Affine.eq_of_x_of_parity (Point.onCurve_of_ofGroup hP) (Point.onCurve_of_ofGroup hQ)
            equal.1 equal.2]

/-! ### Counting -/

def residueEquiv : Coordinate ≃ ZMod fieldPrime where
  toFun := toZMod
  invFun := ofZMod
  left_inv := Residue.ofZMod_toZMod
  right_inv := Residue.toZMod_ofZMod

instance : Finite Coordinate := Finite.of_equiv _ residueEquiv.symm

instance : Finite PointGroup := Finite.of_injective _ xAndParity_ofGroup_injective

private theorem card_pointGroup_le : Nat.card PointGroup ≤ 2 * fieldPrime + 1 := by
  have coordinates : Nat.card Coordinate = fieldPrime :=
    (Nat.card_congr residueEquiv).trans (Nat.card_zmod fieldPrime)
  have bound := Nat.card_le_card_of_injective _ xAndParity_ofGroup_injective
  have parities : Nat.card Bool = 2 := by simp
  rw [Finite.card_option, Nat.card_prod, coordinates, parities, Nat.mul_comm] at bound
  exact bound

private theorem add_self_ne_zero {P : PointGroup} (nonzero : P ≠ 0) : P + P ≠ 0 := by
  intro zero
  cases P with
  | zero => exact nonzero rfl
  | some x y nonsingular =>
      have opposite := eq_neg_of_add_eq_zero_left zero
      rw [WeierstrassCurve.Affine.Point.neg_some, WeierstrassCurve.Affine.Point.some.injEq,
        negY_eq] at opposite
      have doubled : 2 * y = 0 := by linear_combination opposite.2
      exact (mul_ne_zero two_ne_zero_coordinate (y_ne_zero nonsingular)) doubled

def G : PointGroup :=
  generator.toGroup (by decide)

theorem ofGroup_G : Point.ofGroup G = .affine generator :=
  Point.ofGroup_toGroup generator _

theorem G_ne_zero : G ≠ 0 :=
  WeierstrassCurve.Affine.Point.some_ne_zero _

private theorem order_nsmul_G : order • G = 0 := by
  have computed : (Jacobian.multiple generator 256 order).z = 0 := by
    decide +kernel
  have reached := Jacobian.toPoint_multiple ofGroup_G 256 order
  rw [Jacobian.toPoint_of_z_eq_zero computed, Nat.mod_eq_of_lt (by decide)] at reached
  exact Point.ofGroup_eq_infinity.mp reached.symm

private theorem addOrderOf_G : addOrderOf G = order :=
  addOrderOf_eq_prime order_nsmul_G G_ne_zero

private theorem card_pointGroup : Nat.card PointGroup = order := by
  obtain ⟨k, card_eq⟩ : order ∣ Nat.card PointGroup := addOrderOf_G ▸ addOrderOf_dvd_natCard G
  have positive : 0 < Nat.card PointGroup := Nat.card_pos
  have bound := card_pointGroup_le
  have room : 2 * fieldPrime + 1 < order * 3 := by decide
  have k_ne_zero : k ≠ 0 := by
    rintro rfl
    omega
  have k_lt : k < 3 := by
    by_contra large
    have := Nat.mul_le_mul_left order (Nat.le_of_not_lt large)
    omega
  have k_ne_two : k ≠ 2 := by
    rintro rfl
    -- an even number of elements brings one of order two
    have even : 2 ∣ Nat.card PointGroup := card_eq ▸ Dvd.intro_left order rfl
    obtain ⟨P, order_two⟩ := exists_prime_addOrderOf_dvd_card' 2 even
    have doubled := addOrderOf_nsmul_eq_zero P
    rw [order_two, two_nsmul] at doubled
    apply add_self_ne_zero _ doubled
    rintro rfl
    rw [addOrderOf_zero] at order_two
    omega
  rw [card_eq, show k = 1 by omega, Nat.mul_one]

private theorem order_nsmul (P : PointGroup) : order • P = 0 :=
  card_pointGroup ▸ card_nsmul_eq_zero'

noncomputable instance : Module (ZMod order) PointGroup :=
  AddCommGroup.zmodModule order_nsmul

theorem toZMod_smul (k : Scalar) (P : PointGroup) : k.toZMod • P = k.val • P :=
  Nat.cast_smul_eq_nsmul (ZMod order) k.val P

theorem val_smul_G_inj {k k' : Scalar} : k.val • G = k'.val • G ↔ k = k' := by
  rw [← toZMod_smul, ← toZMod_smul, (smul_left_injective (ZMod order) G_ne_zero).eq_iff,
    Residue.toZMod_inj]

theorem ofGroup_one_smul_G : Point.ofGroup ((1 : Scalar).val • G) = .affine generator := by
  rw [show (1 : Scalar).val = 1 from rfl, one_smul, ofGroup_G]

theorem Affine.times_eq {P : Affine} {Q : PointGroup} (hQ : Point.ofGroup Q = .affine P)
    (k : Scalar) : P.times k = Point.ofGroup (k.toZMod • Q) := by
  have fits : k.val < 2 ^ 256 := k.val_lt.trans (by decide)
  rw [times, Jacobian.toPoint_multiple hQ, Nat.mod_eq_of_lt fits, toZMod_smul]

theorem generator_times (k : Scalar) : generator.times k = Point.ofGroup (k.toZMod • G) :=
  Affine.times_eq ofGroup_G k

end KeyTree.Curve
