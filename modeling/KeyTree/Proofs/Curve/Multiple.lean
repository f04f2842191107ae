import KeyTree.Proofs.Curve.PointGroup
import Mathlib.Tactic.FieldSimp
/-!
Multiples in Jacobian coordinates are multiples in the group.

`Jacobian.toPoint` takes doubling and mixed addition to chord and tangent addition;
`toPoint_multiple` follows by induction on the number of bits.
-/

set_option autoImplicit false
set_option relaxedAutoImplicit false

namespace KeyTree.Curve

open Residue (toZMod ofZMod toZMod_injective toZMod_eq_zero)

theorem Affine.ext_toZMod {P Q : Affine} (x_eq : P.x.toZMod = Q.x.toZMod)
    (y_eq : P.y.toZMod = Q.y.toZMod) : P = Q := by
  cases P
  cases Q
  rw [Affine.mk.injEq]
  exact ⟨toZMod_injective x_eq, toZMod_injective y_eq⟩

theorem Affine.add_y_eq_zero {P Q : Affine} (hP : P.OnCurve) (hQ : Q.OnCurve) (x_eq : P.x = Q.x)
    (y_ne : P.y ≠ Q.y) : P.y + Q.y = 0 := by
  rw [Affine.onCurve_iff] at hP hQ
  have product : (P.y.toZMod - Q.y.toZMod) * (P.y.toZMod + Q.y.toZMod) = 0 := by
    rw [x_eq] at hP
    linear_combination hP - hQ
  rcases mul_eq_zero.mp product with difference | sum
  · exact absurd (toZMod_injective (sub_eq_zero.mp difference)) y_ne
  · rw [← toZMod_eq_zero, Residue.toZMod_add, sum]

namespace Point

private theorem affine_add_of_opposite {P Q : Affine} (x_eq : P.x = Q.x)
    (opposite : P.y + Q.y = 0) : affine P + affine Q = infinity := by
  change add _ _ = _
  rw [add, if_pos x_eq, if_pos opposite]

private theorem affine_add_self {P : Affine} (y_ne : P.y + P.y ≠ 0) :
    affine P + affine P = affine (sumOnLine P P.x (3 * P.x * P.x / (2 * P.y))) := by
  change add _ _ = _
  rw [add, if_pos rfl, if_neg y_ne]

private theorem affine_add_of_x_ne {P Q : Affine} (x_ne : P.x ≠ Q.x) :
    affine P + affine Q = affine (sumOnLine P Q.x ((Q.y - P.y) / (Q.x - P.x))) := by
  change add _ _ = _
  rw [add, if_neg x_ne]

end Point

namespace Jacobian

theorem toPoint_of_z_eq_zero {J : Jacobian} (z_eq : J.z = 0) : J.toPoint = .infinity :=
  if_pos z_eq

def toAffine (J : Jacobian) : Affine :=
  ⟨J.x * (J.z.inverse * J.z.inverse), J.y * (J.z.inverse * J.z.inverse * J.z.inverse)⟩

private theorem toPoint_of_z_ne_zero {J : Jacobian} (z_ne : J.z ≠ 0) :
    J.toPoint = .affine J.toAffine :=
  if_neg z_ne

private theorem toZMod_toAffine_x (J : Jacobian) :
    J.toAffine.x.toZMod = J.x.toZMod / (J.z.toZMod * J.z.toZMod) := by
  simp [toAffine, div_eq_mul_inv]

private theorem toZMod_toAffine_y (J : Jacobian) :
    J.toAffine.y.toZMod = J.y.toZMod / (J.z.toZMod * J.z.toZMod * J.z.toZMod) := by
  simp [toAffine, div_eq_mul_inv, mul_assoc]

private theorem toPoint_ofAffine (P : Affine) : (ofAffine P).toPoint = .affine P := by
  have one_ne : (ofAffine P).z ≠ 0 := by
    simp only [ofAffine]
    decide
  rw [toPoint_of_z_ne_zero one_ne, Point.affine.injEq]
  apply Affine.ext_toZMod
  · rw [toZMod_toAffine_x]
    simp [ofAffine]
  · rw [toZMod_toAffine_y]
    simp [ofAffine]

private theorem toPoint_double (J : Jacobian) : J.double.toPoint = J.toPoint + J.toPoint := by
  by_cases z_eq : J.z = 0
  · have double_z : J.double.z = 0 := by
      rw [← toZMod_eq_zero]
      simp [double, z_eq]
    rw [toPoint_of_z_eq_zero z_eq, toPoint_of_z_eq_zero double_z]
    rfl
  have z_ne : J.z.toZMod ≠ 0 := mt toZMod_eq_zero.mp z_eq
  rw [toPoint_of_z_ne_zero z_eq]
  by_cases y_eq : J.y = 0
  · -- a point with `y = 0` is its own opposite
    have double_z : J.double.z = 0 := by
      rw [← toZMod_eq_zero]
      simp [double, y_eq]
    have opposite : J.toAffine.y + J.toAffine.y = 0 := by
      rw [← toZMod_eq_zero, Residue.toZMod_add, toZMod_toAffine_y]
      simp [y_eq]
    rw [toPoint_of_z_eq_zero double_z, Point.affine_add_of_opposite rfl opposite]
  · have y_ne : J.y.toZMod ≠ 0 := mt toZMod_eq_zero.mp y_eq
    have two_ne := two_ne_zero_coordinate
    have double_z : J.double.z ≠ 0 := by
      rw [Ne, ← toZMod_eq_zero]
      simp [double, y_eq, z_eq, two_ne]
    have not_opposite : J.toAffine.y + J.toAffine.y ≠ 0 := by
      rw [Ne, ← toZMod_eq_zero, Residue.toZMod_add, toZMod_toAffine_y, ← two_mul]
      simp [y_eq, z_eq, two_ne]
    rw [toPoint_of_z_ne_zero double_z, Point.affine_add_self not_opposite, Point.affine.injEq]
    apply Affine.ext_toZMod
    · rw [toZMod_toAffine_x]
      simp only [double, Point.sumOnLine, Residue.toZMod_sub, Residue.toZMod_mul,
        Residue.toZMod_div, Residue.toZMod_numeral, Residue.toZMod_add, toZMod_toAffine_x,
        toZMod_toAffine_y]
      field_simp
      ring
    · rw [toZMod_toAffine_y]
      simp only [double, Point.sumOnLine, Residue.toZMod_sub, Residue.toZMod_mul,
        Residue.toZMod_div, Residue.toZMod_numeral, Residue.toZMod_add, toZMod_toAffine_x,
        toZMod_toAffine_y]
      field_simp
      ring

section

variable {J : Jacobian} {P : Affine}

/-- What is added up for two points with different `x`. -/
def chord (J : Jacobian) (P : Affine) : Jacobian :=
  let h := P.x * (J.z * J.z) - J.x
  let r := P.y * (J.z * J.z * J.z) - J.y
  let u := J.x * (h * h)
  let x := r * r - h * h * h - (u + u)
  ⟨x, r * (u - x) - J.y * (h * h * h), h * J.z⟩

private theorem addAffine_eq (J : Jacobian) (P : Affine) :
    J.addAffine P =
      if J.z = 0 then ofAffine P
      else if P.x * (J.z * J.z) - J.x = 0 then
        if P.y * (J.z * J.z * J.z) - J.y = 0 then double J else infinity
      else J.chord P := rfl

private theorem sub_x_eq_zero_iff (z_ne : J.z ≠ 0) :
    P.x * (J.z * J.z) - J.x = 0 ↔ J.toAffine.x = P.x := by
  rw [← toZMod_eq_zero, ← Residue.toZMod_inj, toZMod_toAffine_x, div_eq_iff (by simp [z_ne]),
    Residue.toZMod_sub, Residue.toZMod_mul, Residue.toZMod_mul, sub_eq_zero, eq_comm]

private theorem sub_y_eq_zero_iff (z_ne : J.z ≠ 0) :
    P.y * (J.z * J.z * J.z) - J.y = 0 ↔ J.toAffine.y = P.y := by
  rw [← toZMod_eq_zero, ← Residue.toZMod_inj, toZMod_toAffine_y, div_eq_iff (by simp [z_ne]),
    Residue.toZMod_sub, Residue.toZMod_mul, Residue.toZMod_mul, Residue.toZMod_mul,
    sub_eq_zero, eq_comm]

private theorem toPoint_chord (z_ne : J.z ≠ 0) (x_ne : J.toAffine.x ≠ P.x) :
    (J.chord P).toPoint = .affine J.toAffine + .affine P := by
  have z_ne' : J.z.toZMod ≠ 0 := mt toZMod_eq_zero.mp z_ne
  -- `h` and `r` as variables, and the coordinates of `P` expressed by them
  obtain ⟨h, h_eq⟩ : ∃ h, h = P.x.toZMod * (J.z.toZMod * J.z.toZMod) - J.x.toZMod := ⟨_, rfl⟩
  obtain ⟨r, r_eq⟩ :
      ∃ r, r = P.y.toZMod * (J.z.toZMod * J.z.toZMod * J.z.toZMod) - J.y.toZMod := ⟨_, rfl⟩
  have x_eq : P.x.toZMod = (h + J.x.toZMod) / (J.z.toZMod * J.z.toZMod) := by
    rw [h_eq, sub_add_cancel, mul_div_cancel_right₀ _ (mul_ne_zero z_ne' z_ne')]
  have y_eq : P.y.toZMod = (r + J.y.toZMod) / (J.z.toZMod * J.z.toZMod * J.z.toZMod) := by
    rw [r_eq, sub_add_cancel,
      mul_div_cancel_right₀ _ (mul_ne_zero (mul_ne_zero z_ne' z_ne') z_ne')]
  have h_ne : h ≠ 0 := by
    have difference := mt (sub_x_eq_zero_iff z_ne).mp x_ne
    rwa [← toZMod_eq_zero, Residue.toZMod_sub, Residue.toZMod_mul, Residue.toZMod_mul,
      ← h_eq] at difference
  have slope_eq :
      ((P.y - J.toAffine.y) / (P.x - J.toAffine.x)).toZMod = r / (h * J.z.toZMod) := by
    rw [Residue.toZMod_div, Residue.toZMod_sub, Residue.toZMod_sub, toZMod_toAffine_x,
      toZMod_toAffine_y, x_eq, y_eq, ← sub_div, ← sub_div, add_sub_cancel_right,
      add_sub_cancel_right]
    field_simp
  have chord_z : (J.chord P).z ≠ 0 := by
    rw [Ne, ← toZMod_eq_zero, chord, Residue.toZMod_mul, Residue.toZMod_sub, Residue.toZMod_mul,
      Residue.toZMod_mul, ← h_eq]
    exact mul_ne_zero h_ne z_ne'
  rw [toPoint_of_z_ne_zero chord_z, Point.affine_add_of_x_ne x_ne, Point.affine.injEq]
  apply Affine.ext_toZMod
  · rw [toZMod_toAffine_x]
    simp only [chord, Point.sumOnLine, Residue.toZMod_sub, Residue.toZMod_mul,
      Residue.toZMod_add, slope_eq, toZMod_toAffine_x, ← h_eq, ← r_eq]
    rw [x_eq]
    field_simp
    ring
  · rw [toZMod_toAffine_y]
    simp only [chord, Point.sumOnLine, Residue.toZMod_sub, Residue.toZMod_mul,
      Residue.toZMod_add, slope_eq, toZMod_toAffine_x, toZMod_toAffine_y, ← h_eq, ← r_eq]
    rw [x_eq]
    field_simp
    ring

private theorem toPoint_addAffine (hP : P.OnCurve) (hJ : ∀ A, J.toPoint = .affine A → A.OnCurve) :
    (J.addAffine P).toPoint = J.toPoint + .affine P := by
  rw [addAffine_eq]
  split
  · rename_i z_eq
    rw [toPoint_ofAffine, toPoint_of_z_eq_zero z_eq]
    rfl
  rename_i z_ne
  have onCurve := hJ J.toAffine (toPoint_of_z_ne_zero z_ne)
  simp only [sub_x_eq_zero_iff z_ne, sub_y_eq_zero_iff z_ne]
  rw [toPoint_of_z_ne_zero z_ne]
  split
  · rename_i x_eq
    split
    · rename_i y_eq
      have same : J.toAffine = P :=
        Affine.ext_toZMod (congrArg toZMod x_eq) (congrArg toZMod y_eq)
      rw [toPoint_double, toPoint_of_z_ne_zero z_ne, same]
    · rename_i y_ne
      rw [Point.affine_add_of_opposite x_eq (Affine.add_y_eq_zero onCurve hP x_eq y_ne)]
      exact toPoint_of_z_eq_zero rfl
  · rename_i x_ne
    exact toPoint_chord z_ne x_ne

end

theorem toPoint_multiple {P : Affine} {Q : PointGroup} (hQ : Point.ofGroup Q = .affine P)
    (width k : Nat) :
    (multiple P width k).toPoint = Point.ofGroup ((k % 2 ^ width) • Q) := by
  have onCurve := Point.onCurve_of_ofGroup hQ
  induction width generalizing k with
  | zero =>
      rw [pow_zero, Nat.mod_one, zero_nsmul]
      rfl
  | succ width ih =>
      have doubled : (multiple P width (k / 2)).double.toPoint =
          Point.ofGroup ((2 * (k / 2 % 2 ^ width)) • Q) := by
        rw [toPoint_double, ih, ← Point.ofGroup_add, ← add_nsmul, two_mul]
      have bits : k % 2 ^ (width + 1) = 2 * (k / 2 % 2 ^ width) + k % 2 := by
        rw [pow_succ', Nat.mod_mul]
        omega
      simp only [multiple]
      split
      · rename_i odd
        have reached : ∀ A, (multiple P width (k / 2)).double.toPoint = .affine A → A.OnCurve := by
          intro A equal
          exact Point.onCurve_of_ofGroup (doubled.symm.trans equal)
        rw [toPoint_addAffine onCurve reached, doubled, ← hQ, ← Point.ofGroup_add, bits, odd,
          add_nsmul, one_nsmul]
      · rename_i even
        rw [doubled, bits, show k % 2 = 0 by omega, add_zero]

end Jacobian

end KeyTree.Curve
