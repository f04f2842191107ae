import KeyTree.Proofs.Signature.Elements
import KeyTree.Signature.Ecdsa
import Mathlib.Tactic.Module
/-!
Verification and recovery as one equation in the group.

A signature `(r, s)` of a hash with the scalar `z` is good for the public point `Q` if the point
`R = (zG + rQ) / s` has `r` as its scalar.  `verifies_iff` says so of verification.  Recovery goes
from `R` to `Q`; `recover?_eq_some_iff` says that it finds the same pairs, with the id of `R`.
-/

set_option autoImplicit false
set_option relaxedAutoImplicit false

namespace KeyTree

open Curve

namespace Curve.Affine

private theorem of_ofX? {x : Coordinate} {odd : Bool} {P : Affine} (found : ofX? x odd = some P) :
    P.OnCurve ∧ P.x = x ∧ P.y.isOdd = odd := by
  obtain ⟨y, root, rfl⟩ := Option.map_eq_some_iff.mp found
  have square := Residue.mul_self_of_sqrt? root
  have opposite_square : -y * -y = x * x * x + 7 := by
    apply Residue.toZMod_injective
    rw [← square]
    simp
  have y_ne : y ≠ 0 := y_ne_zero (P := ⟨x, y⟩) square
  split
  · rename_i parity
    exact ⟨square, rfl, parity⟩
  · rename_i unlike
    refine ⟨opposite_square, rfl, ?_⟩
    rw [Residue.isOdd_neg y_ne, Bool.not_eq.mpr unlike]

theorem ofX?_eq_some_iff {x : Coordinate} {odd : Bool} {P : Affine} :
    ofX? x odd = some P ↔ P.OnCurve ∧ P.x = x ∧ P.y.isOdd = odd := by
  constructor
  · exact of_ofX?
  · rintro ⟨onCurve, rfl, rfl⟩
    obtain ⟨root, found⟩ := Residue.exists_sqrt?_mul_self (by decide) P.y
    have lifted : ofX? P.x P.y.isOdd =
        some ⟨P.x, if root.isOdd = P.y.isOdd then root else -root⟩ := by
      rw [ofX?, ← onCurve, found, Option.map_some]
    obtain ⟨onCurve', x_eq, parity⟩ := of_ofX? lifted
    rw [lifted, eq_of_x_of_parity onCurve' onCurve x_eq parity]

theorem exists_ofX?_iff {x : Coordinate} {odd : Bool} :
    (∃ P, ofX? x odd = some P) ↔ IsSquare (x.toZMod ^ 3 + 7) := by
  have cube : x.toZMod ^ 3 = x.toZMod * x.toZMod * x.toZMod := by ring
  rw [cube]
  constructor
  · rintro ⟨P, found⟩
    obtain ⟨onCurve, rfl, -⟩ := ofX?_eq_some_iff.mp found
    exact ⟨P.y.toZMod, (onCurve_iff.mp onCurve).symm⟩
  · rintro ⟨y, square⟩
    have own : x * x * x + 7 = Residue.ofZMod y * Residue.ofZMod y := by
      apply Residue.toZMod_injective
      simpa using square
    obtain ⟨root, found⟩ := Residue.exists_sqrt?_mul_self (by decide) (Residue.ofZMod y)
    rw [ofX?, own, found]
    exact ⟨_, rfl⟩

end Curve.Affine

namespace Ecdsa

theorem pointScalar_eq_iff {R : Affine} {r : Scalar} :
    pointScalar R = r ↔ R.x.val % order = r.val :=
  Residue.ext_iff

theorem toZMod_hashScalar (hash : Octets 32) :
    (hashScalar hash).toZMod = (hash.value : ZMod order) :=
  Residue.toZMod_ofNat hash.value

/-- The id of a point: whether its `y` is odd, and whether its `x` is not below the order. -/
def RecoveryId.ofPoint (R : Affine) : RecoveryId :=
  ⟨R.y.isOdd, order ≤ R.x.val⟩

/-- The point is on the curve, its `x` is `r`, or `r` plus the order if the id is reduced, and its
`y` has the parity of the id. -/
structure RecoveryId.Selects (id : RecoveryId) (r : Scalar) (R : Affine) : Prop where
  onCurve : R.OnCurve
  x_eq : R.x.val = if id.reduced then r.val + order else r.val
  parity : R.y.isOdd = id.odd

private theorem noncePoint?_eq_some_iff {r : Scalar} {id : RecoveryId} {R : Affine} :
    noncePoint? r id = some R ↔ id.Selects r R := by
  simp only [noncePoint?, Option.bind_eq_bind, Option.bind_eq_some_iff,
    Residue.ofNat?_eq_some_iff, Affine.ofX?_eq_some_iff]
  constructor
  · rintro ⟨x, value, onCurve, rfl, parity⟩
    exact ⟨onCurve, value, parity⟩
  · rintro ⟨onCurve, value, parity⟩
    exact ⟨R.x, value, onCurve, rfl, parity⟩

theorem selects_iff {r : Scalar} {id : RecoveryId} {R : Affine} :
    id.Selects r R ↔ R.OnCurve ∧ pointScalar R = r ∧ RecoveryId.ofPoint R = id := by
  have x_lt : R.x.val < order + order := R.x.val_lt.trans (by decide)
  obtain ⟨odd, reduced⟩ := id
  rw [pointScalar_eq_iff, RecoveryId.ofPoint, RecoveryId.mk.injEq]
  have r_lt := r.val_lt
  constructor
  · rintro ⟨onCurve, x_eq, parity⟩
    cases reduced with
    | false =>
      have x_eq : R.x.val = r.val := x_eq
      have below : ¬ order ≤ R.x.val := by omega
      exact ⟨onCurve, by rw [x_eq, Nat.mod_eq_of_lt r_lt], parity, decide_eq_false below⟩
    | true =>
      have x_eq : R.x.val = r.val + order := x_eq
      have above : order ≤ R.x.val := by omega
      exact ⟨onCurve, by rw [x_eq, Nat.add_mod_right, Nat.mod_eq_of_lt r_lt], parity,
        decide_eq_true above⟩
  · rintro ⟨onCurve, remainder, parity, rfl⟩
    refine ⟨onCurve, ?_, parity⟩
    -- The field prime is below twice the order, so the remainder takes off one order at most.
    by_cases above : order ≤ R.x.val
    · have less : (R.x.val - order) % order = R.x.val - order := Nat.mod_eq_of_lt (by omega)
      rw [Nat.mod_eq_sub_mod above, less] at remainder
      simp only [above, decide_true, if_true]
      omega
    · rw [Nat.mod_eq_of_lt (by omega)] at remainder
      simp only [above, decide_false, Bool.false_eq_true, if_false]
      exact remainder

/-- The id finds the public point `Q`: it selects a point `R` for `r`, and `Q` is
`r⁻¹ (sR - zG)`. -/
def RecoveryId.Finds (id : RecoveryId) (hash : Octets 32) (σ : Signature) (Q : PointGroup) :
    Prop :=
  ∃ (R : PointGroup) (A : Affine), Point.ofGroup R = .affine A ∧ id.Selects σ.r A ∧
    Q = σ.r.toZMod⁻¹ • (σ.s.toZMod • R - (hashScalar hash).toZMod • G)

/-- The point that a signature was made from if it is good for the public point `Q`. -/
noncomputable def noncePointFor (Q : PointGroup) (hash : Octets 32) (σ : Signature) : PointGroup :=
  σ.s.toZMod⁻¹ • ((hashScalar hash).toZMod • G + σ.r.toZMod • Q)

/-- The equation of a signature, solved for the public point and for the nonce's point. -/
theorem eq_smul_sub_iff {Q R : PointGroup} {hash : Octets 32} {σ : Signature} :
    Q = σ.r.toZMod⁻¹ • (σ.s.toZMod • R - (hashScalar hash).toZMod • G) ↔
      R = noncePointFor Q hash σ := by
  rw [noncePointFor, eq_inv_smul_iff₀ σ.toZMod_r_ne_zero, eq_inv_smul_iff₀ σ.toZMod_s_ne_zero,
    eq_sub_iff_add_eq, add_comm, eq_comm]

theorem finds_iff {id : RecoveryId} {hash : Octets 32} {σ : Signature} {Q : PointGroup} :
    id.Finds hash σ Q ↔
      ∃ A, Point.ofGroup (noncePointFor Q hash σ) = .affine A ∧ id.Selects σ.r A := by
  constructor
  · rintro ⟨R, A, coordinates, selected, equation⟩
    rw [eq_smul_sub_iff.mp equation] at coordinates
    exact ⟨A, coordinates, selected⟩
  · rintro ⟨A, coordinates, selected⟩
    exact ⟨noncePointFor Q hash σ, A, coordinates, selected, eq_smul_sub_iff.mpr rfl⟩

theorem finds_unique {id id' : RecoveryId} {hash : Octets 32} {σ : Signature} {Q : PointGroup}
    (found : id.Finds hash σ Q) (found' : id'.Finds hash σ Q) : id = id' := by
  obtain ⟨A, coordinates, selected⟩ := finds_iff.mp found
  obtain ⟨A', coordinates', selected'⟩ := finds_iff.mp found'
  obtain rfl : A = A' := Point.affine.inj (coordinates.symm.trans coordinates')
  exact (selects_iff.mp selected).2.2.symm.trans (selects_iff.mp selected').2.2

theorem verifies_iff {A : Affine} {Q : PointGroup} (hQ : Point.ofGroup Q = .affine A)
    {hash : Octets 32} {σ : Signature} :
    verifies A hash σ = true ↔
      ∃ R, Point.ofGroup (noncePointFor Q hash σ) = .affine R ∧ pointScalar R = σ.r := by
  have sum : generator.times (hashScalar hash * σ.s.inverse) + A.times (σ.r * σ.s.inverse) =
      Point.ofGroup (noncePointFor Q hash σ) := by
    rw [generator_times, Affine.times_eq hQ, ← Point.ofGroup_add, Residue.toZMod_mul,
      Residue.toZMod_mul, Residue.toZMod_inverse, noncePointFor]
    congr 1
    module
  simp only [verifies, sum]
  split
  · rename_i infinity
    simp [infinity]
  · rename_i R affine
    simp [affine]

theorem verifies_iff_exists_finds {A : Affine} {Q : PointGroup}
    (hQ : Point.ofGroup Q = .affine A) {hash : Octets 32} {σ : Signature} :
    verifies A hash σ = true ↔ ∃ id : RecoveryId, id.Finds hash σ Q := by
  rw [verifies_iff hQ]
  constructor
  · rintro ⟨R, coordinates, scalar⟩
    refine ⟨RecoveryId.ofPoint R, finds_iff.mpr ⟨R, coordinates, ?_⟩⟩
    exact selects_iff.mpr ⟨Point.onCurve_of_ofGroup coordinates, scalar, rfl⟩
  · rintro ⟨id, found⟩
    obtain ⟨R, coordinates, selected⟩ := finds_iff.mp found
    exact ⟨R, coordinates, (selects_iff.mp selected).2.1⟩

/-- Recovery computes `r⁻¹ (sR - zG)` from the point `R` that the id selects. -/
theorem recover?_of_selects {hash : Octets 32} {σ : Signature} {id : RecoveryId} {A : Affine}
    {R : PointGroup} (point : Point.ofGroup R = .affine A) (selected : id.Selects σ.r A) :
    recover? hash σ id = (Point.ofGroup (σ.r.toZMod⁻¹ •
      (σ.s.toZMod • R - (hashScalar hash).toZMod • G))).affine? := by
  have sum : generator.times (-(hashScalar hash * σ.r.inverse)) + A.times (σ.s * σ.r.inverse) =
      Point.ofGroup (σ.r.toZMod⁻¹ • (σ.s.toZMod • R - (hashScalar hash).toZMod • G)) := by
    rw [generator_times, Affine.times_eq point, ← Point.ofGroup_add, Residue.toZMod_neg,
      Residue.toZMod_mul, Residue.toZMod_mul, Residue.toZMod_inverse]
    congr 1
    module
  simp only [recover?, noncePoint?_eq_some_iff.mpr selected, Option.bind_eq_bind,
    Option.bind_some, sum]

theorem recover?_eq_some_iff {hash : Octets 32} {σ : Signature} {id : RecoveryId} {A : Affine} :
    recover? hash σ id = some A ↔
      ∃ Q, Point.ofGroup Q = .affine A ∧ id.Finds hash σ Q := by
  constructor
  · intro recovered
    obtain ⟨B, selected, -⟩ := Option.bind_eq_some_iff.mp recovered
    rw [noncePoint?_eq_some_iff] at selected
    obtain ⟨R, point⟩ := Point.onCurve_iff_exists_ofGroup.mp selected.onCurve
    rw [recover?_of_selects point selected, Point.affine?_eq_some_iff] at recovered
    exact ⟨_, recovered, R, B, point, selected, rfl⟩
  · rintro ⟨_, result, R, B, point, selected, rfl⟩
    rw [recover?_of_selects point selected, result]
    rfl

/-- Signing divides `z + rd` by the nonce, where `r` is the scalar of the nonce's point. -/
theorem sign?_eq_some_iff {d k : Scalar} {hash : Octets 32} {σ : Signature} :
    sign? d k hash = some σ ↔
      ∃ R, Point.ofGroup (k.toZMod • G) = .affine R ∧ σ.r = pointScalar R ∧
        σ.s = (hashScalar hash + σ.r * d) / k := by
  rw [sign?, generator_times]
  split
  · rename_i infinity
    simp [infinity]
  · rename_i R coordinates
    rw [coordinates, Signature.ofScalars?_eq_some_iff]
    constructor
    · rintro ⟨r_eq, s_eq⟩
      exact ⟨R, rfl, r_eq, by rw [s_eq, r_eq]⟩
    · rintro ⟨_, same, r_eq, s_eq⟩
      obtain rfl := Point.affine.inj same
      exact ⟨r_eq, by rw [s_eq, r_eq]⟩

theorem noncePointFor_of_sign? {d k : Scalar} {hash : Octets 32} {σ : Signature}
    (signed : sign? d k hash = some σ) : noncePointFor (d.toZMod • G) hash σ = k.toZMod • G := by
  obtain ⟨R, coordinates, -, s_eq⟩ := sign?_eq_some_iff.mp signed
  have k_ne : k.toZMod ≠ 0 := by
    intro zero
    rw [zero, zero_smul (ZMod order) G, Point.ofGroup_zero] at coordinates
    contradiction
  have numerator :
      (hashScalar hash).toZMod + σ.r.toZMod * d.toZMod = σ.s.toZMod * k.toZMod := by
    rw [s_eq, Residue.toZMod_div, Residue.toZMod_add, Residue.toZMod_mul, div_mul_cancel₀ _ k_ne]
  calc noncePointFor (d.toZMod • G) hash σ
      = σ.s.toZMod⁻¹ • (((hashScalar hash).toZMod + σ.r.toZMod * d.toZMod) • G) := by
        rw [noncePointFor, add_smul, mul_smul]
    _ = k.toZMod • G := by
        rw [numerator, mul_smul, inv_smul_smul₀ σ.toZMod_s_ne_zero]

theorem exists_finds_of_sign? {d k : Scalar} {hash : Octets 32} {σ : Signature}
    (signed : sign? d k hash = some σ) : ∃ id : RecoveryId, id.Finds hash σ (d.toZMod • G) := by
  obtain ⟨R, coordinates, r_eq, -⟩ := sign?_eq_some_iff.mp signed
  refine ⟨RecoveryId.ofPoint R, finds_iff.mpr ⟨R, ?_, ?_⟩⟩
  · rw [noncePointFor_of_sign? signed, coordinates]
  · exact selects_iff.mpr ⟨Point.onCurve_of_ofGroup coordinates, r_eq.symm, rfl⟩

/-! ### The twin of a signature

Its point is the opposite one, which has the same scalar and the opposite id. -/

private theorem noncePointFor_twin (Q : PointGroup) (hash : Octets 32) (σ : Signature) :
    noncePointFor Q hash σ.twin = -noncePointFor Q hash σ := by
  have s_eq : σ.twin.s.toZMod = -σ.s.toZMod := Residue.toZMod_neg _
  rw [noncePointFor, noncePointFor, s_eq, inv_neg, neg_smul]
  rfl

private theorem RecoveryId.opposite_opposite (id : RecoveryId) : id.opposite.opposite = id := by
  simp [RecoveryId.opposite]

private theorem RecoveryId.Selects.opposite {id : RecoveryId} {r : Scalar} {R : Affine}
    (selected : id.Selects r R) : id.opposite.Selects r ⟨R.x, -R.y⟩ where
  onCurve := by
    apply Residue.toZMod_injective
    have onCurve := congrArg Residue.toZMod selected.onCurve
    simpa using onCurve
  x_eq := selected.x_eq
  parity := by
    rw [Residue.isOdd_neg (Affine.y_ne_zero selected.onCurve), selected.parity]
    rfl

theorem RecoveryId.Finds.twin {id : RecoveryId} {hash : Octets 32} {σ : Signature}
    {Q : PointGroup} (found : id.Finds hash σ Q) : id.opposite.Finds hash σ.twin Q := by
  obtain ⟨A, coordinates, selected⟩ := finds_iff.mp found
  refine finds_iff.mpr ⟨⟨A.x, -A.y⟩, ?_, selected.opposite⟩
  rw [noncePointFor_twin, Point.ofGroup_neg, coordinates]
  rfl

private theorem finds_twin_iff {id : RecoveryId} {hash : Octets 32} {σ : Signature}
    {Q : PointGroup} : id.opposite.Finds hash σ.twin Q ↔ id.Finds hash σ Q := by
  constructor
  · intro found
    have back := found.twin
    rwa [id.opposite_opposite, σ.twin_twin] at back
  · exact RecoveryId.Finds.twin

theorem finds_lowS_iff {id : RecoveryId} {hash : Octets 32} {σ : Signature} {Q : PointGroup} :
    (if σ.isLow then id else id.opposite).Finds hash σ.lowS Q ↔ id.Finds hash σ Q := by
  unfold Signature.lowS
  split
  · rfl
  · exact finds_twin_iff

theorem recover?_lowS (hash : Octets 32) (σ : Signature) (id : RecoveryId) :
    recover? hash σ.lowS (if σ.isLow then id else id.opposite) = recover? hash σ id := by
  apply Option.ext
  intro A
  simp only [recover?_eq_some_iff, finds_lowS_iff]

theorem verifies_lowS {A : Affine} (onCurve : A.OnCurve) (hash : Octets 32) (σ : Signature) :
    verifies A hash σ.lowS = verifies A hash σ := by
  obtain ⟨Q, hQ⟩ := Point.onCurve_iff_exists_ofGroup.mp onCurve
  rw [Bool.eq_iff_iff, verifies_iff_exists_finds hQ, verifies_iff_exists_finds hQ]
  -- The low form changes the id that finds `Q`, but not whether there is one.
  constructor
  · rintro ⟨id, found⟩
    refine ⟨if σ.isLow then id else id.opposite, finds_lowS_iff.mp ?_⟩
    split <;> simpa [RecoveryId.opposite_opposite]
  · rintro ⟨id, found⟩
    exact ⟨_, finds_lowS_iff.mpr found⟩

end Ecdsa

end KeyTree
