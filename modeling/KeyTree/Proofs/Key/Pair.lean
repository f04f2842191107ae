import KeyTree.Key.Pair
import KeyTree.Proofs.Except
import KeyTree.Proofs.Signature.Equation
/-!
What the operations on key pairs compute, in terms of the group.

A pair of a secret `d` has the public point `dG`.  What it signs is a low signature from which
this point can be found.
-/

set_option autoImplicit false
set_option relaxedAutoImplicit false

namespace KeyTree.KeyPair

open Curve Ecdsa

variable {d : Scalar} {hash : Octets 32} {σ : Signature}

private theorem secretOf_eq_ok_iff {o : Octets 32} :
    secretOf o = .ok d ↔ d ≠ 0 ∧ d.val = o.value := by
  rw [secretOf, Residue.ofOctets?]
  constructor
  · intro read
    split at read
    · rename_i d' found
      split at read
      · contradiction
      · rename_i nonzero
        obtain rfl := Except.ok.inj read
        exact ⟨nonzero, Residue.ofNat?_eq_some_iff.mp found⟩
    · contradiction
  · rintro ⟨nonzero, value⟩
    rw [Residue.ofNat?_eq_some_iff.mpr value]
    exact if_neg nonzero

theorem ofSecret_eq_ok_iff {o : Octets 32} {p : KeyPair} :
    ofSecret o = .ok p ↔ ∃ d : Scalar, d ≠ 0 ∧ d.val = o.value ∧ p = ofScalar d := by
  rw [ofSecret, map_eq_ok_iff]
  constructor
  · rintro ⟨d, read, rfl⟩
    obtain ⟨nonzero, value⟩ := secretOf_eq_ok_iff.mp read
    exact ⟨d, nonzero, value, rfl⟩
  · rintro ⟨d, nonzero, value, rfl⟩
    exact ⟨d, secretOf_eq_ok_iff.mpr ⟨nonzero, value⟩, rfl⟩

theorem ofSecret_eq_ok_iff_toOctets {o : Octets 32} {p : KeyPair} :
    ofSecret o = .ok p ↔ ∃ d : Scalar, d ≠ 0 ∧ o = d.toOctets 32 ∧ p = ofScalar d := by
  rw [ofSecret_eq_ok_iff]
  constructor
  · rintro ⟨d, nonzero, value, rfl⟩
    exact ⟨d, nonzero, (Residue.toOctets_eq_of_val value).symm, rfl⟩
  · rintro ⟨d, nonzero, rfl, rfl⟩
    exact ⟨d, nonzero, (value_scalar d).symm, rfl⟩

theorem exists_ofSecret {o : Octets 32} (positive : 0 < o.value) (bounded : o.value < order) :
    ∃ d : Scalar, d ≠ 0 ∧ d.val = o.value ∧ ofSecret o = .ok (ofScalar d) := by
  let d : Scalar := ⟨o.value, bounded⟩
  have nonzero : d ≠ 0 := Residue.val_pos_iff.mp positive
  exact ⟨d, nonzero, rfl, ofSecret_eq_ok_iff.mpr ⟨d, nonzero, rfl, rfl⟩⟩

theorem ofSecret_toOctets (nonzero : d ≠ 0) : ofSecret (d.toOctets 32) = .ok (ofScalar d) :=
  ofSecret_eq_ok_iff_toOctets.mpr ⟨d, nonzero, rfl, rfl⟩

theorem smul_G_ne_zero (nonzero : d ≠ 0) : d.toZMod • G ≠ 0 :=
  smul_ne_zero (mt Residue.toZMod_eq_zero.mp nonzero) G_ne_zero

theorem exists_publicPoint_ofScalar (nonzero : d ≠ 0) :
    ∃ A, Point.ofGroup (d.toZMod • G) = .affine A ∧ (ofScalar d).publicPoint = some A := by
  obtain ⟨A, coordinates⟩ := Point.exists_ofGroup_eq_affine (smul_G_ne_zero nonzero)
  refine ⟨A, coordinates, ?_⟩
  rw [ofScalar, generator_times, coordinates]
  rfl

/-- The public point of the pair is the element `Q` of the group. -/
def HasPoint (p : KeyPair) (Q : PointGroup) : Prop :=
  ∃ A, p.publicPoint = some A ∧ Point.ofGroup Q = .affine A

theorem hasPoint_ofScalar (nonzero : d ≠ 0) : (ofScalar d).HasPoint (d.val • G) := by
  obtain ⟨A, point, own⟩ := exists_publicPoint_ofScalar nonzero
  rw [toZMod_smul] at point
  exact ⟨A, own, point⟩

section

variable {p : KeyPair} {A : Affine}

theorem needPublic_eq (own : p.publicPoint = some A) : p.needPublic = .ok A := by
  rw [needPublic, own]

theorem publicKey_eq (own : p.publicPoint = some A) (compressed : Bool) :
    p.publicKey compressed = .ok ⟨A, compressed⟩ := by
  rw [publicKey, needPublic_eq own]
  rfl

end

theorem signatureBy_ofScalar (nonceOf : Scalar → Option Scalar) :
    (ofScalar d).signatureBy nonceOf hash =
      match (nonceOf d).bind fun k => sign? d k hash with
      | none => .error .unusableNonce
      | some σ => .ok σ.lowS := by
  have own : (ofScalar d).needSecret = .ok d := rfl
  rw [signatureBy, own, ok_bind]
  cases (nonceOf d).bind fun k => sign? d k hash with
  | none => rfl
  | some σ => exact σ.enforceLow_eq

theorem signatureBy_ofScalar_eq_ok_iff {nonceOf : Scalar → Option Scalar} {τ : Signature} :
    (ofScalar d).signatureBy nonceOf hash = .ok τ ↔
      ∃ k σ, nonceOf d = some k ∧ sign? d k hash = some σ ∧ τ = σ.lowS := by
  rw [signatureBy_ofScalar]
  constructor
  · intro made
    split at made
    · contradiction
    · rename_i σ signed
      obtain ⟨k, drawn, signed⟩ := Option.bind_eq_some_iff.mp signed
      exact ⟨k, σ, drawn, signed, (Except.ok.inj made).symm⟩
  · rintro ⟨k, σ, drawn, signed, rfl⟩
    rw [drawn, Option.bind_some, signed]

theorem isLow_and_exists_finds {nonceOf : Scalar → Option Scalar}
    (signed : (ofScalar d).signatureBy nonceOf hash = .ok σ) :
    σ.isLow = true ∧ ∃ id : RecoveryId, id.Finds hash σ (d.toZMod • G) := by
  obtain ⟨k, τ, -, made, rfl⟩ := signatureBy_ofScalar_eq_ok_iff.mp signed
  obtain ⟨id, found⟩ := exists_finds_of_sign? made
  exact ⟨τ.isLow_lowS, _, finds_lowS_iff.mpr found⟩

/-- What is tested is the low form of the signature that was read. -/
theorem verifies_toDer_eq {p : KeyPair} {A : Affine} (own : p.publicPoint = some A)
    (hash : Octets 32) (σ : Signature) :
    p.verifies hash σ.toDer = Ecdsa.verifies A hash σ.lowS := by
  simp only [verifies, own, Signature.ofDer?_toDer, Signature.enforceLow_eq]

theorem verifies_toDer {p : KeyPair} {A : Affine} (own : p.publicPoint = some A)
    (onCurve : A.OnCurve) (hash : Octets 32) (σ : Signature) :
    p.verifies hash σ.toDer = Ecdsa.verifies A hash σ := by
  rw [verifies_toDer_eq own, verifies_lowS onCurve]

/-! ### Tweaking -/

private theorem tweakOf_eq (tweak : Octets 32) :
    tweakOf tweak =
      match Residue.ofOctets? order tweak with
      | none => .error .tweakOutOfRange
      | some t => .ok t := by
  rw [tweakOf]
  cases Residue.ofOctets? order tweak <;> rfl

theorem tweakSecret_toOctets (nonzero : d ≠ 0) (tweak : Octets 32) :
    tweakSecret (d.toOctets 32) tweak =
      match Residue.ofOctets? order tweak with
      | none => .error .tweakOutOfRange
      | some t => if d + t = 0 then .error .tweakToIdentity else .ok ((d + t).toOctets 32) := by
  have secret : secretOf (d.toOctets 32) = .ok d :=
    secretOf_eq_ok_iff.mpr ⟨nonzero, (value_scalar d).symm⟩
  rw [tweakSecret, secret, tweakOf_eq]
  cases Residue.ofOctets? order tweak <;> rfl

theorem apply_tweakPublic {p : KeyPair} {A : Affine} {Q : PointGroup}
    (own : p.publicPoint = some A) (coordinates : Point.ofGroup Q = .affine A)
    (tweak : Octets 32) :
    (tweakPublic tweak).apply p =
      match Residue.ofOctets? order tweak with
      | none => (.error .tweakOutOfRange, p)
      | some t =>
          match Point.ofGroup (Q + t.toZMod • G) with
          | .infinity => (.error .tweakToIdentity, p)
          | .affine B => (.ok (), ⟨none, some B⟩) := by
  simp only [tweakPublic, Update.apply_bind, Update.apply_get, Update.apply_ofExcept,
    needPublic_eq own, tweakOf_eq]
  cases Residue.ofOctets? order tweak with
  | none => rfl
  | some t =>
      have sum : Point.affine A + generator.times t = Point.ofGroup (Q + t.toZMod • G) := by
        rw [← coordinates, generator_times, ← Point.ofGroup_add]
      simp only [sum]
      cases Point.ofGroup (Q + t.toZMod • G) with
      | infinity => rfl
      | affine B => rfl

end KeyTree.KeyPair
