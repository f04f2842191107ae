import KeyTree.Proofs.Key.Calls
import KeyTree.Proofs.Key.EncodedSignature
/-!
Verification and the test of the textbooks.

A signature is brought into its low form before it is verified.  The point that the twin leads to
is the opposite one and has the same `x`, so exactly those signatures are accepted that pass the
plain test with their own second element (`HasPoint.verifies_iff`).
-/

set_option autoImplicit false
set_option relaxedAutoImplicit false

namespace KeyTree

open Curve

namespace Ecdsa

/-- The point `(z/s)G + (r/s)Q`, where the hash is `z`. -/
noncomputable def testPoint (Q : PointGroup) (hash : Octets 32) (r s : Nat) : PointGroup :=
  ((hash.value : ZMod order) / s) • G + ((r : ZMod order) / s) • Q

/-- The test of the textbooks: the point is not the identity, and its `x` modulo the order is
`r`. -/
def Accepts (Q : PointGroup) (hash : Octets 32) (r s : Nat) : Prop :=
  ∃ R, Point.ofGroup (testPoint Q hash r s) = .affine R ∧ R.x.val % order = r

private theorem noncePointFor_eq_testPoint (Q : PointGroup) (hash : Octets 32) (σ : Signature) :
    noncePointFor Q hash σ = testPoint Q hash σ.r.val σ.s.val := by
  rw [noncePointFor, testPoint, smul_add, smul_smul, smul_smul, toZMod_hashScalar,
    div_eq_inv_mul, div_eq_inv_mul]
  rfl

private theorem verifies_iff_accepts {A : Affine} {Q : PointGroup}
    (point : Point.ofGroup Q = .affine A) {hash : Octets 32} {σ : Signature} :
    verifies A hash σ = true ↔ Accepts Q hash σ.r.val σ.s.val := by
  simp only [verifies_iff point, noncePointFor_eq_testPoint, pointScalar_eq_iff, Accepts]

private theorem hashScalar_eq_iff {hash hash' : Octets 32} :
    hashScalar hash = hashScalar hash' ↔ hash.value % order = hash'.value % order :=
  Residue.ext_iff

private theorem verifies_congr {hash hash' : Octets 32} (same : hashScalar hash = hashScalar hash')
    (A : Affine) (σ : Signature) : verifies A hash σ = verifies A hash' σ := by
  simp only [verifies, same]

end Ecdsa

namespace KeyPair

open Ecdsa

variable {p : KeyPair} {Q : PointGroup} {hash hash' : Octets 32} {der : Bytes}

private theorem verifies_of_missing (missing : p.publicPoint = none) :
    p.verifies hash der = false := by
  rw [verifies, missing]

private theorem verifies_eq_of_mod_eq (same : hash.value % order = hash'.value % order) :
    p.verifies hash der = p.verifies hash' der := by
  simp only [verifies, verifies_congr (hashScalar_eq_iff.mpr same)]

private theorem verifies_twin (σ : Signature) :
    p.verifies hash σ.twin.toDer = p.verifies hash σ.toDer := by
  cases own : p.publicPoint with
  | none => rw [verifies_of_missing own, verifies_of_missing own]
  | some A => rw [verifies_toDer_eq own, verifies_toDer_eq own, σ.lowS_twin]

private theorem HasPoint.verifies_toDer_iff (own : p.HasPoint Q) {σ : Signature} :
    p.verifies hash σ.toDer = true ↔ Accepts Q hash σ.r.val σ.s.val := by
  obtain ⟨A, loaded, point⟩ := own
  rw [verifies_toDer loaded (Point.onCurve_of_ofGroup point), verifies_iff_accepts point]

/-- Verification accepts the encodings of the signatures that pass the test of the textbooks. -/
theorem HasPoint.verifies_iff (own : p.HasPoint Q) :
    p.verifies hash der = true ↔
      ∃ σ, Signature.ofDer? der = some σ ∧ Accepts Q hash σ.r.val σ.s.val := by
  constructor
  · intro good
    obtain ⟨σ, read⟩ := Signature.exists_ofDer?_of_verifies good
    obtain rfl := Signature.ofDer?_eq_some_iff.mp read
    exact ⟨σ, read, own.verifies_toDer_iff.mp good⟩
  · rintro ⟨σ, read, accepted⟩
    obtain rfl := Signature.ofDer?_eq_some_iff.mp read
    exact own.verifies_toDer_iff.mpr accepted

private theorem Sound.missing_or_hasPoint (sound : p.Sound) :
    p.publicPoint = none ∨ ∃ Q, p.HasPoint Q := by
  cases own : p.publicPoint with
  | none => exact .inl rfl
  | some A =>
      obtain ⟨Q, point⟩ := sound.exists_ofGroup own
      exact .inr ⟨Q, A, own, point⟩

/-- A pair that programs come by has no public point or one in the group.  With a point, it accepts
exactly the encodings of the signatures that pass the test of the textbooks as they are, low or not,
and so with each of them the one whose second elements add up to the order.  Hashes that are equal
modulo the order give the same answer, and without a point the answer is no. -/
theorem verification_exact :
    (∀ calls, (after calls).publicPoint = none ∨ ∃ Q, (after calls).HasPoint Q) ∧
    (∀ (p : KeyPair) (Q : PointGroup), p.HasPoint Q → ∀ hash der,
      p.verifies hash der = true ↔
        ∃ σ, Signature.ofDer? der = some σ ∧ Accepts Q hash σ.r.val σ.s.val) ∧
    (∀ (p : KeyPair) hash (σ τ : Signature), σ.r = τ.r → σ.s.val + τ.s.val = order →
      p.verifies hash τ.toDer = p.verifies hash σ.toDer) ∧
    (∀ (p : KeyPair) (hash hash' : Octets 32) der, hash.value % order = hash'.value % order →
      p.verifies hash der = p.verifies hash' der) ∧
    ∀ (p : KeyPair) hash der, p.publicPoint = none → p.verifies hash der = false := by
  refine ⟨fun calls => (sound_after calls).missing_or_hasPoint, ?_, ?_, ?_, ?_⟩
  · exact fun p Q own hash der => own.verifies_iff
  · intro p hash σ τ first second
    rw [← Signature.twin_eq_of_add_eq first second]
    exact verifies_twin σ
  · exact fun p hash hash' der => verifies_eq_of_mod_eq
  · exact fun p hash der => verifies_of_missing

/-- The hash of zeros signed by the secret one, with the nonce one. -/
def generatorSignature : Signature where
  r := pointScalar generator
  s := pointScalar generator
  r_ne_zero := by decide
  s_ne_zero := by decide

private theorem verifies_generatorSignature :
    (ofPublicKey ⟨generator, true⟩).verifies (Octets.zero 32) generatorSignature.toDer = true := by
  decide +kernel

theorem verification_exact_generator :
    ∃ (p : KeyPair) (τ : Signature), p.HasPoint G ∧ τ.s.val + generatorSignature.s.val = order ∧
      Accepts G (Octets.zero 32) τ.r.val τ.s.val ∧
      p.verifies (Octets.zero 32) τ.toDer = true ∧ p.verifies orderOctets τ.toDer = true ∧
      empty.verifies (Octets.zero 32) τ.toDer = false := by
  obtain ⟨-, exact, twins, hashes, missing⟩ := verification_exact
  have own : (ofPublicKey ⟨generator, true⟩).HasPoint G := ⟨generator, rfl, ofGroup_G⟩
  have opposite : generatorSignature.s.val + generatorSignature.twin.s.val = order := by
    decide +kernel
  have good : (ofPublicKey ⟨generator, true⟩).verifies (Octets.zero 32)
      generatorSignature.twin.toDer = true := by
    rw [twins _ _ generatorSignature generatorSignature.twin rfl opposite]
    exact verifies_generatorSignature
  obtain ⟨τ, read, accepted⟩ := (exact _ G own _ _).mp good
  have same : orderOctets.value % order = (Octets.zero 32).value % order := by decide +kernel
  obtain rfl := Option.some.inj (read.symm.trans (Signature.ofDer?_toDer _))
  exact ⟨_, _, own, (Nat.add_comm _ _).trans opposite, accepted, good,
    (hashes _ _ _ _ same).trans good, missing empty _ _ rfl⟩

end KeyPair

end KeyTree
