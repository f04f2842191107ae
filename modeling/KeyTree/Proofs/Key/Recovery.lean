import KeyTree.Proofs.Key.Pair
import KeyTree.Proofs.Signature.Forms
/-!
Recovery of a public key from a signature, and its relation to verification.

Both reduce their signature to the low form first, recovery together with the id, so both can be
read as statements on the signature as given.
-/

set_option autoImplicit false
set_option relaxedAutoImplicit false

namespace KeyTree

open Curve

namespace KeyPair

open Ecdsa

section

variable {A : Affine} {Q : PointGroup} {hash : Octets 32} {σ : Signature} {id : RecoveryId}

theorem recover?_eq_some_iff_eq (point : Point.ofGroup Q = .affine A) (found : id.Finds hash σ Q)
    {id' : RecoveryId} : recover? hash σ id' = some A ↔ id' = id := by
  rw [recover?_eq_some_iff]
  constructor
  · rintro ⟨Q', point', found'⟩
    rw [Point.ofGroup_injective (point'.trans point.symm)] at found'
    exact finds_unique found' found
  · rintro rfl
    exact ⟨Q, point, found⟩

/-- The search over all ids comes upon the one that finds the own point. -/
theorem recoveryIdOf_eq {p : KeyPair} (own : p.publicPoint = some A)
    (point : Point.ofGroup Q = .affine A) (found : id.Finds hash σ Q) :
    p.recoveryIdOf hash σ = .ok id := by
  have test : (fun candidate => recover? hash σ candidate == some A) =
      fun candidate => candidate == id := by
    funext candidate
    rw [Bool.eq_iff_iff, beq_iff_eq, beq_iff_eq]
    exact recover?_eq_some_iff_eq point found
  simp only [recoveryIdOf, needPublic_eq own, test, RecoveryId.find?_all, ok_bind]

end

section

variable {hash : Octets 32} {raw : Octets 64} {b : UInt8}

theorem recover_of_refused (large : 3 ≤ b) :
    recover hash raw b = .error (.invalidRecoveryId b) := by
  rw [recover, if_neg (UInt8.not_lt.mpr large)]

theorem recover_of_unread (small : b < 3) (unread : Signature.ofRaw? raw = none) :
    recover hash raw b = .error (.invalidSignature .elementOutOfRange) := by
  obtain ⟨id, rfl⟩ := RecoveryId.exists_toByte (UInt8.lt_trans small (by decide))
  simp only [recover, if_pos small, RecoveryId.ofByte?_toByte, unread]

/-- With an id below three, the answer is what the signature as given leads to under this id. -/
theorem recover_of_read {id : RecoveryId} {σ : Signature} (small : id.toByte < 3)
    (read : Signature.ofRaw? raw = some σ) :
    recover hash raw id.toByte =
      match recover? hash σ id with
      | none => .error .recoveryFailed
      | some A => .ok ⟨none, some A⟩ := by
  simp only [recover, if_pos small, RecoveryId.ofByte?_toByte, read, Signature.enforceLow_eq,
    ok_bind, Signature.lowS_eq_self_iff, recover?_lowS]
  cases recover? hash σ id with
  | none => rfl
  | some A => rfl

theorem recover_eq_ok_iff {pair : KeyPair} :
    recover hash raw b = .ok pair ↔
      b < 3 ∧ ∃ id σ Q A, b = RecoveryId.toByte id ∧ Signature.ofRaw? raw = some σ ∧
        Point.ofGroup Q = .affine A ∧ id.Finds hash σ Q ∧ pair = ⟨none, some A⟩ := by
  constructor
  · intro recovered
    have small : b < 3 := by
      by_contra large
      rw [recover_of_refused (UInt8.not_lt.mp large)] at recovered
      cases recovered
    obtain ⟨id, rfl⟩ := RecoveryId.exists_toByte (UInt8.lt_trans small (by decide))
    cases read : Signature.ofRaw? raw with
    | none =>
        rw [recover_of_unread small read] at recovered
        cases recovered
    | some σ =>
        rw [recover_of_read small read] at recovered
        split at recovered
        · cases recovered
        · rename_i A found
          obtain ⟨Q, point, found⟩ := recover?_eq_some_iff.mp found
          exact ⟨small, id, σ, Q, A, rfl, rfl, point, found, (Except.ok.inj recovered).symm⟩
  · rintro ⟨small, id, σ, Q, A, rfl, read, point, found, rfl⟩
    rw [recover_of_read small read, recover?_eq_some_iff.mpr ⟨Q, point, found⟩]

end

theorem recover_eq_ofPublicKey_iff {key : PublicKey} {Q : PointGroup} {hash : Octets 32}
    {raw : Octets 64} {σ : Signature} {id : RecoveryId} {b : UInt8}
    (parsed : Signature.ofRaw? raw = some σ) (point : Point.ofGroup Q = .affine key.point)
    (found : id.Finds hash σ Q) :
    recover hash raw b = .ok (ofPublicKey key) ↔ b = id.toByte ∧ b ≤ 2 := by
  rw [recover_eq_ok_iff]
  constructor
  · -- An id that recovers the key finds its point, and only one id does.
    rintro ⟨small, id', σ', Q', A, rfl, parsed', point', found', same⟩
    obtain rfl : σ = σ' := Option.some.inj (parsed.symm.trans parsed')
    obtain rfl : key.point = A := Option.some.inj (congrArg publicPoint same)
    rw [Point.ofGroup_injective (point'.trans point.symm)] at found'
    rw [finds_unique found' found] at small ⊢
    exact ⟨rfl, lt_three_iff_le_two.mp small⟩
  · rintro ⟨rfl, small⟩
    exact ⟨lt_three_iff_le_two.mpr small, id, σ, Q, key.point, rfl, parsed, point, found, rfl⟩

/-- Recovery and verification describe the same relation.

What is recovered has no secret, its signature is in range and good for it.  Conversely a
signature that is good for a public key is traced back to it by exactly one id, and recovery
answers with the key for this id, unless it is three, and for no other. -/
theorem recover_iff_verifies (hash : Octets 32) (raw : Octets 64) :
    (∀ b pair, recover hash raw b = .ok pair →
      pair.hasSecret = false ∧ Signature.ElementsInRange raw ∧
        ∃ σ, Signature.ofRaw? raw = some σ ∧ pair.verifies hash σ.toDer = true) ∧
    (∀ (Q : PublicKey) (onCurve : Q.point.OnCurve), Signature.ElementsInRange raw →
      ∃ σ, Signature.ofRaw? raw = some σ ∧
        ((ofPublicKey Q).verifies hash σ.toDer = true →
          ∃ id : RecoveryId,
            (∀ id' : RecoveryId, id'.Finds hash σ (Q.point.toGroup onCurve) ↔ id' = id) ∧
            ∀ b, recover hash raw b = .ok (ofPublicKey Q) ↔ b = id.toByte ∧ b ≤ 2)) := by
  constructor
  · intro b pair recovered
    obtain ⟨_, id, σ, Q, A, -, parsed, hQ, found, rfl⟩ := recover_eq_ok_iff.mp recovered
    refine ⟨rfl, Signature.elementsInRange_iff.mpr ⟨σ, parsed⟩, σ, parsed, ?_⟩
    rw [verifies_toDer rfl (Point.onCurve_of_ofGroup hQ)]
    exact (verifies_iff_exists_finds hQ).mpr ⟨id, found⟩
  · intro Q onCurve inRange
    obtain ⟨σ, parsed⟩ := Signature.elementsInRange_iff.mp inRange
    refine ⟨σ, parsed, ?_⟩
    intro good
    have hQ : Point.ofGroup (Q.point.toGroup onCurve) = .affine Q.point :=
      Point.ofGroup_toGroup Q.point onCurve
    rw [verifies_toDer rfl onCurve] at good
    obtain ⟨id, found⟩ := (verifies_iff_exists_finds hQ).mp good
    refine ⟨id, fun id' => ⟨fun found' => finds_unique found' found, ?_⟩, fun b => ?_⟩
    · rintro rfl
      exact found
    · exact recover_eq_ofPublicKey_iff parsed hQ found

/-- The signature of the hash of zeros by the secret one, with the nonce one. -/
def generatorRaw : Octets 64 :=
  (generator.x.toOctets 32).append (generator.x.toOctets 32)

theorem recover_iff_verifies_generator :
    ∃ σ, Signature.ofRaw? generatorRaw = some σ ∧
      (ofPublicKey ⟨generator, true⟩).verifies (Octets.zero 32) σ.toDer = true ∧
      ∀ b, recover (Octets.zero 32) generatorRaw b = .ok (ofPublicKey ⟨generator, true⟩) ↔
        b = 0 := by
  have recovered : recover (Octets.zero 32) generatorRaw 0 =
      .ok (ofPublicKey ⟨generator, true⟩) := by
    decide +kernel
  have onCurve : generator.OnCurve := by decide +kernel
  obtain ⟨soundness, completeness⟩ := recover_iff_verifies (Octets.zero 32) generatorRaw
  obtain ⟨-, inRange, σ, parsed, good⟩ := soundness 0 _ recovered
  obtain ⟨σ', parsed', traced⟩ := completeness ⟨generator, true⟩ onCurve inRange
  obtain rfl : σ = σ' := Option.some.inj (parsed.symm.trans parsed')
  obtain ⟨id, -, answers⟩ := traced good
  obtain ⟨own, -⟩ := (answers 0).mp recovered
  refine ⟨σ, parsed, good, fun b => ?_⟩
  rw [answers, ← own]
  exact ⟨And.left, fun zero => ⟨zero, zero ▸ by decide⟩⟩

end KeyPair

end KeyTree
