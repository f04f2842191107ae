import KeyTree.Engine.Basic
import KeyTree.Proofs.Engine.Chance
import KeyTree.Proofs.Key.Recovery
import KeyTree.Proofs.Key.Signing
/-!
When the self test of the engine passes.

What a pair signs verifies, and recovery leads back to the pair.  So the test can fail for chance
only: no secret in range is drawn, there is no nonce that makes a signature, or the id of the
signature is three, which recovery refuses.
-/

set_option autoImplicit false
set_option relaxedAutoImplicit false

namespace KeyTree

open Curve Ecdsa

namespace KeyPair

variable {d : Scalar} {hash : Octets 32} {σ τ : Signature} {id : RecoveryId}

private theorem signatureBy_derive?_eq_ok_iff :
    (ofScalar d).signatureBy (fun d => Nonce.derive? d hash 0) hash = .ok τ ↔
      ∃ σ, MadeBy d hash σ ∧ τ = σ.lowS := by
  rw [signatureBy_ofScalar_eq_ok_iff]
  constructor
  · rintro ⟨nonce, σ, drawn, signed, rfl⟩
    exact ⟨σ, ⟨nonce, drawn, signed⟩, rfl⟩
  · rintro ⟨σ, ⟨nonce, drawn, signed⟩, rfl⟩
    exact ⟨nonce, σ, drawn, signed, rfl⟩

private theorem sign_eq_ok_iff {der : Bytes} :
    (ofScalar d).sign hash 0 = .ok der ↔ ∃ σ, MadeBy d hash σ ∧ der = σ.lowS.toDer := by
  rw [sign, signBy, bind_eq_ok_iff]
  constructor
  · rintro ⟨τ, signed, same⟩
    cases same
    obtain ⟨σ, made, rfl⟩ := signatureBy_derive?_eq_ok_iff.mp signed
    exact ⟨σ, made, rfl⟩
  · rintro ⟨σ, made, rfl⟩
    exact ⟨σ.lowS, signatureBy_derive?_eq_ok_iff.mpr ⟨σ, made, rfl⟩, rfl⟩

private theorem signCompact_of_madeBy (nonzero : d ≠ 0) (made : MadeBy d hash σ)
    (found : id.Finds hash σ.lowS (d.toZMod • G)) :
    (ofScalar d).signCompact hash = .ok (σ.lowS.toRaw, id) := by
  obtain ⟨A, point, own⟩ := exists_publicPoint_ofScalar nonzero
  rw [signCompact, signCompactBy, signatureBy_derive?_eq_ok_iff.mpr ⟨σ, made, rfl⟩, ok_bind,
    recoveryIdOf_eq own point found]
  rfl

end KeyPair

namespace Engine

open KeyPair

def testHash : Octets 32 :=
  sha256 (Bytes.ofText selfTestText)

/-- The self test once there is a pair: what it signs must verify and lead back to it. -/
def probe (pair : KeyPair) (hash : Octets 32) (rest : Entropy) : Except CurveError Entropy := do
  let der ← pair.sign hash 0
  if !pair.verifies hash der then throw (.invalidSignature .unverified)
  let (raw, id) ← pair.signCompact hash
  let recovered ← KeyPair.recover hash raw id.toByte
  let expected ← pair.publicKey true
  let found ← recovered.publicKey true
  if found ≠ expected then throw .recoveryFailed
  return rest

private theorem selfTest_eq (source : Entropy) :
    selfTest source = source.drawSecret >>= fun (secret, rest) =>
      ofSecret secret >>= fun pair => probe pair testHash rest := by
  unfold selfTest probe testHash
  rfl

/-- The random bytes yield a secret, and it makes a signature of the test's hash that is traced back
to it. -/
def Testable (source rest : Entropy) : Prop :=
  ∃ d nonce R, source.Yields d rest ∧ Nonce.Yields d testHash nonce ∧
    Makes d nonce testHash R ∧ Traceable d nonce testHash R

section

variable {d : Scalar} {hash : Octets 32} {σ : Signature} {id : RecoveryId} {rest left : Entropy}

private theorem probe_of_madeBy (nonzero : d ≠ 0) (made : MadeBy d hash σ)
    (found : id.Finds hash σ.lowS (d.toZMod • G)) :
    probe (ofScalar d) hash rest =
      if id.toByte ≤ 2 then .ok rest else .error (.invalidRecoveryId id.toByte) := by
  obtain ⟨A, point, own⟩ := exists_publicPoint_ofScalar nonzero
  have signed : (ofScalar d).sign hash 0 = .ok σ.lowS.toDer := sign_eq_ok_iff.mpr ⟨σ, made, rfl⟩
  have verified := (signs_of_signBy nonzero signed).verifies
  -- Everything before recovery succeeds, and the keys that are compared at the end are equal.
  simp only [probe, signed, ok_bind, verified, Bool.not_true, Bool.false_eq_true, if_false,
    signCompact_of_madeBy nonzero made found, publicKey_eq own]
  split
  · rename_i small
    have recovered : recover hash σ.lowS.toRaw id.toByte = .ok (ofPublicKey ⟨A, true⟩) :=
      (recover_eq_ofPublicKey_iff (Signature.ofRaw?_toRaw σ.lowS) point found).mpr ⟨rfl, small⟩
    have again : (ofPublicKey ⟨A, true⟩).publicKey true = .ok ⟨A, true⟩ := publicKey_eq rfl true
    simp only [recovered, ok_bind, again, ne_eq, not_true_eq_false, if_false]
    rfl
  · rename_i large
    rw [recover_of_refused (UInt8.not_lt.mp (mt lt_three_iff_le_two.mp large))]
    rfl

private theorem probe_eq_ok_iff (nonzero : d ≠ 0) :
    probe (ofScalar d) hash rest = .ok left ↔
      left = rest ∧ ∃ nonce R, Nonce.Yields d hash nonce ∧ Makes d nonce hash R ∧
        Traceable d nonce hash R := by
  rw [← exists_madeBy_finds_iff]
  constructor
  · intro passed
    obtain ⟨der, signed, -⟩ := bind_eq_ok_iff.mp passed
    obtain ⟨σ, made, rfl⟩ := sign_eq_ok_iff.mp signed
    obtain ⟨-, id, found⟩ :=
      isLow_and_exists_finds (signatureBy_derive?_eq_ok_iff.mpr ⟨σ, made, rfl⟩)
    rw [probe_of_madeBy nonzero made found] at passed
    split at passed
    · rename_i small
      cases passed
      exact ⟨rfl, σ, made, id, found, RecoveryId.toByte_le_two_iff.mp small⟩
    · cases passed
  · rintro ⟨rfl, σ, made, id, found, notThree⟩
    rw [probe_of_madeBy nonzero made found, if_pos (RecoveryId.toByte_le_two_iff.mpr notThree)]

end

/-- The self test passes exactly if chance allows it. -/
theorem selfTest_eq_ok_iff {source rest : Entropy} :
    selfTest source = .ok rest ↔ Testable source rest := by
  rw [selfTest_eq, bind_eq_ok_iff, Testable]
  constructor
  · rintro ⟨⟨secret, left⟩, drawn, tested⟩
    obtain ⟨pair, loaded, tested⟩ := bind_eq_ok_iff.mp tested
    obtain ⟨d, nonzero, rfl, rfl⟩ := ofSecret_eq_ok_iff_toOctets.mp loaded
    obtain ⟨rfl, nonce, R, signed⟩ := (probe_eq_ok_iff nonzero).mp tested
    exact ⟨d, nonce, R, Entropy.drawSecret_eq_ok_iff.mp drawn, signed⟩
  · rintro ⟨d, nonce, R, yields, signed⟩
    have nonzero := yields.nonzero
    refine ⟨(d.toOctets 32, rest), Entropy.drawSecret_eq_ok_iff.mpr yields,
      bind_eq_ok_iff.mpr ⟨ofScalar d, ofSecret_toOctets nonzero, ?_⟩⟩
    exact (probe_eq_ok_iff nonzero).mpr ⟨rfl, nonce, R, signed⟩

end Engine

end KeyTree
