import KeyTree.Proofs.Key.Signing
import KeyTree.Proofs.Tree.CompactSigning
/-!
How a secret key verifies a public key.

The public point is not computed for it: a challenge made from the candidate is signed, and the
candidate is compared with the signer that the signature tells.  Even so no other candidate than
the key's own public key is accepted, and this one is, unless the id of the signature is three,
which recovery refuses.
-/

set_option autoImplicit false
set_option relaxedAutoImplicit false

namespace KeyTree.SecretKey

open Curve Ecdsa

def challengeIdBy (nonceOf : Scalar → Option Scalar) (k : SecretKey) (candidate : PublicKey) :
    Except TreeError UInt8 := do
  let compact ← k.signCompactBy nonceOf (verificationHash candidate)
  liftCurve compact.recoveryId

def challengeId (k : SecretKey) (candidate : PublicKey) : Except TreeError UInt8 := do
  let compact ← k.signCompact (verificationHash candidate)
  liftCurve compact.recoveryId

/-- The challenge of a candidate is signed, and recovery takes the id of the signature. -/
def AnswersBy (nonceOf : Scalar → Option Scalar) (k : SecretKey) (candidate : PublicKey) : Prop :=
  ∃ id, k.challengeIdBy nonceOf candidate = .ok id ∧ id ≠ 3

def Answers (k : SecretKey) (candidate : PublicKey) : Prop :=
  ∃ id, k.challengeId candidate = .ok id ∧ id ≠ 3

variable {k : SecretKey} {d : Scalar} {A : Affine} {nonceOf : Scalar → Option Scalar}
  {candidate : PublicKey}

theorem exists_holds_of_keyPair {α : Type} {a : α} {next : KeyPair → Except TreeError α}
    (made : (k.keyPair >>= next) = .ok a) : ∃ d A, k.Holds d A := by
  obtain ⟨pair, made, -⟩ := bind_eq_ok_iff.mp made
  rw [keyPair] at made
  split at made
  · rename_i valid
    obtain ⟨d, nonzero, data, -⟩ :=
      KeyPair.ofSecret_eq_ok_iff_toOctets.mp (liftCurve_eq_ok_iff.mp made)
    exact ⟨d, exists_holds_of_data valid nonzero data⟩
  · cases made

/-- What verification asks of a candidate: the encoding, that it is recovered from the compact
signature of its challenge, and that the plain signature is good for it. -/
theorem verifiesPublicKeyBy_eq_true_iff :
    k.verifiesPublicKeyBy nonceOf candidate = true ↔
      (k.valid = true ∧ candidate.compressed = k.compressed) ∧
        ∃ c der, k.signCompactBy nonceOf (verificationHash candidate) = .ok c ∧
          c.recover (verificationHash candidate) = .ok candidate ∧
          k.signBy nonceOf (verificationHash candidate) = .ok der ∧
          (KeyPair.ofPublicKey candidate).verifies (verificationHash candidate) der = true := by
  rw [verifiesPublicKeyBy]
  split
  · rename_i allowed
    rw [Bool.and_eq_true, beq_iff_eq] at allowed
    rw [and_iff_right allowed]
    cases packed : k.signCompactBy nonceOf (verificationHash candidate) with
    | error fault => simp [packed]
    | ok c =>
        cases recovered : c.recover (verificationHash candidate) with
        | error fault => simp [packed, recovered]
        | ok signer =>
            cases signed : k.signBy nonceOf (verificationHash candidate) with
            | error fault => simp [packed, recovered, signed]
            | ok der => simp [packed, recovered, signed]
  · rename_i refused
    rw [Bool.and_eq_true, beq_iff_eq] at refused
    simp [refused]

section

variable {hash : Octets 32} {der : Bytes} {c : CompactSignature} {σ : Signature} {id : RecoveryId}
  {key : PublicKey}

private theorem Matches.recoveryId_eq (fitting : k.Matches hash der c σ id key) :
    c.recoveryId = .ok id.toByte := by
  rw [CompactSignature.recoveryId,
    CompactSignature.parts_of_octets id.toByte_lt fitting.octets]
  rfl

private theorem Matches.challengeIdBy_eq
    (packed : k.signCompactBy nonceOf (verificationHash candidate) = .ok c)
    (fitting : k.Matches (verificationHash candidate) der c σ id key) :
    k.challengeIdBy nonceOf candidate = .ok id.toByte := by
  rw [challengeIdBy, packed, ok_bind, fitting.recoveryId_eq]
  rfl

theorem Matches.recover_eq_ok_iff (fitting : k.Matches hash der c σ id key) :
    c.recover hash = .ok candidate ↔ key = candidate ∧ id.toByte ≠ 3 := by
  rw [fitting.recovered, ← RecoveryId.toByte_le_two_iff]
  split
  · rename_i small
    rw [Except.ok.injEq, and_iff_left small]
  · rename_i large
    exact iff_of_false nofun fun both => large both.2

theorem Holds.verifies_of_signBy (holds : k.Holds d A) (own : k.publicKey = .ok key)
    (signed : k.signBy nonceOf hash = .ok der) :
    (KeyPair.ofPublicKey key).verifies hash der = true := by
  rw [signBy, holds.keyPair.1, ok_bind] at signed
  have signs := KeyPair.signs_of_signBy holds.nonzero (liftCurve_eq_ok_iff.mp signed)
  obtain ⟨key', written, good⟩ := signs.publicVerifies k.compressed
  cases (holds.pairPublicKey k.compressed).symm.trans written
  cases holds.publicKey.symm.trans own
  exact good

end

/-- A key that holds a secret accepts exactly its public key, if the challenge is answered. -/
theorem Holds.verifiesPublicKeyBy_iff (holds : k.Holds d A) :
    k.verifiesPublicKeyBy nonceOf candidate = true ↔
      k.publicKey = .ok candidate ∧ k.AnswersBy nonceOf candidate := by
  have both := holds.signsBoth (verificationHash candidate) nonceOf
  rw [verifiesPublicKeyBy_eq_true_iff]
  cases made : (nonceOf d).bind fun nonce => sign? d nonce (verificationHash candidate) with
  | none =>
      -- Without a signature nothing is accepted, and there is no answer.
      obtain ⟨-, fails⟩ := both.fails made
      constructor
      · rintro ⟨-, c, der, packed, -⟩
        cases fails.symm.trans packed
      · rintro ⟨-, id, told, -⟩
        rw [challengeIdBy, fails] at told
        cases told
  | some σ =>
      obtain ⟨nonce, drawn, made⟩ := Option.bind_eq_some_iff.mp made
      obtain ⟨der, c, id, key, signed, packed, fitting⟩ := both.signs nonce σ drawn made
      have answer := fitting.challengeIdBy_eq packed
      constructor
      · rintro ⟨-, c', -, packed', recovered, -⟩
        cases packed.symm.trans packed'
        obtain ⟨rfl, notThree⟩ := fitting.recover_eq_ok_iff.mp recovered
        exact ⟨fitting.publicKey, id.toByte, answer, notThree⟩
      · rintro ⟨own, b, told, notThree⟩
        cases answer.symm.trans told
        cases fitting.publicKey.symm.trans own
        have recovered := fitting.recover_eq_ok_iff.mpr ⟨rfl, notThree⟩
        exact ⟨⟨holds.valid, fitting.encoding⟩, c, der, packed, recovered, signed,
          holds.verifies_of_signBy own signed⟩

/-- Whatever nonces a rule gives, a candidate is accepted exactly if the key is valid, the
candidate is its public key in its encoding, and signing the challenge gives an id other than
three. -/
theorem verifiesPublicKey_iff (k : SecretKey) (candidate : PublicKey) :
    (∀ nonceOf, k.verifiesPublicKeyBy nonceOf candidate = true ↔
      k.valid = true ∧ k.publicKey = .ok candidate ∧ k.AnswersBy nonceOf candidate) ∧
    (k.verifiesPublicKey candidate = true ↔
      k.valid = true ∧ k.publicKey = .ok candidate ∧ k.Answers candidate) := by
  have accepts : ∀ nonceOf, k.verifiesPublicKeyBy nonceOf candidate = true ↔
      k.valid = true ∧ k.publicKey = .ok candidate ∧ k.AnswersBy nonceOf candidate := by
    intro nonceOf
    constructor
    · intro accepted
      obtain ⟨-, c, -, packed, -⟩ := verifiesPublicKeyBy_eq_true_iff.mp accepted
      obtain ⟨d, A, holds⟩ := exists_holds_of_keyPair packed
      exact ⟨holds.valid, holds.verifiesPublicKeyBy_iff.mp accepted⟩
    · rintro ⟨-, own, answered⟩
      obtain ⟨d, A, holds⟩ := exists_holds_of_keyPair own
      exact holds.verifiesPublicKeyBy_iff.mpr ⟨own, answered⟩
  exact ⟨accepts, accepts _⟩

theorem verifiesPublicKey_iff_one :
    let k : SecretKey := ⟨true, true, Octets.ofNat 32 1⟩
    k.verifiesPublicKeyBy (fun _ => some 1) ⟨generator, true⟩ = true ∧
      k.verifiesPublicKeyBy (fun _ => some 1) ⟨generator, false⟩ = false := by
  intro k
  have own : k.publicKey = .ok ⟨generator, true⟩ := by decide +kernel
  have told : k.challengeIdBy (fun _ => some 1) ⟨generator, true⟩ = .ok 0 := by decide +kernel
  obtain ⟨accepts, -⟩ := verifiesPublicKey_iff k ⟨generator, true⟩
  obtain ⟨accepts', -⟩ := verifiesPublicKey_iff k ⟨generator, false⟩
  refine ⟨(accepts _).mpr ⟨rfl, own, 0, told, by decide⟩, ?_⟩
  rw [Bool.eq_false_iff]
  intro accepted
  obtain ⟨-, other, -⟩ := (accepts' _).mp accepted
  cases own.symm.trans other

end KeyTree.SecretKey
