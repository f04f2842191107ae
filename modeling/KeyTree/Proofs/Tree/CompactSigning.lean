import KeyTree.Proofs.Key.Recovery
import KeyTree.Proofs.Tree.SecretKey
/-!
The compact signatures of a secret key recover its public key.
-/

set_option autoImplicit false
set_option relaxedAutoImplicit false

namespace KeyTree.SecretKey

open Curve Ecdsa

/-- An encoded and a compact signature of a hash fit each other and the key.

Both have the elements of `σ`, which is low.  The id is the only one that recovers the point of
the public key from them, and the header tells it.  The compact signature gives the public key
back unless the id is three, which recovery refuses. -/
structure Matches (k : SecretKey) (hash : Octets 32) (der : Bytes) (c : CompactSignature)
    (σ : Signature) (id : RecoveryId) (key : PublicKey) : Prop where
  decoded : Signature.ofDer? der = some σ
  low : σ.s.val ≤ halfOrder
  publicKey : k.publicKey = .ok key
  encoding : key.compressed = k.compressed
  recovers_iff : ∀ id', recover? hash σ id' = some key.point ↔ id' = id
  octets : c.octets.toList =
    (27 + id.toByte + if k.compressed then 4 else 0) :: σ.toRaw.toList
  recovered : c.recover hash =
    if id.toByte ≤ 2 then .ok key else .error (.invalidRecoveryId 3)

/-- What signing a hash in both forms results in for the secret `d`, with the nonce that a rule
gives.  Both fail if there is no nonce or it is unusable.  Else they match, with the low form of
what the secret and the nonce make. -/
structure SignsBoth (k : SecretKey) (d : Scalar) (hash : Octets 32)
    (nonceOf : Scalar → Option Scalar) : Prop where
  fails : ((nonceOf d).bind fun nonce => sign? d nonce hash) = none →
    k.signBy nonceOf hash = .error (.curve .unusableNonce) ∧
      k.signCompactBy nonceOf hash = .error (.curve .unusableNonce)
  signs : ∀ nonce σ, nonceOf d = some nonce → sign? d nonce hash = some σ →
    ∃ der c id key, k.signBy nonceOf hash = .ok der ∧ k.signCompactBy nonceOf hash = .ok c ∧
      k.Matches hash der c σ.lowS id key

variable {k : SecretKey} {d : Scalar} {A : Affine} {hash : Octets 32} {σ : Signature}

private theorem Holds.exists_matches (holds : k.Holds d A) (low : σ.isLow = true) {id : RecoveryId}
    (found : id.Finds hash σ (d.toZMod • G)) :
    ∃ c, CompactSignature.ofParts ⟨σ.toRaw, id.toByte, k.compressed⟩ = .ok c ∧
      k.Matches hash σ.toDer c σ id ⟨A, k.compressed⟩ := by
  obtain ⟨c, made, parts, octets⟩ :=
    CompactSignature.ofParts_spec σ.toRaw k.compressed id.toByte_lt
  refine ⟨c, made, ?_⟩
  exact {
    decoded := Signature.ofDer?_toDer σ
    low := Signature.isLow_iff.mp low
    publicKey := holds.publicKey
    encoding := rfl
    recovers_iff := fun _ => KeyPair.recover?_eq_some_iff_eq holds.point found
    octets := octets
    recovered := by
      rw [CompactSignature.recover, parts, ok_bind]
      split
      · rename_i small
        have recovered : KeyPair.recover hash σ.toRaw id.toByte =
            .ok (KeyPair.ofPublicKey ⟨A, k.compressed⟩) :=
          (KeyPair.recover_eq_ofPublicKey_iff (Signature.ofRaw?_toRaw σ) holds.point found).mpr
            ⟨rfl, small⟩
        rw [recovered]
        rfl
      · rename_i large
        rw [RecoveryId.toByte_eq_three large]
        rfl }

/-- With every rule for the nonce, the two forms of a signature match. -/
theorem Holds.signsBoth (holds : k.Holds d A) (hash : Octets 32)
    (nonceOf : Scalar → Option Scalar) : k.SignsBoth d hash nonceOf := by
  obtain ⟨pair, own⟩ := holds.keyPair
  constructor
  · intro unusable
    rw [signBy, signCompactBy, pair, ok_bind, ok_bind, KeyPair.signBy, KeyPair.signCompactBy,
      KeyPair.signatureBy_ofScalar, unusable]
    exact ⟨rfl, rfl⟩
  · intro nonce σ drawn signed
    have made : (KeyPair.ofScalar d).signatureBy nonceOf hash = .ok σ.lowS :=
      KeyPair.signatureBy_ofScalar_eq_ok_iff.mpr ⟨nonce, σ, drawn, signed, rfl⟩
    obtain ⟨low, id, found⟩ := KeyPair.isLow_and_exists_finds made
    obtain ⟨c, packed, fitting⟩ := holds.exists_matches low found
    rw [signBy, signCompactBy, pair, ok_bind, ok_bind, KeyPair.signBy, KeyPair.signCompactBy,
      made]
    refine ⟨σ.lowS.toDer, c, id, _, rfl, ?_, fitting⟩
    simp only [ok_bind, KeyPair.recoveryIdOf_eq own holds.point found]
    exact liftCurve_eq_ok_iff.mpr packed

theorem SignsBoth.exists_of_signBy {nonceOf : Scalar → Option Scalar} {der : Bytes}
    (both : k.SignsBoth d hash nonceOf) (signed : k.signBy nonceOf hash = .ok der) :
    ∃ nonce σ, nonceOf d = some nonce ∧ sign? d nonce hash = some σ := by
  cases made : (nonceOf d).bind fun nonce => sign? d nonce hash with
  | none => cases (both.fails made).1.symm.trans signed
  | some σ =>
      obtain ⟨nonce, drawn, made⟩ := Option.bind_eq_some_iff.mp made
      exact ⟨nonce, σ, drawn, made⟩

/-- For every valid key, every hash and every rule for the nonce, the two forms of a signature
match.  The search for the id never fails.  The deterministic nonces are such a rule. -/
theorem signCompact_recovers (obtainable : k.Obtainable) (valid : k.valid = true)
    (hash : Octets 32) :
    ∃ d : Scalar, d ≠ 0 ∧ k.data = d.toOctets 32 ∧ (∀ nonceOf, k.SignsBoth d hash nonceOf) ∧
      k.sign hash 0 = k.signBy (fun d => Nonce.derive? d hash 0) hash ∧
      k.signCompact hash = k.signCompactBy (fun d => Nonce.derive? d hash 0) hash := by
  obtain ⟨d, A, holds⟩ := obtainable.wellFormed.exists_holds valid
  exact ⟨d, holds.nonzero, holds.data, holds.signsBoth hash, rfl, rfl⟩

theorem signCompact_recovers_one :
    ∃ k : SecretKey, ofBytes (Octets.ofNat 32 1).toList false = .ok k ∧
      ∃ der c σ id key, k.signBy (fun _ => some 1) (Octets.zero 32) = .ok der ∧
        k.signCompactBy (fun _ => some 1) (Octets.zero 32) = .ok c ∧
        k.Matches (Octets.zero 32) der c σ id key := by
  have made : ofBytes (Octets.ofNat 32 1).toList false = .ok ⟨true, false, Octets.ofNat 32 1⟩ :=
    ofBytes_toList (by decide) false
  refine ⟨_, made, ?_⟩
  obtain ⟨d, -, data, both, -⟩ := signCompact_recovers (.ofBytes made) rfl (Octets.zero 32)
  have own : d = 1 := by
    have one : (1 : Scalar).val = 1 := by decide
    have written : (Octets.ofNat 32 1).value = 1 := Octets.value_ofNat (by decide)
    apply Residue.ext
    rw [one, ← value_scalar d, ← data, written]
  have usable : (sign? d 1 (Octets.zero 32)).isSome = true := by
    rw [own]
    decide +kernel
  obtain ⟨σ, signed⟩ := Option.isSome_iff_exists.mp usable
  obtain ⟨der, c, id, key, fitting⟩ := (both fun _ => some 1).signs 1 σ rfl signed
  exact ⟨der, c, σ.lowS, id, key, fitting⟩

end KeyTree.SecretKey
