import KeyTree.Proofs.Key.Calls
import KeyTree.Proofs.Tree.CompactSigning
/-!
What the validity of a secret key decides: the bytes it stores and shows, and which of its
operations are refused.
-/

set_option autoImplicit false
set_option relaxedAutoImplicit false

namespace KeyTree.SecretKey

open Curve

variable {k : SecretKey}

/-! ### Operations on invalid keys -/

private theorem keyPair_of_invalid (invalid : k.valid = false) :
    k.keyPair = .error .invalidSecretKey := by
  rw [keyPair, invalid]
  rfl

private theorem refused_of_invalid {α : Type} (invalid : k.valid = false)
    (next : KeyPair → Except TreeError α) :
    (k.keyPair >>= next) = .error .invalidSecretKey := by
  rw [keyPair_of_invalid invalid]
  rfl

private theorem derive_of_invalid (invalid : k.valid = false) (index : UInt32)
    (chainCode : ChainCode) : k.derive index chainCode = .error .invalidSecretKey := by
  have hashed : k.derivationMessage index = .error .invalidSecretKey := refused_of_invalid invalid _
  rw [derive, hashed]
  rfl

/-! ### Operations on valid keys -/

section

variable {d : Scalar} {A : Affine}

theorem Holds.toDer (holds : k.Holds d A) : ∃ der, k.toDer = .ok der := by
  obtain ⟨der, written⟩ := (KeyPair.complete_ofScalar holds.nonzero).toDer k.compressed
  rw [SecretKey.toDer, holds.keyPair.1, ok_bind, written]
  exact ⟨der, rfl⟩

private theorem Holds.fault_of_signing (holds : k.Holds d A) (nonceOf : Scalar → Option Scalar)
    (hash : Octets 32) :
    (∀ fault, k.signBy nonceOf hash = .error fault → fault = .curve .unusableNonce) ∧
      ∀ fault, k.signCompactBy nonceOf hash = .error fault → fault = .curve .unusableNonce := by
  have both := holds.signsBoth hash nonceOf
  cases usable : (nonceOf d).bind fun nonce => Ecdsa.sign? d nonce hash with
  | none =>
      obtain ⟨refused, refused'⟩ := both.fails usable
      rw [refused, refused']
      exact ⟨fun _ same => (Except.error.inj same).symm,
        fun _ same => (Except.error.inj same).symm⟩
  | some σ =>
      obtain ⟨nonce, drawn, signed⟩ := Option.bind_eq_some_iff.mp usable
      obtain ⟨der, c, id, key, made, made', -⟩ := both.signs nonce σ drawn signed
      rw [made, made']
      exact ⟨nofun, nofun⟩

private theorem Holds.fault_of_derive (holds : k.Holds d A) {index : UInt32} {chainCode : ChainCode}
    {fault : TreeError} (failed : k.derive index chainCode = .error fault) :
    fault = .derivationFailed index := by
  obtain ⟨tweak, childCode, digest⟩ : ∃ tweak childCode, derivationHash chainCode
      (if isHardened index then hardenedMessage k.data index
        else plainMessage (PublicKey.compressedForm A) index) = (tweak, childCode) :=
    ⟨_, _, rfl⟩
  rw [holds.derive (holds.derivationMessage index) digest] at failed
  split at failed
  · exact (Except.error.inj failed).symm
  · split at failed
    · exact (Except.error.inj failed).symm
    · cases failed

private theorem Holds.tweakSecret_ne (holds : k.Holds d A) (tweak : Octets 32) :
    KeyPair.tweakSecret k.data tweak ≠ .error .secretOutOfRange := by
  rw [holds.data, KeyPair.tweakSecret_toOctets holds.nonzero]
  split
  · nofun
  · split
    · nofun
    · nofun

end

/-! ### What validity decides -/

/-- A result is refused exactly to invalid keys, and the engine never gets a secret out of
range. -/
structure Guarded {α : Type} (k : SecretKey) (result : Except TreeError α) : Prop where
  refused_iff : result = .error .invalidSecretKey ↔ k.valid = false
  inRange : result ≠ .error (.curve .secretOutOfRange)

private theorem WellFormed.guarded {α : Type} (wellFormed : k.WellFormed)
    (expected : TreeError → Prop)
    (apart : ¬ expected .invalidSecretKey ∧ ¬ expected (.curve .secretOutOfRange))
    {result : Except TreeError α}
    (refused : k.valid = false → result = .error .invalidSecretKey)
    (faults : ∀ d A, k.Holds d A → ∀ fault, result = .error fault → expected fault) :
    k.Guarded result := by
  cases valid : k.valid with
  | false =>
      have refused := refused valid
      constructor
      · exact iff_of_true refused valid
      · rw [refused]
        nofun
  | true =>
      obtain ⟨d, A, holds⟩ := wellFormed.exists_holds valid
      have faults := faults d A holds
      constructor
      · refine iff_of_false (fun same => apart.1 (faults _ same)) ?_
        rw [valid]
        nofun
      · exact fun same => apart.2 (faults _ same)

/-- What the flag of a key decides: the bytes that are stored and shown, the operations that are
refused, and that the engine takes the bytes of a valid key for a secret. -/
structure Consistent (k : SecretKey) : Prop where
  stored : (k.valid = true ∧ 1 ≤ k.data.value ∧ k.data.value < order) ∨
    (k.valid = false ∧ k.data = Octets.zero 32)
  size_eq_iff : (k.size = 32 ↔ k.valid = true) ∧ (k.size = 0 ↔ k.valid = false)
  length_toBytes : k.toBytes.length = k.size
  publicKey : k.Guarded k.publicKey
  signBy : ∀ nonceOf hash, k.Guarded (k.signBy nonceOf hash)
  sign : ∀ hash testCase, k.Guarded (k.sign hash testCase)
  signCompactBy : ∀ nonceOf hash, k.Guarded (k.signCompactBy nonceOf hash)
  signCompact : ∀ hash, k.Guarded (k.signCompact hash)
  derive : ∀ index chainCode, k.Guarded (k.derive index chainCode)
  toDer : k.Guarded k.toDer
  ofSecret : k.valid = true → ∃ pair, KeyPair.ofSecret k.data = .ok pair
  tweakSecret : k.valid = true →
    ∀ tweak, KeyPair.tweakSecret k.data tweak ≠ .error .secretOutOfRange

private theorem WellFormed.stored (wellFormed : k.WellFormed) :
    (k.valid = true ∧ 1 ≤ k.data.value ∧ k.data.value < order) ∨
      (k.valid = false ∧ k.data = Octets.zero 32) := by
  cases valid : k.valid with
  | true => exact .inl ⟨rfl, isSecret_iff.mp (wellFormed.inRange valid)⟩
  | false => exact .inr ⟨rfl, wellFormed.cleared valid⟩

private theorem size_eq_iff (k : SecretKey) :
    (k.size = 32 ↔ k.valid = true) ∧ (k.size = 0 ↔ k.valid = false) := by
  rw [size]
  cases k.valid with
  | true => exact ⟨iff_of_true rfl rfl, iff_of_false nofun nofun⟩
  | false => exact ⟨iff_of_false nofun nofun, iff_of_true rfl rfl⟩

private theorem length_toBytes (k : SecretKey) : k.toBytes.length = k.size := by
  have bound : k.size ≤ 32 := by
    rw [size]
    split <;> omega
  rw [toBytes, List.length_take, k.data.length_eq, Nat.min_eq_left bound]

/-- Every key that programs come by, whichever of the operations on it or on what it was copied from
failed, is consistent. -/
theorem consistent_of_obtainable (obtainable : k.Obtainable) : k.Consistent := by
  have wellFormed := obtainable.wellFormed
  have signBy : ∀ nonceOf hash, k.Guarded (k.signBy nonceOf hash) := fun nonceOf hash =>
    wellFormed.guarded (· = .curve .unusableNonce) ⟨nofun, nofun⟩
      (fun invalid => refused_of_invalid invalid _)
      (fun d A holds => (holds.fault_of_signing nonceOf hash).1)
  have signCompactBy : ∀ nonceOf hash, k.Guarded (k.signCompactBy nonceOf hash) :=
    fun nonceOf hash =>
      wellFormed.guarded (· = .curve .unusableNonce) ⟨nofun, nofun⟩
        (fun invalid => refused_of_invalid invalid _)
        (fun d A holds => (holds.fault_of_signing nonceOf hash).2)
  constructor
  · exact wellFormed.stored
  · exact k.size_eq_iff
  · exact k.length_toBytes
  · refine wellFormed.guarded (fun _ => False) ⟨nofun, nofun⟩
      (fun invalid => refused_of_invalid invalid _) (fun d A holds fault failed => ?_)
    rw [holds.publicKey] at failed
    cases failed
  · exact signBy
  · exact fun hash testCase => signBy (fun d => Nonce.derive? d hash testCase) hash
  · exact signCompactBy
  · exact fun hash => signCompactBy (fun d => Nonce.derive? d hash 0) hash
  · exact fun index chainCode =>
      wellFormed.guarded (· = .derivationFailed index) ⟨nofun, nofun⟩
        (fun invalid => derive_of_invalid invalid index chainCode)
        (fun d A holds fault failed => holds.fault_of_derive failed)
  · refine wellFormed.guarded (fun _ => False) ⟨nofun, nofun⟩
      (fun invalid => refused_of_invalid invalid _) (fun d A holds fault failed => ?_)
    obtain ⟨der, written⟩ := holds.toDer
    rw [written] at failed
    cases failed
  · intro valid
    obtain ⟨d, A, holds⟩ := wellFormed.exists_holds valid
    exact ⟨_, holds.data ▸ KeyPair.ofSecret_toOctets holds.nonzero⟩
  · intro valid
    obtain ⟨d, A, holds⟩ := wellFormed.exists_holds valid
    exact holds.tweakSecret_ne

theorem consistent_of_obtainable_one :
    ∃ k : SecretKey, ofBytes (Octets.ofNat 32 1).toList true = .ok k ∧ k.Consistent ∧
      k.size = 32 ∧
      let cleared := ((setBytes (Octets.zero 32).toList true).run k).2
      cleared.Consistent ∧ cleared.data = Octets.zero 32 ∧
        cleared.publicKey = .error .invalidSecretKey := by
  have made : ofBytes (Octets.ofNat 32 1).toList true = .ok ⟨true, true, Octets.ofNat 32 1⟩ :=
    ofBytes_toList (by decide) true
  have obtainable : Obtainable ⟨true, true, Octets.ofNat 32 1⟩ := .ofBytes made
  have consistent := consistent_of_obtainable obtainable
  have consistent' := consistent_of_obtainable (obtainable.setBytes (Octets.zero 32).toList true)
  have invalid : ((setBytes (Octets.zero 32).toList true).run
      ⟨true, true, Octets.ofNat 32 1⟩).2.valid = false := by decide
  refine ⟨_, made, consistent, consistent.size_eq_iff.1.mpr rfl, consistent', ?_,
    consistent'.publicKey.refused_iff.mpr invalid⟩
  obtain ⟨valid, -⟩ | ⟨-, zero⟩ := consistent'.stored
  · rw [invalid] at valid
    cases valid
  · exact zero

end KeyTree.SecretKey
