import KeyTree.Proofs.Key.Document
import KeyTree.Proofs.Tree.Challenge
import KeyTree.Proofs.Tree.Validity
/-!
Loading a secret key restores the key that was exported.

A document makes a key of its secret in the encoding of the public key that comes with it.  The
public key is compared only through its challenge, which is enough to refuse every other point.
-/

set_option autoImplicit false
set_option relaxedAutoImplicit false

namespace KeyTree.SecretKey

open Curve

variable {k : SecretKey} {d : Scalar} {A : Affine} {der : Bytes} {compressed skipCheck : Bool}

private theorem ofDer_eq_ok_iff :
    ofDer der compressed skipCheck = .ok k ↔
      ∃ d : Scalar, d ≠ 0 ∧ KeyPair.ofDer der skipCheck = .ok (KeyPair.ofScalar d) ∧
        k = ⟨true, compressed, d.toOctets 32⟩ := by
  constructor
  · intro made
    obtain ⟨pair, loaded, made⟩ := bind_eq_ok_iff.mp made
    obtain ⟨secret, written, made⟩ := bind_eq_ok_iff.mp made
    replace loaded := liftCurve_eq_ok_iff.mp loaded
    obtain ⟨-, d, nonzero, -, -, rfl, -⟩ := KeyPair.ofDer_eq_ok_iff.mp loaded
    obtain rfl : d.toOctets 32 = secret := Except.ok.inj (liftCurve_eq_ok_iff.mp written)
    rw [ofBytes_toList (isSecret_toOctets nonzero)] at made
    exact ⟨d, nonzero, loaded, (Except.ok.inj made).symm⟩
  · rintro ⟨d, nonzero, loaded, rfl⟩
    rw [ofDer, loaded]
    exact ofBytes_toList (isSecret_toOctets nonzero) compressed

private theorem exists_holds_of_ofDer (made : ofDer der compressed skipCheck = .ok k) :
    ∃ d A, k.Holds d A := by
  obtain ⟨d, nonzero, -, rfl⟩ := ofDer_eq_ok_iff.mp made
  exact ⟨d, exists_holds_of_data rfl nonzero rfl⟩

private theorem load_eq_ok_iff {target : SecretKey} {expected : PublicKey} :
    (load der expected skipCheck).apply target = (.ok (), k) ↔
      ofDer der expected.compressed skipCheck = .ok k ∧
        (skipCheck = true ∨ k.verifiesPublicKey expected = true) := by
  rw [apply_load]
  cases ofDer der expected.compressed skipCheck with
  | error fault => simp
  | ok key =>
      by_cases passed : skipCheck = true ∨ key.verifiesPublicKey expected = true
      · simp only [if_pos passed, Prod.mk.injEq, true_and, Except.ok.injEq]
        exact ⟨fun same => ⟨same, same ▸ passed⟩, And.left⟩
      · simp only [if_neg passed, Prod.mk.injEq, reduceCtorEq, false_and, false_iff,
          Except.ok.injEq]
        rintro ⟨rfl, passed'⟩
        exact passed passed'

/-- A valid key in the encoding of a public key, with the secret of a document filled up to 32
bytes. -/
structure Restores (k : SecretKey) (der : Bytes) (expected : PublicKey) : Prop where
  valid : k.valid = true
  compressed : k.compressed = expected.compressed
  data : ∃ doc, PrivateKeyDocument.ofDer? der = some doc ∧
    Octets.padLeft? 32 doc.secret = some k.data

private theorem restores_of_ofDer {expected : PublicKey}
    (made : ofDer der expected.compressed skipCheck = .ok k) : k.Restores der expected := by
  obtain ⟨d, nonzero, loaded, rfl⟩ := ofDer_eq_ok_iff.mp made
  obtain ⟨doc, d', -, parsed, padded, same, -⟩ := KeyPair.ofDer_eq_ok_iff.mp loaded
  obtain rfl : d = d' := Option.some.inj (congrArg KeyPair.secret same)
  exact ⟨rfl, rfl, doc, parsed, padded⟩

private theorem Holds.ofDer_of_toDer (holds : k.Holds d A) (written : k.toDer = .ok der)
    (compressed skipCheck : Bool) :
    ofDer der compressed skipCheck = .ok ⟨true, compressed, k.data⟩ := by
  rw [SecretKey.toDer, holds.keyPair.1, ok_bind] at written
  exact ofDer_eq_ok_iff.mpr ⟨d, holds.nonzero,
    KeyPair.ofDer_of_toDer holds.nonzero (liftCurve_eq_ok_iff.mp written) skipCheck,
    by rw [holds.data]⟩

/-- What loading the document of a key with its public key does to any target. -/
structure Reloads (k : SecretKey) (der : Bytes) (key : PublicKey) (target : SecretKey) : Prop where
  skipped : (load der key true).apply target = (.ok (), k)
  checked : (load der key false).apply target = (.ok (), k) ↔ k.Answers key
  foreign : ∀ other : PublicKey, other.point ≠ key.point →
    (load der other false).apply target = (.error .publicKeyMismatch, target)

private theorem Holds.reloads (holds : k.Holds d A) (written : k.toDer = .ok der)
    (target : SecretKey) : k.Reloads der ⟨A, k.compressed⟩ target := by
  have made (skipCheck : Bool) : ofDer der k.compressed skipCheck = .ok k := by
    rw [holds.ofDer_of_toDer written, ← holds.valid]
  constructor
  · exact load_eq_ok_iff.mpr ⟨made true, .inl rfl⟩
  · rw [load_eq_ok_iff, and_iff_right (made false), or_iff_right Bool.false_ne_true,
      verifiesPublicKey, holds.verifiesPublicKeyBy_iff]
    exact and_iff_right holds.publicKey
  · intro other unlike
    have holds' : Holds ⟨true, other.compressed, k.data⟩ d A :=
      ⟨rfl, holds.nonzero, holds.data, holds.point⟩
    have refused : ¬ verifiesPublicKey ⟨true, other.compressed, k.data⟩ other = true := by
      intro accepted
      obtain ⟨own, -⟩ := holds'.verifiesPublicKeyBy_iff.mp accepted
      have same : other = ⟨A, other.compressed⟩ :=
        Except.ok.inj (own.symm.trans holds'.publicKey)
      have point : other.point = A := congrArg PublicKey.point same
      exact unlike point
    rw [apply_load, holds.ofDer_of_toDer written]
    exact if_neg (not_or.mpr ⟨Bool.false_ne_true, refused⟩)

/-- Loading a document with a public key leaves the key of the document in the encoding of the
public key, whatever was there before.  If the public key was checked, it is the key's own; if
not, its point does not matter.  The document of a valid key restores this key. -/
theorem load_restores :
    (∀ (target loaded : SecretKey) (der : Bytes) (expected : PublicKey) (skipCheck : Bool),
      (load der expected skipCheck).apply target = (.ok (), loaded) →
        loaded.Restores der expected ∧
        (skipCheck = true ∨ loaded.publicKey = .ok expected) ∧
        ∀ (target' : SecretKey) (other : PublicKey), other.compressed = expected.compressed →
          (load der other true).apply target' = (.ok (), loaded)) ∧
    ∀ k : SecretKey, k.Obtainable → k.valid = true →
      ∃ der key, k.toDer = .ok der ∧ k.publicKey = .ok key ∧
        ∀ target, k.Reloads der key target := by
  constructor
  · intro target loaded der expected skipCheck load
    obtain ⟨made, passed⟩ := load_eq_ok_iff.mp load
    refine ⟨restores_of_ofDer made, passed.imp_right fun accepted => ?_, ?_⟩
    · obtain ⟨d, A, holds⟩ := exists_holds_of_ofDer made
      exact (holds.verifiesPublicKeyBy_iff.mp accepted).1
    · intro target' other encoding
      obtain ⟨d, nonzero, fromDer, same⟩ := ofDer_eq_ok_iff.mp made
      refine load_eq_ok_iff.mpr ⟨?_, .inl rfl⟩
      rw [encoding]
      exact ofDer_eq_ok_iff.mpr ⟨d, nonzero, KeyPair.ofDer_skipCheck fromDer, same⟩
  · intro k obtainable valid
    obtain ⟨d, A, holds⟩ := obtainable.wellFormed.exists_holds valid
    obtain ⟨der, written⟩ := holds.toDer
    exact ⟨der, _, written, holds.publicKey, fun target => holds.reloads written target⟩

theorem load_restores_one :
    let k : SecretKey := ⟨true, true, Octets.ofNat 32 1⟩
    let other : PublicKey := ⟨⟨generator.x, -generator.y⟩, true⟩
    ∃ der, k.toDer = .ok der ∧ k.publicKey = .ok ⟨generator, true⟩ ∧
      (load der ⟨generator, true⟩ true).apply empty = (.ok (), k) ∧
      k.Restores der ⟨generator, true⟩ ∧
      (load der other true).apply empty = (.ok (), k) ∧
      (load der other false).apply empty = (.error .publicKeyMismatch, empty) := by
  intro k other
  have obtainable : k.Obtainable := .ofBytes (ofBytes_toList (by decide) true)
  have own : k.publicKey = .ok ⟨generator, true⟩ := by decide +kernel
  have unlike : other.point ≠ generator := by decide
  obtain ⟨restores, reloads⟩ := load_restores
  obtain ⟨der, key, written, same, reloads⟩ := reloads k obtainable rfl
  cases own.symm.trans same
  have loaded := (reloads empty).skipped
  obtain ⟨restored, -, others⟩ := restores empty k der ⟨generator, true⟩ true loaded
  exact ⟨der, written, own, loaded, restored, others empty other rfl,
    (reloads empty).foreign other unlike⟩

end KeyTree.SecretKey
