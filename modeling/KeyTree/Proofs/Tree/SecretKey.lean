import KeyTree.Proofs.Key.Pair
import KeyTree.Tree.SecretKey
/-!
Secret keys as programs come by them.

Every operation keeps a key well formed: a valid key holds a secret in range and an invalid one
holds zeros.  What a valid key computes is given by its secret `d` and the point `dG`.
-/

set_option autoImplicit false
set_option relaxedAutoImplicit false

namespace KeyTree

open Curve

private theorem Entropy.isSecret_of_drawSecretWithin {attempts : Nat} {e rest : Entropy}
    {secret : Octets 32} (drawn : e.drawSecretWithin attempts = .ok (secret, rest)) :
    isSecret secret = true := by
  induction attempts generalizing e with
  | zero => contradiction
  | succ attempts ih =>
      rw [drawSecretWithin] at drawn
      split at drawn
      · contradiction
      split at drawn
      · rename_i candidate _ _ usable
        cases drawn
        exact usable
      · exact ih drawn

namespace SecretKey

/-- The keys that programs come by: the new key, and the results of the operations on them. -/
inductive Obtainable : SecretKey → Prop where
  | empty : Obtainable empty
  | ofBytes {bs : Bytes} {compressed : Bool} {k : SecretKey} :
      ofBytes bs compressed = .ok k → Obtainable k
  | setBytes {k : SecretKey} (bs : Bytes) (compressed : Bool) :
      Obtainable k → Obtainable ((setBytes bs compressed).run k).2
  | generate {k : SecretKey} (source : Entropy) (compressed : Bool) :
      Obtainable k → Obtainable ((generate source compressed).apply k).2
  | setDer {k : SecretKey} (der : Bytes) (compressed skipCheck : Bool) :
      Obtainable k → Obtainable ((setDer der compressed skipCheck).apply k).2
  | load {k : SecretKey} (der : Bytes) (expected : PublicKey) (skipCheck : Bool) :
      Obtainable k → Obtainable ((load der expected skipCheck).apply k).2
  | derive {k child : SecretKey} {index : UInt32} {chainCode childCode : ChainCode} :
      Obtainable k → k.derive index chainCode = .ok (child, childCode) → Obtainable child

/-- A valid key holds a secret in range, an invalid one zeros. -/
structure WellFormed (k : SecretKey) : Prop where
  inRange : k.valid = true → isSecret k.data = true
  cleared : k.valid = false → k.data = Octets.zero 32

private theorem wellFormed_empty : empty.WellFormed where
  inRange := nofun
  cleared _ := rfl

private theorem wellFormed_loadBytes (k : SecretKey) (bs : Bytes) (compressed : Bool) :
    (k.loadBytes bs compressed).WellFormed := by
  rw [loadBytes]
  split
  · rename_i o read
    obtain rfl := Octets.ofList?_eq_some_iff.mp read
    split
    · rename_i usable
      exact ⟨fun _ => usable, nofun⟩
    · exact ⟨nofun, fun _ => rfl⟩
  · exact ⟨nofun, fun _ => rfl⟩

theorem ofBytes_toList {o : Octets 32} (usable : isSecret o = true) (compressed : Bool) :
    ofBytes o.toList compressed = .ok ⟨true, compressed, o⟩ := by
  have loaded : empty.loadBytes o.toList compressed = ⟨true, compressed, o⟩ := by
    rw [loadBytes, Octets.ofList?_toList]
    exact if_pos usable
  rw [ofBytes, loaded]
  rfl

theorem of_ofBytes {bs : Bytes} {compressed : Bool} {k : SecretKey}
    (made : ofBytes bs compressed = .ok k) :
    k.WellFormed ∧ k.valid = true ∧ k.compressed = compressed := by
  rw [ofBytes] at made
  split at made
  · rename_i valid
    obtain rfl := Except.ok.inj made
    refine ⟨wellFormed_loadBytes empty bs compressed, valid, ?_⟩
    revert valid
    unfold loadBytes
    split
    · split
      · exact fun _ => rfl
      · nofun
    · nofun
  · contradiction

theorem ofBytes_eq_ok_iff {bs : Bytes} {compressed : Bool} {k : SecretKey} :
    ofBytes bs compressed = .ok k ↔
      k.WellFormed ∧ k.valid = true ∧ k.compressed = compressed ∧ k.data.toList = bs := by
  constructor
  · intro made
    obtain ⟨wellFormed, valid, encoding⟩ := of_ofBytes made
    refine ⟨wellFormed, valid, encoding, ?_⟩
    cases read : Octets.ofList? 32 bs with
    | none =>
      rw [ofBytes, loadBytes, read] at made
      cases made
    | some o =>
      obtain rfl := Octets.ofList?_eq_some_iff.mp read
      cases usable : isSecret o with
      | true =>
        rw [ofBytes_toList usable] at made
        cases made
        rfl
      | false =>
        have refused : inElementRange o.toList false = false := usable
        simp [ofBytes, loadBytes, read, refused] at made
  · rintro ⟨wellFormed, valid, rfl, rfl⟩
    rw [ofBytes_toList (wellFormed.inRange valid)]
    cases k
    cases valid
    rfl

private theorem wellFormed_of_ofDer {der : Bytes} {compressed skipCheck : Bool} {k : SecretKey}
    (made : ofDer der compressed skipCheck = .ok k) : k.WellFormed := by
  obtain ⟨pair, -, made⟩ := bind_eq_ok_iff.mp made
  obtain ⟨secret, -, made⟩ := bind_eq_ok_iff.mp made
  exact (of_ofBytes made).1

theorem of_derive {k child : SecretKey} {index : UInt32}
    {chainCode childCode : ChainCode} (made : k.derive index chainCode = .ok (child, childCode)) :
    child.WellFormed ∧ child.valid = true ∧ child.compressed = true := by
  obtain ⟨message, -, made⟩ := bind_eq_ok_iff.mp made
  obtain ⟨secret, -, made⟩ := bind_eq_ok_iff.mp made
  obtain ⟨child', read, same⟩ := bind_eq_ok_iff.mp made
  cases same
  exact of_ofBytes read

private theorem WellFormed.generate {k : SecretKey} (wellFormed : k.WellFormed) (source : Entropy)
    (compressed : Bool) : ((generate source compressed).apply k).2.WellFormed := by
  cases drawn : source.drawSecret with
  | error fault =>
      simpa [SecretKey.generate, Update.apply_bind, drawn] using wellFormed
  | ok result =>
      obtain ⟨secret, rest⟩ := result
      have usable : isSecret secret = true := Entropy.isSecret_of_drawSecretWithin drawn
      simp only [SecretKey.generate, Update.apply_bind, Update.apply_ofExcept, drawn,
        liftCurve_ok, Update.apply_set, Update.apply_pure]
      exact ⟨fun _ => usable, nofun⟩

private theorem WellFormed.setDer {k : SecretKey} (wellFormed : k.WellFormed) (der : Bytes)
    (compressed skipCheck : Bool) :
    ((setDer der compressed skipCheck).apply k).2.WellFormed := by
  cases made : ofDer der compressed skipCheck with
  | error fault => simpa [SecretKey.setDer, Update.apply_bind, made] using wellFormed
  | ok key => simpa [SecretKey.setDer, Update.apply_bind, made] using wellFormed_of_ofDer made

/-- What loading answers and leaves: the key of the document if it makes one that passes the
check, else what was there before. -/
theorem apply_load (target : SecretKey) (der : Bytes) (expected : PublicKey) (skipCheck : Bool) :
    (load der expected skipCheck).apply target =
      match ofDer der expected.compressed skipCheck with
      | .error fault => (.error fault, target)
      | .ok key =>
          if skipCheck = true ∨ key.verifiesPublicKey expected = true then (.ok (), key)
          else (.error .publicKeyMismatch, target) := by
  cases made : ofDer der expected.compressed skipCheck with
  | error fault => simp [load, Update.apply_bind, made]
  | ok key =>
      cases skipCheck <;> cases accepted : key.verifiesPublicKey expected <;>
        simp [load, Update.apply_bind, made, accepted]

private theorem WellFormed.load {k : SecretKey} (wellFormed : k.WellFormed) (der : Bytes)
    (expected : PublicKey) (skipCheck : Bool) :
    ((load der expected skipCheck).apply k).2.WellFormed := by
  rw [apply_load]
  split
  · exact wellFormed
  · rename_i key made
    split
    · exact wellFormed_of_ofDer made
    · exact wellFormed

theorem Obtainable.wellFormed {k : SecretKey} (obtainable : k.Obtainable) : k.WellFormed := by
  induction obtainable with
  | empty => exact wellFormed_empty
  | ofBytes made => exact (of_ofBytes made).1
  | @setBytes k bs compressed _ _ => exact wellFormed_loadBytes k bs compressed
  | generate source compressed _ ih => exact ih.generate source compressed
  | setDer der compressed skipCheck _ ih => exact ih.setDer der compressed skipCheck
  | load der expected skipCheck _ ih => exact ih.load der expected skipCheck
  | derive _ made _ => exact (of_derive made).1

/-- The key holds the secret `d`, and `A` is the public point `dG`. -/
structure Holds (k : SecretKey) (d : Scalar) (A : Affine) : Prop where
  valid : k.valid = true
  nonzero : d ≠ 0
  data : k.data = d.toOctets 32
  point : Point.ofGroup (d.toZMod • G) = .affine A

theorem exists_holds_of_data {k : SecretKey} {d : Scalar} (valid : k.valid = true)
    (nonzero : d ≠ 0) (data : k.data = d.toOctets 32) : ∃ A, k.Holds d A := by
  obtain ⟨A, point, -⟩ := KeyPair.exists_publicPoint_ofScalar nonzero
  exact ⟨A, valid, nonzero, data, point⟩

theorem WellFormed.exists_holds {k : SecretKey} (wellFormed : k.WellFormed)
    (valid : k.valid = true) : ∃ d A, k.Holds d A := by
  obtain ⟨positive, bounded⟩ := isSecret_iff.mp (wellFormed.inRange valid)
  obtain ⟨d, nonzero, value, -⟩ := KeyPair.exists_ofSecret positive bounded
  exact ⟨d, exists_holds_of_data valid nonzero (Residue.toOctets_eq_of_val value).symm⟩

section

variable {k : SecretKey} {d : Scalar} {A : Affine}

theorem Holds.keyPair (holds : k.Holds d A) :
    k.keyPair = .ok (KeyPair.ofScalar d) ∧ (KeyPair.ofScalar d).publicPoint = some A := by
  constructor
  · rw [SecretKey.keyPair, holds.valid, holds.data, KeyPair.ofSecret_toOctets holds.nonzero]
    rfl
  · obtain ⟨A', point, own⟩ := KeyPair.exists_publicPoint_ofScalar holds.nonzero
    obtain rfl : A = A' := Point.affine.inj (holds.point.symm.trans point)
    exact own

theorem Holds.pairPublicKey (holds : k.Holds d A) (compressed : Bool) :
    (KeyPair.ofScalar d).publicKey compressed = .ok ⟨A, compressed⟩ :=
  KeyPair.publicKey_eq holds.keyPair.2 compressed

theorem Holds.publicKey (holds : k.Holds d A) : k.publicKey = .ok ⟨A, k.compressed⟩ := by
  rw [SecretKey.publicKey, holds.keyPair.1, ok_bind, holds.pairPublicKey]
  rfl

theorem Holds.derivationMessage (holds : k.Holds d A) (index : UInt32) :
    k.derivationMessage index =
      .ok (if isHardened index then hardenedMessage k.data index
        else plainMessage (PublicKey.compressedForm A) index) := by
  rw [SecretKey.derivationMessage, holds.keyPair.1, ok_bind, holds.pairPublicKey]
  cases isHardened index <;> rfl

/-- A child holds the sum of the secret and the tweak.  There is none if the tweak is not below
the order or the sum is zero. -/
theorem Holds.derive (holds : k.Holds d A) {index : UInt32} {message : Bytes}
    (hashed : k.derivationMessage index = .ok message) {chainCode childCode : ChainCode}
    {tweak : Octets 32} (digest : derivationHash chainCode message = (tweak, childCode)) :
    k.derive index chainCode =
      match Residue.ofOctets? order tweak with
      | none => .error (.derivationFailed index)
      | some t =>
          if d + t = 0 then .error (.derivationFailed index)
          else .ok (⟨true, true, (d + t).toOctets 32⟩, childCode) := by
  rw [SecretKey.derive, hashed, ok_bind, holds.data]
  simp only [digest, KeyPair.tweakSecret_toOctets holds.nonzero]
  cases Residue.ofOctets? order tweak with
  | none => rfl
  | some t =>
      by_cases zero : d + t = 0
      · simp only [if_pos zero]
        rfl
      · have read := ofBytes_toList (isSecret_toOctets zero) true
        simp only [if_neg zero]
        change (ofBytes ((d + t).toOctets 32).toList true >>= _) = _
        rw [read]
        rfl

end

end SecretKey

end KeyTree
