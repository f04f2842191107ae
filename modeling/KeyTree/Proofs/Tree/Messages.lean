import KeyTree.Proofs.Tree.PublicKeys
/-!
What derivation hashes.

The message for a child ends in the four bytes of the index.  These tell whether the index is
hardened, and so whether the bytes before them are the secret after a zero byte or the compressed
form of the public point.  Either way they belong to one secret: the generator has prime order, and
a point on the curve is known by its compressed form.  Hence no two children have one message
(`derivationMessage_apart`), whichever secrets they come from.
-/

set_option autoImplicit false
set_option relaxedAutoImplicit false

namespace KeyTree.SecretKey

open Curve

/-- The valid key of a secret, with either encoding of its public key. -/
def ofScalar (d : Scalar) (compressed : Bool) : SecretKey :=
  ⟨true, compressed, d.toOctets 32⟩

/-- The message for the child of a secret at an index.  It starts with a zero byte exactly if the
index is hardened. -/
structure MessageFor (d : Scalar) (index : UInt32) (message : Bytes) : Prop where
  hardened : isHardened index = true →
    message = 0 :: (d.toOctets 32).toList ++ Bytes.bigEndian 4 index.toNat
  plain : isHardened index = false → ∃ A, Point.ofGroup (d.val • G) = .affine A ∧
    message = (PublicKey.compressedForm A).toList ++ Bytes.bigEndian 4 index.toNat
  marker : message.head? = some 0 ↔ isHardened index = true

variable {d d' : Scalar} {index index' : UInt32} {message : Bytes}

private theorem head?_plainMessage_ne_zero (A : Affine) (index : UInt32) :
    (plainMessage (PublicKey.compressedForm A) index).head? ≠ some 0 := by
  have first : (plainMessage (PublicKey.compressedForm A) index).head? =
      some (if A.y.isOdd then 0x03 else 0x02) := rfl
  rw [first]
  cases A.y.isOdd <;> decide

theorem exists_messageFor (nonzero : d ≠ 0) (compressed : Bool) (index : UInt32) :
    ∃ message, (ofScalar d compressed).derivationMessage index = .ok message ∧
      MessageFor d index message := by
  obtain ⟨A, holds⟩ := exists_holds_of_data (k := ofScalar d compressed) rfl nonzero rfl
  have point : Point.ofGroup (d.val • G) = .affine A := by rw [← toZMod_smul, holds.point]
  refine ⟨_, holds.derivationMessage index, ?_⟩
  cases hardened : isHardened index with
  | true =>
      refine ⟨fun _ => rfl, fun plain => ?_, iff_of_true rfl hardened⟩
      cases hardened.symm.trans plain
  | false =>
      have unmarked := head?_plainMessage_ne_zero A index
      refine ⟨fun marked => ?_, fun _ => ⟨A, point, rfl⟩,
        iff_of_false unmarked (Bool.eq_false_iff.mp hardened)⟩
      cases hardened.symm.trans marked

private theorem MessageFor.exists_suffix (messageFor : MessageFor d index message) :
    ∃ before, message = before ++ Bytes.bigEndian 4 index.toNat := by
  cases hardened : isHardened index with
  | true => exact ⟨_, messageFor.hardened hardened⟩
  | false =>
      obtain ⟨A, -, same⟩ := messageFor.plain hardened
      exact ⟨_, same⟩

private theorem MessageFor.unique (messageFor : MessageFor d index message)
    (messageFor' : MessageFor d' index' message) : d = d' ∧ index = index' := by
  have lengths : (Bytes.bigEndian 4 index.toNat).length =
      (Bytes.bigEndian 4 index'.toNat).length := by
    rw [Bytes.length_bigEndian, Bytes.length_bigEndian]
  obtain ⟨before, split⟩ := messageFor.exists_suffix
  obtain ⟨before', split'⟩ := messageFor'.exists_suffix
  have suffixes := List.append_inj_right' (split.symm.trans split') lengths
  obtain rfl : index = index' := Octets.ofNat_toNat_inj.mp (Octets.ext suffixes)
  refine ⟨?_, rfl⟩
  -- Under one index both messages have the same layout.
  cases hardened : isHardened index with
  | true =>
      have same := (messageFor.hardened hardened).symm.trans (messageFor'.hardened hardened)
      have heads := List.append_cancel_right same
      exact toOctets_scalar_inj.mp (Octets.ext (List.cons.inj heads).2)
  | false =>
      obtain ⟨A, point, form⟩ := messageFor.plain hardened
      obtain ⟨A', point', form'⟩ := messageFor'.plain hardened
      have heads := List.append_cancel_right (form.symm.trans form')
      obtain rfl : A = A' := PublicKey.compressedForm_inj (Point.onCurve_of_ofGroup point)
        (Point.onCurve_of_ofGroup point') (Octets.ext heads)
      exact val_smul_G_inj.mp (Point.ofGroup_injective (point.trans point'.symm))

/-- What is hashed to derive a child belongs to one secret and one index.  A public node of the
point of a secret hashes what the secret does, for every plain index.  The encoding that a key or
the key of a public node asks for makes no difference to its children. -/
theorem derivationMessage_apart :
    (∀ d d' : Scalar, d ≠ 0 → d' ≠ 0 → ∀ compressed compressed' index index',
      ∃ message message',
        (ofScalar d compressed).derivationMessage index = .ok message ∧
        (ofScalar d' compressed').derivationMessage index' = .ok message' ∧
        MessageFor d index message ∧ MessageFor d' index' message' ∧
        (message = message' ↔ d = d' ∧ index = index')) ∧
    (∀ d : Scalar, d ≠ 0 → ∀ compressed index (y : PublicNode), isHardened index = false →
      Point.ofGroup (d.val • G) = .affine y.key.point →
        (ofScalar d compressed).derivationMessage index = .ok (y.derivationMessage index)) ∧
    (∀ (k : SecretKey) compressed index chainCode,
      derive { k with compressed := compressed } index chainCode = k.derive index chainCode) ∧
    ∀ (y : PublicNode) compressed index,
      PublicNode.derive { y with key := y.key.withCompression compressed } index =
        y.derive index := by
  refine ⟨?_, ?_, fun _ _ _ _ => rfl, fun _ _ _ => rfl⟩
  · intro d d' nonzero nonzero' compressed compressed' index index'
    obtain ⟨message, hashed, messageFor⟩ := exists_messageFor nonzero compressed index
    obtain ⟨message', hashed', messageFor'⟩ := exists_messageFor nonzero' compressed' index'
    refine ⟨message, message', hashed, hashed', messageFor, messageFor', ?_, ?_⟩
    · rintro rfl
      exact messageFor.unique messageFor'
    · rintro ⟨rfl, rfl⟩
      exact Except.ok.inj (hashed.symm.trans hashed')
  · intro d nonzero compressed index y plain point
    obtain ⟨message, hashed, messageFor⟩ := exists_messageFor nonzero compressed index
    obtain ⟨A, point', form⟩ := messageFor.plain plain
    obtain rfl : A = y.key.point := Point.affine.inj (point'.symm.trans point)
    rw [hashed, form]
    rfl

theorem derivationMessage_apart_one :
    (∃ message message', (ofScalar 1 true).derivationMessage 0 = .ok message ∧
      (ofScalar 2 false).derivationMessage hardenedBit = .ok message' ∧ message ≠ message') ∧
    (ofScalar 1 true).derivationMessage 0 =
      .ok (PublicNode.derivationMessage ⟨.root ⟨Octets.zero 32⟩, ⟨generator, true⟩⟩ 0) := by
  obtain ⟨apart, agree, -⟩ := derivationMessage_apart
  obtain ⟨message, message', hashed, hashed', -, -, same_iff⟩ :=
    apart 1 2 (by decide) (by decide) true false 0 hardenedBit
  refine ⟨⟨message, message', hashed, hashed', fun same => ?_⟩, ?_⟩
  · exact absurd (same_iff.mp same).2 (by decide)
  · exact agree 1 (by decide) true 0 _ (by decide) ofGroup_one_smul_G

end KeyTree.SecretKey
