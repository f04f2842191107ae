import KeyTree.Key.Pair
import KeyTree.Proofs.Encoding.DerUnique
import KeyTree.Proofs.Encoding.Hex
import KeyTree.Proofs.Signature.Elements
/-!
The encoded form of signatures: every signature has one, of at most 72 bytes, and bytes that are
taken for a signature, by the test for low ones or by verification, are the encoding of this
signature.

Encoded and compact signatures are read from the texts of their bytes and from no others
(`ofHex_eq_ok_iff` of each).
-/

set_option autoImplicit false
set_option relaxedAutoImplicit false

namespace KeyTree

theorem EncodedSignature.ofHex_eq_ok_iff {s : String} {e : EncodedSignature} :
    ofHex s = .ok e ↔ Hex.decode s = .ok e.bytes ∧ e.bytes.length ≤ maxSize := by
  obtain ⟨bytes⟩ := e
  rw [ofHex]
  cases Hex.decode s with
  | error fault => simp
  | ok bs =>
      simp only [Except.ok.injEq]
      constructor
      · intro made
        split at made
        · cases made
        · rename_i fits
          cases made
          exact ⟨rfl, Nat.le_of_not_lt fits⟩
      · rintro ⟨rfl, fits⟩
        rw [if_neg (Nat.not_lt.mpr fits)]

theorem EncodedSignature.ofHex_toHex {e : EncodedSignature} (short : e.bytes.length ≤ maxSize) :
    ofHex e.toHex = .ok e :=
  ofHex_eq_ok_iff.mpr ⟨Hex.decode_encode e.bytes, short⟩

private theorem CompactSignature.ofBytes_eq_ok_iff {bs : Bytes} {c : CompactSignature} :
    ofBytes bs = .ok c ↔ bs = c.octets.toList := by
  rw [ofBytes]
  constructor
  · intro made
    split at made
    · rename_i o taken
      cases made
      exact (Octets.ofList?_eq_some_iff.mp taken).symm
    · cases made
  · rintro rfl
    rw [Octets.ofList?_toList]

theorem CompactSignature.ofHex_eq_ok_iff {s : String} {c : CompactSignature} :
    ofHex s = .ok c ↔ Hex.decode s = .ok c.octets.toList := by
  rw [ofHex]
  cases Hex.decode s with
  | error fault => simp
  | ok bs => rw [ofBytes_eq_ok_iff, Except.ok.injEq]

theorem CompactSignature.ofHex_toHex (c : CompactSignature) : ofHex c.toHex = .ok c :=
  ofHex_eq_ok_iff.mpr (Hex.decode_encode c.octets.toList)

namespace Signature

open Curve

variable {bs : Bytes} {σ : Signature}

theorem ofDer?_eq_some_iff : ofDer? bs = some σ ↔ σ.toDer = bs := by
  constructor
  · intro read
    simp only [ofDer?, Option.bind_eq_bind, Option.bind_eq_some_iff] at read
    obtain ⟨contents, outer, ⟨r, others⟩, first, ⟨s, last⟩, second, read⟩ := read
    simp only at second read
    split at read
    · rename_i empty
      rw [List.isEmpty_iff.mp empty] at second
      obtain ⟨rfl, rfl⟩ := ofNats?_eq_some_iff.mp read
      have s_form := Der.natural_of_readNatural? second
      rw [List.append_nil] at s_form
      rw [toDer, s_form, Der.natural_of_readNatural? first, Der.element_of_only? outer]
    · cases read
  · rintro rfl
    exact ofDer?_toDer σ

theorem length_toDer_le_maxSize (σ : Signature) : σ.toDer.length ≤ EncodedSignature.maxSize :=
  length_toDer_le_of_second (length_natural_val_le σ.s) (by decide)

private theorem exists_ofDer?_of_isLowDer (low : isLowDer bs = true) : ∃ σ, ofDer? bs = some σ := by
  unfold isLowDer at low
  split at low
  · rename_i σ read
    exact ⟨σ, read⟩
  · cases low

theorem exists_ofDer?_of_verifies {p : KeyPair} {hash : Octets 32}
    (good : p.verifies hash bs = true) : ∃ σ, ofDer? bs = some σ := by
  unfold KeyPair.verifies at good
  split at good
  · rename_i σ _ read
    exact ⟨σ, read⟩
  · cases good

/-- Some bytes are read as the signature and count as low. -/
def HasLowForm (σ : Signature) : Prop :=
  ∃ bs, ofDer? bs = some σ ∧ isLowDer bs = true

private theorem hasLowForm_iff : σ.HasLowForm ↔ σ.isLow = true := by
  constructor
  · rintro ⟨bs, read, low⟩
    rwa [isLowDer, read] at low
  · intro low
    exact ⟨σ.toDer, ofDer?_toDer σ, (isLowDer_toDer σ).trans low⟩

/-- The bytes of a signature written out: the header of the sequence, and each element after its
own header. -/
theorem toDer_eq (σ : Signature) :
    let r := Der.naturalContents σ.r.val
    let s := Der.naturalContents σ.s.val
    σ.toDer = [0x30, UInt8.ofNat (r.length + s.length + 4)] ++ [0x02, UInt8.ofNat r.length] ++ r ++
      [0x02, UInt8.ofNat s.length] ++ s := by
  intro r s
  have r_length : r.length ≤ 33 := Der.length_naturalContents_lt (val_lt_naturalBound σ.r)
  have s_length : s.length ≤ 33 := Der.length_naturalContents_lt (val_lt_naturalBound σ.s)
  have first : Der.natural σ.r.val = 0x02 :: UInt8.ofNat r.length :: r :=
    Der.element_of_length rfl (r_length.trans_lt (by decide)) Der.integerTag
  have second : Der.natural σ.s.val = 0x02 :: UInt8.ofNat s.length :: s :=
    Der.element_of_length rfl (s_length.trans_lt (by decide)) Der.integerTag
  have contents : (Der.natural σ.r.val ++ Der.natural σ.s.val).length =
      r.length + s.length + 4 := by
    rw [first, second]
    simp only [List.length_append, List.length_cons]
    omega
  rw [toDer, Der.element_of_length contents (by omega), first, second]
  simp only [List.append_assoc, List.cons_append, List.nil_append, Der.sequenceTag]

/-- The bytes are the sequence of the two elements as integers.  They fit the bound of encoded
signatures, pass through their text, and are the only ones that are read as the signature.  They
count as low exactly if its second element is at most half the order. -/
structure Encodes (bs : Bytes) (σ : Signature) : Prop where
  form : ∃ r s : Bytes, Der.WritesNatural r σ.r.val ∧ Der.WritesNatural s σ.s.val ∧
    bs = [0x30, UInt8.ofNat (r.length + s.length + 4)] ++ [0x02, UInt8.ofNat r.length] ++ r ++
      [0x02, UInt8.ofNat s.length] ++ s
  short : bs.length ≤ 72
  text : EncodedSignature.ofHex (EncodedSignature.toHex ⟨bs⟩) = .ok ⟨bs⟩
  read_iff : ∀ bs', ofDer? bs' = some σ ↔ bs' = bs
  low_iff : isLowDer bs = true ↔ σ.s.val ≤ order / 2

private theorem encodes_toDer (σ : Signature) : Encodes σ.toDer σ where
  form := ⟨_, _, Der.writesNatural_naturalContents σ.r.val,
    Der.writesNatural_naturalContents σ.s.val, toDer_eq σ⟩
  short := length_toDer_le_maxSize σ
  text := EncodedSignature.ofHex_toHex (length_toDer_le_maxSize σ)
  read_iff _ := ofDer?_eq_some_iff.trans eq_comm
  low_iff := by rw [isLowDer_toDer, isLow_iff_le_half]

private theorem exists_of_elements {r s : Nat} (r_pos : 0 < r) (r_lt : r < order) (s_pos : 0 < s)
    (s_lt : s < order) : ∃ σ : Signature, σ.r.val = r ∧ σ.s.val = s := by
  let r' : Scalar := ⟨r, r_lt⟩
  let s' : Scalar := ⟨s, s_lt⟩
  exact ⟨⟨r', s', Residue.val_pos_iff.mp r_pos, Residue.val_pos_iff.mp s_pos⟩, rfl, rfl⟩

/-- Every two elements in range are a signature with one encoded form, which is short.  Of it and
its twin exactly one has a low form.  Bytes are the encoding of what they are read as, and bytes
that are not read as a signature neither count as low nor are good for any pair. -/
theorem encoding_canonical :
    (∀ r s, 0 < r → r < order → 0 < s → s < order →
      ∃ σ τ : Signature, (σ.r.val = r ∧ σ.s.val = s) ∧ (τ.r.val = r ∧ τ.s.val = order - s) ∧
        Encodes σ.toDer σ ∧ (τ.HasLowForm ↔ ¬ σ.HasLowForm)) ∧
    (∀ bs σ, ofDer? bs = some σ → bs = σ.toDer) ∧
    (∀ bs, isLowDer bs = true → ∃ σ, ofDer? bs = some σ) ∧
    ∀ (p : KeyPair) hash bs, p.verifies hash bs = true → ∃ σ, ofDer? bs = some σ := by
  refine ⟨?_, ?_, ?_, ?_⟩
  · intro r s r_pos r_lt s_pos s_lt
    obtain ⟨σ, r_eq, s_eq⟩ := exists_of_elements r_pos r_lt s_pos s_lt
    have negated : σ.twin.s.val = order - σ.s.val := Residue.val_neg_of_ne_zero σ.s_ne_zero
    refine ⟨σ, σ.twin, ⟨r_eq, s_eq⟩, ⟨r_eq, s_eq ▸ negated⟩, encodes_toDer σ, ?_⟩
    rw [hasLowForm_iff, hasLowForm_iff, isLow_twin, Bool.not_eq_true', Bool.not_eq_true]
  · intro bs σ read
    exact (ofDer?_eq_some_iff.mp read).symm
  · exact fun bs => exists_ofDer?_of_isLowDer
  · exact fun p hash bs => exists_ofDer?_of_verifies

theorem encoding_canonical_largest :
    ∃ σ τ : Signature, σ.r.val = order - 1 ∧ σ.s.val = order - 1 ∧ τ.s.val = 1 ∧
      σ.toDer.length = 72 ∧ Encodes σ.toDer σ ∧ ¬ σ.HasLowForm ∧ τ.HasLowForm := by
  obtain ⟨encoded, -⟩ := encoding_canonical
  obtain ⟨σ, τ, ⟨r_eq, s_eq⟩, ⟨-, twin_eq⟩, encodes, apart⟩ := encoded (order - 1) (order - 1)
    (by decide) (by decide) (by decide) (by decide)
  have full : σ.toDer.length = 72 := by
    rw [toDer, r_eq, s_eq]
    decide +kernel
  have high : ¬ σ.HasLowForm := by
    rw [hasLowForm_iff, isLow_iff_le_half, s_eq]
    decide
  exact ⟨σ, τ, r_eq, s_eq, twin_eq, full, encodes, high, apart.mpr high⟩

end Signature

end KeyTree
