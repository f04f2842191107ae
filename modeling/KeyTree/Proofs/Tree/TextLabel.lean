import KeyTree.Proofs.BigEndian
import KeyTree.Proofs.Tree.Written
/-!
What the text of a node shows of its kind: the length, the first four letters, and that the reader
of the other kind refuses it.

The version stands in the leading digits of the number that a text writes, whatever the bytes after
it are (`Labels.labelled_text`).
-/

set_option autoImplicit false
set_option relaxedAutoImplicit false

namespace KeyTree

namespace Record

/-- The numbers that start with the four bytes of the version, with 78 bytes after them, start with
the digits of `lead` in base 58, with 107 digits after them.  The label is written with these
digits. -/
structure Labels (version : UInt32) (lead : Nat) (label : String) : Prop where
  canonical : (Bytes.bigEndian 4 version.toNat).head? ≠ some 0
  positive : 0 < lead
  from_below : lead * 58 ^ 107 ≤ version.toNat * 256 ^ 78
  to_above : (version.toNat + 1) * 256 ^ 78 ≤ (lead + 1) * 58 ^ 107
  written : (Numeral.digits 58 lead).map Base58.digitChar = label.toList

private theorem labels_private : Labels privateVersion 10892163 "xprv" where
  canonical := by decide
  positive := by decide
  from_below := by decide +kernel
  to_above := by decide +kernel
  written := by decide +kernel

private theorem labels_public : Labels publicVersion 10892318 "xpub" where
  canonical := by decide
  positive := by decide
  from_below := by decide +kernel
  to_above := by decide +kernel
  written := by decide +kernel

/-- The text starts with the label and has 107 characters after it. -/
structure Labelled (label s : String) : Prop where
  length_eq : s.length = label.length + 107
  starts : ∃ rest, s = label ++ rest

/-- Whatever the layout and its checksum are, they have no part in the label. -/
theorem Labels.labelled_text {version : UInt32} {lead : Nat} {label : String}
    (labels : Labels version lead label) (node : Octets 74) :
    Labelled label (text version node) := by
  let payload := Bytes.bigEndian 4 version.toNat ++ node.toList
  let tail := node.toList ++ Base58.checksum payload
  have written : payload ++ Base58.checksum payload = Bytes.bigEndian 4 version.toNat ++ tail :=
    List.append_assoc _ _ _
  have tail_length : tail.length = 78 := by
    rw [List.length_append, node.length_eq, length_checksum]
  have tail_lt : Bytes.bigEndianValue tail < 256 ^ 78 := tail_length ▸ Bytes.bigEndianValue_lt tail
  have number : Bytes.bigEndianValue (Bytes.bigEndian 4 version.toNat) = version.toNat :=
    Octets.value_ofNat_toNat version
  have value : Bytes.bigEndianValue (payload ++ Base58.checksum payload) =
      version.toNat * 256 ^ 78 + Bytes.bigEndianValue tail := by
    rw [written, Bytes.bigEndianValue_append, number, tail_length]
  have below : version.toNat * 256 ^ 78 + Bytes.bigEndianValue tail <
      (version.toNat + 1) * 256 ^ 78 := by
    rw [Nat.succ_mul]
    exact Nat.add_lt_add_left tail_lt _
  have quotient : Bytes.bigEndianValue (payload ++ Base58.checksum payload) / 58 ^ 107 = lead := by
    rw [value]
    exact Nat.div_eq_of_lt_le (Nat.le_trans labels.from_below (Nat.le_add_right _ _))
      (Nat.lt_of_lt_of_le below labels.to_above)
  have unpadded : (payload ++ Base58.checksum payload).head? ≠ some 0 := by
    rw [written, List.head?_append]
    cases head : (Bytes.bigEndian 4 version.toNat).head? with
    | some b => exact head ▸ labels.canonical
    | none =>
        have empty := List.head?_eq_none_iff.mp head
        have length_eq := Bytes.length_bigEndian 4 version.toNat
        rw [empty] at length_eq
        cases length_eq
  obtain ⟨rest, length_eq, digits⟩ :=
    Base58.exists_encodeChars_eq_append unpadded labels.positive quotient
  have shown : text version node = label ++ String.ofList rest := by
    rw [text, Base58.encodeCheck, Base58.encode, digits, labels.written, String.ofList_append,
      String.ofList_toList]
  refine ⟨?_, _, shown⟩
  rw [shown, String.length_append, String.length_ofList, length_eq]

end Record

/-! ### Nodes -/

private theorem PrivateNode.WellFormed.exists_toText {x : PrivateNode} (wellFormed : x.WellFormed) :
    ∃ node, x.toText = .ok (Record.text Record.privateVersion node) := by
  obtain ⟨node, encoded, -⟩ := map_eq_ok_iff.mp wellFormed.encode_eq
  exact ⟨node, map_eq_ok_iff.mpr ⟨node, encoded, rfl⟩⟩

private theorem PublicNode.ofText_private (node : Octets 74) :
    ofText (Record.text Record.privateVersion node) =
      .error (.invalidVersion Record.privateVersion) := by
  rw [ofText, Record.ofText_text, if_neg (by decide)]
  rfl

private theorem PrivateNode.ofText_public (node : Octets 74) :
    ofText (Record.text Record.publicVersion node) =
      .error (.invalidVersion Record.publicVersion) := by
  rw [ofText, Record.ofText_text, if_neg (by decide)]
  rfl

namespace Record

/-- The texts of private nodes have 111 characters, `xprv` first, and are refused by the reader of
public nodes for their version.  The same holds the other way round, with `xpub`.  So no text is
taken by both readers, and each refuses what the other one takes for its version. -/
theorem text_labelled :
    (∀ x : PrivateNode, x.Obtainable → ∃ s, x.toText = .ok s ∧ s.length = 111 ∧
      (∃ rest, s = "xprv" ++ rest) ∧ PublicNode.ofText s = .error (.invalidVersion 0x0488ade4)) ∧
    (∀ y : PublicNode, y.toText.length = 111 ∧ (∃ rest, y.toText = "xpub" ++ rest) ∧
      PrivateNode.ofText y.toText = .error (.invalidVersion 0x0488b21e)) ∧
    (∀ s x, PrivateNode.ofText s = .ok x →
      PublicNode.ofText s = .error (.invalidVersion 0x0488ade4)) ∧
    ∀ s y, PublicNode.ofText s = .ok y →
      PrivateNode.ofText s = .error (.invalidVersion 0x0488b21e) := by
  refine ⟨?_, ?_, ?_, ?_⟩
  · intro x obtainable
    obtain ⟨node, shown⟩ := obtainable.wellFormed.exists_toText
    have labelled := labels_private.labelled_text node
    exact ⟨_, shown, labelled.length_eq, labelled.starts, PublicNode.ofText_private node⟩
  · intro y
    have labelled := labels_public.labelled_text y.encode
    exact ⟨labelled.length_eq, labelled.starts, PrivateNode.ofText_public y.encode⟩
  · intro s x read
    obtain ⟨wellFormed, shown⟩ := PrivateNode.ofText_eq_ok_iff.mp read
    obtain ⟨node, shown'⟩ := wellFormed.exists_toText
    cases shown.symm.trans shown'
    exact PublicNode.ofText_private node
  · intro s y read
    obtain ⟨-, rfl⟩ := PublicNode.ofText_eq_ok_iff.mp read
    exact PrivateNode.ofText_public y.encode

theorem text_labelled_rootOfOne :
    ∃ x y s, PrivateNode.decode PrivateNode.rootOfOne = .ok x ∧ x.neuter = .ok y ∧
      (x.toText = .ok s ∧ s.length = 111 ∧ (∃ rest, s = "xprv" ++ rest)) ∧
      (PrivateNode.ofText s = .ok x ∧
        PublicNode.ofText s = .error (.invalidVersion 0x0488ade4)) ∧
      (y.toText.length = 111 ∧ ∃ rest, y.toText = "xpub" ++ rest) ∧
      PublicNode.ofText y.toText = .ok y ∧
        PrivateNode.ofText y.toText = .error (.invalidVersion 0x0488b21e) := by
  have layout : PrivateNode.Layout PrivateNode.rootOfOne :=
    ⟨by decide, by decide, by decide, by decide⟩
  obtain ⟨x, read⟩ := PrivateNode.exists_decode_iff.mpr layout
  have wellFormed := PrivateNode.wellFormed_of_decode read
  obtain ⟨y, neutered⟩ := wellFormed.exists_neuter
  obtain ⟨private_texts, public_texts, private_read, public_read⟩ := text_labelled
  obtain ⟨s, shown, length_eq, starts, -⟩ := private_texts x (.decode read)
  obtain ⟨public_length, public_starts, -⟩ := public_texts y
  have reread : PrivateNode.ofText s = .ok x :=
    PrivateNode.ofText_eq_ok_iff.mpr ⟨wellFormed, shown⟩
  have public_reread : PublicNode.ofText y.toText = .ok y :=
    PublicNode.ofText_eq_ok_iff.mpr ⟨PublicNode.wellFormed_of_neuter wellFormed neutered, rfl⟩
  exact ⟨x, y, s, read, neutered, ⟨shown, length_eq, starts⟩,
    ⟨reread, private_read s x reread⟩, ⟨public_length, public_starts⟩, public_reread,
    public_read y.toText y public_reread⟩

end Record

end KeyTree
