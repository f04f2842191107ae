import KeyTree.Datum
import KeyTree.Proofs.Key.EncodedSignature
import KeyTree.Proofs.Key.Public
/-!
Keys and signatures as hexadecimal text that is read by itself or as a field of a document.

Both readers of a kind take the bytes of the text and then look at these, so that they can differ
only in what they ask of the bytes (`readers_agree`).  Of keys and of compact signatures they ask
the same; an encoded signature may have any length in a field (`not_readers_agree`).
-/

set_option autoImplicit false
set_option relaxedAutoImplicit false

namespace KeyTree

/-- The text is read by itself exactly as it is read as a field, if what it stands for fits.  What
a field gives is given again by its own text, by itself exactly if it fits. -/
structure ReadAlike {α ε : Type} (toHex : α → String) (ofHex : String → Except ε α)
    (asField : Datum → Except DatumError α) (Fits : α → Prop) (s : String) : Prop where
  agree : ∀ v, ofHex s = .ok v ↔ asField (.text s) = .ok v ∧ Fits v
  field_restores : ∀ v, asField (.text s) = .ok v → asField (.text (toHex v)) = .ok v
  hex_restores : ∀ v, asField (.text s) = .ok v → (ofHex (toHex v) = .ok v ↔ Fits v)

private theorem ReadAlike.of_bytes {α ε : Type} {toHex : α → String} {ofHex : String → Except ε α}
    {asField : Datum → Except DatumError α} {toBytes : α → Bytes} {Fits : α → Prop}
    (Made : α → Prop) (written : ∀ v, toHex v = Hex.encode (toBytes v))
    (field_iff : ∀ s v, asField (.text s) = .ok v ↔ Made v ∧ Hex.decode s = .ok (toBytes v))
    (hex_iff : ∀ s v, ofHex s = .ok v ↔ (Made v ∧ Hex.decode s = .ok (toBytes v)) ∧ Fits v)
    (s : String) : ReadAlike toHex ofHex asField Fits s where
  agree v := by rw [hex_iff, field_iff]
  field_restores v read := by
    obtain ⟨made, -⟩ := (field_iff s v).mp read
    rw [written, field_iff, Hex.decode_encode]
    exact ⟨made, rfl⟩
  hex_restores v read := by
    obtain ⟨made, -⟩ := (field_iff s v).mp read
    rw [written, hex_iff, Hex.decode_encode]
    exact and_iff_right ⟨made, rfl⟩

/-! ### The readers of fields -/

namespace Datum

private theorem asBytes_text_eq_ok_iff {s : String} {bs : Bytes} :
    asBytes (.text s) = .ok bs ↔ Hex.decode s = .ok bs :=
  mapError_eq_ok_iff

private theorem asPublicKey_text_eq_ok_iff {s : String} {k : PublicKey} :
    asPublicKey (.text s) = .ok k ↔ k.point.OnCurve ∧ Hex.decode s = .ok k.toBytes :=
  mapError_eq_ok_iff.trans PublicKey.ofHex_eq_ok_iff

private theorem asCompactSignature_text_eq_ok_iff {s : String} {c : CompactSignature} :
    asCompactSignature (.text s) = .ok c ↔ Hex.decode s = .ok c.octets.toList := by
  rw [asCompactSignature, bind_eq_ok_iff]
  constructor
  · rintro ⟨bs, read, made⟩
    split at made
    · rename_i o taken
      cases made
      rw [asBytes_text_eq_ok_iff.mp read, Octets.ofList?_eq_some_iff.mp taken]
    · cases made
  · intro read
    refine ⟨_, asBytes_text_eq_ok_iff.mpr read, ?_⟩
    rw [Octets.ofList?_toList]
    rfl

private theorem asEncodedSignature_text_eq_ok_iff {s : String} {e : EncodedSignature} :
    asEncodedSignature (.text s) = .ok e ↔ Hex.decode s = .ok e.bytes := by
  rw [asEncodedSignature, bind_eq_ok_iff]
  constructor
  · rintro ⟨bs, read, made⟩
    cases made
    exact asBytes_text_eq_ok_iff.mp read
  · exact fun read => ⟨_, asBytes_text_eq_ok_iff.mpr read, rfl⟩

/-- The two readers of public keys are alike, and so are those of compact signatures; those of
encoded signatures differ in the texts of more than `EncodedSignature.maxSize` bytes. -/
theorem readers_agree (s : String) :
    ReadAlike PublicKey.toHex PublicKey.ofHex asPublicKey (fun _ => True) s ∧
    ReadAlike CompactSignature.toHex CompactSignature.ofHex asCompactSignature (fun _ => True) s ∧
    ReadAlike EncodedSignature.toHex EncodedSignature.ofHex asEncodedSignature
      (fun e => e.bytes.length ≤ EncodedSignature.maxSize) s := by
  refine ⟨?_, ?_, ?_⟩
  · refine .of_bytes (fun k => k.point.OnCurve) (fun k => rfl)
      (fun s k => asPublicKey_text_eq_ok_iff) (fun s k => ?_) s
    rw [PublicKey.ofHex_eq_ok_iff, and_true]
  · refine .of_bytes (fun _ => True) (fun c => rfl) (fun s c => ?_) (fun s c => ?_) s
    · rw [asCompactSignature_text_eq_ok_iff, true_and]
    · rw [CompactSignature.ofHex_eq_ok_iff, true_and, and_true]
  · refine .of_bytes (fun _ => True) (fun e => rfl) (fun s e => ?_) (fun s e => ?_) s
    · rw [asEncodedSignature_text_eq_ok_iff, true_and]
    · rw [EncodedSignature.ofHex_eq_ok_iff, true_and]

theorem readers_agree_generator :
    let key : PublicKey := ⟨Curve.generator, true⟩
    PublicKey.ofHex key.toHex = .ok key ∧ asPublicKey (.text key.toHex) = .ok key := by
  intro key
  obtain ⟨alike, -⟩ := readers_agree key.toHex
  have onCurve : Curve.generator.OnCurve := by decide +kernel
  have read : asPublicKey (.text key.toHex) = .ok key :=
    asPublicKey_text_eq_ok_iff.mpr ⟨onCurve, Hex.decode_encode key.toBytes⟩
  exact ⟨(alike.agree key).mpr ⟨read, trivial⟩, read⟩

/-- The two readers of encoded signatures are not alike: 73 bytes are taken from a field and
refused in the text, and the value that the field gives is not read from its own text. -/
theorem not_readers_agree :
    let bs : Bytes := List.replicate 73 0x30
    asEncodedSignature (.text (Hex.encode bs)) = .ok ⟨bs⟩ ∧
    EncodedSignature.ofHex (Hex.encode bs) = .error (.invalidSignature (.tooLong 72 73)) ∧
    ¬ (∀ s e, EncodedSignature.ofHex s = .ok e ↔ asEncodedSignature (.text s) = .ok e) ∧
    ¬ (∀ s e, asEncodedSignature (.text s) = .ok e → EncodedSignature.ofHex e.toHex = .ok e) := by
  intro bs
  have taken : asEncodedSignature (.text (Hex.encode bs)) = .ok ⟨bs⟩ :=
    asEncodedSignature_text_eq_ok_iff.mpr (Hex.decode_encode bs)
  have refused :
      EncodedSignature.ofHex (Hex.encode bs) = .error (.invalidSignature (.tooLong 72 73)) := by
    rw [EncodedSignature.ofHex, Hex.decode_encode]
    rfl
  refine ⟨taken, refused, fun claimed => ?_, fun claimed => ?_⟩
  · have read := (claimed _ _).mpr taken
    rw [refused] at read
    cases read
  · have read := claimed _ _ taken
    rw [EncodedSignature.toHex, refused] at read
    cases read

end Datum

end KeyTree
