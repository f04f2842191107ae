import KeyTree.Proofs.Key.Calls
import KeyTree.Proofs.Tree.Challenge
import KeyTree.Proofs.Tree.PublicNode
/-!
Public keys as programs come by them, and their bytes.

Every operation that makes a public key gives it a point on the curve, and reading is exact on the
keys of such points: a key is read from its bytes, in either encoding, and from no others.
-/

set_option autoImplicit false
set_option relaxedAutoImplicit false

namespace KeyTree.PublicKey

open Curve

/-- The keys that programs come by: keys made of a point on the curve, keys that were read, in
either encoding, the public keys of pairs, secret keys and nodes, and the signers of compact
signatures. -/
inductive Obtainable : PublicKey → Prop where
  | ofPoint {P : Affine} (compressed : Bool) : P.OnCurve → Obtainable ⟨P, compressed⟩
  | ofBytes {bs : Bytes} {k : PublicKey} : ofBytes bs = .ok k → Obtainable k
  | ofHex {s : String} {k : PublicKey} : ofHex s = .ok k → Obtainable k
  | asPublicKey {d : Datum} {k : PublicKey} : d.asPublicKey = .ok k → Obtainable k
  | withCompression {k : PublicKey} (compressed : Bool) :
      Obtainable k → Obtainable (k.withCompression compressed)
  | ofPair (calls : List KeyPair.Call) {compressed : Bool} {k : PublicKey} :
      (KeyPair.after calls).publicKey compressed = .ok k → Obtainable k
  | ofSecretKey {secret : SecretKey} {k : PublicKey} :
      secret.Obtainable → secret.publicKey = .ok k → Obtainable k
  | ofPrivateNode {x : PrivateNode} {k : PublicKey} :
      x.Obtainable → x.publicKey = .ok k → Obtainable k
  | ofPublicNode {y : PublicNode} : y.Obtainable → Obtainable y.key
  | recover {c : CompactSignature} {hash : Octets 32} {k : PublicKey} :
      c.recover hash = .ok k → Obtainable k

variable {k : PublicKey} {bs : Bytes}

private theorem onCurve_of_ofBytes (read : ofBytes bs = .ok k) : k.point.OnCurve :=
  (ofBytes_eq_ok_iff.mp read).1

private theorem onCurve_of_ofHex {s : String} (read : ofHex s = .ok k) : k.point.OnCurve :=
  (ofHex_eq_ok_iff.mp read).1

private theorem onCurve_of_publicKey {p : KeyPair} {compressed : Bool} (sound : p.Sound)
    (made : p.publicKey compressed = .ok k) : k.point.OnCurve := by
  cases own : p.publicPoint with
  | none =>
      rw [KeyPair.publicKey, KeyPair.needPublic, own] at made
      cases made
  | some A =>
      rw [KeyPair.publicKey_eq own] at made
      cases made
      exact sound.onCurve A own

private theorem onCurve_of_secretKey {secret : SecretKey} (made : secret.publicKey = .ok k) :
    k.point.OnCurve := by
  obtain ⟨d, A, holds⟩ := SecretKey.exists_holds_of_keyPair made
  cases holds.publicKey.symm.trans made
  exact Point.onCurve_of_ofGroup holds.point

private theorem onCurve_of_recover {c : CompactSignature} {hash : Octets 32}
    (made : c.recover hash = .ok k) : k.point.OnCurve := by
  obtain ⟨parts, -, made⟩ := bind_eq_ok_iff.mp made
  obtain ⟨signer, recovered, made⟩ := bind_eq_ok_iff.mp made
  obtain ⟨-, _, _, Q, A, -, -, found, -, rfl⟩ := KeyPair.recover_eq_ok_iff.mp recovered
  cases made
  exact Point.onCurve_of_ofGroup found

private theorem Obtainable.onCurve (obtainable : k.Obtainable) : k.point.OnCurve := by
  induction obtainable with
  | ofPoint compressed onCurve => exact onCurve
  | ofBytes read => exact onCurve_of_ofBytes read
  | ofHex read => exact onCurve_of_ofHex read
  | asPublicKey read =>
      obtain ⟨s, -, read⟩ := bind_eq_ok_iff.mp read
      exact onCurve_of_ofHex (mapError_eq_ok_iff.mp read)
  | withCompression compressed _ ih => exact ih
  | ofPair calls made => exact onCurve_of_publicKey (KeyPair.sound_after calls) made
  | ofSecretKey _ made => exact onCurve_of_secretKey made
  | ofPrivateNode _ made => exact onCurve_of_secretKey made
  | ofPublicNode node => exact node.wellFormed.onCurve
  | recover made => exact onCurve_of_recover made

/-- The bytes that spell a key.  Its tag tells the encoding and, in the compressed one, the parity
of the second coordinate; the coordinates that are written take 32 bytes each. -/
inductive Spells : Bytes → PublicKey → Prop where
  | compressed {x : Bytes} {P : Affine} : x.length = 32 → P.x.val = Bytes.bigEndianValue x →
      Spells ((if P.y.val % 2 = 1 then 0x03 else 0x02) :: x) ⟨P, true⟩
  | uncompressed {x y : Bytes} {P : Affine} : x.length = 32 → y.length = 32 →
      P.x.val = Bytes.bigEndianValue x → P.y.val = Bytes.bigEndianValue y →
      Spells (0x04 :: (x ++ y)) ⟨P, false⟩

private theorem toBytes_compressed (P : Affine) : toBytes ⟨P, true⟩ =
    (if P.y.val % 2 = 1 then 0x03 else 0x02) :: (P.x.toOctets 32).toList := by
  have tag : (if P.y.isOdd then 0x03 else 0x02 : UInt8) =
      if P.y.val % 2 = 1 then 0x03 else 0x02 := by
    simp only [Residue.isOdd, beq_iff_eq]
  rw [← tag]
  rfl

private theorem toBytes_uncompressed (P : Affine) : toBytes ⟨P, false⟩ =
    0x04 :: ((P.x.toOctets 32).toList ++ (P.y.toOctets 32).toList) := rfl

private theorem toBytes_eq_iff_spells : k.toBytes = bs ↔ Spells bs k := by
  constructor
  · rintro rfl
    obtain ⟨P, compressed⟩ := k
    obtain ⟨x_length, x_value⟩ := coordinate_bytes_iff.mp (Eq.refl (P.x.toOctets 32).toList)
    obtain ⟨y_length, y_value⟩ := coordinate_bytes_iff.mp (Eq.refl (P.y.toOctets 32).toList)
    cases compressed with
    | true =>
        rw [toBytes_compressed]
        exact .compressed x_length x_value
    | false => exact .uncompressed x_length y_length x_value y_value
  · intro spells
    cases spells with
    | compressed x_length x_value =>
        rw [toBytes_compressed, coordinate_bytes_iff.mpr ⟨x_length, x_value⟩]
    | uncompressed x_length y_length x_value y_value =>
        rw [toBytes_uncompressed, coordinate_bytes_iff.mpr ⟨x_length, x_value⟩,
          coordinate_bytes_iff.mpr ⟨y_length, y_value⟩]

private theorem toBytes_inj {k' : PublicKey} (onCurve : k.point.OnCurve)
    (onCurve' : k'.point.OnCurve) : k.toBytes = k'.toBytes ↔ k = k' := by
  constructor
  · intro same
    have read : ofBytes k'.toBytes = .ok k := ofBytes_eq_ok_iff.mpr ⟨onCurve, same⟩
    have read' : ofBytes k'.toBytes = .ok k' := ofBytes_eq_ok_iff.mpr ⟨onCurve', rfl⟩
    exact Except.ok.inj (read.symm.trans read')
  · rintro rfl
    rfl

theorem compressedForm_inj {P Q : Affine} (onCurve : P.OnCurve) (onCurve' : Q.OnCurve)
    (same : compressedForm P = compressedForm Q) : P = Q := by
  have bytes : toBytes ⟨P, true⟩ = toBytes ⟨Q, true⟩ := congrArg Octets.toList same
  have keys : PublicKey.mk P true = PublicKey.mk Q true :=
    (toBytes_inj onCurve onCurve').mp bytes
  exact congrArg point keys

/-- The key is read from its bytes, and so is the key of the same point in either encoding. -/
structure Rereads (k : PublicKey) : Prop where
  onCurve : k.point.OnCurve
  own : ofBytes k.toBytes = .ok k
  either : ∀ compressed,
    ofBytes (k.withCompression compressed).toBytes = .ok ⟨k.point, compressed⟩

private theorem rereads (onCurve : k.point.OnCurve) : k.Rereads where
  onCurve := onCurve
  own := ofBytes_eq_ok_iff.mpr ⟨onCurve, rfl⟩
  either _ := ofBytes_eq_ok_iff.mpr ⟨onCurve, rfl⟩

/-- Bytes are read as a key with a point on the curve exactly if they are its bytes, which are the
ones that spell it.  All keys that programs come by are such keys.  Keys are equal exactly if their
bytes are, and a point is known by its compressed form. -/
theorem reading_exact :
    (∀ (bs : Bytes) (k : PublicKey), k.point.OnCurve → (ofBytes bs = .ok k ↔ k.toBytes = bs)) ∧
    (∀ (bs : Bytes) (k : PublicKey), k.toBytes = bs ↔ Spells bs k) ∧
    (∀ k : PublicKey, k.Obtainable → k.Rereads) ∧
    (∀ k k' : PublicKey, k.point.OnCurve → k'.point.OnCurve →
      ((k == k') = true ↔ k.toBytes = k'.toBytes)) ∧
    ∀ P Q : Affine, P.OnCurve → Q.OnCurve → compressedForm P = compressedForm Q → P = Q := by
  refine ⟨?_, ?_, ?_, ?_, ?_⟩
  · intro bs k onCurve
    rw [ofBytes_eq_ok_iff]
    exact and_iff_right onCurve
  · exact fun bs k => toBytes_eq_iff_spells
  · exact fun k obtainable => rereads obtainable.onCurve
  · intro k k' onCurve onCurve'
    rw [beq_iff_eq, toBytes_inj onCurve onCurve']
  · exact fun P Q => compressedForm_inj

theorem reading_exact_generator :
    let other : Affine := ⟨generator.x, -generator.y⟩
    generator.OnCurve ∧ other.OnCurve ∧
    ofBytes (0x02 :: (generator.x.toOctets 32).toList) = .ok ⟨generator, true⟩ ∧
    Rereads ⟨generator, true⟩ ∧
    ((⟨generator, true⟩ : PublicKey) == ⟨generator, false⟩) = false ∧
    compressedForm generator ≠ compressedForm other := by
  intro other
  obtain ⟨read_iff, spells, rereads, same_iff, known⟩ := reading_exact
  have onCurve : generator.OnCurve := by decide +kernel
  have onCurve' : other.OnCurve := by decide +kernel
  have even : ¬ generator.y.val % 2 = 1 := by decide
  have spelled : Spells _ ⟨generator, true⟩ :=
    .compressed (generator.x.toOctets 32).length_eq (by decide)
  rw [if_neg even] at spelled
  have read : ofBytes (0x02 :: (generator.x.toOctets 32).toList) = .ok ⟨generator, true⟩ :=
    (read_iff _ _ onCurve).mpr ((spells _ _).mpr spelled)
  refine ⟨onCurve, onCurve', read, rereads _ (.ofBytes read), ?_, ?_⟩
  · rw [Bool.eq_false_iff, Ne, same_iff _ _ onCurve onCurve]
    intro same
    have lengths := congrArg List.length same
    rw [length_toBytes, length_toBytes] at lengths
    exact absurd lengths (by decide)
  · intro same
    have points : generator = other := known _ _ onCurve onCurve' same
    exact absurd (congrArg Affine.y points) (by decide)

end KeyTree.PublicKey
