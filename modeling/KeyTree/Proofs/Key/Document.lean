import KeyTree.Proofs.Key.DocumentForm
import KeyTree.Proofs.Key.Pair
import KeyTree.Proofs.Key.Public
/-!
When a private key document loads a key pair.  The document of a pair loads the pair again.
-/

set_option autoImplicit false
set_option relaxedAutoImplicit false

namespace KeyTree

namespace KeyPair

open Curve PrivateKeyDocument

variable {d : Scalar} {A : Affine} {der : Bytes}

theorem ofDer_eq_ok_iff {skipCheck : Bool} {p : KeyPair} :
    ofDer der skipCheck = .ok p ↔
      ∃ doc d, d ≠ 0 ∧ PrivateKeyDocument.ofDer? der = some doc ∧
        Octets.padLeft? 32 doc.secret = some (d.toOctets 32) ∧ p = ofScalar d ∧
        (skipCheck = true ∨ fits doc p.publicPoint = true) := by
  rw [ofDer]
  constructor
  · intro made
    split at made
    · cases made
    rename_i doc parsed
    split at made
    · cases made
    rename_i secret padded
    obtain ⟨pair, fromSecret, checked⟩ := bind_eq_ok_iff.mp made
    obtain ⟨d, nonzero, rfl, same⟩ := ofSecret_eq_ok_iff_toOctets.mp fromSecret
    -- The check can refuse the pair but not change it.
    split at checked
    · rename_i passed
      cases checked
      exact ⟨doc, d, nonzero, parsed, padded, same, Bool.or_eq_true_iff.mp passed⟩
    · cases checked
  · rintro ⟨doc, d, nonzero, parsed, padded, rfl, passed⟩
    simp only [parsed, padded, ofSecret_toOctets nonzero, ok_bind]
    exact if_pos (Bool.or_eq_true_iff.mpr passed)

theorem ofDer_skipCheck {skipCheck : Bool} {p : KeyPair} (loaded : ofDer der skipCheck = .ok p) :
    ofDer der true = .ok p := by
  obtain ⟨doc, d, nonzero, parsed, padded, same, -⟩ := ofDer_eq_ok_iff.mp loaded
  exact ofDer_eq_ok_iff.mpr ⟨doc, d, nonzero, parsed, padded, same, .inl rfl⟩

/-- The document of a secret: the secret, the name of the curve and the public key. -/
def documentOf (d : Scalar) (key : PublicKey) : PrivateKeyDocument :=
  ⟨(d.toOctets 32).toList, some PrivateKeyDocument.secp256k1, some key.toBytes⟩

theorem toDer_ofScalar (own : (ofScalar d).publicPoint = some A) (compressed : Bool) :
    (ofScalar d).toDer compressed = .ok (documentOf d ⟨A, compressed⟩).toDer := by
  rw [toDer, document, publicKey_eq own]
  rfl

private theorem fits_documentOf (d : Scalar) {key : PublicKey} (onCurve : key.point.OnCurve) :
    fits (documentOf d key) (some key.point) = true := by
  have read : PublicKey.ofBytes key.toBytes = .ok key :=
    PublicKey.ofBytes_eq_ok_iff.mpr ⟨onCurve, rfl⟩
  simp only [fits, documentOf, read, beq_self_eq_true, Bool.and_self]

private theorem length_documentOf_lt (d : Scalar) (key : PublicKey) :
    (documentOf d key).toDer.length < sizeBound := by
  have version : (Der.natural 1).length ≤ 3 := Der.length_natural_le (by decide) (by decide)
  have secret : (Der.element Der.octetStringTag (d.toOctets 32).toList).length = 34 := by
    have length_eq := (d.toOctets 32).length_eq
    rw [Der.length_element (by omega), length_eq]
  have name : (optionalField curveTag ((some PrivateKeyDocument.secp256k1).map
      (Der.element Der.objectIdentifierTag))).length = 9 := by decide
  have point : (publicKeyField (some key.toBytes)).length ≤ 70 := by
    have length_le := key.length_toBytes_le
    have bits : (Der.element Der.bitStringTag (0 :: key.toBytes)).length ≤ 68 := by
      rw [Der.length_element (by rw [List.length_cons]; omega), List.length_cons]
      omega
    rw [publicKeyField, Option.map_some, optionalField, Der.length_element (by omega)]
    omega
  have contents : (Der.natural 1 ++ Der.element Der.octetStringTag (d.toOctets 32).toList ++
      optionalField curveTag ((some PrivateKeyDocument.secp256k1).map
        (Der.element Der.objectIdentifierTag)) ++
      publicKeyField (some key.toBytes)).length ≤ 116 := by
    simp only [List.length_append]
    omega
  calc (documentOf d key).toDer.length
      = _ + 2 := Der.length_element (contents.trans_lt (by decide)) Der.sequenceTag
    _ ≤ 116 + 2 := Nat.add_le_add_right contents 2
    _ < sizeBound := by decide

theorem ofDer?_documentOf (d : Scalar) (key : PublicKey) :
    PrivateKeyDocument.ofDer? (documentOf d key).toDer = some (documentOf d key) := by
  apply ofDer?_toDer _ (length_documentOf_lt d key)
  rintro name ⟨⟩
  decide

theorem ofDer_of_toDer (nonzero : d ≠ 0) {compressed : Bool}
    (written : (ofScalar d).toDer compressed = .ok der) (skipCheck : Bool) :
    ofDer der skipCheck = .ok (ofScalar d) := by
  obtain ⟨A, point, own⟩ := exists_publicPoint_ofScalar nonzero
  cases (toDer_ofScalar own compressed).symm.trans written
  have fitting : fits (documentOf d ⟨A, compressed⟩) (some A) = true :=
    fits_documentOf d (Point.onCurve_of_ofGroup point)
  exact ofDer_eq_ok_iff.mpr ⟨_, d, nonzero, ofDer?_documentOf d ⟨A, compressed⟩,
    Octets.padLeft?_toList _, rfl, .inr (own ▸ fitting)⟩

end KeyPair

end KeyTree
