import KeyTree.Proofs.Key.Pair
/-!
What signing promises: a short encoding of a low signature that is good for the signer's public
key, whatever the nonce was.
-/

set_option autoImplicit false
set_option relaxedAutoImplicit false

namespace KeyTree.KeyPair

open Curve

/-- Bytes that encode a low signature in at most 71 bytes.  The signature is good for the pair
and for its public key alone in either encoding. -/
structure Signs (p : KeyPair) (hash : Octets 32) (der : Bytes) : Prop where
  low : Signature.isLowDer der = true
  short : der.length ≤ 71
  fits : der.length ≤ EncodedSignature.maxSize
  verifies : p.verifies hash der = true
  publicVerifies : ∀ compressed, ∃ key, p.publicKey compressed = .ok key ∧
    (ofPublicKey key).verifies hash der = true

private theorem signs_toDer {d : Scalar} (nonzero : d ≠ 0) {hash : Octets 32} {σ : Signature}
    (low : σ.isLow = true) {id : Ecdsa.RecoveryId} (found : id.Finds hash σ (d.toZMod • G)) :
    (ofScalar d).Signs hash σ.toDer := by
  obtain ⟨A, coordinates, own⟩ := exists_publicPoint_ofScalar nonzero
  have onCurve : A.OnCurve := Point.onCurve_of_ofGroup coordinates
  have good : Ecdsa.verifies A hash σ = true :=
    (Ecdsa.verifies_iff_exists_finds coordinates).mpr ⟨id, found⟩
  exact {
    low := (Signature.isLowDer_toDer σ).trans low
    short := Signature.length_toDer_le low
    fits := (Signature.length_toDer_le low).trans (by decide)
    verifies := (verifies_toDer own onCurve hash σ).trans good
    publicVerifies := fun compressed =>
      ⟨⟨A, compressed⟩, publicKey_eq own compressed, (verifies_toDer rfl onCurve hash σ).trans good⟩ }

theorem signs_of_signBy {d : Scalar} (nonzero : d ≠ 0) {nonceOf : Scalar → Option Scalar}
    {hash : Octets 32} {der : Bytes} (signed : (ofScalar d).signBy nonceOf hash = .ok der) :
    (ofScalar d).Signs hash der := by
  obtain ⟨σ, made, same⟩ := bind_eq_ok_iff.mp signed
  obtain rfl := Except.ok.inj same
  obtain ⟨low, id, found⟩ := isLow_and_exists_finds made
  exact signs_toDer nonzero low found

/-- A secret in range makes a pair.  Everything that it signs, in every test case and with every
rule for the nonce, is low, short and good for the pair.  The test case zero is the plain
signature, whose nonce depends on the secret and the hash only. -/
theorem signs_of_sign {o : Octets 32} (positive : 0 < o.value) (bounded : o.value < order)
    (hash : Octets 32) :
    ∃ p, ofSecret o = .ok p ∧
      (∀ testCase der, p.sign hash testCase = .ok der → p.Signs hash der) ∧
      (∀ nonceOf der, p.signBy nonceOf hash = .ok der → p.Signs hash der) ∧
      p.sign hash 0 = p.signBy (fun d =>
        (Nonce.Generator.seed (d.toOctets 32) hash []).scalar? Nonce.maxAttempts) hash := by
  obtain ⟨d, nonzero, -, made⟩ := exists_ofSecret positive bounded
  refine ⟨ofScalar d, made, ?_, ?_, rfl⟩
  · intro testCase der signed
    exact signs_of_signBy nonzero signed
  · intro nonceOf der signed
    exact signs_of_signBy nonzero signed

theorem signs_of_sign_one :
    ∃ p der, ofSecret (Octets.ofNat 32 1) = .ok p ∧
      p.signBy (fun _ => some 1) (Octets.zero 32) = .ok der ∧ p.Signs (Octets.zero 32) der := by
  have positive : 0 < (Octets.ofNat 32 1).value := by decide
  have bounded : (Octets.ofNat 32 1).value < order := by decide
  obtain ⟨p, made, -, good, -⟩ := signs_of_sign positive bounded (Octets.zero 32)
  have own : ofSecret (Octets.ofNat 32 1) = .ok (ofScalar 1) :=
    ofSecret_eq_ok_iff.mpr ⟨1, by decide, by decide, rfl⟩
  obtain rfl : p = ofScalar 1 := Except.ok.inj (made.symm.trans own)
  have succeeds :
      ((ofScalar 1).signBy (fun _ => some 1) (Octets.zero 32)).toBool = true := by
    decide +kernel
  cases signed : (ofScalar 1).signBy (fun _ => some 1) (Octets.zero 32) with
  | error fault =>
      rw [signed] at succeeds
      cases succeeds
  | ok der => exact ⟨ofScalar 1, der, own, signed, good _ der signed⟩

end KeyTree.KeyPair
