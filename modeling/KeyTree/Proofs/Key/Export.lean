import KeyTree.Proofs.Key.Calls
/-!
Key pairs leave a program as documents and come back as what they were.

The document of a pair is written out byte by byte in `toDer_documentOf`.  It says which secret and
which encoding it was made for, and it loads the secret into any pair.
-/

set_option autoImplicit false
set_option relaxedAutoImplicit false

namespace KeyTree

namespace KeyPair

open Curve PrivateKeyDocument

variable {d d' : Scalar} {key key' : PublicKey}

/-- The bytes of a document: the headers of the sequence, the version and the secret; the secret;
the name of the curve; the headers of the public key, which fills whole bytes; the public key.
The lengths are those for a secret of 32 bytes. -/
def exported (secret : Octets 32) (key : Bytes) : Bytes :=
  [0x30, UInt8.ofNat (key.length + 51), 0x02, 0x01, 0x01, 0x04, 0x20] ++ secret.toList ++
    [0xa0, 0x07, 0x06, 0x05, 0x2b, 0x81, 0x04, 0x00, 0x0a] ++
    [0xa1, UInt8.ofNat (key.length + 3), 0x03, UInt8.ofNat (key.length + 1), 0x00] ++ key

private theorem element_bits {key : Bytes} (short : key.length ≤ 65) :
    Der.element Der.bitStringTag (0 :: key) =
      0x03 :: UInt8.ofNat (key.length + 1) :: 0x00 :: key :=
  Der.element_of_length List.length_cons (by omega) Der.bitStringTag

private theorem publicKeyField_some {key : Bytes} (short : key.length ≤ 65) :
    publicKeyField (some key) =
      0xa1 :: UInt8.ofNat (key.length + 3) :: 0x03 :: UInt8.ofNat (key.length + 1) ::
        0x00 :: key := by
  rw [publicKeyField, Option.map_some, optionalField, element_bits short]
  apply Der.element_of_length _ (by omega) publicKeyTag
  simp only [List.length_cons]

private theorem toDer_documentOf (d : Scalar) (key : PublicKey) :
    (documentOf d key).toDer = exported (d.toOctets 32) key.toBytes := by
  have short := key.length_toBytes_le
  have secret_length := (d.toOctets 32).length_eq
  have version : Der.natural 1 = [0x02, 0x01, 0x01] := by decide
  have secret : Der.element Der.octetStringTag (d.toOctets 32).toList =
      0x04 :: 0x20 :: (d.toOctets 32).toList := Der.element_of_length secret_length (by decide) _
  have name : optionalField curveTag ((some PrivateKeyDocument.secp256k1).map
      (Der.element Der.objectIdentifierTag)) =
        [0xa0, 0x07, 0x06, 0x05, 0x2b, 0x81, 0x04, 0x00, 0x0a] := by decide
  rw [documentOf, PrivateKeyDocument.toDer, version, secret, name, ← publicKeyField,
    publicKeyField_some short, exported]
  rw [Der.element_of_length (n := key.toBytes.length + 51) _ (by omega)]
  · simp only [List.append_assoc, List.cons_append, List.nil_append, Der.sequenceTag]
  · simp only [List.length_append, List.length_cons, List.length_nil, secret_length]
    omega

private theorem toDer_documentOf_inj
    (same : (documentOf d key).toDer = (documentOf d' key').toDer) :
    d = d' ∧ key.compressed = key'.compressed := by
  have read := ofDer?_documentOf d key
  rw [same, ofDer?_documentOf d' key', Option.some.injEq] at read
  have secrets : d'.toOctets 32 = d.toOctets 32 :=
    Octets.ext (congrArg PrivateKeyDocument.secret read)
  have points : key'.toBytes = key.toBytes :=
    Option.some.inj (congrArg PrivateKeyDocument.publicKey read)
  constructor
  · apply Residue.ext
    rw [← value_scalar d, ← value_scalar d', secrets]
  · have lengths := congrArg List.length points
    rw [key.length_toBytes, key'.length_toBytes] at lengths
    cases encoding : key.compressed <;> cases encoding' : key'.compressed <;>
      simp [encoding, encoding'] at lengths ⊢

/-- A pair of a secret has a document in either encoding.  Whether or not its fields are checked,
it loads the secret with its public point into any pair, and no other secret or encoding has
it. -/
theorem document_restores (calls : List Call) {d : Scalar} (loaded : (after calls).secret = some d)
    (compressed : Bool) :
    ∃ A der, Point.ofGroup (d.toZMod • G) = .affine A ∧
      (after calls).toDer compressed = .ok der ∧
      der = exported (d.toOctets 32) (PublicKey.mk A compressed).toBytes ∧
      (∀ skipCheck target, (setDer der skipCheck).apply target = (.ok (), ⟨some d, some A⟩)) ∧
      ∀ calls' d' compressed', (after calls').secret = some d' →
        (after calls').toDer compressed' = .ok der → d' = d ∧ compressed' = compressed := by
  obtain ⟨nonzero, same⟩ := (sound_after calls).eq_ofScalar loaded
  obtain ⟨A, point, own⟩ := exists_publicPoint_ofScalar nonzero
  have written := toDer_ofScalar own compressed
  refine ⟨A, _, point, same ▸ written, toDer_documentOf d ⟨A, compressed⟩, ?_, ?_⟩
  · intro skipCheck target
    have pair : ofScalar d = ⟨some d, some A⟩ := by
      rw [← own]
      rfl
    rw [setDer, Update.apply_bind, Update.apply_ofExcept, ofDer_of_toDer nonzero written skipCheck,
      pair]
    rfl
  · intro calls' d' compressed' loaded' written'
    obtain ⟨nonzero', same'⟩ := (sound_after calls').eq_ofScalar loaded'
    obtain ⟨A', -, own'⟩ := exists_publicPoint_ofScalar nonzero'
    rw [same', toDer_ofScalar own'] at written'
    exact toDer_documentOf_inj (Except.ok.inj written')

theorem document_restores_one :
    let one := Octets.ofNat 32 1
    let der := exported one (PublicKey.mk generator true).toBytes
    (after [.setSecret one]).secret = some 1 ∧ (after [.setSecret one]).toDer true = .ok der ∧
      (setDer der false).apply (after [.setSecret (Octets.ofNat 32 2)]) =
        (.ok (), ⟨some 1, some generator⟩) ∧
      ∀ compressed', (after [.setSecret one]).toDer compressed' = .ok der → compressed' = true := by
  intro one der
  have loaded : (after [.setSecret one]).secret = some 1 := by decide +kernel
  obtain ⟨A, der', point, written, shown, restores, only⟩ :=
    document_restores [.setSecret one] loaded true
  have own : (after [.setSecret one]).publicPoint = some generator := by decide +kernel
  obtain ⟨A', own', point'⟩ := (sound_after [.setSecret one]).owns 1 loaded
  obtain rfl : A = A' := Point.affine.inj (point.symm.trans point')
  obtain rfl : A = generator := Option.some.inj (own'.symm.trans own)
  have name : der' = der := shown
  rw [name] at written restores only
  refine ⟨loaded, written, restores false _, ?_⟩
  intro compressed' written'
  exact (only [.setSecret one] 1 compressed' loaded written').2

end KeyPair

end KeyTree
