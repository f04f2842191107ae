import KeyTree.Proofs.Key.Document
/-!
Which bytes are imported as a key pair, and what is wrong with the others.

`Loads` and `Refused` describe the two answers to a document without its reader: by how it is
spelled, by the number in its secret, and by what it says about the curve and the public key.  One
of them always applies (`exists_loads_or_refused`), so that together they are what importing does
(`setDer_loads_or_refuses`).
-/

set_option autoImplicit false
set_option relaxedAutoImplicit false

namespace KeyTree

open Curve

/-- The secret is the number `d`, which is not zero, in at most 32 bytes. -/
structure PrivateKeyDocument.Holds (doc : PrivateKeyDocument) (d : Scalar) : Prop where
  short : doc.secret.length ≤ 32
  value : d.val = Bytes.bigEndianValue doc.secret
  positive : 0 < d.val

/-- The curve, if it is named, is the right one, and the public key, if it is there, is the point
`A` in either encoding. -/
structure PrivateKeyDocument.Agrees (doc : PrivateKeyDocument) (A : Affine) : Prop where
  curve : ∀ name ∈ doc.curve, name = PrivateKeyDocument.secp256k1
  publicKey : ∀ bs ∈ doc.publicKey, ∃ key, PublicKey.ofBytes bs = .ok key ∧ key.point = A

namespace KeyPair

/-- The bytes spell a document with a secret in range.  The pair has this secret and the public
point that belongs to it.  The other fields agree with the point, unless they are not looked at. -/
inductive Loads (der : Bytes) (skipCheck : Bool) : KeyPair → Prop where
  | intro {doc : PrivateKeyDocument} {d : Scalar} {A : Affine} :
      doc.Spells der → doc.Holds d → Point.ofGroup (d.val • G) = .affine A →
        (skipCheck = false → doc.Agrees A) → Loads der skipCheck ⟨some d, some A⟩

/-- What is wrong with bytes that are not imported.  Each case excludes those before it. -/
inductive Refused (der : Bytes) (skipCheck : Bool) : CurveError → Prop where
  | malformed : (∀ doc : PrivateKeyDocument, ¬ doc.Spells der) →
      Refused der skipCheck .malformedDocument
  | oversized {doc : PrivateKeyDocument} : doc.Spells der → 32 < doc.secret.length →
      Refused der skipCheck (.oversizedSecret doc.secret.length)
  | outOfRange {doc : PrivateKeyDocument} : doc.Spells der → doc.secret.length ≤ 32 →
      (Bytes.bigEndianValue doc.secret = 0 ∨ order ≤ Bytes.bigEndianValue doc.secret) →
      Refused der skipCheck .secretOutOfRange
  | inconsistent {doc : PrivateKeyDocument} {d : Scalar} {A : Affine} :
      doc.Spells der → doc.Holds d → Point.ofGroup (d.val • G) = .affine A →
      skipCheck = false → ¬ doc.Agrees A → Refused der skipCheck .inconsistentDocument

variable {der : Bytes} {skipCheck : Bool} {doc : PrivateKeyDocument} {d : Scalar} {A : Affine}
  {o : Octets 32} {q : KeyPair} {fault : CurveError}

private theorem fits_iff : fits doc (some A) = true ↔ doc.Agrees A := by
  obtain ⟨secret, curve, key⟩ := doc
  rw [fits, Bool.and_eq_true]
  constructor
  · rintro ⟨named, embedded⟩
    constructor
    · rintro name ⟨⟩
      exact beq_iff_eq.mp named
    · rintro bs ⟨⟩
      simp only at embedded
      split at embedded
      · rename_i found read
        exact ⟨found, read, (Option.some.inj (beq_iff_eq.mp embedded)).symm⟩
      · cases embedded
  · rintro ⟨named, embedded⟩
    constructor
    · cases curve with
      | none => rfl
      | some name => exact beq_iff_eq.mpr (named name rfl)
    · cases key with
      | none => rfl
      | some bs =>
          obtain ⟨found, read, rfl⟩ := embedded bs rfl
          simp only [read, beq_self_eq_true]

private theorem ofScalar_eq (positive : 0 < d.val) (point : Point.ofGroup (d.val • G) = .affine A) :
    ofScalar d = ⟨some d, some A⟩ := by
  obtain ⟨B, own, point'⟩ := hasPoint_ofScalar (Residue.val_pos_iff.mp positive)
  obtain rfl : A = B := Point.affine.inj (point.symm.trans point')
  rw [← own]
  rfl

private theorem fault_of_ofSecret (refused : ofSecret o = .error fault) :
    fault = .secretOutOfRange := by
  rw [ofSecret, secretOf] at refused
  split at refused
  · split at refused
    · cases refused
      rfl
    · cases refused
  · cases refused
    rfl

private theorem ofSecret_of_outside (outside : o.value = 0 ∨ order ≤ o.value) :
    ofSecret o = .error .secretOutOfRange := by
  cases made : ofSecret o with
  | ok pair =>
      obtain ⟨d, nonzero, value, -⟩ := ofSecret_eq_ok_iff.mp made
      have positive := Residue.val_pos_iff.mpr nonzero
      have bounded := d.val_lt
      omega
  | error fault => rw [fault_of_ofSecret made]

private theorem ofDer_of_spells (spelled : doc.Spells der)
    (padded : Octets.padLeft? 32 doc.secret = some o) :
    ofDer der skipCheck = ofSecret o >>= fun pair =>
      if skipCheck || fits doc pair.publicPoint then .ok pair
      else .error .inconsistentDocument := by
  rw [ofDer, PrivateKeyDocument.ofDer?_eq_some_iff.mpr spelled]
  simp only [padded]

private theorem ofDer_of_holds (spelled : doc.Spells der) (holds : doc.Holds d)
    (point : Point.ofGroup (d.val • G) = .affine A) :
    ofDer der skipCheck =
      if skipCheck || fits doc (some A) then .ok ⟨some d, some A⟩
      else .error .inconsistentDocument := by
  obtain ⟨o, padded, value⟩ := Octets.exists_padLeft? holds.short
  have made : ofSecret o = .ok ⟨some d, some A⟩ := by
    rw [ofSecret_eq_ok_iff]
    exact ⟨d, Residue.val_pos_iff.mp holds.positive, holds.value.trans value.symm,
      (ofScalar_eq holds.positive point).symm⟩
  rw [ofDer_of_spells spelled padded, made, ok_bind]

private theorem Loads.ofDer_eq (loads : Loads der skipCheck q) : ofDer der skipCheck = .ok q := by
  obtain @⟨doc, d, A, spelled, holds, point, agrees⟩ := loads
  rw [ofDer_of_holds spelled holds point]
  apply if_pos
  cases skipCheck with
  | true => rfl
  | false => exact fits_iff.mpr (agrees rfl)

private theorem Refused.ofDer_eq (refused : Refused der skipCheck fault) :
    ofDer der skipCheck = .error fault := by
  cases refused with
  | malformed unspelled =>
      have unread : PrivateKeyDocument.ofDer? der = none := by
        rw [Option.eq_none_iff_forall_ne_some]
        exact fun doc read => unspelled doc (PrivateKeyDocument.ofDer?_eq_some_iff.mp read)
      rw [ofDer, unread]
  | oversized spelled long =>
      rw [ofDer, PrivateKeyDocument.ofDer?_eq_some_iff.mpr spelled]
      simp only [Octets.padLeft?_eq_none_iff.mpr long]
  | @outOfRange doc spelled short outside =>
      obtain ⟨o, padded, value⟩ := Octets.exists_padLeft? short
      rw [← value] at outside
      rw [ofDer_of_spells spelled padded, ofSecret_of_outside outside, error_bind]
  | inconsistent spelled holds point checked disagrees =>
      rw [ofDer_of_holds spelled holds point, checked, Bool.false_or]
      exact if_neg (mt fits_iff.mp disagrees)

private theorem exists_loads_or_refused (der : Bytes) (skipCheck : Bool) :
    (∃ q, Loads der skipCheck q) ∨ ∃ fault, Refused der skipCheck fault := by
  by_cases spelled : ∃ doc : PrivateKeyDocument, doc.Spells der
  swap
  · exact .inr ⟨_, .malformed (not_exists.mp spelled)⟩
  obtain ⟨doc, spelled⟩ := spelled
  rcases Nat.lt_or_ge 32 doc.secret.length with long | short
  · exact .inr ⟨_, .oversized spelled long⟩
  by_cases inside : 0 < Bytes.bigEndianValue doc.secret ∧ Bytes.bigEndianValue doc.secret < order
  swap
  · exact .inr ⟨_, .outOfRange spelled short (by omega)⟩
  obtain ⟨positive, bounded⟩ := inside
  let d : Scalar := ⟨Bytes.bigEndianValue doc.secret, bounded⟩
  have holds : doc.Holds d := ⟨short, rfl, positive⟩
  obtain ⟨A, -, point⟩ := hasPoint_ofScalar (Residue.val_pos_iff.mp holds.positive)
  by_cases passed : skipCheck = false → doc.Agrees A
  · exact .inl ⟨_, .intro spelled holds point passed⟩
  · obtain ⟨checked, disagrees⟩ := Classical.not_imp.mp passed
    exact .inr ⟨_, .inconsistent spelled holds point checked disagrees⟩

private theorem ofDer_eq_ok_iff_loads : ofDer der skipCheck = .ok q ↔ Loads der skipCheck q := by
  constructor
  · intro made
    rcases exists_loads_or_refused der skipCheck with ⟨q', loads⟩ | ⟨fault, refused⟩
    · obtain rfl : q' = q := Except.ok.inj (loads.ofDer_eq.symm.trans made)
      exact loads
    · cases refused.ofDer_eq.symm.trans made
  · exact Loads.ofDer_eq

private theorem ofDer_eq_error_iff_refused :
    ofDer der skipCheck = .error fault ↔ Refused der skipCheck fault := by
  constructor
  · intro failed
    rcases exists_loads_or_refused der skipCheck with ⟨q, loads⟩ | ⟨fault', refused⟩
    · cases loads.ofDer_eq.symm.trans failed
    · obtain rfl : fault' = fault := Except.error.inj (refused.ofDer_eq.symm.trans failed)
      exact refused
  · exact Refused.ofDer_eq

private theorem apply_setDer (der : Bytes) (skipCheck : Bool) (p : KeyPair) :
    (setDer der skipCheck).apply p =
      match ofDer der skipCheck with
      | .ok q => (.ok (), q)
      | .error fault => (.error fault, p) := by
  rw [setDer, Update.apply_bind]
  cases ofDer der skipCheck <;> rfl

/-- Importing leaves the pair of the document, whatever was there before, or the pair as it was
with the reason for the refusal.  What is imported with the check is imported without it. -/
theorem setDer_loads_or_refuses (der : Bytes) (skipCheck : Bool) (p : KeyPair) :
    (∀ q, (setDer der skipCheck).apply p = (.ok (), q) ↔ Loads der skipCheck q) ∧
    (∀ fault q, (setDer der skipCheck).apply p = (.error fault, q) ↔
      Refused der skipCheck fault ∧ q = p) ∧
    ∀ q, (setDer der false).apply p = (.ok (), q) → (setDer der true).apply p = (.ok (), q) := by
  have loads_iff (skipCheck : Bool) (q : KeyPair) :
      (setDer der skipCheck).apply p = (.ok (), q) ↔ Loads der skipCheck q := by
    rw [apply_setDer, ← ofDer_eq_ok_iff_loads]
    cases ofDer der skipCheck <;> simp
  refine ⟨loads_iff skipCheck, ?_, ?_⟩
  · intro fault q
    rw [apply_setDer, ← ofDer_eq_error_iff_refused]
    cases ofDer der skipCheck with
    | ok pair => simp
    | error found => simp [eq_comm]
  · intro q loaded
    obtain ⟨spelled, holds, point, -⟩ := (loads_iff false q).mp loaded
    exact (loads_iff true _).mpr (.intro spelled holds point nofun)

theorem setDer_loads_or_refuses_one :
    ∃ der, Refused der false .inconsistentDocument ∧
      (setDer der false).apply empty = (.error .inconsistentDocument, empty) ∧
      (setDer der true).apply empty = (.ok (), ⟨some 1, some generator⟩) := by
  let doc : PrivateKeyDocument := ⟨[1], none, some [0]⟩
  have spelled : doc.Spells doc.toDer :=
    PrivateKeyDocument.ofDer?_eq_some_iff.mp
      (PrivateKeyDocument.ofDer?_toDer nofun (by decide))
  have holds : doc.Holds 1 := ⟨by decide, by decide, by decide⟩
  have disagrees : ¬ doc.Agrees generator := by
    rintro ⟨-, embedded⟩
    obtain ⟨key, read, -⟩ := embedded [0] rfl
    cases read
  have refused : Refused doc.toDer false .inconsistentDocument :=
    .inconsistent spelled holds ofGroup_one_smul_G rfl disagrees
  obtain ⟨-, refuses, -⟩ := setDer_loads_or_refuses doc.toDer false empty
  obtain ⟨loads, -, -⟩ := setDer_loads_or_refuses doc.toDer true empty
  exact ⟨doc.toDer, refused, (refuses _ _).mpr ⟨refused, rfl⟩,
    (loads _).mpr (.intro spelled holds ofGroup_one_smul_G nofun)⟩

end KeyPair

end KeyTree
