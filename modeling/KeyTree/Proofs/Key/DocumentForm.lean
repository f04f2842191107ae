import KeyTree.Key.Document
import KeyTree.Proofs.Encoding.DerUnique
/-!
The bytes that are read as private key documents.

`Spells` says how the fields of a document may be spelled: in their order and each in its written
form.  Behind the name of the curve any elements with its number may stand; what they hold is
passed over.  Reading accepts the spellings and nothing else (`ofDer?_eq_some_iff`).
-/

set_option autoImplicit false
set_option relaxedAutoImplicit false

namespace KeyTree.PrivateKeyDocument

def curveField (curve : Option Bytes) : Bytes :=
  optionalField curveTag (curve.map (Der.element Der.objectIdentifierTag))

def publicKeyField (key : Option Bytes) : Bytes :=
  optionalField publicKeyTag (key.map fun bs => Der.element Der.bitStringTag (0 :: bs))

/-- Elements with the number of the name of the curve, whatever they hold. -/
inductive PassedOver : Bytes → Prop where
  | nil : PassedOver []
  | cons {tag : UInt8} {contents rest : Bytes} :
      tag = curveTag ∨ tag = primitiveCurveTag → PassedOver rest →
        PassedOver (Der.element tag contents ++ rest)

/-- The bytes are a sequence of the version one, the secret, the name of the curve if there is one,
elements that are passed over, and the public key if there is one.  Nothing is passed over where no
name of a curve stands: the first such element would be read as the name. -/
structure Spells (bs : Bytes) (doc : PrivateKeyDocument) : Prop where
  short : bs.length < sizeBound
  named : ∀ name ∈ doc.curve, isObjectIdentifier name = true
  form : ∃ passed, PassedOver passed ∧ (doc.curve = none → passed = []) ∧
    bs = Der.element Der.sequenceTag (Der.natural 1 ++ Der.element Der.octetStringTag doc.secret ++
      curveField doc.curve ++ passed ++ publicKeyField doc.publicKey)

variable {bs rest passed : Bytes} {curve key : Option Bytes} {doc : PrivateKeyDocument}

/-! ### The optional fields -/

/-- The bytes go on with an element that has the number of the name of the curve. -/
def StartsCurve (bs : Bytes) : Prop :=
  bs.head? = some curveTag ∨ bs.head? = some primitiveCurveTag

private theorem head?_element_append (tag : UInt8) (contents rest : Bytes) :
    (Der.element tag contents ++ rest).head? = some tag := rfl

private theorem startsCurve_element_append {tag : UInt8} {contents : Bytes} :
    StartsCurve (Der.element tag contents ++ rest) ↔ tag = curveTag ∨ tag = primitiveCurveTag := by
  rw [StartsCurve, head?_element_append, Option.some.injEq, Option.some.injEq]

private theorem head?_optionalField (tag : UInt8) (contents : Option Bytes) :
    (optionalField tag contents).head? = contents.map fun _ => tag := by
  cases contents <;> rfl

private theorem not_startsCurve_publicKeyField (key : Option Bytes) :
    ¬ StartsCurve (publicKeyField key) := by
  rw [StartsCurve, publicKeyField, head?_optionalField]
  cases key with
  | none => exact not_or.mpr ⟨nofun, nofun⟩
  | some bs =>
      change ¬ (some publicKeyTag = some curveTag ∨ some publicKeyTag = some primitiveCurveTag)
      decide

private theorem not_startsCurve_append_iff (passing : PassedOver passed) (key : Option Bytes) :
    ¬ StartsCurve (passed ++ publicKeyField key) ↔ passed = [] := by
  cases passing with
  | nil => exact iff_of_true (not_startsCurve_publicKeyField key) rfl
  | cons numbered passing =>
      rw [List.append_assoc, startsCurve_element_append]
      exact iff_of_false (not_not_intro numbered) nofun

private theorem skipCurves?_of_not_startsCurve {bs : Bytes} (other : ¬ StartsCurve bs)
    (fuel : Nat) : skipCurves? fuel bs = some bs := by
  cases fuel with
  | zero => rfl
  | succ fuel =>
      rw [skipCurves?]
      exact if_neg other

private theorem skipCurves?_of_startsCurve {bs : Bytes} (starts : StartsCurve bs) (fuel : Nat) :
    skipCurves? (fuel + 1) bs = (Der.read? bs).bind fun (_, _, rest) => skipCurves? fuel rest := by
  rw [skipCurves?]
  exact if_pos starts

private theorem skipCurves?_eq_some_iff {fuel : Nat} (enough : bs.length ≤ fuel)
    (fits : bs.length < 256 ^ 4) :
    skipCurves? fuel bs = some rest ↔
      ∃ passed, PassedOver passed ∧ passed ++ rest = bs ∧ ¬ StartsCurve rest := by
  induction fuel generalizing bs with
  | zero =>
      obtain rfl := List.length_eq_zero_iff.mp (Nat.le_zero.mp enough)
      constructor
      · rintro ⟨⟩
        exact ⟨[], .nil, rfl, nofun⟩
      · rintro ⟨passed, -, none, -⟩
        rw [(List.append_eq_nil_iff.mp none).2]
        rfl
  | succ fuel ih =>
      by_cases starts : StartsCurve bs
      · rw [skipCurves?_of_startsCurve starts]
        simp only [Option.bind_eq_some_iff, Prod.exists, Der.read?_eq_some_iff fits]
        constructor
        · rintro ⟨tag, contents, others, rfl, skipped⟩
          have shorter := Der.length_lt_element_append tag contents others
          obtain ⟨passed, passing, rfl, stop⟩ := (ih (by omega) (by omega)).mp skipped
          refine ⟨Der.element tag contents ++ passed, ?_, List.append_assoc .., stop⟩
          exact .cons (startsCurve_element_append.mp starts) passing
        · rintro ⟨passed, passing, rfl, stop⟩
          cases passing with
          | nil => exact absurd starts stop
          | @cons tag contents others numbered passing =>
              have shorter := Der.length_lt_element_append tag contents (others ++ rest)
              rw [List.append_assoc] at enough fits
              refine ⟨tag, contents, others ++ rest, (List.append_assoc ..).symm, ?_⟩
              exact (ih (by omega) (by omega)).mpr ⟨others, passing, rfl, stop⟩
      · rw [skipCurves?_of_not_startsCurve starts]
        constructor
        · rintro ⟨⟩
          exact ⟨[], .nil, rfl, starts⟩
        · rintro ⟨passed, passing, rfl, stop⟩
          cases passing with
          | nil => rfl
          | cons numbered passing =>
              rw [List.append_assoc, startsCurve_element_append] at starts
              exact absurd numbered starts

private theorem length_le_of_isObjectIdentifier {contents : Bytes}
    (named : isObjectIdentifier contents = true) : contents.length ≤ 39 := by
  cases contents with
  | nil => cases named
  | cons first arcs =>
      simp only [isObjectIdentifier, Bool.and_eq_true, decide_eq_true_eq] at named
      exact named.1.1.2

private theorem readCurve?_curveField_some {name : Bytes} (usable : isObjectIdentifier name = true)
    (rest : Bytes) : readCurve? (curveField (some name) ++ rest) = some (some name, rest) := by
  have short := length_le_of_isObjectIdentifier usable
  have inner : (Der.element Der.objectIdentifierTag name).length < 256 ^ 4 := by
    rw [Der.length_element (by omega)]
    omega
  have start : (curveField (some name) ++ rest).head? = some curveTag := rfl
  have field : curveField (some name) =
      Der.element curveTag (Der.element Der.objectIdentifierTag name) := rfl
  rw [readCurve?, if_pos start, field, Der.expect?_element inner]
  simp only [Option.bind_eq_bind, Option.bind_some,
    Der.only?_element (short.trans_lt (by decide)), usable, if_true]

private theorem readCurve?_of_not_startsCurve {bs : Bytes} (other : ¬ StartsCurve bs) :
    readCurve? bs = some (none, bs) := by
  obtain ⟨not_constructed, not_primitive⟩ := not_or.mp other
  rw [readCurve?, if_neg not_constructed, if_neg not_primitive]

private theorem readCurve?_eq_some_iff (fits : bs.length < 256 ^ 4) :
    readCurve? bs = some (curve, rest) ↔
      (∀ name ∈ curve, isObjectIdentifier name = true) ∧ curveField curve ++ rest = bs ∧
        (curve = none → ¬ StartsCurve rest) := by
  constructor
  · intro read
    unfold readCurve? at read
    split at read
    · simp only [Option.bind_eq_bind, Option.bind_eq_some_iff, Prod.exists,
        Der.expect?_eq_some_iff fits] at read
      obtain ⟨contents, others, rfl, name, only, read⟩ := read
      split at read
      · rename_i usable
        cases read
        rw [← Der.element_of_only? only]
        refine ⟨?_, rfl, nofun⟩
        rintro _ ⟨⟩
        exact usable
      · cases read
    · rename_i not_constructed
      split at read
      · cases read
      · rename_i not_primitive
        cases read
        exact ⟨nofun, rfl, fun _ => not_or.mpr ⟨not_constructed, not_primitive⟩⟩
  · rintro ⟨named, rfl, stop⟩
    cases curve with
    | none => exact readCurve?_of_not_startsCurve (stop rfl)
    | some name => exact readCurve?_curveField_some (named name rfl) rest

private theorem wholeBytes?_eq_some_iff {contents whole : Bytes} :
    wholeBytes? contents = some whole ↔ 0 :: whole = contents := by
  cases contents with
  | nil => exact iff_of_false nofun nofun
  | cons unused others =>
      rw [wholeBytes?, List.cons.injEq]
      split
      · rename_i zero
        rw [Option.some.injEq, eq_comm, zero, eq_self, true_and]
      · rename_i nonzero
        exact iff_of_false nofun fun same => nonzero same.1.symm

private theorem readPublicKey?_of_skipCurves? {bs : Bytes} {key : Option Bytes}
    (skipped : skipCurves? bs.length bs = some (publicKeyField key))
    (fits : (publicKeyField key).length < 256 ^ 4) : readPublicKey? bs = some (key, []) := by
  rw [readPublicKey?, skipped]
  simp only [Option.bind_eq_bind, Option.bind_some]
  cases key with
  | none => rfl
  | some bs =>
      have outer : (Der.element Der.bitStringTag (0 :: bs)).length < 256 ^ 4 :=
        (Der.length_le_element publicKeyTag _).trans_lt fits
      have inner : (0 :: bs).length < 256 ^ 4 := (Der.length_le_element _ _).trans_lt outer
      have start : (publicKeyField (some bs)).head? = some publicKeyTag := rfl
      have read := Der.expect?_element outer publicKeyTag []
      rw [List.append_nil] at read
      rw [if_pos start]
      simp only [publicKeyField, Option.map_some, optionalField, read, Option.bind_some,
        Der.only?_element inner, wholeBytes?, if_true]

private theorem readPublicKey?_eq_some_nil_iff (fits : bs.length < 256 ^ 4) :
    readPublicKey? bs = some (key, []) ↔
      ∃ passed, PassedOver passed ∧ passed ++ publicKeyField key = bs := by
  constructor
  · intro read
    rw [readPublicKey?, Option.bind_eq_bind] at read
    obtain ⟨others, skipped, found⟩ := Option.bind_eq_some_iff.mp read
    obtain ⟨passed, passing, rfl, -⟩ := (skipCurves?_eq_some_iff le_rfl fits).mp skipped
    refine ⟨passed, passing, ?_⟩
    split at found
    · simp only [Option.bind_eq_bind, Option.bind_eq_some_iff, Prod.exists] at found
      obtain ⟨contents, last, field, bits, only, whole, filled, found⟩ := found
      cases found
      have bits_eq := Der.element_of_only? only
      have field_eq := Der.element_of_expect? field
      rw [← wholeBytes?_eq_some_iff.mp filled] at bits_eq
      rw [← field_eq, ← bits_eq, List.append_nil]
      rfl
    · split at found
      · cases found
      · cases found
        rfl
  · rintro ⟨passed, passing, rfl⟩
    have skipped : skipCurves? (passed ++ publicKeyField key).length
        (passed ++ publicKeyField key) = some (publicKeyField key) :=
      (skipCurves?_eq_some_iff le_rfl fits).mpr
        ⟨passed, passing, rfl, not_startsCurve_publicKeyField key⟩
    rw [List.length_append] at fits
    exact readPublicKey?_of_skipCurves? skipped (by omega)

/-! ### Documents -/

/-- The elements of a document that is not too long have lengths that can be read. -/
theorem lt_of_lt_sizeBound {n : Nat} (fits : n < sizeBound) : n < 256 ^ 4 :=
  fits.trans (by decide)

private theorem exists_readCurve?_iff (fits : bs.length < 256 ^ 4) :
    (∃ rest, readCurve? bs = some (curve, rest) ∧ readPublicKey? rest = some (key, [])) ↔
      (∀ name ∈ curve, isObjectIdentifier name = true) ∧
        ∃ passed, PassedOver passed ∧ (curve = none → passed = []) ∧
          curveField curve ++ passed ++ publicKeyField key = bs := by
  constructor
  · rintro ⟨rest, curve_read, key_read⟩
    obtain ⟨named, rfl, stop⟩ := (readCurve?_eq_some_iff fits).mp curve_read
    rw [List.length_append] at fits
    obtain ⟨passed, passing, rfl⟩ := (readPublicKey?_eq_some_nil_iff (by omega)).mp key_read
    refine ⟨named, passed, passing, fun unnamed => ?_, List.append_assoc ..⟩
    exact (not_startsCurve_append_iff passing key).mp (stop unnamed)
  · rintro ⟨named, passed, passing, first, rfl⟩
    rw [List.append_assoc] at fits ⊢
    refine ⟨passed ++ publicKeyField key, ?_, ?_⟩
    · refine (readCurve?_eq_some_iff fits).mpr ⟨named, rfl, fun unnamed => ?_⟩
      exact (not_startsCurve_append_iff passing key).mpr (first unnamed)
    · rw [List.length_append] at fits
      exact (readPublicKey?_eq_some_nil_iff (by omega)).mpr ⟨passed, passing, rfl⟩

private theorem ofContents?_eq_some_iff_fields :
    ofContents? bs = some doc ↔ ∃ afterVersion afterSecret,
      Der.readNatural? bs = some (1, afterVersion) ∧
      Der.expect? Der.octetStringTag afterVersion = some (doc.secret, afterSecret) ∧
      ∃ rest, readCurve? afterSecret = some (doc.curve, rest) ∧
        readPublicKey? rest = some (doc.publicKey, []) := by
  rw [ofContents?]
  simp only [Option.bind_eq_bind, Option.bind_eq_some_iff, Prod.exists]
  constructor
  · rintro ⟨version, afterVersion, number, read⟩
    split at read
    · cases read
    rename_i one
    obtain rfl : version = 1 := not_not.mp one
    simp only [Option.bind_eq_some_iff, Prod.exists] at read
    obtain ⟨secret, afterSecret, secret_read, curve, rest, curve_read, key, last, key_read,
      read⟩ := read
    split at read
    · rename_i empty
      cases read
      rw [List.isEmpty_iff.mp empty] at key_read
      exact ⟨afterVersion, afterSecret, number, secret_read, rest, curve_read, key_read⟩
    · cases read
  · rintro ⟨afterVersion, afterSecret, number, secret_read, rest, curve_read, key_read⟩
    refine ⟨1, afterVersion, number, ?_⟩
    rw [if_neg (not_not.mpr rfl)]
    simp only [Option.bind_eq_some_iff, Prod.exists]
    exact ⟨doc.secret, afterSecret, secret_read, doc.curve, rest, curve_read, doc.publicKey, [],
      key_read, rfl⟩

private theorem ofContents?_eq_some_iff (fits : bs.length < 256 ^ 4) :
    ofContents? bs = some doc ↔
      (∀ name ∈ doc.curve, isObjectIdentifier name = true) ∧
        ∃ passed, PassedOver passed ∧ (doc.curve = none → passed = []) ∧
          bs = Der.natural 1 ++ Der.element Der.octetStringTag doc.secret ++
            curveField doc.curve ++ passed ++ publicKeyField doc.publicKey := by
  have bounded : 1 < Der.naturalBound := by decide
  rw [ofContents?_eq_some_iff_fields]
  constructor
  · rintro ⟨afterVersion, afterSecret, number, secret_read, optional⟩
    obtain rfl := Der.natural_of_readNatural? number
    obtain rfl := Der.element_of_expect? secret_read
    simp only [List.length_append] at fits
    obtain ⟨named, passed, passing, first, rfl⟩ := (exists_readCurve?_iff (by omega)).mp optional
    exact ⟨named, passed, passing, first, by simp only [List.append_assoc]⟩
  · rintro ⟨named, passed, passing, first, rfl⟩
    simp only [List.append_assoc] at fits ⊢
    simp only [List.length_append] at fits
    refine ⟨_, _, (Der.readNatural?_eq_some_iff bounded).mpr rfl,
      (Der.expect?_eq_some_iff ?_).mpr rfl, (exists_readCurve?_iff ?_).mpr
        ⟨named, passed, passing, first, List.append_assoc ..⟩⟩
    · simp only [List.length_append]
      omega
    · simp only [List.length_append]
      omega

/-- Bytes are read as a document exactly if they spell it. -/
theorem ofDer?_eq_some_iff : ofDer? bs = some doc ↔ Spells bs doc := by
  rw [ofDer?]
  constructor
  · intro read
    split at read
    · rename_i short
      obtain ⟨contents, only, inner⟩ := Option.bind_eq_some_iff.mp read
      obtain rfl := Der.element_of_only? only
      have fits := (Der.length_le_element Der.sequenceTag contents).trans_lt
        (lt_of_lt_sizeBound short)
      obtain ⟨named, passed, passing, first, rfl⟩ := (ofContents?_eq_some_iff fits).mp inner
      exact ⟨short, named, passed, passing, first, rfl⟩
    · cases read
  · rintro ⟨short, named, passed, passing, first, rfl⟩
    have fits := (Der.length_le_element _ _).trans_lt (lt_of_lt_sizeBound short)
    rw [if_pos short, Der.only?_element fits]
    exact (ofContents?_eq_some_iff fits).mpr ⟨named, passed, passing, first, rfl⟩

theorem ofDer?_toDer (named : ∀ name ∈ doc.curve, isObjectIdentifier name = true)
    (fits : doc.toDer.length < sizeBound) : ofDer? doc.toDer = some doc :=
  ofDer?_eq_some_iff.mpr ⟨fits, named, [], .nil, fun _ => rfl, by rw [List.append_nil]; rfl⟩

end KeyTree.PrivateKeyDocument
