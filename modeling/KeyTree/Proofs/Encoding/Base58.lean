import KeyTree.Encoding.Base58
import KeyTree.Proofs.Encoding.Ascii
import KeyTree.Proofs.Except
import KeyTree.Proofs.Numeral
/-!
Base58 texts and byte strings are in bijection.

Both are digit lists, in base 58 and in base 256, and each is the other converted, so that
`decode_eq_ok_iff` comes from `Numeral.convert_convert` and from the reading of digits.
-/

set_option autoImplicit false
set_option relaxedAutoImplicit false

namespace KeyTree.Base58

private theorem length_alphabet : alphabet.length = 58 := by
  decide +kernel

private theorem digitChar_zero : digitChar 0 = '1' := by
  decide +kernel

private theorem digit?_digitChar : ∀ d < 58, digit? (digitChar d) = some d := by
  decide +kernel

private theorem toNat_digitChar_lt : ∀ d < 58, (digitChar d).toNat < 128 := by
  decide +kernel

private theorem digit?_eq_some_iff {c : Char} {d : Nat} :
    digit? c = some d ↔ d < 58 ∧ digitChar d = c := by
  constructor
  · intro found
    obtain ⟨small, same, -⟩ := List.idxOf?_eq_some_iff.mp found
    refine ⟨length_alphabet ▸ small, ?_⟩
    rw [digitChar, List.getD_eq_getElem?_getD, List.getElem?_eq_getElem small, Option.getD_some,
      same]
  · rintro ⟨small, rfl⟩
    exact digit?_digitChar d small

private theorem readDigits_encodeChar_append (position : Nat) (c : Char) (rest : Bytes)
    (ds : List Nat) : readDigits position (String.utf8EncodeChar c ++ rest) = .ok ds ↔
      ∃ d ds', digit? c = some d ∧ readDigits (position + 1) rest = .ok ds' ∧ d :: ds' = ds := by
  by_cases ascii : c.toNat < 128
  · have value : (UInt8.ofNat c.toNat).toNat = c.toNat :=
      UInt8.toNat_ofNat_of_lt' (show c.toNat < 256 by omega)
    have first : ¬ (128 : UInt8) ≤ UInt8.ofNat c.toNat := by
      rw [UInt8.le_iff_toNat_le, value]
      exact Nat.not_le.mpr ascii
    rw [Bytes.utf8EncodeChar_of_ascii ascii, List.singleton_append, readDigits, if_neg first,
      value, Char.ofNat_toNat]
    cases digit? c with
    | none => simp
    | some d => simp [map_eq_ok_iff]
  · obtain ⟨b, others, written, high⟩ := Bytes.utf8EncodeChar_of_not_ascii ascii
    rw [written, List.cons_append, readDigits, if_pos high]
    constructor
    · nofun
    · rintro ⟨d, -, found, -⟩
      obtain ⟨small, rfl⟩ := digit?_eq_some_iff.mp found
      exact absurd (toNat_digitChar_lt d small) ascii

private theorem readDigits_eq_ok_iff (position : Nat) (cs : List Char) (ds : List Nat) :
    readDigits position (cs.flatMap String.utf8EncodeChar) = .ok ds ↔
      (∀ d ∈ ds, d < 58) ∧ ds.map digitChar = cs := by
  induction cs generalizing position ds with
  | nil =>
      simp only [List.flatMap_nil, readDigits, Except.ok.injEq, List.map_eq_nil_iff]
      constructor
      · rintro rfl
        exact ⟨nofun, rfl⟩
      · rintro ⟨-, rfl⟩
        rfl
  | cons c cs ih =>
      rw [List.flatMap_cons, readDigits_encodeChar_append]
      constructor
      · rintro ⟨d, ds', found, read, rfl⟩
        obtain ⟨small, rfl⟩ := digit?_eq_some_iff.mp found
        obtain ⟨small', rfl⟩ := (ih (position + 1) ds').mp read
        exact ⟨List.forall_mem_cons.mpr ⟨small, small'⟩, rfl⟩
      · rintro ⟨small, written⟩
        obtain ⟨d, ds', rfl, head, tail⟩ := List.map_eq_cons_iff.mp written
        obtain ⟨small_d, small_ds⟩ := List.forall_mem_cons.mp small
        exact ⟨d, ds', digit?_eq_some_iff.mpr ⟨small_d, head⟩,
          (ih (position + 1) ds').mpr ⟨small_ds, tail⟩, rfl⟩

private theorem takeWhile_map_toNat (bs : Bytes) :
    ((bs.map UInt8.toNat).takeWhile (· == 0)).length = (bs.takeWhile (· == 0)).length := by
  have test : ((· == 0) ∘ UInt8.toNat) = (· == (0 : UInt8)) := by
    funext b
    rw [Function.comp_apply, Bool.eq_iff_iff, beq_iff_eq, beq_iff_eq]
    exact UInt8.toNat_inj (b := 0)
  rw [List.takeWhile_map, List.length_map, test]

private theorem encodeChars_eq (bs : Bytes) :
    encodeChars bs = (Numeral.convert 256 58 (bs.map UInt8.toNat)).map digitChar := by
  rw [encodeChars, Numeral.convert, List.map_append, List.map_replicate, digitChar_zero,
    takeWhile_map_toNat, Bytes.bigEndianValue]

/-- The leading digits of a text are known from a quotient of the number that the bytes write. -/
theorem exists_encodeChars_eq_append {bs : Bytes} (canonical : bs.head? ≠ some 0) {k q : Nat}
    (positive : 0 < q) (quotient : Bytes.bigEndianValue bs / 58 ^ k = q) :
    ∃ low, low.length = k ∧ encodeChars bs = (Numeral.digits 58 q).map digitChar ++ low := by
  have no_zeros : bs.takeWhile (· == 0) = [] := by
    cases bs with
    | nil => rfl
    | cons b bs =>
        apply List.takeWhile_cons_of_neg
        simpa using canonical
  have large : 58 ^ k ≤ Bytes.bigEndianValue bs := by
    rw [← quotient] at positive
    exact Nat.le_of_not_lt fun small => positive.ne' (Nat.div_eq_of_lt small)
  obtain ⟨low, length_eq, digits⟩ := Numeral.exists_digits_eq_append (by decide) k large
  refine ⟨low.map digitChar, by rw [List.length_map, length_eq], ?_⟩
  rw [encodeChars, no_zeros, digits, quotient, List.map_append]
  rfl

private theorem map_toNat_ofDigits (ds : List Nat) :
    (ofDigits ds).map UInt8.toNat = Numeral.convert 58 256 ds := by
  have bytes : ofDigits ds = (Numeral.convert 58 256 ds).map UInt8.ofNat := by
    rw [ofDigits, Numeral.convert, List.map_append, List.map_replicate, Bytes.ofNat]
    rfl
  rw [bytes, List.map_map]
  conv => rhs; rw [← List.map_id (Numeral.convert 58 256 ds)]
  apply List.map_congr_left
  intro d member
  exact UInt8.toNat_ofNat_of_lt' (Numeral.lt_of_mem_convert (by decide) member)

theorem decode_eq_ok_iff {s : String} {bs : Bytes} : decode s = .ok bs ↔ encode bs = s := by
  have bytes_small : ∀ d ∈ bs.map UInt8.toNat, d < 256 := by
    intro d member
    obtain ⟨b, -, rfl⟩ := List.mem_map.mp member
    exact b.toNat_lt
  have text : encode bs = s ↔ encodeChars bs = s.toList := by
    rw [encode]
    constructor
    · rintro rfl
      exact String.toList_ofList.symm
    · intro same
      rw [same, String.ofList_toList]
  rw [text, encodeChars_eq, decode, map_eq_ok_iff, Bytes.ofText]
  simp only [readDigits_eq_ok_iff]
  constructor
  · rintro ⟨ds, ⟨small, written⟩, rfl⟩
    rw [map_toNat_ofDigits, Numeral.convert_convert (by decide) (by decide) small, written]
  · intro written
    refine ⟨_, ⟨fun d member => Numeral.lt_of_mem_convert (by decide) member, written⟩, ?_⟩
    apply List.map_injective_iff.mpr fun _ _ => UInt8.toNat_inj.mp
    rw [map_toNat_ofDigits, Numeral.convert_convert (by decide) (by decide) bytes_small]

end KeyTree.Base58
