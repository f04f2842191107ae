import KeyTree.Encoding.Hex
import KeyTree.Proofs.Encoding.Ascii
import KeyTree.Proofs.Except
import KeyTree.Proofs.Text.Blank
/-!
The hexadecimal text of bytes is read as these bytes, with its digits in either case, and no other
text is read (`decode_eq_ok_iff`).
-/

set_option autoImplicit false
set_option relaxedAutoImplicit false

namespace KeyTree.Hex

private theorem digitChar_spec {v : UInt8} (small : v.toNat < 16) :
    (digitChar v).toNat < 128 ∧ digit? (UInt8.ofNat (digitChar v).toNat) = some v := by
  have digits : ∀ n < 16, (digitChar (UInt8.ofNat n)).toNat < 128 ∧
      digit? (UInt8.ofNat (digitChar (UInt8.ofNat n)).toNat) = some (UInt8.ofNat n) := by
    decide +kernel
  simpa only [UInt8.ofNat_toNat] using digits v.toNat small

private theorem halves_spec (b : UInt8) :
    (b >>> 4).toNat < 16 ∧ (b &&& 15).toNat < 16 ∧ (b >>> 4) <<< 4 ||| (b &&& 15) = b := by
  have bytes : ∀ n < 256, (UInt8.ofNat n >>> 4).toNat < 16 ∧ (UInt8.ofNat n &&& 15).toNat < 16 ∧
      (UInt8.ofNat n >>> 4) <<< 4 ||| (UInt8.ofNat n &&& 15) = UInt8.ofNat n := by
    decide +kernel
  simpa only [UInt8.ofNat_toNat] using bytes b.toNat b.toNat_lt

private theorem exists_digit_of_mem_encodeChars {bs : Bytes} {c : Char}
    (member : c ∈ encodeChars bs) : ∃ v : UInt8, v.toNat < 16 ∧ c = digitChar v := by
  obtain ⟨b, -, member⟩ := List.mem_flatMap.mp member
  obtain ⟨high, low, -⟩ := halves_spec b
  simp only [List.mem_cons, List.not_mem_nil, or_false] at member
  rcases member with rfl | rfl
  · exact ⟨_, high, rfl⟩
  · exact ⟨_, low, rfl⟩

private theorem length_encodeChars (bs : Bytes) : (encodeChars bs).length = 2 * bs.length := by
  induction bs with
  | nil => rfl
  | cons b bs ih =>
      rw [encodeChars, List.flatMap_cons, List.length_append, ← encodeChars, ih]
      simp only [List.length_cons, List.length_nil]
      omega

/-! ### Either case -/

/-- The text writes the bytes, each digit in lower or in upper case. -/
def Spells (cs : List Char) (bs : Bytes) : Prop :=
  cs.map Char.toLower = encodeChars bs

private theorem digit_of_toLower {c : Char} {v : UInt8} (small : v.toNat < 16)
    (lower : c.toLower = digitChar v) :
    32 < c.toNat ∧ c.toNat < 128 ∧ digit? (UInt8.ofNat c.toNat) = some v := by
  have digits : ∀ n < 128, ∀ v < 16, (Char.ofNat n).toLower = digitChar (UInt8.ofNat v) →
      32 < n ∧ digit? (UInt8.ofNat n) = some (UInt8.ofNat v) := by
    decide +kernel
  have ascii : c.toNat < 128 := by
    by_cases letter : 'A'.val ≤ c.val ∧ c.val ≤ 'Z'.val
    · have last : c.toNat ≤ 90 := UInt32.le_iff_toNat_le.mp letter.2
      omega
    · have kept : c.toLower = c := dif_neg letter
      rw [← kept, lower]
      exact (digitChar_spec small).1
  have found := digits c.toNat ascii v.toNat small
  rw [Char.ofNat_toNat, UInt8.ofNat_toNat] at found
  obtain ⟨visible, read⟩ := found lower
  exact ⟨visible, ascii, read⟩

private theorem toLower_digitChar {v : UInt8} (small : v.toNat < 16) :
    (digitChar v).toLower = digitChar v ∧ (digitChar v).toUpper.toLower = digitChar v := by
  have digits : ∀ n < 16, (digitChar (UInt8.ofNat n)).toLower = digitChar (UInt8.ofNat n) ∧
      (digitChar (UInt8.ofNat n)).toUpper.toLower = digitChar (UInt8.ofNat n) := by
    decide +kernel
  simpa only [UInt8.ofNat_toNat] using digits v.toNat small

private theorem spells_encodeChars (bs : Bytes) : Spells (encodeChars bs) bs := by
  have kept : ∀ c ∈ encodeChars bs, c.toLower = id c := by
    intro c member
    obtain ⟨v, small, rfl⟩ := exists_digit_of_mem_encodeChars member
    exact (toLower_digitChar small).1
  rw [Spells, List.map_congr_left kept, List.map_id]

theorem spells_toUpper (bs : Bytes) : Spells ((encodeChars bs).map Char.toUpper) bs := by
  have kept : ∀ c ∈ encodeChars bs, (Char.toLower ∘ Char.toUpper) c = id c := by
    intro c member
    obtain ⟨v, small, rfl⟩ := exists_digit_of_mem_encodeChars member
    exact (toLower_digitChar small).2
  rw [Spells, List.map_map, List.map_congr_left kept, List.map_id]

namespace Spells

variable {cs : List Char} {bs : Bytes}

private theorem visible (spells : Spells cs bs) {c : Char} (member : c ∈ cs) :
    32 < c.toNat ∧ c.toNat < 128 := by
  have written : c.toLower ∈ encodeChars bs := spells ▸ List.mem_map_of_mem member
  obtain ⟨v, small, lower⟩ := exists_digit_of_mem_encodeChars written
  obtain ⟨after_space, ascii, -⟩ := digit_of_toLower small lower
  exact ⟨after_space, ascii⟩

theorem solid (spells : Spells cs bs) : Text.Solid cs := by
  intro c member
  obtain ⟨after_space, ascii⟩ := spells.visible member
  exact Text.isBlank_of_visible after_space ascii

private theorem decodeFrom_eq (spells : Spells cs bs) (position : Nat) :
    decodeFrom position (cs.map fun c => UInt8.ofNat c.toNat) = .ok bs := by
  induction bs generalizing position cs with
  | nil =>
      rw [List.map_eq_nil_iff.mp spells]
      rfl
  | cons b bs ih =>
      obtain ⟨high, low, joined⟩ := halves_spec b
      have digits : cs.map Char.toLower =
          digitChar (b >>> 4) :: digitChar (b &&& 15) :: encodeChars bs := spells
      obtain ⟨first, cs, rfl, first_lower, digits⟩ := List.map_eq_cons_iff.mp digits
      obtain ⟨second, cs, rfl, second_lower, rest⟩ := List.map_eq_cons_iff.mp digits
      obtain ⟨-, -, first_read⟩ := digit_of_toLower high first_lower
      obtain ⟨-, -, second_read⟩ := digit_of_toLower low second_lower
      rw [List.map_cons, List.map_cons, decodeFrom, digitAt, digitAt, first_read, second_read,
        ok_bind, ok_bind, ih rest, ok_bind, joined]
      rfl

private theorem length_eq (spells : Spells cs bs) : cs.length = 2 * bs.length := by
  rw [← length_encodeChars, ← spells, List.length_map]

private theorem decode_eq (spells : Spells cs bs) : decode (String.ofList cs) = .ok bs := by
  have written : Bytes.ofText (String.ofList cs) = cs.map fun c => UInt8.ofNat c.toNat :=
    Bytes.ofText_ofList fun c member => (spells.visible member).2
  have even : ¬ (cs.map fun c => UInt8.ofNat c.toNat).length % 2 = 1 := by
    rw [List.length_map, spells.length_eq]
    omega
  simp only [decode, written, if_neg even, spells.decodeFrom_eq]

end Spells

theorem decode_encode (bs : Bytes) : decode (encode bs) = .ok bs :=
  (spells_encodeChars bs).decode_eq

/-! ### The texts that are read -/

def IsDigit (c : Char) : Prop :=
  ('0' ≤ c ∧ c ≤ '9') ∨ ('a' ≤ c ∧ c ≤ 'f') ∨ ('A' ≤ c ∧ c ≤ 'F')

instance : DecidablePred IsDigit := fun c =>
  inferInstanceAs (Decidable (('0' ≤ c ∧ c ≤ '9') ∨ ('a' ≤ c ∧ c ≤ 'f') ∨ ('A' ≤ c ∧ c ≤ 'F')))

private theorem isDigit_iff {c : Char} :
    IsDigit c ↔ ∃ v : UInt8, v.toNat < 16 ∧ c.toLower = digitChar v := by
  constructor
  · intro digit
    have small : c.toNat < 128 := by
      rcases digit with ⟨-, last⟩ | ⟨-, last⟩ | ⟨-, last⟩ <;>
        exact Nat.lt_of_le_of_lt (UInt32.le_iff_toNat_le.mp last) (by decide)
    have digits : ∀ n < 128, IsDigit (Char.ofNat n) →
        ∃ v < 16, (Char.ofNat n).toLower = digitChar (UInt8.ofNat v) := by
      decide +kernel
    have found := digits c.toNat small
    rw [Char.ofNat_toNat] at found
    obtain ⟨v, below, lower⟩ := found digit
    have kept : (UInt8.ofNat v).toNat = v :=
      UInt8.toNat_ofNat_of_lt' (Nat.lt_trans below (by decide))
    exact ⟨UInt8.ofNat v, kept.symm ▸ below, lower⟩
  · rintro ⟨v, small, lower⟩
    have digits : ∀ n < 128, ∀ v < 16, (Char.ofNat n).toLower = digitChar (UInt8.ofNat v) →
        IsDigit (Char.ofNat n) := by
      decide +kernel
    obtain ⟨-, ascii, -⟩ := digit_of_toLower small lower
    have found := digits c.toNat ascii v.toNat small
    rw [Char.ofNat_toNat, UInt8.ofNat_toNat] at found
    exact found lower

private theorem lt_of_digit? {b v : UInt8} (read : digit? b = some v) : b < 128 := by
  have bytes : ∀ n < 256, ∀ v ∈ digit? (UInt8.ofNat n), UInt8.ofNat n < 128 := by decide +kernel
  have found := bytes b.toNat b.toNat_lt
  rw [UInt8.ofNat_toNat] at found
  exact found v read

private theorem toLower_of_digit? {c : Char} (ascii : c.toNat < 128) {v : UInt8}
    (read : digit? (UInt8.ofNat c.toNat) = some v) : v.toNat < 16 ∧ c.toLower = digitChar v := by
  have digits : ∀ n < 128, ∀ v ∈ digit? (UInt8.ofNat n),
      v.toNat < 16 ∧ (Char.ofNat n).toLower = digitChar v := by
    decide +kernel
  have found := digits c.toNat ascii
  rw [Char.ofNat_toNat] at found
  exact found v read

private theorem halves_join {high low : UInt8} (high_lt : high.toNat < 16)
    (low_lt : low.toNat < 16) :
    (high <<< 4 ||| low) >>> 4 = high ∧ (high <<< 4 ||| low) &&& 15 = low := by
  have digits : ∀ h < 16, ∀ l < 16,
      (UInt8.ofNat h <<< 4 ||| UInt8.ofNat l) >>> 4 = UInt8.ofNat h ∧
        (UInt8.ofNat h <<< 4 ||| UInt8.ofNat l) &&& 15 = UInt8.ofNat l := by
    decide +kernel
  simpa only [UInt8.ofNat_toNat] using digits high.toNat high_lt low.toNat low_lt

private theorem Spells.cons {first second : Char} {high low : UInt8} {cs : List Char} {bs : Bytes}
    (high_lt : high.toNat < 16) (first_lower : first.toLower = digitChar high)
    (low_lt : low.toNat < 16) (second_lower : second.toLower = digitChar low)
    (others : Spells cs bs) : Spells (first :: second :: cs) ((high <<< 4 ||| low) :: bs) := by
  obtain ⟨upper_half, lower_half⟩ := halves_join high_lt low_lt
  have pair : encodeChars ((high <<< 4 ||| low) :: bs) =
      digitChar high :: digitChar low :: encodeChars bs := by
    rw [encodeChars, List.flatMap_cons, upper_half, lower_half]
    rfl
  rw [Spells, List.map_cons, List.map_cons, first_lower, second_lower, others, pair]

private theorem digitAt_eq_ok_iff {position : Nat} {b v : UInt8} :
    digitAt position b = .ok v ↔ digit? b = some v := by
  rw [digitAt]
  cases digit? b <;> simp

private theorem decodeFrom_cons_cons_eq_ok_iff {position : Nat} {first second : UInt8}
    {rest bs : Bytes} : decodeFrom position (first :: second :: rest) = .ok bs ↔
      ∃ high low tail, digit? first = some high ∧ digit? second = some low ∧
        decodeFrom (position + 2) rest = .ok tail ∧ bs = (high <<< 4 ||| low) :: tail := by
  simp only [decodeFrom, bind_eq_ok_iff, digitAt_eq_ok_iff]
  constructor
  · rintro ⟨high, first_read, low, second_read, tail, rest_read, same⟩
    cases same
    exact ⟨high, low, tail, first_read, second_read, rest_read, rfl⟩
  · rintro ⟨high, low, tail, first_read, second_read, rest_read, rfl⟩
    exact ⟨high, first_read, low, second_read, tail, rest_read, rfl⟩

private theorem lt_of_decodeFrom {position : Nat} {written bs : Bytes}
    (read : decodeFrom position written = .ok bs) : ∀ b ∈ written, b < 128 := by
  fun_induction decodeFrom position written generalizing bs with
  | case1 => nofun
  | case2 => cases read
  | case3 position first second rest ih =>
      obtain ⟨high, low, tail, first_read, second_read, rest_read, -⟩ :=
        decodeFrom_cons_cons_eq_ok_iff.mp read
      refine List.forall_mem_cons.mpr ⟨lt_of_digit? first_read, ?_⟩
      exact List.forall_mem_cons.mpr ⟨lt_of_digit? second_read, ih rest_read⟩

private theorem ascii_of_decode {s : String} {bs : Bytes} (read : decode s = .ok bs) :
    ∀ c ∈ s.toList, c.toNat < 128 := by
  intro c member
  refine Decidable.byContradiction fun beyond => ?_
  -- The first byte of such a character is among the bytes that were read as digits.
  obtain ⟨b, others, written, large⟩ := Bytes.utf8EncodeChar_of_not_ascii beyond
  have among : b ∈ Bytes.ofText s :=
    List.mem_flatMap.mpr ⟨c, member, written ▸ List.mem_cons_self⟩
  simp only [decode] at read
  split at read
  · cases read
  · exact absurd (lt_of_decodeFrom read b among) (UInt8.not_lt.mpr large)

private theorem spells_of_decodeFrom {position : Nat} {cs : List Char} {bs : Bytes}
    (ascii : ∀ c ∈ cs, c.toNat < 128)
    (read : decodeFrom position (cs.map fun c => UInt8.ofNat c.toNat) = .ok bs) : Spells cs bs := by
  match cs with
  | [] =>
      cases read
      rfl
  | [_] => cases read
  | first :: second :: rest =>
      obtain ⟨high, low, tail, first_read, second_read, rest_read, rfl⟩ :=
        decodeFrom_cons_cons_eq_ok_iff.mp read
      obtain ⟨first_ascii, ascii⟩ := List.forall_mem_cons.mp ascii
      obtain ⟨second_ascii, ascii⟩ := List.forall_mem_cons.mp ascii
      obtain ⟨high_lt, first_lower⟩ := toLower_of_digit? first_ascii first_read
      obtain ⟨low_lt, second_lower⟩ := toLower_of_digit? second_ascii second_read
      have others : Spells rest tail := spells_of_decodeFrom ascii rest_read
      exact others.cons high_lt first_lower low_lt second_lower

theorem decode_eq_ok_iff {s : String} {bs : Bytes} : decode s = .ok bs ↔ Spells s.toList bs := by
  constructor
  · intro read
    have ascii := ascii_of_decode read
    have written := Bytes.ofText_ofList ascii
    rw [String.ofList_toList] at written
    simp only [decode, written] at read
    split at read
    · cases read
    · exact spells_of_decodeFrom ascii read
  · intro spells
    rw [← String.ofList_toList (s := s)]
    exact spells.decode_eq

theorem exists_spells_iff {cs : List Char} {n : Nat} :
    (∃ bs, Spells cs bs ∧ bs.length = n) ↔ (∀ c ∈ cs, IsDigit c) ∧ cs.length = 2 * n := by
  constructor
  · rintro ⟨bs, spells, rfl⟩
    refine ⟨fun c member => ?_, spells.length_eq⟩
    have written : c.toLower ∈ encodeChars bs := spells ▸ List.mem_map_of_mem member
    exact isDigit_iff.mpr (exists_digit_of_mem_encodeChars written)
  · induction n generalizing cs with
    | zero =>
        rintro ⟨-, empty⟩
        exact ⟨[], congrArg (List.map Char.toLower) (List.eq_nil_of_length_eq_zero empty), rfl⟩
    | succ n ih =>
        rintro ⟨digits, length_eq⟩
        match cs, length_eq with
        | first :: second :: rest, length_eq =>
            obtain ⟨first_digit, digits⟩ := List.forall_mem_cons.mp digits
            obtain ⟨second_digit, digits⟩ := List.forall_mem_cons.mp digits
            obtain ⟨high, high_lt, first_lower⟩ := isDigit_iff.mp first_digit
            obtain ⟨low, low_lt, second_lower⟩ := isDigit_iff.mp second_digit
            obtain ⟨bs, others, length_rest⟩ :=
              ih ⟨digits, Nat.add_right_cancel (m := 2) length_eq⟩
            exact ⟨(high <<< 4 ||| low) :: bs,
              others.cons high_lt first_lower low_lt second_lower, congrArg (· + 1) length_rest⟩

end KeyTree.Hex
