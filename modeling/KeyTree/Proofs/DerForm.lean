import KeyTree.Proofs.BigEndian
import KeyTree.Proofs.Numeral
import KeyTree.Encoding.Der
/-!
Distinguished encodings are read back: lengths below `256 ^ 4`, elements of such lengths, and
natural numbers below the bound of the reader.
-/

set_option autoImplicit false
set_option relaxedAutoImplicit false

namespace KeyTree.Der

open Bytes

private theorem readLength?_lengthField {n : Nat} (fits : n < 256 ^ 4) (rest : Bytes) :
    readLength? (lengthField n ++ rest) = some (n, rest) := by
  unfold lengthField
  split
  · rename_i short
    have value : (UInt8.ofNat n).toNat = n := UInt8.toNat_ofNat_of_lt' (show n < 256 by omega)
    have first_lt : UInt8.ofNat n < 128 := by
      rw [UInt8.lt_iff_toNat_lt, value]
      exact short
    rw [List.singleton_append, readLength?, if_pos first_lt, value]
  · rename_i long
    have count_le : (ofNat n).length ≤ 4 := length_ofNat_le_iff.mpr fits
    have count_ne : (ofNat n).length ≠ 0 := by
      rw [Ne, List.length_eq_zero_iff, ofNat_eq_nil_iff]
      omega
    have value : (UInt8.ofNat (128 + (ofNat n).length)).toNat = 128 + (ofNat n).length :=
      UInt8.toNat_ofNat_of_lt' (show 128 + (ofNat n).length < 256 by omega)
    have first_ge : ¬ UInt8.ofNat (128 + (ofNat n).length) < 128 := by
      rw [UInt8.lt_iff_toNat_lt, value]
      exact Nat.not_lt.mpr (Nat.le_add_right 128 _)
    rw [List.cons_append, readLength?, if_neg first_ge]
    simp only [value, Nat.add_sub_cancel_left, List.take_left, List.drop_left,
      bigEndianValue_ofNat, List.length_append, head?_ofNat_ne_zero, false_or]
    rw [if_neg (by omega), if_neg long]

theorem read?_element {contents : Bytes} (fits : contents.length < 256 ^ 4) (tag : UInt8)
    (rest : Bytes) : read? (element tag contents ++ rest) = some (tag, contents, rest) := by
  simp only [element, read?, List.cons_append, List.append_assoc, readLength?_lengthField fits]
  simp

theorem expect?_element {contents : Bytes} (fits : contents.length < 256 ^ 4) (tag : UInt8)
    (rest : Bytes) : expect? tag (element tag contents ++ rest) = some (contents, rest) := by
  rw [expect?, read?_element fits]
  simp

theorem only?_element {contents : Bytes} (fits : contents.length < 256 ^ 4) (tag : UInt8) :
    only? tag (element tag contents) = some contents := by
  have read := expect?_element fits tag []
  rw [List.append_nil] at read
  rw [only?, read]
  rfl

private theorem length_naturalContents_le {k v : Nat} (fits : v < 128 * 256 ^ k) :
    (naturalContents v).length ≤ k + 1 := by
  have length_le : (ofNat v).length ≤ k + 1 := by
    rw [length_ofNat_le_iff, pow_succ']
    omega
  have value := bigEndianValue_ofNat v
  unfold naturalContents
  split
  · exact Nat.le_add_left 1 k
  · rename_i first rest written
    rw [written, bigEndianValue_cons] at value
    rw [written, List.length_cons] at length_le
    split
    · exact length_le
    · rename_i large
      -- with the first byte at least 128 the number has at most `k` bytes
      have first_ge : 128 ≤ first.toNat := UInt8.not_lt.mp large
      by_contra longer
      have rest_length : rest.length = k := by
        simp only [List.length_cons] at longer
        omega
      rw [rest_length] at value
      have := Nat.mul_le_mul_right (256 ^ k) first_ge
      omega

private theorem natural?_naturalContents {v : Nat} (fits : v < naturalBound) :
    natural? (naturalContents v) = some v := by
  have bound_pos : 0 < naturalBound := by decide
  have value := bigEndianValue_ofNat v
  have head_ne := head?_ofNat_ne_zero v
  unfold naturalContents
  split
  · rename_i written
    obtain rfl := ofNat_eq_nil_iff.mp written
    rfl
  · rename_i first rest written
    rw [written] at value head_ne
    have first_ne : first ≠ 0 := fun zero => head_ne (congrArg some zero)
    split
    · rename_i small
      cases rest with
      | nil =>
          rw [natural?, if_pos small, ← value, bigEndianValue_cons]
          simp
      | cons second rest =>
          have canonical : ¬ (128 ≤ first ∨ first = 0 ∧ second < 128) := by
            rintro (large | ⟨zero, -⟩)
            · exact absurd small (UInt8.not_lt.mpr large)
            · exact first_ne zero
          rw [natural?, if_neg canonical, bigEndianBelow?_eq bound_pos, value, if_pos fits]
    · rename_i large
      have canonical : ¬ (128 ≤ (0 : UInt8) ∨ (0 : UInt8) = 0 ∧ first < 128) := by
        rintro (impossible | ⟨-, small⟩)
        · exact absurd impossible (by decide)
        · exact large small
      have padded : bigEndianValue (0 :: first :: rest) = v := by
        rw [bigEndianValue_cons, value]
        simp
      rw [natural?, if_neg canonical, bigEndianBelow?_eq bound_pos, padded, if_pos fits]

theorem length_naturalContents_lt {v : Nat} (fits : v < naturalBound) :
    (naturalContents v).length ≤ 33 :=
  length_naturalContents_le (fits.trans_le (by decide))

theorem readNatural?_natural {v : Nat} (fits : v < naturalBound) (rest : Bytes) :
    readNatural? (natural v ++ rest) = some (v, rest) := by
  have short : (naturalContents v).length < 256 ^ 4 :=
    (length_naturalContents_lt fits).trans_lt (by decide)
  rw [readNatural?, natural, expect?_element short]
  simp [natural?_naturalContents fits]

theorem length_le_element (tag : UInt8) (contents : Bytes) :
    contents.length ≤ (element tag contents).length := by
  rw [element, List.cons_append, List.length_cons, List.length_append]
  omega

theorem length_lt_element_append (tag : UInt8) (contents rest : Bytes) :
    rest.length < (element tag contents ++ rest).length := by
  rw [element, List.cons_append, List.cons_append, List.length_cons, List.length_append]
  omega

theorem element_of_length {contents : Bytes} {n : Nat} (length_eq : contents.length = n)
    (short : n < 128) (tag : UInt8) : element tag contents = tag :: UInt8.ofNat n :: contents := by
  rw [element, lengthField, length_eq, if_pos short]
  rfl

theorem length_element {contents : Bytes} (short : contents.length < 128) (tag : UInt8) :
    (element tag contents).length = contents.length + 2 := by
  rw [element_of_length rfl short, List.length_cons, List.length_cons]

theorem length_natural_le {k v : Nat} (fits : v < 128 * 256 ^ k) (short : k + 1 < 128) :
    (natural v).length ≤ k + 3 := by
  have := length_naturalContents_le fits
  rw [natural, length_element (by omega)]
  omega

end KeyTree.Der
