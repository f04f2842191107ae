import KeyTree.Proofs.DerForm
/-!
Distinguished encodings have one form each: whatever a reader accepts is the written form of what
it answers, followed by what it leaves.

A length in more bytes than it needs is refused, and so is a natural number after a zero byte that
no sign calls for; this is what makes the forms unique.  As written forms are read back, a reader
of bytes that are not too many accepts exactly the written forms (`expect?_eq_some_iff` and those
like it).
-/

set_option autoImplicit false
set_option relaxedAutoImplicit false

namespace KeyTree.Der

open Bytes

variable {bs rest contents : Bytes} {tag : UInt8} {n v : Nat}

private theorem lengthField_of_readLength? (read : readLength? bs = some (n, rest)) :
    lengthField n ++ rest = bs := by
  cases bs with
  | nil => cases read
  | cons first others =>
      rw [readLength?] at read
      split at read
      · rename_i short
        cases read
        have small : first.toNat < 128 := UInt8.lt_iff_toNat_lt.mp short
        rw [lengthField, if_pos small, UInt8.ofNat_toNat, List.singleton_append]
      · rename_i long
        simp only at read
        split at read
        · cases read
        rename_i counted
        split at read
        · cases read
        rename_i canonical
        simp only [Option.some.injEq, Prod.mk.injEq] at read
        obtain ⟨rfl, rfl⟩ := read
        simp only [not_or, Nat.not_lt] at counted canonical
        obtain ⟨-, -, enough⟩ := counted
        have first_ge : 128 ≤ first.toNat := UInt8.not_lt.mp long
        have field : ofNat (bigEndianValue (others.take (first.toNat - 128))) =
            others.take (first.toNat - 128) := ofNat_bigEndianValue canonical.1
        have count : 128 + (others.take (first.toNat - 128)).length = first.toNat := by
          rw [List.length_take, Nat.min_eq_left enough]
          omega
        rw [lengthField, if_neg (Nat.not_lt.mpr canonical.2), field]
        simp only [count, UInt8.ofNat_toNat, List.cons_append, List.take_append_drop]

private theorem element_of_read? (read : read? bs = some (tag, contents, rest)) :
    element tag contents ++ rest = bs := by
  cases bs with
  | nil => cases read
  | cons first others =>
      rw [read?, Option.bind_eq_bind] at read
      obtain ⟨⟨n, body⟩, sized, read⟩ := Option.bind_eq_some_iff.mp read
      simp only at read
      split at read
      · cases read
      rename_i enough
      cases read
      have length_eq : (body.take n).length = n := by
        rw [List.length_take]
        omega
      rw [element, length_eq, List.append_assoc, List.take_append_drop, List.cons_append,
        lengthField_of_readLength? sized]

theorem element_of_expect? (read : expect? tag bs = some (contents, rest)) :
    element tag contents ++ rest = bs := by
  rw [expect?, Option.bind_eq_bind] at read
  obtain ⟨⟨found, body, others⟩, read, named⟩ := Option.bind_eq_some_iff.mp read
  simp only at named
  split at named
  · rename_i same
    cases named
    rw [← same]
    exact element_of_read? read
  · cases named

theorem element_of_only? (read : only? tag bs = some contents) : element tag contents = bs := by
  rw [only?, Option.bind_eq_bind] at read
  obtain ⟨⟨body, others⟩, read, last⟩ := Option.bind_eq_some_iff.mp read
  simp only at last
  split at last
  · rename_i empty
    cases last
    rw [List.isEmpty_iff.mp empty] at read
    simpa using element_of_expect? read
  · cases last

private theorem naturalContents_of_lt {first : UInt8} (nonzero : first ≠ 0) (small : first < 128) :
    naturalContents (bigEndianValue (first :: rest)) = first :: rest := by
  have written : ofNat (bigEndianValue (first :: rest)) = first :: rest :=
    ofNat_bigEndianValue (mt Option.some.inj nonzero)
  rw [naturalContents, written]
  exact if_pos small

private theorem naturalContents_of_ge {first : UInt8} (large : ¬ first < 128) :
    naturalContents (bigEndianValue (first :: rest)) = 0 :: first :: rest := by
  have nonzero : first ≠ 0 := by
    rintro rfl
    exact large (by decide)
  have written : ofNat (bigEndianValue (first :: rest)) = first :: rest :=
    ofNat_bigEndianValue (mt Option.some.inj nonzero)
  rw [naturalContents, written]
  exact if_neg large

/-- The contents of an integer element that write a number: the first byte does not read as a sign,
and it is zero only for the number zero or before a byte that would read as one. -/
structure WritesNatural (contents : Bytes) (v : Nat) : Prop where
  value : bigEndianValue contents = v
  unsigned : ∃ first rest, contents = first :: rest ∧ first < 128
  minimal : ∀ second rest, contents = 0 :: second :: rest → 128 ≤ second

theorem writesNatural_naturalContents (v : Nat) : WritesNatural (naturalContents v) v := by
  have value := bigEndianValue_ofNat v
  have head_ne := head?_ofNat_ne_zero v
  unfold naturalContents
  split
  · rename_i written
    obtain rfl := ofNat_eq_nil_iff.mp written
    exact ⟨rfl, ⟨0, [], rfl, by decide⟩, nofun⟩
  · rename_i first rest written
    rw [written] at value head_ne
    split
    · rename_i small
      refine ⟨value, ⟨first, rest, rfl, small⟩, ?_⟩
      rintro second others same
      rw [same] at head_ne
      exact absurd rfl head_ne
    · rename_i large
      refine ⟨?_, ⟨0, first :: rest, rfl, by decide⟩, ?_⟩
      · rw [bigEndianValue_cons, value]
        simp
      · rintro second others same
        cases same
        exact UInt8.not_lt.mp large

private theorem naturalContents_of_natural? (read : natural? contents = some v) :
    naturalContents v = contents := by
  match contents, read with
  | [], read => cases read
  | [only], read =>
      rw [natural?] at read
      split at read
      · rename_i small
        have value : bigEndianValue [only] = only.toNat := by
          rw [bigEndianValue_cons]
          simp
        by_cases zero : only = 0
        · cases read
          rw [zero]
          rfl
        · rw [← value, Option.some.injEq] at read
          rw [← read, naturalContents_of_lt zero small]
      · cases read
  | first :: second :: others, read =>
      have bound_pos : 0 < naturalBound := by decide
      rw [natural?] at read
      split at read
      · cases read
      rename_i canonical
      rw [bigEndianBelow?_eq bound_pos] at read
      split at read
      · obtain rfl := Option.some.inj read
        rw [not_or, not_and, UInt8.not_le] at canonical
        obtain ⟨small, signed⟩ := canonical
        by_cases zero : first = 0
        · -- The zero stands before a byte that would read as a sign.
          have value : bigEndianValue (first :: second :: others) =
              bigEndianValue (second :: others) := by
            rw [bigEndianValue_cons, zero]
            simp
          rw [value, naturalContents_of_ge (signed zero), zero]
        · exact naturalContents_of_lt zero small
      · cases read

theorem natural_of_readNatural? (read : readNatural? bs = some (v, rest)) :
    natural v ++ rest = bs := by
  rw [readNatural?, Option.bind_eq_bind] at read
  obtain ⟨⟨contents, others⟩, found, read⟩ := Option.bind_eq_some_iff.mp read
  simp only [Option.bind_eq_bind, Option.bind_eq_some_iff] at read
  obtain ⟨w, value, same⟩ := read
  cases same
  rw [natural, naturalContents_of_natural? value]
  exact element_of_expect? found

/-! ### What the readers accept -/

theorem read?_eq_some_iff (fits : bs.length < 256 ^ 4) :
    read? bs = some (tag, contents, rest) ↔ element tag contents ++ rest = bs := by
  constructor
  · exact element_of_read?
  · rintro rfl
    rw [List.length_append] at fits
    have contents_le := length_le_element tag contents
    exact read?_element (by omega) tag rest

theorem expect?_eq_some_iff (fits : bs.length < 256 ^ 4) :
    expect? tag bs = some (contents, rest) ↔ element tag contents ++ rest = bs := by
  constructor
  · exact element_of_expect?
  · rintro rfl
    rw [List.length_append] at fits
    have contents_le := length_le_element tag contents
    exact expect?_element (by omega) tag rest

theorem readNatural?_eq_some_iff (bounded : v < naturalBound) :
    readNatural? bs = some (v, rest) ↔ natural v ++ rest = bs := by
  constructor
  · exact natural_of_readNatural?
  · rintro rfl
    exact readNatural?_natural bounded rest

end KeyTree.Der
