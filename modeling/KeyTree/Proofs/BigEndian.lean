import KeyTree.Curve.Range
import KeyTree.Proofs.Curve.ResidueField
import KeyTree.Proofs.Numeral
import Mathlib.Tactic.Ring
/-!
The numbers that byte strings write, most significant byte first.

`bigEndianValue_bigEndian` and `bigEndian_bigEndianValue` say that `n` bytes and the numbers below
`256 ^ n` are in bijection.  `compareBigEndian_eq` says that the comparison of bytes compares the
numbers, from which `inElementRange_iff` and `isSecret_iff` follow; `range_check_numeric` says both
of the digits to the base 256, for byte strings of any length.
-/

set_option autoImplicit false
set_option relaxedAutoImplicit false

namespace KeyTree

namespace Bytes

private theorem bigEndianValue_eq_ofDigits (bs : Bytes) :
    bigEndianValue bs = Nat.ofDigits 256 (bs.reverse.map UInt8.toNat) := by
  rw [bigEndianValue, Numeral.ofDigits_eq, List.map_reverse]

@[simp]
theorem bigEndianValue_nil : bigEndianValue [] = 0 := rfl

private theorem bigEndianValue_append_singleton (bs : Bytes) (b : UInt8) :
    bigEndianValue (bs ++ [b]) = bigEndianValue bs * 256 + b.toNat := by
  rw [bigEndianValue, List.map_append, List.map_singleton, Numeral.ofDigits_append_singleton,
    bigEndianValue]

theorem bigEndianValue_append (as bs : Bytes) :
    bigEndianValue (as ++ bs) = bigEndianValue as * 256 ^ bs.length + bigEndianValue bs := by
  induction bs using List.reverseRecOn with
  | nil => simp
  | append_singleton bs b ih =>
      rw [← List.append_assoc, bigEndianValue_append_singleton, ih,
        bigEndianValue_append_singleton, List.length_append, List.length_singleton, pow_succ]
      ring

theorem bigEndianValue_cons (b : UInt8) (bs : Bytes) :
    bigEndianValue (b :: bs) = b.toNat * 256 ^ bs.length + bigEndianValue bs := by
  have single : bigEndianValue [b] = b.toNat := by
    simpa using bigEndianValue_append_singleton [] b
  rw [← List.singleton_append, bigEndianValue_append, single]

private theorem bigEndianValue_replicate_zero (n : Nat) :
    bigEndianValue (List.replicate n 0) = 0 := by
  induction n with
  | zero => rfl
  | succ n ih =>
      rw [List.replicate_succ, bigEndianValue_cons, ih]
      simp

theorem bigEndianValue_lt (bs : Bytes) : bigEndianValue bs < 256 ^ bs.length := by
  induction bs with
  | nil => simp
  | cons b bs ih =>
      have digit := b.toNat_lt
      have room : (b.toNat + 1) * 256 ^ bs.length ≤ 256 * 256 ^ bs.length :=
        Nat.mul_le_mul_right _ (by omega)
      rw [bigEndianValue_cons, List.length_cons, pow_succ']
      linarith

private theorem bigEndian_succ (n v : Nat) :
    bigEndian (n + 1) v = bigEndian n (v / 256) ++ [UInt8.ofNat v] := by
  rw [bigEndian, littleEndian, List.reverse_cons, bigEndian]

theorem bigEndianValue_bigEndian (n v : Nat) : bigEndianValue (bigEndian n v) = v % 256 ^ n := by
  induction n generalizing v with
  | zero => simp [bigEndian, littleEndian, Nat.mod_one]
  | succ n ih =>
      have digit : (UInt8.ofNat v).toNat = v % 256 := UInt8.toNat_ofNat'
      rw [bigEndian_succ, bigEndianValue_append_singleton, ih, digit, pow_succ', Nat.mod_mul]
      ring

private theorem bigEndianValue_inj {as bs : Bytes} (length_eq : as.length = bs.length)
    (value_eq : bigEndianValue as = bigEndianValue bs) : as = bs := by
  induction as generalizing bs with
  | nil => exact (List.length_eq_zero_iff.mp length_eq.symm).symm
  | cons a as ih =>
      cases bs with
      | nil => cases length_eq
      | cons b bs =>
          have tails : as.length = bs.length := Nat.succ.inj length_eq
          have small_as := bigEndianValue_lt as
          have small_bs := bigEndianValue_lt bs
          rw [bigEndianValue_cons, bigEndianValue_cons, tails] at value_eq
          rw [tails] at small_as
          have heads : a.toNat = b.toNat := by
            have quotient := congrArg (· / 256 ^ bs.length) value_eq
            simpa [Nat.mul_add_div, Nat.div_eq_of_lt, mul_comm, small_as, small_bs]
              using quotient
          rw [heads] at value_eq
          rw [UInt8.toNat_inj.mp heads, ih tails (by omega)]

theorem bigEndian_bigEndianValue {n : Nat} {bs : Bytes} (length_eq : bs.length = n) :
    bigEndian n (bigEndianValue bs) = bs := by
  apply bigEndianValue_inj
  · rw [length_bigEndian, length_eq]
  · rw [bigEndianValue_bigEndian, Nat.mod_eq_of_lt (length_eq ▸ bigEndianValue_lt bs)]

/-! ### Comparison -/

@[simp]
theorem bigEndianValue_stripLeadingZeros (bs : Bytes) :
    bigEndianValue (stripLeadingZeros bs) = bigEndianValue bs := by
  induction bs with
  | nil => rfl
  | cons b bs ih =>
      rw [stripLeadingZeros, List.dropWhile_cons]
      split
      · rename_i zero
        rw [beq_iff_eq] at zero
        rw [← stripLeadingZeros, ih, bigEndianValue_cons, zero]
        simp
      · rfl

private theorem pow_le_bigEndianValue {bs : Bytes} (nonempty : stripLeadingZeros bs ≠ []) :
    256 ^ ((stripLeadingZeros bs).length - 1) ≤ bigEndianValue bs := by
  induction bs with
  | nil => exact absurd rfl nonempty
  | cons b bs ih =>
      rw [stripLeadingZeros, List.dropWhile_cons] at nonempty ⊢
      split at nonempty
      · rename_i zero
        rw [beq_iff_eq] at zero
        rw [if_pos (by simp [zero])]
        exact (ih nonempty).trans (by rw [bigEndianValue_cons, zero]; simp)
      · rename_i unlike
        have positive : 1 ≤ b.toNat := by
          rw [beq_iff_eq, ← UInt8.toNat_inj] at unlike
          exact Nat.pos_of_ne_zero unlike
        rw [if_neg unlike, bigEndianValue_cons, List.length_cons, Nat.add_sub_cancel]
        exact (Nat.le_mul_of_pos_left _ positive).trans (Nat.le_add_right _ _)

private theorem bigEndianValue_lt_of_length_lt {as bs : Bytes}
    (shorter : (stripLeadingZeros as).length < (stripLeadingZeros bs).length) :
    bigEndianValue as < bigEndianValue bs := by
  have nonempty : stripLeadingZeros bs ≠ [] := by
    intro empty
    rw [empty] at shorter
    exact absurd shorter (Nat.not_lt_zero _)
  calc bigEndianValue as
      = bigEndianValue (stripLeadingZeros as) := (bigEndianValue_stripLeadingZeros as).symm
    _ < 256 ^ (stripLeadingZeros as).length := bigEndianValue_lt _
    _ ≤ 256 ^ ((stripLeadingZeros bs).length - 1) :=
        Nat.pow_le_pow_right (by decide) (Nat.le_sub_one_of_lt shorter)
    _ ≤ bigEndianValue bs := pow_le_bigEndianValue nonempty

private theorem compare_toNat (a b : UInt8) : compare a b = compare a.toNat b.toNat := by
  simp only [compare, compareOfLessAndEq, UInt8.lt_iff_toNat_lt, ← UInt8.toNat_inj]

private theorem lexicographic_eq {as bs : Bytes} (length_eq : as.length = bs.length) :
    lexicographic as bs = compare (bigEndianValue as) (bigEndianValue bs) := by
  induction as generalizing bs with
  | nil =>
      obtain rfl := List.length_eq_zero_iff.mp length_eq.symm
      rfl
  | cons a as ih =>
      cases bs with
      | nil => cases length_eq
      | cons b bs =>
          have tails : as.length = bs.length := Nat.succ.inj length_eq
          have small_as := bigEndianValue_lt as
          have small_bs := bigEndianValue_lt bs
          rw [tails] at small_as
          rw [lexicographic, compare_toNat, ih tails, bigEndianValue_cons, bigEndianValue_cons,
            tails]
          rcases lt_trichotomy a.toNat b.toNat with less | same | more
          · have step := Nat.mul_le_mul_right (256 ^ bs.length) less
            rw [Nat.succ_mul] at step
            rw [compare_lt_iff_lt.mpr less]
            exact (compare_lt_iff_lt.mpr (by omega)).symm
          · rw [same, compare_eq_iff_eq.mpr rfl]
            simp only [Ordering.then, Nat.compare_eq_ite_lt, Nat.add_lt_add_iff_left]
          · have step := Nat.mul_le_mul_right (256 ^ bs.length) more
            rw [Nat.succ_mul] at step
            rw [compare_gt_iff_gt.mpr more]
            exact (compare_gt_iff_gt.mpr (by omega)).symm

/-- Comparing byte strings of any two lengths compares the numbers that they write. -/
theorem compareBigEndian_eq (as bs : Bytes) :
    compareBigEndian as bs = compare (bigEndianValue as) (bigEndianValue bs) := by
  rw [compareBigEndian]
  rcases lt_trichotomy (stripLeadingZeros as).length (stripLeadingZeros bs).length
    with shorter | same | longer
  · rw [compare_lt_iff_lt.mpr shorter,
      compare_lt_iff_lt.mpr (bigEndianValue_lt_of_length_lt shorter)]
    rfl
  · rw [compare_eq_iff_eq.mpr same, lexicographic_eq same, bigEndianValue_stripLeadingZeros,
      bigEndianValue_stripLeadingZeros]
    rfl
  · rw [compare_gt_iff_gt.mpr longer,
      compare_gt_iff_gt.mpr (bigEndianValue_lt_of_length_lt longer)]
    rfl

private theorem stripLeadingZeros_eq_nil_iff {bs : Bytes} :
    stripLeadingZeros bs = [] ↔ bigEndianValue bs = 0 := by
  constructor
  · intro empty
    rw [← bigEndianValue_stripLeadingZeros, empty, bigEndianValue_nil]
  · intro zero
    by_contra nonempty
    have := pow_le_bigEndianValue nonempty
    rw [zero] at this
    exact absurd this (by simp)

end Bytes

namespace Octets

theorem value_ofNat {n v : Nat} (fits : v < 256 ^ n) : (ofNat n v).value = v := by
  rw [value, ofNat, Bytes.bigEndianValue_bigEndian, Nat.mod_eq_of_lt fits]

@[simp]
theorem ofNat_value {n : Nat} (o : Octets n) : ofNat n o.value = o :=
  ext (Bytes.bigEndian_bigEndianValue o.length_eq)

theorem value_injective {n : Nat} : Function.Injective (value (n := n)) := by
  intro a b same
  rw [← ofNat_value a, same, ofNat_value]

private theorem value_lt {n : Nat} (o : Octets n) : o.value < 256 ^ n := by
  have bound := Bytes.bigEndianValue_lt o.toList
  rwa [o.length_eq] at bound

theorem value_ofNat_toNat (w : UInt32) : (ofNat 4 w.toNat).value = w.toNat :=
  value_ofNat w.toNat_lt

theorem ofNat_toNat_inj {w w' : UInt32} : ofNat 4 w.toNat = ofNat 4 w'.toNat ↔ w = w' := by
  rw [← value_injective.eq_iff, value_ofNat_toNat, value_ofNat_toNat, UInt32.toNat_inj]

theorem toNat_ofNat_value (o : Octets 4) : (UInt32.ofNat o.value).toNat = o.value :=
  UInt32.toNat_ofNat_of_lt' o.value_lt

theorem padLeft?_eq_none_iff {n : Nat} {bs : Bytes} : padLeft? n bs = none ↔ n < bs.length := by
  rw [padLeft?, ofList?_eq_none_iff, List.length_append, List.length_replicate]
  omega

theorem exists_padLeft? {n : Nat} {bs : Bytes} (short : bs.length ≤ n) :
    ∃ o, padLeft? n bs = some o ∧ o.value = Bytes.bigEndianValue bs := by
  cases padded : padLeft? n bs with
  | none => exact absurd (padLeft?_eq_none_iff.mp padded) (Nat.not_lt.mpr short)
  | some o =>
      refine ⟨o, rfl, ?_⟩
      rw [value, ofList?_eq_some_iff.mp padded, Bytes.bigEndianValue_append,
        Bytes.bigEndianValue_replicate_zero, Nat.zero_mul, Nat.zero_add]

end Octets

namespace Residue

private theorem value_toOctets {m n : Nat} (fits : m ≤ 256 ^ n) (a : Residue m) :
    (a.toOctets n).value = a.val :=
  Octets.value_ofNat (a.val_lt.trans_le fits)

theorem toOctets_eq_of_val {m n : Nat} {a : Residue m} {o : Octets n} (value : a.val = o.value) :
    a.toOctets n = o := by
  rw [toOctets, value, Octets.ofNat_value]

theorem toList_toOctets_eq_iff {m n : Nat} (fits : m ≤ 256 ^ n) {a : Residue m} {bs : Bytes} :
    (a.toOctets n).toList = bs ↔ bs.length = n ∧ a.val = Bytes.bigEndianValue bs := by
  constructor
  · rintro rfl
    exact ⟨(a.toOctets n).length_eq, (value_toOctets fits a).symm⟩
  · rintro ⟨length_eq, value⟩
    rw [toOctets, value]
    exact Bytes.bigEndian_bigEndianValue length_eq

@[simp]
theorem ofNat?_val {m : Nat} (a : Residue m) : ofNat? m a.val = some a :=
  dif_pos a.val_lt

theorem ofNat?_eq_some_iff {m v : Nat} {a : Residue m} :
    ofNat? m v = some a ↔ a.val = v := by
  constructor
  · intro found
    unfold ofNat? at found
    split at found
    · cases found
      rfl
    · cases found
  · rintro rfl
    exact ofNat?_val a

theorem ofOctets?_eq_none_iff {m n : Nat} {o : Octets n} :
    ofOctets? m o = none ↔ m ≤ o.value := by
  rw [ofOctets?, ofNat?]
  split
  · rename_i below
    simp [below]
  · rename_i large
    simp [Nat.le_of_not_lt large]

end Residue

namespace Curve

@[simp]
theorem value_scalar (d : Scalar) : (d.toOctets 32).value = d.val :=
  Residue.value_toOctets (by decide) d

theorem toOctets_scalar_inj {d d' : Scalar} : d.toOctets 32 = d'.toOctets 32 ↔ d = d' := by
  rw [← Octets.value_injective.eq_iff, value_scalar, value_scalar, Residue.ext_iff]

private theorem value_orderOctets : Bytes.bigEndianValue orderOctets.toList = order :=
  Octets.value_ofNat (by decide)

private theorem value_halfOrderOctets : Bytes.bigEndianValue halfOrderOctets.toList = halfOrder :=
  Octets.value_ofNat (by decide)

theorem inElementRange_iff {bs : Bytes} {half : Bool} :
    inElementRange bs half = true ↔
      0 < Bytes.bigEndianValue bs ∧
        if half then Bytes.bigEndianValue bs ≤ halfOrder else Bytes.bigEndianValue bs < order := by
  simp only [inElementRange, Bytes.compareBigEndian_eq, value_orderOctets, value_halfOrderOctets,
    List.isEmpty_iff, Bytes.stripLeadingZeros_eq_nil_iff, Nat.pos_iff_ne_zero]
  split
  · rename_i zero
    simp [zero]
  · rename_i nonzero
    cases half
    · simp [nonzero, compare_lt_iff_lt]
    · simp [nonzero, compare_gt_iff_gt]

/-- Byte strings of any two lengths, with any number of zeros before them, are compared as their
numbers, and they pass the range check exactly if their number is at least one and below the order
or, of a low element, at most half of it. -/
theorem range_check_numeric :
    (∀ (bs : Bytes) (half : Bool),
      let v := Nat.ofDigits 256 (bs.reverse.map UInt8.toNat)
      inElementRange bs half = true ↔ 1 ≤ v ∧ if half then v ≤ order / 2 else v < order) ∧
    ∀ as bs : Bytes, Bytes.compareBigEndian as bs =
      compare (Nat.ofDigits 256 (as.reverse.map UInt8.toNat))
        (Nat.ofDigits 256 (bs.reverse.map UInt8.toNat)) := by
  constructor
  · intro bs half
    rw [← Bytes.bigEndianValue_eq_ofDigits, ← halfOrder_eq]
    exact inElementRange_iff
  · intro as bs
    rw [← Bytes.bigEndianValue_eq_ofDigits, ← Bytes.bigEndianValue_eq_ofDigits]
    exact Bytes.compareBigEndian_eq as bs

theorem isSecret_iff {o : Octets 32} : isSecret o = true ↔ 0 < o.value ∧ o.value < order :=
  inElementRange_iff

theorem isSecret_toOctets {d : Scalar} (nonzero : d ≠ 0) : isSecret (d.toOctets 32) = true := by
  rw [isSecret_iff, value_scalar]
  exact ⟨Residue.val_pos_iff.mpr nonzero, d.val_lt⟩

end Curve

end KeyTree
