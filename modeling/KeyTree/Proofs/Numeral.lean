import KeyTree.Bytes
import Mathlib.Data.Nat.Digits.Lemmas
/-!
Digit lists without leading zeros.

`digits_eq` identifies them with the digit lists of `Nat.digits`, read from the other end; how many
digits a number has and that the first is not zero follow, for any base and for bytes.

`convert` goes from one base to another and keeps the leading zeros; `convert_convert` says that
nothing is lost.
-/

set_option autoImplicit false
set_option relaxedAutoImplicit false

namespace KeyTree

namespace Numeral

private theorem pushDigits_eq {base : Nat} (base_gt : 1 < base) (fuel v : Nat) (rest : List Nat)
    (enough : v ≤ fuel) : pushDigits base fuel v rest = (Nat.digits base v).reverse ++ rest := by
  induction fuel generalizing v rest with
  | zero =>
      obtain rfl : v = 0 := Nat.le_zero.mp enough
      simp [pushDigits]
  | succ fuel ih =>
      unfold pushDigits
      split
      · rename_i zero
        simp [zero]
      · rename_i nonzero
        have smaller : v / base < v := Nat.div_lt_self (Nat.pos_of_ne_zero nonzero) base_gt
        rw [ih (v / base) (v % base :: rest) (by omega),
          Nat.digits_def' base_gt (Nat.pos_of_ne_zero nonzero), List.reverse_cons,
          List.append_assoc, List.singleton_append]

private theorem digits_eq {base : Nat} (base_gt : 1 < base) (v : Nat) :
    digits base v = (Nat.digits base v).reverse := by
  rw [digits, pushDigits_eq base_gt v v [] (Nat.le_refl v), List.append_nil]

private theorem digits_of_pos {base : Nat} (base_gt : 1 < base) {v : Nat} (positive : 0 < v) :
    digits base v = digits base (v / base) ++ [v % base] := by
  rw [digits_eq base_gt, digits_eq base_gt, Nat.digits_def' base_gt positive, List.reverse_cons]

theorem exists_digits_eq_append {base : Nat} (base_gt : 1 < base) (k : Nat) {v : Nat}
    (large : base ^ k ≤ v) :
    ∃ low, low.length = k ∧ digits base v = digits base (v / base ^ k) ++ low := by
  induction k generalizing v with
  | zero => exact ⟨[], rfl, by rw [pow_zero, Nat.div_one, List.append_nil]⟩
  | succ k ih =>
      have base_pos : 0 < base := Nat.zero_lt_of_lt base_gt
      have positive : 0 < v := Nat.lt_of_lt_of_le (Nat.pow_pos base_pos) large
      have smaller : base ^ k ≤ v / base := (Nat.le_div_iff_mul_le base_pos).mpr large
      obtain ⟨low, length_eq, shorter⟩ := ih smaller
      refine ⟨low ++ [v % base], ?_, ?_⟩
      · rw [List.length_append, length_eq, List.length_singleton]
      · rw [digits_of_pos base_gt positive, shorter, Nat.div_div_eq_div_mul, pow_succ',
          List.append_assoc]

private theorem length_digits_le_iff {base : Nat} (base_gt : 1 < base) {k v : Nat} :
    (digits base v).length ≤ k ↔ v < base ^ k := by
  rw [digits_eq base_gt, List.length_reverse, Nat.digits_length_le_iff base_gt]

private theorem head?_digits_ne_zero {base : Nat} (base_gt : 1 < base) (v : Nat) :
    (digits base v).head? ≠ some 0 := by
  rw [digits_eq base_gt, List.head?_reverse]
  intro zero
  have nonempty : Nat.digits base v ≠ [] := by
    intro empty
    rw [empty] at zero
    cases zero
  rw [List.getLast?_eq_some_getLast nonempty, Option.some.injEq] at zero
  exact Nat.getLast_digit_ne_zero base (Nat.digits_ne_nil_iff_ne_zero.mp nonempty) zero

theorem ofDigits_eq (base : Nat) (ds : List Nat) :
    ofDigits base ds = Nat.ofDigits base ds.reverse := by
  induction ds using List.reverseRecOn with
  | nil => rfl
  | append_singleton ds d ih =>
      rw [ofDigits_append_singleton, ih, List.reverse_append, List.reverse_singleton,
        List.singleton_append, Nat.ofDigits_cons]
      ring

private theorem digits_ofDigits {base : Nat} (base_gt : 1 < base) {ds : List Nat}
    (small : ∀ d ∈ ds, d < base) (canonical : ds.head? ≠ some 0) :
    digits base (ofDigits base ds) = ds := by
  have small' : ∀ d ∈ ds.reverse, d < base := by
    intro d member
    exact small d (List.mem_reverse.mp member)
  have last : ∀ nonempty : ds.reverse ≠ [], ds.reverse.getLast nonempty ≠ 0 := by
    intro nonempty zero
    apply canonical
    rw [← List.getLast?_reverse, List.getLast?_eq_some_getLast nonempty, zero]
  rw [digits_eq base_gt, ofDigits_eq, Nat.digits_ofDigits base base_gt _ small' last,
    List.reverse_reverse]

/-- The digits in another base, after as many leading zeros. -/
def convert (base base' : Nat) (ds : List Nat) : List Nat :=
  List.replicate (ds.takeWhile (· == 0)).length 0 ++ digits base' (ofDigits base ds)

private theorem exists_replicate_zero (ds : List Nat) :
    ∃ k rest, ds = List.replicate k 0 ++ rest ∧ rest.head? ≠ some 0 := by
  induction ds with
  | nil => exact ⟨0, [], rfl, nofun⟩
  | cons d ds ih =>
      by_cases zero : d = 0
      · obtain ⟨k, rest, rfl, canonical⟩ := ih
        exact ⟨k + 1, rest, by rw [zero, List.replicate_succ, List.cons_append], canonical⟩
      · refine ⟨0, d :: ds, rfl, ?_⟩
        simpa using zero

private theorem ofDigits_replicate_zero_append (base k : Nat) (ds : List Nat) :
    ofDigits base (List.replicate k 0 ++ ds) = ofDigits base ds := by
  induction k with
  | zero => rfl
  | succ k ih =>
      have first : pushValue base 0 0 = 0 := by simp [pushValue]
      rw [List.replicate_succ, List.cons_append, ofDigits, List.foldl_cons, first]
      exact ih

private theorem convert_replicate_zero_append (base base' k : Nat) {ds : List Nat}
    (canonical : ds.head? ≠ some 0) :
    convert base base' (List.replicate k 0 ++ ds) =
      List.replicate k 0 ++ digits base' (ofDigits base ds) := by
  have stop : ds.takeWhile (· == 0) = [] := by
    cases ds with
    | nil => rfl
    | cons d ds =>
        apply List.takeWhile_cons_of_neg
        simpa using canonical
  have zeros : ∀ d ∈ List.replicate k 0, (d == 0) = true := by
    intro d member
    rw [List.eq_of_mem_replicate member]
    rfl
  rw [convert, ofDigits_replicate_zero_append, List.takeWhile_append_of_pos zeros, stop,
    List.append_nil, List.length_replicate]

/-- Digits in a base and back are the same digits, leading zeros included. -/
theorem convert_convert {base base' : Nat} (base_gt : 1 < base) (base'_gt : 1 < base')
    {ds : List Nat} (small : ∀ d ∈ ds, d < base) :
    convert base' base (convert base base' ds) = ds := by
  obtain ⟨k, rest, rfl, canonical⟩ := exists_replicate_zero ds
  have small_rest : ∀ d ∈ rest, d < base := by
    intro d member
    exact small d (List.mem_append_right _ member)
  rw [convert_replicate_zero_append base base' k canonical,
    convert_replicate_zero_append base' base k (head?_digits_ne_zero base'_gt _),
    ofDigits_digits base'_gt, digits_ofDigits base_gt small_rest canonical]

theorem lt_of_mem_convert {base base' : Nat} (base'_pos : 0 < base') {ds : List Nat} {d : Nat}
    (member : d ∈ convert base base' ds) : d < base' := by
  rcases List.mem_append.mp member with zero | digit
  · rw [List.eq_of_mem_replicate zero]
    exact base'_pos
  · exact lt_of_mem_digits base'_pos digit

/-! ### Decimal numerals -/

private theorem exists_decimal_eq (v : Nat) : ∃ ds, decimal v = ds.map decimalChar ∧ ds ≠ [] ∧
    (∀ d ∈ ds, d < 10) ∧ ofDigits 10 ds = v := by
  by_cases zero : v = 0
  · rw [decimal, if_pos zero, zero]
    exact ⟨[0], rfl, nofun, by simp, rfl⟩
  · have value := ofDigits_digits (by decide : 1 < 10) v
    refine ⟨digits 10 v, if_neg zero, ?_, fun d => lt_of_mem_digits (by decide), value⟩
    intro empty
    rw [empty] at value
    exact zero value.symm

private theorem decimalDigit?_eq_some_iff {c : Char} {d : Nat} :
    decimalDigit? c = some d ↔ c.isDigit = true ∧ c.toNat - '0'.toNat = d := by
  have zero : '0'.toNat = 48 := rfl
  have digit : c.isDigit = true ↔ 48 ≤ c.toNat ∧ c.toNat ≤ 57 := by
    simp [Char.isDigit, UInt32.le_iff_toNat_le]
  rw [decimalDigit?, digit, zero]
  split
  · rename_i digit
    rw [Option.some.injEq]
    exact (and_iff_right digit).symm
  · rename_i other
    exact iff_of_false nofun fun digit => other digit.1

/-- The text is a run of decimal digits, at least one, with this value.  Leading zeros are
allowed. -/
structure IsDecimal (cs : List Char) (v : Nat) : Prop where
  nonempty : cs ≠ []
  digits : ∀ c ∈ cs, c.isDigit = true
  value : Nat.ofDigits 10 (cs.reverse.map fun c => c.toNat - '0'.toNat) = v

private theorem decimalChar_spec {d : Nat} (small : d < 10) :
    (decimalChar d).isDigit = true ∧ (decimalChar d).toNat - '0'.toNat = d := by
  have digits : ∀ d < 10,
      (decimalChar d).isDigit = true ∧ (decimalChar d).toNat - '0'.toNat = d := by decide
  exact digits d small

theorem isDecimal_decimal (v : Nat) : IsDecimal (decimal v) v := by
  obtain ⟨ds, written, nonempty, small, value⟩ := exists_decimal_eq v
  rw [written]
  constructor
  · rwa [ne_eq, List.map_eq_nil_iff]
  · intro c member
    obtain ⟨d, inside, rfl⟩ := List.mem_map.mp member
    exact (decimalChar_spec (small d inside)).1
  · have digits : ∀ d ∈ ds, ((fun c => c.toNat - '0'.toNat) ∘ decimalChar) d = id d :=
      fun d inside => (decimalChar_spec (small d inside)).2
    rw [List.map_reverse, List.map_map, List.map_congr_left digits, List.map_id, ← ofDigits_eq,
      value]

private theorem mapM_decimalDigit?_eq_some_iff {cs : List Char} {ds : List Nat} :
    cs.mapM decimalDigit? = some ds ↔
      (∀ c ∈ cs, c.isDigit = true) ∧ cs.map (fun c => c.toNat - '0'.toNat) = ds := by
  induction cs generalizing ds with
  | nil =>
      rw [List.mapM_nil, List.map_nil, and_iff_right (List.forall_mem_nil _)]
      exact Option.some_inj
  | cons c cs ih =>
      rw [List.mapM_cons]
      constructor
      · intro read
        obtain ⟨d, first, read⟩ := Option.bind_eq_some_iff.mp read
        obtain ⟨ds', others, same⟩ := Option.bind_eq_some_iff.mp read
        cases same
        obtain ⟨digit, rfl⟩ := decimalDigit?_eq_some_iff.mp first
        obtain ⟨digits, rfl⟩ := ih.mp others
        exact ⟨List.forall_mem_cons.mpr ⟨digit, digits⟩, rfl⟩
      · rintro ⟨digits, rfl⟩
        obtain ⟨digit, digits⟩ := List.forall_mem_cons.mp digits
        rw [decimalDigit?_eq_some_iff.mpr ⟨digit, rfl⟩, ih.mpr ⟨digits, rfl⟩]
        rfl

theorem ofDecimalBelow?_eq_some_iff {bound : Nat} (bound_pos : 0 < bound) {cs : List Char}
    {v : Nat} : ofDecimalBelow? bound cs = some v ↔ IsDecimal cs v ∧ v < bound := by
  rw [ofDecimalBelow?]
  split
  · rename_i empty
    exact iff_of_false nofun fun decimal => decimal.1.nonempty (List.isEmpty_iff.mp empty)
  · rename_i some_digit
    have nonempty : cs ≠ [] := mt List.isEmpty_iff.mpr some_digit
    constructor
    · intro read
      obtain ⟨ds, found, below⟩ := Option.bind_eq_some_iff.mp read
      obtain ⟨digits, rfl⟩ := mapM_decimalDigit?_eq_some_iff.mp found
      rw [ofDigitsBelow?_eq (by decide) bound_pos, ofDigits_eq, ← List.map_reverse] at below
      split at below
      · rename_i small
        cases below
        exact ⟨⟨nonempty, digits, rfl⟩, small⟩
      · cases below
    · rintro ⟨⟨-, digits, rfl⟩, small⟩
      rw [mapM_decimalDigit?_eq_some_iff.mpr ⟨digits, rfl⟩, Option.bind_some,
        ofDigitsBelow?_eq (by decide) bound_pos, ofDigits_eq, ← List.map_reverse, if_pos small]

private theorem decimal_of_lt {v : Nat} (small : v < 10) : decimal v = [Nat.digitChar v] := by
  have numerals : ∀ v < 10, decimal v = [Nat.digitChar v] := by decide
  exact numerals v small

private theorem decimal_of_le {v : Nat} (large : 10 ≤ v) :
    decimal v = decimal (v / 10) ++ [Nat.digitChar (v % 10)] := by
  have positive : 0 < v / 10 := Nat.div_pos large (by decide)
  have last : [Nat.digitChar (v % 10)] = [v % 10].map decimalChar := by
    have chars : ∀ d < 10, [Nat.digitChar d] = [d].map decimalChar := by decide
    exact chars (v % 10) (Nat.mod_lt v (by decide))
  rw [decimal, if_neg (by omega), decimal, if_neg (by omega), last, ← List.map_append,
    ← digits_of_pos (by decide) (by omega)]

theorem decimal_eq_toDigits (v : Nat) : decimal v = Nat.toDigits 10 v := by
  induction v using Nat.strongRecOn with
  | ind v ih =>
      by_cases small : v < 10
      · rw [decimal_of_lt small, Nat.toDigits_of_lt_base small]
      · have large : 10 ≤ v := by omega
        rw [decimal_of_le large, Nat.toDigits_of_base_le (by decide) large, ih (v / 10) (by omega)]

end Numeral

namespace Bytes

theorem length_ofNat_le_iff {k v : Nat} : (ofNat v).length ≤ k ↔ v < 256 ^ k := by
  rw [ofNat, List.length_map, Numeral.length_digits_le_iff (by decide)]

theorem head?_ofNat_ne_zero (v : Nat) : (ofNat v).head? ≠ some 0 := by
  rw [ofNat, List.head?_map]
  intro zero
  obtain ⟨d, head, byte⟩ := Option.map_eq_some_iff.mp zero
  have small : d < 256 := Numeral.lt_of_mem_digits (by decide) (List.mem_of_mem_head? head)
  have value := congrArg UInt8.toNat byte
  rw [UInt8.toNat_ofNat_of_lt' small] at value
  obtain rfl : d = 0 := value
  exact Numeral.head?_digits_ne_zero (by decide) v head

theorem ofNat_eq_nil_iff {v : Nat} : ofNat v = [] ↔ v = 0 := by
  rw [← List.length_eq_zero_iff, ← Nat.le_zero, length_ofNat_le_iff, pow_zero, Nat.lt_one_iff]

theorem ofNat_bigEndianValue {bs : Bytes} (canonical : bs.head? ≠ some 0) :
    ofNat (bigEndianValue bs) = bs := by
  have small : ∀ d ∈ bs.map UInt8.toNat, d < 256 := by
    intro d member
    obtain ⟨b, -, rfl⟩ := List.mem_map.mp member
    exact b.toNat_lt
  have first : (bs.map UInt8.toNat).head? ≠ some 0 := by
    rw [List.head?_map]
    intro zero
    obtain ⟨b, head, value⟩ := Option.map_eq_some_iff.mp zero
    obtain rfl : b = 0 := UInt8.toNat_inj.mp value
    exact canonical head
  rw [ofNat, bigEndianValue, Numeral.digits_ofDigits (by decide) small first, List.map_map]
  conv => rhs; rw [← List.map_id bs]
  apply List.map_congr_left
  intro b _
  exact UInt8.ofNat_toNat

end Bytes

end KeyTree
