import KeyTree.Proofs.Except
import KeyTree.Proofs.Numeral
import KeyTree.Proofs.Text.Blank
import KeyTree.Proofs.Text.Split
import Mathlib.Data.Nat.Bitwise
/-!
The texts that are read as paths.

A path is spelled by `m` and its steps, with white space around them (`Spells`), and a step by a
number with an optional plus sign before it and an optional mark after it (`SpellsStep`).  The
reader takes these texts and no others (`parse_eq_ok_iff`).
-/

set_option autoImplicit false
set_option relaxedAutoImplicit false

namespace KeyTree

/-! ### Hardened indexes -/

theorem isHardened_iff {index : UInt32} : isHardened index = true ↔ 0x80000000 ≤ index.toNat := by
  have small := index.toNat_lt
  have top : (index &&& hardenedBit).toNat = (index.toNat.testBit 31).toNat * 2 ^ 31 :=
    (UInt32.toNat_and index hardenedBit).trans (Nat.and_two_pow index.toNat 31)
  have bit : index.toNat.testBit 31 = decide (0x80000000 ≤ index.toNat) := by
    rw [Nat.testBit_eq_decide_div_mod_eq, decide_eq_decide]
    omega
  rw [isHardened, bne_iff_ne, ne_eq, ← UInt32.toNat_inj, top, bit]
  by_cases upper : 0x80000000 ≤ index.toNat <;> simp [upper]

theorem toNat_offset {index : UInt32} (hardened : isHardened index = true) :
    (index &&& ~~~hardenedBit).toNat = index.toNat - 0x80000000 := by
  have small := index.toNat_lt
  have upper := isHardened_iff.mp hardened
  have low : (index &&& ~~~hardenedBit).toNat = index.toNat % 2 ^ 31 :=
    (UInt32.toNat_and index _).trans (Nat.and_two_pow_sub_one_eq_mod index.toNat 31)
  rw [low]
  omega

private theorem toNat_or_hardenedBit {v : Nat} (small : v < 0x80000000) :
    (UInt32.ofNat v ||| hardenedBit).toNat = v + 0x80000000 := by
  have joined := Nat.two_pow_add_eq_or_of_lt (by omega : v < 2 ^ 31) 1
  have offset : (UInt32.ofNat v).toNat = v :=
    UInt32.toNat_ofNat_of_lt' (Nat.lt_trans small (by decide))
  have mark : hardenedBit.toNat = 2 ^ 31 * 1 := rfl
  rw [UInt32.toNat_or, offset, mark, Nat.or_comm, ← joined]
  omega

namespace Text

private theorem signedNumber?_eq_some_iff {bound : Nat} (bound_pos : 0 < bound) {cs : List Char}
    {v : Nat} : signedNumber? bound cs = some v ↔ ∃ plus digits, (plus = [] ∨ plus = ['+']) ∧
      cs = plus ++ digits ∧ Numeral.IsDecimal digits v ∧ v < bound := by
  have unsigned {digits : List Char} (decimal : Numeral.IsDecimal ('+' :: digits) v) : False := by
    cases decimal.digits '+' List.mem_cons_self
  unfold signedNumber?
  split
  · rename_i digits
    rw [Numeral.ofDecimalBelow?_eq_some_iff bound_pos]
    constructor
    · rintro ⟨decimal, small⟩
      exact ⟨['+'], digits, .inr rfl, rfl, decimal, small⟩
    · rintro ⟨plus, digits', rfl | rfl, same, decimal, small⟩
      · obtain rfl : '+' :: digits = digits' := same
        exact (unsigned decimal).elim
      · cases same
        exact ⟨decimal, small⟩
  · rename_i no_sign
    rw [Numeral.ofDecimalBelow?_eq_some_iff bound_pos]
    constructor
    · rintro ⟨decimal, small⟩
      exact ⟨[], cs, .inl rfl, rfl, decimal, small⟩
    · rintro ⟨plus, digits, rfl | rfl, rfl, decimal, small⟩
      · exact ⟨decimal, small⟩
      · exact absurd rfl (no_sign digits)

end Text

namespace Path

/-! ### Steps -/

/-- What may stand after the number of a step, with what it adds to the number. -/
inductive Mark : List Char → Nat → Prop where
  | none : Mark [] 0
  | hardened {c : Char} : c = '\x27' ∨ c = 'h' ∨ c = 'H' → Mark [c] 0x80000000

/-- A step is spelled by a number in the lower half, with at most one plus sign before it and at
most one mark after it. -/
inductive SpellsStep : List Char → UInt32 → Prop where
  | step {plus digits mark : List Char} {v offset : Nat} {index : UInt32} :
      plus = [] ∨ plus = ['+'] → Numeral.IsDecimal digits v → v < 0x80000000 →
        Mark mark offset → index.toNat = v + offset → SpellsStep (plus ++ (digits ++ mark)) index

private theorem isMark_iff {c : Char} : isMark c = true ↔ c = '\x27' ∨ c = 'h' ∨ c = 'H' := by
  simp only [isMark, Bool.or_eq_true, beq_iff_eq, or_assoc]

private theorem isMark_of_isDigit {c : Char} (digit : c.isDigit = true) : isMark c = false := by
  rw [Bool.eq_false_iff, ne_eq, isMark_iff]
  rintro (rfl | rfl | rfl) <;> cases digit

private theorem splitMark_append {c : Char} (mark : isMark c = true) (digits : List Char) :
    splitMark (digits ++ [c]) = (digits, true) := by
  simp only [splitMark, List.getLast?_concat, List.dropLast_concat, mark, if_true]

private theorem splitMark_of_unmarked {part : List Char} (unmarked : ∀ c ∈ part, isMark c = false) :
    splitMark part = (part, false) := by
  rw [splitMark]
  split
  · rename_i c last
    rw [unmarked c (List.mem_of_getLast? last)]
    rfl
  · rfl

private theorem exists_mark_of_splitMark {part digits : List Char} {marked : Bool}
    (cut : splitMark part = (digits, marked)) :
    ∃ mark, part = digits ++ mark ∧ Mark mark (if marked then 0x80000000 else 0) := by
  have unmarked (same : (part, false) = (digits, marked)) :
      ∃ mark, part = digits ++ mark ∧ Mark mark (if marked then 0x80000000 else 0) := by
    cases same
    exact ⟨[], (List.append_nil part).symm, .none⟩
  rw [splitMark] at cut
  split at cut
  · rename_i c last
    split at cut
    · rename_i mark
      cases cut
      exact ⟨[c], (List.dropLast_append_getLast? c last).symm, .hardened (isMark_iff.mp mark)⟩
    · exact unmarked cut
  · exact unmarked cut

private theorem readStep_of_splitMark {part digits : List Char} {marked : Bool} {index : UInt32}
    (cut : splitMark part = (digits, marked)) :
    readStep part = .ok index ↔ ∃ v, Text.signedNumber? stepBound digits = some v ∧
      v < 0x80000000 ∧ index.toNat = v + (if marked then 0x80000000 else 0) := by
  have value {v : Nat} (small : v < 0x80000000) :
      (if marked then UInt32.ofNat v ||| hardenedBit else UInt32.ofNat v) = index ↔
        index.toNat = v + (if marked then 0x80000000 else 0) := by
    rw [eq_comm, ← UInt32.toNat_inj]
    cases marked with
    | true => simp only [if_true, toNat_or_hardenedBit small]
    | false =>
        have offset : (UInt32.ofNat v).toNat = v :=
          UInt32.toNat_ofNat_of_lt' (Nat.lt_trans small (by decide))
        simp [offset]
  rw [readStep, cut]
  simp only
  cases Text.signedNumber? stepBound digits with
  | none => simp
  | some v =>
      by_cases large : 0x80000000 ≤ v
      · simp [large]
      · simp [large, Nat.lt_of_not_le large, value (Nat.lt_of_not_le large)]

private theorem readStep_eq_ok_iff {part : List Char} {index : UInt32} :
    readStep part = .ok index ↔ SpellsStep part index := by
  have bound_pos : 0 < stepBound := by decide
  constructor
  · intro read
    obtain ⟨digits, marked, cut⟩ : ∃ digits marked, splitMark part = (digits, marked) :=
      ⟨_, _, rfl⟩
    obtain ⟨v, number, small, value⟩ := (readStep_of_splitMark cut).mp read
    obtain ⟨mark, rfl, marks⟩ := exists_mark_of_splitMark cut
    obtain ⟨plus, digits, sign, rfl, decimal, -⟩ :=
      (Text.signedNumber?_eq_some_iff bound_pos).mp number
    rw [List.append_assoc]
    exact .step sign decimal small marks value
  · rintro ⟨sign, decimal, small, marks, value⟩
    rename_i plus digits mark v offset
    have number : Text.signedNumber? stepBound (plus ++ digits) = some v :=
      (Text.signedNumber?_eq_some_iff bound_pos).mpr
        ⟨plus, digits, sign, rfl, decimal, Nat.lt_trans small (by decide)⟩
    cases marks with
    | hardened mark =>
        rw [← List.append_assoc]
        exact (readStep_of_splitMark (splitMark_append (isMark_iff.mpr mark) _)).mpr
          ⟨v, number, small, value⟩
    | none =>
        have unmarked : ∀ c ∈ plus ++ digits, isMark c = false := by
          intro c member
          rcases List.mem_append.mp member with signed | digit
          · rcases sign with rfl | rfl
            · cases signed
            · rw [List.mem_singleton.mp signed]
              rfl
          · exact isMark_of_isDigit (decimal.digits c digit)
        rw [List.append_nil]
        exact (readStep_of_splitMark (splitMark_of_unmarked unmarked)).mpr
          ⟨v, number, small, value⟩

private theorem readSteps_eq_ok_iff {parts : List (List Char)} {indexes : List UInt32} :
    readSteps parts = .ok indexes ↔ List.Forall₂ SpellsStep parts indexes := by
  induction parts generalizing indexes with
  | nil =>
      rw [List.forall₂_nil_left_iff, readSteps, Except.ok.injEq]
      exact eq_comm
  | cons part parts ih =>
      rw [List.forall₂_cons_left_iff, readSteps, bind_eq_ok_iff]
      constructor
      · rintro ⟨index, read, rest⟩
        obtain ⟨indexes, reads, same⟩ := bind_eq_ok_iff.mp rest
        cases same
        exact ⟨index, indexes, readStep_eq_ok_iff.mp read, ih.mp reads, rfl⟩
      · rintro ⟨index, indexes, step, steps, rfl⟩
        refine ⟨index, readStep_eq_ok_iff.mpr step, ?_⟩
        rw [ih.mpr steps]
        rfl

/-! ### Texts -/

/-- The text is `m` and the steps of the path in order, each after a stroke, with white space around
all of it. -/
def Spells (s : String) (p : Path) : Prop :=
  ∃ parts, List.Forall₂ SpellsStep parts p.indexes ∧
    Text.Padded s.toList ('m' :: parts.flatMap ('/' :: ·))

private theorem SpellsStep.mem {part : List Char} {index : UInt32} (spells : SpellsStep part index)
    {c : Char} (member : c ∈ part) : Text.isBlank c = false ∧ c ≠ '/' := by
  obtain ⟨sign, decimal, -, marks, -⟩ := spells
  rename_i plus digits mark v offset
  rcases List.mem_append.mp member with signed | member
  · rcases sign with rfl | rfl
    · cases signed
    · rw [List.mem_singleton.mp signed]
      exact ⟨rfl, by decide⟩
  rcases List.mem_append.mp member with digit | marked
  · have digit := decimal.digits c digit
    have bounds : 48 ≤ c.toNat ∧ c.toNat ≤ 57 := by
      simpa [Char.isDigit, UInt32.le_iff_toNat_le] using digit
    refine ⟨Text.isBlank_of_visible (by omega) (by omega), ?_⟩
    rintro rfl
    cases digit
  · cases marks with
    | none => cases marked
    | hardened mark =>
        rw [List.mem_singleton.mp marked]
        rcases mark with rfl | rfl | rfl
        · exact ⟨rfl, by decide⟩
        · exact ⟨rfl, by decide⟩
        · exact ⟨rfl, by decide⟩

variable {parts : List (List Char)} {indexes : List UInt32}

private theorem exists_spellsStep_of_mem (steps : List.Forall₂ SpellsStep parts indexes)
    {part : List Char} (member : part ∈ parts) : ∃ index, SpellsStep part index := by
  induction steps with
  | nil => cases member
  | cons step _ ih =>
      rcases List.mem_cons.mp member with rfl | member
      · exact ⟨_, step⟩
      · exact ih member

private theorem solid_of_steps (steps : List.Forall₂ SpellsStep parts indexes) :
    Text.Solid ('m' :: parts.flatMap ('/' :: ·)) := by
  refine List.forall_mem_cons.mpr ⟨rfl, fun c member => ?_⟩
  obtain ⟨part, inside, member⟩ := List.mem_flatMap.mp member
  obtain ⟨index, step⟩ := exists_spellsStep_of_mem steps inside
  rcases List.mem_cons.mp member with rfl | member
  · rfl
  · exact (step.mem member).1

private theorem split_of_steps (steps : List.Forall₂ SpellsStep parts indexes) :
    Text.split '/' ('m' :: parts.flatMap ('/' :: ·)) = ['m'] :: parts := by
  refine Text.split_eq_cons_iff.mpr ⟨List.forall_mem_cons.mpr ⟨by decide, ?_⟩, rfl⟩
  intro part inside member
  obtain ⟨index, step⟩ := exists_spellsStep_of_mem steps inside
  exact (step.mem member).2 rfl

theorem parse_eq_ok_iff {s : String} {p : Path} : parse s = .ok p ↔ Spells s p := by
  rw [parse]
  constructor
  · intro read
    split at read
    · rename_i parts cut
      obtain ⟨indexes, reads, rfl⟩ := map_eq_ok_iff.mp read
      refine ⟨parts, readSteps_eq_ok_iff.mp reads, ?_⟩
      have joined : Text.trim s.toList = 'm' :: parts.flatMap ('/' :: ·) :=
        (Text.split_eq_cons_iff.mp cut).2
      rw [← joined]
      exact Text.padded_trim s.toList
    · cases read
  · rintro ⟨parts, steps, padded⟩
    rw [(Text.trim_eq_iff (solid_of_steps steps)).mpr padded, split_of_steps steps]
    exact map_eq_ok_iff.mpr ⟨p.indexes, readSteps_eq_ok_iff.mpr steps, rfl⟩

/-- The texts that spell a path are read as this path, and all other texts are refused. -/
theorem parse_exact (s : String) :
    (∀ p, parse s = .ok p ↔ Spells s p) ∧
      ((∃ fault, parse s = .error fault) ↔ ¬ ∃ p, Spells s p) := by
  refine ⟨fun p => parse_eq_ok_iff, ?_⟩
  simp only [← parse_eq_ok_iff]
  cases parse s with
  | error fault => simp
  | ok p => simp

example : ∀ s ∈ ["", "M/1", "m/", "m//1", "m/1 /2", "m/-1", "m/++1", "m/1''", "m/2147483648",
    "m/99999999999999999999h"], (parse s).toBool = false := by
  decide +kernel

end Path

end KeyTree
