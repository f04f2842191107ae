import KeyTree.Curve.Residue
import Mathlib.FieldTheory.Finite.Basic
import Mathlib.Tactic.NormNum
/-!
Residues as elements of `ZMod m`.

`toZMod` is a bijection that takes each operation on residues to the one on `ZMod m`; inverses and
quotients for an odd prime `m`.  A calculation with residues is done on the other side, by `ring`
or `field_simp`, and brought back by `toZMod_injective`.

`mul_self_of_sqrt?` and `exists_sqrt?_mul_self` say that `sqrt?` finds a root exactly if there is
one.
-/

set_option autoImplicit false
set_option relaxedAutoImplicit false

namespace KeyTree.Residue

variable {m : Nat}

/-- The residue as an element of the ring of the numbers modulo `m`. -/
def toZMod (a : Residue m) : ZMod m :=
  (a.val : ZMod m)

private theorem val_toZMod (a : Residue m) : a.toZMod.val = a.val :=
  ZMod.val_natCast_of_lt a.val_lt

theorem toZMod_injective : Function.Injective (toZMod (m := m)) := by
  intro a b equal
  apply ext
  rw [← val_toZMod a, equal, val_toZMod]

@[simp]
theorem toZMod_inj {a b : Residue m} : a.toZMod = b.toZMod ↔ a = b :=
  toZMod_injective.eq_iff

def ofZMod [NeZero m] (z : ZMod m) : Residue m :=
  ⟨z.val, z.val_lt⟩

@[simp]
theorem toZMod_ofZMod [NeZero m] (z : ZMod m) : (ofZMod z).toZMod = z :=
  ZMod.natCast_zmod_val z

@[simp]
theorem ofZMod_toZMod [NeZero m] (a : Residue m) : ofZMod a.toZMod = a :=
  toZMod_injective (toZMod_ofZMod a.toZMod)

@[simp]
theorem toZMod_ofNat [Modulus m] (v : Nat) : (ofNat m v).toZMod = v :=
  ZMod.natCast_mod v m

@[simp]
theorem toZMod_zero [Modulus m] : (0 : Residue m).toZMod = 0 :=
  (toZMod_ofNat 0).trans Nat.cast_zero

@[simp]
theorem toZMod_one [Modulus m] : (1 : Residue m).toZMod = 1 :=
  (toZMod_ofNat 1).trans Nat.cast_one

@[simp]
theorem toZMod_numeral [Modulus m] (k : Nat) [k.AtLeastTwo] :
    (ofNat(k) : Residue m).toZMod = ofNat(k) :=
  toZMod_ofNat k

@[simp]
theorem toZMod_add (a b : Residue m) : (a + b).toZMod = a.toZMod + b.toZMod := by
  rw [toZMod, val_add, ZMod.natCast_mod, Nat.cast_add, toZMod, toZMod]

@[simp]
theorem toZMod_mul (a b : Residue m) : (a * b).toZMod = a.toZMod * b.toZMod := by
  rw [toZMod, val_mul, ZMod.natCast_mod, Nat.cast_mul, toZMod, toZMod]

@[simp]
theorem toZMod_neg (a : Residue m) : (-a).toZMod = -a.toZMod := by
  rw [toZMod, val_neg, ZMod.natCast_mod, Nat.cast_sub a.val_lt.le, ZMod.natCast_self, zero_sub,
    toZMod]

@[simp]
theorem toZMod_sub (a b : Residue m) : (a - b).toZMod = a.toZMod - b.toZMod := by
  rw [toZMod, val_sub, ZMod.natCast_mod, Nat.cast_add, Nat.cast_sub b.val_lt.le,
    ZMod.natCast_self, zero_sub, ← sub_eq_add_neg, toZMod, toZMod]

@[simp]
theorem toZMod_eq_zero [Modulus m] {a : Residue m} : a.toZMod = 0 ↔ a = 0 := by
  rw [← toZMod_zero, toZMod_inj]

theorem val_pos_iff [Modulus m] {a : Residue m} : 0 < a.val ↔ a ≠ 0 := by
  rw [Nat.pos_iff_ne_zero, ne_eq, ne_eq, Residue.ext_iff, val_zero]

theorem add_eq_zero_iff [Modulus m] {a b : Residue m} (nonzero : a ≠ 0) :
    a + b = 0 ↔ a.val + b.val = m := by
  have positive := val_pos_iff.mpr nonzero
  have a_lt := a.val_lt
  have b_lt := b.val_lt
  rw [Residue.ext_iff, val_add, val_zero]
  constructor
  · intro divides
    by_contra other
    rcases Nat.lt_or_gt_of_ne other with less | more
    · rw [Nat.mod_eq_of_lt less] at divides
      omega
    · rw [Nat.mod_eq_sub_mod more.le, Nat.mod_eq_of_lt (by omega)] at divides
      omega
  · intro full
    rw [full, Nat.mod_self]

private theorem toZMod_powBits [Modulus m] (a : Residue m) (width e : Nat) (fits : e < 2 ^ width) :
    (powBits a width e).toZMod = a.toZMod ^ e := by
  induction width generalizing e with
  | zero =>
      obtain rfl : e = 0 := by simpa using fits
      exact toZMod_one.trans (pow_zero _).symm
  | succ width ih =>
      have half := ih (e / 2) (by rw [pow_succ] at fits; omega)
      have split := Nat.div_add_mod e 2
      simp only [powBits]
      split
      · rename_i odd
        rw [odd] at split
        rw [toZMod_mul, toZMod_mul, half, ← pow_add, ← pow_succ]
        congr 1
        omega
      · rename_i even
        rw [toZMod_mul, half, ← pow_add]
        congr 1
        omega

@[simp]
theorem toZMod_pow [Modulus m] (a : Residue m) (e : Nat) : (pow a e).toZMod = a.toZMod ^ e :=
  toZMod_powBits a _ e Nat.lt_log2_self

theorem mul_self_of_sqrt? [Modulus m] {a root : Residue m} (found : a.sqrt? = some root) :
    root * root = a := by
  rw [sqrt?] at found
  split at found
  · rename_i squares
    cases found
    exact squares
  · cases found

/-- The power that is tried as a root of a square is one, if the modulus leaves three by four. -/
theorem pow_mul_pow_of_square [Fact m.Prime] (modulus_mod : m % 4 = 3) (b : ZMod m) :
    (b * b) ^ ((m + 1) / 4) * (b * b) ^ ((m + 1) / 4) = b * b := by
  by_cases zero : b = 0
  · rw [zero, mul_zero, zero_pow (by omega), mul_zero]
  · have exponent : 2 * ((m + 1) / 4 + (m + 1) / 4) = m - 1 + 2 := by omega
    rw [← pow_add, ← pow_two, ← pow_mul, exponent, pow_add,
      ZMod.pow_card_sub_one_eq_one zero, one_mul]

theorem exists_sqrt?_mul_self [Modulus m] [Fact m.Prime] (modulus_mod : m % 4 = 3) (b : Residue m) :
    ∃ root, (b * b).sqrt? = some root := by
  refine ⟨pow (b * b) ((m + 1) / 4), if_pos ?_⟩
  apply toZMod_injective
  rw [toZMod_mul, toZMod_pow, toZMod_mul]
  exact pow_mul_pow_of_square modulus_mod b.toZMod

section Prime

variable [Modulus m] [Fact m.Prime] [Fact (2 < m)]

@[simp]
theorem toZMod_inverse (a : Residue m) : a.inverse.toZMod = a.toZMod⁻¹ := by
  have two_lt : 2 < m := Fact.out
  rw [inverse, toZMod_pow]
  by_cases zero : a.toZMod = 0
  · rw [zero, zero_pow (by omega), inv_zero]
  · apply eq_inv_of_mul_eq_one_left
    rw [← pow_succ, show m - 2 + 1 = m - 1 by omega]
    exact ZMod.pow_card_sub_one_eq_one zero

@[simp]
theorem toZMod_div (a b : Residue m) : (a / b).toZMod = a.toZMod / b.toZMod := by
  have quotient : a / b = a * b.inverse := rfl
  rw [quotient, toZMod_mul, toZMod_inverse, div_eq_mul_inv]

theorem isOdd_neg {a : Residue m} (nonzero : a ≠ 0) : (-a).isOdd = !a.isOdd := by
  have two_lt : 2 < m := Fact.out
  have odd : m % 2 = 1 := (Fact.out : m.Prime).eq_two_or_odd.resolve_left (by omega)
  have bound := a.val_lt
  rw [isOdd, isOdd, val_neg_of_ne_zero nonzero, Bool.eq_not]
  rcases Nat.mod_two_eq_zero_or_one a.val with even | odd'
  · rw [even, show (m - a.val) % 2 = 1 by omega]
    decide
  · rw [odd', show (m - a.val) % 2 = 0 by omega]
    decide

end Prime

end KeyTree.Residue
