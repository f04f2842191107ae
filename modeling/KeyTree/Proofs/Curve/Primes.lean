import KeyTree.Curve.Point
import KeyTree.Proofs.Curve.ResidueField
import Mathlib.NumberTheory.LucasPrimality
import Mathlib.Tactic.NormNum.Prime
/-!
The field prime and the order are prime.

A row of a certificate names a number, a base, and the prime factors of the number less one; the
base has to have that order.  The factors are small primes or stand in earlier rows.  The powers
of the base are computed by `Residue.pow`, as those for inverses are.
-/

set_option autoImplicit false
set_option relaxedAutoImplicit false

namespace KeyTree.Curve

/-- A number, a base of the order one less, and the prime factors of that order with
repetitions. -/
structure LucasRow where
  number : Nat
  base : Nat
  factors : List Nat

namespace LucasRow

def power (row : LucasRow) [Modulus row.number] (e : Nat) : Residue row.number :=
  (Residue.ofNat row.number row.base).pow e

/-- The factors are known primes, their product is one less than the number, and the base has
that order. -/
def passes (known : List Nat) (row : LucasRow) : Bool :=
  if positive : 0 < row.number then
    have : Modulus row.number := ⟨positive⟩
    let order := row.number - 1
    row.factors.all (known.contains ·) && row.factors.prod == order && row.power order == 1 &&
      row.factors.all fun q => row.power (order / q) != 1
  else false

private theorem toZMod_power (row : LucasRow) [Modulus row.number] (e : Nat) :
    (row.power e).toZMod = (row.base : ZMod row.number) ^ e := by
  rw [power, Residue.toZMod_pow, Residue.toZMod_ofNat]

private theorem prime_of_passes {known : List Nat} {row : LucasRow} (primes : ∀ q ∈ known, q.Prime)
    (passed : row.passes known = true) : row.number.Prime := by
  unfold passes at passed
  split at passed
  · rename_i positive
    have : Modulus row.number := ⟨positive⟩
    simp only [Bool.and_eq_true, List.all_eq_true, List.contains_iff_mem, beq_iff_eq,
      bne_iff_ne] at passed
    obtain ⟨⟨⟨listed, product⟩, full⟩, partial_ne⟩ := passed
    apply lucas_primality row.number (row.base : ZMod row.number)
    · rw [← toZMod_power, full, Residue.toZMod_one]
    · intro q prime divides
      -- a prime divisor of the product of the factors is one of them
      rw [← product] at divides
      obtain ⟨f, member, dvd⟩ := (Prime.dvd_prod_iff prime.prime).mp divides
      obtain rfl : q = f := (Nat.prime_dvd_prime_iff_eq prime (primes f (listed f member))).mp dvd
      rw [← toZMod_power, ← Residue.toZMod_one, Ne, Residue.toZMod_inj]
      exact partial_ne q member
  · cases passed

/-- Each row passes when the numbers of the rows before it count as known primes. -/
def allPass (known : List Nat) : List LucasRow → Bool
  | [] => true
  | row :: rows => row.passes known && allPass (row.number :: known) rows

private theorem prime_of_allPass {known : List Nat} {rows : List LucasRow}
    (primes : ∀ q ∈ known, q.Prime) (passed : allPass known rows = true) :
    ∀ row ∈ rows, row.number.Prime := by
  induction rows generalizing known with
  | nil => simp
  | cons row rows ih =>
      rw [allPass, Bool.and_eq_true] at passed
      have prime := prime_of_passes primes passed.1
      have known_primes : ∀ q ∈ row.number :: known, q.Prime :=
        List.forall_mem_cons.mpr ⟨prime, primes⟩
      exact List.forall_mem_cons.mpr ⟨prime, ih known_primes passed.2⟩

end LucasRow

def smallPrimes : List Nat :=
  [2, 3, 5, 7, 11, 17, 29, 31, 41, 53, 59, 97, 109, 149, 293, 461, 631, 797, 971, 1373, 1627,
    1871, 2011, 2621, 2657, 4051, 4423, 5323, 7723, 9349, 13441, 16699, 20113, 24809, 28181,
    41201, 85831, 96557, 120233, 305873]

private theorem prime_of_mem_smallPrimes : ∀ q ∈ smallPrimes, q.Prime := by
  norm_num [smallPrimes]

private theorem prime_of_certified (rows : List LucasRow)
    (passed : LucasRow.allPass smallPrimes rows = true) {p : Nat}
    (member : p ∈ rows.map LucasRow.number) : p.Prime := by
  obtain ⟨row, row_mem, rfl⟩ := List.mem_map.mp member
  exact LucasRow.prime_of_allPass prime_of_mem_smallPrimes passed row row_mem

def fieldPrimeRows : List LucasRow := [
    ⟨13331831, 13, [2, 5, 971, 1373]⟩,
    ⟨173378833005251801, 6, [2, 2, 2, 5, 5, 2621, 24809, 13331831]⟩,
    ⟨22149492674086928081353, 5, [2, 2, 2, 3, 5323, 173378833005251801]⟩,
    ⟨132896956044521568488119, 6, [2, 3, 22149492674086928081353]⟩,
    ⟨1206781, 10, [2, 2, 3, 5, 20113]⟩,
    ⟨7240687, 3, [2, 3, 1206781]⟩,
    ⟨107590001, 3, [2, 2, 2, 2, 5, 5, 5, 5, 7, 29, 53]⟩,
    ⟨255515944373312847190720520512484175977, 3, [2, 2, 2, 7, 7, 11, 1627, 2657, 4423,
      41201, 96557, 7240687, 107590001]⟩,
    ⟨205115282021455665897114700593932402728804164701536103180137503955397371, 10, [2, 3, 5,
      29, 29, 31, 7723, 132896956044521568488119, 255515944373312847190720520512484175977]⟩,
    ⟨fieldPrime, 3, [2, 3, 7, 13441,
      205115282021455665897114700593932402728804164701536103180137503955397371]⟩]

private theorem prime_fieldPrime : fieldPrime.Prime :=
  prime_of_certified fieldPrimeRows (by decide +kernel) (by simp [fieldPrimeRows])

def orderRows : List LucasRow := [
    ⟨4681609, 23, [2, 2, 2, 3, 97, 2011]⟩,
    ⟨107361793816595537, 3, [2, 2, 2, 2, 16699, 85831, 4681609]⟩,
    ⟨44706919, 6, [2, 3, 797, 9349]⟩,
    ⟨174723607534414371449, 3, [2, 2, 2, 17, 59, 4051, 120233, 44706919]⟩,
    ⟨545358713, 5, [2, 2, 2, 41, 59, 28181]⟩,
    ⟨1627771, 3, [2, 3, 5, 29, 1871]⟩,
    ⟨297159362677, 2, [2, 2, 3, 3, 11, 461, 1627771]⟩,
    ⟨29047611873442575647497758179, 2, [2, 293, 305873, 545358713, 297159362677]⟩,
    ⟨341948486974166000522343609283189, 2, [2, 2, 3, 3, 3, 109,
      29047611873442575647497758179]⟩,
    ⟨order, 7, [2, 2, 2, 2, 2, 2, 3, 149, 631, 107361793816595537, 174723607534414371449,
      341948486974166000522343609283189]⟩]

private theorem prime_order : order.Prime :=
  prime_of_certified orderRows (by decide +kernel) (by simp [orderRows])

instance : Fact fieldPrime.Prime := ⟨prime_fieldPrime⟩

instance : Fact order.Prime := ⟨prime_order⟩

instance : NeZero fieldPrime := ⟨by decide⟩

instance : Fact (2 < fieldPrime) := ⟨by decide⟩

instance : Fact (2 < order) := ⟨by decide⟩

end KeyTree.Curve
