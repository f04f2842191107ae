import KeyTree.Bytes
/-!
Numbers modulo `m`: addition, multiplication, and, for a prime `m`, inverses by powers.
-/

set_option autoImplicit false
set_option relaxedAutoImplicit false

namespace KeyTree

/-- Something can be calculated modulo `m`: there is a number below it. -/
class Modulus (m : Nat) : Prop where
  pos : 0 < m

/-- A number below `m`, calculated with modulo `m`. -/
structure Residue (m : Nat) where
  val : Nat
  val_lt : val < m
deriving DecidableEq

namespace Residue

variable {m : Nat}

private theorem modulus_pos (a : Residue m) : 0 < m :=
  Nat.lt_of_le_of_lt (Nat.zero_le _) a.val_lt

@[ext]
theorem ext {a b : Residue m} (h : a.val = b.val) : a = b := by
  cases a
  cases b
  cases h
  rfl

def ofNat (m : Nat) [Modulus m] (v : Nat) : Residue m :=
  ⟨v % m, Nat.mod_lt _ Modulus.pos⟩

def ofNat? (m v : Nat) : Option (Residue m) :=
  if h : v < m then some ⟨v, h⟩ else none

instance [Modulus m] (k : Nat) : OfNat (Residue m) k := ⟨ofNat m k⟩

instance [Modulus m] : Inhabited (Residue m) := ⟨0⟩

instance : Add (Residue m) :=
  ⟨fun a b => ⟨(a.val + b.val) % m, Nat.mod_lt _ a.modulus_pos⟩⟩

instance : Mul (Residue m) :=
  ⟨fun a b => ⟨(a.val * b.val) % m, Nat.mod_lt _ a.modulus_pos⟩⟩

instance : Neg (Residue m) :=
  ⟨fun a => ⟨(m - a.val) % m, Nat.mod_lt _ a.modulus_pos⟩⟩

instance : Sub (Residue m) :=
  ⟨fun a b => ⟨(a.val + (m - b.val)) % m, Nat.mod_lt _ a.modulus_pos⟩⟩

theorem val_add (a b : Residue m) : (a + b).val = (a.val + b.val) % m := rfl

theorem val_mul (a b : Residue m) : (a * b).val = (a.val * b.val) % m := rfl

theorem val_neg (a : Residue m) : (-a).val = (m - a.val) % m := rfl

theorem val_sub (a b : Residue m) : (a - b).val = (a.val + (m - b.val)) % m := rfl

def isOdd (a : Residue m) : Bool :=
  a.val % 2 == 1

/-- The power of `a` to the number that the low `width` bits of `e` write. -/
def powBits [Modulus m] (a : Residue m) : Nat → Nat → Residue m
  | 0, _ => 1
  | width + 1, e =>
      let half := powBits a width (e / 2)
      if e % 2 = 1 then half * half * a else half * half

def pow [Modulus m] (a : Residue m) (e : Nat) : Residue m :=
  powBits a (e.log2 + 1) e

/-- The inverse of a residue that is not zero, for a prime modulus: `a ^ (m - 2)`. -/
def inverse [Modulus m] (a : Residue m) : Residue m :=
  pow a (m - 2)

/-- The quotient by a residue that is not zero, for a prime modulus. -/
instance [Modulus m] : Div (Residue m) := ⟨fun a b => a * inverse b⟩

/-- A square root, for a prime modulus that leaves the remainder three by four. -/
def sqrt? [Modulus m] (a : Residue m) : Option (Residue m) :=
  let root := pow a ((m + 1) / 4)
  if root * root = a then some root else none

def toOctets (n : Nat) (a : Residue m) : Octets n :=
  Octets.ofNat n a.val

def ofOctets? {n : Nat} (m : Nat) (o : Octets n) : Option (Residue m) :=
  ofNat? m o.value

@[simp]
theorem val_zero [Modulus m] : (0 : Residue m).val = 0 :=
  Nat.zero_mod m

theorem val_neg_of_ne_zero [Modulus m] {a : Residue m} (h : a ≠ 0) : (-a).val = m - a.val := by
  have nonzero : a.val ≠ 0 := fun zero => h (ext (zero.trans val_zero.symm))
  have bound := a.val_lt
  rw [val_neg, Nat.mod_eq_of_lt (by omega)]

theorem neg_ne_zero [Modulus m] {a : Residue m} (h : a ≠ 0) : -a ≠ 0 := by
  intro zero
  have equal := congrArg val zero
  have bound := a.val_lt
  rw [val_neg_of_ne_zero h, val_zero] at equal
  omega

end Residue

end KeyTree
