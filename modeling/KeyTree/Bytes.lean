import KeyTree.Numeral
/-!
Byte strings, byte strings of a known length, and the numbers they stand for.

`compareBigEndian` orders byte strings of any two lengths as the numbers they write, without
computing either number.
-/

set_option autoImplicit false
set_option relaxedAutoImplicit false

namespace KeyTree

abbrev Bytes := List UInt8

namespace Bytes

/-- The number that a byte string writes, most significant byte first. -/
def bigEndianValue (bs : Bytes) : Nat :=
  Numeral.ofDigits 256 (bs.map UInt8.toNat)

def bigEndianBelow? (bound : Nat) (bs : Bytes) : Option Nat :=
  Numeral.ofDigitsBelow? 256 bound (bs.map UInt8.toNat)

def littleEndianValue (bs : Bytes) : Nat :=
  bigEndianValue bs.reverse

/-- The shortest byte string that writes `v`, most significant byte first; zero has none. -/
def ofNat (v : Nat) : Bytes :=
  (Numeral.digits 256 v).map UInt8.ofNat

def littleEndian : Nat → Nat → Bytes
  | 0, _ => []
  | n + 1, v => UInt8.ofNat v :: littleEndian n (v / 256)

/-- The low `n` bytes of `v`, most significant byte first. -/
def bigEndian (n v : Nat) : Bytes :=
  (littleEndian n v).reverse

@[simp]
theorem length_littleEndian (n v : Nat) : (littleEndian n v).length = n := by
  induction n generalizing v with
  | zero => rfl
  | succ n ih => simp [littleEndian, ih]

@[simp]
theorem length_bigEndian (n v : Nat) : (bigEndian n v).length = n := by
  simp [bigEndian]

theorem bigEndianValue_ofNat (v : Nat) : bigEndianValue (ofNat v) = v := by
  have same : (ofNat v).map UInt8.toNat = Numeral.digits 256 v := by
    rw [ofNat, List.map_map]
    conv => rhs; rw [← List.map_id (Numeral.digits 256 v)]
    apply List.map_congr_left
    intro d member
    have small : d < 256 := Numeral.lt_of_mem_digits (by decide) member
    exact UInt8.toNat_ofNat_of_lt' small
  rw [bigEndianValue, same, Numeral.ofDigits_digits (by decide)]

theorem bigEndianBelow?_eq {bound : Nat} (bound_pos : 0 < bound) (bs : Bytes) :
    bigEndianBelow? bound bs =
      if bigEndianValue bs < bound then some (bigEndianValue bs) else none :=
  Numeral.ofDigitsBelow?_eq (by decide) bound_pos (bs.map UInt8.toNat)

def stripLeadingZeros (bs : Bytes) : Bytes :=
  bs.dropWhile (· == 0)

/-- The first difference decides; a byte string comes before its extensions. -/
def lexicographic : Bytes → Bytes → Ordering
  | [], [] => .eq
  | [], _ :: _ => .lt
  | _ :: _, [] => .gt
  | a :: as, b :: bs => (compare a b).then (lexicographic as bs)

/-- Compare two byte strings as big-endian numbers: without leading zeros the longer one is
larger, and of two equally long ones the first difference decides. -/
def compareBigEndian (a b : Bytes) : Ordering :=
  let a := stripLeadingZeros a
  let b := stripLeadingZeros b
  (compare a.length b.length).then (lexicographic a b)

def ofText (s : String) : Bytes :=
  s.toList.flatMap String.utf8EncodeChar

end Bytes

structure Octets (n : Nat) where
  toList : Bytes
  length_eq : toList.length = n
deriving DecidableEq

namespace Octets

@[ext]
theorem ext {n : Nat} {a b : Octets n} (h : a.toList = b.toList) : a = b := by
  cases a
  cases b
  cases h
  rfl

def ofList? (n : Nat) (bs : Bytes) : Option (Octets n) :=
  if h : bs.length = n then some ⟨bs, h⟩ else none

theorem ofList?_eq_some_iff {n : Nat} {bs : Bytes} {o : Octets n} :
    ofList? n bs = some o ↔ o.toList = bs := by
  unfold ofList?
  split
  · rw [Option.some.injEq]
    exact ⟨fun h => h ▸ rfl, fun h => ext h.symm⟩
  · rename_i unequal
    constructor
    · intro h
      exact absurd h (by simp)
    · rintro rfl
      exact absurd o.length_eq unequal

theorem ofList?_eq_none_iff {n : Nat} {bs : Bytes} : ofList? n bs = none ↔ bs.length ≠ n := by
  unfold ofList?
  split <;> simp_all

@[simp]
theorem ofList?_toList {n : Nat} (o : Octets n) : ofList? n o.toList = some o :=
  ofList?_eq_some_iff.mpr rfl

def zero (n : Nat) : Octets n :=
  ⟨List.replicate n 0, List.length_replicate⟩

instance (n : Nat) : Inhabited (Octets n) := ⟨zero n⟩

def ofNat (n v : Nat) : Octets n :=
  ⟨Bytes.bigEndian n v, Bytes.length_bigEndian n v⟩

def value {n : Nat} (o : Octets n) : Nat :=
  Bytes.bigEndianValue o.toList

def append {m n : Nat} (a : Octets m) (b : Octets n) : Octets (m + n) :=
  ⟨a.toList ++ b.toList, by simp [a.length_eq, b.length_eq]⟩

def take {n : Nat} (m : Nat) (o : Octets (m + n)) : Octets m :=
  ⟨o.toList.take m, by simp [o.length_eq]⟩

def drop {n : Nat} (m : Nat) (o : Octets (m + n)) : Octets n :=
  ⟨o.toList.drop m, by simp [o.length_eq]⟩

@[simp]
theorem toList_append {m n : Nat} (a : Octets m) (b : Octets n) :
    (a.append b).toList = a.toList ++ b.toList := rfl

@[simp]
theorem toList_take {m n : Nat} (o : Octets (m + n)) : (o.take m).toList = o.toList.take m := rfl

@[simp]
theorem toList_drop {m n : Nat} (o : Octets (m + n)) : (o.drop m).toList = o.toList.drop m := rfl

@[simp]
theorem take_append {m n : Nat} (a : Octets m) (b : Octets n) : (a.append b).take m = a := by
  apply ext
  rw [toList_take, toList_append]
  exact List.take_left' a.length_eq

@[simp]
theorem drop_append {m n : Nat} (a : Octets m) (b : Octets n) : (a.append b).drop m = b := by
  apply ext
  rw [toList_drop, toList_append]
  exact List.drop_left' a.length_eq

theorem append_take_drop {m n : Nat} (o : Octets (m + n)) : (o.take m).append (o.drop m) = o := by
  apply ext
  rw [toList_append, toList_take, toList_drop, List.take_append_drop]

/-- Put `b` in place of the byte at position `i`; past the end nothing changes. -/
def set {n : Nat} (o : Octets n) (i : Nat) (b : UInt8) : Octets n :=
  ⟨o.toList.set i b, by simp [o.length_eq]⟩

/-- The bytes moved to the end of a string of `n` bytes, zeros before them; `none` if there are
more than `n`. -/
def padLeft? (n : Nat) (bs : Bytes) : Option (Octets n) :=
  ofList? n (List.replicate (n - bs.length) 0 ++ bs)

@[simp]
theorem padLeft?_toList {n : Nat} (o : Octets n) : padLeft? n o.toList = some o := by
  rw [padLeft?, o.length_eq, Nat.sub_self, List.replicate_zero, List.nil_append, ofList?_toList]

end Octets

end KeyTree
