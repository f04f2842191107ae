import KeyTree.Bytes
/-!
Distinguished encoding: elements of a tag, a length and that many bytes of contents.

There is one written form for each length and for each natural number, and the readers accept no
other.  Natural numbers are read up to 256 bits.
-/

set_option autoImplicit false
set_option relaxedAutoImplicit false

namespace KeyTree.Der

/-- The tag of an integer; the other tags are named likewise. -/
def integerTag : UInt8 := 0x02

def bitStringTag : UInt8 := 0x03

def octetStringTag : UInt8 := 0x04

def objectIdentifierTag : UInt8 := 0x06

def sequenceTag : UInt8 := 0x30

/-- A length in one byte if it is below 128, else in the fewest bytes after their count. -/
def lengthField (n : Nat) : Bytes :=
  if n < 128 then [UInt8.ofNat n]
  else
    let bs := Bytes.ofNat n
    UInt8.ofNat (128 + bs.length) :: bs

def element (tag : UInt8) (contents : Bytes) : Bytes :=
  tag :: lengthField contents.length ++ contents

/-- Read a length and give the bytes after it.  At most four bytes may follow the count, the
first of them not zero, and a length that fits in one byte has no longer form. -/
def readLength? : Bytes → Option (Nat × Bytes)
  | [] => none
  | first :: rest =>
      if first < 128 then some (first.toNat, rest)
      else
        let count := first.toNat - 128
        let field := rest.take count
        let n := Bytes.bigEndianValue field
        if count = 0 ∨ 4 < count ∨ rest.length < count then none
        else if field.head? = some 0 ∨ n < 128 then none
        else some (n, rest.drop count)

def read? : Bytes → Option (UInt8 × Bytes × Bytes)
  | [] => none
  | tag :: rest => do
      let (n, rest) ← readLength? rest
      if rest.length < n then none
      else some (tag, rest.take n, rest.drop n)

def expect? (tag : UInt8) (bs : Bytes) : Option (Bytes × Bytes) := do
  let (found, contents, rest) ← read? bs
  if found = tag then some (contents, rest) else none

/-- The contents of the one element of a known tag that makes up all the bytes. -/
def only? (tag : UInt8) (bs : Bytes) : Option Bytes := do
  let (contents, rest) ← expect? tag bs
  if rest.isEmpty then some contents else none

/-- The contents of the integer element for a natural number: the fewest bytes, after a zero
byte if the first of them would otherwise read as a sign. -/
def naturalContents (v : Nat) : Bytes :=
  match Bytes.ofNat v with
  | [] => [0]
  | first :: rest => if first < 128 then first :: rest else 0 :: first :: rest

/-- What the natural numbers that are read lie below. -/
def naturalBound : Nat := 1 <<< 256

/-- The natural number in the contents of an integer element, if it is below the bound. -/
def natural? : Bytes → Option Nat
  | [] => none
  | [only] => if only < 128 then some only.toNat else none
  | first :: second :: rest =>
      if 128 ≤ first ∨ (first = 0 ∧ second < 128) then none
      else Bytes.bigEndianBelow? naturalBound (first :: second :: rest)

def natural (v : Nat) : Bytes :=
  element integerTag (naturalContents v)

def readNatural? (bs : Bytes) : Option (Nat × Bytes) := do
  let (contents, rest) ← expect? integerTag bs
  let v ← natural? contents
  return (v, rest)

end KeyTree.Der
