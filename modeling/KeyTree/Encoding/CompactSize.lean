import KeyTree.Encoding.Stream
/-!
Sizes in one, three, five or nine bytes.

A size below 253 is its own byte; a larger one follows a marker, least significant byte first, in
the narrowest of three widths.  The reader takes every width, also for a size that a narrower one
could hold.
-/

set_option autoImplicit false
set_option relaxedAutoImplicit false

namespace KeyTree.CompactSize

/-- The narrowest form of a size. -/
def encode (size : UInt64) : Bytes :=
  let n := size.toNat
  if n < 0xfd then [UInt8.ofNat n]
  else if n < 0x10000 then 0xfd :: Bytes.littleEndian 2 n
  else if n < 0x100000000 then 0xfe :: Bytes.littleEndian 4 n
  else 0xff :: Bytes.littleEndian 8 n

def write (size : UInt64) : Writer Unit :=
  let n := size.toNat
  if n < 0xfd then Writer.octets [UInt8.ofNat n]
  else if n < 0x10000 then do
    Writer.octets [0xfd]
    Writer.octets (Bytes.littleEndian 2 n)
  else if n < 0x100000000 then do
    Writer.octets [0xfe]
    Writer.octets (Bytes.littleEndian 4 n)
  else do
    Writer.octets [0xff]
    Writer.octets (Bytes.littleEndian 8 n)

/-- The number of bytes that follow a marker; none if the first byte is the size itself. -/
def width? (marker : Nat) : Option Nat :=
  match marker with
  | 0xfd => some 2
  | 0xfe => some 4
  | 0xff => some 8
  | _ => none

def read : Reader UInt64 := do
  let marker ← Reader.littleEndian 1
  match width? marker with
  | none => return UInt64.ofNat marker
  | some width => return UInt64.ofNat (← Reader.littleEndian width)

end KeyTree.CompactSize
