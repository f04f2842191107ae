import KeyTree.Hash.Sha2
/-!
The RIPEMD-160 hash function: two lines of eighty steps over little-endian words, combined at
the end of each block.
-/

set_option autoImplicit false
set_option relaxedAutoImplicit false

namespace KeyTree.Ripemd160

structure State where
  a : UInt32
  b : UInt32
  c : UInt32
  d : UInt32
  e : UInt32

def State.initial : State :=
  ⟨0x67452301, 0xefcdab89, 0x98badcfe, 0x10325476, 0xc3d2e1f0⟩

/-- The sixteen steps of one line that share a mixing function: which function, the constant
added, the message words taken and the rotations. -/
structure Group where
  mixer : Nat
  constant : UInt32
  order : List Nat
  shifts : List UInt32

def left : List Group :=
  [⟨0, 0x00000000, [0, 1, 2, 3, 4, 5, 6, 7, 8, 9, 10, 11, 12, 13, 14, 15],
      [11, 14, 15, 12, 5, 8, 7, 9, 11, 13, 14, 15, 6, 7, 9, 8]⟩,
    ⟨1, 0x5a827999, [7, 4, 13, 1, 10, 6, 15, 3, 12, 0, 9, 5, 2, 14, 11, 8],
      [7, 6, 8, 13, 11, 9, 7, 15, 7, 12, 15, 9, 11, 7, 13, 12]⟩,
    ⟨2, 0x6ed9eba1, [3, 10, 14, 4, 9, 15, 8, 1, 2, 7, 0, 6, 13, 11, 5, 12],
      [11, 13, 6, 7, 14, 9, 13, 15, 14, 8, 13, 6, 5, 12, 7, 5]⟩,
    ⟨3, 0x8f1bbcdc, [1, 9, 11, 10, 0, 8, 12, 4, 13, 3, 7, 15, 14, 5, 6, 2],
      [11, 12, 14, 15, 14, 15, 9, 8, 9, 14, 5, 6, 8, 6, 5, 12]⟩,
    ⟨4, 0xa953fd4e, [4, 0, 5, 9, 7, 12, 2, 10, 14, 1, 3, 8, 11, 6, 15, 13],
      [9, 15, 5, 11, 6, 8, 13, 12, 5, 12, 13, 14, 11, 8, 5, 6]⟩]

def right : List Group :=
  [⟨4, 0x50a28be6, [5, 14, 7, 0, 9, 2, 11, 4, 13, 6, 15, 8, 1, 10, 3, 12],
      [8, 9, 9, 11, 13, 15, 15, 5, 7, 7, 8, 11, 14, 14, 12, 6]⟩,
    ⟨3, 0x5c4dd124, [6, 11, 3, 7, 0, 13, 5, 10, 14, 15, 8, 12, 4, 9, 1, 2],
      [9, 13, 15, 7, 12, 8, 9, 11, 7, 7, 12, 7, 6, 15, 13, 11]⟩,
    ⟨2, 0x6d703ef3, [15, 5, 1, 3, 7, 14, 6, 9, 11, 8, 12, 2, 10, 0, 4, 13],
      [9, 7, 15, 11, 8, 6, 6, 14, 12, 13, 5, 14, 13, 13, 7, 5]⟩,
    ⟨1, 0x7a6d76e9, [8, 6, 4, 1, 3, 11, 15, 0, 5, 12, 2, 13, 9, 7, 10, 14],
      [15, 5, 8, 11, 14, 14, 6, 14, 6, 9, 12, 9, 12, 5, 15, 8]⟩,
    ⟨0, 0x00000000, [12, 15, 10, 4, 1, 5, 8, 7, 6, 2, 13, 14, 0, 3, 9, 11],
      [8, 5, 12, 9, 12, 5, 14, 6, 8, 13, 6, 5, 15, 13, 11, 11]⟩]

def rotateLeft (x n : UInt32) : UInt32 :=
  (x <<< n) ||| (x >>> (32 - n))

def mix (mixer : Nat) (x y z : UInt32) : UInt32 :=
  match mixer with
  | 0 => x ^^^ y ^^^ z
  | 1 => (x &&& y) ||| (~~~x &&& z)
  | 2 => (x ||| ~~~y) ^^^ z
  | 3 => (x &&& z) ||| (y &&& ~~~z)
  | _ => x ^^^ (y ||| ~~~z)

def group (block : Array UInt32) (s : State) (g : Group) : State :=
  (g.order.zip g.shifts).foldl
    (fun s (word, shift) =>
      let sum := s.a + mix g.mixer s.b s.c s.d + block.getD word 0 + g.constant
      ⟨s.e, rotateLeft sum shift + s.e, s.b, rotateLeft s.c 10, s.d⟩)
    s

/-- Mix one block of sixteen words into the state. -/
def compress (s : State) (block : List UInt32) : State :=
  let words := block.toArray
  let l := left.foldl (group words) s
  let r := right.foldl (group words) s
  ⟨s.b + l.c + r.d, s.c + l.d + r.e, s.d + l.e + r.a, s.e + l.a + r.b, s.a + l.b + r.c⟩

/-- The message, a one bit, zeros up to the length field, and the length in bits. -/
def pad (message : Bytes) : Bytes :=
  let used := (message.length + 9) % 64
  let zeros := if used = 0 then 0 else 64 - used
  message ++ 0x80 :: List.replicate zeros 0 ++ Bytes.littleEndian 8 (8 * message.length)

def finalState (message : Bytes) : State :=
  let words := (Sha2.pieces 3 (pad message)).map fun word =>
    UInt32.ofNat (Bytes.littleEndianValue word)
  (Sha2.pieces 15 words).foldl compress .initial

/-- The bytes of a state, least significant byte of each word first. -/
def State.bytes (s : State) : Octets 20 where
  toList := [s.a, s.b, s.c, s.d, s.e].flatMap fun w => Bytes.littleEndian 4 w.toNat
  length_eq := by simp

end KeyTree.Ripemd160

namespace KeyTree

def ripemd160 (message : Bytes) : Octets 20 :=
  (Ripemd160.finalState message).bytes

/-- RIPEMD-160 of the SHA-256 digest, from which keys get their identifiers. -/
def hash160 (message : Bytes) : Octets 20 :=
  ripemd160 (sha256 message).toList

end KeyTree
