import KeyTree.Encoding.CompactSize
import KeyTree.Proofs.Encoding.Stream
/-!
The forms in which a size can stand in a stream, how the reader takes them and which of them is
written.

A size has one form of each width that it fits in, and the reader takes these and nothing else
(`apply_read_eq_ok_iff`).  The shortest of them is written (`into_write`,
`Form.eq_encode_or_length_lt`).
-/

set_option autoImplicit false
set_option relaxedAutoImplicit false

namespace KeyTree.CompactSize

/-- The byte strings that stand for a size: its own byte, or a marker before as many bytes as the
marker asks for. -/
inductive Form (size : UInt64) : Bytes → Prop where
  | byte : size.toNat < 0xfd → Form size [UInt8.ofNat size.toNat]
  | wide {marker : UInt8} {width : Nat} : width? marker.toNat = some width →
      size.toNat < 256 ^ width → Form size (marker :: Bytes.littleEndian width size.toNat)

private theorem width?_eq_none_of_lt {marker : Nat} (small : marker < 0xfd) :
    width? marker = none := by
  unfold width?
  split
  · exact absurd small (by decide)
  · exact absurd small (by decide)
  · exact absurd small (by decide)
  · rfl

theorem width?_eq_some_iff {marker : UInt8} {width : Nat} :
    width? marker.toNat = some width ↔
      marker = 0xfd ∧ width = 2 ∨ marker = 0xfe ∧ width = 4 ∨ marker = 0xff ∧ width = 8 := by
  constructor
  · intro found
    unfold width? at found
    split at found
    · rename_i two
      exact .inl ⟨UInt8.toNat_inj.mp two, (Option.some.inj found).symm⟩
    · rename_i four
      exact .inr (.inl ⟨UInt8.toNat_inj.mp four, (Option.some.inj found).symm⟩)
    · rename_i eight
      exact .inr (.inr ⟨UInt8.toNat_inj.mp eight, (Option.some.inj found).symm⟩)
    · cases found
  · rintro (⟨rfl, rfl⟩ | ⟨rfl, rfl⟩ | ⟨rfl, rfl⟩) <;> rfl

private theorem lt_of_width?_eq_none {marker : UInt8} (single : width? marker.toNat = none) :
    marker.toNat < 0xfd := by
  have bound := marker.toNat_lt
  by_contra large
  obtain two | four | eight : marker.toNat = 0xfd ∨ marker.toNat = 0xfe ∨ marker.toNat = 0xff := by
    omega
  · rw [two] at single
    cases single
  · rw [four] at single
    cases single
  · rw [eight] at single
    cases single

theorem Form.length_pos {size : UInt64} {bs : Bytes} (form : Form size bs) : 0 < bs.length := by
  cases form with
  | byte _ => exact Nat.one_pos
  | wide _ _ => exact Nat.succ_pos _

private theorem Form.length_mem {size : UInt64} {bs : Bytes} (form : Form size bs) :
    bs.length ∈ [1, 3, 5, 9] := by
  cases form with
  | byte _ => exact List.mem_cons_self
  | wide width _ =>
      rw [List.length_cons, Bytes.length_littleEndian]
      rcases width?_eq_some_iff.mp width with ⟨-, rfl⟩ | ⟨-, rfl⟩ | ⟨-, rfl⟩ <;> decide

/-! ### The reader -/

private theorem takes_marker (marker : UInt8) :
    Reader.Takes (Reader.littleEndian 1) StreamError.shortInput [marker] (.ok marker.toNat) := by
  rw [← Bytes.littleEndianValue_singleton]
  exact Reader.takes_littleEndian [marker]

theorem Form.takes {size : UInt64} {bs : Bytes} (form : Form size bs) :
    Reader.Takes read StreamError.shortInput bs (.ok size) := by
  cases form with
  | byte small =>
      have marker : (UInt8.ofNat size.toNat).toNat = size.toNat :=
        UInt8.toNat_ofNat_of_lt' (small.trans (by decide))
      refine (takes_marker (UInt8.ofNat size.toNat)).bind ?_
      simp only [marker, width?_eq_none_of_lt small, UInt64.ofNat_toNat]
      exact Reader.takes_ofExcept StreamError.shortInput (.ok size)
  | @wide marker width wide fits =>
      refine (takes_marker marker).bind ?_
      rw [wide]
      have taken := Reader.takes_littleEndian (Bytes.littleEndian width size.toNat)
      rw [Bytes.length_littleEndian, Bytes.littleEndianValue_littleEndian,
        Nat.mod_eq_of_lt fits] at taken
      have read := taken.map UInt64.ofNat
      rwa [Except.map, UInt64.ofNat_toNat] at read

private theorem form_of_byte {b : UInt8} (single : width? b.toNat = none) :
    Form (UInt64.ofNat b.toNat) [b] := by
  have small := lt_of_width?_eq_none single
  have kept : (UInt64.ofNat b.toNat).toNat = b.toNat :=
    UInt64.toNat_ofNat_of_lt' (small.trans (by decide))
  have form : Form (UInt64.ofNat b.toNat) [UInt8.ofNat (UInt64.ofNat b.toNat).toNat] :=
    .byte (by rwa [kept])
  rwa [kept, UInt8.ofNat_toNat] at form

private theorem form_of_wide {marker : UInt8} {bs : Bytes}
    (wide : width? marker.toNat = some bs.length) :
    Form (UInt64.ofNat bs.littleEndianValue) (marker :: bs) := by
  have fits := bs.littleEndianValue_lt
  have narrow : 256 ^ bs.length ≤ 256 ^ 8 := by
    apply Nat.pow_le_pow_right (by decide)
    rcases width?_eq_some_iff.mp wide with ⟨-, two⟩ | ⟨-, four⟩ | ⟨-, eight⟩ <;> omega
  have kept : (UInt64.ofNat bs.littleEndianValue).toNat = bs.littleEndianValue :=
    UInt64.toNat_ofNat_of_lt' (fits.trans_le narrow)
  have form : Form (UInt64.ofNat bs.littleEndianValue)
      (marker :: Bytes.littleEndian bs.length _) := .wide wide (by rwa [kept])
  rwa [kept, Bytes.littleEndian_littleEndianValue rfl] at form

theorem apply_read_eq_ok_iff {stream rest : Bytes} {size : UInt64} :
    read.apply stream = (.ok size, rest) ↔ ∃ form, Form size form ∧ stream = form ++ rest := by
  constructor
  · intro taken
    obtain ⟨marker, reached, first, second⟩ := Update.apply_bind_eq_ok_iff.mp taken
    obtain ⟨bs, single, rfl, rfl⟩ := Reader.apply_littleEndian_eq_ok_iff.mp first
    obtain ⟨b, rfl⟩ := List.length_eq_one_iff.mp single
    rw [Bytes.littleEndianValue_singleton] at second
    cases width : width? b.toNat with
    | none =>
        rw [width] at second
        cases second
        exact ⟨[b], form_of_byte width, rfl⟩
    | some n =>
        rw [width] at second
        obtain ⟨v, left, number, last⟩ := Update.apply_bind_eq_ok_iff.mp second
        cases last
        obtain ⟨bs, rfl, rfl, rfl⟩ := Reader.apply_littleEndian_eq_ok_iff.mp number
        exact ⟨b :: bs, form_of_wide width, rfl⟩
  · rintro ⟨form, stands, rfl⟩
    exact stands.takes.whole rest

/-! ### The writer -/

private theorem encode_eq (size : UInt64) :
    encode size =
      if size.toNat < 0xfd then [UInt8.ofNat size.toNat]
      else if size.toNat < 256 ^ 2 then 0xfd :: Bytes.littleEndian 2 size.toNat
      else if size.toNat < 256 ^ 4 then 0xfe :: Bytes.littleEndian 4 size.toNat
      else 0xff :: Bytes.littleEndian 8 size.toNat := rfl

private theorem length_encode (size : UInt64) :
    (encode size).length =
      if size.toNat < 0xfd then 1
      else if size.toNat < 256 ^ 2 then 3
      else if size.toNat < 256 ^ 4 then 5
      else 9 := by
  simp only [encode_eq, apply_ite List.length, List.length_cons, List.length_nil,
    Bytes.length_littleEndian]

theorem form_encode (size : UInt64) : Form size (encode size) := by
  have bound : size.toNat < 256 ^ 8 := size.toNat_lt
  simp only [encode]
  split
  · exact .byte ‹_›
  split
  · exact .wide rfl ‹_›
  split
  · exact .wide rfl ‹_›
  · exact .wide rfl bound

private theorem Form.eq_encode_or_length_lt {size : UInt64} {bs : Bytes} (form : Form size bs) :
    bs = encode size ∨ (encode size).length < bs.length := by
  cases form with
  | byte small => exact .inl (if_pos small).symm
  | @wide marker width wide fits =>
      rw [List.length_cons, Bytes.length_littleEndian, length_encode, encode_eq]
      -- a form of this width is written unless the size fits in a narrower one
      rcases width?_eq_some_iff.mp wide with ⟨rfl, rfl⟩ | ⟨rfl, rfl⟩ | ⟨rfl, rfl⟩
      · by_cases narrower : size.toNat < 0xfd
        · right
          rw [if_pos narrower]
          decide
        · left
          rw [if_neg narrower, if_pos fits]
      · by_cases narrower : size.toNat < 256 ^ 2
        · right
          rw [if_pos narrower]
          split <;> decide
        · left
          rw [if_neg (by omega), if_neg narrower, if_pos fits]
      · by_cases narrower : size.toNat < 256 ^ 4
        · right
          rw [if_pos narrower]
          split
          · decide
          · split <;> decide
        · left
          rw [if_neg (by omega), if_neg (by omega), if_neg narrower]

private theorem write_eq (size : UInt64) : write size = Writer.octets (encode size) := by
  simp only [write, encode]
  split
  · rfl
  split
  · exact Writer.octets_append _ _
  split
  · exact Writer.octets_append _ _
  · exact Writer.octets_append _ _

private theorem into_write (capacity : Option Nat) (size : UInt64) :
    (write size).into capacity = writeWithin capacity (encode size) := by
  rw [write_eq, writeWithin]

/-- What is written for a size is not a part of what is written for another one: the longer form
is read as both. -/
theorem eq_of_encode_prefix {size size' : UInt64} (part : encode size <+: encode size') :
    size = size' := by
  obtain ⟨rest, longer⟩ := part
  have whole := (form_encode size').takes.whole []
  rw [List.append_nil, ← longer, (form_encode size).takes.whole] at whole
  cases whole
  rfl

private theorem Form.cut {size : UInt64} {bs part : Bytes} (form : Form size bs)
    (first : part <+: bs) (proper : part ≠ bs) : (read.apply part).1 = .error .shortInput := by
  have shorter : part.length < bs.length :=
    Nat.lt_of_le_of_ne first.length_le fun same => proper (first.eq_of_length same)
  rw [List.prefix_iff_eq_take.mp first]
  exact form.takes.cut part.length shorter

private theorem exists_into_write_iff {capacity : Nat} {size : UInt64} :
    (∃ bs, (write size).into (some capacity) = .ok bs) ↔ (encode size).length ≤ capacity := by
  rw [into_write, writeWithin_some]
  split
  · rename_i fits
    exact iff_of_true ⟨_, rfl⟩ fits
  · rename_i full
    refine iff_of_false ?_ full
    rintro ⟨bs, made⟩
    cases made

/-- What is written for a size stands for it in any stream, and needs no more room than its bytes.
Of the bytes that are read as the size it is the shortest; it is no part of what is written for
another size; and a part of it is too short to be read. -/
structure Written (size : UInt64) (form : Bytes) : Prop where
  read_back : ∀ rest, read.apply (form ++ rest) = (.ok size, rest)
  shortest : ∀ bs, read.apply bs = (.ok size, []) →
    bs.length ∈ [1, 3, 5, 9] ∧ (bs = form ∨ form.length < bs.length)
  apart : ∀ size' form', (write size').into none = .ok form' → form <+: form' → size = size'
  cut : ∀ part, part <+: form → part ≠ form → (read.apply part).1 = .error .shortInput
  room_iff : ∀ capacity, (∃ bs, (write size).into (some capacity) = .ok bs) ↔
    form.length ≤ capacity

/-- Every size is written, and what is written for it is exact. -/
theorem writing_exact (size : UInt64) :
    ∃ form, (write size).into none = .ok form ∧ Written size form := by
  have stands := form_encode size
  refine ⟨encode size, into_write none size, ?_, ?_, ?_, ?_, ?_⟩
  · exact stands.takes.whole
  · intro bs taken
    obtain ⟨form, other, same⟩ := apply_read_eq_ok_iff.mp taken
    rw [List.append_nil] at same
    exact same ▸ ⟨other.length_mem, other.eq_encode_or_length_lt⟩
  · intro size' form' written part
    rw [into_write] at written
    obtain rfl : encode size' = form' := Except.ok.inj written
    exact eq_of_encode_prefix part
  · exact fun part => stands.cut
  · exact fun capacity => exists_into_write_iff

end KeyTree.CompactSize
