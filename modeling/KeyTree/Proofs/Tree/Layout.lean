import KeyTree.Proofs.Key.Public
import KeyTree.Proofs.Tree.Header
import KeyTree.Proofs.Tree.PrivateNode
/-!
Decoding of nodes.

Bytes are decoded to a node exactly if they are its encoding and the node is well formed
(`decode_eq_ok_iff`), and which bytes these are is told from the bytes alone
(`exists_decode_iff`), for private and for public nodes.
-/

set_option autoImplicit false
set_option relaxedAutoImplicit false

namespace KeyTree

open Curve

namespace PrivateNode

variable {x : PrivateNode} {bs : Bytes} {header : NodeHeader} {marker : UInt8} {key : Octets 32}

theorem WellFormed.encode_eq (wellFormed : x.WellFormed) :
    x.encode.map Octets.toList =
      .ok (x.toNodeHeader.toOctets.toList ++ 0 :: x.key.data.toList) := by
  rw [encode, wellFormed.valid]
  rfl

theorem decode_parts :
    decode (header.toOctets.toList ++ marker :: key.toList) = .ok x ↔
      marker = 0 ∧ x.toNodeHeader = header ∧ SecretKey.ofBytes key.toList true = .ok x.key := by
  rw [decode, splitNode_eq_ok_iff.mpr rfl, ok_bind]
  by_cases zero : marker = 0
  · simp only [if_pos zero, bind_eq_ok_iff]
    constructor
    · rintro ⟨k, made, same⟩
      cases same
      exact ⟨zero, rfl, made⟩
    · rintro ⟨-, rfl, made⟩
      exact ⟨x.key, made, rfl⟩
  · simp only [if_neg zero]
    constructor
    · nofun
    · rintro ⟨found, -⟩
      exact absurd found zero

/-- Bytes are decoded to a node exactly if it is well formed and they are its encoding. -/
theorem decode_eq_ok_iff :
    decode bs = .ok x ↔ x.WellFormed ∧ x.encode.map Octets.toList = .ok bs := by
  constructor
  · intro read
    have wellFormed := wellFormed_of_decode read
    obtain ⟨header, marker, key, rfl⟩ := exists_parts_of_split read
    obtain ⟨rfl, rfl, made⟩ := decode_parts.mp read
    obtain ⟨-, -, -, data⟩ := SecretKey.ofBytes_eq_ok_iff.mp made
    rw [wellFormed.encode_eq, data]
    exact ⟨wellFormed, rfl⟩
  · rintro ⟨wellFormed, written⟩
    rw [wellFormed.encode_eq] at written
    obtain rfl := Except.ok.inj written
    exact decode_parts.mpr ⟨rfl, rfl, SecretKey.ofBytes_eq_ok_iff.mpr
      ⟨wellFormed.key, wellFormed.valid, wellFormed.compressed, rfl⟩⟩

/-- The layout of a private node: the byte before the key is zero and the key writes a secret in
range. -/
structure Layout (bs : Bytes) : Prop where
  length_eq : bs.length = nodeSize
  marker : bs[41]? = some 0
  positive : 0 < Bytes.bigEndianValue (bs.drop 42)
  bounded : Bytes.bigEndianValue (bs.drop 42) < order

theorem exists_decode_iff : (∃ x, decode bs = .ok x) ↔ Layout bs := by
  constructor
  · rintro ⟨x, read⟩
    obtain ⟨header, marker, key, rfl⟩ := exists_parts_of_split read
    obtain ⟨rfl, -, made⟩ := decode_parts.mp read
    obtain ⟨wellFormed, valid, -, data⟩ := SecretKey.ofBytes_eq_ok_iff.mp made
    obtain ⟨positive, bounded⟩ := isSecret_iff.mp (wellFormed.inRange valid)
    have value : Bytes.bigEndianValue key.toList = x.key.data.value := by
      rw [← data]
      rfl
    exact {
      length_eq := length_parts
      marker := getElem?_parts
      positive := by rwa [drop_parts, value]
      bounded := by rwa [drop_parts, value] }
  · intro layout
    obtain ⟨header, marker, key, rfl⟩ := exists_parts_of_length layout.length_eq
    have zero := layout.marker
    have positive := layout.positive
    have bounded := layout.bounded
    rw [getElem?_parts, Option.some.injEq] at zero
    rw [drop_parts] at positive bounded
    have usable : isSecret key = true := isSecret_iff.mpr ⟨positive, bounded⟩
    exact ⟨⟨header, ⟨true, true, key⟩⟩,
      decode_parts.mpr ⟨zero, rfl, SecretKey.ofBytes_toList usable true⟩⟩

end PrivateNode

namespace PublicNode

/-- The point of the key is on the curve and the key is to be compressed. -/
structure WellFormed (y : PublicNode) : Prop where
  onCurve : y.key.point.OnCurve
  compressed : y.key.compressed = true

variable {y : PublicNode} {bs : Bytes} {header : NodeHeader} {marker : UInt8} {key : Octets 32}

theorem decode_parts :
    decode (header.toOctets.toList ++ marker :: key.toList) = .ok y ↔
      (marker = 0x02 ∨ marker = 0x03) ∧ y.toNodeHeader = header ∧
        PublicKey.ofBytes (marker :: key.toList) = .ok y.key := by
  rw [decode, splitNode_eq_ok_iff.mpr rfl, ok_bind]
  by_cases tag : marker = 0x02 ∨ marker = 0x03
  · simp only [if_pos tag]
    cases made : PublicKey.ofBytes (marker :: key.toList) with
    | error fault =>
      constructor
      · nofun
      · nofun
    | ok k =>
      constructor
      · intro same
        cases same
        exact ⟨tag, rfl, rfl⟩
      · rintro ⟨-, rfl, same⟩
        cases same
        rfl
  · simp only [if_neg tag]
    constructor
    · nofun
    · rintro ⟨found, -⟩
      exact absurd found tag

private theorem WellFormed.encode_eq (wellFormed : y.WellFormed) :
    y.encode.toList = y.toNodeHeader.toOctets.toList ++ y.key.toBytes := by
  rw [PublicKey.toBytes, if_pos wellFormed.compressed]
  rfl

/-- Bytes are decoded to a node exactly if it is well formed and they are its encoding. -/
theorem decode_eq_ok_iff : decode bs = .ok y ↔ y.WellFormed ∧ y.encode.toList = bs := by
  constructor
  · intro read
    obtain ⟨header, marker, key, rfl⟩ := exists_parts_of_split read
    obtain ⟨-, rfl, made⟩ := decode_parts.mp read
    obtain ⟨onCurve, written⟩ := PublicKey.ofBytes_eq_ok_iff.mp made
    have compressed : y.key.compressed = true := by
      by_contra other
      have length_eq := congrArg List.length written
      rw [PublicKey.toBytes, if_neg other, (PublicKey.uncompressedForm _).length_eq,
        List.length_cons, key.length_eq] at length_eq
      omega
    have wellFormed : y.WellFormed := ⟨onCurve, compressed⟩
    rw [wellFormed.encode_eq, written]
    exact ⟨wellFormed, rfl⟩
  · rintro ⟨wellFormed, rfl⟩
    obtain ⟨tag, x, written⟩ :
        ∃ tag x, (PublicKey.compressedForm y.key.point).toList = tag :: x := ⟨_, _, rfl⟩
    obtain ⟨tag_eq, length_eq, -, -⟩ := PublicKey.compressedForm_eq_iff.mp written
    have bytes : y.key.toBytes = tag :: x := by
      rw [PublicKey.toBytes, if_pos wellFormed.compressed, written]
    have made : PublicKey.ofBytes (tag :: x) = .ok y.key :=
      PublicKey.ofBytes_eq_ok_iff.mpr ⟨wellFormed.onCurve, bytes⟩
    let key : Octets 32 := ⟨x, length_eq⟩
    have joined : decode (y.toNodeHeader.toOctets.toList ++ tag :: key.toList) = .ok y :=
      decode_parts.mpr ⟨tag_eq, rfl, made⟩
    rw [wellFormed.encode_eq, bytes]
    exact joined

/-- The layout of a public node: the byte before the key is the tag of a compressed key and the
key writes the first coordinate of a point. -/
structure Layout (bs : Bytes) : Prop where
  length_eq : bs.length = nodeSize
  marker : bs[41]? = some 0x02 ∨ bs[41]? = some 0x03
  bounded : Bytes.bigEndianValue (bs.drop 42) < fieldPrime
  square : IsSquare ((Bytes.bigEndianValue (bs.drop 42) : ZMod fieldPrime) ^ 3 + 7)

theorem exists_decode_iff : (∃ y, decode bs = .ok y) ↔ Layout bs := by
  constructor
  · rintro ⟨y, read⟩
    obtain ⟨header, marker, key, rfl⟩ := exists_parts_of_split read
    obtain ⟨tag, -, made⟩ := decode_parts.mp read
    obtain ⟨bounded, square⟩ := (PublicKey.exists_ofBytes_iff tag key.length_eq).mp ⟨_, made⟩
    exact {
      length_eq := length_parts
      marker := by simpa only [getElem?_parts, Option.some.injEq] using tag
      bounded := by rwa [drop_parts]
      square := by rwa [drop_parts] }
  · intro layout
    obtain ⟨header, marker, key, rfl⟩ := exists_parts_of_length layout.length_eq
    have tag := layout.marker
    have bounded := layout.bounded
    have square := layout.square
    rw [getElem?_parts, Option.some.injEq, Option.some.injEq] at tag
    rw [drop_parts] at bounded square
    obtain ⟨k, made⟩ := (PublicKey.exists_ofBytes_iff tag key.length_eq).mpr ⟨bounded, square⟩
    exact ⟨⟨header, k⟩, decode_parts.mpr ⟨tag, rfl, made⟩⟩

end PublicNode

end KeyTree
