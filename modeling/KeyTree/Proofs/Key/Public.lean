import KeyTree.Key.Public
import KeyTree.Proofs.Signature.Equation
/-!
Public keys and their bytes.

`ofBytes_eq_ok_iff` says that reading accepts exactly what is written for the points on the curve,
in either form; `exists_ofBytes_iff` tells the compressed forms by the numbers in them, and
`ofHex_eq_ok_iff` the texts by their bytes.
-/

set_option autoImplicit false
set_option relaxedAutoImplicit false

namespace KeyTree.PublicKey

open Curve

theorem coordinate_bytes_iff {a : Coordinate} {bs : Bytes} :
    (a.toOctets 32).toList = bs ↔ bs.length = 32 ∧ a.val = Bytes.bigEndianValue bs :=
  Residue.toList_toOctets_eq_iff (by decide)

theorem compressedForm_eq_iff {P : Affine} {tag : UInt8} {x : Bytes} :
    (compressedForm P).toList = tag :: x ↔
      (tag = 0x02 ∨ tag = 0x03) ∧ x.length = 32 ∧
        P.x.val = Bytes.bigEndianValue x ∧ P.y.isOdd = (tag == 0x03) := by
  have written : (compressedForm P).toList =
      (if P.y.isOdd then 0x03 else 0x02) :: (P.x.toOctets 32).toList := rfl
  rw [written, List.cons.injEq, coordinate_bytes_iff]
  constructor
  · rintro ⟨rfl, length_eq, value⟩
    cases P.y.isOdd with
    | true => exact ⟨.inr rfl, length_eq, value, rfl⟩
    | false => exact ⟨.inl rfl, length_eq, value, rfl⟩
  · rintro ⟨rfl | rfl, length_eq, value, parity⟩
    · rw [parity]
      exact ⟨rfl, length_eq, value⟩
    · rw [parity]
      exact ⟨rfl, length_eq, value⟩

private theorem uncompressedForm_eq_iff {P : Affine} {tag : UInt8} {xy : Bytes} :
    (uncompressedForm P).toList = tag :: xy ↔
      tag = 0x04 ∧ xy.length = 64 ∧ P.x.val = Bytes.bigEndianValue (xy.take 32) ∧
        P.y.val = Bytes.bigEndianValue (xy.drop 32) := by
  have written : (uncompressedForm P).toList =
      0x04 :: ((P.x.toOctets 32).toList ++ (P.y.toOctets 32).toList) := rfl
  rw [written, List.cons.injEq]
  constructor
  · rintro ⟨rfl, rfl⟩
    have x_length := (P.x.toOctets 32).length_eq
    have y_length := (P.y.toOctets 32).length_eq
    obtain ⟨-, x_value⟩ := coordinate_bytes_iff.mp (Eq.refl (P.x.toOctets 32).toList)
    obtain ⟨-, y_value⟩ := coordinate_bytes_iff.mp (Eq.refl (P.y.toOctets 32).toList)
    refine ⟨rfl, by rw [List.length_append]; omega, ?_, ?_⟩
    · rw [List.take_left' x_length, x_value]
    · rw [List.drop_left' x_length, y_value]
  · rintro ⟨rfl, length_eq, x_value, y_value⟩
    have x_bytes : (P.x.toOctets 32).toList = xy.take 32 :=
      coordinate_bytes_iff.mpr ⟨by rw [List.length_take]; omega, x_value⟩
    have y_bytes : (P.y.toOctets 32).toList = xy.drop 32 :=
      coordinate_bytes_iff.mpr ⟨by rw [List.length_drop]; omega, y_value⟩
    exact ⟨rfl, by rw [x_bytes, y_bytes, List.take_append_drop]⟩

theorem length_toBytes (key : PublicKey) :
    key.toBytes.length = if key.compressed then 33 else 65 := by
  rw [toBytes]
  split
  · exact (compressedForm key.point).length_eq
  · exact (uncompressedForm key.point).length_eq

theorem length_toBytes_le (key : PublicKey) : key.toBytes.length ≤ 65 := by
  rw [length_toBytes]
  split <;> decide

private theorem pointOfX?_eq_some_iff {tag : UInt8} {x : Bytes} {P : Affine} :
    pointOfX? tag x = some P ↔
      P.OnCurve ∧ P.x.val = Bytes.bigEndianValue x ∧ P.y.isOdd = (tag == 0x03) := by
  simp only [pointOfX?, Option.bind_eq_bind, Option.bind_eq_some_iff,
    Residue.ofNat?_eq_some_iff, Affine.ofX?_eq_some_iff]
  constructor
  · rintro ⟨x', value, onCurve, rfl, parity⟩
    exact ⟨onCurve, value, parity⟩
  · rintro ⟨onCurve, value, parity⟩
    exact ⟨P.x, value, onCurve, rfl, parity⟩

private theorem exists_pointOfX?_iff {tag : UInt8} {x : Bytes} :
    (∃ P, pointOfX? tag x = some P) ↔
      Bytes.bigEndianValue x < fieldPrime ∧
        IsSquare ((Bytes.bigEndianValue x : ZMod fieldPrime) ^ 3 + 7) := by
  constructor
  · rintro ⟨P, found⟩
    obtain ⟨onCurve, value, parity⟩ := pointOfX?_eq_some_iff.mp found
    have square := Affine.exists_ofX?_iff.mp ⟨P, Affine.ofX?_eq_some_iff.mpr ⟨onCurve, rfl, parity⟩⟩
    rw [Residue.toZMod, value] at square
    exact ⟨value ▸ P.x.val_lt, square⟩
  · rintro ⟨bounded, square⟩
    have lifted : ∃ P, Affine.ofX? ⟨_, bounded⟩ (tag == 0x03) = some P :=
      Affine.exists_ofX?_iff.mpr square
    obtain ⟨P, found⟩ := lifted
    obtain ⟨onCurve, x_eq, parity⟩ := Affine.ofX?_eq_some_iff.mp found
    exact ⟨P, pointOfX?_eq_some_iff.mpr ⟨onCurve, congrArg Residue.val x_eq, parity⟩⟩

private theorem pointOfCoordinates?_eq_some_iff {xy : Bytes} {P : Affine} :
    pointOfCoordinates? xy = some P ↔
      P.OnCurve ∧ P.x.val = Bytes.bigEndianValue (xy.take 32) ∧
        P.y.val = Bytes.bigEndianValue (xy.drop 32) := by
  simp only [pointOfCoordinates?, Option.bind_eq_bind, Option.bind_eq_some_iff,
    Residue.ofNat?_eq_some_iff]
  constructor
  · rintro ⟨x, x_value, y, y_value, found⟩
    split at found
    · rename_i onCurve
      obtain rfl := Option.some.inj found
      exact ⟨onCurve, x_value, y_value⟩
    · cases found
  · rintro ⟨onCurve, x_value, y_value⟩
    exact ⟨P.x, x_value, P.y, y_value, if_pos onCurve⟩

private theorem ofBytes_cons_eq_ok_iff {tag : UInt8} {rest : Bytes} {k : PublicKey} :
    ofBytes (tag :: rest) = .ok k ↔
      (rest.length = 32 ∧ (tag = 0x02 ∨ tag = 0x03) ∧ pointOfX? tag rest = some k.point ∧
        k.compressed = true) ∨
      rest.length = 64 ∧ tag = 0x04 ∧ pointOfCoordinates? rest = some k.point ∧
        k.compressed = false := by
  obtain ⟨P, compressed⟩ := k
  simp only [ofBytes, List.headD_cons, List.tail_cons, List.length_cons, Nat.reduceEqDiff]
  by_cases short : rest.length = 32
  · by_cases tag_eq : tag = 0x02 ∨ tag = 0x03
    · cases pointOfX? tag rest with
      | none => simp [short, tag_eq]
      | some Q => simp [short, tag_eq, eq_comm]
    · simp [short, tag_eq]
  · by_cases long : rest.length = 64
    · by_cases tag_eq : tag = 0x04
      · cases pointOfCoordinates? rest with
        | none => simp [long, tag_eq]
        | some Q => simp [long, tag_eq, eq_comm]
      · simp [long, tag_eq]
    · simp [short, long]

/-- Bytes are read as a key exactly if they are written for it and its point is on the curve. -/
theorem ofBytes_eq_ok_iff {bs : Bytes} {k : PublicKey} :
    ofBytes bs = .ok k ↔ k.point.OnCurve ∧ k.toBytes = bs := by
  obtain ⟨P, compressed⟩ := k
  cases bs with
  | nil =>
      -- Both forms have a tag.
      constructor
      · nofun
      · rintro ⟨-, written⟩
        cases compressed <;> cases written
  | cons tag rest =>
      rw [ofBytes_cons_eq_ok_iff, pointOfX?_eq_some_iff, pointOfCoordinates?_eq_some_iff]
      cases compressed with
      | true =>
          have bytes : (PublicKey.mk P true).toBytes = (compressedForm P).toList := rfl
          rw [bytes, compressedForm_eq_iff]
          constructor
          · rintro (⟨length_eq, tag_eq, ⟨onCurve, value, parity⟩, -⟩ | ⟨-, -, -, other⟩)
            · exact ⟨onCurve, tag_eq, length_eq, value, parity⟩
            · cases other
          · rintro ⟨onCurve, tag_eq, length_eq, value, parity⟩
            exact .inl ⟨length_eq, tag_eq, ⟨onCurve, value, parity⟩, rfl⟩
      | false =>
          have bytes : (PublicKey.mk P false).toBytes = (uncompressedForm P).toList := rfl
          rw [bytes, uncompressedForm_eq_iff]
          constructor
          · rintro (⟨-, -, -, other⟩ | ⟨length_eq, tag_eq, ⟨onCurve, x_value, y_value⟩, -⟩)
            · cases other
            · exact ⟨onCurve, tag_eq, length_eq, x_value, y_value⟩
          · rintro ⟨onCurve, tag_eq, length_eq, x_value, y_value⟩
            exact .inr ⟨length_eq, tag_eq, ⟨onCurve, x_value, y_value⟩, rfl⟩

theorem exists_ofBytes_iff {tag : UInt8} (tag_eq : tag = 0x02 ∨ tag = 0x03) {x : Bytes}
    (length_eq : x.length = 32) :
    (∃ k, ofBytes (tag :: x) = .ok k) ↔
      Bytes.bigEndianValue x < fieldPrime ∧
        IsSquare ((Bytes.bigEndianValue x : ZMod fieldPrime) ^ 3 + 7) := by
  rw [← @exists_pointOfX?_iff tag]
  constructor
  · rintro ⟨k, read⟩
    rcases ofBytes_cons_eq_ok_iff.mp read with ⟨-, -, found, -⟩ | ⟨long, -⟩
    · exact ⟨k.point, found⟩
    · omega
  · rintro ⟨P, found⟩
    exact ⟨⟨P, true⟩, ofBytes_cons_eq_ok_iff.mpr (.inl ⟨length_eq, tag_eq, found, rfl⟩)⟩

theorem ofHex_eq_ok_iff {s : String} {k : PublicKey} :
    ofHex s = .ok k ↔ k.point.OnCurve ∧ Hex.decode s = .ok k.toBytes := by
  rw [ofHex]
  cases Hex.decode s with
  | error fault => simp
  | ok bs => rw [ofBytes_eq_ok_iff, Except.ok.injEq, eq_comm (a := bs)]

end KeyTree.PublicKey
