import KeyTree.Signature.Ecdsa
import KeyTree.Signature.Forms
/-!
Recovery ids as bytes, and the compact form of a signature, which is taken apart into what it was
put together from.
-/

set_option autoImplicit false
set_option relaxedAutoImplicit false

namespace KeyTree

private theorem eq_of_lt_four {b : UInt8} (small : b < 4) : b = 0 ∨ b = 1 ∨ b = 2 ∨ b = 3 := by
  simp only [UInt8.lt_iff_toNat_lt, ← UInt8.toNat_inj, UInt8.toNat_ofNat] at small ⊢
  omega

theorem lt_three_iff_le_two {b : UInt8} : b < 3 ↔ b ≤ 2 := by
  rw [UInt8.lt_iff_toNat_lt, UInt8.le_iff_toNat_le]
  exact Nat.lt_succ_iff

namespace Ecdsa.RecoveryId

theorem toByte_lt (id : RecoveryId) : id.toByte < 4 := by
  obtain ⟨odd, reduced⟩ := id
  cases odd <;> cases reduced <;> decide

theorem toByte_eq_three {id : RecoveryId} (large : ¬ id.toByte ≤ 2) : id.toByte = 3 := by
  obtain ⟨odd, reduced⟩ := id
  cases odd <;> cases reduced <;> first | rfl | exact absurd (by decide) large

theorem toByte_le_two_iff {id : RecoveryId} : id.toByte ≤ 2 ↔ id.toByte ≠ 3 := by
  constructor
  · intro small three
    rw [three] at small
    exact absurd small (by decide)
  · exact fun notThree => Decidable.not_not.mp (mt toByte_eq_three notThree)

@[simp]
theorem ofByte?_toByte (id : RecoveryId) : ofByte? id.toByte = some id := by
  obtain ⟨odd, reduced⟩ := id
  cases odd <;> cases reduced <;> rfl

private theorem ofByte?_eq_some_iff {b : UInt8} {id : RecoveryId} :
    ofByte? b = some id ↔ b = id.toByte := by
  constructor
  · intro read
    have small : b < 4 := by
      apply Decidable.byContradiction
      intro large
      rw [ofByte?, if_neg large] at read
      contradiction
    rcases eq_of_lt_four small with rfl | rfl | rfl | rfl <;> cases read <;> rfl
  · rintro rfl
    exact ofByte?_toByte id

theorem exists_toByte {b : UInt8} (small : b < 4) : ∃ id : RecoveryId, b = id.toByte :=
  ⟨_, ofByte?_eq_some_iff.mp (if_pos small)⟩

theorem toByte_opposite (id : RecoveryId) : id.opposite.toByte = id.toByte ^^^ 1 := by
  obtain ⟨odd, reduced⟩ := id
  cases odd <;> cases reduced <;> rfl

theorem find?_all (id : RecoveryId) : all.find? (fun candidate => candidate == id) = some id := by
  obtain ⟨odd, reduced⟩ := id
  cases odd <;> cases reduced <;> rfl

end Ecdsa.RecoveryId

namespace CompactSignature

def headerOf (recoveryId : UInt8) (compressed : Bool) : UInt8 :=
  headerBase + recoveryId + if compressed then headerCompressed else 0

theorem parts_of_octets {c : CompactSignature} {raw : Octets 64} {recoveryId : UInt8}
    {compressed : Bool} (small : recoveryId < 4)
    (written : c.octets.toList = headerOf recoveryId compressed :: raw.toList) :
    c.parts = .ok ⟨raw, recoveryId, compressed⟩ := by
  have rest : c.octets.drop (n := 64) 1 = raw := by
    apply Octets.ext
    rw [Octets.toList_drop, written]
    rfl
  rw [CompactSignature.parts]
  simp only [written, List.headD_cons, rest]
  rcases eq_of_lt_four small with h | h | h | h <;> cases h <;> cases compressed <;> rfl

theorem ofParts_spec (raw : Octets 64) (compressed : Bool) {recoveryId : UInt8}
    (small : recoveryId < 4) :
    ∃ c, ofParts ⟨raw, recoveryId, compressed⟩ = .ok c ∧
      c.parts = .ok ⟨raw, recoveryId, compressed⟩ ∧
      c.octets.toList = headerOf recoveryId compressed :: raw.toList := by
  have below : ¬ headerCompressed ≤ recoveryId := by
    rw [UInt8.not_le]
    exact small
  let header : Octets 1 := ⟨[headerOf recoveryId compressed], rfl⟩
  exact ⟨⟨header.append raw⟩, if_neg below, parts_of_octets small rfl, rfl⟩

end CompactSignature

end KeyTree
