import KeyTree.Proofs.Curve.GroupOrder
import KeyTree.Proofs.DerForm
import KeyTree.Signature.Basic
/-!
Signatures by their elements: the low form, and the two byte forms read back.
-/

set_option autoImplicit false
set_option relaxedAutoImplicit false

namespace KeyTree.Signature

open Curve

@[ext]
theorem ext_elements {σ τ : Signature} (r_eq : σ.r = τ.r) (s_eq : σ.s = τ.s) : σ = τ := by
  cases σ
  cases τ
  cases r_eq
  cases s_eq
  rfl

theorem toZMod_r_ne_zero (σ : Signature) : σ.r.toZMod ≠ 0 :=
  mt Residue.toZMod_eq_zero.mp σ.r_ne_zero

theorem toZMod_s_ne_zero (σ : Signature) : σ.s.toZMod ≠ 0 :=
  mt Residue.toZMod_eq_zero.mp σ.s_ne_zero

theorem ofScalars?_eq_some_iff {r s : Scalar} {σ : Signature} :
    ofScalars? r s = some σ ↔ σ.r = r ∧ σ.s = s := by
  unfold ofScalars?
  constructor
  · intro made
    split at made
    · split at made
      · cases made
        exact ⟨rfl, rfl⟩
      · cases made
    · cases made
  · rintro ⟨rfl, rfl⟩
    rw [dif_pos σ.r_ne_zero, dif_pos σ.s_ne_zero]

theorem ofNats?_eq_some_iff {r s : Nat} {σ : Signature} :
    ofNats? r s = some σ ↔ σ.r.val = r ∧ σ.s.val = s := by
  constructor
  · intro made
    simp only [ofNats?, Option.bind_eq_bind, Option.bind_eq_some_iff, Residue.ofNat?_eq_some_iff,
      ofScalars?_eq_some_iff] at made
    obtain ⟨_, r_eq, _, s_eq, rfl, rfl⟩ := made
    exact ⟨r_eq, s_eq⟩
  · rintro ⟨rfl, rfl⟩
    simp only [ofNats?, Residue.ofNat?_val, Option.bind_eq_bind, Option.bind_some]
    exact ofScalars?_eq_some_iff.mpr ⟨rfl, rfl⟩

/-! ### The low form -/

theorem isLow_iff {σ : Signature} : σ.isLow = true ↔ σ.s.val ≤ halfOrder := by
  rw [isLow, inElementRange_iff, ← Octets.value, value_scalar]
  simp [Residue.val_pos_iff, σ.s_ne_zero]

theorem isLow_iff_le_half {σ : Signature} : σ.isLow = true ↔ σ.s.val ≤ order / 2 := by
  rw [isLow_iff, halfOrder_eq]

theorem val_s_twin (σ : Signature) : σ.twin.s.val = order - σ.s.val :=
  Residue.val_neg_of_ne_zero σ.s_ne_zero

theorem twin_eq_of_add_eq {σ τ : Signature} (first : σ.r = τ.r)
    (second : σ.s.val + τ.s.val = order) : σ.twin = τ := by
  have negated := σ.val_s_twin
  apply ext_elements
  · exact first
  · apply Residue.ext
    omega

/-- Of a signature and its twin exactly one is low, since the order is odd. -/
theorem isLow_twin (σ : Signature) : σ.twin.isLow = !σ.isLow := by
  have bound := σ.s.val_lt
  have halves : order = halfOrder + halfOrder + 1 := by decide
  rw [Bool.eq_iff_iff, isLow_iff, Bool.not_eq_true', ← Bool.not_eq_true, isLow_iff, val_s_twin]
  omega

private theorem twin_ne_self (σ : Signature) : σ.twin ≠ σ := by
  intro same
  have opposite := σ.isLow_twin
  rw [same] at opposite
  exact Bool.not_ne_self σ.isLow opposite.symm

theorem lowS_eq_self_iff {σ : Signature} : σ.lowS = σ ↔ σ.isLow = true := by
  rw [lowS]
  split
  · rename_i low
    exact iff_of_true rfl low
  · rename_i high
    exact iff_of_false σ.twin_ne_self high

theorem isLow_lowS (σ : Signature) : σ.lowS.isLow = true := by
  unfold lowS
  split
  · assumption
  · rename_i high
    rw [isLow_twin, Bool.eq_false_of_not_eq_true high]
    rfl

@[simp]
theorem twin_twin (σ : Signature) : σ.twin.twin = σ := by
  apply ext_elements
  · rfl
  · apply Residue.toZMod_injective
    simp [twin]

theorem lowS_twin (σ : Signature) : σ.twin.lowS = σ.lowS := by
  rw [lowS, lowS, isLow_twin, twin_twin]
  cases σ.isLow <;> rfl

/-! ### Byte forms -/

theorem val_lt_naturalBound (a : Scalar) : a.val < Der.naturalBound :=
  a.val_lt.trans (by decide)

theorem ofDer?_toDer (σ : Signature) : ofDer? σ.toDer = some σ := by
  have r_length := Der.length_naturalContents_lt (val_lt_naturalBound σ.r)
  have s_length := Der.length_naturalContents_lt (val_lt_naturalBound σ.s)
  have short : (Der.natural σ.r.val ++ Der.natural σ.s.val).length < 256 ^ 4 := by
    rw [List.length_append, Der.natural, Der.natural, Der.length_element (by omega),
      Der.length_element (by omega)]
    omega
  have read_s := Der.readNatural?_natural (val_lt_naturalBound σ.s) []
  rw [List.append_nil] at read_s
  rw [ofDer?, toDer, Der.only?_element short]
  simp only [Option.bind_eq_bind, Option.bind_some,
    Der.readNatural?_natural (val_lt_naturalBound σ.r), read_s, List.isEmpty_nil, if_true]
  exact ofNats?_eq_some_iff.mpr ⟨rfl, rfl⟩

theorem length_natural_val_le (a : Scalar) : (Der.natural a.val).length ≤ 35 :=
  Der.length_natural_le (a.val_lt.trans (by decide)) (by decide)

theorem length_toDer_le_of_second {σ : Signature} {k : Nat}
    (s_length : (Der.natural σ.s.val).length ≤ k) (short : k ≤ 35) : σ.toDer.length ≤ 37 + k := by
  have r_length := length_natural_val_le σ.r
  have contents : (Der.natural σ.r.val ++ Der.natural σ.s.val).length ≤ 35 + k := by
    rw [List.length_append]
    omega
  rw [toDer, Der.length_element (by omega)]
  omega

theorem length_toDer_le {σ : Signature} (low : σ.isLow = true) : σ.toDer.length ≤ 71 := by
  have s_length : (Der.natural σ.s.val).length ≤ 34 :=
    Der.length_natural_le ((isLow_iff.mp low).trans_lt (by decide)) (by decide)
  exact length_toDer_le_of_second s_length (by decide)

theorem isLowDer_toDer (σ : Signature) : isLowDer σ.toDer = σ.isLow := by
  rw [isLowDer, ofDer?_toDer]

private theorem isSecret_of_val {a : Scalar} (a_ne_zero : a ≠ 0) {o : Octets 32}
    (written : a.val = o.value) : inElementRange o.toList false = true := by
  refine isSecret_iff.mpr ?_
  rw [← written]
  exact ⟨Residue.val_pos_iff.mpr a_ne_zero, a.val_lt⟩

theorem ofRaw?_eq_some_iff {raw : Octets 64} {σ : Signature} :
    ofRaw? raw = some σ ↔
      σ.r.val = (raw.take (n := 32) 32).value ∧ σ.s.val = (raw.drop (n := 32) 32).value := by
  rw [← ofNats?_eq_some_iff, ofRaw?]
  split
  · rename_i outside
    refine iff_of_false nofun fun read => ?_
    -- The elements of a signature are in range, so neither check refuses their bytes.
    obtain ⟨r_eq, s_eq⟩ := ofNats?_eq_some_iff.mp read
    rw [isSecret_of_val σ.r_ne_zero r_eq, isSecret_of_val σ.s_ne_zero s_eq] at outside
    cases outside
  · rfl

theorem ofRaw?_toRaw (σ : Signature) : ofRaw? σ.toRaw = some σ := by
  rw [ofRaw?_eq_some_iff, toRaw, Octets.take_append, Octets.drop_append, value_scalar,
    value_scalar]
  exact ⟨rfl, rfl⟩

/-- Both halves of the bytes write a number of at least one that is below the order. -/
def ElementsInRange (raw : Octets 64) : Prop :=
  (0 < (raw.take (n := 32) 32).value ∧ (raw.take (n := 32) 32).value < order) ∧
    0 < (raw.drop (n := 32) 32).value ∧ (raw.drop (n := 32) 32).value < order

theorem elementsInRange_iff {raw : Octets 64} :
    ElementsInRange raw ↔ ∃ σ, ofRaw? raw = some σ := by
  constructor
  · rintro ⟨⟨r_pos, r_lt⟩, s_pos, s_lt⟩
    let r : Scalar := ⟨_, r_lt⟩
    let s : Scalar := ⟨_, s_lt⟩
    have r_ne : r ≠ 0 := Residue.val_pos_iff.mp r_pos
    have s_ne : s ≠ 0 := Residue.val_pos_iff.mp s_pos
    exact ⟨⟨r, s, r_ne, s_ne⟩, ofRaw?_eq_some_iff.mpr ⟨rfl, rfl⟩⟩
  · rintro ⟨σ, read⟩
    obtain ⟨r_eq, s_eq⟩ := ofRaw?_eq_some_iff.mp read
    rw [ElementsInRange, ← r_eq, ← s_eq]
    exact ⟨⟨Residue.val_pos_iff.mpr σ.r_ne_zero, σ.r.val_lt⟩,
      Residue.val_pos_iff.mpr σ.s_ne_zero, σ.s.val_lt⟩

end KeyTree.Signature
