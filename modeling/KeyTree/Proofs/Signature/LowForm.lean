import KeyTree.Proofs.Signature.Elements
/-!
The low form as the chosen one of a signature and its twin.

Bringing a signature into its low form never fails, whatever the second element, and the twins are
the only different signatures with the same low form (`enforceLow_canonical`).
-/

set_option autoImplicit false
set_option relaxedAutoImplicit false

namespace KeyTree.Signature

open Curve

variable {σ τ : Signature}

/-- Signatures with the same first element whose second elements add up to the order: `(r, s)` and
`(r, n - s)`. -/
structure Twins (σ τ : Signature) : Prop where
  first : σ.r = τ.r
  second : σ.s.val + τ.s.val = order

private theorem twins_iff : σ.Twins τ ↔ σ.twin = τ := by
  constructor
  · intro twins
    exact twin_eq_of_add_eq twins.first twins.second
  · rintro rfl
    have negated := σ.val_s_twin
    have bound := σ.s.val_lt
    exact ⟨rfl, by omega⟩

private theorem lowS_eq_self_or_twin (σ : Signature) : σ.lowS = σ ∨ σ.lowS = σ.twin := by
  rw [lowS]
  split
  · exact .inl rfl
  · exact .inr rfl

private theorem twin_injective : Function.Injective twin :=
  Function.LeftInverse.injective twin_twin

/-- Only twins have their low form in common. -/
theorem lowS_eq_lowS_iff : σ.lowS = τ.lowS ↔ σ = τ ∨ σ.twin = τ := by
  constructor
  · intro same
    rcases lowS_eq_self_or_twin σ with own | own <;> rcases lowS_eq_self_or_twin τ with own' | own'
    · exact .inl (own.symm.trans (same.trans own'))
    · right
      rw [← own, same, own', twin_twin]
    · right
      rw [← own, same, own']
    · exact .inl (twin_injective (own.symm.trans (same.trans own')))
  · rintro (rfl | rfl)
    · rfl
    · exact σ.lowS_twin.symm

/-- What a signature is brought into: the first element is kept, the second one is itself or what
it lacks to the order, whichever is at most half of it, and doing so again changes nothing. -/
structure BroughtLow (σ τ : Signature) : Prop where
  first : τ.r = σ.r
  second : τ.s.val = σ.s.val ∨ τ.s.val = order - σ.s.val
  positive : 1 ≤ τ.s.val
  low : τ.s.val ≤ order / 2
  changed_iff : τ ≠ σ ↔ order / 2 < σ.s.val
  again : τ.enforceLow = .ok τ

private theorem broughtLow_lowS (σ : Signature) : σ.BroughtLow σ.lowS := by
  constructor
  · rcases lowS_eq_self_or_twin σ with own | own
    · rw [own]
    · rw [own]
      rfl
  · rcases lowS_eq_self_or_twin σ with own | own
    · exact .inl (by rw [own])
    · exact .inr (by rw [own, val_s_twin])
  · exact Residue.val_pos_iff.mpr σ.lowS.s_ne_zero
  · exact isLow_iff_le_half.mp σ.isLow_lowS
  · rw [Ne, lowS_eq_self_iff, isLow_iff_le_half, Nat.not_le]
  · rw [enforceLow_eq, lowS_eq_self_iff.mpr σ.isLow_lowS]

/-- Every signature is brought into its low form, and this is the same for two signatures exactly if
they are equal or twins. -/
theorem enforceLow_canonical :
    (∀ σ : Signature, ∃ τ, σ.enforceLow = .ok τ ∧ σ.BroughtLow τ) ∧
    ∀ σ τ : Signature, σ.enforceLow = τ.enforceLow ↔ σ = τ ∨ σ.Twins τ := by
  constructor
  · exact fun σ => ⟨σ.lowS, σ.enforceLow_eq, σ.broughtLow_lowS⟩
  · intro σ τ
    rw [enforceLow_eq, enforceLow_eq, Except.ok.injEq, lowS_eq_lowS_iff, twins_iff]

end KeyTree.Signature
