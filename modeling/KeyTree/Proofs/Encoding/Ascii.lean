import KeyTree.Bytes
/-!
The bytes of ASCII texts: one for each character.  A character outside ASCII starts with a byte of
at least 128, so that bytes below 128 are read as the characters they are.
-/

set_option autoImplicit false
set_option relaxedAutoImplicit false

namespace KeyTree.Bytes

theorem utf8EncodeChar_of_ascii {c : Char} (ascii : c.toNat < 128) :
    String.utf8EncodeChar c = [UInt8.ofNat c.toNat] :=
  if_pos (Nat.le_of_lt_succ ascii)

theorem ofText_ofList {cs : List Char} (ascii : ∀ c ∈ cs, c.toNat < 128) :
    ofText (String.ofList cs) = cs.map fun c => UInt8.ofNat c.toNat := by
  rw [ofText, String.toList_ofList]
  induction cs with
  | nil => rfl
  | cons c cs ih =>
      obtain ⟨first, others⟩ := List.forall_mem_cons.mp ascii
      rw [List.flatMap_cons, utf8EncodeChar_of_ascii first, ih others, List.map_cons,
        List.singleton_append]

theorem utf8EncodeChar_of_not_ascii {c : Char} (beyond : ¬ c.toNat < 128) :
    ∃ b rest, String.utf8EncodeChar c = b :: rest ∧ 128 ≤ b := by
  have lead {v : Nat} (low : 128 ≤ v) (high : v < 256) : 128 ≤ UInt8.ofNat v := by
    rw [UInt8.le_iff_toNat_le, UInt8.toNat_ofNat_of_lt' high]
    exact low
  have large : ¬ c.val.toNat ≤ 127 := fun small => beyond (Nat.lt_succ_of_le small)
  rw [String.utf8EncodeChar, if_neg large]
  split
  · exact ⟨_, _, rfl, lead (by omega) (by omega)⟩
  split
  · exact ⟨_, _, rfl, lead (by omega) (by omega)⟩
  · exact ⟨_, _, rfl, lead (by omega) (by omega)⟩

end KeyTree.Bytes
