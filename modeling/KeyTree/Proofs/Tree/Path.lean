import KeyTree.Proofs.Tree.PathGrammar
/-!
The text of a path is read as the path.

It spells the path (`spells_text`) in the one form that is written (`text_eq`), and so it stands
for all texts that are read as this path.
-/

set_option autoImplicit false
set_option relaxedAutoImplicit false

namespace KeyTree.Path

/-- What is written for an index after the separator. -/
def part (index : UInt32) : List Char :=
  if isHardened index then Numeral.decimal (index &&& ~~~hardenedBit).toNat ++ ['\x27']
  else Numeral.decimal index.toNat

private theorem stepChars_eq (index : UInt32) : stepChars index = '/' :: part index := by
  rw [stepChars, part]
  split <;> rfl

private theorem spellsStep_part (index : UInt32) : SpellsStep (part index) index := by
  have small := index.toNat_lt
  rw [part]
  split
  · rename_i hardened
    have upper := isHardened_iff.mp hardened
    obtain ⟨v, offset⟩ : ∃ v, (index &&& ~~~hardenedBit).toNat = v := ⟨_, rfl⟩
    have value := offset.symm.trans (toNat_offset hardened)
    have marked : SpellsStep ([] ++ (Numeral.decimal v ++ ['\x27'])) index :=
      .step (.inl rfl) (Numeral.isDecimal_decimal v) (by omega) (.hardened (.inl rfl)) (by omega)
    rw [offset]
    exact marked
  · rename_i plain
    have lower : index.toNat < 0x80000000 :=
      Nat.lt_of_not_le fun upper => plain (isHardened_iff.mpr upper)
    have unmarked : SpellsStep ([] ++ (Numeral.decimal index.toNat ++ [])) index :=
      .step (.inl rfl) (Numeral.isDecimal_decimal _) lower .none rfl
    rwa [List.nil_append, List.append_nil] at unmarked

/-! ### The text -/

private theorem toList_text (p : Path) :
    p.text.toList = 'm' :: p.indexes.flatMap fun index => '/' :: part index := by
  have written : stepChars = fun index => '/' :: part index := funext stepChars_eq
  rw [text, String.toList_ofList, written]

private theorem spells_text (p : Path) : Spells p.text p := by
  refine ⟨p.indexes.map part, ?_, [], [], nofun, nofun, ?_⟩
  · rw [List.forall₂_map_left_iff]
    exact List.forall₂_same.mpr fun index _ => spellsStep_part index
  · rw [toList_text, List.nil_append, List.append_nil, List.flatMap_map]

theorem parse_text (p : Path) : parse p.text = .ok p :=
  parse_eq_ok_iff.mpr p.spells_text

/-- The canonical text of a step: the index after a stroke, and for a hardened one the offset in the
upper half with an apostrophe after it. -/
def stepText (index : UInt32) : String :=
  if 0x80000000 ≤ index.toNat then "/" ++ toString (index.toNat - 0x80000000) ++ "'"
  else "/" ++ toString index.toNat

private theorem toList_toString (v : Nat) : (toString v).toList = Numeral.decimal v := by
  rw [Nat.toString_eq_ofList_toDigits, String.toList_ofList, Numeral.decimal_eq_toDigits]

private theorem toList_stepText (index : UInt32) : (stepText index).toList = '/' :: part index := by
  have stroke : "/".toList = ['/'] := rfl
  have mark : "'".toList = ['\x27'] := rfl
  by_cases upper : 0x80000000 ≤ index.toNat
  · have hardened := isHardened_iff.mpr upper
    rw [stepText, if_pos upper, String.toList_append, String.toList_append, toList_toString, part,
      if_pos hardened, toNat_offset hardened, stroke, mark, List.append_assoc,
      List.singleton_append]
  · have plain : ¬ isHardened index = true := fun hardened => upper (isHardened_iff.mp hardened)
    rw [stepText, if_neg upper, String.toList_append, toList_toString, part, if_neg plain, stroke,
      List.singleton_append]

theorem text_eq (p : Path) : p.text = "m" ++ String.join (p.indexes.map stepText) := by
  rw [← String.toList_inj, toList_text, String.toList_append, String.toList_join,
    List.flatMap_map]
  simp only [toList_stepText]
  rfl

/-! ### Canonical texts -/

def canonical (s : String) : Except Error String :=
  (parse s).map text

private theorem canonical_of_parse {s : String} {p : Path} (read : parse s = .ok p) :
    canonical s = .ok p.text := by
  rw [canonical, read]
  rfl

/-- Every path is read back from its text, so that no two paths share a text.  A text that is read
is replaced by its canonical one, which is read as the same path and is not changed again. -/
theorem text_faithful :
    (∀ p, parse p.text = .ok p) ∧ Function.Injective text ∧
      ∀ s p, parse s = .ok p → canonical s = .ok p.text ∧ parse p.text = parse s ∧
        canonical p.text = .ok p.text := by
  refine ⟨parse_text, ?_, ?_⟩
  · intro p q same
    have read := parse_text q
    rw [← same, parse_text] at read
    exact Except.ok.inj read
  · intro s p read
    exact ⟨canonical_of_parse read, p.parse_text.trans read.symm,
      canonical_of_parse p.parse_text⟩

theorem text_faithful_last :
    let p : Path := ⟨[0x8000002c, 0xffffffff, 0x7fffffff]⟩
    parse " m/+044h/2147483647H/2147483647\n" = .ok p ∧
      canonical " m/+044h/2147483647H/2147483647\n" = .ok "m/44'/2147483647'/2147483647" ∧
      parse "m/44'/2147483647'/2147483647" = .ok p ∧
      canonical "m/44'/2147483647'/2147483647" = .ok "m/44'/2147483647'/2147483647" := by
  intro p
  have read : parse " m/+044h/2147483647H/2147483647\n" = .ok p := by decide +kernel
  have shown : p.text = "m/44'/2147483647'/2147483647" := by decide +kernel
  obtain ⟨-, -, stands⟩ := text_faithful
  obtain ⟨first, same, again⟩ := stands _ p read
  rw [shown] at first same again
  exact ⟨read, first, same.trans read, again⟩

end KeyTree.Path
