import KeyTree.Proofs.BigEndian
import KeyTree.Proofs.Except
import KeyTree.Tree.Header
/-!
The layout of nodes in its parts: 41 bytes that are exactly the headers, a marker, and the 32 bytes
of a key.
-/

set_option autoImplicit false
set_option relaxedAutoImplicit false

namespace KeyTree

namespace NodeHeader

theorem toList_toOctets (h : NodeHeader) :
    h.toOctets.toList = h.depth :: (h.parentFingerprint.toList ++
      ((Octets.ofNat 4 h.childNumber.toNat).toList ++ h.chainCode.octets.toList)) := by
  simp [toOctets]

@[simp]
theorem ofOctets_toOctets (h : NodeHeader) : ofOctets h.toOctets = h := by
  have rest : h.toOctets.drop (n := 40) 1 = h.parentFingerprint.append (n := 36)
      ((Octets.ofNat 4 h.childNumber.toNat).append (n := 32) h.chainCode.octets) := by
    apply Octets.ext
    rw [Octets.toList_drop, toList_toOctets]
    rfl
  have first : h.toOctets.toList.headD 0 = h.depth := by
    rw [toList_toOctets]
    rfl
  simp only [ofOctets, rest, first, Octets.take_append, Octets.drop_append,
    Octets.value_ofNat_toNat, UInt32.ofNat_toNat]

@[simp]
theorem toOctets_ofOctets (o : Octets 41) : (ofOctets o).toOctets = o := by
  apply Octets.ext
  obtain ⟨bs, length_eq⟩ := o
  cases bs with
  | nil => cases length_eq
  | cons depth rest =>
      rw [toList_toOctets]
      simp only [ofOctets, Octets.toNat_ofNat_value, Octets.ofNat_value, Octets.toList_take,
        Octets.toList_drop, List.headD_cons, List.drop_succ_cons, List.drop_zero,
        List.take_append_drop]

end NodeHeader

variable {bs : Bytes} {header : NodeHeader} {marker : UInt8} {key : Octets 32}

theorem splitNode_eq_ok_iff :
    splitNode bs = .ok (header, marker, key) ↔
      header.toOctets.toList ++ marker :: key.toList = bs := by
  constructor
  · intro split_eq
    unfold splitNode at split_eq
    split at split_eq
    · cases split_eq
    · rename_i o read
      obtain rfl := Octets.ofList?_eq_some_iff.mp read
      simp only [Except.ok.injEq, Prod.mk.injEq] at split_eq
      obtain ⟨rfl, rfl, rfl⟩ := split_eq
      have last : (o.drop (n := 33) 41).toList =
          (o.drop (n := 33) 41).toList.headD 0 ::
            ((o.drop (n := 33) 41).drop (n := 32) 1).toList := by
        obtain ⟨bs, length_eq⟩ := o.drop (n := 33) 41
        cases bs with
        | nil => cases length_eq
        | cons b rest => rfl
      rw [NodeHeader.toOctets_ofOctets, ← last, ← Octets.toList_append,
        Octets.append_take_drop]
  · rintro rfl
    have read : Octets.ofList? 74 (header.toOctets.toList ++ marker :: key.toList) =
        some (header.toOctets.append (Octets.append ⟨[marker], rfl⟩ key : Octets 33)) :=
      Octets.ofList?_eq_some_iff.mpr rfl
    have last : (Octets.append ⟨[marker], rfl⟩ key : Octets 33).toList.headD 0 = marker := rfl
    simp only [splitNode, read, Octets.take_append, Octets.drop_append,
      NodeHeader.ofOctets_toOctets, last]

theorem exists_parts_of_split {α : Type} {a : α}
    {next : NodeHeader × UInt8 × Octets 32 → Except TreeError α}
    (made : (splitNode bs >>= next) = .ok a) :
    ∃ (header : NodeHeader) (marker : UInt8) (key : Octets 32),
      header.toOctets.toList ++ marker :: key.toList = bs := by
  obtain ⟨⟨header, marker, key⟩, split_eq, -⟩ := bind_eq_ok_iff.mp made
  exact ⟨header, marker, key, splitNode_eq_ok_iff.mp split_eq⟩

theorem exists_parts_of_length (length_eq : bs.length = nodeSize) :
    ∃ (header : NodeHeader) (marker : UInt8) (key : Octets 32),
      header.toOctets.toList ++ marker :: key.toList = bs := by
  have read : Octets.ofList? 74 bs = some ⟨bs, length_eq⟩ :=
    Octets.ofList?_eq_some_iff.mpr rfl
  obtain ⟨⟨header, marker, key⟩, found⟩ : ∃ parts, splitNode bs = .ok parts := by
    rw [splitNode, read]
    exact ⟨_, rfl⟩
  exact ⟨header, marker, key, splitNode_eq_ok_iff.mp found⟩

theorem length_parts : (header.toOctets.toList ++ marker :: key.toList).length = nodeSize := by
  rw [List.length_append, List.length_cons, header.toOctets.length_eq, key.length_eq]
  rfl

theorem getElem?_parts :
    (header.toOctets.toList ++ marker :: key.toList)[41]? = some marker := by
  have length_eq := header.toOctets.length_eq
  rw [List.getElem?_append_right (by omega), length_eq]
  rfl

theorem drop_parts : (header.toOctets.toList ++ marker :: key.toList).drop 42 = key.toList := by
  have length_eq := header.toOctets.length_eq
  rw [List.drop_append, length_eq, List.drop_eq_nil_of_le (by omega), List.nil_append]
  rfl

end KeyTree
