import KeyTree.Proofs.Encoding.Base58
import KeyTree.Proofs.Tree.PublicNode
/-!
The written forms of nodes: the layout of 74 bytes and the text.

Both are exact: a form is read as a node exactly if it is the form written for this node, so that
every node is read back and has one form only, and nothing else is read.
-/

set_option autoImplicit false
set_option relaxedAutoImplicit false

namespace KeyTree

open Curve

/-- What is written for the members of a class is read back, and nothing else is read. -/
structure ExactForm {α β ε : Type} (Member : α → Prop) (write : α → Except ε β)
    (read : β → Except ε α) : Prop where
  read_iff : ∀ b x, Member x → (read b = .ok x ↔ write x = .ok b)
  read_back : ∀ x, Member x → ∃ b, write x = .ok b ∧ read b = .ok x
  write_of_read : ∀ b x, read b = .ok x → write x = .ok b
  read_injective : ∀ b b' x, read b = .ok x → read b' = .ok x → b = b'
  image : ∀ b, (∃ x, read b = .ok x) ↔ ∃ x, Member x ∧ write x = .ok b

private theorem ExactForm.of_read_iff {α β ε : Type} {Member WellFormed : α → Prop}
    {write : α → Except ε β} {read : β → Except ε α}
    (read_iff : ∀ b x, read b = .ok x ↔ WellFormed x ∧ write x = .ok b)
    (writes : ∀ x, WellFormed x → ∃ b, write x = .ok b)
    (wellFormed : ∀ x, Member x → WellFormed x) (closed : ∀ b x, read b = .ok x → Member x) :
    ExactForm Member write read where
  read_iff b x member := by
    rw [read_iff]
    exact and_iff_right (wellFormed x member)
  read_back x member := by
    obtain ⟨b, written⟩ := writes x (wellFormed x member)
    exact ⟨b, written, (read_iff b x).mpr ⟨wellFormed x member, written⟩⟩
  write_of_read b x found := ((read_iff b x).mp found).2
  read_injective b b' x found found' := by
    have written := ((read_iff b x).mp found).2
    have written' := ((read_iff b' x).mp found').2
    exact Except.ok.inj (written.symm.trans written')
  image b := by
    constructor
    · rintro ⟨x, found⟩
      exact ⟨x, closed b x found, ((read_iff b x).mp found).2⟩
    · rintro ⟨x, member, written⟩
      exact ⟨x, (read_iff b x).mpr ⟨wellFormed x member, written⟩⟩

namespace Record

/-! ### The layout -/

/-- The layouts of nodes are exact, and the bytes alone tell what they are a layout of: a private
node, a public node or nothing. -/
theorem layout_exact :
    ExactForm PrivateNode.Obtainable (fun x => x.encode.map Octets.toList) PrivateNode.decode ∧
    ExactForm PublicNode.Obtainable (fun y => .ok y.encode.toList) PublicNode.decode ∧
    ∀ bs,
      ((∃ x, PrivateNode.decode bs = .ok x) ↔ PrivateNode.Layout bs) ∧
      ((∃ y, PublicNode.decode bs = .ok y) ↔ PublicNode.Layout bs) ∧
      ¬ ((∃ x, PrivateNode.decode bs = .ok x) ∧ ∃ y, PublicNode.decode bs = .ok y) := by
  refine ⟨?_, ?_, ?_⟩
  · exact .of_read_iff (fun _ _ => PrivateNode.decode_eq_ok_iff)
      (fun x wellFormed => ⟨_, wellFormed.encode_eq⟩) (fun x obtainable => obtainable.wellFormed)
      (fun bs x read => .decode read)
  · refine .of_read_iff (fun bs y => ?_) (fun y _ => ⟨_, rfl⟩)
      (fun y obtainable => obtainable.wellFormed) (fun bs y read => .decode read)
    rw [PublicNode.decode_eq_ok_iff, Except.ok.injEq]
  · intro bs
    refine ⟨PrivateNode.exists_decode_iff, PublicNode.exists_decode_iff, ?_⟩
    rintro ⟨privately, publicly⟩
    have zero := (PrivateNode.exists_decode_iff.mp privately).marker
    have tag := (PublicNode.exists_decode_iff.mp publicly).marker
    rw [zero, Option.some.injEq, Option.some.injEq] at tag
    exact absurd tag (by decide)

/-- The layout of a public node whose key has the first coordinate one. -/
def publicOfOne : Bytes :=
  List.replicate 41 0 ++ 0x02 :: (List.replicate 31 0 ++ [1])

theorem layout_exact_one :
    (∃ x, PrivateNode.decode PrivateNode.rootOfOne = .ok x ∧
      x.encode.map Octets.toList = .ok PrivateNode.rootOfOne) ∧
    (∃ y, PublicNode.decode publicOfOne = .ok y ∧ y.encode.toList = publicOfOne) ∧
    ¬ (∃ y, PublicNode.decode PrivateNode.rootOfOne = .ok y) ∧
    ¬ ∃ x, PrivateNode.decode publicOfOne = .ok x := by
  obtain ⟨privately, publicly, layouts⟩ := layout_exact
  obtain ⟨private_iff, -, apart⟩ := layouts PrivateNode.rootOfOne
  obtain ⟨-, public_iff, apart'⟩ := layouts publicOfOne
  have private_layout : PrivateNode.Layout PrivateNode.rootOfOne :=
    ⟨by decide, by decide, by decide, by decide⟩
  have root : (0x4218F20AE6C646B363DB68605822FB14264CA8D2587FDD6FBC750D587E76A7EE :
      ZMod fieldPrime) ^ 2 = (1 : ZMod fieldPrime) ^ 3 + 7 := by decide +kernel
  have public_layout : PublicNode.Layout publicOfOne := {
    length_eq := by decide
    marker := .inl (by decide)
    bounded := by decide
    square := by
      have one : Bytes.bigEndianValue (publicOfOne.drop 42) = 1 := by decide
      rw [one, Nat.cast_one, ← root]
      exact .sq _ }
  obtain ⟨x, read⟩ := private_iff.mpr private_layout
  obtain ⟨y, read'⟩ := public_iff.mpr public_layout
  exact ⟨⟨x, read, privately.write_of_read _ x read⟩,
    ⟨y, read', Except.ok.inj (publicly.write_of_read _ y read')⟩,
    fun other => apart ⟨⟨x, read⟩, other⟩, fun other => apart' ⟨other, ⟨y, read'⟩⟩⟩

/-! ### The text -/

theorem length_checksum (payload : Bytes) : (Base58.checksum payload).length = 4 := by
  rw [Base58.checksum, List.length_take, (doubleSha256 payload).length_eq]
  rfl

theorem ofText_text (version found : UInt32) (node : Octets 74) :
    ofText version (text found node) =
      if found = version then .ok node else .error (.invalidVersion found) := by
  let payload : Octets 78 := (Octets.ofNat 4 found.toNat).append node
  let guard : Octets 4 := ⟨Base58.checksum payload.toList, length_checksum _⟩
  have decoded : Base58.decode (text found node) = .ok (payload.append guard).toList :=
    Base58.decode_eq_ok_iff.mpr rfl
  have sized : Octets.ofList? 82 (payload.append guard).toList = some (payload.append guard) :=
    Octets.ofList?_eq_some_iff.mpr rfl
  have named : UInt32.ofNat (Octets.ofNat 4 found.toNat).value = found := by
    rw [Octets.value_ofNat_toNat, UInt32.ofNat_toNat]
  have checked : guard.toList = Base58.checksum payload.toList := rfl
  rw [ofText, decoded]
  simp only [sized, Octets.take_append, Octets.drop_append, payload, named]
  rw [if_neg (not_not.mpr checked), ite_not]

private theorem ofText_eq_ok_iff {version : UInt32} {s : String} {node : Octets 74} :
    ofText version s = .ok node ↔ text version node = s := by
  constructor
  · -- Every check that is passed fixes a part of the bytes, and the bytes fix the text.
    intro read
    unfold ofText at read
    split at read
    · cases read
    rename_i bs decoded
    split at read
    · cases read
    rename_i o sized
    obtain rfl := Octets.ofList?_eq_some_iff.mp sized
    obtain ⟨payload, guard, rfl⟩ : ∃ (payload : Octets 78) (guard : Octets 4),
        o = payload.append guard := ⟨_, _, (Octets.append_take_drop (n := 4) o).symm⟩
    obtain ⟨found, node', rfl⟩ : ∃ (found : Octets 4) (node' : Octets 74),
        payload = found.append node' := ⟨_, _, (Octets.append_take_drop (n := 74) payload).symm⟩
    simp only [Octets.take_append, Octets.drop_append, Octets.toList_append] at read
    split at read
    · cases read
    rename_i checked
    split at read
    · cases read
    rename_i named
    rw [not_not] at checked named
    obtain rfl := Except.ok.inj read
    have numbered : Bytes.bigEndian 4 version.toNat = found.toList := by
      rw [← named, Octets.toNat_ofNat_value, Octets.value, Bytes.bigEndian_bigEndianValue
        found.length_eq]
    have encoded := Base58.decode_eq_ok_iff.mp decoded
    rw [Octets.toList_append, Octets.toList_append, checked] at encoded
    rw [text, Base58.encodeCheck, numbered]
    exact encoded
  · rintro rfl
    rw [ofText_text, if_pos rfl]

end Record

theorem PrivateNode.ofText_eq_ok_iff {s : String} {x : PrivateNode} :
    ofText s = .ok x ↔ x.WellFormed ∧ x.toText = .ok s := by
  rw [ofText, bind_eq_ok_iff]
  constructor
  · rintro ⟨node, found, read⟩
    obtain ⟨wellFormed, written⟩ := decode_eq_ok_iff.mp read
    obtain ⟨node', encoded, same⟩ := map_eq_ok_iff.mp written
    obtain rfl := Octets.ext same
    refine ⟨wellFormed, ?_⟩
    rw [toText, encoded, ← Record.ofText_eq_ok_iff.mp found]
    rfl
  · rintro ⟨wellFormed, written⟩
    obtain ⟨node, encoded, shown⟩ := map_eq_ok_iff.mp written
    refine ⟨node, Record.ofText_eq_ok_iff.mpr shown, decode_eq_ok_iff.mpr ⟨wellFormed, ?_⟩⟩
    rw [encoded]
    rfl

theorem PublicNode.ofText_eq_ok_iff {s : String} {y : PublicNode} :
    ofText s = .ok y ↔ y.WellFormed ∧ y.toText = s := by
  rw [ofText, bind_eq_ok_iff]
  constructor
  · rintro ⟨node, found, read⟩
    obtain ⟨wellFormed, written⟩ := decode_eq_ok_iff.mp read
    obtain rfl := Octets.ext written
    exact ⟨wellFormed, Record.ofText_eq_ok_iff.mp found⟩
  · rintro ⟨wellFormed, shown⟩
    exact ⟨y.encode, Record.ofText_eq_ok_iff.mpr shown,
      decode_eq_ok_iff.mpr ⟨wellFormed, rfl⟩⟩

namespace Record

/-- The texts of private and of public nodes are exact. -/
theorem text_exact :
    ExactForm PrivateNode.Obtainable PrivateNode.toText PrivateNode.ofText ∧
    ExactForm PublicNode.Obtainable (fun y => .ok y.toText) PublicNode.ofText := by
  constructor
  · refine .of_read_iff (fun _ _ => PrivateNode.ofText_eq_ok_iff) (fun x wellFormed => ?_)
      (fun x obtainable => obtainable.wellFormed) (fun s x read => .ofText read)
    obtain ⟨node, encoded, -⟩ := map_eq_ok_iff.mp wellFormed.encode_eq
    exact ⟨_, map_eq_ok_iff.mpr ⟨node, encoded, rfl⟩⟩
  · refine .of_read_iff (fun s y => ?_) (fun y _ => ⟨_, rfl⟩)
      (fun y obtainable => obtainable.wellFormed) (fun s y read => .ofText read)
    rw [PublicNode.ofText_eq_ok_iff, Except.ok.injEq]

def textOfOne : String :=
  "xprv9s21ZrQH143K24Mfq5zL5MhWK9hUhhGbd45hLXo2Pq2oqzMMo63oStZ" ++
    "zF93Y5wvzdUayhgkkFoicQZcP3y52uPPxFnfoLZB21TeqtDeZVxb"

theorem text_exact_rootOfOne :
    ∃ x, PrivateNode.decode PrivateNode.rootOfOne = .ok x ∧
      ∀ s, PrivateNode.ofText s = .ok x ↔ s = textOfOne := by
  have layout : PrivateNode.Layout PrivateNode.rootOfOne :=
    ⟨by decide, by decide, by decide, by decide⟩
  obtain ⟨x, read⟩ := PrivateNode.exists_decode_iff.mpr layout
  obtain ⟨-, encoded⟩ := PrivateNode.decode_eq_ok_iff.mp read
  obtain ⟨node, written, same⟩ := map_eq_ok_iff.mp encoded
  obtain rfl : node = ⟨PrivateNode.rootOfOne, rfl⟩ := Octets.ext same
  have shown : text privateVersion ⟨PrivateNode.rootOfOne, rfl⟩ = textOfOne := by
    decide +kernel
  refine ⟨x, read, fun s => ?_⟩
  rw [text_exact.1.read_iff s x (.decode read), PrivateNode.toText, written, ← shown]
  exact ⟨fun made => (Except.ok.inj made).symm, fun made => congrArg Except.ok made.symm⟩

end Record
end KeyTree
