import KeyTree.Proofs.Tree.Framing
import KeyTree.Proofs.Tree.Written
/-!
Which streams are read as a node, and how far the node tells the bytes that it was read from.

A record is read exactly from a layout after its size in one of four forms
(`apply_read_eq_ok_iff`).  The layout is fixed by the node, the form of the size is not: the reader
looks only at the number that the size is (`read_framed`, `not_written_of_read`).
-/

set_option autoImplicit false
set_option relaxedAutoImplicit false

namespace KeyTree.Record

/-- The forms in which the size of a layout can stand before it.  The first one is written. -/
def sizePrefixes : List Bytes :=
  [[0x4a], [0xfd, 0x4a, 0], [0xfe, 0x4a, 0, 0, 0], [0xff, 0x4a, 0, 0, 0, 0, 0, 0, 0]]

private theorem form_iff {bs : Bytes} : CompactSize.Form 74 bs ↔ bs ∈ sizePrefixes := by
  constructor
  · intro form
    cases form with
    | byte _ => decide
    | wide width _ =>
        rcases CompactSize.width?_eq_some_iff.mp width with ⟨rfl, rfl⟩ | ⟨rfl, rfl⟩ | ⟨rfl, rfl⟩
        · decide
        · decide
        · decide
  · intro listed
    simp only [sizePrefixes, List.mem_cons, List.not_mem_nil, or_false] at listed
    rcases listed with rfl | rfl | rfl | rfl
    · exact .byte (by decide)
    · exact @CompactSize.Form.wide 74 0xfd 2 rfl (by decide)
    · exact @CompactSize.Form.wide 74 0xfe 4 rfl (by decide)
    · exact @CompactSize.Form.wide 74 0xff 8 rfl (by decide)

/-- The streams that have a layout after a form of its size, and then the rest. -/
def carriers (layout : Octets 74) (rest : Bytes) : List Bytes :=
  sizePrefixes.map fun size => size ++ layout.toList ++ rest

private theorem eq_of_mem_carriers {stream rest : Bytes} {layout : Octets 74}
    (carried : stream ∈ carriers layout rest) (narrow : stream.head? = some 0x4a) :
    stream = (0x4a :: layout.toList) ++ rest := by
  simp only [carriers, sizePrefixes, List.map_cons, List.map_nil, List.mem_cons,
    List.not_mem_nil, or_false] at carried
  rcases carried with rfl | rfl | rfl | rfl
  · rfl
  · exact absurd (Option.some.inj narrow) (by decide)
  · exact absurd (Option.some.inj narrow) (by decide)
  · exact absurd (Option.some.inj narrow) (by decide)

/-- A record is read exactly from its layout after a form of the size, and what follows is left. -/
theorem apply_read_eq_ok_iff {stream rest : Bytes} {layout : Octets 74} :
    read.apply stream = (.ok layout, rest) ↔ stream ∈ carriers layout rest := by
  constructor
  · intro taken
    obtain ⟨size, left, first, second⟩ := Update.apply_bind_eq_ok_iff.mp taken
    obtain ⟨form, stands, rfl⟩ :=
      CompactSize.apply_read_eq_ok_iff.mp (Update.apply_mapError_eq_ok_iff.mp first)
    split at second
    · rename_i framed
      obtain rfl : size = 74 := UInt64.toNat_inj.mp framed
      have front := Reader.apply_octets_eq_ok_iff.mp (Update.apply_mapError_eq_ok_iff.mp second)
      exact List.mem_map.mpr ⟨form, form_iff.mp stands, by rw [front, List.append_assoc]⟩
    · cases second
  · intro carried
    obtain ⟨size, listed, rfl⟩ := List.mem_map.mp carried
    exact (takes_read (form_iff.mpr listed) layout).whole rest

/-- Nodes of a kind are written in one form, and read from it after any form of the size: where
one was read, exactly the streams that have its layout after one of the four sizes, and the same
bytes left, give it too.  A stream that starts with the size as it is written starts with the
record as it is written. -/
structure FramedForm {α : Type} (write : α → Except TreeError Bytes)
    (read : Update Bytes TreeError α) : Prop where
  carried : ∀ stream rest x, read.apply stream = (.ok x, rest) →
    ∃ layout : Octets 74, write x = .ok (0x4a :: layout.toList) ∧
      ∀ stream', read.apply stream' = (.ok x, rest) ↔ stream' ∈ carriers layout rest
  narrow : ∀ stream rest x, read.apply stream = (.ok x, rest) → stream.head? = some 0x4a →
    ∃ record, write x = .ok record ∧ stream = record ++ rest

section

variable {α : Type} {WellFormed : α → Prop} {encode : α → Except TreeError (Octets 74)}
  {decode : Bytes → Except TreeError α} {stream rest : Bytes} {layout : Octets 74} {x : α}

private theorem apply_read_bind_eq_ok_iff :
    (read >>= fun layout => Update.ofExcept (decode layout.toList)).apply stream = (.ok x, rest) ↔
      ∃ layout : Octets 74, decode layout.toList = .ok x ∧ stream ∈ carriers layout rest := by
  rw [Update.apply_bind_eq_ok_iff]
  constructor
  · rintro ⟨layout, left, taken, read⟩
    obtain ⟨decoded, rfl⟩ := Update.apply_ofExcept_eq_ok_iff.mp read
    exact ⟨layout, decoded, apply_read_eq_ok_iff.mp taken⟩
  · rintro ⟨layout, decoded, carried⟩
    exact ⟨layout, rest, apply_read_eq_ok_iff.mpr carried,
      Update.apply_ofExcept_eq_ok_iff.mpr ⟨decoded, rfl⟩⟩

variable (decode_iff : ∀ bs x, decode bs = .ok x ↔
  WellFormed x ∧ (encode x).map Octets.toList = .ok bs)

include decode_iff

private theorem encode_eq_of_decode (decoded : decode layout.toList = .ok x) :
    encode x = .ok layout := by
  obtain ⟨layout', encoded, same⟩ := map_eq_ok_iff.mp ((decode_iff _ x).mp decoded).2
  rw [encoded, Octets.ext same]

private theorem FramedForm.of_decode_iff :
    FramedForm (fun x => (encode x).map frame)
      (read >>= fun layout => Update.ofExcept (decode layout.toList)) where
  carried stream rest x taken := by
    obtain ⟨layout, decoded, -⟩ := apply_read_bind_eq_ok_iff.mp taken
    have encoded := encode_eq_of_decode decode_iff decoded
    refine ⟨layout, by rw [encoded]; rfl, fun stream' => ?_⟩
    rw [apply_read_bind_eq_ok_iff]
    constructor
    · rintro ⟨layout', decoded', carried⟩
      cases encoded.symm.trans (encode_eq_of_decode decode_iff decoded')
      exact carried
    · exact fun carried => ⟨layout, decoded, carried⟩
  narrow stream rest x taken narrow := by
    obtain ⟨layout, decoded, carried⟩ := apply_read_bind_eq_ok_iff.mp taken
    exact ⟨_, by rw [encode_eq_of_decode decode_iff decoded]; rfl,
      eq_of_mem_carriers carried narrow⟩

end

/-- Nodes of both kinds are framed so. -/
theorem read_framed :
    FramedForm PrivateNode.toRecord PrivateNode.read ∧
    FramedForm (fun y => .ok y.toRecord) PublicNode.read := by
  constructor
  · exact .of_decode_iff fun _ _ => PrivateNode.decode_eq_ok_iff
  · have decode_iff : ∀ bs (y : PublicNode), PublicNode.decode bs = .ok y ↔
        y.WellFormed ∧ (Except.ok y.encode : Except TreeError _).map Octets.toList = .ok bs := by
      intro bs y
      rw [PublicNode.decode_eq_ok_iff, Except.map, Except.ok.injEq]
    exact .of_decode_iff decode_iff

private theorem exists_apply_read_ofOne :
    (∃ x, PrivateNode.decode PrivateNode.rootOfOne = .ok x ∧ ∀ size ∈ sizePrefixes, ∀ rest,
      PrivateNode.read.apply (size ++ PrivateNode.rootOfOne ++ rest) = (.ok x, rest)) ∧
    ∃ y, PublicNode.decode publicOfOne = .ok y ∧ ∀ size ∈ sizePrefixes, ∀ rest,
      PublicNode.read.apply (size ++ publicOfOne ++ rest) = (.ok y, rest) := by
  obtain ⟨x, decoded⟩ := exists_of_toBool
    (by decide +kernel : (PrivateNode.decode PrivateNode.rootOfOne).toBool = true)
  obtain ⟨y, decoded'⟩ := exists_of_toBool
    (by decide +kernel : (PublicNode.decode publicOfOne).toBool = true)
  refine ⟨⟨x, decoded, fun size listed rest => ?_⟩, y, decoded', fun size listed rest => ?_⟩
  · exact apply_read_bind_eq_ok_iff.mpr
      ⟨⟨PrivateNode.rootOfOne, rfl⟩, decoded, List.mem_map.mpr ⟨size, listed, rfl⟩⟩
  · exact apply_read_bind_eq_ok_iff.mpr
      ⟨⟨publicOfOne, rfl⟩, decoded', List.mem_map.mpr ⟨size, listed, rfl⟩⟩

theorem read_framed_ofOne :
    (∃ x, PrivateNode.toRecord x = .ok (0x4a :: PrivateNode.rootOfOne) ∧
      ∀ stream, PrivateNode.read.apply stream = (.ok x, [7]) ↔
        stream ∈ carriers ⟨PrivateNode.rootOfOne, rfl⟩ [7]) ∧
    ∃ y, PublicNode.toRecord y = 0x4a :: publicOfOne ∧
      ∀ stream, PublicNode.read.apply stream = (.ok y, [7]) ↔
        stream ∈ carriers ⟨publicOfOne, rfl⟩ [7] := by
  obtain ⟨privately, publicly⟩ := read_framed
  obtain ⟨⟨x, decoded, read⟩, y, decoded', read'⟩ := exists_apply_read_ofOne
  obtain ⟨node, encoded, same⟩ := map_eq_ok_iff.mp (PrivateNode.decode_eq_ok_iff.mp decoded).2
  have record : x.toRecord = .ok (0x4a :: PrivateNode.rootOfOne) := by
    rw [PrivateNode.toRecord, encoded, ← same]
    rfl
  have record' : y.toRecord = 0x4a :: publicOfOne := by
    rw [← (PublicNode.decode_eq_ok_iff.mp decoded').2]
    rfl
  refine ⟨⟨x, record, ?_⟩, y, record', ?_⟩
  · obtain ⟨layout, written, carriers⟩ :=
      privately.carried _ _ _ (read [0x4a] List.mem_cons_self [7])
    rw [record, Except.ok.injEq, List.cons.injEq] at written
    rwa [← Octets.ext (a := ⟨PrivateNode.rootOfOne, rfl⟩) written.2] at carriers
  · obtain ⟨layout, written, carriers⟩ :=
      publicly.carried _ _ _ (read' [0x4a] List.mem_cons_self [7])
    rw [record', Except.ok.injEq, List.cons.injEq] at written
    rwa [← Octets.ext (a := ⟨publicOfOne, rfl⟩) written.2] at carriers

/-- A stream that is read as a node need not start with the record of the node: with the size in
three bytes it is read as the same node, and so two streams carry one record. -/
theorem not_written_of_read :
    ¬ (∀ stream rest x, PrivateNode.read.apply stream = (.ok x, rest) →
      ∃ record, x.toRecord = .ok record ∧ stream = record ++ rest) ∧
    ¬ (∀ stream rest y, PublicNode.read.apply stream = (.ok y, rest) →
      stream = y.toRecord ++ rest) ∧
    (∃ x, PrivateNode.read.apply (0x4a :: PrivateNode.rootOfOne) = (.ok x, []) ∧
      PrivateNode.read.apply (0xfd :: 0x4a :: 0 :: PrivateNode.rootOfOne) = (.ok x, [])) ∧
    ∃ y, PublicNode.read.apply (0x4a :: publicOfOne) = (.ok y, []) ∧
      PublicNode.read.apply (0xfd :: 0x4a :: 0 :: publicOfOne) = (.ok y, []) := by
  obtain ⟨⟨x, -, read⟩, y, -, read'⟩ := exists_apply_read_ofOne
  have narrow := read [0x4a] (by decide) []
  have wide := read [0xfd, 0x4a, 0] (by decide) []
  have narrow' := read' [0x4a] (by decide) []
  have wide' := read' [0xfd, 0x4a, 0] (by decide) []
  refine ⟨?_, ?_, ⟨x, narrow, wide⟩, y, narrow', wide'⟩
  · intro claimed
    obtain ⟨record, written, same⟩ := claimed _ _ _ narrow
    obtain ⟨record', written', same'⟩ := claimed _ _ _ wide
    cases written.symm.trans written'
    exact absurd (same.trans same'.symm) (by decide)
  · intro claimed
    exact absurd ((claimed _ _ _ narrow').trans (claimed _ _ _ wide').symm) (by decide)

end KeyTree.Record
