import KeyTree.Proofs.Encoding.CompactSize
import KeyTree.Proofs.Tree.PublicNode
/-!
Nodes of both kinds one after the other in a stream.

A record is read with exactly its bytes used up, whether or not they are a node's, and a part of it
is too short (`Record.takes_read`).  So of any sequence of records each is answered, nothing after
them is touched, and where the stream ends inside a record those before it are still answered
(`Record.stream_exact`).
-/

set_option autoImplicit false
set_option relaxedAutoImplicit false

namespace KeyTree

inductive Node where
  | secret (x : PrivateNode)
  | visible (y : PublicNode)

inductive NodeKind where
  | secret
  | visible

namespace NodeKind

def read : NodeKind → Update Bytes TreeError Node
  | .secret => do
      let x ← PrivateNode.read
      return .secret x
  | .visible => do
      let y ← PublicNode.read
      return .visible y

def decode (bs : Bytes) : NodeKind → Except TreeError Node
  | .secret => (PrivateNode.decode bs).map .secret
  | .visible => (PublicNode.decode bs).map .visible

end NodeKind

namespace Node

def Obtainable : Node → Prop
  | .secret x => x.Obtainable
  | .visible y => y.Obtainable

def kind : Node → NodeKind
  | .secret _ => .secret
  | .visible _ => .visible

def toRecord : Node → Except TreeError Bytes
  | .secret x => x.toRecord
  | .visible y => .ok y.toRecord

private theorem Obtainable.exists_layout {z : Node} (obtainable : z.Obtainable) :
    ∃ layout : Octets 74, z.toRecord = .ok (Record.frame layout) ∧
      z.kind.decode layout.toList = .ok z := by
  cases z with
  | secret x =>
      have wellFormed := PrivateNode.Obtainable.wellFormed obtainable
      obtain ⟨layout, encoded, same⟩ := map_eq_ok_iff.mp wellFormed.encode_eq
      have decoded : PrivateNode.decode layout.toList = .ok x :=
        PrivateNode.decode_eq_ok_iff.mpr ⟨wellFormed, by rw [encoded]; rfl⟩
      refine ⟨layout, ?_, ?_⟩
      · rw [toRecord, PrivateNode.toRecord, encoded]
        rfl
      · rw [kind, NodeKind.decode, decoded]
        rfl
  | visible y =>
      have wellFormed := PublicNode.Obtainable.wellFormed obtainable
      have decoded : PublicNode.decode y.encode.toList = .ok y :=
        PublicNode.decode_eq_ok_iff.mpr ⟨wellFormed, rfl⟩
      refine ⟨y.encode, rfl, ?_⟩
      rw [kind, NodeKind.decode, decoded]
      rfl

end Node

/-! ### One record -/

section

variable {size : Bytes} (form : CompactSize.Form 74 size) (layout : Octets 74)

include form

theorem Record.takes_read :
    Reader.Takes Record.read (.stream .shortInput) (size ++ layout.toList) (.ok layout) := by
  have framed : (74 : UInt64).toNat = nodeSize := rfl
  refine (form.takes.mapError TreeError.stream).bind ?_
  rw [if_pos framed]
  exact (Reader.takes_octets layout).mapError TreeError.stream

private theorem NodeKind.takes_read (kind : NodeKind) :
    Reader.Takes kind.read (.stream .shortInput) (size ++ layout.toList)
      (kind.decode layout.toList) := by
  have record := Record.takes_read form layout
  cases kind with
  | secret =>
      exact (record.bind_ofExcept fun node => PrivateNode.decode node.toList).map Node.secret
  | visible =>
      exact (record.bind_ofExcept fun node => PublicNode.decode node.toList).map Node.visible

end

/-! ### Any number of records -/

/-- What is written to a stream: the record of a node, or any 74 bytes after their size, which a
reader of some kind is to look at. -/
inductive Entry where
  | node (z : Node) (obtainable : z.Obtainable)
  | framed (kind : NodeKind) {size : Bytes} (form : CompactSize.Form 74 size) (layout : Octets 74)

namespace Entry

def reader : Entry → Update Bytes TreeError Node
  | .node z _ => z.kind.read
  | .framed kind _ _ => kind.read

/-- What the reader is to answer: the node itself, or what the bytes are decoded to. -/
def answer : Entry → Except TreeError Node
  | .node z _ => .ok z
  | .framed kind _ layout => kind.decode layout.toList

def record : Entry → Except TreeError Bytes
  | .node z _ => z.toRecord
  | @framed _ size _ layout => .ok (size ++ layout.toList)

def write (buffer : Bytes) (entry : Entry) : Except TreeError Bytes := do
  let record ← entry.record
  (writeWithin none (buffer ++ record)).mapError .stream

def written (entries : List Entry) : Except TreeError Bytes :=
  entries.foldlM write []

private theorem exists_takes (entry : Entry) : ∃ bs, entry.record = .ok bs ∧ nodeSize < bs.length ∧
    Reader.Takes entry.reader (.stream .shortInput) bs entry.answer := by
  have long {size : Bytes} (form : CompactSize.Form 74 size) (layout : Octets 74) :
      nodeSize < (size ++ layout.toList).length := by
    rw [List.length_append, layout.length_eq]
    exact Nat.lt_add_of_pos_left form.length_pos
  cases entry with
  | node z obtainable =>
      obtain ⟨layout, record, decoded⟩ := obtainable.exists_layout
      have form := CompactSize.form_encode 74
      have takes := NodeKind.takes_read form layout z.kind
      rw [decoded] at takes
      exact ⟨_, record, long form layout, takes⟩
  | framed kind form layout =>
      exact ⟨_, rfl, long form layout, NodeKind.takes_read form layout kind⟩

noncomputable def bytes (entry : Entry) : Bytes :=
  entry.exists_takes.choose

private theorem record_eq (entry : Entry) : entry.record = .ok entry.bytes :=
  entry.exists_takes.choose_spec.1

private theorem length_bytes (entry : Entry) : nodeSize < entry.bytes.length :=
  entry.exists_takes.choose_spec.2.1

private theorem takes_reader (entry : Entry) :
    Reader.Takes entry.reader (.stream .shortInput) entry.bytes entry.answer :=
  entry.exists_takes.choose_spec.2.2

private theorem foldlM_write (entries : List Entry) (buffer : Bytes) :
    entries.foldlM write buffer = .ok (buffer ++ entries.flatMap bytes) := by
  induction entries generalizing buffer with
  | nil => rw [List.flatMap_nil, List.append_nil]; rfl
  | cons entry entries ih =>
      have step : write buffer entry = .ok (buffer ++ entry.bytes) := by
        rw [write, record_eq]
        rfl
      rw [List.foldlM_cons, step, ok_bind, ih, List.append_assoc, List.flatMap_cons]

private theorem written_eq (entries : List Entry) : written entries = .ok (entries.flatMap bytes) :=
  foldlM_write entries []

/-- Reading goes by the entries: each is answered, also after bytes that are no node, and what comes
after them is left; and if the buffer ends inside an entry, at its first byte or later, those before
it are answered and it is too short. -/
structure ReadBack (entries : List Entry) (buffer : Bytes) : Prop where
  whole : ∀ tail,
    Reader.each (entries.map reader) (buffer ++ tail) = (entries.map answer, tail)
  cut : ∀ before entry after, entries = before ++ entry :: after →
    ∃ start record, written before = .ok start ∧ entry.record = .ok record ∧
      start ++ record <+: buffer ∧ nodeSize < record.length ∧
      ∀ n < record.length,
        (Reader.each ((before ++ [entry]).map reader) (buffer.take (start.length + n))).1 =
          before.map answer ++ [.error (.stream .shortInput)]

end Entry

namespace Record

/-- Whatever entries are written to a buffer, reading it loses and invents nothing. -/
theorem stream_exact (entries : List Entry) :
    ∃ buffer, Entry.written entries = .ok buffer ∧ Entry.ReadBack entries buffer := by
  refine ⟨_, Entry.written_eq entries, ?_, ?_⟩
  · exact Reader.each_flatMap Entry.takes_reader entries
  · rintro before entry after rfl
    refine ⟨_, _, Entry.written_eq before, entry.record_eq, ?_, entry.length_bytes, ?_⟩
    · rw [List.flatMap_append, List.flatMap_cons, ← List.append_assoc]
      exact List.prefix_append _ _
    · intro n shorter
      rw [List.flatMap_append, List.flatMap_cons, List.take_length_add_append,
        List.take_append_of_le_length shorter.le]
      exact Reader.each_cut Entry.takes_reader before entry shorter

theorem stream_exact_three :
    ∃ (x : PrivateNode) (y : PublicNode) (secret : x.Obtainable) (visible : y.Obtainable)
      (form : CompactSize.Form 74 [0xfd, 74, 0]) (buffer : Bytes),
      PrivateNode.decode PrivateNode.rootOfOne = .ok x ∧ x.neuter = .ok y ∧
      Entry.written [.node (.secret x) secret, .framed .visible form (Octets.zero 74),
        .node (.visible y) visible] = .ok buffer ∧
      (∀ tail, Reader.each [NodeKind.secret.read, NodeKind.visible.read, NodeKind.visible.read]
          (buffer ++ tail) =
        ([.ok (.secret x), .error (.invalidLayout (.publicMarker 0)), .ok (.visible y)], tail)) ∧
      ∀ n < 77, (Reader.each [NodeKind.secret.read, NodeKind.visible.read]
          (buffer.take (75 + n))).1 = [.ok (.secret x), .error (.stream .shortInput)] := by
  have layout : PrivateNode.Layout PrivateNode.rootOfOne :=
    ⟨by decide, by decide, by decide, by decide⟩
  obtain ⟨x, read⟩ := PrivateNode.exists_decode_iff.mpr layout
  have secret : x.Obtainable := .decode read
  obtain ⟨d, A, holds⟩ := secret.wellFormed.exists_holds
  have neutered := PrivateNode.neuter_eq holds
  have visible : PublicNode.Obtainable ⟨x.toNodeHeader, ⟨A, true⟩⟩ := .neuter secret neutered
  have form : CompactSize.Form 74 [0xfd, 74, 0] :=
    @CompactSize.Form.wide 74 0xfd 2 rfl (by decide)
  obtain ⟨buffer, written, readBack⟩ := stream_exact [.node (.secret x) secret,
    .framed .visible form (Octets.zero 74), .node (.visible ⟨x.toNodeHeader, ⟨A, true⟩⟩) visible]
  refine ⟨x, _, secret, visible, form, buffer, read, neutered, written, readBack.whole, ?_⟩
  obtain ⟨start, record, started, recorded, -, -, short⟩ := readBack.cut [_] _ [_] rfl
  have length_start : start.length = 75 := by
    obtain ⟨node, framed, -⟩ := Node.Obtainable.exists_layout (z := .secret x) secret
    have record : Entry.record (.node (.secret x) secret) = .ok (frame node) := framed
    have first : Entry.written [.node (.secret x) secret] = .ok (frame node) := by
      rw [Entry.written, List.foldlM_cons, Entry.write, record]
      rfl
    obtain rfl := Except.ok.inj (started.symm.trans first)
    rw [frame, List.length_append, node.length_eq]
    rfl
  cases recorded
  rw [length_start] at short
  exact short

end Record

end KeyTree
