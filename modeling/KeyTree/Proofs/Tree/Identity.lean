import KeyTree.Proofs.Tree.PublicNode
/-!
What nodes are known by: their public key, its hash and the first bytes of it, and their layout.

No type says so, but every node that programs come by has a key in range or on the curve that asks
for the compressed encoding.  Hence these names never fail, a node and its public view have the
same ones, and nodes are equal exactly if their layouts are.
-/

set_option autoImplicit false
set_option relaxedAutoImplicit false

namespace KeyTree

open Curve

namespace PublicNode

/-- The key is compressed and its point is on the curve and not the identity.  The node is named
by the hash of the compressed form. -/
structure Lawful (y : PublicNode) : Prop where
  compressed : y.key.compressed = true
  onCurve : y.key.point.OnCurve
  nonzero : ∃ Q : PointGroup, Q ≠ 0 ∧ Point.ofGroup Q = .affine y.key.point
  identifier : y.identifier = hash160 (PublicKey.compressedForm y.key.point).toList
  fingerprint : y.fingerprint.toList = y.identifier.toList.take 4

theorem WellFormed.lawful {y : PublicNode} (wellFormed : y.WellFormed) : y.Lawful := by
  have bytes : y.key.toBytes = (PublicKey.compressedForm y.key.point).toList := by
    rw [PublicKey.toBytes, if_pos wellFormed.compressed]
  have identifier : y.identifier = hash160 (PublicKey.compressedForm y.key.point).toList := by
    rw [PublicNode.identifier, PublicKey.identifier, bytes]
  obtain ⟨Q, point⟩ := Point.onCurve_iff_exists_ofGroup.mp wellFormed.onCurve
  constructor
  · exact wellFormed.compressed
  · exact wellFormed.onCurve
  · refine ⟨Q, ?_, point⟩
    rintro rfl
    cases point
  · exact identifier
  · rw [identifier]
    rfl

private theorem WellFormed.eq_iff_encode_eq {y y' : PublicNode} (wellFormed : y.WellFormed)
    (wellFormed' : y'.WellFormed) : y = y' ↔ y.encode = y'.encode := by
  constructor
  · rintro rfl
    rfl
  · intro same
    have read : decode y'.encode.toList = .ok y :=
      decode_eq_ok_iff.mpr ⟨wellFormed, congrArg Octets.toList same⟩
    have read' : decode y'.encode.toList = .ok y' := decode_eq_ok_iff.mpr ⟨wellFormed', rfl⟩
    exact Except.ok.inj (read.symm.trans read')

end PublicNode

/-- Valid keys count as equal only if they are the same. -/
theorem SecretKey.beq_eq_true_iff {a b : SecretKey} (valid : a.valid = true)
    (valid' : b.valid = true) : (a == b) = true ↔ a = b := by
  have shown {k : SecretKey} (valid : k.valid = true) : k.toBytes = k.data.toList := by
    rw [toBytes, size, if_pos valid]
    exact List.take_of_length_le k.data.length_eq.le
  change (a.compressed == b.compressed && a.toBytes == b.toBytes) = true ↔ a = b
  rw [Bool.and_eq_true, beq_iff_eq, beq_iff_eq, shown valid, shown valid']
  constructor
  · rintro ⟨encoding, data⟩
    obtain ⟨_, _, _⟩ := a
    obtain ⟨_, _, _⟩ := b
    cases valid
    cases valid'
    cases encoding
    cases Octets.ext data
    rfl
  · rintro rfl
    exact ⟨rfl, rfl⟩

namespace PrivateNode

variable {x x' : PrivateNode}

/-- A node and its public view: the same header, public key and names. -/
structure PublicView (x : PrivateNode) (y : PublicNode) : Prop where
  neuter : x.neuter = .ok y
  header : y.toNodeHeader = x.toNodeHeader
  publicKey : x.publicKey = .ok y.key
  identifier : x.identifier = .ok y.identifier
  fingerprint : x.fingerprint = .ok y.fingerprint
  lawful : y.Lawful

/-- The layout of a node and what is made of it: the text, and the record in a buffer that
grows. -/
structure Writes (x : PrivateNode) (node : Octets 74) : Prop where
  encode : x.encode = .ok node
  toText : x.toText = .ok (Record.text Record.privateVersion node)
  write : (x.toRecord >>= fun record => (writeWithin none record).mapError .stream) =
    .ok (Record.frame node)

/-- The key is a secret in range that asks for the compressed encoding, and nothing that the node
is known by fails. -/
structure Lawful (x : PrivateNode) : Prop where
  valid : x.key.valid = true
  inRange : 1 ≤ x.key.data.value ∧ x.key.data.value < order
  compressed : x.key.compressed = true
  writes : ∃ node, x.Writes node
  publicView : ∃ y, x.PublicView y

private theorem WellFormed.exists_writes (wellFormed : x.WellFormed) : ∃ node, x.Writes node := by
  obtain ⟨node, encoded, -⟩ := map_eq_ok_iff.mp wellFormed.encode_eq
  refine ⟨node, encoded, ?_, ?_⟩
  · rw [toText, encoded]
    rfl
  · rw [toRecord, encoded]
    rfl

theorem WellFormed.exists_publicView (wellFormed : x.WellFormed) : ∃ y, x.PublicView y := by
  obtain ⟨d, A, holds⟩ := wellFormed.exists_holds
  have neutered := neuter_eq holds
  have own : x.publicKey = .ok ⟨A, true⟩ := by
    rw [publicKey, holds.publicKey, wellFormed.compressed]
  have shown := PublicNode.wellFormed_of_neuter wellFormed neutered
  refine ⟨_, neutered, rfl, own, ?_, ?_, shown.lawful⟩
  · rw [PrivateNode.identifier, own]
    rfl
  · rw [PrivateNode.fingerprint, own]
    rfl

private theorem WellFormed.lawful (wellFormed : x.WellFormed) : x.Lawful where
  valid := wellFormed.valid
  inRange := isSecret_iff.mp (wellFormed.key.inRange wellFormed.valid)
  compressed := wellFormed.compressed
  writes := wellFormed.exists_writes
  publicView := wellFormed.exists_publicView

private theorem WellFormed.beq_iff_encode_eq (wellFormed : x.WellFormed)
    (wellFormed' : x'.WellFormed) : (x == x') = true ↔ x.encode = x'.encode := by
  change (x.toNodeHeader == x'.toNodeHeader && x.key == x'.key) = true ↔ _
  rw [Bool.and_eq_true, beq_iff_eq, SecretKey.beq_eq_true_iff wellFormed.valid wellFormed'.valid]
  constructor
  · rintro ⟨header, key⟩
    obtain ⟨_, _⟩ := x
    obtain ⟨_, _⟩ := x'
    cases header
    cases key
    rfl
  · intro same
    -- Both are what their common layout is read as.
    have read : decode _ = .ok x := decode_eq_ok_iff.mpr ⟨wellFormed, wellFormed.encode_eq⟩
    have read' : decode _ = .ok x' :=
      decode_eq_ok_iff.mpr ⟨wellFormed', same ▸ wellFormed.encode_eq⟩
    cases read.symm.trans read'
    exact ⟨rfl, rfl⟩

end PrivateNode

/-- All nodes that programs come by are lawful.  Two of them are equal exactly if they have the
same layout, though it does not store the encoding that a key asks for. -/
theorem nodes_lawful :
    (∀ x : PrivateNode, x.Obtainable → x.Lawful) ∧
    (∀ y : PublicNode, y.Obtainable → y.Lawful) ∧
    (∀ x x' : PrivateNode, x.Obtainable → x'.Obtainable →
      ((x == x') = true ↔ x.encode = x'.encode)) ∧
    ∀ y y' : PublicNode, y.Obtainable → y'.Obtainable → (y = y' ↔ y.encode = y'.encode) := by
  refine ⟨?_, ?_, ?_, ?_⟩
  · exact fun x obtainable => obtainable.wellFormed.lawful
  · exact fun y obtainable => obtainable.wellFormed.lawful
  · exact fun x x' obtainable obtainable' =>
      obtainable.wellFormed.beq_iff_encode_eq obtainable'.wellFormed
  · exact fun y y' obtainable obtainable' =>
      obtainable.wellFormed.eq_iff_encode_eq obtainable'.wellFormed

theorem nodes_lawful_rootOfOne :
    ∃ x x' y, PrivateNode.decode PrivateNode.rootOfOne = .ok x ∧
      PrivateNode.decode (List.replicate 73 0 ++ [2]) = .ok x' ∧ x.neuter = .ok y ∧
      x.Lawful ∧ y.Lawful ∧ (x == x') = false ∧
      ∀ y', PublicNode.decode y.encode.toList = .ok y' → y = y' := by
  obtain ⟨lawful, lawful', same_iff, same_iff'⟩ := nodes_lawful
  have layout : PrivateNode.Layout PrivateNode.rootOfOne :=
    ⟨by decide, by decide, by decide, by decide⟩
  have layout' : PrivateNode.Layout (List.replicate 73 0 ++ [2]) :=
    ⟨by decide, by decide, by decide, by decide⟩
  obtain ⟨x, read⟩ := PrivateNode.exists_decode_iff.mpr layout
  obtain ⟨x', read'⟩ := PrivateNode.exists_decode_iff.mpr layout'
  obtain ⟨y, neutered, -⟩ := (lawful x (.decode read)).publicView
  have obtainable : y.Obtainable := .neuter (.decode read) neutered
  refine ⟨x, x', y, read, read', neutered, lawful x (.decode read), lawful' y obtainable, ?_, ?_⟩
  · rw [Bool.eq_false_iff, Ne, same_iff x x' (.decode read) (.decode read')]
    intro same
    have written := (PrivateNode.decode_eq_ok_iff.mp read).2
    have written' := (PrivateNode.decode_eq_ok_iff.mp read').2
    rw [same, written'] at written
    exact absurd (Except.ok.inj written) (by decide)
  · intro y' found
    rw [same_iff' y y' obtainable (.decode found)]
    exact (Octets.ext (PublicNode.decode_eq_ok_iff.mp found).2).symm

end KeyTree
