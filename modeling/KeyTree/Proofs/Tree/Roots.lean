import KeyTree.Proofs.Tree.PublicNode
import KeyTree.Proofs.Update
/-!
Nodes of depth zero.

A node made of a seed has depth zero, no parent and the child number zero.  A layout may say
otherwise of a node of depth zero, and the child of a node of depth 255 has depth zero again; no
decoder and no derivation looks at that.  However else a program comes by a node of depth zero, it
has the place of a root (`depth_zero_rooted`).
-/

set_option autoImplicit false
set_option relaxedAutoImplicit false

namespace KeyTree

namespace NodeHeader

/-- A place of depth zero is that of a root: there is no parent and the child number is zero. -/
def Rooted (h : NodeHeader) : Prop :=
  h.depth = 0 → h.parentFingerprint = Octets.zero 4 ∧ h.childNumber = 0

/-- The bytes start like the layout of a node of depth zero with a parent or with a child number
other than zero. -/
def Forged (bs : Bytes) : Prop :=
  bs.head? = some 0 ∧ bs.take 9 ≠ List.replicate 9 0

variable {h : NodeHeader} {fingerprint : Octets 4} {index : UInt32} {chainCode : ChainCode}

private theorem rooted_root (chainCode : ChainCode) : (root chainCode).Rooted :=
  fun _ => ⟨rfl, rfl⟩

private theorem depth_child_eq_zero_iff :
    (h.child fingerprint index chainCode).depth = 0 ↔ h.depth = 255 := by
  constructor
  · intro zero
    have next : h.depth + 1 = 255 + 1 := zero
    exact (UInt8.add_left_inj 1).mp next
  · intro last
    change h.depth + 1 = 0
    rw [last]
    rfl

private theorem rooted_child_iff : (h.child fingerprint index chainCode).Rooted ↔
    (h.depth = 255 → fingerprint = Octets.zero 4 ∧ index = 0) :=
  imp_congr_left depth_child_eq_zero_iff

private theorem head?_layout (h : NodeHeader) (rest : Bytes) :
    (h.toOctets.toList ++ rest).head? = some h.depth := by
  rw [toList_toOctets]
  rfl

private theorem childNumber_eq_zero_iff :
    (Octets.ofNat 4 h.childNumber.toNat).toList = List.replicate 4 0 ↔ h.childNumber = 0 := by
  constructor
  · intro zeros
    have same : Octets.ofNat 4 h.childNumber.toNat = Octets.ofNat 4 (0 : UInt32).toNat :=
      Octets.ext zeros
    exact Octets.ofNat_toNat_inj.mp same
  · intro zero
    rw [zero]
    rfl

private theorem take_layout (h : NodeHeader) (rest : Bytes) : (h.toOctets.toList ++ rest).take 9 =
    h.depth :: (h.parentFingerprint.toList ++ (Octets.ofNat 4 h.childNumber.toNat).toList) := by
  have joined : h.toOctets.toList ++ rest =
      (h.depth :: (h.parentFingerprint.toList ++ (Octets.ofNat 4 h.childNumber.toNat).toList)) ++
        (h.chainCode.octets.toList ++ rest) := by
    rw [toList_toOctets]
    simp only [List.cons_append, List.append_assoc]
  rw [joined]
  apply List.take_left'
  rw [List.length_cons, List.length_append, h.parentFingerprint.length_eq, Octets.length_eq]

/-- The layout of a node is forged exactly if its place is of depth zero but not that of a root. -/
theorem forged_layout_iff {rest : Bytes} :
    Forged (h.toOctets.toList ++ rest) ↔ ¬ h.Rooted := by
  have zeros : List.replicate 9 (0 : UInt8) =
      0 :: (List.replicate 4 0 ++ List.replicate 4 0) := rfl
  have parts : h.parentFingerprint.toList ++ (Octets.ofNat 4 h.childNumber.toNat).toList =
      List.replicate 4 0 ++ List.replicate 4 0 ↔
        h.parentFingerprint = Octets.zero 4 ∧ h.childNumber = 0 := by
    rw [← childNumber_eq_zero_iff, Octets.ext_iff]
    constructor
    · intro same
      exact List.append_inj same (h.parentFingerprint.length_eq)
    · rintro ⟨parent, number⟩
      rw [parent, number]
      rfl
  rw [Forged, head?_layout, take_layout, zeros, Rooted, Option.some.injEq, ne_eq,
    List.cons.injEq, parts]
  tauto

end NodeHeader

open NodeHeader

/-! ### Derivation -/

theorem depth_of_foldlM {α ε : Type} {derive : α → UInt32 → Except ε α} (depth : α → UInt8)
    (step : ∀ x index child, derive x index = .ok child → depth child = depth x + 1)
    {indexes : List UInt32} {x descendant : α}
    (made : indexes.foldlM derive x = .ok descendant) :
    (depth descendant).toNat = ((depth x).toNat + indexes.length) % 256 := by
  induction indexes generalizing x with
  | nil =>
      cases made
      exact (Nat.mod_eq_of_lt (depth descendant).toNat_lt).symm
  | cons index rest ih =>
      rw [List.foldlM_cons] at made
      obtain ⟨child, first, made⟩ := bind_eq_ok_iff.mp made
      rw [ih made, step _ index child first, UInt8.toNat_add, List.length_cons]
      change ((_ + 1) % 256 + rest.length) % 256 = _
      omega

namespace PrivateNode

variable {x child descendant : PrivateNode} {index : UInt32}

theorem toNodeHeader_of_derive (made : x.derive index = .ok child) :
    ∃ fingerprint chainCode, x.fingerprint = .ok fingerprint ∧
      child.toNodeHeader = x.toNodeHeader.child fingerprint index chainCode := by
  obtain ⟨fingerprint, own, made⟩ := bind_eq_ok_iff.mp made
  obtain ⟨⟨key, chainCode⟩, -, same⟩ := bind_eq_ok_iff.mp made
  cases same
  exact ⟨fingerprint, chainCode, own, rfl⟩

theorem depth_of_derivePath {path : Path} (made : x.derivePath path = .ok descendant) :
    descendant.depth.toNat = (x.depth.toNat + path.indexes.length) % 256 := by
  refine depth_of_foldlM (fun x : PrivateNode => x.depth) (fun x index child first => ?_) made
  obtain ⟨fingerprint, chainCode, -, place⟩ := toNodeHeader_of_derive first
  rw [place]
  rfl

theorem toNodeHeader_of_neuter {y : PublicNode} (made : x.neuter = .ok y) :
    y.toNodeHeader = x.toNodeHeader := by
  obtain ⟨key, -, same⟩ := bind_eq_ok_iff.mp made
  cases same
  rfl

private theorem rooted_of_ofSeed {seed : Bytes} (made : ofSeed seed = .ok x) :
    x.toNodeHeader.Rooted := by
  obtain ⟨key, -, same⟩ := bind_eq_ok_iff.mp made
  cases same
  exact rooted_root _

private theorem head?_of_decode {bs : Bytes} (read : decode bs = .ok x) :
    bs.head? = some x.depth := by
  obtain ⟨header, marker, key, rfl⟩ := exists_parts_of_split read
  obtain ⟨-, rfl, -⟩ := decode_parts.mp read
  exact head?_layout _ _

private theorem rooted_iff_of_decode {bs : Bytes} (read : decode bs = .ok x) :
    x.toNodeHeader.Rooted ↔ ¬ Forged bs := by
  obtain ⟨header, marker, key, rfl⟩ := exists_parts_of_split read
  obtain ⟨-, rfl, -⟩ := decode_parts.mp read
  rw [forged_layout_iff, not_not]

end PrivateNode

namespace PublicNode

variable {y child descendant : PublicNode} {index : UInt32}

theorem toNodeHeader_of_derive (made : y.derive index = .ok child) :
    ∃ chainCode, child.toNodeHeader = y.toNodeHeader.child y.fingerprint index chainCode := by
  rw [derive] at made
  split at made
  · cases made
  · obtain ⟨⟨⟩, -, made⟩ := bind_eq_ok_iff.mp made
    obtain ⟨key, -, same⟩ := bind_eq_ok_iff.mp made
    cases same
    exact ⟨_, rfl⟩

private theorem depth_of_derivePath {path : Path} (made : y.derivePath path = .ok descendant) :
    descendant.depth.toNat = (y.depth.toNat + path.indexes.length) % 256 := by
  refine depth_of_foldlM (fun y : PublicNode => y.depth) (fun y index child first => ?_) made
  obtain ⟨chainCode, place⟩ := toNodeHeader_of_derive first
  rw [place]
  rfl

private theorem rooted_iff_of_decode {bs : Bytes} (read : decode bs = .ok y) :
    y.toNodeHeader.Rooted ↔ ¬ Forged bs := by
  obtain ⟨header, marker, key, rfl⟩ := exists_parts_of_split read
  obtain ⟨-, rfl, -⟩ := decode_parts.mp read
  rw [forged_layout_iff, not_not]

end PublicNode

/-! ### Ways to come by a node -/

/-- The ways to come by a private node without a forged layout and without a step from the last
depth.  A path of no steps leads to the node itself. -/
inductive PrivateNode.Regular : PrivateNode → Prop where
  | ofSeed {seed : Bytes} {x : PrivateNode} : ofSeed seed = .ok x → Regular x
  | setSeed {x : PrivateNode} (seed : Bytes) : Regular x → Regular ((setSeed seed).apply x).2
  | derive {x child : PrivateNode} {index : UInt32} : x.Obtainable → x.depth ≠ 255 →
      x.derive index = .ok child → Regular child
  | derivePath {x descendant : PrivateNode} {path : Path} : x.Obtainable →
      (x.depth.toNat + path.indexes.length) % 256 ≠ 0 → x.derivePath path = .ok descendant →
        Regular descendant
  | decode {bs : Bytes} {x : PrivateNode} : ¬ Forged bs → decode bs = .ok x → Regular x
  | read {stream : Bytes} {layout : Octets 74} {x : PrivateNode} :
      (Record.read.apply stream).1 = .ok layout → ¬ Forged layout.toList →
        (read.apply stream).1 = .ok x → Regular x
  | ofText {s : String} {layout : Octets 74} {x : PrivateNode} :
      Record.ofText Record.privateVersion s = .ok layout → ¬ Forged layout.toList →
        ofText s = .ok x → Regular x

/-- The ways to come by a public node without a forged layout and without a step from the last
depth. -/
inductive PublicNode.Regular : PublicNode → Prop where
  | neuter {x : PrivateNode} {y : PublicNode} : x.Regular → x.neuter = .ok y → Regular y
  | derive {y child : PublicNode} {index : UInt32} : y.Obtainable → y.depth ≠ 255 →
      y.derive index = .ok child → Regular child
  | derivePath {y descendant : PublicNode} {path : Path} : y.Obtainable →
      (y.depth.toNat + path.indexes.length) % 256 ≠ 0 → y.derivePath path = .ok descendant →
        Regular descendant
  | decode {bs : Bytes} {y : PublicNode} : ¬ Forged bs → decode bs = .ok y → Regular y
  | read {stream : Bytes} {layout : Octets 74} {y : PublicNode} :
      (Record.read.apply stream).1 = .ok layout → ¬ Forged layout.toList →
        (read.apply stream).1 = .ok y → Regular y
  | ofText {s : String} {layout : Octets 74} {y : PublicNode} :
      Record.ofText Record.publicVersion s = .ok layout → ¬ Forged layout.toList →
        ofText s = .ok y → Regular y
  | asPublicNode {d : Datum} {bs : Bytes} {y : PublicNode} : d.asBytes = .ok bs → ¬ Forged bs →
      d.asPublicNode = .ok y → Regular y

namespace PrivateNode

variable {x : PrivateNode}

private theorem Regular.obtainable (regular : x.Regular) : x.Obtainable := by
  induction regular with
  | ofSeed made => exact .ofSeed made
  | setSeed seed _ ih => exact .setSeed seed ih
  | derive parent _ made => exact .derive parent made
  | derivePath start _ made => exact .derivePath start made
  | decode _ made => exact .decode made
  | read _ _ made => exact .read made
  | ofText _ _ made => exact .ofText made

private theorem Regular.rooted (regular : x.Regular) : x.toNodeHeader.Rooted := by
  induction regular with
  | ofSeed made => exact rooted_of_ofSeed made
  | setSeed seed _ ih =>
      -- A seed that makes no root leaves the node as it was.
      cases made : PrivateNode.ofSeed seed with
      | error fault => simpa [PrivateNode.setSeed, Update.apply_bind, made] using ih
      | ok root =>
          simpa [PrivateNode.setSeed, Update.apply_bind, made] using rooted_of_ofSeed made
  | derive _ inner made =>
      obtain ⟨fingerprint, chainCode, -, place⟩ := toNodeHeader_of_derive made
      rw [place, rooted_child_iff]
      exact fun last => absurd last inner
  | derivePath _ inner made =>
      intro zero
      rw [← depth_of_derivePath made, zero] at inner
      exact absurd rfl inner
  | decode unforged made => exact (rooted_iff_of_decode made).mpr unforged
  | read found unforged made =>
      rw [PrivateNode.read, Update.answer_bind_ofExcept, found] at made
      exact (rooted_iff_of_decode made).mpr unforged
  | ofText found unforged made =>
      rw [PrivateNode.ofText, found] at made
      exact (rooted_iff_of_decode made).mpr unforged

end PrivateNode

namespace PublicNode

variable {y : PublicNode}

private theorem Regular.obtainable (regular : y.Regular) : y.Obtainable := by
  induction regular with
  | neuter parent made => exact .neuter parent.obtainable made
  | derive parent _ made => exact .derive parent made
  | derivePath start _ made => exact .derivePath start made
  | decode _ made => exact .decode made
  | read _ _ made => exact .read made
  | ofText _ _ made => exact .ofText made
  | asPublicNode _ _ made => exact .asPublicNode made

private theorem Regular.rooted (regular : y.Regular) : y.toNodeHeader.Rooted := by
  induction regular with
  | neuter parent made =>
      rw [PrivateNode.toNodeHeader_of_neuter made]
      exact parent.rooted
  | derive _ inner made =>
      obtain ⟨chainCode, place⟩ := toNodeHeader_of_derive made
      rw [place, rooted_child_iff]
      exact fun last => absurd last inner
  | derivePath _ inner made =>
      intro zero
      rw [← depth_of_derivePath made, zero] at inner
      exact absurd rfl inner
  | decode unforged made => exact (rooted_iff_of_decode made).mpr unforged
  | read found unforged made =>
      rw [PublicNode.read, Update.answer_bind_ofExcept, found] at made
      exact (rooted_iff_of_decode made).mpr unforged
  | ofText found unforged made =>
      rw [PublicNode.ofText, found] at made
      exact (rooted_iff_of_decode made).mpr unforged
  | asPublicNode found unforged made =>
      rw [Datum.asPublicNode, found, ok_bind] at made
      exact (rooted_iff_of_decode (mapError_eq_ok_iff.mp made)).mpr unforged

end PublicNode

/-! ### Depth zero -/

/-- A node of depth zero has the place of a root if no forged layout and no step from the last depth
has led to it.  Of layouts and steps nothing less can be asked: a decoder takes a layout as it is,
and the child of a node of depth 255 is a root only if the node has the fingerprint zero and the
child the number zero. -/
theorem depth_zero_rooted :
    (∀ x : PrivateNode, x.Regular → x.Obtainable ∧ x.toNodeHeader.Rooted) ∧
    (∀ y : PublicNode, y.Regular → y.Obtainable ∧ y.toNodeHeader.Rooted) ∧
    (∀ bs x, PrivateNode.decode bs = .ok x → (x.toNodeHeader.Rooted ↔ ¬ Forged bs)) ∧
    (∀ bs y, PublicNode.decode bs = .ok y → (y.toNodeHeader.Rooted ↔ ¬ Forged bs)) ∧
    (∀ (x : PrivateNode) index child, x.derive index = .ok child →
      ∃ fingerprint, x.fingerprint = .ok fingerprint ∧ (child.toNodeHeader.Rooted ↔
        (x.depth = 255 → fingerprint = Octets.zero 4 ∧ index = 0))) ∧
    ∀ (y : PublicNode) index child, y.derive index = .ok child → (child.toNodeHeader.Rooted ↔
      (y.depth = 255 → y.fingerprint = Octets.zero 4 ∧ index = 0)) := by
  refine ⟨fun x regular => ⟨regular.obtainable, regular.rooted⟩,
    fun y regular => ⟨regular.obtainable, regular.rooted⟩,
    fun bs x read => PrivateNode.rooted_iff_of_decode read,
    fun bs y read => PublicNode.rooted_iff_of_decode read, ?_, ?_⟩
  · intro x index child made
    obtain ⟨fingerprint, chainCode, own, place⟩ := PrivateNode.toNodeHeader_of_derive made
    exact ⟨fingerprint, own, place ▸ rooted_child_iff⟩
  · intro y index child made
    obtain ⟨chainCode, place⟩ := PublicNode.toNodeHeader_of_derive made
    exact place ▸ rooted_child_iff

/-- A layout of depth zero with the child number one, and a key that writes the number one. -/
def PrivateNode.forgedOfOne : Bytes :=
  List.replicate 8 0 ++ 1 :: (List.replicate 64 0 ++ [1])

/-- A layout of depth zero with the child number one, and a key with the first coordinate one. -/
def PublicNode.forgedOfOne : Bytes :=
  List.replicate 8 0 ++ 1 :: (List.replicate 32 0 ++ 0x02 :: (List.replicate 31 0 ++ [1]))

/-- A layout of depth 255 with a key that writes the number one. -/
def PrivateNode.lastOfOne : Bytes :=
  255 :: (List.replicate 72 0 ++ [1])

private theorem exists_forgedOfOne :
    (∃ x, PrivateNode.decode PrivateNode.forgedOfOne = .ok x) ∧
      ∃ y, PublicNode.decode PublicNode.forgedOfOne = .ok y :=
  ⟨exists_of_toBool (by decide +kernel), exists_of_toBool (by decide +kernel)⟩

theorem exists_child_lastOfOne : ∃ x y child child',
    PrivateNode.decode PrivateNode.lastOfOne = .ok x ∧ x.depth = 255 ∧ x.neuter = .ok y ∧
      x.derive 1 = .ok child ∧ y.derive 1 = .ok child' := by
  obtain ⟨child, made⟩ := exists_of_toBool (by decide +kernel :
    (PrivateNode.decode PrivateNode.lastOfOne >>= (·.derive 1)).toBool = true)
  obtain ⟨x, read, made⟩ := bind_eq_ok_iff.mp made
  have depth : x.depth = 255 := (Option.some.inj (PrivateNode.head?_of_decode read)).symm
  obtain ⟨d, A, holds⟩ := (PrivateNode.wellFormed_of_decode read).exists_holds
  obtain ⟨child', neutered⟩ := (PrivateNode.wellFormed_of_derive made).exists_neuter
  have publicly := PrivateNode.derive_neuter holds (by decide : isHardened 1 = false)
  rw [made, ok_bind, neutered] at publicly
  exact ⟨x, _, child, child', read, depth, PrivateNode.neuter_eq holds, made, publicly.symm⟩

theorem depth_zero_rooted_one :
    (∃ x y, PrivateNode.decode PrivateNode.rootOfOne = .ok x ∧ x.neuter = .ok y ∧
      x.toNodeHeader.Rooted ∧ y.toNodeHeader.Rooted) ∧
    (∃ x y, PrivateNode.decode PrivateNode.forgedOfOne = .ok x ∧
      PublicNode.decode PublicNode.forgedOfOne = .ok y ∧
      ¬ x.toNodeHeader.Rooted ∧ ¬ y.toNodeHeader.Rooted) ∧
    ∃ (x : PrivateNode) (y : PublicNode) (child : PrivateNode) (child' : PublicNode),
      x.depth = 255 ∧ x.derive 1 = .ok child ∧ y.derive 1 = .ok child' ∧
      ¬ child.toNodeHeader.Rooted ∧ ¬ child'.toNodeHeader.Rooted := by
  obtain ⟨privately, publicly, read_iff, read_iff', child_iff, child_iff'⟩ := depth_zero_rooted
  obtain ⟨x, read⟩ := exists_of_toBool
    (by decide +kernel : (PrivateNode.decode PrivateNode.rootOfOne).toBool = true)
  have regular : x.Regular := .decode (fun forged => forged.2 rfl) read
  obtain ⟨y, neutered⟩ := regular.obtainable.wellFormed.exists_neuter
  obtain ⟨⟨forged, taken⟩, forged', taken'⟩ := exists_forgedOfOne
  obtain ⟨last, last', child, child', -, depth, same, made, made'⟩ := exists_child_lastOfOne
  obtain ⟨-, rooted⟩ := privately x regular
  obtain ⟨-, rooted'⟩ := publicly y (.neuter regular neutered)
  refine ⟨⟨x, y, read, neutered, rooted, rooted'⟩,
    ⟨forged, forged', taken, taken', ?_, ?_⟩,
    ⟨last, last', child, child', depth, made, made', ?_, ?_⟩⟩
  · exact fun rooted => (read_iff _ _ taken).mp rooted ⟨rfl, by decide⟩
  · exact fun rooted => (read_iff' _ _ taken').mp rooted ⟨rfl, by decide⟩
  · intro rooted
    obtain ⟨fingerprint, -, child_rooted⟩ := child_iff _ _ _ made
    exact absurd (child_rooted.mp rooted depth).2 (by decide)
  · intro rooted
    rw [← PrivateNode.toNodeHeader_of_neuter same] at depth
    exact absurd ((child_iff' _ _ _ made').mp rooted depth).2 (by decide)

/-- Not every node of depth zero that programs come by has the place of a root: not one that is read
from a forged layout, and not a child of a node of depth 255. -/
theorem not_depth_zero_rooted :
    ¬ (∀ x : PrivateNode, x.Obtainable → x.toNodeHeader.Rooted) ∧
    ¬ (∀ y : PublicNode, y.Obtainable → y.toNodeHeader.Rooted) ∧
    (∃ x, PrivateNode.decode PrivateNode.forgedOfOne = .ok x ∧ ¬ x.toNodeHeader.Rooted) ∧
    (∃ y, PublicNode.decode PublicNode.forgedOfOne = .ok y ∧ ¬ y.toNodeHeader.Rooted) ∧
    ∃ x child, PrivateNode.decode PrivateNode.lastOfOne = .ok x ∧ x.derive 1 = .ok child ∧
      ¬ child.toNodeHeader.Rooted := by
  obtain ⟨⟨x, read⟩, y, read'⟩ := exists_forgedOfOne
  obtain ⟨last, -, child, -, read_last, depth, -, made, -⟩ := exists_child_lastOfOne
  have unrooted : ¬ x.toNodeHeader.Rooted := fun rooted =>
    (PrivateNode.rooted_iff_of_decode read).mp rooted ⟨rfl, by decide⟩
  have unrooted' : ¬ y.toNodeHeader.Rooted := fun rooted =>
    (PublicNode.rooted_iff_of_decode read').mp rooted ⟨rfl, by decide⟩
  refine ⟨fun claimed => unrooted (claimed x (.decode read)),
    fun claimed => unrooted' (claimed y (.decode read')), ⟨x, read, unrooted⟩,
    ⟨y, read', unrooted'⟩, last, child, read_last, made, ?_⟩
  obtain ⟨fingerprint, chainCode, -, place⟩ := PrivateNode.toNodeHeader_of_derive made
  rw [place, rooted_child_iff]
  exact fun rooted => absurd (rooted depth).2 (by decide)

end KeyTree
