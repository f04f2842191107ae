import KeyTree.Proofs.Tree.Identity
import KeyTree.Proofs.Tree.Roots
/-!
Descendants along paths.

Following a path is following its steps, so paths compose; and what a node says of its place tells
the length of the path that has led to it, its last step, and the node before.  A private and a
public node do the same here in functions of their own.  `Lineage` is what one step has to do for
it, and `Follows` is what then holds of all paths.
-/

set_option autoImplicit false
set_option relaxedAutoImplicit false

namespace KeyTree

namespace Path

instance : Append Path :=
  ⟨fun p q => ⟨p.indexes ++ q.indexes⟩⟩

def parent (p : Path) : Path :=
  ⟨p.indexes.dropLast⟩

private theorem indexes_append (p q : Path) : (p ++ q).indexes = p.indexes ++ q.indexes := rfl

private theorem exists_eq_child {p : Path} (nonempty : p ≠ root) :
    ∃ index, p = p.parent.child index ∧ p.indexes.getLast? = some index := by
  obtain ⟨indexes⟩ := p
  have nonempty : indexes ≠ [] := fun none => nonempty (congrArg mk none)
  refine ⟨indexes.getLast nonempty, ?_, List.getLast?_eq_some_getLast nonempty⟩
  rw [child, parent, List.dropLast_concat_getLast]

end Path

section

variable {α : Type}

/-- What one step does: the child is placed below the node, under its fingerprint.  Nodes that are
well formed have well-formed children, and a name whose first bytes are the fingerprint. -/
structure Lineage (derive : α → UInt32 → Except TreeError α) (place : α → NodeHeader)
    (fingerprint : α → Except TreeError (Octets 4)) (identifier : α → Except TreeError (Octets 20))
    (wellFormed : α → Prop) : Prop where
  step : ∀ x index child, derive x index = .ok child → ∃ own chainCode,
    fingerprint x = .ok own ∧ place child = (place x).child own index chainCode
  keeps : ∀ x index child, wellFormed x → derive x index = .ok child → wellFormed child
  named : ∀ x, wellFormed x → ∃ id own,
    identifier x = .ok id ∧ fingerprint x = .ok own ∧ own.toList = id.toList.take 4

/-- What following paths from a node does.  The empty path leads to the node itself.  To follow a
path after another is to follow it from where the other leads, if it leads anywhere, and else to
fail as the other does.  The place at the end of a path shows how long it is, counting from the
depth of the node and again from zero after 255; and, of a path that has one, its last step and the
name of the node before. -/
structure Follows (derivePath : α → Path → Except TreeError α) (place : α → NodeHeader)
    (identifier : α → Except TreeError (Octets 20)) (x : α) : Prop where
  root : derivePath x .root = .ok x
  append : ∀ p q, derivePath x (p ++ q) =
    match derivePath x p with
    | .ok y => derivePath y q
    | .error fault => .error fault
  depth : ∀ p y, derivePath x p = .ok y →
    (place y).depth.toNat = ((place x).depth.toNat + p.indexes.length) % 256
  childNumber : ∀ p y, p ≠ .root → derivePath x p = .ok y →
    p.indexes.getLast? = some (place y).childNumber
  parent : ∀ p y, p ≠ .root → derivePath x p = .ok y → ∃ before id,
    derivePath x p.parent = .ok before ∧ identifier before = .ok id ∧
      (place y).parentFingerprint.toList = id.toList.take 4

variable {derive : α → UInt32 → Except TreeError α} {place : α → NodeHeader}
  {fingerprint : α → Except TreeError (Octets 4)} {identifier : α → Except TreeError (Octets 20)}
  {wellFormed : α → Prop} {x y : α}

private theorem Lineage.exists_lastStep
    (lineage : Lineage derive place fingerprint identifier wellFormed) (start : wellFormed x)
    {p : Path} {index : UInt32} (made : (p.child index).indexes.foldlM derive x = .ok y) :
    ∃ before, p.indexes.foldlM derive x = .ok before ∧ wellFormed before ∧
      derive before index = .ok y := by
  rw [Path.child, List.foldlM_append] at made
  obtain ⟨before, reached, made⟩ := bind_eq_ok_iff.mp made
  rw [List.foldlM_cons] at made
  obtain ⟨last, step, made⟩ := bind_eq_ok_iff.mp made
  cases made
  exact ⟨before, reached, foldlM_keeps (fun x index child => lineage.keeps x index child) start
    reached, step⟩

private theorem Lineage.follows (lineage : Lineage derive place fingerprint identifier wellFormed)
    (start : wellFormed x) :
    Follows (fun x p => p.indexes.foldlM derive x) place identifier x := by
  constructor
  · rfl
  · intro p q
    rw [Path.indexes_append, List.foldlM_append]
    cases p.indexes.foldlM derive x <;> rfl
  · intro p y made
    refine depth_of_foldlM (fun x => (place x).depth) (fun x index child first => ?_) made
    obtain ⟨own, chainCode, -, placed⟩ := lineage.step x index child first
    rw [placed]
    rfl
  · intro p y nonempty made
    obtain ⟨index, split, last⟩ := Path.exists_eq_child nonempty
    rw [split] at made
    obtain ⟨before, -, -, step⟩ := lineage.exists_lastStep start made
    obtain ⟨own, chainCode, -, placed⟩ := lineage.step before index y step
    rw [last, placed]
    rfl
  · intro p y nonempty made
    obtain ⟨index, split, -⟩ := Path.exists_eq_child nonempty
    rw [split] at made
    obtain ⟨before, reached, kept, step⟩ := lineage.exists_lastStep start made
    obtain ⟨own, chainCode, shown, placed⟩ := lineage.step before index y step
    obtain ⟨id, own', named, shown', first⟩ := lineage.named before kept
    obtain rfl : own = own' := Except.ok.inj (shown.symm.trans shown')
    refine ⟨before, id, reached, named, ?_⟩
    rw [placed]
    exact first

end

private theorem PrivateNode.lineage : Lineage PrivateNode.derive PrivateNode.toNodeHeader
    PrivateNode.fingerprint PrivateNode.identifier PrivateNode.WellFormed where
  step _ _ _ made := toNodeHeader_of_derive made
  keeps _ _ _ _ made := wellFormed_of_derive made
  named _ wellFormed := by
    obtain ⟨y, view⟩ := wellFormed.exists_publicView
    exact ⟨y.identifier, y.fingerprint, view.identifier, view.fingerprint, view.lawful.fingerprint⟩

private theorem PublicNode.lineage : Lineage PublicNode.derive PublicNode.toNodeHeader
    (fun y => .ok y.fingerprint) (fun y => .ok y.identifier) PublicNode.WellFormed where
  step y _ _ made := by
    obtain ⟨chainCode, placed⟩ := toNodeHeader_of_derive made
    exact ⟨y.fingerprint, chainCode, rfl, placed⟩
  keeps _ _ _ wellFormed made := wellFormed.derive made
  named y wellFormed := ⟨y.identifier, y.fingerprint, rfl, rfl, wellFormed.lawful.fingerprint⟩

/-- Paths compose, for private and for public nodes, and the place of a descendant follows the
path. -/
theorem derivePath_follows :
    (∀ x : PrivateNode, x.Obtainable →
      Follows PrivateNode.derivePath PrivateNode.toNodeHeader PrivateNode.identifier x) ∧
    ∀ y : PublicNode, y.Obtainable →
      Follows PublicNode.derivePath PublicNode.toNodeHeader (fun y => .ok y.identifier) y :=
  ⟨fun _ obtainable => PrivateNode.lineage.follows obtainable.wellFormed,
    fun _ obtainable => PublicNode.lineage.follows obtainable.wellFormed⟩

theorem derivePath_follows_lastOfOne :
    ∃ (x child : PrivateNode) (y child' : PublicNode) (id : Octets 20),
      PrivateNode.decode PrivateNode.lastOfOne = .ok x ∧ x.neuter = .ok y ∧
        x.derivePath ⟨[1]⟩ = .ok child ∧ y.derivePath ⟨[1]⟩ = .ok child' ∧
        child.depth.toNat = 0 ∧ child'.depth.toNat = 0 ∧ x.identifier = .ok id ∧
        child.parentFingerprint.toList = id.toList.take 4 := by
  obtain ⟨x, y, child, child', read, depth, neutered, made, made'⟩ := exists_child_lastOfOne
  obtain ⟨privately, publicly⟩ := derivePath_follows
  have follows := privately x (.decode read)
  have follows' := publicly y (.neuter (.decode read) neutered)
  have path : x.derivePath ⟨[1]⟩ = .ok child := by
    rw [PrivateNode.derivePath, List.foldlM_cons, made]
    rfl
  have path' : y.derivePath ⟨[1]⟩ = .ok child' := by
    rw [PublicNode.derivePath, List.foldlM_cons, made']
    rfl
  have depth' : y.depth = 255 := by rw [PrivateNode.toNodeHeader_of_neuter neutered, depth]
  have wrapped := follows.depth ⟨[1]⟩ child path
  have wrapped' := follows'.depth ⟨[1]⟩ child' path'
  rw [depth] at wrapped
  rw [depth'] at wrapped'
  have nonempty : (⟨[1]⟩ : Path) ≠ .root := by decide
  obtain ⟨before, id, reached, named, first⟩ := follows.parent ⟨[1]⟩ child nonempty path
  obtain rfl : x = before := Except.ok.inj (follows.root.symm.trans reached)
  exact ⟨x, child, y, child', id, read, neutered, path, path', wrapped, wrapped', named, first⟩

end KeyTree
