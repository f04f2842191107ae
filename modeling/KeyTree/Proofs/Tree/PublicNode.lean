import KeyTree.Datum
import KeyTree.Proofs.Tree.Derivation
import KeyTree.Proofs.Tree.Layout
/-!
Public nodes as programs come by them: each holds a point on the curve and a key that is to be
compressed.
-/

set_option autoImplicit false
set_option relaxedAutoImplicit false

namespace KeyTree.PublicNode

open Curve

/-- The nodes that programs come by: the public views of private nodes, nodes that were read, and
their descendants. -/
inductive Obtainable : PublicNode → Prop where
  | neuter {x : PrivateNode} {y : PublicNode} :
      x.Obtainable → x.neuter = .ok y → Obtainable y
  | derive {y child : PublicNode} {index : UInt32} :
      Obtainable y → y.derive index = .ok child → Obtainable child
  | derivePath {y descendant : PublicNode} {path : Path} :
      Obtainable y → y.derivePath path = .ok descendant → Obtainable descendant
  | decode {bs : Bytes} {y : PublicNode} : decode bs = .ok y → Obtainable y
  | read {stream : Bytes} {y : PublicNode} : (read.apply stream).1 = .ok y → Obtainable y
  | ofText {s : String} {y : PublicNode} : ofText s = .ok y → Obtainable y
  | asPublicNode {d : Datum} {y : PublicNode} : d.asPublicNode = .ok y → Obtainable y

private theorem wellFormed_of_decode {bs : Bytes} {y : PublicNode} (made : decode bs = .ok y) :
    y.WellFormed :=
  (decode_eq_ok_iff.mp made).1

theorem wellFormed_of_neuter {x : PrivateNode} {y : PublicNode} (wellFormed : x.WellFormed)
    (made : x.neuter = .ok y) : y.WellFormed := by
  obtain ⟨d, A, holds⟩ := wellFormed.exists_holds
  rw [PrivateNode.neuter_eq holds] at made
  cases made
  exact ⟨Point.onCurve_of_ofGroup holds.point, rfl⟩

theorem WellFormed.derive {y child : PublicNode} {index : UInt32} (wellFormed : y.WellFormed)
    (made : y.derive index = .ok child) : child.WellFormed := by
  cases hardened : isHardened index with
  | true =>
      rw [derive_hardened hardened] at made
      cases made
  | false =>
      have point := Point.ofGroup_toGroup y.key.point wellFormed.onCurve
      obtain ⟨tweak, childCode, digest⟩ : ∃ tweak childCode,
          SecretKey.derivationHash y.chainCode (y.derivationMessage index) =
            (tweak, childCode) := ⟨_, _, rfl⟩
      rw [derive_eq point hardened digest] at made
      split at made
      · cases made
      · split at made
        · cases made
        · rename_i B sum
          cases made
          exact ⟨Point.onCurve_of_ofGroup sum, rfl⟩

theorem Obtainable.wellFormed {y : PublicNode} (obtainable : y.Obtainable) : y.WellFormed := by
  induction obtainable with
  | neuter parent made => exact wellFormed_of_neuter parent.wellFormed made
  | derive _ made ih => exact ih.derive made
  | derivePath _ made ih => exact foldlM_keeps (fun _ _ _ node step => node.derive step) ih made
  | decode made => exact wellFormed_of_decode made
  | read made =>
      rw [PublicNode.read, Update.apply_bind] at made
      split at made
      · exact wellFormed_of_decode made
      · cases made
  | ofText made =>
      obtain ⟨node, -, made⟩ := bind_eq_ok_iff.mp made
      exact wellFormed_of_decode made
  | asPublicNode made =>
      obtain ⟨bs, -, made⟩ := bind_eq_ok_iff.mp made
      exact wellFormed_of_decode (mapError_eq_ok_iff.mp made)

end KeyTree.PublicNode
