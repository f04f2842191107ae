import KeyTree.Proofs.Tree.SecretKey
import KeyTree.Tree.Record
/-!
Private nodes as programs come by them: each holds a valid secret and asks for compressed public
keys, so that neutering never fails.
-/

set_option autoImplicit false
set_option relaxedAutoImplicit false

namespace KeyTree.PrivateNode

open Curve

/-- The nodes that programs come by: roots of seeds, nodes that were read, and their
descendants. -/
inductive Obtainable : PrivateNode → Prop where
  | ofSeed {seed : Bytes} {x : PrivateNode} : ofSeed seed = .ok x → Obtainable x
  | setSeed {x : PrivateNode} (seed : Bytes) :
      Obtainable x → Obtainable ((setSeed seed).apply x).2
  | derive {x child : PrivateNode} {index : UInt32} :
      Obtainable x → x.derive index = .ok child → Obtainable child
  | derivePath {x descendant : PrivateNode} {path : Path} :
      Obtainable x → x.derivePath path = .ok descendant → Obtainable descendant
  | decode {bs : Bytes} {x : PrivateNode} : decode bs = .ok x → Obtainable x
  | read {stream : Bytes} {x : PrivateNode} : (read.apply stream).1 = .ok x → Obtainable x
  | ofText {s : String} {x : PrivateNode} : ofText s = .ok x → Obtainable x

/-- The key is valid and its public key is to be compressed. -/
structure WellFormed (x : PrivateNode) : Prop where
  key : x.key.WellFormed
  valid : x.key.valid = true
  compressed : x.key.compressed = true

private theorem wellFormed_of_ofBytes {header : NodeHeader} {bs : Bytes} {k : SecretKey}
    (made : SecretKey.ofBytes bs true = .ok k) : WellFormed ⟨header, k⟩ := by
  obtain ⟨key, valid, compressed⟩ := SecretKey.of_ofBytes made
  exact ⟨key, valid, compressed⟩

theorem wellFormed_of_ofSeed {seed : Bytes} {x : PrivateNode} (made : ofSeed seed = .ok x) :
    x.WellFormed := by
  obtain ⟨key, read, same⟩ := bind_eq_ok_iff.mp made
  cases same
  exact wellFormed_of_ofBytes read

theorem wellFormed_of_decode {bs : Bytes} {x : PrivateNode} (made : decode bs = .ok x) :
    x.WellFormed := by
  obtain ⟨⟨header, marker, secret⟩, -, made⟩ := bind_eq_ok_iff.mp made
  by_cases zero : marker = 0
  · simp only [if_pos zero] at made
    obtain ⟨key, read, same⟩ := bind_eq_ok_iff.mp made
    cases same
    exact wellFormed_of_ofBytes read
  · simp only [if_neg zero] at made
    contradiction

theorem wellFormed_of_derive {x child : PrivateNode} {index : UInt32}
    (made : x.derive index = .ok child) : child.WellFormed := by
  obtain ⟨fingerprint, -, made⟩ := bind_eq_ok_iff.mp made
  obtain ⟨⟨key, chainCode⟩, derived, same⟩ := bind_eq_ok_iff.mp made
  cases same
  obtain ⟨key, valid, compressed⟩ := SecretKey.of_derive derived
  exact ⟨key, valid, compressed⟩

theorem WellFormed.derivePath {x descendant : PrivateNode} (wellFormed : x.WellFormed)
    {indexes : List UInt32} (made : indexes.foldlM PrivateNode.derive x = .ok descendant) :
    descendant.WellFormed :=
  foldlM_keeps (fun _ _ _ _ step => wellFormed_of_derive step) wellFormed made

theorem Obtainable.wellFormed {x : PrivateNode} (obtainable : x.Obtainable) : x.WellFormed := by
  induction obtainable with
  | ofSeed made => exact wellFormed_of_ofSeed made
  | setSeed seed _ ih =>
      -- A seed that makes no root leaves the node as it was.
      cases made : PrivateNode.ofSeed seed with
      | error fault => simpa [PrivateNode.setSeed, Update.apply_bind, made] using ih
      | ok root =>
          simpa [PrivateNode.setSeed, Update.apply_bind, made] using wellFormed_of_ofSeed made
  | derive _ made _ => exact wellFormed_of_derive made
  | derivePath _ made ih => exact ih.derivePath made
  | decode made => exact wellFormed_of_decode made
  | read made =>
      rw [PrivateNode.read, Update.apply_bind] at made
      split at made
      · exact wellFormed_of_decode made
      · contradiction
  | ofText made =>
      obtain ⟨node, -, made⟩ := bind_eq_ok_iff.mp made
      exact wellFormed_of_decode made

variable {x : PrivateNode} {d : Scalar} {A : Affine}

theorem neuter_eq (holds : x.key.Holds d A) : x.neuter = .ok ⟨x.toNodeHeader, ⟨A, true⟩⟩ := by
  rw [neuter, publicKey, holds.publicKey]
  rfl

theorem derive_eq (holds : x.key.Holds d A) {index : UInt32} {message : Bytes}
    (hashed : x.key.derivationMessage index = .ok message) {tweak : Octets 32}
    {childCode : ChainCode}
    (digest : SecretKey.derivationHash x.chainCode message = (tweak, childCode)) :
    x.derive index =
      match Residue.ofOctets? order tweak with
      | none => .error (.derivationFailed index)
      | some t =>
          if d + t = 0 then .error (.derivationFailed index)
          else .ok ⟨x.toNodeHeader.child (PublicKey.mk A true).fingerprint index childCode,
            ⟨true, true, (d + t).toOctets 32⟩⟩ := by
  have named : x.fingerprint = .ok (PublicKey.mk A true).fingerprint := by
    rw [fingerprint, publicKey, holds.publicKey]
    rfl
  rw [derive, named, ok_bind, holds.derive hashed digest]
  cases Residue.ofOctets? order tweak with
  | none => rfl
  | some t => by_cases zero : d + t = 0 <;> simp only [zero, if_true, if_false] <;> rfl

end KeyTree.PrivateNode
