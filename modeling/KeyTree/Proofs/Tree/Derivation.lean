import KeyTree.Proofs.Tree.PrivateNode
/-!
Private and public derivation agree.

The private child holds `d + t` and the public child `dG + tG`, for the same tweak `t`, so the
children of a private node and of its public view belong together, and one derivation fails
where the other does.  Along a path this carries over from step to step, up to the first
hardened index.
-/

set_option autoImplicit false
set_option relaxedAutoImplicit false

namespace KeyTree

open Curve

theorem PublicNode.derive_eq {y : PublicNode} {Q : PointGroup}
    (point : Point.ofGroup Q = .affine y.key.point) {index : UInt32}
    (plain : isHardened index = false) {tweak : Octets 32} {childCode : ChainCode}
    (digest : SecretKey.derivationHash y.chainCode (y.derivationMessage index) =
      (tweak, childCode)) :
    y.derive index =
      match Residue.ofOctets? order tweak with
      | none => .error (.derivationFailed index)
      | some t =>
          match Point.ofGroup (Q + t.toZMod • G) with
          | .infinity => .error (.derivationFailed index)
          | .affine B => .ok ⟨y.toNodeHeader.child y.fingerprint index childCode, ⟨B, true⟩⟩ := by
  have own : (KeyPair.ofPublicKey y.key).publicPoint = some y.key.point := rfl
  rw [derive, plain]
  simp only [Bool.false_eq_true, if_false, digest, KeyPair.apply_tweakPublic own point]
  cases Residue.ofOctets? order tweak with
  | none => rfl
  | some t =>
      simp only
      cases Point.ofGroup (Q + t.toZMod • G) <;> rfl

theorem PublicNode.derive_hardened {y : PublicNode} {index : UInt32}
    (hardened : isHardened index = true) : y.derive index = .error (.hardenedFromPublic index) :=
  if_pos hardened

/-- The result of a derivation along the indexes: a node, or the failure at one of them. -/
def Settled {α : Type} (indexes : List UInt32) (result : Except TreeError α) : Prop :=
  (∃ node, result = .ok node) ∨ ∃ i ∈ indexes, result = .error (.derivationFailed i)

private theorem Settled.mono {α : Type} {indexes indexes' : List UInt32}
    {result : Except TreeError α} (settled : Settled indexes result) (subset : indexes ⊆ indexes') :
    Settled indexes' result :=
  settled.imp_right fun ⟨i, member, failed⟩ => ⟨i, subset member, failed⟩

namespace PrivateNode

variable {x : PrivateNode} {d : Scalar} {A : Affine}

theorem derive_neuter (holds : x.key.Holds d A) {index : UInt32}
    (plain : isHardened index = false) :
    (x.derive index >>= neuter) = PublicNode.derive ⟨x.toNodeHeader, ⟨A, true⟩⟩ index := by
  have hashed : x.key.derivationMessage index =
      .ok (SecretKey.plainMessage (PublicKey.compressedForm A) index) := by
    rw [holds.derivationMessage, plain]
    rfl
  obtain ⟨tweak, childCode, digest⟩ : ∃ tweak childCode, SecretKey.derivationHash x.chainCode
      (SecretKey.plainMessage (PublicKey.compressedForm A) index) = (tweak, childCode) :=
    ⟨_, _, rfl⟩
  rw [derive_eq holds hashed digest,
    PublicNode.derive_eq (y := ⟨x.toNodeHeader, ⟨A, true⟩⟩) holds.point plain digest]
  cases Residue.ofOctets? order tweak with
  | none => rfl
  | some t =>
      have sum : d.toZMod • G + t.toZMod • G = (d + t).toZMod • G := by
        rw [Residue.toZMod_add, add_smul]
      simp only [sum]
      -- The child's secret is zero exactly if its point is the identity.
      by_cases zero : d + t = 0
      · have vanishes : Point.ofGroup ((d + t).toZMod • G) = .infinity := by
          rw [Point.ofGroup_eq_infinity, zero, Residue.toZMod_zero]
          exact zero_smul (ZMod order) G
        simp only [if_pos zero, vanishes]
        rfl
      · obtain ⟨B, point, -⟩ := KeyPair.exists_publicPoint_ofScalar zero
        have child : SecretKey.Holds ⟨true, true, (d + t).toOctets 32⟩ (d + t) B :=
          ⟨rfl, zero, rfl, point⟩
        simp only [if_neg zero, point]
        exact neuter_eq child

theorem WellFormed.exists_holds (wellFormed : x.WellFormed) : ∃ d A, x.key.Holds d A :=
  wellFormed.key.exists_holds wellFormed.valid

theorem WellFormed.exists_neuter (wellFormed : x.WellFormed) : ∃ y, x.neuter = .ok y := by
  obtain ⟨d, A, holds⟩ := wellFormed.exists_holds
  exact ⟨_, neuter_eq holds⟩

private theorem WellFormed.derive_settled (wellFormed : x.WellFormed) (index : UInt32) :
    Settled [index] (x.derive index) := by
  obtain ⟨d, A, holds⟩ := wellFormed.exists_holds
  obtain ⟨tweak, childCode, digest⟩ : ∃ tweak childCode, SecretKey.derivationHash x.chainCode
      (if isHardened index then SecretKey.hardenedMessage x.key.data index
        else SecretKey.plainMessage (PublicKey.compressedForm A) index) = (tweak, childCode) :=
    ⟨_, _, rfl⟩
  rw [derive_eq holds (holds.derivationMessage index) digest]
  split
  · exact .inr ⟨index, List.mem_singleton_self index, rfl⟩
  · split
    · exact .inr ⟨index, List.mem_singleton_self index, rfl⟩
    · exact .inl ⟨_, rfl⟩

/-- Private derivation along a path succeeds, or fails at one of its indexes. -/
theorem WellFormed.derivePath_settled (wellFormed : x.WellFormed) (indexes : List UInt32) :
    Settled indexes (indexes.foldlM derive x) := by
  induction indexes generalizing x with
  | nil => exact .inl ⟨x, rfl⟩
  | cons index rest ih =>
      rw [List.foldlM_cons]
      rcases wellFormed.derive_settled index with ⟨child, derived⟩ | ⟨i, member, failed⟩
      · rw [derived, ok_bind]
        exact (ih (wellFormed_of_derive derived)).mono (List.subset_cons_self index rest)
      · rw [failed, error_bind]
        exact .inr ⟨i, List.mem_cons.mpr (.inl (List.mem_singleton.mp member)), rfl⟩

theorem WellFormed.derivePath_neuter_eq (wellFormed : x.WellFormed) {indexes : List UInt32}
    (plain : ∀ i ∈ indexes, isHardened i = false) :
    (indexes.foldlM derive x >>= neuter) = (x.neuter >>= indexes.foldlM PublicNode.derive) := by
  induction indexes generalizing x with
  | nil =>
      obtain ⟨y, neutered⟩ := wellFormed.exists_neuter
      rw [neutered, ok_bind]
      exact neutered
  | cons index rest ih =>
      obtain ⟨d, A, holds⟩ := wellFormed.exists_holds
      -- One step agrees, and the child is well formed again, so the rest agrees from there.
      have step := derive_neuter holds (plain index List.mem_cons_self)
      rw [neuter_eq holds, ok_bind, List.foldlM_cons, List.foldlM_cons, ← step]
      cases derived : x.derive index with
      | error fault => rfl
      | ok child =>
          exact ih (wellFormed_of_derive derived) fun i member =>
            plain i (List.mem_cons_of_mem index member)

/-- For every private node and every path, the two ways to a public descendant agree.

Without a hardened index they have the same result, a node or the failure at one index.  With
one, public derivation stops at the first hardened index unless it has failed before, and private
derivation does not mind it. -/
theorem derivePath_neuter (obtainable : x.Obtainable) (p : Path) :
    ∃ y, x.neuter = .ok y ∧
      ((∀ i ∈ p.indexes, isHardened i = false) →
        (x.derivePath p >>= neuter) = y.derivePath p ∧ Settled p.indexes (y.derivePath p)) ∧
      (∀ before j after, p.indexes = before ++ j :: after →
        (∀ i ∈ before, isHardened i = false) → isHardened j = true →
          Settled before (y.derivePath ⟨before⟩) ∧
          y.derivePath p =
            match y.derivePath ⟨before⟩ with
            | .ok _ => .error (.hardenedFromPublic j)
            | .error fault => .error fault) ∧
      ∀ i, x.derivePath p ≠ .error (.hardenedFromPublic i) := by
  have wellFormed := obtainable.wellFormed
  obtain ⟨y, neutered⟩ := wellFormed.exists_neuter
  have agree {indexes : List UInt32} (plain : ∀ i ∈ indexes, isHardened i = false) :
      (indexes.foldlM derive x >>= neuter) = indexes.foldlM PublicNode.derive y := by
    rw [wellFormed.derivePath_neuter_eq plain, neutered, ok_bind]
  have settled {indexes : List UInt32} (plain : ∀ i ∈ indexes, isHardened i = false) :
      Settled indexes (indexes.foldlM PublicNode.derive y) := by
    rw [← agree plain]
    rcases wellFormed.derivePath_settled indexes with ⟨x', derived⟩ | ⟨i, member, failed⟩
    · obtain ⟨y', neutered'⟩ := (wellFormed.derivePath derived).exists_neuter
      exact .inl ⟨y', by rw [derived, ok_bind, neutered']⟩
    · exact .inr ⟨i, member, by rw [failed, error_bind]⟩
  refine ⟨y, neutered, fun plain => ⟨agree plain, settled plain⟩, ?_, ?_⟩
  · intro before j after split_eq plain hardened
    refine ⟨settled plain, ?_⟩
    rw [PublicNode.derivePath, PublicNode.derivePath, split_eq, List.foldlM_append]
    cases before.foldlM PublicNode.derive y with
    | error fault => rfl
    | ok z => rw [ok_bind, List.foldlM_cons, PublicNode.derive_hardened hardened, error_bind]
  · intro i failed
    rcases wellFormed.derivePath_settled p.indexes with ⟨x', derived⟩ | ⟨i', -, failed'⟩
    · cases failed.symm.trans derived
    · have same := Except.error.inj (failed.symm.trans failed')
      contradiction

/-- The layout of a root with the secret one and the chain code of zeros. -/
def rootOfOne : Bytes :=
  List.replicate 73 0 ++ [1]

theorem derivePath_neuter_rootOfOne :
    ∃ x y, decode rootOfOne = .ok x ∧ x.neuter = .ok y ∧
      (x.derivePath ⟨[0, 1]⟩ >>= neuter) = y.derivePath ⟨[0, 1]⟩ ∧
      y.derivePath ⟨[hardenedBit, 1]⟩ = .error (.hardenedFromPublic hardenedBit) := by
  have decoded : (decode rootOfOne).toBool = true := by decide +kernel
  cases read : decode rootOfOne with
  | error fault =>
      rw [read] at decoded
      cases decoded
  | ok x =>
      have plain : ∀ i ∈ ([0, 1] : List UInt32), isHardened i = false := by
        rw [List.forall_mem_cons, List.forall_mem_singleton]
        decide
      obtain ⟨y, neutered, same, -⟩ := derivePath_neuter (.decode read) ⟨[0, 1]⟩
      obtain ⟨y', neutered', -, stopped, -⟩ :=
        derivePath_neuter (.decode read) ⟨[hardenedBit, 1]⟩
      obtain rfl : y = y' := Except.ok.inj (neutered.symm.trans neutered')
      exact ⟨x, y, rfl, neutered, (same plain).1,
        (stopped [] hardenedBit [1] rfl nofun (by decide)).2⟩

end PrivateNode

end KeyTree
