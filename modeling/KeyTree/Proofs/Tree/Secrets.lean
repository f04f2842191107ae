import KeyTree.Proofs.Tree.Messages
/-!
The secrets of a tree by keyed hashes alone.

A keyed hash is cut in the middle.  For the root it is that of the seed, and the halves are the
secret and the chain code.  For a child it is that of the message for its index under the chain
code of its parent; the left half is added to the parent's secret.  A path leads to a leaf exactly
if every half on the way is in range and no sum is zero (`exists_derivePath_iff`).
-/

set_option autoImplicit false
set_option relaxedAutoImplicit false

namespace KeyTree

open Curve

/-- The number that the first 32 bytes of a keyed hash write. -/
def leftHalf (digest : Octets 64) : Nat :=
  (digest.take (n := 32) 32).value

/-- The other 32 bytes, as a chain code. -/
def rightHalf (digest : Octets 64) : ChainCode :=
  ⟨digest.drop (n := 32) 32⟩

theorem leftHalf_append (a b : Octets 32) : leftHalf (a.append b) = a.value :=
  congrArg Octets.value (Octets.take_append a b)

theorem rightHalf_append (a b : Octets 32) : rightHalf (a.append b) = ⟨b⟩ :=
  congrArg ChainCode.mk (Octets.drop_append a b)

/-- The root of the seed has this secret and this chain code. -/
structure RootSecret (seed : Bytes) (d : Scalar) (chainCode : ChainCode) : Prop where
  nonzero : d ≠ 0
  left : leftHalf (hmacSha512 (Bytes.ofText PrivateNode.seedKey) seed) = d.val
  right : rightHalf (hmacSha512 (Bytes.ofText PrivateNode.seedKey) seed) = chainCode

/-- The child at an index, of a parent with the first secret and chain code, has the other ones. -/
structure ChildSecret (d : Scalar) (chainCode : ChainCode) (index : UInt32) (d' : Scalar)
    (chainCode' : ChainCode) (message : Bytes) : Prop where
  hashed : SecretKey.MessageFor d index message
  inRange : leftHalf (hmacSha512 chainCode.toBytes message) < order
  sum : (d.val + leftHalf (hmacSha512 chainCode.toBytes message)) % order = d'.val
  nonzero : d' ≠ 0
  right : rightHalf (hmacSha512 chainCode.toBytes message) = chainCode'

/-- The indexes lead from a secret and its chain code to the secret of a leaf. -/
inductive LeafSecret : Scalar → ChainCode → List UInt32 → Scalar → Prop where
  | here (d : Scalar) (chainCode : ChainCode) : LeafSecret d chainCode [] d
  | step {d d' leaf : Scalar} {chainCode chainCode' : ChainCode} {index : UInt32}
      {rest : List UInt32} {message : Bytes} :
      ChildSecret d chainCode index d' chainCode' message → LeafSecret d' chainCode' rest leaf →
        LeafSecret d chainCode (index :: rest) leaf

theorem ChildSecret.of_append {d d' : Scalar} {chainCode chainCode' : ChainCode} {index : UInt32}
    {message : Bytes} {tweak : Octets 32} (hashed : SecretKey.MessageFor d index message)
    (digest : hmacSha512 chainCode.toBytes message = tweak.append chainCode'.octets)
    (inRange : tweak.value < order) (sum : (d.val + tweak.value) % order = d'.val)
    (nonzero : d' ≠ 0) : ChildSecret d chainCode index d' chainCode' message := by
  have left := (congrArg leftHalf digest).trans (leftHalf_append tweak chainCode'.octets)
  exact {
    hashed := hashed
    inRange := left ▸ inRange
    sum := left ▸ sum
    nonzero := nonzero
    right := (congrArg rightHalf digest).trans (rightHalf_append tweak chainCode'.octets) }

theorem LeafSecret.nonzero {d leaf : Scalar} {chainCode : ChainCode} {indexes : List UInt32}
    (leads : LeafSecret d chainCode indexes leaf) (start : d ≠ 0) : leaf ≠ 0 := by
  induction leads with
  | here => exact start
  | step child _ ih => exact ih child.nonzero

namespace SecretKey

variable {d d' : Scalar} {index : UInt32} {message message' : Bytes}

private theorem MessageFor.eq (messageFor : MessageFor d index message)
    (messageFor' : MessageFor d index message') : message = message' := by
  cases hardened : isHardened index with
  | true => rw [messageFor.hardened hardened, messageFor'.hardened hardened]
  | false =>
      obtain ⟨A, point, form⟩ := messageFor.plain hardened
      obtain ⟨A', point', form'⟩ := messageFor'.plain hardened
      cases point.symm.trans point'
      rw [form, form']

private theorem ofBytes_eq_ok_iff_ofScalar {o : Octets 32} {k : SecretKey} :
    ofBytes o.toList true = .ok k ↔ ∃ d, d ≠ 0 ∧ o.value = d.val ∧ k = ofScalar d true := by
  constructor
  · intro made
    obtain ⟨wellFormed, isValid, isCompressed, same⟩ := ofBytes_eq_ok_iff.mp made
    obtain ⟨d, A, holds⟩ := wellFormed.exists_holds isValid
    have own : o = d.toOctets 32 := Octets.ext (same ▸ congrArg Octets.toList holds.data)
    refine ⟨d, holds.nonzero, own ▸ value_scalar d, ?_⟩
    cases k
    cases isValid
    cases isCompressed
    exact congrArg (mk true true) holds.data
  · rintro ⟨d, nonzero, written, rfl⟩
    obtain rfl : d.toOctets 32 = o := Residue.toOctets_eq_of_val written.symm
    exact ofBytes_toList (isSecret_toOctets nonzero) true

end SecretKey

namespace PrivateNode

open SecretKey

variable {x : PrivateNode} {d d' : Scalar}

theorem ofSeed_eq_ok_iff {seed : Bytes} : ofSeed seed = .ok x ↔
    ∃ d chainCode, RootSecret seed d chainCode ∧ x = ⟨.root chainCode, ofScalar d true⟩ := by
  rw [ofSeed]
  simp only [bind_eq_ok_iff, ofBytes_eq_ok_iff_ofScalar]
  constructor
  · rintro ⟨-, ⟨d, nonzero, written, rfl⟩, same⟩
    cases same
    exact ⟨d, _, ⟨nonzero, written, rfl⟩, rfl⟩
  · rintro ⟨d, -, ⟨nonzero, written, rfl⟩, rfl⟩
    exact ⟨_, ⟨d, nonzero, written, rfl⟩, rfl⟩

theorem WellFormed.exists_key (wellFormed : x.WellFormed) :
    ∃ d, d ≠ 0 ∧ x.key = ofScalar d true := by
  obtain ⟨d, A, holds⟩ := wellFormed.exists_holds
  refine ⟨d, holds.nonzero, ?_⟩
  calc x.key = ⟨x.key.valid, x.key.compressed, x.key.data⟩ := rfl
    _ = ofScalar d true := by
        rw [holds.valid, wellFormed.compressed, holds.data, ofScalar]

theorem exists_holds_of_key (nonzero : d ≠ 0) (key : x.key = ofScalar d true) :
    ∃ A, x.key.Holds d A :=
  exists_holds_of_data (congrArg valid key) nonzero (congrArg data key)

private theorem derive_eq_of_messageFor (nonzero : d ≠ 0) (key : x.key = ofScalar d true)
    {index : UInt32} {message : Bytes} (messageFor : MessageFor d index message) :
    ∃ fingerprint, x.derive index =
      let digest := hmacSha512 x.chainCode.toBytes message
      match Residue.ofNat? order (leftHalf digest) with
      | none => .error (.derivationFailed index)
      | some t =>
          if d + t = 0 then .error (.derivationFailed index)
          else .ok ⟨x.toNodeHeader.child fingerprint index (rightHalf digest),
            ofScalar (d + t) true⟩ := by
  obtain ⟨A, holds⟩ := exists_holds_of_key nonzero key
  obtain ⟨message', hashed, messageFor'⟩ := exists_messageFor nonzero true index
  rw [← messageFor.eq messageFor', ← key] at hashed
  exact ⟨_, derive_eq holds hashed rfl⟩

private theorem exists_derive_iff (nonzero : d ≠ 0) (key : x.key = ofScalar d true) {index : UInt32}
    {chainCode : ChainCode} :
    (∃ child, x.derive index = .ok child ∧ child.key = ofScalar d' true ∧
      child.chainCode = chainCode) ↔
        ∃ message, ChildSecret d x.chainCode index d' chainCode message := by
  constructor
  · rintro ⟨child, made, child_key, child_code⟩
    obtain ⟨message, -, messageFor⟩ := exists_messageFor nonzero true index
    obtain ⟨fingerprint, derived⟩ := derive_eq_of_messageFor nonzero key messageFor
    rw [derived] at made
    cases read : Residue.ofNat? order (leftHalf (hmacSha512 x.chainCode.toBytes message)) with
    | none =>
        simp only [read] at made
        cases made
    | some t =>
        simp only [read] at made
        split at made
        · cases made
        · rename_i sum_ne_zero
          cases made
          obtain rfl : d + t = d' := toOctets_scalar_inj.mp (congrArg data child_key)
          have t_eq := Residue.ofNat?_eq_some_iff.mp read
          exact ⟨message, messageFor, t_eq ▸ t.val_lt, t_eq ▸ rfl, sum_ne_zero, child_code⟩
  · rintro ⟨message, child⟩
    obtain ⟨fingerprint, derived⟩ := derive_eq_of_messageFor nonzero key child.hashed
    let t : Scalar := ⟨_, child.inRange⟩
    have read : Residue.ofNat? order (leftHalf (hmacSha512 x.chainCode.toBytes message)) =
        some t := Residue.ofNat?_eq_some_iff.mpr rfl
    have sum : d + t = d' := Residue.ext child.sum
    refine ⟨⟨x.toNodeHeader.child fingerprint index chainCode, ofScalar d' true⟩,
      derived.trans ?_, rfl, rfl⟩
    simp only [read, sum, if_neg child.nonzero, child.right]

/-- A leaf is derived exactly if its secret can be told from hashes. -/
theorem exists_derivePath_iff (nonzero : d ≠ 0) (key : x.key = ofScalar d true)
    {indexes : List UInt32} :
    (∃ leaf, indexes.foldlM derive x = .ok leaf ∧ leaf.key = ofScalar d' true) ↔
      LeafSecret d x.chainCode indexes d' := by
  induction indexes generalizing x d with
  | nil =>
      constructor
      · rintro ⟨leaf, same, leaf_key⟩
        cases same
        obtain rfl : d = d' := toOctets_scalar_inj.mp (congrArg data (key.symm.trans leaf_key))
        exact .here d _
      · intro path
        cases path
        exact ⟨x, rfl, key⟩
  | cons index rest ih =>
      rw [List.foldlM_cons]
      simp only [bind_eq_ok_iff]
      constructor
      · rintro ⟨leaf, ⟨child, made, derived⟩, leaf_key⟩
        obtain ⟨d₁, nonzero₁, child_key⟩ := (wellFormed_of_derive made).exists_key
        obtain ⟨message, first⟩ := (exists_derive_iff nonzero key).mp ⟨child, made, child_key, rfl⟩
        exact .step first ((ih nonzero₁ child_key).mp ⟨leaf, derived, leaf_key⟩)
      · intro path
        cases path with
        | step first others =>
            obtain ⟨child, made, child_key, rfl⟩ := (exists_derive_iff nonzero key).mpr ⟨_, first⟩
            obtain ⟨leaf, derived, leaf_key⟩ := (ih first.nonzero child_key).mpr others
            exact ⟨leaf, ⟨child, made, derived⟩, leaf_key⟩

end PrivateNode

end KeyTree
