import KeyTree.Engine.Entropy
import KeyTree.Proofs.Signature.Equation
import KeyTree.Proofs.Signature.Forms
import KeyTree.Signature.Nonce
/-!
What random bytes and hashes have to be for a secret, a nonce and a signature.

A secret is drawn from random bytes and a nonce from keyed hashes, in the same way: of a few
candidates the first is taken that writes a scalar other than zero.  A nonce makes a signature
unless one of its elements is zero, and the id of its low form is three only for a point whose
first coordinate is not below the order.
-/

set_option autoImplicit false
set_option relaxedAutoImplicit false

namespace KeyTree

open Curve

namespace Curve

/-- The bytes write zero, or a number that is not below the order. -/
def Unusable (bs : Bytes) : Prop :=
  Bytes.bigEndianValue bs = 0 ∨ order ≤ Bytes.bigEndianValue bs

/-- The scalar `d` is not zero, the candidate at the position `k` writes it, and no candidate before
can be used. -/
structure FirstUsable (candidate : Nat → Bytes) (k : Nat) (d : Scalar) : Prop where
  nonzero : d ≠ 0
  written : Bytes.bigEndianValue (candidate k) = d.val
  earlier : ∀ j < k, Unusable (candidate j)

section

variable {candidate : Nat → Bytes} {k n : Nat} {d : Scalar}

private theorem unusable_iff {o : Octets 32} : Unusable o.toList ↔ ¬ isSecret o = true := by
  rw [isSecret_iff, Unusable, Octets.value]
  omega

private theorem firstUsable_zero_iff {o : Octets 32} (start : candidate 0 = o.toList) :
    FirstUsable candidate 0 d ↔ isSecret o = true ∧ o = d.toOctets 32 := by
  constructor
  · intro first
    obtain rfl : o = d.toOctets 32 := by
      apply Octets.value_injective
      rw [value_scalar, ← first.written, start, Octets.value]
    exact ⟨isSecret_toOctets first.nonzero, rfl⟩
  · rintro ⟨usable, rfl⟩
    obtain ⟨positive, -⟩ := isSecret_iff.mp usable
    rw [value_scalar] at positive
    refine ⟨Residue.val_pos_iff.mp positive, ?_, fun j before => absurd before (Nat.not_lt_zero j)⟩
    rw [start]
    exact value_scalar d

private theorem firstUsable_succ_iff : FirstUsable candidate (k + 1) d ↔
    Unusable (candidate 0) ∧ FirstUsable (fun j => candidate (j + 1)) k d := by
  constructor
  · intro first
    exact ⟨first.earlier 0 (Nat.succ_pos k), first.nonzero, first.written,
      fun j before => first.earlier (j + 1) (Nat.succ_lt_succ before)⟩
  · rintro ⟨refused, first⟩
    refine ⟨first.nonzero, first.written, fun j before => ?_⟩
    cases j with
    | zero => exact refused
    | succ j => exact first.earlier j (Nat.lt_of_succ_lt_succ before)

/-- A search takes the first candidate if it can be used, and else goes on with the others. -/
private theorem exists_firstUsable_iff (Fits : Nat → Prop) {o : Octets 32}
    (start : candidate 0 = o.toList) : (∃ k < n + 1, FirstUsable candidate k d ∧ Fits k) ↔
      if isSecret o then o = d.toOctets 32 ∧ Fits 0
      else ∃ k < n, FirstUsable (fun j => candidate (j + 1)) k d ∧ Fits (k + 1) := by
  have refused_iff : Unusable (candidate 0) ↔ ¬ isSecret o = true := start ▸ unusable_iff
  split
  · rename_i usable
    constructor
    · rintro ⟨k, -, first, fits⟩
      cases k with
      | zero => exact ⟨((firstUsable_zero_iff start).mp first).2, fits⟩
      | succ k => exact absurd usable (refused_iff.mp (first.earlier 0 (Nat.succ_pos k)))
    · rintro ⟨same, fits⟩
      exact ⟨0, Nat.succ_pos n, (firstUsable_zero_iff start).mpr ⟨usable, same⟩, fits⟩
  · rename_i unusable
    constructor
    · rintro ⟨k, bound, first, fits⟩
      cases k with
      | zero => exact absurd ((firstUsable_zero_iff start).mp first).1 unusable
      | succ k =>
          exact ⟨k, Nat.lt_of_succ_lt_succ bound, (firstUsable_succ_iff.mp first).2, fits⟩
    · rintro ⟨k, bound, first, fits⟩
      exact ⟨k + 1, Nat.succ_lt_succ bound,
        firstUsable_succ_iff.mpr ⟨refused_iff.mpr unusable, first⟩, fits⟩

end

end Curve

/-! ### Secrets -/

namespace Entropy

variable {e left rest : Entropy} {n : Nat} {d : Scalar}

theorem draw_eq_ok_iff {o : Octets n} : e.draw n = .ok (o, left) ↔
    o.toList = e.remaining.take n ∧ left = ⟨e.remaining.drop n⟩ := by
  rw [draw]
  constructor
  · intro drawn
    split at drawn
    · rename_i o' found
      cases drawn
      exact ⟨Octets.ofList?_eq_some_iff.mp found, rfl⟩
    · cases drawn
  · rintro ⟨taken, rfl⟩
    rw [Octets.ofList?_eq_some_iff.mpr taken]

/-- The random bytes at a position, 32 at a time. -/
def candidate (e : Entropy) (k : Nat) : Bytes :=
  (e.remaining.drop (32 * k)).take 32

/-- Of so many candidates the first usable one writes `d`, and what comes after it is left. -/
def YieldsWithin (attempts : Nat) (e : Entropy) (d : Scalar) (rest : Entropy) : Prop :=
  ∃ k < attempts, FirstUsable e.candidate k d ∧
    32 * (k + 1) ≤ e.remaining.length ∧ rest.remaining = e.remaining.drop (32 * (k + 1))

/-- The random bytes yield the secret `d` before the draws are given up. -/
def Yields (e : Entropy) (d : Scalar) (rest : Entropy) : Prop :=
  e.YieldsWithin maxAttempts d rest

theorem Yields.nonzero (yields : e.Yields d rest) : d ≠ 0 := by
  obtain ⟨k, -, first, -⟩ := yields
  exact first.nonzero

private theorem YieldsWithin.thirtyTwo_le {attempts : Nat}
    (yields : e.YieldsWithin attempts d rest) : 32 ≤ e.remaining.length := by
  obtain ⟨k, -, -, enough, -⟩ := yields
  omega

private theorem exists_draw_of_le (long : n ≤ e.remaining.length) :
    ∃ o, e.draw n = .ok (o, ⟨e.remaining.drop n⟩) :=
  ⟨⟨_, List.length_take_of_le long⟩, draw_eq_ok_iff.mpr ⟨rfl, rfl⟩⟩

private theorem not_yieldsWithin_zero : ¬ e.YieldsWithin 0 d rest := by
  rintro ⟨k, bound, -⟩
  exact Nat.not_lt_zero k bound

private theorem candidate_succ (e : Entropy) (k : Nat) :
    e.candidate (k + 1) = candidate ⟨e.remaining.drop 32⟩ k := by
  rw [candidate, candidate, List.drop_drop, Nat.mul_succ, Nat.add_comm]

private theorem yieldsWithin_succ_iff {attempts : Nat} {o : Octets 32}
    (drawn : e.draw 32 = .ok (o, left)) : e.YieldsWithin (attempts + 1) d rest ↔
      if isSecret o then o = d.toOctets 32 ∧ left = rest
      else left.YieldsWithin attempts d rest := by
  obtain ⟨taken, rfl⟩ := draw_eq_ok_iff.mp drawn
  have start : e.candidate 0 = o.toList := taken.symm
  have long : 32 ≤ e.remaining.length := by
    have lengths := congrArg List.length taken
    rw [o.length_eq, List.length_take] at lengths
    omega
  rw [YieldsWithin, exists_firstUsable_iff _ start]
  by_cases usable : isSecret o = true
  · simp only [if_pos usable]
    refine and_congr_right fun _ => ⟨fun ⟨_, same⟩ => ?_, ?_⟩
    · cases rest
      cases same
      rfl
    · rintro rfl
      exact ⟨long, rfl⟩
  · simp only [if_neg usable, YieldsWithin, candidate_succ, List.drop_drop, List.length_drop]
    refine exists_congr fun k => and_congr_right fun _ => and_congr_right fun _ => ?_
    rw [Nat.mul_succ 32 (k + 1), Nat.add_comm (32 * (k + 1))]
    exact and_congr_left fun _ => by omega

private theorem drawSecretWithin_eq_ok_iff {attempts : Nat} :
    e.drawSecretWithin attempts = .ok (d.toOctets 32, rest) ↔
      e.YieldsWithin attempts d rest := by
  induction attempts generalizing e with
  | zero => exact iff_of_false nofun not_yieldsWithin_zero
  | succ attempts ih =>
      rw [drawSecretWithin]
      cases drawn : e.draw 32 with
      | error fault =>
          refine iff_of_false nofun fun yields => ?_
          obtain ⟨o, drawn'⟩ := exists_draw_of_le yields.thirtyTwo_le
          cases drawn.symm.trans drawn'
      | ok draw =>
          obtain ⟨o, left⟩ := draw
          rw [yieldsWithin_succ_iff drawn, ← ih]
          by_cases usable : isSecret o = true
          · simp only [if_pos usable, Except.ok.injEq, Prod.mk.injEq]
          · simp only [if_neg usable]

/-- A secret is drawn exactly if the random bytes yield it. -/
theorem drawSecret_eq_ok_iff :
    e.drawSecret = .ok (d.toOctets 32, rest) ↔ e.Yields d rest :=
  drawSecretWithin_eq_ok_iff

end Entropy

/-! ### Nonces -/

namespace Nonce

def Generator.candidate (g : Generator) : Nat → Bytes
  | 0 => g.next.1.toList
  | k + 1 => g.next.2.candidate k

/-- The keyed hashes for a secret and a hash yield a nonce before the search is given up. -/
def Yields (d : Scalar) (hash : Octets 32) (nonce : Scalar) : Prop :=
  ∃ k < maxAttempts, FirstUsable (Generator.seed (d.toOctets 32) hash []).candidate k nonce

private theorem Generator.scalar?_succ (g : Generator) (attempts : Nat) :
    g.scalar? (attempts + 1) =
      if isSecret g.next.1 then Residue.ofOctets? order g.next.1
      else g.next.2.scalar? attempts := by
  have usable_iff := isSecret_iff (o := g.next.1)
  cases read : Residue.ofOctets? order g.next.1 with
  | none =>
      have large := Residue.ofOctets?_eq_none_iff.mp read
      have refused : ¬ isSecret g.next.1 = true := by
        rw [usable_iff]
        omega
      simp only [scalar?, read, if_neg refused]
  | some k =>
      have written : k.val = g.next.1.value := Residue.ofNat?_eq_some_iff.mp read
      by_cases zero : k = 0
      · have refused : ¬ isSecret g.next.1 = true := by
          rw [usable_iff, ← written, zero, Residue.val_zero]
          omega
        simp only [scalar?, read, if_pos zero, if_neg refused]
      · have usable : isSecret g.next.1 = true :=
          usable_iff.mpr (written ▸ ⟨Residue.val_pos_iff.mpr zero, k.val_lt⟩)
        simp only [scalar?, read, if_neg zero, if_pos usable]

private theorem Generator.scalar?_eq_some_iff {g : Generator} {attempts : Nat} {nonce : Scalar} :
    g.scalar? attempts = some nonce ↔ ∃ k < attempts, FirstUsable g.candidate k nonce := by
  induction attempts generalizing g with
  | zero =>
      refine iff_of_false nofun ?_
      rintro ⟨k, bound, -⟩
      exact Nat.not_lt_zero k bound
  | succ attempts ih =>
      have start : g.candidate 0 = g.next.1.toList := rfl
      have search := exists_firstUsable_iff (n := attempts) (d := nonce) (fun _ => True) start
      simp only [and_true] at search
      have others : (fun j => g.candidate (j + 1)) = g.next.2.candidate := rfl
      rw [search, scalar?_succ, others, ← ih]
      by_cases usable : isSecret g.next.1 = true
      · simp only [if_pos usable]
        rw [Residue.ofOctets?, Residue.ofNat?_eq_some_iff, ← Octets.value_injective.eq_iff,
          value_scalar, eq_comm]
      · simp only [if_neg usable]

/-- There is a nonce for the plain signature exactly if the keyed hashes yield it. -/
theorem derive?_eq_some_iff {d nonce : Scalar} {hash : Octets 32} :
    derive? d hash 0 = some nonce ↔ Yields d hash nonce :=
  Generator.scalar?_eq_some_iff

end Nonce

/-! ### Signatures -/

namespace Ecdsa

/-- Signing a hash with a nonce goes through: the nonce has the point `R`, and no element of the
signature is zero. -/
structure Makes (d nonce : Scalar) (hash : Octets 32) (R : Affine) : Prop where
  point : Point.ofGroup (nonce.val • G) = .affine R
  first : R.x.val % order ≠ 0
  second : (hash.value + R.x.val * d.val) % order ≠ 0

def secondElement (d nonce : Scalar) (hash : Octets 32) (R : Affine) : Scalar :=
  (hashScalar hash + pointScalar R * d) / nonce

/-- The id of the low form is not three: the point is not reduced, or it is odd just when the second
element is changed for its opposite. -/
def Traceable (d nonce : Scalar) (hash : Octets 32) (R : Affine) : Prop :=
  R.x.val < order ∨ (R.y.isOdd = true ↔ order / 2 < (secondElement d nonce hash R).val)

section

variable {d nonce : Scalar} {hash : Octets 32} {R : Affine} {σ : Signature}

private theorem pointScalar_ne_zero_iff : pointScalar R ≠ 0 ↔ R.x.val % order ≠ 0 := by
  rw [ne_eq, pointScalar_eq_iff, Residue.val_zero]

private theorem numerator_ne_zero_iff : hashScalar hash + pointScalar R * d ≠ 0 ↔
    (hash.value + R.x.val * d.val) % order ≠ 0 := by
  have sum : (hashScalar hash + pointScalar R * d).toZMod =
      ((hash.value + R.x.val * d.val : Nat) : ZMod order) := by
    rw [Residue.toZMod_add, Residue.toZMod_mul, toZMod_hashScalar, pointScalar,
      Residue.toZMod_ofNat, Nat.cast_add, Nat.cast_mul]
    rfl
  rw [ne_eq, ← Residue.toZMod_eq_zero, sum, ZMod.natCast_eq_zero_iff, Nat.dvd_iff_mod_eq_zero]

private theorem ne_zero_of_point (point : Point.ofGroup (nonce.val • G) = .affine R) :
    nonce ≠ 0 := by
  rintro rfl
  rw [Residue.val_zero, zero_nsmul, Point.ofGroup_zero] at point
  contradiction

private theorem secondElement_ne_zero_iff (nonzero : nonce ≠ 0) :
    secondElement d nonce hash R ≠ 0 ↔ (hash.value + R.x.val * d.val) % order ≠ 0 := by
  have invertible : nonce.toZMod ≠ 0 := mt Residue.toZMod_eq_zero.mp nonzero
  rw [← numerator_ne_zero_iff, ne_eq, ne_eq, ← Residue.toZMod_eq_zero, secondElement,
    Residue.toZMod_div, div_eq_zero_iff, or_iff_left invertible, Residue.toZMod_eq_zero]

private theorem sign?_eq_some_iff_makes : sign? d nonce hash = some σ ↔
    ∃ R, Makes d nonce hash R ∧ σ.r = pointScalar R ∧ σ.s = secondElement d nonce hash R := by
  rw [sign?_eq_some_iff, toZMod_smul]
  constructor
  · rintro ⟨R, point, r_eq, s_eq⟩
    have s_eq : σ.s = secondElement d nonce hash R := by rw [s_eq, r_eq, secondElement]
    have second := (secondElement_ne_zero_iff (ne_zero_of_point point)).mp (s_eq ▸ σ.s_ne_zero)
    exact ⟨R, ⟨point, pointScalar_ne_zero_iff.mp (r_eq ▸ σ.r_ne_zero), second⟩, r_eq, s_eq⟩
  · rintro ⟨R, makes, r_eq, s_eq⟩
    exact ⟨R, makes.point, r_eq, by rw [s_eq, r_eq, secondElement]⟩

private theorem Makes.exists_sign? (makes : Makes d nonce hash R) :
    ∃ σ, sign? d nonce hash = some σ ∧
    σ.r = pointScalar R ∧ σ.s = secondElement d nonce hash R := by
  have nonzero := ne_zero_of_point makes.point
  refine ⟨⟨pointScalar R, secondElement d nonce hash R, pointScalar_ne_zero_iff.mpr makes.first,
    (secondElement_ne_zero_iff nonzero).mpr makes.second⟩, ?_, rfl, rfl⟩
  exact sign?_eq_some_iff_makes.mpr ⟨R, makes, rfl, rfl⟩

private theorem toByte_ne_three_iff {id : RecoveryId} :
    id.toByte ≠ 3 ↔ (id.reduced = true → id.odd = false) := by
  obtain ⟨odd, reduced⟩ := id
  cases odd <;> cases reduced <;> decide

/-- The point of the secret is found from the low form under an id other than three exactly if the
nonce is traceable. -/
theorem exists_finds_lowS_iff (makes : Makes d nonce hash R) (signed : sign? d nonce hash = some σ)
    (s_eq : σ.s = secondElement d nonce hash R) :
    (∃ id : RecoveryId, id.Finds hash σ.lowS (d.toZMod • G) ∧ id.toByte ≠ 3) ↔
      Traceable d nonce hash R := by
  obtain ⟨id, found⟩ := exists_finds_of_sign? signed
  have own : id = RecoveryId.ofPoint R := by
    obtain ⟨A, coordinates, selected⟩ := finds_iff.mp found
    rw [noncePointFor_of_sign? signed, toZMod_smul, makes.point] at coordinates
    cases coordinates
    exact (selects_iff.mp selected).2.2.symm
  have found_low := finds_lowS_iff.mpr found
  have unique : (∃ id : RecoveryId, id.Finds hash σ.lowS (d.toZMod • G) ∧ id.toByte ≠ 3) ↔
      (if σ.isLow then id else id.opposite).toByte ≠ 3 := by
    constructor
    · rintro ⟨id', found', other⟩
      exact finds_unique found_low found' ▸ other
    · exact fun other => ⟨_, found_low, other⟩
  have high : order / 2 < σ.s.val ↔ σ.isLow = false := by
    rw [← Nat.not_le, ← Signature.isLow_iff_le_half, Bool.not_eq_true]
  rw [unique, toByte_ne_three_iff, Traceable, own, ← s_eq, high, ← Nat.not_le]
  -- The id of the point keeps its parity for a low signature and changes it for a high one.
  cases σ.isLow <;> cases odd : R.y.isOdd <;>
    simp [RecoveryId.ofPoint, RecoveryId.opposite, odd]

/-- The signature that a secret makes of a hash with its deterministic nonce. -/
def MadeBy (d : Scalar) (hash : Octets 32) (σ : Signature) : Prop :=
  ∃ nonce, Nonce.derive? d hash 0 = some nonce ∧ sign? d nonce hash = some σ

/-- The keyed hashes for a secret and a hash yield a nonce that makes a signature. -/
def Signable (d : Scalar) (hash : Octets 32) : Prop :=
  ∃ nonce R, Nonce.Yields d hash nonce ∧ Makes d nonce hash R

theorem exists_madeBy_iff : (∃ σ, MadeBy d hash σ) ↔ Signable d hash := by
  constructor
  · rintro ⟨σ, nonce, drawn, signed⟩
    obtain ⟨R, makes, -⟩ := sign?_eq_some_iff_makes.mp signed
    exact ⟨nonce, R, Nonce.derive?_eq_some_iff.mp drawn, makes⟩
  · rintro ⟨nonce, R, yields, makes⟩
    obtain ⟨σ, signed, -⟩ := makes.exists_sign?
    exact ⟨σ, nonce, Nonce.derive?_eq_some_iff.mpr yields, signed⟩

theorem exists_madeBy_finds_iff : (∃ σ, MadeBy d hash σ ∧ ∃ id : RecoveryId,
    id.Finds hash σ.lowS (d.toZMod • G) ∧ id.toByte ≠ 3) ↔
      ∃ nonce R, Nonce.Yields d hash nonce ∧ Makes d nonce hash R ∧ Traceable d nonce hash R := by
  constructor
  · rintro ⟨σ, ⟨nonce, drawn, signed⟩, found⟩
    obtain ⟨R, makes, -, s_eq⟩ := sign?_eq_some_iff_makes.mp signed
    exact ⟨nonce, R, Nonce.derive?_eq_some_iff.mp drawn, makes,
      (exists_finds_lowS_iff makes signed s_eq).mp found⟩
  · rintro ⟨nonce, R, yields, makes, traceable⟩
    obtain ⟨σ, signed, -, s_eq⟩ := makes.exists_sign?
    exact ⟨σ, ⟨nonce, Nonce.derive?_eq_some_iff.mpr yields, signed⟩,
      (exists_finds_lowS_iff makes signed s_eq).mpr traceable⟩

end

end Ecdsa

end KeyTree
