import KeyTree.Proofs.Key.Pair
/-!
Tweaks of secrets and of public points.

A tweak adds a number to a secret and that multiple of the generator to a public point.  If the point
is the secret's, both fail for the same reason or the new point is the new secret's (`tweaked`), so
the same holds of any tweaks one after the other (`tweakedAll`).  What a row of tweaks leads to is
the sum of them, in whatever order they are.
-/

set_option autoImplicit false
set_option relaxedAutoImplicit false

namespace KeyTree

open Curve

namespace KeyPair

section

variable {p q : KeyPair} {secret : Octets 32}

private theorem HasPoint.publicPoint_eq {Q : PointGroup} (own : p.HasPoint Q)
    (own' : q.HasPoint Q) : p.publicPoint = q.publicPoint := by
  obtain ⟨A, loaded, point⟩ := own
  obtain ⟨B, loaded', point'⟩ := own'
  obtain rfl : A = B := Point.affine.inj (point.symm.trans point')
  exact loaded.trans loaded'.symm

private theorem ext_halves (secrets : p.secret = q.secret)
    (points : p.publicPoint = q.publicPoint) : p = q := by
  cases p
  cases q
  cases secrets
  cases points
  rfl

/-! ### One tweak -/

/-- What a tweak does to a secret and to a pair with the secret's point.  Both are kept for the same
reason; or the secret becomes the sum modulo the order, and the pair has this multiple of the
generator and no secret. -/
inductive Tweaked (p : KeyPair) (secret tweak : Octets 32) :
    Except CurveError (Octets 32) → Except CurveError Unit × KeyPair → Prop where
  | outOfRange : order ≤ tweak.value →
      Tweaked p secret tweak (.error .tweakOutOfRange) (.error .tweakOutOfRange, p)
  | toIdentity : tweak.value < order → secret.value + tweak.value = order →
      Tweaked p secret tweak (.error .tweakToIdentity) (.error .tweakToIdentity, p)
  | added {next : Octets 32} {q : KeyPair} : tweak.value < order →
      secret.value + tweak.value ≠ order →
      next.value = (secret.value + tweak.value) % order → 0 < next.value →
      q.secret = none → q.HasPoint (next.value • G) →
      Tweaked p secret tweak (.ok next) (.ok (), q)

private theorem tweaked (positive : 0 < secret.value) (bounded : secret.value < order)
    (own : p.HasPoint (secret.value • G)) (tweak : Octets 32) :
    Tweaked p secret tweak (tweakSecret secret tweak) ((tweakPublic tweak).apply p) := by
  obtain ⟨d, nonzero, value, -⟩ := exists_ofSecret positive bounded
  obtain rfl : d.toOctets 32 = secret := Residue.toOctets_eq_of_val value
  obtain ⟨A, loaded, point⟩ := own
  rw [← value, ← toZMod_smul] at point
  rw [tweakSecret_toOctets nonzero, apply_tweakPublic loaded point]
  cases read : Residue.ofOctets? order tweak with
  | none => exact .outOfRange (Residue.ofOctets?_eq_none_iff.mp read)
  | some t =>
      have t_value : t.val = tweak.value := Residue.ofNat?_eq_some_iff.mp read
      have t_lt : tweak.value < order := t_value ▸ t.val_lt
      have sum : d.toZMod • G + t.toZMod • G = (d + t).toZMod • G := by
        rw [Residue.toZMod_add, add_smul]
      have zero_iff := Residue.add_eq_zero_iff (b := t) nonzero
      rw [t_value, value] at zero_iff
      simp only [sum]
      by_cases zero : d + t = 0
      · rw [if_pos zero, zero, Residue.toZMod_zero, zero_smul (ZMod order) G, Point.ofGroup_zero]
        exact .toIdentity t_lt (zero_iff.mp zero)
      · obtain ⟨B, coordinates⟩ := Point.exists_ofGroup_eq_affine (smul_G_ne_zero zero)
        have next : ((d + t).toOctets 32).value = (d + t).val := value_scalar _
        rw [if_neg zero, coordinates]
        refine .added t_lt (mt zero_iff.mpr zero) ?_ ?_ rfl ⟨B, rfl, ?_⟩
        · rw [next, Residue.val_add, t_value, value]
        · rw [next]
          exact Residue.val_pos_iff.mpr zero
        · rw [next, ← toZMod_smul, coordinates]

/-- The identity is told apart before the new point is taken for a public key. -/
theorem Tweaked.ne_invalidPublicKey {tweak : Octets 32} {result : Except CurveError (Octets 32)}
    {answer : Except CurveError Unit × KeyPair} (step : Tweaked p secret tweak result answer)
    (fault : PublicKeyFault) : answer.1 ≠ .error (.invalidPublicKey fault) := by
  cases step with
  | outOfRange => nofun
  | toIdentity => nofun
  | added => nofun

/-! ### Tweaks one after the other -/

def tweakSum (tweaks : List (Octets 32)) : Nat :=
  (tweaks.map Octets.value).sum

def tweakSecretAll (secret : Octets 32) (tweaks : List (Octets 32)) :
    Except CurveError (Octets 32) :=
  tweaks.foldlM tweakSecret secret

def tweakPublicAll (tweaks : List (Octets 32)) : Update KeyPair CurveError Unit :=
  tweaks.forM tweakPublic

private theorem tweakSecretAll_cons (secret tweak : Octets 32) (tweaks : List (Octets 32)) :
    tweakSecretAll secret (tweak :: tweaks) =
      tweakSecret secret tweak >>= fun next => tweakSecretAll next tweaks := rfl

private theorem tweakPublicAll_cons (tweak : Octets 32) (tweaks : List (Octets 32)) :
    tweakPublicAll (tweak :: tweaks) = tweakPublic tweak >>= fun _ => tweakPublicAll tweaks := rfl

/-- What a row of tweaks does to a secret and to a pair with the secret's point.  Both stop for the
same reason; or the secret becomes the sum modulo the order, and the pair has this multiple of the
generator and, if there were any tweaks, no secret. -/
inductive TweakedAll (p : KeyPair) (secret : Octets 32) (tweaks : List (Octets 32)) :
    Except CurveError (Octets 32) → Except CurveError Unit × KeyPair → Prop where
  | stopped {fault : CurveError} {q : KeyPair} :
      TweakedAll p secret tweaks (.error fault) (.error fault, q)
  | reached {last : Octets 32} {q : KeyPair} :
      last.value = (secret.value + tweakSum tweaks) % order → 0 < last.value →
      q.secret = (if tweaks = [] then p.secret else none) → q.HasPoint (last.value • G) →
      TweakedAll p secret tweaks (.ok last) (.ok (), q)

private theorem tweakedAll_nil (positive : 0 < secret.value) (bounded : secret.value < order)
    (own : p.HasPoint (secret.value • G)) :
    TweakedAll p secret [] (.ok secret) (.ok (), p) :=
  .reached (Nat.mod_eq_of_lt bounded).symm positive rfl own

private theorem TweakedAll.cons {next tweak : Octets 32} {tweaks : List (Octets 32)}
    {result : Except CurveError (Octets 32)} {answer : Except CurveError Unit × KeyPair}
    (sum : next.value = (secret.value + tweak.value) % order) (dropped : q.secret = none)
    (rest : TweakedAll q next tweaks result answer) :
    TweakedAll p secret (tweak :: tweaks) result answer := by
  cases rest with
  | stopped => exact .stopped
  | reached value positive kept own =>
      refine .reached ?_ positive ?_ own
      · rw [value, sum, Nat.mod_add_mod, tweakSum, tweakSum, List.map_cons, List.sum_cons,
          Nat.add_assoc]
      · rw [kept, dropped, ite_self]
        rfl

private theorem tweakedAll (positive : 0 < secret.value) (bounded : secret.value < order)
    (own : p.HasPoint (secret.value • G)) (tweaks : List (Octets 32)) :
    TweakedAll p secret tweaks (tweakSecretAll secret tweaks)
      ((tweakPublicAll tweaks).apply p) := by
  induction tweaks generalizing p secret with
  | nil => exact tweakedAll_nil positive bounded own
  | cons tweak tweaks ih =>
      have step := tweaked positive bounded own tweak
      rw [tweakSecretAll_cons, tweakPublicAll_cons, Update.apply_bind]
      generalize tweakSecret secret tweak = result at step ⊢
      generalize (tweakPublic tweak).apply p = answer at step ⊢
      cases step with
      | outOfRange => exact .stopped
      | toIdentity => exact .stopped
      | added _ _ sum positive' dropped own' =>
          have bounded' := sum ▸ Nat.mod_lt _ (by decide : 0 < order)
          exact (ih positive' bounded' own').cons sum dropped

private theorem tweakSum_eq_of_perm {tweaks tweaks' : List (Octets 32)}
    (perm : tweaks.Perm tweaks') : tweakSum tweaks = tweakSum tweaks' :=
  (perm.map Octets.value).sum_eq

private theorem TweakedAll.eq_of_perm {tweaks tweaks' : List (Octets 32)}
    (perm : tweaks.Perm tweaks')
    {last last' : Octets 32} {answer answer' : Except CurveError Unit × KeyPair}
    (row : TweakedAll p secret tweaks (.ok last) answer)
    (row' : TweakedAll p secret tweaks' (.ok last') answer') : last = last' ∧ answer = answer' := by
  have empty_iff : tweaks = [] ↔ tweaks' = [] := by
    rw [← List.length_eq_zero_iff, perm.length_eq, List.length_eq_zero_iff]
  cases row with
  | reached value _ kept own =>
      cases row' with
      | reached value' _ kept' own' =>
          obtain rfl : last = last' := by
            apply Octets.value_injective
            rw [value, value', tweakSum_eq_of_perm perm]
          have secrets := kept.trans ((if_congr empty_iff rfl rfl).trans kept'.symm)
          exact ⟨rfl, congrArg _ (ext_halves secrets (own.publicPoint_eq own'))⟩

/-- A tweak does to a secret in range what it does to a pair with the secret's point, where the new
point is always good for a public key; and so do tweaks one after the other.  Rows of the same tweaks
in any order that all succeed lead to the same secret and the same pair. -/
theorem tweaks_agree {secret : Octets 32} (positive : 0 < secret.value)
    (bounded : secret.value < order) {p : KeyPair} (own : p.HasPoint (secret.value • G)) :
    (∀ tweak, Tweaked p secret tweak (tweakSecret secret tweak) ((tweakPublic tweak).apply p) ∧
      ∀ fault, ((tweakPublic tweak).apply p).1 ≠ .error (.invalidPublicKey fault)) ∧
    (∀ tweaks, TweakedAll p secret tweaks (tweakSecretAll secret tweaks)
      ((tweakPublicAll tweaks).apply p)) ∧
    ∀ tweaks tweaks' : List (Octets 32), tweaks.Perm tweaks' → ∀ last last',
      tweakSecretAll secret tweaks = .ok last → tweakSecretAll secret tweaks' = .ok last' →
      last = last' ∧ (tweakPublicAll tweaks).apply p = (tweakPublicAll tweaks').apply p := by
  have all := tweakedAll positive bounded own
  refine ⟨fun tweak => ?_, all, ?_⟩
  · have step := tweaked positive bounded own tweak
    exact ⟨step, step.ne_invalidPublicKey⟩
  · intro tweaks tweaks' perm last last' made made'
    have row := all tweaks
    have row' := all tweaks'
    rw [made] at row
    rw [made'] at row'
    exact row.eq_of_perm perm row'

theorem tweaks_agree_one :
    (∃ q, (tweakPublicAll [Octets.ofNat 32 1, Octets.ofNat 32 2]).apply (ofScalar 1) = (.ok (), q) ∧
      (tweakPublicAll [Octets.ofNat 32 2, Octets.ofNat 32 1]).apply (ofScalar 1) = (.ok (), q) ∧
      q.HasPoint (4 • G)) ∧
    (tweakPublic (Octets.ofNat 32 (order - 1))).apply (ofScalar 1) =
      (.error .tweakToIdentity, ofScalar 1) := by
  have own : (ofScalar 1).HasPoint ((Octets.ofNat 32 1).value • G) := hasPoint_ofScalar (by decide)
  obtain ⟨one, all, reordered⟩ := tweaks_agree (by decide) (by decide) own
  have made : tweakSecretAll (Octets.ofNat 32 1) [Octets.ofNat 32 1, Octets.ofNat 32 2] =
      .ok (Octets.ofNat 32 4) := by
    decide +kernel
  have made' : tweakSecretAll (Octets.ofNat 32 1) [Octets.ofNat 32 2, Octets.ofNat 32 1] =
      .ok (Octets.ofNat 32 4) := by
    decide +kernel
  have stopped : tweakSecret (Octets.ofNat 32 1) (Octets.ofNat 32 (order - 1)) =
      .error .tweakToIdentity := by
    decide +kernel
  obtain ⟨-, same⟩ := reordered _ _ (.swap _ _ []) _ _ made made'
  have row := all [Octets.ofNat 32 1, Octets.ofNat 32 2]
  have step := (one (Octets.ofNat 32 (order - 1))).1
  rw [made] at row
  rw [stopped] at step
  constructor
  · rw [← same]
    generalize (tweakPublicAll _).apply (ofScalar 1) = answer at row ⊢
    cases row with
    | reached _ _ _ own' => exact ⟨_, rfl, rfl, own'⟩
  · generalize (tweakPublic _).apply (ofScalar 1) = answer at step ⊢
    cases step with
    | toIdentity => rfl

end

end KeyPair

end KeyTree
