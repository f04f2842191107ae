import KeyTree.Proofs.Key.Document
import KeyTree.Proofs.Key.Recovery
/-!
Key pairs as programs come by them.

`Call` lists what makes or changes a pair, and `after` is the pair after any calls.  Whatever they
are and whichever of them fail, the two halves of the pair agree (`halves_agree`).
-/

set_option autoImplicit false
set_option relaxedAutoImplicit false

namespace KeyTree.KeyPair

open Curve

def replace (made : Except CurveError KeyPair) : Update KeyPair CurveError Unit := do
  let pair ← Update.ofExcept made
  set pair

/-- What makes or changes a pair.  The public keys that programs can hand over have a point on the
curve. -/
inductive Call where
  | new
  | ofSecret (secret : Octets 32)
  | setSecret (secret : Octets 32)
  | ofPublicKey (key : PublicKey) (onCurve : key.point.OnCurve)
  | setPublicKey (key : PublicKey) (onCurve : key.point.OnCurve)
  | setDer (der : Bytes) (skipCheck : Bool)
  | recover (hash : Octets 32) (raw : Octets 64) (recoveryId : UInt8)
  | tweakPublic (tweak : Octets 32)
  | clone

namespace Call

def operation : Call → Update KeyPair CurveError Unit
  | new => set KeyPair.empty
  | ofSecret secret => replace (KeyPair.ofSecret secret)
  | setSecret secret => KeyPair.setSecret secret
  | ofPublicKey key _ => set (KeyPair.ofPublicKey key)
  | setPublicKey key _ => modify fun p => p.setPublicKey key
  | setDer der skipCheck => KeyPair.setDer der skipCheck
  | recover hash raw recoveryId => replace (KeyPair.recover hash raw recoveryId)
  | tweakPublic tweak => KeyPair.tweakPublic tweak
  | clone => pure ()

/-- Whether the call puts in a public point for which there is no secret. -/
def bringsPoint : Call → Bool
  | ofPublicKey _ _ | setPublicKey _ _ | recover _ _ _ | tweakPublic _ => true
  | new | ofSecret _ | setSecret _ | setDer _ _ | clone => false

def answer (call : Call) (p : KeyPair) : Except CurveError Unit :=
  (call.operation.apply p).1

def next (call : Call) (p : KeyPair) : KeyPair :=
  (call.operation.apply p).2

end Call

def after (calls : List Call) : KeyPair :=
  calls.foldl (fun p call => call.next p) empty

/-- A secret is in range and its multiple of the generator is the public point; a public point is
on the curve and, having coordinates, not the identity. -/
structure Sound (p : KeyPair) : Prop where
  inRange : ∀ d, p.secret = some d → 1 ≤ d.val ∧ d.val < order
  owns : ∀ d, p.secret = some d →
    ∃ A, p.publicPoint = some A ∧ Point.ofGroup (d.toZMod • G) = .affine A
  onCurve : ∀ A, p.publicPoint = some A → A.OnCurve

section

variable {p q : KeyPair} {d : Scalar} {A : Affine}

private theorem sound_empty : empty.Sound where
  inRange := nofun
  owns := nofun
  onCurve := nofun

private theorem sound_ofScalar (nonzero : d ≠ 0) : (ofScalar d).Sound := by
  obtain ⟨A, point, own⟩ := exists_publicPoint_ofScalar nonzero
  constructor
  · rintro d' ⟨⟩
    exact ⟨Residue.val_pos_iff.mpr nonzero, d.val_lt⟩
  · rintro d' ⟨⟩
    exact ⟨A, own, point⟩
  · intro B found
    obtain rfl : A = B := Option.some.inj (own.symm.trans found)
    exact Point.onCurve_of_ofGroup point

private theorem sound_public (onCurve : A.OnCurve) : Sound ⟨none, some A⟩ where
  inRange := nofun
  owns := nofun
  onCurve := by
    rintro B ⟨⟩
    exact onCurve

theorem Sound.eq_ofScalar (sound : p.Sound) (loaded : p.secret = some d) :
    d ≠ 0 ∧ p = ofScalar d := by
  have nonzero : d ≠ 0 := Residue.val_pos_iff.mp (sound.inRange d loaded).1
  obtain ⟨A, own, point⟩ := sound.owns d loaded
  obtain ⟨B, point', own'⟩ := exists_publicPoint_ofScalar nonzero
  obtain rfl : A = B := Point.affine.inj (point.symm.trans point')
  obtain ⟨secret, publicPoint⟩ := p
  cases loaded
  cases own
  rw [← own']
  exact ⟨nonzero, rfl⟩

theorem Sound.exists_ofGroup (sound : p.Sound) (own : p.publicPoint = some A) :
    ∃ Q, Point.ofGroup Q = .affine A :=
  ⟨_, Point.ofGroup_toGroup A (sound.onCurve A own)⟩

/-! ### One call -/

/-- What a call can do to a pair.  It fails and leaves the pair, keeps it, clears it, loads a
secret together with its point, or brings a public point alone. -/
inductive Outcome (p : KeyPair) : Bool → Except CurveError Unit × KeyPair → Prop where
  | failed (bringsPoint : Bool) (fault : CurveError) : Outcome p bringsPoint (.error fault, p)
  | kept : Outcome p false (.ok (), p)
  | cleared : Outcome p false (.ok (), empty)
  | loaded {d : Scalar} : d ≠ 0 → Outcome p false (.ok (), ofScalar d)
  | brought {A : Affine} : A.OnCurve → Outcome p true (.ok (), ⟨none, some A⟩)

private theorem apply_replace (p : KeyPair) (made : Except CurveError KeyPair) :
    (replace made).apply p =
      match made with
      | .ok q => (.ok (), q)
      | .error fault => (.error fault, p) := by
  cases made <;> rfl

private theorem outcome_replace_ofSecret (p : KeyPair) (secret : Octets 32) :
    p.Outcome false ((replace (ofSecret secret)).apply p) := by
  rw [apply_replace]
  cases made : ofSecret secret with
  | error fault => exact .failed false fault
  | ok q =>
      obtain ⟨d, nonzero, -, rfl⟩ := ofSecret_eq_ok_iff.mp made
      exact .loaded nonzero

private theorem apply_setSecret (p : KeyPair) (secret : Octets 32) :
    (setSecret secret).apply p = (replace (ofSecret secret)).apply p := by
  rw [setSecret, replace, ofSecret, Update.apply_bind, Update.apply_bind]
  cases secretOf secret <;> rfl

private theorem outcome_setDer (p : KeyPair) (der : Bytes) (skipCheck : Bool) :
    p.Outcome false ((setDer der skipCheck).apply p) := by
  change p.Outcome false ((replace (ofDer der skipCheck)).apply p)
  rw [apply_replace]
  cases made : ofDer der skipCheck with
  | error fault => exact .failed false fault
  | ok q =>
      obtain ⟨-, d, nonzero, -, -, rfl, -⟩ := ofDer_eq_ok_iff.mp made
      exact .loaded nonzero

private theorem outcome_recover (p : KeyPair) (hash : Octets 32) (raw : Octets 64)
    (recoveryId : UInt8) : p.Outcome true ((replace (recover hash raw recoveryId)).apply p) := by
  rw [apply_replace]
  cases made : recover hash raw recoveryId with
  | error fault => exact .failed true fault
  | ok q =>
      obtain ⟨-, id, σ, Q, A, -, -, point, -, rfl⟩ := recover_eq_ok_iff.mp made
      exact .brought (Point.onCurve_of_ofGroup point)

private theorem Sound.outcome_tweakPublic (sound : p.Sound) (tweak : Octets 32) :
    p.Outcome true ((tweakPublic tweak).apply p) := by
  cases own : p.publicPoint with
  | none =>
      have missing : p.needPublic = .error .missingPublic := by
        rw [needPublic, own]
      simp only [tweakPublic, Update.apply_bind, Update.apply_get, Update.apply_ofExcept, missing]
      exact .failed true .missingPublic
  | some A =>
      obtain ⟨Q, coordinates⟩ := sound.exists_ofGroup own
      rw [apply_tweakPublic own coordinates]
      split
      · exact .failed true .tweakOutOfRange
      · split
        · exact .failed true .tweakToIdentity
        · rename_i B sum
          exact .brought (Point.onCurve_of_ofGroup sum)

private theorem Sound.outcome (sound : p.Sound) (call : Call) :
    p.Outcome call.bringsPoint (call.operation.apply p) := by
  -- Of all the calls only tweaking looks at the pair, and it needs the point to be on the curve.
  cases call with
  | new => exact .cleared
  | ofSecret secret => exact outcome_replace_ofSecret p secret
  | setSecret secret =>
      rw [Call.operation, apply_setSecret]
      exact outcome_replace_ofSecret p secret
  | ofPublicKey key onCurve => exact .brought onCurve
  | setPublicKey key onCurve => exact .brought onCurve
  | setDer der skipCheck => exact outcome_setDer p der skipCheck
  | recover hash raw recoveryId => exact outcome_recover p hash raw recoveryId
  | tweakPublic tweak => exact sound.outcome_tweakPublic tweak
  | clone => exact .kept

private theorem Outcome.sound {bringsPoint : Bool} {answer : Except CurveError Unit}
    (outcome : p.Outcome bringsPoint (answer, q)) (sound : p.Sound) : q.Sound := by
  cases outcome with
  | failed => exact sound
  | kept => exact sound
  | cleared => exact sound_empty
  | loaded nonzero => exact sound_ofScalar nonzero
  | brought onCurve => exact sound_public onCurve

private theorem Outcome.unchanged {bringsPoint : Bool} {fault : CurveError}
    (outcome : p.Outcome bringsPoint (.error fault, q)) : q = p := by
  cases outcome
  rfl

private theorem Outcome.secret_eq_none (outcome : p.Outcome true (.ok (), q)) :
    q.secret = none := by
  cases outcome
  rfl

private theorem Sound.secret_ne (sound : p.Sound) (sound' : q.Sound)
    (changed : q.publicPoint ≠ p.publicPoint) (loaded : p.secret = some d) :
    q.secret ≠ some d := by
  -- Under one secret both pairs would be the pair of this secret.
  intro kept
  obtain ⟨-, rfl⟩ := sound.eq_ofScalar loaded
  obtain ⟨-, rfl⟩ := sound'.eq_ofScalar kept
  exact changed rfl

/-! ### Any calls -/

private theorem Sound.after_from (sound : p.Sound) (calls : List Call) :
    (calls.foldl (fun p call => call.next p) p).Sound := by
  induction calls generalizing p with
  | nil => exact sound
  | cons call calls ih => exact ih ((sound.outcome call).sound sound)

end

theorem sound_after (calls : List Call) : (after calls).Sound :=
  sound_empty.after_from calls

private theorem fault_of_signCompactBy {d : Scalar} (nonzero : d ≠ 0) {hash : Octets 32}
    {nonceOf : Scalar → Option Scalar} {fault : CurveError}
    (failed : (ofScalar d).signCompactBy nonceOf hash = .error fault) :
    fault = .unusableNonce := by
  cases signed : (ofScalar d).signatureBy nonceOf hash with
  | error fault' =>
      rw [signCompactBy, signed] at failed
      cases failed
      rw [signatureBy_ofScalar] at signed
      split at signed
      · cases signed
        rfl
      · cases signed
  | ok σ =>
      -- Some id finds the own point in a signature that was made, so the search for it ends.
      obtain ⟨A, point, own⟩ := exists_publicPoint_ofScalar nonzero
      obtain ⟨-, id, found⟩ := isLow_and_exists_finds signed
      rw [signCompactBy, signed, ok_bind, recoveryIdOf_eq own point found] at failed
      cases failed

/-- The operations that need the public point find it; signing fails for the want of a usable nonce
only. -/
structure Complete (p : KeyPair) : Prop where
  publicKey : ∀ compressed, ∃ key, p.publicKey compressed = .ok key
  toDer : ∀ compressed, ∃ der, p.toDer compressed = .ok der
  signCompactBy : ∀ nonceOf hash fault,
    p.signCompactBy nonceOf hash = .error fault → fault = .unusableNonce
  signCompact : ∀ hash fault, p.signCompact hash = .error fault → fault = .unusableNonce

theorem complete_ofScalar {d : Scalar} (nonzero : d ≠ 0) : (ofScalar d).Complete := by
  obtain ⟨A, -, own⟩ := exists_publicPoint_ofScalar nonzero
  constructor
  · exact fun compressed => ⟨_, publicKey_eq own compressed⟩
  · exact fun compressed => ⟨_, toDer_ofScalar own compressed⟩
  · exact fun nonceOf hash fault => fault_of_signCompactBy nonzero
  · exact fun hash fault => fault_of_signCompactBy nonzero

/-- No call leaves a secret under a public point that it does not belong to.  A call that fails
leaves the pair as it was. -/
structure Call.Safe (call : Call) (p : KeyPair) : Prop where
  unchanged : ∀ fault, call.answer p = .error fault → call.next p = p
  dropped : call.bringsPoint = true → call.answer p = .ok () → (call.next p).secret = none
  notKept : ∀ d, p.secret = some d → (call.next p).publicPoint ≠ p.publicPoint →
    (call.next p).secret ≠ some d

private theorem Sound.safe {p : KeyPair} (sound : p.Sound) (call : Call) : call.Safe p := by
  have outcome : p.Outcome call.bringsPoint (call.answer p, call.next p) := sound.outcome call
  constructor
  · intro fault failed
    rw [failed] at outcome
    exact outcome.unchanged
  · intro brings succeeded
    rw [brings, succeeded] at outcome
    exact outcome.secret_eq_none
  · intro d loaded changed
    exact sound.secret_ne (outcome.sound sound) changed loaded

/-- After any calls, whichever of them fail, the halves of the pair agree; with a secret the pair
is complete; and every further call is safe. -/
theorem halves_agree (calls : List Call) :
    (after calls).Sound ∧ ((after calls).hasSecret = true → (after calls).Complete) ∧
      ∀ call : Call, call.Safe (after calls) := by
  have sound := sound_after calls
  refine ⟨sound, fun loaded => ?_, sound.safe⟩
  obtain ⟨d, loaded⟩ := Option.isSome_iff_exists.mp loaded
  obtain ⟨nonzero, same⟩ := sound.eq_ofScalar loaded
  rw [same]
  exact complete_ofScalar nonzero

theorem halves_agree_one :
    let one := Octets.ofNat 32 1
    let calls := [Call.setSecret one, .setSecret (Octets.zero 32)]
    (after calls).secret = some 1 ∧ (after calls).Complete ∧
      (Call.answer (.tweakPublic one) (after calls) = .ok () ∧
        (Call.next (.tweakPublic one) (after calls)).secret = none) := by
  intro one calls
  obtain ⟨-, complete, safe⟩ := halves_agree calls
  have loaded : (after calls).secret = some 1 := by decide +kernel
  have tweaked : Call.answer (.tweakPublic one) (after calls) = .ok () := by decide +kernel
  exact ⟨loaded, complete (by rw [hasSecret, loaded]; rfl), tweaked,
    (safe (.tweakPublic one)).dropped rfl tweaked⟩

end KeyTree.KeyPair
