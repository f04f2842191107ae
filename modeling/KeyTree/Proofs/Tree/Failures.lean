import KeyTree.Proofs.Key.Calls
import KeyTree.Proofs.Update
import KeyTree.Tree.PrivateNode
/-!
What failed calls do to key pairs, secret keys and private nodes: nothing.

Every operation that can fail does all its checks before it writes.  Loading bytes into a secret key
does not fail; it answers whether the key is now valid, and bytes out of range clear the key.
-/

set_option autoImplicit false
set_option relaxedAutoImplicit false

namespace KeyTree

open Update

namespace KeyPair

private theorem atomic_replace (made : Except CurveError KeyPair) : Atomic (replace made) :=
  (reads_ofExcept made).bind fun pair => (sure_set pair).atomic

private theorem atomic_setSecret (secret : Octets 32) : Atomic (setSecret secret) :=
  (reads_ofExcept (secretOf secret)).bind fun d => (sure_set (ofScalar d)).atomic

private theorem atomic_tweakPublic (tweak : Octets 32) : Atomic (tweakPublic tweak) := by
  refine reads_get.bind fun p => (reads_ofExcept p.needPublic).bind fun P =>
    (reads_ofExcept (tweakOf tweak)).bind fun t => ?_
  dsimp only
  split
  · exact (reads_throw _).atomic
  · exact (reads_ofExcept _).bind fun Q => (sure_set _).atomic

private theorem Call.atomic (call : Call) : Atomic call.operation := by
  cases call with
  | new => exact (sure_set _).atomic
  | ofSecret secret => exact atomic_replace _
  | setSecret secret => exact atomic_setSecret secret
  | ofPublicKey key onCurve => exact (sure_set _).atomic
  | setPublicKey key onCurve => exact (sure_modify _).atomic
  | setDer der skipCheck => exact atomic_replace _
  | recover hash raw recoveryId => exact atomic_replace _
  | tweakPublic tweak => exact atomic_tweakPublic tweak
  | clone => exact (sure_pure _).atomic

end KeyPair

namespace SecretKey

inductive Call where
  | setBytes (bs : Bytes) (compressed : Bool)
  | generate (source : Entropy) (compressed : Bool)
  | setDer (der : Bytes) (compressed skipCheck : Bool)
  | load (der : Bytes) (expected : PublicKey) (skipCheck : Bool)

/-- The operation of a call.  Loading bytes never fails, whatever its answer is. -/
def Call.operation : Call → Update SecretKey TreeError Unit
  | setBytes bs compressed => modify fun k => ((SecretKey.setBytes bs compressed).run k).2
  | generate source compressed => do
      let _ ← SecretKey.generate source compressed
      return ()
  | setDer der compressed skipCheck => SecretKey.setDer der compressed skipCheck
  | load der expected skipCheck => SecretKey.load der expected skipCheck

private theorem atomic_generate (source : Entropy) (compressed : Bool) :
    Atomic (generate source compressed) :=
  (reads_ofExcept (liftCurve source.drawSecret)).bind fun (secret, rest) =>
    (sure_set (SecretKey.mk true compressed secret)).atomic.bind fun _ => sure_pure rest

private theorem atomic_setDer (der : Bytes) (compressed skipCheck : Bool) :
    Atomic (setDer der compressed skipCheck) :=
  (reads_ofExcept (ofDer der compressed skipCheck)).bind fun key => (sure_set key).atomic

private theorem atomic_load (der : Bytes) (expected : PublicKey) (skipCheck : Bool) :
    Atomic (load der expected skipCheck) := by
  refine (reads_ofExcept (ofDer der expected.compressed skipCheck)).bind fun key => ?_
  split
  · exact (reads_throw _).bind fun _ => (sure_set key).atomic
  · exact (sure_set key).atomic

private theorem Call.atomic (call : Call) : Atomic call.operation := by
  cases call with
  | setBytes bs compressed => exact (sure_modify _).atomic
  | generate source compressed =>
      exact (atomic_generate source compressed).bind fun _ => sure_pure ()
  | setDer der compressed skipCheck => exact atomic_setDer der compressed skipCheck
  | load der expected skipCheck => exact atomic_load der expected skipCheck

private theorem loadBytes_of_refused {k : SecretKey} {bs : Bytes} {compressed : Bool}
    (refused : (k.loadBytes bs compressed).valid = false) :
    k.loadBytes bs compressed = ⟨false, k.compressed, Octets.zero 32⟩ := by
  unfold loadBytes at refused ⊢
  split at refused
  · split at refused
    · cases refused
    · rename_i outside
      exact if_neg outside
  · rfl

end SecretKey

namespace PrivateNode

private theorem atomic_setSeed (seed : Bytes) : Atomic (setSeed seed) :=
  (reads_ofExcept (ofSeed seed)).bind fun node => (sure_set node).atomic

end PrivateNode

/-- Key pairs, secret keys and private nodes in any state are as they were after a call that fails,
so that failed calls can be left out of any sequence.  The one exception answers instead of failing:
bytes that are refused clear a secret key, and only its encoding stays. -/
theorem failed_calls_removable :
    FailsCleanly KeyPair.Call.operation ∧ FailsCleanly SecretKey.Call.operation ∧
      FailsCleanly PrivateNode.setSeed ∧
      ∀ (k reached : SecretKey) (bs : Bytes) (compressed : Bool),
        (SecretKey.setBytes bs compressed).run k = (false, reached) →
          reached = ⟨false, k.compressed, Octets.zero 32⟩ ∧ reached.size = 0 := by
  refine ⟨failsCleanly KeyPair.Call.atomic, failsCleanly SecretKey.Call.atomic,
    failsCleanly PrivateNode.atomic_setSeed, ?_⟩
  intro k reached bs compressed answered
  obtain ⟨refused, loaded⟩ := Prod.mk.inj answered
  have cleared : reached = ⟨false, k.compressed, Octets.zero 32⟩ :=
    loaded.symm.trans (SecretKey.loadBytes_of_refused refused)
  exact ⟨cleared, by rw [cleared]; rfl⟩

theorem failed_calls_removable_one :
    let one := Octets.ofNat 32 1
    let minusOne := (-1 : Curve.Scalar).toOctets 32
    let calls := [KeyPair.Call.setSecret one, .tweakPublic minusOne]
    succeeding KeyPair.Call.operation calls .empty = [.setSecret one] ∧
      run KeyPair.Call.operation [.setSecret one] .empty =
        run KeyPair.Call.operation calls .empty ∧
      (∀ reached, (KeyPair.tweakPublic minusOne).apply (.ofScalar 1) =
        (.error .tweakToIdentity, reached) → reached = .ofScalar 1) ∧
      ((SecretKey.setBytes (Octets.zero 32).toList true).run ⟨true, false, one⟩).2 =
        ⟨false, false, Octets.zero 32⟩ := by
  intro one minusOne calls
  obtain ⟨pairs, -, -, clears⟩ := failed_calls_removable
  have loaded : (KeyPair.Call.setSecret one).operation.apply .empty = (.ok (), .ofScalar 1) := by
    decide +kernel
  have refused : (KeyPair.Call.tweakPublic minusOne).operation.apply (.ofScalar 1) =
      (.error .tweakToIdentity, .ofScalar 1) := by decide +kernel
  have kept : succeeding KeyPair.Call.operation calls .empty = [.setSecret one] := by
    rw [succeeding_cons_of_ok loaded, succeeding_cons_of_error refused]
    rfl
  have rejected : ((SecretKey.setBytes (Octets.zero 32).toList true).run ⟨true, false, one⟩).1 =
      false := by decide
  exact ⟨kept, kept ▸ pairs.removable calls .empty,
    pairs.unchanged (.tweakPublic minusOne) _ _, (clears _ _ _ _ (Prod.ext rejected rfl)).1⟩

end KeyTree
