import KeyTree.Curve.Error
import KeyTree.Curve.Range
/-!
A finite supply of random bytes, handed out from the front.
-/

set_option autoImplicit false
set_option relaxedAutoImplicit false

namespace KeyTree

structure Entropy where
  remaining : Bytes

namespace Entropy

/-- The next `n` bytes and the supply after them; fails when fewer remain. -/
def draw (e : Entropy) (n : Nat) : Except CurveError (Octets n × Entropy) :=
  match Octets.ofList? n (e.remaining.take n) with
  | some o => .ok (o, ⟨e.remaining.drop n⟩)
  | none => .error .entropyExhausted

/-- The first usable secret among the next `attempts` draws of 32 bytes. -/
def drawSecretWithin (e : Entropy) : Nat → Except CurveError (Octets 32 × Entropy)
  | 0 => .error .noScalarDrawn
  | attempts + 1 =>
      match e.draw 32 with
      | .error fault => .error fault
      | .ok (candidate, rest) =>
          if Curve.isSecret candidate then .ok (candidate, rest)
          else rest.drawSecretWithin attempts

/-- Draws made before giving up; a single retry is needed less than once in 2^127 times. -/
def maxAttempts : Nat := 64

/-- A secret drawn uniformly from the range. -/
def drawSecret (e : Entropy) : Except CurveError (Octets 32 × Entropy) :=
  e.drawSecretWithin maxAttempts

end Entropy

end KeyTree
