/-!
Sets of code points, written as ranges.
-/

set_option autoImplicit false
set_option relaxedAutoImplicit false

namespace KeyTree.Text

/-- Whether a number lies in one of several ranges, both ends included, that stand in increasing
order: the first range that does not end before it decides. -/
def inRanges (ranges : List (Nat × Nat)) (v : Nat) : Bool :=
  match ranges.find? fun (_, last) => v ≤ last with
  | some (first, _) => first ≤ v
  | none => false

end KeyTree.Text
