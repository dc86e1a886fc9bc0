/-! # Sets of characters given by ranges

A property of characters is tabulated as the increasing list of the code point ranges
that have it.
-/
namespace MonkeyFrontend.Text

/-- Whether a code point lies in one of the ranges of an increasing list, ends included.
The search stops at the first range that begins above it. -/
def covers : List (Nat × Nat) → Nat → Bool
  | [], _ => false
  | (low, high) :: rest, n => decide (low ≤ n) && (decide (n ≤ high) || covers rest n)

theorem covers_cons (low high n : Nat) (rest : List (Nat × Nat)) :
    covers ((low, high) :: rest) n =
      (decide (low ≤ n) && (decide (n ≤ high) || covers rest n)) := rfl

end MonkeyFrontend.Text
