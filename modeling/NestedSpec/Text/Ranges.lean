/-!
# Ranges of code points

Membership of a code point in an ordered table of closed ranges, by bisection.
-/

namespace NestedSpec.Text

/-- Ordered, disjoint, closed ranges of code points. -/
abbrev Ranges := Array (Nat × Nat)

namespace Ranges

/-- Whether one of the ranges from place `low` to before place `high` holds the code point. -/
def bisect (ranges : Ranges) (code : Nat) : Nat → Nat → Nat → Bool
  | 0, _, _ => false
  | steps + 1, low, high =>
    if low < high then
      let middle := (low + high) / 2
      match ranges[middle]? with
      | none => false
      | some (first, last) =>
        if code < first then bisect ranges code steps low middle
        else if last < code then bisect ranges code steps (middle + 1) high
        else true
    else false

/-- Whether some range holds the character; every step halves the table, so its size is enough. -/
def holds (ranges : Ranges) (c : Char) : Bool :=
  bisect ranges c.toNat (ranges.size + 1) 0 ranges.size

end Ranges
end NestedSpec.Text
