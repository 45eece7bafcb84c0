/-!
Properties of code points as tables. A table lists, in ascending order, the code points at which
the property starts to hold or ceases to; it holds for a code point when an odd number of entries
is not above it.
-/
namespace PatternGraph.Text

structure RangeTable where
  bounds : Array Nat

namespace RangeTable

/-- How many entries from `low` up are not above `n`, plus `low`, the entries below `low` being
known to be small and those from `high` on to be large. -/
def countFrom (table : RangeTable) (n low high : Nat) : Nat :=
  if low < high then
    let middle := (low + high) / 2
    if table.bounds.getD middle 0 ≤ n then countFrom table n (middle + 1) high
    else countFrom table n low middle
  else low
termination_by high - low

def contains (table : RangeTable) (c : Char) : Bool :=
  table.countFrom c.toNat 0 table.bounds.size % 2 == 1

end RangeTable

end PatternGraph.Text
