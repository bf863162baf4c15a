/-!
# Ranges of code points

Classes of characters are given by ranges of code points with both ends included: a short class as a
list, `inRanges`, and a long one as a table in increasing order, `inTable`.
-/

namespace HoneypotAudit.Text

/-- Membership in a list of ranges with both ends included. -/
def inRanges (ranges : List (Nat × Nat)) (n : Nat) : Bool :=
  ranges.any fun r => decide (r.1 ≤ n) && decide (n ≤ r.2)

/-- Looks for the range of a sorted table that holds a number, between two places of the table. -/
def holdsBetween (ranges : Array (Nat × Nat)) (n low high : Nat) : Bool :=
  if _h : low < high then
    let mid := (low + high) / 2
    match ranges[mid]? with
    | none => false
    | some (first, last) =>
      if n < first then holdsBetween ranges n low mid
      else if last < n then holdsBetween ranges n (mid + 1) high
      else true
  else false
termination_by high - low

/-- Membership in a table of ranges in increasing order. -/
def inTable (ranges : Array (Nat × Nat)) (n : Nat) : Bool :=
  holdsBetween ranges n 0 ranges.size

end HoneypotAudit.Text
