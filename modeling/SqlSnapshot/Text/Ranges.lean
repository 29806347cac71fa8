/-!
# Character ranges

A Unicode property is stored as the increasing list of its bounds: the first number of each pair
starts a range, the second ends it and lies outside.  Membership is a walk along the list that
stops at the first range that starts above the number.
-/

namespace SqlSnapshot.Text

def inRanges : List Nat → Nat → Bool
  | lo :: hi :: rest, n => if n < lo then false else if n < hi then true else inRanges rest n
  | [lo], n => lo ≤ n
  | [], _ => false

theorem inRanges_cons_cons {lo hi n : Nat} {rest : List Nat} (h : lo ≤ n) :
    inRanges (lo :: hi :: rest) n = (n < hi || inRanges rest n) := by
  have : ¬ n < lo := by omega
  by_cases hn : n < hi <;> simp [inRanges, this, hn]

end SqlSnapshot.Text
