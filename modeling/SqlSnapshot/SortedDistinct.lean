/-!
# Sorting without repeats

A list in increasing order that keeps, of all elements that are the same, the first one.
-/

namespace SqlSnapshot

variable {α : Type}

/-- Keeps the first of every run of elements that are the same. -/
def dropRepeats (same : α → α → Bool) : List α → List α
  | [] => []
  | a :: as =>
    match dropRepeats same as with
    | [] => [a]
    | b :: bs => if same a b then a :: bs else a :: b :: bs

def sortedDistinctBy (isAtMost same : α → α → Bool) (as : List α) : List α :=
  dropRepeats same (as.mergeSort isAtMost)

end SqlSnapshot
