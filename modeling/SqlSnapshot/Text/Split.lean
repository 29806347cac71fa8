/-!
# Splitting text

The pieces of a text between the characters that separate them; neighbouring separators have an
empty piece between them.
-/

namespace SqlSnapshot.Text

def splitBy (p : Char → Bool) : List Char → List (List Char)
  | [] => [[]]
  | c :: cs =>
    if p c then [] :: splitBy p cs
    else
      match splitBy p cs with
      | [] => [[c]]
      | piece :: pieces => (c :: piece) :: pieces

theorem splitBy_ne_nil (p : Char → Bool) (cs : List Char) : splitBy p cs ≠ [] := by
  cases cs with
  | nil => simp [splitBy]
  | cons c cs =>
    simp only [splitBy]
    split
    · simp
    · split <;> simp

/-- The pieces without the empty ones. -/
def pieces (p : Char → Bool) (cs : List Char) : List (List Char) :=
  (splitBy p cs).filter (!·.isEmpty)

end SqlSnapshot.Text
