import SqlSnapshot.Text.Blank
import SqlSnapshot.Text.Fold
import SqlSnapshot.Text.WordChar

/-!
# Searching text

A `Pattern` looks at the character before a position and at the text after it, and returns a value
with the rest of the text.  `findAll` takes the leftmost match, then the leftmost one after it, and
so on.  Keywords match without regard to case and as whole words.
-/

namespace SqlSnapshot.Text

/-- The first argument is the character before the position, if there is one. -/
abbrev Pattern (α : Type) := Option Char → List Char → Option (α × List Char)

/-- A word character stands on exactly one side of the position. -/
def isBoundary (prev : Option Char) (cs : List Char) : Bool :=
  (prev.map isWordChar).getD false != (cs.head?.map isWordChar).getD false

/-- The text after a word, which matches up to case folding. -/
def stripFold? : List Char → List Char → Option (List Char)
  | [], cs => some cs
  | w :: ws, c :: cs => if sameFold w c then stripFold? ws cs else none
  | _ :: _, [] => none

/-- The text after at least one blank. -/
def stripBlanks? : List Char → Option (List Char)
  | c :: cs => if isBlank c then some (trimStart isBlank cs) else none
  | [] => none

def stripChar? (c : Char) : List Char → Option (List Char)
  | d :: cs => if c = d then some cs else none
  | [] => none

/-- A name in square brackets: its text with the brackets, and the rest. -/
def readBracketed? : List Char → Option (List Char × List Char)
  | '[' :: cs =>
    let inside := cs.takeWhile (· != ']')
    match cs.dropWhile (· != ']') with
    | ']' :: rest => if inside.isEmpty then none else some ('[' :: (inside ++ [']']), rest)
    | _ => none
  | _ => none

/-- A plain name whose further characters are in `p`. -/
def readPlainName? (p : Char → Bool) : List Char → Option (List Char × List Char)
  | c :: cs => if isPlainStart c then some (c :: cs.takeWhile p, cs.dropWhile p) else none
  | [] => none

/-- The character before the rest of a text, given the text and the character before it. -/
def lastBefore (prev : Option Char) (cs rest : List Char) : Option Char :=
  ((cs.take (cs.length - rest.length)).getLast?).or prev

/-- The values of all matches from left to right; matches do not overlap. -/
def findAll {α : Type} (p : Pattern α) (prev : Option Char) (cs : List Char) : List α :=
  match cs with
  | [] => []
  | c :: tail =>
    match p prev (c :: tail) with
    | none => findAll p (some c) tail
    | some (v, rest) =>
      if rest.length < tail.length + 1 then
        v :: findAll p (lastBefore prev (c :: tail) rest) rest
      else v :: findAll p (some c) tail
termination_by cs.length

def find? {α : Type} (p : Pattern α) (prev : Option Char) : List Char → Option α
  | [] => (p prev []).map (·.1)
  | c :: cs =>
    match p prev (c :: cs) with
    | some (v, _) => some v
    | none => find? p (some c) cs

/-- A keyword that stands as a word of its own. -/
def keyword (word : String) : Pattern Unit := fun prev cs => do
  let rest ← stripFold? word.toList cs
  if isBoundary prev cs && isBoundary (lastBefore prev cs rest) rest then some ((), rest) else none

def hasKeyword (word : String) (cs : List Char) : Bool :=
  (find? (keyword word) none cs).isSome

end SqlSnapshot.Text
