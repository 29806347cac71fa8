import SqlSnapshot.Text.Ranges

/-!
# Blanks

The characters with the Unicode property White_Space, and the removal of blanks from the ends
of a text.
-/

namespace SqlSnapshot.Text

/-- Bounds of the ranges of the property White_Space. -/
def blankBounds : List Nat :=
  [0x9, 0xE, 0x20, 0x21, 0x85, 0x86, 0xA0, 0xA1, 0x1680, 0x1681, 0x2000, 0x200B, 0x2028, 0x202A,
   0x202F, 0x2030, 0x205F, 0x2060, 0x3000, 0x3001]

def isBlank (c : Char) : Bool :=
  inRanges blankBounds c.toNat

def trimStart (p : Char → Bool) (cs : List Char) : List Char :=
  cs.dropWhile p

def trimEnd (p : Char → Bool) (cs : List Char) : List Char :=
  (cs.reverse.dropWhile p).reverse

/-- Drops the characters in `p` from both ends. -/
def trimBoth (p : Char → Bool) (cs : List Char) : List Char :=
  trimEnd p (trimStart p cs)

def trimBlank (s : String) : String :=
  String.ofList (trimBoth isBlank s.toList)

end SqlSnapshot.Text
