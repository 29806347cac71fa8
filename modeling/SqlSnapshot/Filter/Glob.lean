import SqlSnapshot.Text.Fold

/-!
# Globs

A glob is a text in which `*` stands for any characters and `?` for one, line feeds excepted; all
other characters stand for themselves up to case, and square brackets do not count.
-/

namespace SqlSnapshot

inductive GlobPart where
  | anything
  | anyChar
  | char (c : Char)
deriving DecidableEq, Repr

namespace GlobPart

def ofChar? : Char → Option GlobPart
  | '*' => some .anything
  | '?' => some .anyChar
  | '[' => none
  | ']' => none
  | c => some (.char c)

def accepts : GlobPart → Char → Bool
  | .anything, c => c != '\n'
  | .anyChar, c => c != '\n'
  | .char d, c => Text.sameFold d c

end GlobPart

abbrev Glob := List GlobPart

namespace Glob

def ofText (cs : List Char) : Glob :=
  cs.filterMap GlobPart.ofChar?

/-- From the suffixes of a text that the parts after `part` match to those that `part` and the parts
after it match; each list has an entry for every suffix, the longest first. -/
def extend (part : GlobPart) : List Char → List Bool → List Bool
  | c :: cs, r :: rs =>
    let below := extend part cs rs
    let here :=
      if part = .anything then r || (part.accepts c && below.headD false)
      else part.accepts c && rs.headD false
    here :: below
  | [], rs => if part = .anything then rs else [false]
  | _ :: _, [] => []

/-- Which suffixes of a text the glob matches, the longest first. -/
def suffixMatches (cs : List Char) : Glob → List Bool
  | [] => List.replicate cs.length false ++ [true]
  | part :: parts => extend part cs (suffixMatches cs parts)

def accepts (g : Glob) (text : String) : Bool :=
  (suffixMatches text.toList g).headD false

example : accepts (ofText "Get*s".toList) "getUsers" = true ∧
    accepts (ofText "User?".toList) "UserList" = false := by
  decide +kernel

end Glob

end SqlSnapshot
