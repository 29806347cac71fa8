import SqlSnapshot.Text.Split

/-!
# Paths

A path is text: names divided by slashes, absolute when it starts with one.
-/

namespace SqlSnapshot.Path

/-- An absolute path stands for itself; any other is taken from the first one on. -/
def join (base path : String) : String :=
  if path.toList.head? = some '/' then path
  else if base.isEmpty ∨ base.toList.getLast? = some '/' then base ++ path
  else base ++ "/" ++ path

def isAbsolute (path : String) : Bool :=
  path.toList.head? == some '/'

/-- The names of a path; a slash at the end stands for the directory itself. -/
def names (path : String) : List String :=
  let names := (Text.pieces (· == '/') path.toList).map String.ofList
  if path.toList.getLast? = some '/' then names ++ ["."] else names

/-- The part of a name after its last dot; a dot at the start does not count. -/
def extension? (name : String) : Option String :=
  let after := (name.toList.reverse.takeWhile (· != '.')).reverse
  let before := name.toList.take (name.length - after.length)
  if name = ".." ∨ before.length ≤ 1 then none else some (String.ofList after)

example :
    extension? "a.b.json" = some "json" ∧ extension? ".json" = none ∧
      extension? "json" = none := by
  decide +kernel

end SqlSnapshot.Path
