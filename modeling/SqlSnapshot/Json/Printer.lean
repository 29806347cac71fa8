import SqlSnapshot.Json.Basic

/-!
# Writing JSON

One printer with two layouts: `compact` leaves no blank, `indented` starts every item and member
on a line of its own, two blanks deeper than the bracket around it.  Of all characters only the
quote, the backslash and the control characters below U+0020 are escaped.
-/

namespace SqlSnapshot.Json

inductive Layout where
  | compact
  | indented (level : Nat)
deriving Repr, DecidableEq

namespace Layout

def deeper : Layout → Layout
  | .compact => .compact
  | .indented level => .indented (level + 1)

/-- What stands before an item, a member or a closing bracket of this level. -/
def lineStart : Layout → List Char
  | .compact => []
  | .indented level => '\n' :: List.replicate (2 * level) ' '

def colon : Layout → List Char
  | .compact => [':']
  | .indented _ => [':', ' ']

end Layout

def hexDigit (n : Nat) : Char :=
  if n < 10 then Char.ofNat (n + 48) else Char.ofNat (n + 87)

def escapeChar (c : Char) : List Char :=
  match c with
  | '\x22' => ['\\', '\x22']
  | '\\' => ['\\', '\\']
  | '\x08' => ['\\', 'b']
  | '\x0c' => ['\\', 'f']
  | '\n' => ['\\', 'n']
  | '\r' => ['\\', 'r']
  | '\t' => ['\\', 't']
  | _ =>
    if c.toNat < 0x20 then
      ['\\', 'u', '0', '0', hexDigit (c.toNat / 16), hexDigit (c.toNat % 16)]
    else [c]

def quote (s : String) : List Char :=
  '\x22' :: (s.toList.flatMap escapeChar ++ ['\x22'])

mutual

def write (layout : Layout) : Json → List Char
  | .null => ['n', 'u', 'l', 'l']
  | .bool true => ['t', 'r', 'u', 'e']
  | .bool false => ['f', 'a', 'l', 's', 'e']
  | .int value => (toString value).toList
  | .text value => quote value
  | .array [] => ['[', ']']
  | .array (v :: vs) =>
    '[' :: (layout.deeper.lineStart ++ write layout.deeper v ++ writeItems layout vs)
  | .object [] => ['\x7b', '\x7d']
  | .object ((k, v) :: ms) =>
    '\x7b' :: (layout.deeper.lineStart ++ quote k ++ layout.colon ++ write layout.deeper v ++
      writeMembers layout ms)
  | .decimal => ['n', 'u', 'l', 'l']
  | .unreadable => ['n', 'u', 'l', 'l']

/-- The items after the first, and the closing bracket. -/
def writeItems (layout : Layout) : List Json → List Char
  | [] => layout.lineStart ++ [']']
  | v :: vs => ',' :: (layout.deeper.lineStart ++ write layout.deeper v ++ writeItems layout vs)

/-- The members after the first, and the closing brace. -/
def writeMembers (layout : Layout) : List (String × Json) → List Char
  | [] => layout.lineStart ++ ['\x7d']
  | (k, v) :: ms =>
    ',' :: (layout.deeper.lineStart ++ quote k ++ layout.colon ++ write layout.deeper v ++
      writeMembers layout ms)

end

def compact (v : Json) : String :=
  String.ofList (v.write .compact)

def pretty (v : Json) : String :=
  String.ofList (v.write (.indented 0))

end SqlSnapshot.Json
