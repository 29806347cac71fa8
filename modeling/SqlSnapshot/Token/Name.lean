import SqlSnapshot.Token.Parens

/-!
# Names and types

Dotted names, and the canonical text of a type reference: a built-in type is written in lower
case, a type of some schema as it is spelled, and the arguments without blanks.
-/

namespace SqlSnapshot.Token

/-- The further parts of a dotted name, each after a period. -/
def readNameTail : List Token → List String × List Token
  | .period :: .word text _ :: ts =>
    let (parts, rest) := readNameTail ts
    (text :: parts, rest)
  | ts => ([], ts)

theorem isSuffix_readNameTail (ts : List Token) : (readNameTail ts).2 <:+ ts := by
  fun_induction readNameTail ts with
  | case1 text quoted ts parts rest hrest ih =>
    rw [hrest] at ih
    exact ih.trans ((List.suffix_cons _ _).trans (List.suffix_cons _ _))
  | case2 ts hname => exact List.suffix_refl ts

/-- The parts of the dotted name at the front of the list. -/
def readName? : List Token → Option (List String × List Token)
  | .word text _ :: ts =>
    let (parts, rest) := readNameTail ts
    some (text :: parts, rest)
  | _ => none

theorem isSuffix_readName? {ts rest : List Token} {parts : List String}
    (h : readName? ts = some (parts, rest)) : rest <:+ ts := by
  unfold readName? at h
  split at h
  · simp only [Option.some.injEq, Prod.mk.injEq] at h
    rw [← h.2]
    exact (isSuffix_readNameTail _).trans (List.suffix_cons _ _)
  · cases h

theorem length_readName? {ts rest : List Token} {parts : List String}
    (h : readName? ts = some (parts, rest)) : rest.length < ts.length := by
  unfold readName? at h
  split at h
  · simp only [Option.some.injEq, Prod.mk.injEq] at h
    rw [← h.2, List.length_cons]
    exact Nat.lt_succ_of_le (isSuffix_readNameTail _).length_le
  · cases h

def typeArgument : Token → String
  | .num digits => digits
  | .word text _ => Text.lower text
  | .comma => ","
  | _ => ""

/-- The canonical text of the type reference at the front of the list. -/
def readType? (ts : List Token) : Option (String × List Token) := do
  let (parts, rest) ← readName? ts
  let base :=
    match parts with
    | [name] => Text.lower name
    | _ => ".".intercalate parts
  match rest with
  | .lparen :: rest =>
    let (arguments, rest) ← closeParen? 0 rest
    return (base ++ "(" ++ String.join (arguments.map typeArgument) ++ ")", rest)
  | _ => return (base, rest)

end SqlSnapshot.Token
