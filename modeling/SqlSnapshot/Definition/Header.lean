import SqlSnapshot.Content.Basic
import SqlSnapshot.ParseError
import SqlSnapshot.Token.Name

/-!
# Procedure headers

From `CREATE` or `ALTER` to the `AS` before the body: the name, the parameters and the options.
-/

namespace SqlSnapshot

structure Header where
  name : List String
  parameters : List Parameter
  body : List Token
deriving Repr, Inhabited

namespace Header

open Token

def skipOrAlter (ts : List Token) : Except ParseError (List Token) :=
  if startsWithKw "OR" ts then
    if startsWithKw "ALTER" (ts.drop 1) then .ok (ts.drop 2) else .error .expectedOrAlter
  else .ok ts

/-- The tokens after `CREATE PROCEDURE` in any of its spellings. -/
def afterCreate (ts : List Token) : Except ParseError (List Token) :=
  match ts.dropWhile fun t => !t.isAnyKw ["CREATE", "ALTER"] with
  | [] => .error .expectedCreate
  | _ :: ts => do
    let ts ← skipOrAlter ts
    if startsWithAnyKw ["PROC", "PROCEDURE"] ts then .ok (ts.drop 1) else .error .expectedCreate

/-- Cuts a list of bare parameters off: it ends before the first `AS`, `WITH` or `FOR` outside
parentheses that does not follow a parameter name. -/
def cutParameters (afterVariable : Bool) (depth : Nat) : List Token → List Token × List Token
  | [] => ([], [])
  | t :: ts =>
    if depth = 0 ∧ t.isAnyKw ["AS", "WITH", "FOR"] = true ∧ afterVariable = false then
      ([], t :: ts)
    else
      let (before, rest) := cutParameters t.isVariable (depthAfter depth t) ts
      (t :: before, rest)

def bareName (text : String) : String :=
  String.ofList (text.toList.dropWhile (· == '@'))

def readParameter (part : List Token) : Except ParseError Parameter :=
  match part with
  | .word text false :: ts =>
    if Token.isVariable (.word text false) then
      let ts := if startsWithKw "AS" ts then ts.drop 1 else ts
      match readType? ts with
      | none => .error (.missingParameterType text)
      | some (sqlType, rest) =>
        .ok {
          name := bareName text
          sqlType
          isOutput := rest.any (·.isAnyKw ["OUT", "OUTPUT"])
          hasDefault := rest.any (· == .equals)
          isReadonly := rest.any (·.isKw "READONLY") }
    else .error .expectedParameterName
  | _ => .error .expectedParameterName

def readParameters (ts : List Token) : Except ParseError (List Parameter) :=
  ((splitCommas 0 ts).filter fun part => !part.isEmpty).mapM readParameter

/-- The option `EXECUTE AS`, whose `AS` does not end the options. -/
def isExecuteAs (t u : Token) : Bool :=
  t.isAnyKw ["EXECUTE", "EXEC"] && u.isKw "AS"

/-- Skips procedure options; the list then starts with the closing `AS` or with `FOR`. -/
def skipOptions : List Token → List Token
  | [] => []
  | [t] => if t.isAnyKw ["AS", "FOR"] then [t] else []
  | [t, u] =>
    if isExecuteAs t u then []
    else if t.isAnyKw ["AS", "FOR"] then [t, u]
    else skipOptions [u]
  | t :: u :: v :: ts =>
    if isExecuteAs t u then skipOptions ts
    else if t.isAnyKw ["AS", "FOR"] then t :: u :: v :: ts
    else skipOptions (u :: v :: ts)

/-- The number of a numbered procedure, `;2`, is skipped. -/
def skipNumber : List Token → List Token
  | .semicolon :: .num _ :: ts => ts
  | ts => ts

/-- The parameters in parentheses or bare, and the tokens after them. -/
def parameterList (ts : List Token) : Except ParseError (List Parameter × List Token) :=
  let bare :=
    let (list, rest) := cutParameters false 0 ts
    (readParameters list).map (·, rest)
  match ts with
  | .lparen :: t :: _ =>
    if t.isVariable then
      match closeParen? 0 (ts.drop 1) with
      | none => .error .unterminatedParameters
      | some (list, rest) => (readParameters list).map (·, rest)
    else bare
  | _ => bare

def afterOptions (ts : List Token) : List Token :=
  let ts := if startsWithKw "WITH" ts then skipOptions (ts.drop 1) else ts
  if startsWithKw "FOR" ts && startsWithKw "REPLICATION" (ts.drop 1) then ts.drop 2 else ts

def parse (ts : List Token) : Except ParseError Header := do
  let ts ← afterCreate ts
  let (name, ts) ←
    match readName? ts with
    | some named => .ok named
    | none => .error .missingName
  let (parameters, ts) ← parameterList (skipNumber ts)
  let ts := afterOptions ts
  if startsWithKw "AS" ts then .ok { name, parameters, body := ts.drop 1 }
  else .error .expectedBody

end Header

end SqlSnapshot
