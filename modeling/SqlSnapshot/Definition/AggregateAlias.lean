import SqlSnapshot.Content.Basic
import SqlSnapshot.Text.Search

/-!
# Aggregate aliases

A column whose name is assigned from an aggregate call anywhere in the text of a definition, as in
`Total = SUM(…)`, is marked as an aggregate.  The search does not ask in which statement the
assignment stands.
-/

namespace SqlSnapshot.AggregateAlias

open Text

/-- The functions searched for, longer names before their beginnings. -/
def functions : List String :=
  ["COUNT_BIG", "COUNT", "SUM", "AVG", "MIN", "MAX", "STRING_AGG", "STDEVP", "STDEV", "VARP", "VAR"]

def isAliasPart (c : Char) : Bool :=
  isPlainStart c || c.isDigit

def readAlias? (cs : List Char) : Option (List Char × List Char) :=
  (readBracketed? cs).or (readPlainName? isAliasPart cs)

/-- A call of the given function: its name as spelled, and the text after the parenthesis. -/
def readCall? (function : String) (cs : List Char) : Option (List Char × List Char) := do
  let rest ← stripFold? function.toList cs
  let after ← stripChar? '(' (trimStart isBlank rest)
  return (cs.take (cs.length - rest.length), after)

def isSquareBracket (c : Char) : Bool :=
  c == '[' || c == ']'

/-- Alias and function of an assignment, both in lower case. -/
def readAssignment? (cs : List Char) : Option ((String × String) × List Char) := do
  let (name, rest) ← readAlias? cs
  let rest ← stripChar? '=' (trimStart isBlank rest)
  let (function, rest) ← functions.findSome? (readCall? · (trimStart isBlank rest))
  return ((lower (String.ofList (trimBoth isSquareBracket name)), lower (String.ofList function)),
    rest)

/-- A character after which an alias may start. -/
def precedesAlias (c : Char) : Bool :=
  !(isWordChar c || c == '.' || c == '@' || c == ']')

/-- An assignment at the start of the text or after a character that no name ends with. -/
def assignment : Pattern (String × String) := fun prev cs =>
  let atStart := if prev.isNone then readAssignment? cs else none
  atStart.or
    (match cs with
    | c :: rest => if precedesAlias c then readAssignment? rest else none
    | [] => none)

/-- The aliases and functions of all assignments, the last one first. -/
def scan (definition : String) : List (String × String) :=
  (findAll assignment none definition.toList).reverse

def tagFacts (aliases : List (String × String)) (f : ColumnFacts) : ColumnFacts :=
  if f.isAggregate.isSome then f
  else
    match aliases.lookup (lower f.name) with
    | some function => { f with isAggregate := some true, aggregateFunction := some function }
    | none => f

mutual

/-- Marks the column and the columns below it; one that is marked already keeps its function. -/
def tagColumn (aliases : List (String × String)) : Column → Column
  | .node facts children => .node (tagFacts aliases facts) (tagColumns aliases children)

def tagColumns (aliases : List (String × String)) : List Column → List Column
  | [] => []
  | c :: cs => tagColumn aliases c :: tagColumns aliases cs

end

def tag (content : Content) (definition : String) : Content :=
  let aliases := scan definition
  { content with
    resultSets := content.resultSets.map fun s =>
      { s with columns := tagColumns aliases s.columns } }

end SqlSnapshot.AggregateAlias
