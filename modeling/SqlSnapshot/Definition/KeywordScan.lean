import SqlSnapshot.Content.Basic
import SqlSnapshot.Definition.Body
import SqlSnapshot.ParseError
import SqlSnapshot.Text.Search
import SqlSnapshot.Token.Lexer

/-!
# Keyword scan

What can be told of a definition that is not read statement by statement: which keywords stand in
its text outside comments, the options of its first `FOR JSON`, and the procedures that it
executes.
-/

namespace SqlSnapshot.KeywordScan

open Text

/-- Every comment becomes a blank. -/
def eraseComments (cs : List Char) : List Char :=
  match cs with
  | [] => []
  | '/' :: '*' :: rest =>
    match h : Token.skipPast ['*', '/'] rest with
    | some after =>
      have := Token.length_skipPast h
      ' ' :: eraseComments after
    | none => '/' :: eraseComments ('*' :: rest)
  | '-' :: '-' :: rest =>
    have := Token.length_dropWhile_le (· != '\n') rest
    ' ' :: eraseComments (rest.dropWhile (· != '\n'))
  | c :: rest => c :: eraseComments rest
termination_by cs.length

def forJson : Pattern Unit := fun prev cs => do
  if !isBoundary prev cs then none
  let rest ← stripFold? "FOR".toList cs
  let rest ← stripBlanks? rest
  let rest ← stripFold? "JSON".toList rest
  let rest ← stripBlanks? rest
  let after ← (stripFold? "PATH".toList rest).or (stripFold? "AUTO".toList rest)
  if isBoundary (lastBefore none rest after) after then some ((), after) else none

def jsonRoot : Pattern String := fun prev cs => do
  if !isBoundary prev cs then none
  let rest ← stripFold? "ROOT".toList cs
  let rest ← stripChar? '(' (trimStart isBlank rest)
  let rest := trimStart isBlank rest
  let rest := (stripFold? ['N'] rest).getD rest
  let rest ← stripChar? '\x27' rest
  let name := rest.takeWhile (· != '\x27')
  let rest ← stripChar? '\x27' (rest.dropWhile (· != '\x27'))
  let rest ← stripChar? ')' (trimStart isBlank rest)
  return (String.ofList name, rest)

def readPart? (cs : List Char) : Option (List Char × List Char) :=
  (readBracketed? cs).or (readPlainName? isWordChar cs)

/-- A name of one or two parts. -/
def readTarget? (cs : List Char) : Option (List Char × List Char) := do
  let (first, rest) ← readPart? cs
  let second := do
    let rest ← stripChar? '.' rest
    let (part, rest) ← readPart? rest
    return (first ++ '.' :: part, rest)
  second.or (some (first, rest))

def skipStatus? (cs : List Char) : Option (List Char) := do
  let rest ← stripChar? '@' cs
  if (rest.takeWhile isWordChar).isEmpty then none
  let rest ← stripChar? '=' (trimStart isBlank (rest.dropWhile isWordChar))
  return trimStart isBlank rest

/-- The target of an `EXEC` or `EXECUTE`, as it is spelled. -/
def execTarget : Pattern String := fun prev cs => do
  if !isBoundary prev cs then none
  let rest ← stripFold? "EXEC".toList cs
  let rest := (stripFold? "UTE".toList rest).getD rest
  let rest ← stripBlanks? rest
  let rest := (skipStatus? rest).getD rest
  let (target, rest) ← readTarget? rest
  return (String.ofList target, rest)

/-- The procedures in a list of targets that belong to the application. -/
def applicationTargets (targets : List String) : List Descriptor :=
  (targets.map fun t => (t, Descriptor.parse t)).filterMap fun (text, d) =>
    if Body.isSystem (!text.toList.contains '.') d then none else some d

def resultSets (text : List Char) : List ResultSet :=
  if (find? forJson none text).isSome then
    [{ returnsJson := true
       returnsJsonArray := !hasKeyword "WITHOUT_ARRAY_WRAPPER" text
       jsonRoot := find? jsonRoot none text
       includeNullValues := hasKeyword "INCLUDE_NULL_VALUES" text }]
  else []

/-- The content of a definition that could not be read because of `error`. -/
def scan (definition : String) (error : ParseError) : Content :=
  let text := eraseComments definition.toList
  { statements := {
      hasSelect := hasKeyword "SELECT" text
      hasInsert := hasKeyword "INSERT" text
      hasUpdate := hasKeyword "UPDATE" text
      hasDelete := hasKeyword "DELETE" text
      hasMerge := hasKeyword "MERGE" text
      hasOpenJson := hasKeyword "OPENJSON" text }
    resultSets := resultSets text
    executed := Descriptor.distinct (applicationTargets (findAll execTarget none text))
    usedFallback := true
    parseErrors := 1
    firstParseError := some error.message }

end SqlSnapshot.KeywordScan
