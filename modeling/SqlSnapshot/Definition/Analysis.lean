import SqlSnapshot.Definition.AggregateAlias
import SqlSnapshot.Definition.Header
import SqlSnapshot.Definition.KeywordScan
import SqlSnapshot.Dependency

/-!
# Analysis of a definition

An `Analysis` is what is known of one procedure; later stages of a build refine it.  A definition
is read statement by statement, or searched for keywords where that fails, so that every text has
an analysis.
-/

namespace SqlSnapshot

structure Analysis where
  descriptor : Descriptor
  content : Content
  lastModified : Option Timestamp := none
  snapshotHash : Option String := none
  snapshotFile : Option String := none
  parameters : List Parameter := []
  dependencies : List Dependency := []
  issues : List Issue := []
deriving DecidableEq, Inhabited

namespace Analysis

def toJson (a : Analysis) : Json :=
  .object (Json.field "descriptor" a.descriptor.toJson ++ Json.field "content" a.content.toJson ++
    Json.fieldSome "sourceLastModifiedUtc" a.lastModified Timestamp.toJson ++
    Json.fieldSome "snapshotHash" a.snapshotHash .text ++
    Json.fieldSome "snapshotFile" a.snapshotFile .text ++
    Json.field "parameters" (Json.ofList Parameter.toJson a.parameters) ++
    Json.field "dependencies" (Json.ofList Dependency.toJson a.dependencies) ++
    Json.fieldItems "issues" a.issues Issue.toJson)

def ofJson? (j : Json) : Option Analysis := do
  let r ← j.asRecord? ["descriptor", "content", "sourceLastModifiedUtc", "snapshotHash",
    "snapshotFile", "parameters", "dependencies", "issues"]
  return {
    descriptor := ← r.required "descriptor" Descriptor.ofJson?
    content := ← r.required "content" Content.ofJson?
    lastModified := ← r.maybe "sourceLastModifiedUtc" Timestamp.ofJson?
    snapshotHash := ← r.maybe "snapshotHash" Json.asText?
    snapshotFile := ← r.maybe "snapshotFile" Json.asText?
    parameters := ← r.withDefault "parameters" [] (Json.asList? Parameter.ofJson?)
    dependencies := ← r.withDefault "dependencies" [] (Json.asList? Dependency.ofJson?)
    issues := ← r.withDefault "issues" [] (Json.asList? Issue.ofJson?) }

/-- Content, parameters and issues of a definition that is read statement by statement. -/
def readStructure (definition : String) :
    Except ParseError (Content × List Parameter × List Issue) := do
  let tokens ← Token.tokenize definition
  if !Token.isBalanced tokens then throw .unbalancedParentheses
  let header ← Header.parse tokens
  let has := fun keyword => header.body.any (·.isKw keyword)
  let found ← Body.read [] header.body
  return ({
    statements := {
      hasSelect := has "SELECT"
      hasInsert := has "INSERT"
      hasUpdate := has "UPDATE"
      hasDelete := has "DELETE"
      hasMerge := has "MERGE"
      hasOpenJson := has "OPENJSON" }
    resultSets := found.resultSets
    executed := Descriptor.distinct found.executed }, header.parameters, found.issues)

/-- The analysis of a definition; every issue names the procedure. -/
def ofDefinition (descriptor : Descriptor) (definition : String) : Analysis :=
  let (content, parameters, issues) :=
    match readStructure definition with
    | .ok parts => parts
    | .error e => (KeywordScan.scan definition e, [], [.parseError e.message])
  { descriptor
    content := AggregateAlias.tag content definition
    parameters
    issues := issues.map (·.withDefaultProcedure descriptor.display) }

def withoutDefinition (descriptor : Descriptor) : Analysis :=
  { descriptor, content := {}, issues := [.definitionUnavailable descriptor.display] }

end Analysis

end SqlSnapshot
