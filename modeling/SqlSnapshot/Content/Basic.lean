import SqlSnapshot.Content.Column
import SqlSnapshot.Descriptor

/-!
# Content of a procedure

Everything that the analysis finds in one definition: which statements it contains, its
parameters, its result sets and the procedures that it executes.
-/

namespace SqlSnapshot

structure ResultSet where
  returnsJson : Bool := false
  returnsJsonArray : Bool := false
  jsonRoot : Option String := none
  includeNullValues : Bool := false
  /-- Schema and name of the procedure whose result set is passed on. -/
  execSchema : Option String := none
  execProcedure : Option String := none
  columns : List Column := []
deriving DecidableEq, Inhabited

namespace ResultSet

/-- The result set of another procedure, passed on; its columns are not known here. -/
def forwarded (target : Descriptor) : ResultSet :=
  { execSchema := some target.schema, execProcedure := some target.name }

def isForwarded (s : ResultSet) : Bool :=
  s.execProcedure.isSome

def toJson (s : ResultSet) : Json :=
  .object (Json.field "returnsJson" (.bool s.returnsJson) ++
    Json.field "returnsJsonArray" (.bool s.returnsJsonArray) ++
    Json.fieldSome "jsonRootProperty" s.jsonRoot .text ++
    Json.fieldTrue "includeNullValues" s.includeNullValues ++
    Json.fieldSome "execSourceSchema" s.execSchema .text ++
    Json.fieldSome "execSourceProcedure" s.execProcedure .text ++
    Json.field "columns" (.array (Column.toJsonAll s.columns)))

def ofJson? (j : Json) : Option ResultSet := do
  let r ← j.asRecord? ["returnsJson", "returnsJsonArray", "jsonRootProperty", "includeNullValues",
    "execSourceSchema", "execSourceProcedure", "columns"]
  return {
    returnsJson := ← r.required "returnsJson" Json.asBool?
    returnsJsonArray := ← r.required "returnsJsonArray" Json.asBool?
    jsonRoot := ← r.maybe "jsonRootProperty" Json.asText?
    includeNullValues := ← r.withDefault "includeNullValues" false Json.asBool?
    execSchema := ← r.maybe "execSourceSchema" Json.asText?
    execProcedure := ← r.maybe "execSourceProcedure" Json.asText?
    columns := ← r.withDefault "columns" [] (Json.asList? Column.ofJson?) }

end ResultSet

/-- A declared parameter; its name is without the leading `@`. -/
structure Parameter where
  name : String
  sqlType : String
  isOutput : Bool := false
  hasDefault : Bool := false
  isReadonly : Bool := false
deriving DecidableEq, Repr, Inhabited

namespace Parameter

def toJson (p : Parameter) : Json :=
  .object (Json.field "name" (.text p.name) ++ Json.field "sqlTypeName" (.text p.sqlType) ++
    Json.field "isOutput" (.bool p.isOutput) ++ Json.field "hasDefault" (.bool p.hasDefault) ++
    Json.fieldTrue "isReadonly" p.isReadonly)

def ofJson? (j : Json) : Option Parameter := do
  let r ← j.asRecord? ["name", "sqlTypeName", "isOutput", "hasDefault", "isReadonly"]
  return {
    name := ← r.required "name" Json.asText?
    sqlType := ← r.required "sqlTypeName" Json.asText?
    isOutput := ← r.required "isOutput" Json.asBool?
    hasDefault := ← r.required "hasDefault" Json.asBool?
    isReadonly := ← r.withDefault "isReadonly" false Json.asBool? }

end Parameter

structure StatementFlags where
  hasSelect : Bool := false
  hasInsert : Bool := false
  hasUpdate : Bool := false
  hasDelete : Bool := false
  hasMerge : Bool := false
  hasOpenJson : Bool := false
deriving DecidableEq, Repr, Inhabited

namespace StatementFlags

def fieldNames : List String :=
  ["containsSelect", "containsInsert", "containsUpdate", "containsDelete", "containsMerge",
   "containsOpenJson"]

def fields (f : StatementFlags) : List (String × Json) :=
  Json.field "containsSelect" (.bool f.hasSelect) ++
  Json.field "containsInsert" (.bool f.hasInsert) ++
  Json.field "containsUpdate" (.bool f.hasUpdate) ++
  Json.field "containsDelete" (.bool f.hasDelete) ++
  Json.field "containsMerge" (.bool f.hasMerge) ++
  Json.field "containsOpenJson" (.bool f.hasOpenJson)

def read? (r : Json.Record) : Option StatementFlags := do
  return {
    hasSelect := ← r.required "containsSelect" Json.asBool?
    hasInsert := ← r.required "containsInsert" Json.asBool?
    hasUpdate := ← r.required "containsUpdate" Json.asBool?
    hasDelete := ← r.required "containsDelete" Json.asBool?
    hasMerge := ← r.required "containsMerge" Json.asBool?
    hasOpenJson := ← r.required "containsOpenJson" Json.asBool? }

end StatementFlags

structure Content where
  statements : StatementFlags := {}
  resultSets : List ResultSet := []
  executed : List Descriptor := []
  /-- The definition was not read statement by statement but searched for keywords. -/
  usedFallback : Bool := false
  parseErrors : Nat := 0
  firstParseError : Option String := none
deriving DecidableEq, Inhabited

namespace Content

/-- The only result set is passed on from the only procedure that is executed. -/
def isPureWrapper (c : Content) : Bool :=
  match c.resultSets, c.executed with
  | [set], [_] => set.isForwarded
  | _, _ => false

/-- All columns of all result sets, parent before children. -/
def walkColumns (c : Content) : List ColumnFacts :=
  c.resultSets.flatMap fun s => Column.walkAll s.columns

def toJson (c : Content) : Json :=
  .object (c.statements.fields ++
    Json.field "resultSets" (Json.ofList ResultSet.toJson c.resultSets) ++
    Json.fieldItems "executedProcedures" c.executed Descriptor.toJson ++
    Json.fieldTrue "usedFallbackParser" c.usedFallback ++
    (if c.parseErrors = 0 then [] else Json.field "parseErrorCount" (.ofNat c.parseErrors)) ++
    Json.fieldSome "firstParseError" c.firstParseError .text)

def ofJson? (j : Json) : Option Content := do
  let r ← j.asRecord? (StatementFlags.fieldNames ++ ["resultSets", "executedProcedures",
    "usedFallbackParser", "parseErrorCount", "firstParseError"])
  return {
    statements := ← StatementFlags.read? r
    resultSets := ← r.required "resultSets" (Json.asList? ResultSet.ofJson?)
    executed := ← r.withDefault "executedProcedures" [] (Json.asList? Descriptor.ofJson?)
    usedFallback := ← r.withDefault "usedFallbackParser" false Json.asBool?
    parseErrors := ← r.withDefault "parseErrorCount" 0 (Json.asNatBelow? UInt64.size)
    firstParseError := ← r.maybe "firstParseError" Json.asText? }

end Content

end SqlSnapshot
