import SqlSnapshot.Json.Decode

/-!
# Issues

Findings that do not stop a build: they are collected beside its results.
-/

namespace SqlSnapshot

inductive Severity where
  | error
  | warning
  | info
deriving DecidableEq, Repr, Inhabited

namespace Severity

def name : Severity → String
  | .error => "error"
  | .warning => "warning"
  | .info => "info"

def ofJson? (j : Json) : Option Severity :=
  j.asChoice? ([Severity.error, .warning, .info].map fun s => (s.name, s))

end Severity

/-- `columnPath` is the dotted path of a result column within its result set. -/
structure Issue where
  severity : Severity
  code : String
  message : String
  procedure : Option String
  columnPath : Option String
deriving DecidableEq, Repr, Inhabited

namespace Issue

def warning (code message : String) : Issue := ⟨.warning, code, message, none, none⟩

def info (code message : String) : Issue := ⟨.info, code, message, none, none⟩

def about (issue : Issue) (procedure : String) : Issue :=
  { issue with procedure := some procedure }

def atColumn (issue : Issue) (path : String) : Issue :=
  { issue with columnPath := some path }

/-- Names the procedure of an issue that names none yet. -/
def withDefaultProcedure (issue : Issue) (procedure : String) : Issue :=
  { issue with procedure := some (issue.procedure.getD procedure) }

def count (severity : Severity) (issues : List Issue) : Nat :=
  issues.countP (·.severity == severity)

def toJson (issue : Issue) : Json :=
  .object (Json.field "severity" (.text issue.severity.name) ++
    Json.field "code" (.text issue.code) ++ Json.field "message" (.text issue.message) ++
    Json.fieldSome "procedure" issue.procedure .text ++
    Json.fieldSome "columnPath" issue.columnPath .text)

def ofJson? (j : Json) : Option Issue := do
  let r ← j.asRecord? ["severity", "code", "message", "procedure", "columnPath"]
  return {
    severity := ← r.required "severity" Severity.ofJson?
    code := ← r.required "code" Json.asText?
    message := ← r.required "message" Json.asText?
    procedure := ← r.maybe "procedure" Json.asText?
    columnPath := ← r.maybe "columnPath" Json.asText? }

/-! ## Kinds of findings -/

def parseErrorCode : String := "PARSE_ERROR"

/-- The definition could not be read statement by statement. -/
def parseError (message : String) : Issue :=
  warning parseErrorCode message

def procedureNotFound (procedure : String) : Issue :=
  (warning "PROCEDURE_NOT_FOUND"
    s!"Procedure {procedure} was requested but does not exist").about procedure

/-- A requested procedure lies outside the schemas of the build. -/
def procedureFilteredBySchema (procedure : String) : Issue :=
  (warning "PROCEDURE_FILTERED_BY_SCHEMA"
    s!"Procedure {procedure} was requested but its schema is not in the schema list").about
      procedure

def definitionUnavailable (procedure : String) : Issue :=
  (warning "DEFINITION_UNAVAILABLE"
    "Procedure definition is not available (encrypted or missing permissions)").about procedure

def unknownTable (schema table procedure path : String) : Issue :=
  ((warning "UNKNOWN_TABLE"
    s!"Table {schema}.{table} referenced by column '{path}' was not found").about
      procedure).atColumn path

def unknownTableColumn (schema table column procedure path : String) : Issue :=
  ((warning "UNKNOWN_TABLE_COLUMN"
    s!"Column {column} does not exist on {schema}.{table}").about procedure).atColumn path

def unresolvedColumnType (procedure path : String) : Issue :=
  ((warning "UNRESOLVED_COLUMN_TYPE"
    s!"No type could be inferred for column '{path}'").about procedure).atColumn path

/-- A select list holds a wildcard, whose columns are left out. -/
def wildcardProjection : Issue :=
  info "WILDCARD_PROJECTION"
    "Wildcard projection cannot be expanded without table metadata; columns omitted"

/-- A statement runs text that is built at run time. -/
def dynamicSql : Issue :=
  info "DYNAMIC_SQL" "Dynamic SQL is executed; its result sets are not analyzed"

end Issue

end SqlSnapshot
