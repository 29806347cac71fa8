import SqlSnapshot.Descriptor
import SqlSnapshot.Issue
import SqlSnapshot.Json.Printer

/-!
# Reports

The report of a build is printed as a document or as a table for a reader.
-/

namespace SqlSnapshot

/-- The outcome of a build; `selected` is sorted, and `fingerprint` covers all snapshots. -/
structure Report where
  analyzed : Nat := 0
  reused : Nat := 0
  skipped : Nat := 0
  filesWritten : Nat := 0
  filesUnchanged : Nat := 0
  selected : List Descriptor := []
  parseErrors : Nat := 0
  warnings : Nat := 0
  fingerprint : Option String := none
  issues : List Issue := []
deriving DecidableEq, Repr, Inhabited

namespace Report

def toJson (r : Report) : Json :=
  .object (Json.field "proceduresAnalyzed" (.ofNat r.analyzed) ++
    Json.field "proceduresReused" (.ofNat r.reused) ++
    Json.field "proceduresSkipped" (.ofNat r.skipped) ++
    Json.field "filesWritten" (.ofNat r.filesWritten) ++
    Json.field "filesUnchanged" (.ofNat r.filesUnchanged) ++
    Json.field "proceduresSelected" (Json.ofList Descriptor.toJson r.selected) ++
    Json.field "parseErrors" (.ofNat r.parseErrors) ++
    Json.field "warnings" (.ofNat r.warnings) ++
    Json.fieldSome "snapshotFingerprint" r.fingerprint .text ++
    Json.fieldItems "issues" r.issues Issue.toJson)

def ofJson? (j : Json) : Option Report := do
  let r ← j.asRecord? ["proceduresAnalyzed", "proceduresReused", "proceduresSkipped",
    "filesWritten", "filesUnchanged", "proceduresSelected", "parseErrors", "warnings",
    "snapshotFingerprint", "issues"]
  return {
    analyzed := ← r.required "proceduresAnalyzed" (Json.asNatBelow? UInt64.size)
    reused := ← r.required "proceduresReused" (Json.asNatBelow? UInt64.size)
    skipped := ← r.required "proceduresSkipped" (Json.asNatBelow? UInt64.size)
    filesWritten := ← r.required "filesWritten" (Json.asNatBelow? UInt64.size)
    filesUnchanged := ← r.required "filesUnchanged" (Json.asNatBelow? UInt64.size)
    selected := ← r.required "proceduresSelected" (Json.asList? Descriptor.ofJson?)
    parseErrors := ← r.required "parseErrors" (Json.asNatBelow? UInt64.size)
    warnings := ← r.required "warnings" (Json.asNatBelow? UInt64.size)
    fingerprint := ← r.maybe "snapshotFingerprint" Json.asText?
    issues := ← r.withDefault "issues" [] (Json.asList? Issue.ofJson?) }

/-! ## The table -/

def heading : List String :=
  ["SpocR Snapshot Build", String.ofList (List.replicate 50 '═')]

def summary (r : Report) : List String :=
  [s!"Procedures: {r.analyzed} analyzed | {r.reused} reused | {r.skipped} skipped",
   s!"Snapshots:  {r.filesWritten} written | {r.filesUnchanged} unchanged",
   s!"Parse errors: {r.parseErrors} | Warnings: {r.warnings}"] ++
  (match r.fingerprint with
   | some fingerprint => [s!"Fingerprint: {fingerprint}"]
   | none => []) ++ [""]

def severityMark : Severity → String
  | .error => "ERROR"
  | .warning => "WARN"
  | .info => "INFO"

def issueLine (i : Issue) : String :=
  let subject := match i.procedure with
    | some procedure => s!" {procedure}:"
    | none => ""
  let mark := severityMark i.severity
  s!"  [{mark}]{subject} {i.message} ({i.code})"

/-- A count with its unit, left out when it is zero. -/
def countPart (n : Nat) (unit : String) : List String :=
  if n = 0 then [] else [s!"{n} {unit}"]

def issueLines (issues : List Issue) : List String :=
  if issues.isEmpty then []
  else
    let parts := String.intercalate ", "
      (countPart (Issue.count .error issues) "errors" ++
        countPart (Issue.count .warning issues) "warnings" ++
        countPart (Issue.count .info issues) "info")
    s!"Issues ({parts}):" :: issues.map issueLine

/-- The report for a reader; without its issues when `quiet`. -/
def table (r : Report) (quiet : Bool) : String :=
  String.join
    ((heading ++ r.summary ++ (if quiet then [] else issueLines r.issues)).map (· ++ "\n"))

end Report

end SqlSnapshot
