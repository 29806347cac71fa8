import SqlSnapshot.Definition.Analysis
import SqlSnapshot.Digest.Sha256
import SqlSnapshot.Json.Printer
import SqlSnapshot.Json.Reader

/-!
# Snapshots

A snapshot is the document that is kept of one procedure.  It holds no dates, so that a procedure
that was touched but not changed keeps its document byte for byte.  `canonicalText` is the one
spelling of a document, and `read?` gives back the document.
-/

namespace SqlSnapshot

/-- What a snapshot keeps of a dependency: its target without a date. -/
structure DependencyTarget where
  kind : DependencyKind
  schema : String
  name : String
deriving DecidableEq, Repr, Inhabited

namespace DependencyTarget

def ofDependency (d : Dependency) : DependencyTarget := ⟨d.kind, d.schema, d.name⟩

def toJson (t : DependencyTarget) : Json :=
  .object (Json.field "kind" t.kind.toJson ++ Json.field "schema" (.text t.schema) ++
    Json.field "name" (.text t.name))

def ofJson? (j : Json) : Option DependencyTarget := do
  let r ← j.asRecord? ["kind", "schema", "name"]
  return {
    kind := ← r.required "kind" DependencyKind.ofJson?
    schema := ← r.required "schema" Json.asText?
    name := ← r.required "name" Json.asText? }

end DependencyTarget

/-- What is said of a definition that could not be read statement by statement. -/
structure ParserReport where
  usedFallback : Bool
  errorCount : Nat
  firstError : Option String
deriving DecidableEq, Repr, Inhabited

namespace ParserReport

def ofContent? (c : Content) : Option ParserReport :=
  if c.usedFallback then some ⟨true, c.parseErrors, c.firstParseError⟩ else none

def toJson (p : ParserReport) : Json :=
  .object (Json.field "usedFallbackParser" (.bool p.usedFallback) ++
    Json.field "parseErrorCount" (.ofNat p.errorCount) ++
    Json.fieldSome "firstParseError" p.firstError .text)

def ofJson? (j : Json) : Option ParserReport := do
  let r ← j.asRecord? ["usedFallbackParser", "parseErrorCount", "firstParseError"]
  return {
    usedFallback := ← r.required "usedFallbackParser" Json.asBool?
    errorCount := ← r.required "parseErrorCount" (Json.asNatBelow? UInt64.size)
    firstError := ← r.maybe "firstParseError" Json.asText? }

end ParserReport

structure Snapshot where
  formatVersion : Nat
  schema : String
  name : String
  parameters : List Parameter
  resultSets : List ResultSet
  executed : List Descriptor
  dependencies : List DependencyTarget
  statements : StatementFlags
  isPureWrapper : Bool
  parser : Option ParserReport
deriving DecidableEq, Inhabited

namespace Snapshot

def currentVersion : Nat := 1

def ofAnalysis (a : Analysis) : Snapshot where
  formatVersion := currentVersion
  schema := a.descriptor.schema
  name := a.descriptor.name
  parameters := a.parameters
  resultSets := a.content.resultSets
  executed := a.content.executed
  dependencies := (Dependency.canonical a.dependencies).map .ofDependency
  statements := a.content.statements
  isPureWrapper := a.content.isPureWrapper
  parser := ParserReport.ofContent? a.content

def statementsToJson (s : Snapshot) : Json :=
  .object (s.statements.fields ++ Json.fieldTrue "isPureWrapper" s.isPureWrapper)

def toJson (s : Snapshot) : Json :=
  .object (Json.field "formatVersion" (.ofNat s.formatVersion) ++
    Json.field "schema" (.text s.schema) ++ Json.field "name" (.text s.name) ++
    Json.field "parameters" (Json.ofList Parameter.toJson s.parameters) ++
    Json.field "resultSets" (Json.ofList ResultSet.toJson s.resultSets) ++
    Json.fieldItems "executedProcedures" s.executed Descriptor.toJson ++
    Json.fieldItems "dependencies" s.dependencies DependencyTarget.toJson ++
    Json.field "statements" s.statementsToJson ++
    Json.fieldSome "parser" s.parser ParserReport.toJson)

def readStatements? (j : Json) : Option (StatementFlags × Bool) := do
  let r ← j.asRecord? (StatementFlags.fieldNames ++ ["isPureWrapper"])
  return (← StatementFlags.read? r, ← r.withDefault "isPureWrapper" false Json.asBool?)

def ofJson? (j : Json) : Option Snapshot := do
  let r ← j.asRecord? ["formatVersion", "schema", "name", "parameters", "resultSets",
    "executedProcedures", "dependencies", "statements", "parser"]
  let (statements, isPureWrapper) ← r.required "statements" readStatements?
  return {
    formatVersion := ← r.required "formatVersion" (Json.asNatBelow? UInt32.size)
    schema := ← r.required "schema" Json.asText?
    name := ← r.required "name" Json.asText?
    parameters := ← r.required "parameters" (Json.asList? Parameter.ofJson?)
    resultSets := ← r.required "resultSets" (Json.asList? ResultSet.ofJson?)
    executed := ← r.withDefault "executedProcedures" [] (Json.asList? Descriptor.ofJson?)
    dependencies := ← r.withDefault "dependencies" [] (Json.asList? DependencyTarget.ofJson?)
    statements
    isPureWrapper
    parser := ← r.maybe "parser" ParserReport.ofJson? }

/-- The document as it is stored: indented, with a line feed at the end. -/
def canonicalText (s : Snapshot) : String :=
  s.toJson.pretty ++ "\n"

def canonicalBytes (s : Snapshot) : ByteArray :=
  s.canonicalText.toUTF8

def read? (text : String) : Option Snapshot :=
  Json.parse? text >>= ofJson?

/-! ## File names -/

/-- The control characters of Unicode, category Cc. -/
def isControl (c : Char) : Bool :=
  c.toNat < 0x20 || (0x7F ≤ c.toNat && c.toNat < 0xA0)

/-- The characters that some platform does not take in a file name. -/
def isUnsafe (c : Char) : Bool :=
  ['/', '\\', ':', '*', '?', '\x22', '<', '>', '|'].contains c || isControl c

def sanitize (s : String) : List Char :=
  s.toList.map fun c => if isUnsafe c then '_' else c

/-- The name of the file that holds the snapshot of a procedure. -/
def fileName (d : Descriptor) : String :=
  String.ofList (sanitize d.schema ++ '.' :: sanitize d.name ++ ".json".toList)

example : fileName ⟨"sales", "Order/Line"⟩ = "sales.Order_Line.json" := by decide +kernel

/-! ## Fingerprints of directories -/

/-- What the fingerprint of a directory is taken of: name and content of each file, in the order of
their names, each followed by a zero byte. -/
def fingerprintStream (files : List (String × ByteArray)) : List UInt8 :=
  (files.mergeSort fun a b => decide (a.1 ≤ b.1)).flatMap fun f =>
    f.1.toUTF8.data.toList ++ 0 :: (f.2.data.toList ++ [0])

def fingerprint (files : List (String × ByteArray)) : String :=
  Sha256.hex ⟨(fingerprintStream files).toArray⟩

end Snapshot

end SqlSnapshot
