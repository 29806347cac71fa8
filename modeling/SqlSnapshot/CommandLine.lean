import SqlSnapshot.Arguments
import SqlSnapshot.Build.Run

/-!
# The command line

One run of the command: it reads the catalog from a file, builds, and prints the report.
-/

namespace SqlSnapshot

/-- What a run prints, and the code with which it ends. -/
structure CommandOutcome where
  code : Nat
  output : String := ""
  error : Option String := none
deriving DecidableEq, Repr, Inhabited

/-- Why there is no catalog to build from. -/
inductive CatalogProblem where
  | unreadable (path : String)
  | malformed (path : String)
  | noServer
  | noSource
deriving DecidableEq, Repr

namespace CatalogProblem

def message : CatalogProblem → String
  | .unreadable path => "failed to read catalog file " ++ path
  | .malformed path => "failed to parse catalog file " ++ path
  | .noServer => "failed to connect to SQL Server"
  | .noSource =>
    "no catalog source: pass --connection (or set SPOCR_CONNECTION_STRING) or --catalog-file"

end CatalogProblem

def Catalog.ofFile (d : Disk) (path : String) : Except CatalogProblem Catalog :=
  match (d.contentOf path).toOption.bind String.fromUTF8? with
  | none => .error (.unreadable path)
  | some text =>
    match (Json.parse? text).bind Catalog.ofJson? with
    | some c => .ok c
    | none => .error (.malformed path)

namespace CommandLine

def programName : String := "spocr-snapshot"

def version : String := "0.3.0"

def help : String :=
  String.intercalate "\n" [
    "Build JSON snapshots of SQL Server stored procedures", "",
    "Usage: spocr-snapshot [OPTIONS]", "", "Options:",
    "      --connection <CONNECTION>  ADO-style SQL Server connection string",
    "      --catalog-file <FILE>      Offline catalog export (JSON); " ++
      "takes precedence over --connection",
    "  -p, --project <DIR>            Project root [default: .]",
    "  -s, --schema <SCHEMA>          Schemas to include " ++
      "(repeatable or comma separated; default: all)",
    "      --procedure <FILTER>       Procedure filter: wildcards or exact schema.name tokens",
    "      --no-cache                 Ignore cached fingerprints and " ++
      "analyze every selected procedure",
    "      --max-dop <N>              Maximum analysis threads (0 = all cores) [default: 0]",
    "  -v, --verbose                  Enable debug logging",
    "  -f, --format <FORMAT>          Output format for the run summary [default: table] " ++
      "[possible values: table, json]",
    "  -q, --quiet                    Suppress the issue list in table output",
    "  -h, --help                     Print help",
    "  -V, --version                  Print version", ""]

/-- The catalog named by the arguments: the file goes before the server, which the environment may
name instead. -/
def openCatalog (d : Disk) (environment : Option String) (a : Arguments) :
    Except CatalogProblem Catalog :=
  match a.catalogFile, a.connection.or environment with
  | some path, _ => Catalog.ofFile d path
  | none, some _ => .error .noServer
  | none, none => .error .noSource

def printReport (a : Arguments) (r : Report) : String :=
  match a.outputFormat with
  | .json => r.toJson.pretty ++ "\n"
  | .table => r.table a.quiet

def refuse : UsageError → CommandOutcome
  | .displayHelp => { code := 0, output := help }
  | .displayVersion => { code := 0, output := programName ++ " " ++ version ++ "\n" }
  | _ => { code := 2 }

/-- Runs the command on a disk at a time, with the connection that the environment names. -/
def run (now : Timestamp) (environment : Option String) (d : Disk) (args : List String) :
    CommandOutcome × Disk :=
  match Arguments.parse args with
  | .error e => (refuse e, d)
  | .ok a =>
    match openCatalog d environment a with
    | .error e => ({ code := 66, error := some e.message }, d)
    | .ok catalog =>
      let (result, world) :=
        (Build.snapshots { catalog, now } a.options).run { disk := d, cache := {} }
      match result with
      | .ok report => ({ code := 0, output := printReport a report }, world.disk)
      | .error e =>
        ({ code := 1, error := some ("snapshot build failed: " ++ e.message) }, world.disk)

end CommandLine

end SqlSnapshot
