import SqlSnapshot.Json.Decode
import SqlSnapshot.Path

/-!
# Options of a build

Which procedures are built, and where the documents are kept: everything that a build writes lies
in the state directory of the project.
-/

namespace SqlSnapshot

/-- `schemas` lists the allowed schemas, all of them when it is empty; `procedures` is the text of
the name filter; `parallelism` bounds the threads, where 0 stands for all cores. -/
structure Options where
  projectRoot : String
  schemas : List String := []
  procedures : Option String := none
  noCache : Bool := false
  parallelism : Nat := 0
  verbose : Bool := false
deriving DecidableEq, Repr, Inhabited

namespace Options

def stateDirectory (o : Options) : String :=
  Path.join o.projectRoot ".spocr"

def cacheDirectory (o : Options) : String :=
  Path.join o.stateDirectory "cache"

def cacheName : String := "procedures.json"

def cacheFile (o : Options) : String :=
  Path.join o.cacheDirectory cacheName

def schemaDirectory (o : Options) : String :=
  Path.join o.stateDirectory "schema"

def toJson (o : Options) : Json :=
  .object (Json.field "projectRoot" (.text o.projectRoot) ++
    Json.field "schemas" (Json.ofList .text o.schemas) ++
    Json.fieldSome "procedureWildcard" o.procedures .text ++
    Json.field "noCache" (.bool o.noCache) ++
    Json.field "maxDegreeOfParallelism" (.ofNat o.parallelism) ++
    Json.field "verbose" (.bool o.verbose))

def ofJson? (j : Json) : Option Options := do
  let r ← j.asRecord? ["projectRoot", "schemas", "procedureWildcard", "noCache",
    "maxDegreeOfParallelism", "verbose"]
  return {
    projectRoot := ← r.required "projectRoot" Json.asText?
    schemas := ← r.withDefault "schemas" [] (Json.asList? Json.asText?)
    procedures := ← r.maybe "procedureWildcard" Json.asText?
    noCache := ← r.withDefault "noCache" false Json.asBool?
    parallelism := ← r.withDefault "maxDegreeOfParallelism" 0 (Json.asNatBelow? UInt64.size)
    verbose := ← r.withDefault "verbose" false Json.asBool? }

end Options

end SqlSnapshot
