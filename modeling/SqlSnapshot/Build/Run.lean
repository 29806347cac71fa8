import SqlSnapshot.Build.Collect
import SqlSnapshot.Build.Write
import SqlSnapshot.Enrichment
import SqlSnapshot.Report

/-!
# Builds

A build collects procedures, records those that are reused, analyzes the others, and writes their
snapshots.  Only then is the cache written: a build that fails before leaves it as it was.
-/

namespace SqlSnapshot

/-- A procedure to be analyzed, with its definition where the catalog gives it out. -/
structure AnalysisInput where
  item : CollectionItem
  definition : Option String
deriving DecidableEq, Repr, Inhabited

namespace AnalysisInput

def analyze (i : AnalysisInput) : Analysis :=
  let a := match i.definition with
    | some definition => Analysis.ofDefinition i.item.descriptor definition
    | none => Analysis.withoutDefinition i.item.descriptor
  { a with lastModified := i.item.lastModified, dependencies := i.item.dependencies }

/-- Analyzes a batch, in its order.  Only an empty batch is done when the build is cancelled. -/
def analyzeAll (cancelled : Bool) (inputs : List AnalysisInput) :
    Except BuildError (List Analysis) :=
  if cancelled && !inputs.isEmpty then .error (.cancelled .analyze)
  else .ok (inputs.map analyze)

end AnalysisInput

/-- What the phases of a build came to. -/
structure CompletedBuild where
  found : Collection
  results : List Analysis
  written : WrittenSnapshots
  /-- The issues of the analyses and of their enrichment. -/
  resultIssues : List Issue
  flushed : FlushOutcome
  fingerprint : Option String

namespace CompletedBuild

def report (b : CompletedBuild) : Report :=
  let issues := b.found.issues ++ b.resultIssues
  { analyzed := b.found.count .analyze
    reused := b.found.count .reuse
    skipped := b.found.count .skip
    filesWritten := b.written.filesWritten
    filesUnchanged := b.written.filesUnchanged
    selected := b.found.selected.mergeSort Descriptor.isAtMost
    parseErrors := b.results.countP (·.content.usedFallback)
    warnings := Issue.count .warning issues
    fingerprint := b.fingerprint
    issues }

end CompletedBuild

namespace Build

/-- Loads the cache and forgets the tables of earlier builds. -/
def start (env : Conditions) (o : Options) : Build Unit := do
  let content ← contentOf env o.cacheFile
  modify fun w => { w with cache := Cache.load o content, tables := [] }

/-- Collects, reports the phase, and gives up if the build is cancelled by then. -/
def collectPhase (env : Conditions) (o : Options) : Build Collection := do
  let found ← collect env o
  let analyzed := found.count .analyze
  let reused := found.count .reuse
  let skipped := found.count .skip
  report env .collect found.items.length
    (some s!"{analyzed} analyze, {reused} reuse, {skipped} skip")
  checkCancelled .collect
  return found

def reusePhase (env : Conditions) (found : Collection) : Build Unit := do
  let reused := found.decided .reuse
  modify fun w => { w with cache := reused.foldl (fun c i => c.recordReuse env.now i) w.cache }
  report env .recordReuse reused.length none
  checkCancelled .recordReuse

def inputsOf (env : Conditions) : List CollectionItem → Build (List AnalysisInput)
  | [] => return []
  | i :: is => do
    checkCancelled .analyze
    let definition ← ask env (.procedureDefinition i.descriptor) fun c => c.definition? i.descriptor
    return ⟨i, definition⟩ :: (← inputsOf env is)

def analyzePhase (env : Conditions) (found : Collection) : Build (List Analysis) := do
  let inputs ← inputsOf env (found.decided .analyze)
  let results ← liftExcept (AnalysisInput.analyzeAll (← get).cancelled inputs)
  let fallbacks := results.countP (·.content.usedFallback)
  let wrappers := results.countP (·.content.isPureWrapper)
  report env .analyze results.length
    (some s!"{fallbacks} used fallback parser, {wrappers} pure wrappers")
  checkCancelled .analyze
  return results
where
  liftExcept {α : Type} : Except BuildError α → Build α
    | .ok a => return a
    | .error e => throw e

/-- Types the columns of every analysis, and collects the issues of both in order. -/
def enrichAll (env : Conditions) : List Analysis → Build (List Analysis × List Issue)
  | [] => return ([], [])
  | a :: as => do
    let (enriched, notes) ← a.enrich (tableColumns env)
    let (others, issues) ← enrichAll env as
    return (enriched :: others, a.issues ++ notes.issues ++ issues)

def writePhase (env : Conditions) (o : Options) (results : List Analysis) :
    Build (WrittenSnapshots × List Issue) := do
  let (enriched, issues) ← enrichAll env results
  let written ← writeSnapshots env o enriched
  report env .write enriched.length
    (some s!"{written.filesWritten} written, {written.filesUnchanged} unchanged")
  checkCancelled .write
  return (written, issues)

/-- Records what was written, and writes the cache. -/
def flushCache (env : Conditions) (written : WrittenSnapshots) : Build FlushOutcome := do
  let recorded := (written.updated ++ written.unchanged).foldl
    (fun c a => c.recordAnalysis env.now a) (← get).cache
  let (outcome, cache) ← recorded.flush (replaceFile env)
  modify fun w => { w with cache }
  return outcome

def selectPhase (env : Conditions) (o : Options) : Build Collection := do
  start env o
  collectPhase env o

def complete (env : Conditions) (o : Options) : Build CompletedBuild := do
  let found ← selectPhase env o
  reusePhase env found
  let results ← analyzePhase env found
  let (written, resultIssues) ← writePhase env o results
  let flushed ← flushCache env written
  let fingerprint ← fingerprint env o.schemaDirectory Snapshot.fingerprint
  return { found, results, written, resultIssues, flushed, fingerprint }

/-- Builds the snapshots of a project and reports on them. -/
def snapshots (env : Conditions) (o : Options) : Build Report := do
  return (← complete env o).report

end Build

end SqlSnapshot
