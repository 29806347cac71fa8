import SqlSnapshot.Dependency
import SqlSnapshot.Issue

/-!
# Collections

A collection is the outcome of the first phase of a build: the procedures that were selected, each
with the decision on what to do with it.
-/

namespace SqlSnapshot

inductive Decision where
  /-- The definition is read again. -/
  | analyze
  /-- The stored snapshot still holds. -/
  | reuse
  /-- The procedure was asked for and is not in the catalog. -/
  | skip
deriving DecidableEq, Repr, Inhabited

namespace Decision

def name : Decision → String
  | .analyze => "analyze"
  | .reuse => "reuse"
  | .skip => "skip"

def ofJson? (j : Json) : Option Decision :=
  j.asChoice? ([Decision.analyze, .reuse, .skip].map fun d => (d.name, d))

end Decision

/-- One selected procedure; `dependencies` are as the catalog reports them now, and the cached
fields as they were when its snapshot was written. -/
structure CollectionItem where
  descriptor : Descriptor
  decision : Decision
  lastModified : Option Timestamp := none
  cachedHash : Option String := none
  cachedFile : Option String := none
  cachedDependencies : List Dependency := []
  dependencies : List Dependency := []
deriving DecidableEq, Repr, Inhabited

namespace CollectionItem

def skipped (d : Descriptor) : CollectionItem :=
  { descriptor := d, decision := .skip }

def toJson (i : CollectionItem) : Json :=
  .object (Json.field "descriptor" i.descriptor.toJson ++
    Json.field "decision" (.text i.decision.name) ++
    Json.fieldSome "lastModifiedUtc" i.lastModified Timestamp.toJson ++
    Json.fieldSome "cachedSnapshotHash" i.cachedHash .text ++
    Json.fieldSome "cachedSnapshotFile" i.cachedFile .text ++
    Json.field "cachedDependencies" (Json.ofList Dependency.toJson i.cachedDependencies) ++
    Json.field "dependencies" (Json.ofList Dependency.toJson i.dependencies))

def ofJson? (j : Json) : Option CollectionItem := do
  let r ← j.asRecord? ["descriptor", "decision", "lastModifiedUtc", "cachedSnapshotHash",
    "cachedSnapshotFile", "cachedDependencies", "dependencies"]
  return {
    descriptor := ← r.required "descriptor" Descriptor.ofJson?
    decision := ← r.required "decision" Decision.ofJson?
    lastModified := ← r.maybe "lastModifiedUtc" Timestamp.ofJson?
    cachedHash := ← r.maybe "cachedSnapshotHash" Json.asText?
    cachedFile := ← r.maybe "cachedSnapshotFile" Json.asText?
    cachedDependencies :=
      ← r.withDefault "cachedDependencies" [] (Json.asList? Dependency.ofJson?)
    dependencies := ← r.withDefault "dependencies" [] (Json.asList? Dependency.ofJson?) }

end CollectionItem

/-- `seedCount` counts the procedures that the filter itself selects. -/
structure Collection where
  items : List CollectionItem
  seedCount : Nat
  issues : List Issue
deriving DecidableEq, Repr, Inhabited

namespace Collection

def decided (c : Collection) (d : Decision) : List CollectionItem :=
  c.items.filter (·.decision == d)

def count (c : Collection) (d : Decision) : Nat :=
  (c.decided d).length

def find? (c : Collection) (d : Descriptor) : Option CollectionItem :=
  c.items.find? (·.descriptor.same d)

def selected (c : Collection) : List Descriptor :=
  (c.items.filter (·.decision != .skip)).map (·.descriptor)

def toJson (c : Collection) : Json :=
  .object (Json.field "items" (Json.ofList CollectionItem.toJson c.items) ++
    Json.field "seedCount" (.ofNat c.seedCount) ++
    Json.fieldItems "issues" c.issues Issue.toJson)

end Collection

end SqlSnapshot
