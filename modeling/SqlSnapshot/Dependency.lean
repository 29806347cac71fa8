import SqlSnapshot.Descriptor
import SqlSnapshot.Timestamp

/-!
# Dependencies

What a procedure depends on: the kind of the object, its name and its modify date, if the database
keeps one.  The canonical form of a list of dependencies is sorted by kind, schema and name, and
of equal targets it holds the first.
-/

namespace SqlSnapshot

inductive DependencyKind where
  | procedure
  | function
  | view
  | table
  | tableType
  | scalarType
deriving DecidableEq, Repr, Inhabited

namespace DependencyKind

/-- The place of a kind in the canonical order. -/
def rank : DependencyKind → Nat
  | .procedure => 0
  | .function => 1
  | .view => 2
  | .table => 3
  | .tableType => 4
  | .scalarType => 5

def name : DependencyKind → String
  | .procedure => "Procedure"
  | .function => "Function"
  | .view => "View"
  | .table => "Table"
  | .tableType => "UserDefinedTableType"
  | .scalarType => "UserDefinedType"

def all : List DependencyKind :=
  [.procedure, .function, .view, .table, .tableType, .scalarType]

def toJson (k : DependencyKind) : Json := .text k.name

def ofJson? (j : Json) : Option DependencyKind :=
  j.asChoice? (all.map fun k => (k.name, k))

/-- The kind of an object with the given type code; other types are not tracked. -/
def ofObjectType? (code : String) : Option DependencyKind :=
  match Text.asciiUpper (Text.trimBlank code) with
  | "P" | "PC" | "X" => some .procedure
  | "FN" | "IF" | "TF" | "FS" | "FT" | "AF" => some .function
  | "V" => some .view
  | "U" => some .table
  | "TT" => some .tableType
  | _ => none

/-- The kind of a referenced object; `UT` stands for a scalar type, which is no object. -/
def ofReferencedType? (code : String) : Option DependencyKind :=
  if Text.sameAscii (Text.trimBlank code) "UT" then some .scalarType else ofObjectType? code

end DependencyKind

structure Dependency where
  kind : DependencyKind
  schema : String
  name : String
  lastModified : Option Timestamp
deriving DecidableEq, Repr, Inhabited

namespace Dependency

def key (d : Dependency) : String :=
  objectKey d.schema d.name

/-- The canonical order; modify dates do not count. -/
def compareTarget (a b : Dependency) : Ordering :=
  ((Ord.compare a.kind.rank b.kind.rank).then (compareNames a.schema b.schema)).then
    (compareNames a.name b.name)

def sameTarget (a b : Dependency) : Bool :=
  a.compareTarget b == .eq

def isAtMost (a b : Dependency) : Bool :=
  a.compareTarget b != .gt

def canonical (ds : List Dependency) : List Dependency :=
  sortedDistinctBy isAtMost sameTarget ds

def toJson (d : Dependency) : Json :=
  .object (Json.field "kind" d.kind.toJson ++ Json.field "schema" (.text d.schema) ++
    Json.field "name" (.text d.name) ++
    Json.fieldSome "lastModifiedUtc" d.lastModified Timestamp.toJson)

def ofJson? (j : Json) : Option Dependency := do
  let r ← j.asRecord? ["kind", "schema", "name", "lastModifiedUtc"]
  return {
    kind := ← r.required "kind" DependencyKind.ofJson?
    schema := ← r.required "schema" Json.asText?
    name := ← r.required "name" Json.asText?
    lastModified := ← r.maybe "lastModifiedUtc" Timestamp.ofJson? }

end Dependency

end SqlSnapshot
