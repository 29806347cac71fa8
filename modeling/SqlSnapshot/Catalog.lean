import SqlSnapshot.Dependency
import SqlSnapshot.Table

/-!
# Catalogs

What the database says of its procedures, of the references between its objects, of the modify
dates of other objects, and of the columns of its tables.  All names are looked up without regard
to case.
-/

namespace SqlSnapshot

/-- One row of the list of procedures. -/
structure ProcedureRow where
  schema : String
  name : String
  objectId : Int
  modified : Timestamp
deriving DecidableEq, Repr, Inhabited

namespace ProcedureRow

def descriptor (p : ProcedureRow) : Descriptor := ⟨p.schema, p.name⟩

def key (p : ProcedureRow) : String := objectKey p.schema p.name

end ProcedureRow

/-- A procedure with its definition, which is missing when the database does not give it out. -/
structure CatalogProcedure where
  row : ProcedureRow
  definition : Option String
deriving DecidableEq, Repr, Inhabited

namespace CatalogProcedure

def toJson (p : CatalogProcedure) : Json :=
  .object (Json.field "schema" (.text p.row.schema) ++ Json.field "name" (.text p.row.name) ++
    Json.field "objectId" (.int p.row.objectId) ++
    Json.field "modifiedUtc" p.row.modified.toJson ++
    Json.fieldSome "definition" p.definition .text)

/-- A procedure is an object, not the array of its fields, and all of it has to be readable. -/
def ofJson? : Json → Option CatalogProcedure
  | .object members => do
    let r ← Json.asRecord? ["schema", "name", "objectId", "modifiedUtc", "definition"]
      (.object members)
    if Json.isReadable (.object members) then
      return {
        row := {
          schema := ← r.required "schema" Json.asText?
          name := ← r.required "name" Json.asText?
          objectId := ← r.required "objectId" Json.asInt32?
          modified := ← r.required "modifiedUtc" Timestamp.ofJson? }
        definition := ← r.maybe "definition" Json.asText? }
    else none
  | _ => none

end CatalogProcedure

/-- A reference from a procedure to an object, whose kind is missing where it is not known. -/
structure DependencyEdge where
  fromSchema : String
  fromName : String
  toSchema : String
  toName : String
  kind : Option DependencyKind
deriving DecidableEq, Repr, Inhabited

namespace DependencyEdge

def fromKey (e : DependencyEdge) : String := objectKey e.fromSchema e.fromName

def toKey (e : DependencyEdge) : String := objectKey e.toSchema e.toName

def toJson (e : DependencyEdge) : Json :=
  .object (Json.field "referencingSchema" (.text e.fromSchema) ++
    Json.field "referencingName" (.text e.fromName) ++
    Json.field "referencedSchema" (.text e.toSchema) ++
    Json.field "referencedName" (.text e.toName) ++
    Json.fieldSome "referencedKind" e.kind DependencyKind.toJson)

def ofJson? (j : Json) : Option DependencyEdge := do
  let r ← j.asRecord? ["referencingSchema", "referencingName", "referencedSchema",
    "referencedName", "referencedKind"]
  return {
    fromSchema := ← r.required "referencingSchema" Json.asText?
    fromName := ← r.required "referencingName" Json.asText?
    toSchema := ← r.required "referencedSchema" Json.asText?
    toName := ← r.required "referencedName" Json.asText?
    kind := ← r.maybe "referencedKind" DependencyKind.ofJson? }

end DependencyEdge

/-- An object that is no procedure, with its modify date if it has one. -/
structure CatalogObject where
  kind : DependencyKind
  schema : String
  name : String
  modified : Option Timestamp
deriving DecidableEq, Repr, Inhabited

namespace CatalogObject

def key (o : CatalogObject) : String := objectKey o.schema o.name

def toJson (o : CatalogObject) : Json :=
  .object (Json.field "kind" o.kind.toJson ++ Json.field "schema" (.text o.schema) ++
    Json.field "name" (.text o.name) ++ Json.fieldSome "modifiedUtc" o.modified Timestamp.toJson)

def ofJson? (j : Json) : Option CatalogObject := do
  let r ← j.asRecord? ["kind", "schema", "name", "modifiedUtc"]
  return {
    kind := ← r.required "kind" DependencyKind.ofJson?
    schema := ← r.required "schema" Json.asText?
    name := ← r.required "name" Json.asText?
    modified := ← r.maybe "modifiedUtc" Timestamp.ofJson? }

end CatalogObject

structure Catalog where
  procedures : List CatalogProcedure := []
  dependencies : List DependencyEdge := []
  objects : List CatalogObject := []
  tables : List Table := []
deriving DecidableEq, Repr, Inhabited

namespace Catalog

/-! ## Look-up -/

def rows (c : Catalog) : List ProcedureRow :=
  c.procedures.map (·.row)

def definition? (c : Catalog) (d : Descriptor) : Option String :=
  (c.procedures.find? fun p => p.row.descriptor.same d).bind (·.definition)

def lastModified? (c : Catalog) (kind : DependencyKind) (schema name : String) :
    Option Timestamp :=
  let key := objectKey schema name
  if kind = .procedure then (c.rows.find? fun p => p.key == key).map (·.modified)
  else (c.objects.find? fun o => o.kind == kind && o.key == key).bind (·.modified)

/-- The columns of a table; of several tables of one name the last counts. -/
def columns? (c : Catalog) (schema name : String) : Option (List TableColumn) :=
  let key := objectKey schema name
  (c.tables.findRev? fun t => objectKey t.schema t.name == key).map (·.columns)

/-! ## Change -/

def changeFirst {α : Type} (p : α → Bool) (change : α → α) : List α → Option (List α)
  | [] => none
  | a :: as => if p a then some (change a :: as) else (changeFirst p change as).map (a :: ·)

/-- Gives a procedure a new date and definition, or adds it; an added one has its place as its
identifier. -/
def putProcedure (c : Catalog) (schema name : String) (modified : Timestamp) (definition : String) :
    Catalog :=
  let key := objectKey schema name
  let change (p : CatalogProcedure) : CatalogProcedure :=
    { row := { p.row with modified }, definition := some definition }
  let added : CatalogProcedure :=
    { row := { schema, name, objectId := c.procedures.length + 1, modified }
      definition := some definition }
  { c with procedures :=
      (changeFirst (·.row.key == key) change c.procedures).getD (c.procedures ++ [added]) }

/-- Gives an object a new date, or adds it. -/
def putObject (c : Catalog) (kind : DependencyKind) (qualified : String)
    (modified : Option Timestamp) : Catalog :=
  let target := Descriptor.parse qualified
  let isTarget (o : CatalogObject) : Bool := o.kind == kind && o.key == target.key
  let added : CatalogObject := { kind, schema := target.schema, name := target.name, modified }
  let change (o : CatalogObject) : CatalogObject := { o with modified }
  { c with objects := (changeFirst isTarget change c.objects).getD (c.objects ++ [added]) }

def edge (referencing referenced : String) (kind : DependencyKind) : DependencyEdge :=
  let source := Descriptor.parse referencing
  let target := Descriptor.parse referenced
  { fromSchema := source.schema, fromName := source.name, toSchema := target.schema,
    toName := target.name, kind := some kind }

def addEdge (c : Catalog) (e : DependencyEdge) : Catalog :=
  { c with dependencies := c.dependencies ++ [e] }

def addTable (c : Catalog) (qualified : String) (columns : List TableColumn) : Catalog :=
  let target := Descriptor.parse qualified
  { c with tables := c.tables ++ [{ schema := target.schema, name := target.name, columns }] }

/-! ## Documents -/

def toJson (c : Catalog) : Json :=
  .object (Json.field "procedures" (Json.ofList CatalogProcedure.toJson c.procedures) ++
    Json.field "dependencies" (Json.ofList DependencyEdge.toJson c.dependencies) ++
    Json.field "objects" (Json.ofList CatalogObject.toJson c.objects) ++
    Json.field "tables" (Json.ofList Table.toJson c.tables))

def ofJson? (j : Json) : Option Catalog := do
  let r ← j.asRecord? ["procedures", "dependencies", "objects", "tables"]
  return {
    procedures := ← r.withDefault "procedures" [] (Json.asList? CatalogProcedure.ofJson?)
    dependencies := ← r.withDefault "dependencies" [] (Json.asList? DependencyEdge.ofJson?)
    objects := ← r.withDefault "objects" [] (Json.asList? CatalogObject.ofJson?)
    tables := ← r.withDefault "tables" [] (Json.asList? Table.ofJson?) }

end Catalog

end SqlSnapshot
