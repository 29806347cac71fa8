import SqlSnapshot.Definition.Analysis
import SqlSnapshot.Table

/-!
# Column types

The analysis of a definition says how a column is produced; enrichment says of which type it is.  A
cast has its target type, a column that is bound to a table has the type of the table's column, and
a JSON document has the payload type, which is also the type of a value inside a document that
nothing else types.  What else cannot be typed is an issue.

Only the look-up of a table is an effect: `settle` decides everything about one column from the
answer to its look-up.
-/

namespace SqlSnapshot

/-- Columns that were typed from a table or a cast, those of them that had no type, and those that
had the type of a JSON payload before. -/
structure EnrichmentCounts where
  resolved : Nat := 0
  newConcrete : Nat := 0
  upgrades : Nat := 0
deriving DecidableEq, Repr, Inhabited

/-- What enrichment reports beside the columns. -/
structure EnrichmentNotes where
  changed : Bool := false
  counts : EnrichmentCounts := {}
  issues : List Issue := []
deriving DecidableEq, Repr, Inhabited

namespace EnrichmentNotes

def append (a b : EnrichmentNotes) : EnrichmentNotes where
  changed := a.changed || b.changed
  counts := {
    resolved := a.counts.resolved + b.counts.resolved
    newConcrete := a.counts.newConcrete + b.counts.newConcrete
    upgrades := a.counts.upgrades + b.counts.upgrades }
  issues := a.issues ++ b.issues

instance : Append EnrichmentNotes := ⟨append⟩

def ofIssue (issue : Issue) : EnrichmentNotes :=
  { issues := [issue] }

def fields (n : EnrichmentNotes) : List (String × Json) :=
  Json.field "changed" (.bool n.changed) ++
  Json.field "stats" (.object (Json.field "resolved" (.ofNat n.counts.resolved) ++
    Json.field "newConcrete" (.ofNat n.counts.newConcrete) ++
    Json.field "upgrades" (.ofNat n.counts.upgrades))) ++
  Json.field "issues" (Json.ofList Issue.toJson n.issues)

end EnrichmentNotes

/-- The table column to which a result column is bound. -/
structure TableBinding where
  schema : String
  table : String
  column : String
deriving DecidableEq, Repr

namespace ColumnFacts

/-- The table column that types a result column: neither a cast nor a JSON document is typed by
the table that it comes from. -/
def tableBinding? (f : ColumnFacts) : Option TableBinding :=
  if f.isCast || f.isJsonContainer then none
  else do return ⟨← f.sourceSchema, ← f.sourceTable, ← f.sourceColumn⟩

def hasType (f : ColumnFacts) (sqlType : String) (length : Option Int) (nullable : Bool) : Bool :=
  f.sqlType == some sqlType && f.maxLength == length && f.isNullable == some nullable

def withType (f : ColumnFacts) (sqlType : String) (length : Option Int) (nullable : Bool) :
    ColumnFacts :=
  { f with sqlType := some sqlType, maxLength := length, isNullable := some nullable }

end ColumnFacts

namespace Enrichment

/-- A rule that settles part of a column's type. -/
abbrev Rule := ColumnFacts → ColumnFacts × EnrichmentNotes

def Rule.andThen (first second : Rule) : Rule := fun f =>
  let (g, m) := first f
  let (h, n) := second g
  (h, m ++ n)

/-- Sets type, length and nullability, and notes a change. -/
def setType (sqlType : String) (length : Option Int) (nullable : Bool) : Rule := fun f =>
  if f.hasType sqlType length nullable then (f, {})
  else (f.withType sqlType length nullable, { changed := true })

/-- The type of a JSON payload: of any length, and possibly missing. -/
def setPayload : Rule :=
  setType jsonPayloadType (some (-1)) true

/-- A JSON document without a type has the payload type. -/
def documentRule : Rule := fun f =>
  if f.isJsonContainer && f.sqlType.isNone then setPayload f else (f, {})

/-- A column from a side of an outer join that may lack rows may be missing. -/
def outerJoinRule : Rule := fun f =>
  if f.forcedNullable == some true && f.isNullable != some true then
    ({ f with isNullable := some true }, { changed := true })
  else (f, {})

def castRule : Rule := fun f =>
  match f.castTarget with
  | none => (f, {})
  | some target =>
    let (g, notes) := setType target (typeLength? target) (f.isNullable.getD false) f
    (g, { notes with counts := { resolved := if notes.changed then 1 else 0 } })

/-- A column bound to a table has the type of the table's column, whatever type it had. -/
def tableRule (procedure path : String) (binding : TableBinding)
    (columns : Option (List TableColumn)) : Rule := fun f =>
  match columns with
  | none => (f, .ofIssue (.unknownTable binding.schema binding.table procedure path))
  | some columns =>
    match Table.column? columns binding.column with
    | none => (f, .ofIssue
        (.unknownTableColumn binding.schema binding.table binding.column procedure path))
    | some column =>
      let sqlType := column.sqlTypeName
      let nullable := column.isNullable || f.forcedNullable == some true
      let (g, notes) := setType sqlType column.charLength nullable f
      if notes.changed then
        (g, { notes with counts := {
          resolved := 1
          newConcrete := if f.sqlType.isNone then 1 else 0
          upgrades := if f.sqlType == some jsonPayloadType && sqlType != jsonPayloadType then 1
            else 0 } })
      else (g, notes)

/-- A column that nothing types has the payload type inside a JSON document, and is an issue
elsewhere. -/
def remainderRule (procedure path : String) (inJson : Bool) : Rule := fun f =>
  if !f.isJsonContainer && f.sqlType.isNone && !f.hasSourceBinding then
    if inJson then setPayload f else (f, .ofIssue (.unresolvedColumnType procedure path))
  else (f, {})

/-- The rule for what types a column: its cast or its table. -/
def evidenceRule (procedure path : String) (columns : Option (List TableColumn)) : Rule := fun f =>
  if f.isCast then castRule f
  else
    match f.tableBinding? with
    | none => (f, {})
    | some binding => tableRule procedure path binding columns f

/-- Everything about one column, given the columns of the table to which it is bound. -/
def settle (procedure path : String) (inJson : Bool) (columns : Option (List TableColumn)) : Rule :=
  ((Rule.andThen documentRule outerJoinRule).andThen (evidenceRule procedure path columns)).andThen
    (remainderRule procedure path inJson)

variable {m : Type → Type} [Monad m]

/-- The columns of a table; none if the table is not known. -/
abbrev Lookup (m : Type → Type) := String → String → m (Option (List TableColumn))

def enrichFacts (lookup : Lookup m) (procedure path : String) (inJson : Bool) (f : ColumnFacts) :
    m (ColumnFacts × EnrichmentNotes) :=
  match f.tableBinding? with
  | none => pure (settle procedure path inJson none f)
  | some binding => do
    let columns ← lookup binding.schema binding.table
    pure (settle procedure path inJson columns f)

mutual

/-- Enriches a column and then, inside its document, the columns below it. -/
def enrichColumn (lookup : Lookup m) (procedure path : String) (inJson : Bool) :
    Column → m (Column × EnrichmentNotes)
  | .node facts children => do
    let (facts, notes) ← enrichFacts lookup procedure path inJson facts
    let (children, below) ← enrichColumns lookup procedure (path ++ ".") true children
    pure (.node facts children, notes ++ below)

/-- Enriches the columns in order; `parent` is the part of their paths before their names. -/
def enrichColumns (lookup : Lookup m) (procedure parent : String) (inJson : Bool) :
    List Column → m (List Column × EnrichmentNotes)
  | [] => pure ([], {})
  | c :: cs => do
    let (c, notes) ← enrichColumn lookup procedure (parent ++ c.facts.name) inJson c
    let (cs, others) ← enrichColumns lookup procedure parent inJson cs
    pure (c :: cs, notes ++ others)

end

def enrichSets (lookup : Lookup m) (procedure : String) :
    List ResultSet → m (List ResultSet × EnrichmentNotes)
  | [] => pure ([], {})
  | s :: ss => do
    let (columns, notes) ← enrichColumns lookup procedure "" s.returnsJson s.columns
    let (ss, others) ← enrichSets lookup procedure ss
    pure ({ s with columns } :: ss, notes ++ others)

end Enrichment

/-- The analysis with the types of its columns, found with the given look-up of tables. -/
def Analysis.enrich {m : Type → Type} [Monad m] (lookup : Enrichment.Lookup m) (a : Analysis) :
    m (Analysis × EnrichmentNotes) := do
  let (resultSets, notes) ←
    Enrichment.enrichSets lookup a.descriptor.display a.content.resultSets
  pure ({ a with content := { a.content with resultSets } }, notes)

end SqlSnapshot
