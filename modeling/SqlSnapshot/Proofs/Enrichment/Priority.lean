import SqlSnapshot.Proofs.Enrichment.Repeated
import SqlSnapshot.Proofs.Enrichment.Replies

/-!
# What types a column

The rules of enrichment run one after another, and a later one may override an earlier one.  What
they come to is an order of priority: the target of a cast, the column of the table, the type that
the column has, the payload type of JSON.  The order is the same for every column at every depth.
-/

namespace SqlSnapshot

/-! ## Order of priority -/

inductive TypeSource where
  | cast (target : String)
  | table (column : TableColumn)
  /-- The type that the column has. -/
  | own
  /-- The type of a JSON payload. -/
  | payload
  | missing
deriving DecidableEq, Repr

def ColumnFacts.targetOfCast? (f : ColumnFacts) : Option String :=
  if f.isCast then f.castTarget else none

/-- The first that there is; `column?` is the table column to which the column is bound. -/
def typeSource (column? : Option TableColumn) (inJson : Bool) (f : ColumnFacts) : TypeSource :=
  match f.targetOfCast?, column? with
  | some target, _ => .cast target
  | none, some column => .table column
  | none, none =>
    if f.sqlType.isSome then .own
    else if f.isJsonContainer || (!f.hasSourceBinding && inJson) then .payload
    else .missing

namespace ColumnFacts

/-- The facts of a column that keeps its type; the side of an outer join may lack the row. -/
def keepingType (f : ColumnFacts) : ColumnFacts :=
  { f with isNullable := if f.forcedNullable = some true then some true else f.isNullable }

/-- The facts with the type from its source. -/
def withTypeFrom (f : ColumnFacts) : TypeSource → ColumnFacts
  | .cast target =>
    f.withType target (typeLength? target) (f.forcedNullable == some true ||
      (f.isJsonContainer && f.sqlType.isNone) || f.isNullable.getD false)
  | .table column =>
    f.withType column.sqlTypeName column.charLength
      (column.isNullable || f.forcedNullable == some true)
  | .own => f.keepingType
  | .payload => f.withType jsonPayloadType (some (-1)) true
  | .missing => f.keepingType

/-- The column of the table to which the column is bound. -/
def tableColumn? (columns? : String → String → Option (List TableColumn)) (f : ColumnFacts) :
    Option TableColumn := do
  let binding ← f.tableBinding?
  Table.column? (← columns? binding.schema binding.table) binding.column

def resolved (columns? : String → String → Option (List TableColumn)) (inJson : Bool)
    (f : ColumnFacts) : ColumnFacts :=
  f.withTypeFrom (typeSource (f.tableColumn? columns?) inJson f)

end ColumnFacts

mutual

/-- The column and all below it with their types; what is nested is in JSON. -/
def Column.resolved (columns? : String → String → Option (List TableColumn)) (inJson : Bool) :
    Column → Column
  | .node facts children =>
    .node (facts.resolved columns? inJson) (resolvedAll columns? true children)

def Column.resolvedAll (columns? : String → String → Option (List TableColumn)) (inJson : Bool) :
    List Column → List Column
  | [] => []
  | c :: cs => c.resolved columns? inJson :: resolvedAll columns? inJson cs

end

def ResultSet.resolved (columns? : String → String → Option (List TableColumn)) (s : ResultSet) :
    ResultSet :=
  { s with columns := Column.resolvedAll columns? s.returnsJson s.columns }

def Analysis.resolved (columns? : String → String → Option (List TableColumn)) (a : Analysis) :
    Analysis :=
  { a with content := { a.content with
      resultSets := a.content.resultSets.map (·.resolved columns?) } }

namespace Enrichment

open ColumnFacts

variable {f g : ColumnFacts} {procedure path : String} {inJson : Bool}
  {columns : Option (List TableColumn)}

/-! ## One column -/

theorem withType_of_refines (h : f.Refines g) (sqlType : String) (length : Option Int)
    (nullable : Bool) :
    g.withType sqlType length nullable = f.withType sqlType length nullable := by
  rw [h.eq]
  rfl

theorem fst_outerJoinRule (f : ColumnFacts) : (outerJoinRule f).1 = f.keepingType := by
  unfold outerJoinRule keepingType
  split
  · rename_i hmissing
    rw [Bool.and_eq_true, beq_iff_eq] at hmissing
    rw [if_pos hmissing.1]
  · rename_i hnot
    split
    · rename_i hforced
      have hnullable : f.isNullable = some true := by simpa [hforced] using hnot
      exact congrArg (fun nullable => { f with isNullable := nullable }) hnullable
    · rfl

/-- What a column is before its cast or its table types it. -/
theorem fst_outerJoinRule_documentRule (f : ColumnFacts) :
    (outerJoinRule (documentRule f).1).1 =
      if f.isJsonContainer && f.sqlType.isNone then f.withTypeFrom .payload else f.keepingType := by
  rw [fst_outerJoinRule]
  unfold documentRule
  split
  · -- a payload is nullable, which leaves the outer join nothing to change
    rw [setPayload, setType_eq]
    unfold keepingType
    split <;> rfl
  · rfl

theorem refines_outerJoinRule_documentRule (f : ColumnFacts) :
    f.Refines (outerJoinRule (documentRule f).1).1 :=
  (isRefining_documentRule f).trans (isRefining_outerJoinRule _)

theorem Rule.fst_andThen (r s : Rule) (f : ColumnFacts) :
    (r.andThen s f).1 = (s (r f).1).1 := rfl

theorem fst_settle_eq (f : ColumnFacts) :
    (settle procedure path inJson columns f).1 =
      (remainderRule procedure path inJson
        (evidenceRule procedure path columns (outerJoinRule (documentRule f).1).1).1).1 := by
  rw [settle, Rule.fst_andThen, Rule.fst_andThen, Rule.fst_andThen]

theorem fst_settle_of_cast
    {target : String} (hcast : f.isCast = true) (htarget : f.castTarget = some target) :
    (settle procedure path inJson columns f).1 = f.withTypeFrom (.cast target) := by
  have hrefines := refines_outerJoinRule_documentRule f
  have hnullable : (outerJoinRule (documentRule f).1).1.isNullable.getD false =
      (f.forcedNullable == some true || (f.isJsonContainer && f.sqlType.isNone) ||
        f.isNullable.getD false) := by
    rw [fst_outerJoinRule_documentRule]
    cases hpayload : f.isJsonContainer && f.sqlType.isNone with
    | true => simp [withTypeFrom, withType]
    | false => by_cases hforced : f.forcedNullable = some true <;> simp [keepingType, hforced]
  rw [fst_settle_eq, evidenceRule_of_isCast (hrefines.isCast_eq.trans hcast),
    fst_castRule_some (hrefines.castTarget_eq.trans htarget), withType_of_refines hrefines,
    hnullable, remainderRule_of_not_isBare (by simp [isBare, withType])]
  rfl

theorem fst_settle_of_table
    {column : TableColumn} (h : f.tableBinding?.bind (boundColumn? columns) = some column) :
    (settle procedure path inJson columns f).1 = f.withTypeFrom (.table column) := by
  have hrefines := refines_outerJoinRule_documentRule f
  obtain ⟨binding, hbinding, hcolumn⟩ := Option.bind_eq_some_iff.mp h
  rw [fst_settle_eq, evidenceRule_of_bound (hrefines.tableBinding?_eq.trans hbinding),
    (tableRule_of_found procedure path hcolumn _).1, typed, withType_of_refines hrefines,
    hrefines.forcedNullable_eq, remainderRule_of_not_isBare (by simp [isBare, withType])]
  rfl

theorem fst_evidenceRule_of_none
    (hcast : f.targetOfCast? = none)
    (hcolumn : f.tableBinding?.bind (boundColumn? columns) = none) :
    (evidenceRule procedure path columns f).1 = f := by
  cases hisCast : f.isCast with
  | true =>
    have htarget : f.castTarget = none := by simpa [targetOfCast?, hisCast] using hcast
    rw [evidenceRule_of_isCast hisCast, castRule_none htarget]
  | false =>
    cases hbinding : f.tableBinding? with
    | none => rw [evidenceRule_of_unbound hisCast hbinding]
    | some binding =>
      rw [hbinding] at hcolumn
      obtain ⟨issue, -, heq⟩ := tableRule_of_missing procedure path hcolumn
      rw [evidenceRule_of_bound hbinding, heq]

theorem fst_settle_of_neither
    (hcast : f.targetOfCast? = none)
    (hcolumn : f.tableBinding?.bind (boundColumn? columns) = none) :
    (settle procedure path inJson columns f).1 = f.withTypeFrom (typeSource none inJson f) := by
  have hrefines := refines_outerJoinRule_documentRule f
  have hevident : (settle procedure path inJson columns f).1 =
      (remainderRule procedure path inJson (outerJoinRule (documentRule f).1).1).1 := by
    rw [fst_settle_eq, fst_evidenceRule_of_none]
    · rw [targetOfCast?, hrefines.isCast_eq, hrefines.castTarget_eq, ← targetOfCast?, hcast]
    · rw [hrefines.tableBinding?_eq, hcolumn]
  rw [hevident, fst_outerJoinRule_documentRule]
  unfold typeSource
  rw [hcast]
  dsimp only
  cases htype : f.sqlType with
  | some sqlType =>
    have hbare : isBare f.keepingType = false := by simp [isBare, keepingType, htype]
    simp [withTypeFrom, remainderRule_of_not_isBare hbare]
  | none =>
    cases hjson : f.isJsonContainer with
    | true =>
      have hbare : isBare (f.withTypeFrom .payload) = false := by
        simp [isBare, withTypeFrom, withType]
      simp [remainderRule_of_not_isBare hbare]
    | false =>
      have hkept : f.Refines f.keepingType := by
        rw [← fst_outerJoinRule]
        exact isRefining_outerJoinRule f
      have hbare : isBare f.keepingType = !f.hasSourceBinding := by
        rw [isBare, hkept.isJsonContainer_eq, hkept.hasSourceBinding_eq, hjson]
        simp [keepingType, htype]
      cases hbound : f.hasSourceBinding with
      | true => simp [withTypeFrom, remainderRule_of_not_isBare (hbare.trans (by simp [hbound]))]
      | false =>
        have hrule : remainderRule procedure path inJson f.keepingType = _ :=
          remainderRule_of_isBare (hbare.trans (by simp [hbound]))
        cases inJson with
        | true => simp [withTypeFrom, hrule, setPayload, setType_eq, withType_of_refines hkept]
        | false => simp [withTypeFrom, hrule]

/-- The rules come to the first source of a type that there is. -/
theorem fst_settle (f : ColumnFacts) :
    (settle procedure path inJson columns f).1 =
      f.withTypeFrom (typeSource (f.tableBinding?.bind (boundColumn? columns)) inJson f) := by
  cases hcast : f.targetOfCast? with
  | some target =>
    obtain ⟨hisCast, htarget⟩ : f.isCast = true ∧ f.castTarget = some target := by
      simpa [targetOfCast?] using hcast
    rw [fst_settle_of_cast hisCast htarget]
    simp [typeSource, hcast]
  | none =>
    cases hcolumn : f.tableBinding?.bind (boundColumn? columns) with
    | some column =>
      rw [fst_settle_of_table hcolumn]
      simp [typeSource, hcast]
    | none => exact fst_settle_of_neither hcast hcolumn

/-! ## Trees of columns -/

variable {columns? : String → String → Option (List TableColumn)}

/-- A look-up that has all its answers. -/
abbrev answering (columns? : String → String → Option (List TableColumn)) : Lookup Id :=
  fun schema table => columns? schema table

theorem fst_enrichFacts (path : String) (inJson : Bool) (f : ColumnFacts) :
    (enrichFacts (answering columns?) procedure path inJson f).1 = f.resolved columns? inJson := by
  unfold enrichFacts ColumnFacts.resolved tableColumn?
  cases hbinding : f.tableBinding? with
  | none =>
    have hsettle : (settle procedure path inJson none f).1 = _ := fst_settle f
    rw [hbinding] at hsettle
    exact hsettle
  | some binding =>
    have hsettle : (settle procedure path inJson (columns? binding.schema binding.table) f).1 = _ :=
      fst_settle f
    rw [hbinding] at hsettle
    exact hsettle

mutual

theorem fst_enrichColumn (path : String) (inJson : Bool) (c : Column) :
    (enrichColumn (answering columns?) procedure path inJson c).1 =
      c.resolved columns? inJson := by
  cases c with
  | node facts children =>
    have hchildren := fst_enrichColumns (path ++ ".") true children
    rw [enrichColumn, Column.resolved, ← fst_enrichFacts path inJson facts, ← hchildren]
    rfl

theorem fst_enrichColumns (parent : String) (inJson : Bool) (cs : List Column) :
    (enrichColumns (answering columns?) procedure parent inJson cs).1 =
      Column.resolvedAll columns? inJson cs := by
  cases cs with
  | nil => rfl
  | cons c cs =>
    have hfirst := fst_enrichColumn (parent ++ c.facts.name) inJson c
    have hothers := fst_enrichColumns parent inJson cs
    rw [enrichColumns, Column.resolvedAll, ← hfirst, ← hothers]
    rfl

end

theorem fst_enrichSets (sets : List ResultSet) :
    (enrichSets (answering columns?) procedure sets).1 = sets.map (·.resolved columns?) := by
  induction sets with
  | nil => rfl
  | cons s sets ih =>
    have hcolumns :
        (enrichColumns (answering columns?) procedure "" s.returnsJson s.columns).1 = _ :=
      fst_enrichColumns "" s.returnsJson s.columns
    rw [enrichSets, List.map_cons, ResultSet.resolved, ← ih, ← hcolumns]
    rfl

theorem fst_enrichWith (a : Analysis) : (enrichWith columns? a).1 = a.resolved columns? := by
  have hsets : (enrichSets (answering columns?) a.descriptor.display a.content.resultSets).1 = _ :=
    fst_enrichSets a.content.resultSets
  rw [Analysis.resolved, ← hsets]
  rfl

end Enrichment

open Enrichment

/-- With a provider whose look-ups succeed, enrichment succeeds and every column at every depth has
its type from the first source that there is; for each table the enricher goes by one answer, which
it remembered or which its provider gave. -/
theorem Analysis.enrich_by_priority
    {σ ε : Type} {provider : Lookup (StateT σ (Except ε))} (hprovider : provider.Succeeds)
    (tables : TableCache) (state : σ) (a : Analysis) :
    ∃ columns? notes later next,
      (∀ schema table, tables.lookup (objectKey schema table) = some (columns? schema table) ∨
        provider.Replies (objectKey schema table) (columns? schema table)) ∧
      ((a.enrich (enricher provider)).run tables).run state =
        .ok (((a.resolved columns?, notes), later), next) := by
  obtain ⟨columns?, later, next, hanswers, hrun⟩ := hprovider.exists_enrich_eq tables state a
  refine ⟨columns?, (enrichWith columns? a).2, later, next, hanswers, ?_⟩
  rw [hrun, ← fst_enrichWith]

/-- A provider that counts its look-ups and knows one table. -/
def Enrichment.countingProvider : Lookup (StateT Nat (Except Unit)) := fun schema table count =>
  (sampleProvider schema table).map fun columns => (columns, count + 1)

theorem Enrichment.succeeds_countingProvider : countingProvider.Succeeds := by
  intro schema table count
  have hreply : ∃ columns, sampleProvider schema table = .ok columns := by
    unfold sampleProvider
    split
    · exact ⟨_, rfl⟩
    · exact ⟨_, rfl⟩
  obtain ⟨columns, hreply⟩ := hreply
  exact ⟨(columns, count + 1), congrArg (Except.map fun columns => (columns, count + 1)) hreply⟩

theorem Analysis.enrich_by_priority_sample :
    countingProvider.Succeeds ∧
    ∃ columns? notes later next,
      (∀ schema table, ([] : TableCache).lookup (objectKey schema table) =
          some (columns? schema table) ∨
        countingProvider.Replies (objectKey schema table) (columns? schema table)) ∧
      ((sample.enrich (enricher countingProvider)).run []).run 0 =
        .ok (((sample.resolved columns?, notes), later), next) :=
  ⟨succeeds_countingProvider, enrich_by_priority succeeds_countingProvider [] 0 sample⟩

end SqlSnapshot
