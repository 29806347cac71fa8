import SqlSnapshot.Proofs.Definition.Bindings
import SqlSnapshot.Proofs.Definition.FromNames
import SqlSnapshot.Proofs.Definition.NestedSelect
import SqlSnapshot.Proofs.Definition.WithList

/-!
# Bindings to tables

A binding of an analyzed column comes from a column reference, and from a name in a `FROM` clause:
that of the select in whose list the reference stands, or of a select around it.  A name of one part
that is also the name of a common table expression of the statement binds nothing.
-/

namespace SqlSnapshot

open Token

/-- Both columns have the same source, or none. -/
structure ColumnFacts.SharesSource (f g : ColumnFacts) : Prop where
  schema : g.sourceSchema = f.sourceSchema
  table : g.sourceTable = f.sourceTable
  column : g.sourceColumn = f.sourceColumn
  aliasName : g.sourceAlias = f.sourceAlias

theorem ColumnFacts.SharesSource.hasSourceBinding_eq
    {f g : ColumnFacts} (h : f.SharesSource g) :
    g.hasSourceBinding = f.hasSourceBinding := by
  simp only [hasSourceBinding, h.schema, h.table, h.column]

namespace Select

/-! ## References -/

/-- The `FROM` clause of a select without its keyword; of several branches it is that of the
first. -/
def fromClause (select : List Token) : List Token :=
  upToKw fromEnd ((fromKw ["FROM"] (upToKw setOperators (listAndClauses select).2)).drop 1)

/-- The column takes its source from a column reference in the list of the select. -/
def Refers (select : List Token) (f : ColumnFacts) : Prop :=
  ∃ expr parts, Lists select expr ∧ columnParts? expr = some parts ∧
    f.sourceColumn = parts.getLast? ∧ f.sourceAlias = parts.dropLast.getLast?

theorem Refers.of_sharesSource
    {select : List Token} {f g : ColumnFacts} (h : Refers select f) (hshares : f.SharesSource g) :
    Refers select g := by
  obtain ⟨expr, parts, hlisted, hparts, hcolumn, halias⟩ := h
  exact ⟨expr, parts, hlisted, hparts, hshares.column.trans hcolumn, hshares.aliasName.trans halias⟩

/-- The table of the column is named in the `FROM` clause of one of the selects. -/
def NamesSource (ctes : List String) (selects : List (List Token)) (f : ColumnFacts) : Prop :=
  ∃ schema table, f.sourceSchema = some schema ∧ f.sourceTable = some table ∧
    ∃ select ∈ selects, ∃ parts, Source.HoldsName (fromClause select) parts ∧
      Source.NamesTable ctes parts schema table

theorem NamesSource.of_sharesSource
    {ctes : List String} {selects : List (List Token)} {f g : ColumnFacts}
    (h : NamesSource ctes selects f) (hshares : f.SharesSource g) :
    NamesSource ctes selects g := by
  obtain ⟨schema, table, hschema, htable, hnamed⟩ := h
  exact ⟨schema, table, hshares.schema.trans hschema, hshares.table.trans htable, hnamed⟩

variable {ctes : List String} {selects : List (List Token)} {scope : Scope} {parts : List String}

/-- Each of the selects stands in the list of the next one, and the last is the statement. -/
structure IsNesting (statement : List Token) (selects : List (List Token)) : Prop where
  chain : selects.IsChain fun inner outer => Encloses outer inner
  last : selects.getLast? = some statement

/-- The column is bound by a reference in the list of a select to a table that this select or one
around it names. -/
def IsBoundIn (ctes : List String) (statement : List Token) (f : ColumnFacts) : Prop :=
  ∃ select outer, IsNesting statement (select :: outer) ∧ Refers select f ∧
    NamesSource ctes (select :: outer) f

theorem IsBoundIn.of_sharesSource
    {statement : List Token} {f g : ColumnFacts} (h : IsBoundIn ctes statement f)
    (hshares : f.SharesSource g) :
    IsBoundIn ctes statement g := by
  obtain ⟨select, outer, hnesting, hrefers, hnames⟩ := h
  exact ⟨select, outer, hnesting, hrefers.of_sharesSource hshares, hnames.of_sharesSource hshares⟩

/-- Every bound column of the tree is bound by a select of the statement. -/
def AreBoundIn (ctes : List String) (statement : List Token) (c : Column) : Prop :=
  ∀ f ∈ c.walk, f.hasSourceBinding = true → IsBoundIn ctes statement f

variable {statement : List Token}

/-- The facts of a column may change, as long as its source stays the same. -/
theorem AreBoundIn.of_sharesSource
    {f g : ColumnFacts} {children : List Column} (h : AreBoundIn ctes statement (.node f children))
    (hshares : f.SharesSource g) :
    AreBoundIn ctes statement (.node g children) := by
  obtain ⟨hf, hchildren⟩ := Column.forall_mem_walk_node.mp h
  refine Column.forall_mem_walk_node.mpr ⟨fun hbound => ?_, hchildren⟩
  rw [hshares.hasSourceBinding_eq] at hbound
  exact (hf hbound).of_sharesSource hshares

end Select

namespace Body

/-- `SELECT o.Id` from the sources of a clause. -/
def sampleSelect (clause : List Token) : List Token :=
  [.word "SELECT" false, .word "o" false, .period, .word "Id" false, .word "FROM" false] ++ clause

theorem listAndClauses_sampleSelect (clause : List Token) :
    Select.listAndClauses (sampleSelect clause) =
      ([.word "o" false, .period, .word "Id" false], .word "FROM" false :: clause) := by
  rw [sampleSelect, List.cons_append, Select.listAndClauses, Select.skipModifiers_of_not rfl]
  rfl

theorem readItems_sampleSelect (ctes : List String) (clause : List Token) :
    Select.readItems ctes [] (sampleSelect clause) =
      [(some (.leaf (Select.columnRef (Select.scopeOf ctes [sampleSelect clause]) ["o", "Id"])),
        [])] := by
  have hitem : Select.readItem ctes (Select.innerScope ctes [] (sampleSelect clause))
      [.word "o" false, .period, .word "Id" false] =
        (some (.leaf (Select.columnRef (Select.scopeOf ctes [sampleSelect clause]) ["o", "Id"])),
          []) := by
    rw [Select.readItem_of_expr (by decide) (by decide),
      Select.readExpr_of_column (by rfl) (by rfl) (by rfl)]
    rfl
  rw [Select.readItems, listAndClauses_sampleSelect]
  exact congrArg (· :: []) hitem

theorem exists_read_sampleSelect
    (ctes : List String) (clause : List Token)
    (hcut : cutStatement (.word "SELECT" false) 0 0 (sampleSelect clause).tail =
      ((sampleSelect clause).tail, []))
    (hinto : fromKw ["INTO"] (upToKw Select.setOperators (.word "FROM" false :: clause)) = []) :
    ∃ set, read ctes (sampleSelect clause) = .ok ⟨[set], [], []⟩ ∧ set.columns =
      [.leaf (Select.columnRef (Select.scopeOf ctes [sampleSelect clause]) ["o", "Id"])] := by
  have hread := Select.read_of_parts (listAndClauses_sampleSelect clause) rfl ctes []
  rw [readItems_sampleSelect, hinto] at hread
  have hselect : readSelect ctes (sampleSelect clause) = _ :=
    readSelect_of_columns (by simp [listAndClauses_sampleSelect]) (by rw [hread])
      (by rw [hread]; rfl)
  have hall : read ctes (sampleSelect clause) =
      followedBy (readSelect ctes (sampleSelect clause)) (read [] []) :=
    read_cut (by decide) hcut
  rw [hselect, read_nil, followedBy_empty, hread] at hall
  exact ⟨_, hall, rfl⟩

end Body

end SqlSnapshot
