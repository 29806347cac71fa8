import SqlSnapshot.Proofs.Definition.ResultSets
import SqlSnapshot.Proofs.Definition.Statements

/-!
# Well-formed content

What the stages after the analysis rely on: which facts of a column occur together, at every depth,
and that the executed procedures are those whose result sets are passed on.  Columns arise in few
ways (`Select.ReadIn`), and each way keeps their shape; the search for aggregate aliases keeps it
too.
-/

namespace SqlSnapshot

/-- The descriptors of which none before names the same procedure. -/
def Descriptor.firstAppearances : List Descriptor → List Descriptor
  | [] => []
  | d :: ds => d :: (firstAppearances ds).filter fun e => !d.same e

theorem Descriptor.distinct_eq_firstAppearances
    (ds : List Descriptor) :
    distinct ds = firstAppearances ds := by
  induction ds with
  | nil => rfl
  | cons d ds ih =>
    have hone : distinct [d] = [d] := rfl
    rw [firstAppearances, ← List.singleton_append, distinct_append, hone, ih]
    simp

/-! ## Columns -/

/-- Which facts of a column occur together. -/
structure ColumnFacts.IsWellFormed (f : ColumnFacts) (children : List Column) : Prop where
  schema : f.sourceSchema.isSome = f.sourceTable.isSome
  column : f.sourceColumn.isSome = f.sourceTable.isSome
  children : children ≠ [] →
    f.isNestedJson = some true ∧ f.returnsJson = some true ∧ f.returnsJsonArray.isSome = true
  castTarget : f.castTarget.isSome = true → f.kind = .cast
  cast : f.kind = .cast →
    f.sourceSchema = none ∧ f.sourceTable = none ∧ f.sourceColumn = none
  sqlType : f.sqlType.isSome = true →
    f.isAggregate = some true ∧
      (f.aggregateFunction = some "count" ∨ f.aggregateFunction = some "count_big") ∧
      f.isNullable = some false ∧ f.forcedNullable = none
  aggregate : f.isAggregate = some true ↔ f.aggregateFunction.isSome = true
  maxLength : f.maxLength = none

/-- The facts of the column and of all columns below it are well formed. -/
inductive Column.IsWellFormed : Column → Prop where
  | node {f : ColumnFacts} {children : List Column} (hfacts : f.IsWellFormed children)
      (hchildren : ∀ c ∈ children, c.IsWellFormed) : IsWellFormed (.node f children)

namespace Select

open Token

variable {scope : Scope} {f : ColumnFacts} {children : List Column}

theorem isWellFormed_leaf
    (hf : f.IsWellFormed []) :
    (Column.leaf f).IsWellFormed :=
  .node hf (List.forall_mem_nil _)

/-- Facts that say how a value is produced and nothing more. -/
theorem isWellFormed_plain (kind : ExpressionKind) : ColumnFacts.IsWellFormed { kind } [] := by
  constructor <;> simp

theorem isWellFormed_columnRef (scope : Scope) (parts : List String) :
    (columnRef scope parts).IsWellFormed [] := by
  unfold columnRef
  dsimp only
  split
  · constructor <;> simp
  · split <;> split <;> constructor <;> simp

theorem isWellFormed_cast (target : Option String) (nullable : Option Bool) :
    ColumnFacts.IsWellFormed
      { kind := .cast, castTarget := target, isNullable := nullable } [] := by
  constructor <;> simp

theorem isWellFormed_aggregateColumn
    (scope : Scope) (function : String) (arguments : List Token) :
    (aggregateColumn scope function arguments).IsWellFormed [] := by
  have hbound := fun parts => isWellFormed_columnRef scope parts
  unfold aggregateColumn
  dsimp only
  split
  · constructor <;> simp [show Text.asciiLower "COUNT" = "count" by decide]
  · constructor <;> simp [show Text.asciiLower "COUNT_BIG" = "count_big" by decide]
  -- `MIN` and `MAX` take over the binding of their argument
  · split
    · constructor <;> simp
    · rename_i parts _
      refine ⟨(hbound parts).schema, (hbound parts).column, ?_, ?_, ?_, ?_, ?_, ?_⟩ <;> simp
  · split
    · constructor <;> simp
    · rename_i parts _
      refine ⟨(hbound parts).schema, (hbound parts).column, ?_, ?_, ?_, ?_, ?_, ?_⟩ <;> simp
  · constructor <;> simp

theorem isWellFormed_callColumn
    (scope : Scope) (function : String) (arguments : List Token) :
    (callColumn scope function arguments).IsWellFormed [] := by
  unfold callColumn
  split
  iterate 4 exact isWellFormed_cast _ _
  split
  · exact isWellFormed_aggregateColumn scope function arguments
  · exact isWellFormed_plain .functionCall

/-- A scalar sub-select keeps the shape of its column: a cast stays a cast, and the count of rows
keeps its type. -/
theorem isWellFormed_scalarColumn
    {c : Column} (hc : c.IsWellFormed) :
    (scalarColumn [c]).IsWellFormed := by
  obtain ⟨hfacts, hchildren⟩ := hc
  rename_i f children
  refine .node ⟨hfacts.schema, hfacts.column, hfacts.children, ?_, ?_, ?_, hfacts.aggregate,
    hfacts.maxLength⟩ hchildren
  · intro htarget
    simp [ColumnFacts.isCast, hfacts.castTarget htarget]
  · intro hkind
    apply hfacts.cast
    by_contra hne
    simp [ColumnFacts.isCast, hne] at hkind
  · intro htype
    obtain ⟨haggregate, hfunction, hnullable, hforced⟩ := hfacts.sqlType htype
    exact ⟨haggregate, hfunction, hnullable, by simp [haggregate, hforced]⟩

theorem ReadIn.isWellFormed
    {ctes : List String} {selects : List (List Token)} {c : Column} (h : ReadIn ctes selects c) :
    c.IsWellFormed := by
  induction h with
  | other => exact isWellFormed_leaf (isWellFormed_plain .computed)
  | jsonValue => exact isWellFormed_leaf (isWellFormed_plain .jsonQuery)
  | reference _ _ => exact isWellFormed_leaf (isWellFormed_columnRef _ _)
  | call function _ => exact isWellFormed_leaf (isWellFormed_callColumn _ function _)
  | nested kind json hkind _ _ ih =>
    refine .node ?_ ih
    rcases hkind with rfl | rfl <;> constructor <;> simp
  | scalar _ _ ih => exact isWellFormed_scalarColumn ih
  | named name _ ih =>
    cases ih with
    | node hfacts hchildren => exact .node { hfacts with } hchildren

end Select

/-! ## Aggregate aliases -/

namespace AggregateAlias

theorem isWellFormed_tagFacts
    (aliases : List (String × String)) {f : ColumnFacts} {children tagged : List Column}
    (h : f.IsWellFormed children) (htagged : tagged ≠ [] → children ≠ []) :
    (tagFacts aliases f).IsWellFormed tagged := by
  have hkept : f.IsWellFormed tagged := { h with children := fun hne => h.children (htagged hne) }
  unfold tagFacts
  split
  · exact hkept
  · rename_i huntagged
    split
    · -- a column that is no aggregate yet has no type either
      have htype : f.sqlType.isSome = true → False := fun htype =>
        huntagged (by rw [(h.sqlType htype).1, Option.isSome_some])
      exact { hkept with
        sqlType := fun hsome => (htype hsome).elim
        aggregate := by simp }
    · exact hkept

mutual

theorem isWellFormed_tagColumn
    (aliases : List (String × String)) {c : Column} (h : c.IsWellFormed) :
    (tagColumn aliases c).IsWellFormed := by
  cases h with
  | @node f children hfacts hchildren =>
    rw [tagColumn]
    refine .node (isWellFormed_tagFacts aliases hfacts ?_)
      (isWellFormed_tagColumns aliases hchildren)
    rintro hne rfl
    exact hne rfl

theorem isWellFormed_tagColumns
    (aliases : List (String × String)) {cs : List Column} (h : ∀ c ∈ cs, c.IsWellFormed) :
    ∀ c ∈ tagColumns aliases cs, c.IsWellFormed := by
  cases cs with
  | nil => simp [tagColumns]
  | cons c cs =>
    rw [tagColumns, List.forall_mem_cons]
    exact ⟨isWellFormed_tagColumn aliases (h c List.mem_cons_self),
      isWellFormed_tagColumns aliases fun d hd => h d (List.mem_cons_of_mem c hd)⟩

end

end AggregateAlias

/-! ## Definitions -/

namespace Analysis

variable {definition : String}

/-- The tags change the columns of a result set and nothing else. -/
theorem resultSets_ofDefinition
    {content : Content} {parameters : List Parameter} {issues : List Issue}
    (h : readStructure definition = .ok (content, parameters, issues)) (descriptor : Descriptor) :
    (ofDefinition descriptor definition).content.resultSets =
        content.resultSets.map (fun s => { s with
          columns := AggregateAlias.tagColumns (AggregateAlias.scan definition) s.columns }) ∧
      (ofDefinition descriptor definition).content.executed = content.executed := by
  simp only [ofDefinition, h]
  exact ⟨rfl, rfl⟩

/-- The content of a definition that is read statement by statement is well formed: so is every
column at every depth, a result set that is passed on has nothing of its own, and the executed
procedures are those whose result sets are passed on, each once, as they first appear. -/
theorem isWellFormed_ofDefinition
    {content : Content} {parameters : List Parameter} {issues : List Issue}
    (h : readStructure definition = .ok (content, parameters, issues)) (descriptor : Descriptor) :
    (∀ set ∈ (ofDefinition descriptor definition).content.resultSets,
      (∀ c ∈ set.columns, c.IsWellFormed) ∧
      (set.isForwarded = true →
        set.columns = [] ∧ set.returnsJson = false ∧ set.returnsJsonArray = false ∧
          set.jsonRoot = none ∧ set.includeNullValues = false)) ∧
    (ofDefinition descriptor definition).content.executed =
      Descriptor.firstAppearances
        ((ofDefinition descriptor definition).content.resultSets.filterMap ResultSet.target?) := by
  obtain ⟨ts, found, hfound, hsets, hexecuted⟩ := readStructure_eq_ok h
  obtain ⟨htagged, hsame⟩ := resultSets_ofDefinition h descriptor
  rw [htagged, hsame, hexecuted, hsets]
  refine ⟨?_, ?_⟩
  · intro set hset
    obtain ⟨untagged, huntagged, rfl⟩ := List.mem_map.mp hset
    rcases Body.mem_resultSets_read hfound huntagged with ⟨target, rfl⟩ |
      ⟨names, t, rest, -, -, rfl⟩
    · refine ⟨?_, fun _ => ⟨rfl, rfl, rfl, rfl, rfl⟩⟩
      simp [ResultSet.forwarded, AggregateAlias.tagColumns]
    · refine ⟨?_, fun hforwarded => ?_⟩
      · exact AggregateAlias.isWellFormed_tagColumns _ fun c hc =>
          (Select.readIn_read hc).isWellFormed
      · cases hforwarded
  · rw [Descriptor.distinct_eq_firstAppearances, Body.executed_read hfound, List.filterMap_map]
    rfl

/-- A count of rows, and two calls of one procedure. -/
def sampleCalls : String :=
  "CREATE PROCEDURE dbo.P AS SELECT COUNT(*) AS N EXEC dbo.Q EXEC DBO.q"

def sampleCallsHeader : List Token :=
  [.word "CREATE" false, .word "PROCEDURE" false, .word "dbo" false, .period, .word "P" false,
   .word "AS" false]

def sampleCallsSelect : List Token :=
  [.word "SELECT" false, .word "COUNT" false, .lparen, .star, .rparen, .word "AS" false,
   .word "N" false]

def sampleCallsExec : List Token :=
  [.word "EXEC" false, .word "dbo" false, .period, .word "Q" false,
   .word "EXEC" false, .word "DBO" false, .period, .word "q" false]

theorem exists_read_sampleCalls :
    ∃ found, Body.read [] (sampleCallsSelect ++ sampleCallsExec) = .ok found ∧
      found.executed = [⟨"dbo", "Q"⟩, ⟨"DBO", "q"⟩] := by
  have hcut : Body.cutStatement (.word "SELECT" false) 0 0
      (sampleCallsSelect.tail ++ sampleCallsExec) = (sampleCallsSelect.tail, sampleCallsExec) := by
    decide +kernel
  have hselect : Body.readStatement? [] (.word "SELECT" false)
      (sampleCallsSelect.tail ++ sampleCallsExec) =
        some (Body.readSelect [] sampleCallsSelect, sampleCallsExec) := by
    rw [Body.readStatement?, if_pos (by decide), hcut]
    rfl
  obtain ⟨own, hown⟩ : ∃ own, Body.readSelect [] sampleCallsSelect = .ok own := by
    rw [Body.readSelect, Select.checkList, if_neg (by decide +kernel), ok_bind]
    exact ⟨_, rfl⟩
  obtain ⟨others, hothers, hexecuted⟩ := exists_of_map_eq_ok
    (show (Body.read [] sampleCallsExec).map (·.executed) =
      .ok [⟨"dbo", "Q"⟩, ⟨"DBO", "q"⟩] by decide +kernel)
  have hread := Body.read_statement (by simp) (by decide) hselect
  rw [hown, hothers] at hread
  refine ⟨own.append others, hread, ?_⟩
  rw [Findings.append, (Body.readSelect_eq_ok hown).1, List.nil_append, hexecuted]

theorem isWellFormed_ofDefinition_sampleCalls :
    ∃ content issues, readStructure sampleCalls = .ok (content, [], issues) ∧
      (∀ set ∈ (ofDefinition ⟨"dbo", "P"⟩ sampleCalls).content.resultSets,
        ∀ c ∈ set.columns, c.IsWellFormed) ∧
      Descriptor.firstAppearances ((ofDefinition ⟨"dbo", "P"⟩
        sampleCalls).content.resultSets.filterMap ResultSet.target?) = [⟨"dbo", "Q"⟩] := by
  have htokens : Token.tokenize sampleCalls =
      .ok (sampleCallsHeader ++ (sampleCallsSelect ++ sampleCallsExec)) := by
    cbv
  have hheader : Header.parse (sampleCallsHeader ++ (sampleCallsSelect ++ sampleCallsExec)) =
      .ok ⟨["dbo", "P"], [], sampleCallsSelect ++ sampleCallsExec⟩ := by
    rfl
  obtain ⟨found, hread, hexecuted⟩ := exists_read_sampleCalls
  obtain ⟨content, hstructure, hcontent⟩ : ∃ content,
      readStructure sampleCalls = .ok (content, [], found.issues) ∧
        content.executed = Descriptor.distinct found.executed := by
    rw [readStructure, htokens, ok_bind, if_neg (by decide +kernel)]
    dsimp only
    rw [hheader, ok_bind, hread]
    exact ⟨_, rfl, rfl⟩
  obtain ⟨hsets, hfirst⟩ := isWellFormed_ofDefinition hstructure ⟨"dbo", "P"⟩
  refine ⟨content, found.issues, hstructure, fun set hset => (hsets set hset).1, ?_⟩
  rw [← hfirst, (resultSets_ofDefinition hstructure ⟨"dbo", "P"⟩).2, hcontent, hexecuted]
  decide +kernel

end Analysis

end SqlSnapshot
