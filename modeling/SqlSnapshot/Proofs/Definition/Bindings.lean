import SqlSnapshot.Definition.Analysis
import SqlSnapshot.Proofs.Definition.ResultSets

/-!
# Bindings of analyzed columns

A column is bound to a column of a table only where nothing in its own text says its type: it is no
cast, and has no type yet.  This holds of every column that the analysis of a definition yields, on
every level, because a sub-select hands on the binding and the cast of its column together.
-/

namespace SqlSnapshot

/-- A bound column is no cast and has no type yet. -/
def ColumnFacts.DefersToTable (f : ColumnFacts) : Prop :=
  f.hasSourceBinding = true → f.isCast = false ∧ f.sqlType = none

namespace Column

theorem mem_walkAll {f : ColumnFacts} {cs : List Column} :
    f ∈ walkAll cs ↔ ∃ c ∈ cs, f ∈ c.walk := by
  induction cs with
  | nil => simp [walkAll]
  | cons c cs ih => simp [walkAll, ih]

theorem forall_mem_walk_node
    {p : ColumnFacts → Prop} {f : ColumnFacts} {children : List Column} :
    (∀ g ∈ (node f children).walk, p g) ↔ p f ∧ ∀ c ∈ children, ∀ g ∈ c.walk, p g := by
  rw [walk, List.forall_mem_cons]
  simp only [mem_walkAll]
  constructor
  · rintro ⟨hf, hchildren⟩
    exact ⟨hf, fun c hc g hg => hchildren g ⟨c, hc, hg⟩⟩
  · rintro ⟨hf, hchildren⟩
    refine ⟨hf, fun g hg => ?_⟩
    obtain ⟨c, hc, hg⟩ := hg
    exact hchildren c hc g hg

/-- Every bound column of the tree is no cast and has no type yet. -/
def DefersToTables (c : Column) : Prop :=
  ∀ f ∈ c.walk, f.DefersToTable

theorem defersToTables_node {f : ColumnFacts} {children : List Column}
    (hf : f.DefersToTable) (hchildren : ∀ c ∈ children, c.DefersToTables) :
    (node f children).DefersToTables :=
  forall_mem_walk_node.mpr ⟨hf, hchildren⟩

theorem DefersToTables.facts {f : ColumnFacts} {children : List Column}
    (h : (node f children).DefersToTables) : f.DefersToTable :=
  (forall_mem_walk_node.mp h).1

theorem DefersToTables.children {f : ColumnFacts} {children : List Column}
    (h : (node f children).DefersToTables) : ∀ c ∈ children, c.DefersToTables :=
  (forall_mem_walk_node.mp h).2

theorem defersToTables_leaf {f : ColumnFacts} (hf : f.DefersToTable) :
    (leaf f).DefersToTables :=
  defersToTables_node hf (by simp)

theorem DefersToTables.named {c : Column} (h : c.DefersToTables) (name : String) :
    (c.named name).DefersToTables := by
  cases c with
  | node facts children => exact defersToTables_node h.facts h.children

end Column

namespace Select

open Token

/-! ## Columns of one expression -/

theorem defersToTable_of_unbound {f : ColumnFacts} (h : f.hasSourceBinding = false) :
    f.DefersToTable := by
  intro hbound
  rw [h] at hbound
  cases hbound

theorem defersToTable_columnRef (scope : Scope) (parts : List String) :
    (columnRef scope parts).DefersToTable := by
  intro _
  unfold columnRef
  dsimp only
  split
  · exact ⟨rfl, rfl⟩
  · split <;> split <;> exact ⟨rfl, rfl⟩

theorem defersToTable_aggregateColumn
    (scope : Scope) (function : String) (arguments : List Token) :
    (aggregateColumn scope function arguments).DefersToTable := by
  unfold aggregateColumn
  dsimp only
  split
  · exact defersToTable_of_unbound rfl
  · exact defersToTable_of_unbound rfl
  -- `MIN` and `MAX` take over the binding of their argument
  · split
    · exact defersToTable_of_unbound rfl
    · exact fun _ => ⟨rfl, rfl⟩
  · split
    · exact defersToTable_of_unbound rfl
    · exact fun _ => ⟨rfl, rfl⟩
  · exact defersToTable_of_unbound rfl

theorem defersToTable_callColumn
    (scope : Scope) (function : String) (arguments : List Token) :
    (callColumn scope function arguments).DefersToTable := by
  unfold callColumn
  split
  · exact defersToTable_of_unbound rfl
  · exact defersToTable_of_unbound rfl
  · exact defersToTable_of_unbound rfl
  · exact defersToTable_of_unbound rfl
  · split
    · exact defersToTable_aggregateColumn scope function arguments
    · exact defersToTable_of_unbound rfl

/-! ## Columns of sub-selects -/

variable {columns : List Column}

theorem defersToTables_scalarColumn (h : ∀ c ∈ columns, c.DefersToTables) :
    (scalarColumn columns).DefersToTables := by
  unfold scalarColumn
  split
  · rename_i facts children
    have hcolumn : (Column.node facts children).DefersToTables := h _ List.mem_cons_self
    apply Column.defersToTables_node
    · intro hbound
      obtain ⟨hcast, htype⟩ := hcolumn.facts hbound
      refine ⟨?_, htype⟩
      change ((if facts.isCast = true then ExpressionKind.cast else .computed) == .cast) = false
      rw [hcast]
      rfl
    · exact hcolumn.children
  · exact Column.defersToTables_leaf (defersToTable_of_unbound rfl)

theorem ReadIn.defersToTables
    {ctes : List String} {selects : List (List Token)} {c : Column} (h : ReadIn ctes selects c) :
    c.DefersToTables := by
  induction h with
  | other => exact Column.defersToTables_leaf (defersToTable_of_unbound rfl)
  | jsonValue => exact Column.defersToTables_leaf (defersToTable_of_unbound rfl)
  | reference _ _ => exact Column.defersToTables_leaf (defersToTable_columnRef _ _)
  | call function _ => exact Column.defersToTables_leaf (defersToTable_callColumn _ function _)
  | nested kind json _ _ _ ih =>
    exact Column.defersToTables_node (defersToTable_of_unbound rfl) ih
  | scalar _ _ ih => exact defersToTables_scalarColumn (by simpa using ih)
  | named name _ ih => exact ih.named name

end Select

/-! ## Statements and definitions -/

/-- Every bound column of the result sets is no cast and has no type yet. -/
def ResultSet.DefersToTables (s : ResultSet) : Prop :=
  ∀ c ∈ s.columns, c.DefersToTables

namespace Body

theorem defersToTables_read
    {ctes : List String} {ts : List Token} {found : Findings} (h : read ctes ts = .ok found) :
    ∀ set ∈ found.resultSets, set.DefersToTables := by
  intro set hset
  rcases mem_resultSets_read h hset with ⟨target, rfl⟩ | ⟨names, t, rest, -, -, rfl⟩
  · simp [ResultSet.DefersToTables, ResultSet.forwarded]
  · exact fun c hc => (Select.readIn_read hc).defersToTables

end Body

theorem KeywordScan.defersToTables_scan (definition : String) (error : ParseError) :
    ∀ set ∈ (scan definition error).resultSets, set.DefersToTables := by
  intro set hset
  simp only [scan, resultSets] at hset
  split at hset
  · obtain rfl := List.mem_singleton.mp hset
    simp [ResultSet.DefersToTables]
  · cases hset

namespace AggregateAlias

theorem defersToTable_tagFacts
    (aliases : List (String × String)) {f : ColumnFacts} (h : f.DefersToTable) :
    (tagFacts aliases f).DefersToTable := by
  unfold tagFacts
  split
  · exact h
  · split
    · exact h
    · exact h

mutual

theorem defersToTables_tagColumn
    (aliases : List (String × String)) {c : Column} (h : c.DefersToTables) :
    (tagColumn aliases c).DefersToTables := by
  cases c with
  | node facts children =>
    rw [tagColumn]
    exact Column.defersToTables_node (defersToTable_tagFacts aliases h.facts)
      (defersToTables_tagColumns aliases h.children)

theorem defersToTables_tagColumns
    (aliases : List (String × String)) {cs : List Column} (h : ∀ c ∈ cs, c.DefersToTables) :
    ∀ c ∈ tagColumns aliases cs, c.DefersToTables := by
  cases cs with
  | nil => simp [tagColumns]
  | cons c cs =>
    rw [tagColumns, List.forall_mem_cons]
    exact ⟨defersToTables_tagColumn aliases (h c List.mem_cons_self),
      defersToTables_tagColumns aliases fun d hd => h d (List.mem_cons_of_mem c hd)⟩

end

end AggregateAlias

namespace Analysis

theorem defersToTables_readStructure
    {definition : String} {content : Content} {parameters : List Parameter} {issues : List Issue}
    (h : readStructure definition = .ok (content, parameters, issues)) :
    ∀ set ∈ content.resultSets, set.DefersToTables := by
  obtain ⟨ts, found, hfound, hsets, -⟩ := readStructure_eq_ok h
  rw [hsets]
  exact Body.defersToTables_read hfound

/-- Where a definition is analyzed, its bound columns leave their types to their tables. -/
theorem defersToTables_ofDefinition (descriptor : Descriptor) (definition : String) :
    ∀ set ∈ (ofDefinition descriptor definition).content.resultSets, set.DefersToTables := by
  intro set hset
  simp only [ofDefinition] at hset
  obtain ⟨untagged, huntagged, rfl⟩ := List.mem_map.mp hset
  refine AggregateAlias.defersToTables_tagColumns _ ?_
  cases hread : readStructure definition with
  | ok parts =>
    simp only [hread] at huntagged
    exact defersToTables_readStructure hread untagged huntagged
  | error e =>
    simp only [hread] at huntagged
    exact KeywordScan.defersToTables_scan definition e untagged huntagged

end Analysis

end SqlSnapshot
