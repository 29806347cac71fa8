import SqlSnapshot.Proofs.Definition.Bindings
import SqlSnapshot.Proofs.Enrichment.Repeated

/-!
# Issues of untyped columns

After a definition is analyzed and enriched, the issues of the enrichment stand at the columns
without a type, one at each and in their order.  For one column this is a matter of the rules; the
columns of an analysis are bound only where nothing else types them, so that no rule leaves a column
untyped without a word.
-/

namespace SqlSnapshot

/-! ## Paths -/

namespace Column

mutual

/-- The facts of the column and of all below it, parent before children, each with the names of the
columns from the outermost one down to it; `above` are those around this column. -/
def walkNamed (above : List String) : Column → List (List String × ColumnFacts)
  | .node facts children =>
    (above ++ [facts.name], facts) :: walkNamedAll (above ++ [facts.name]) children

def walkNamedAll (above : List String) : List Column → List (List String × ColumnFacts)
  | [] => []
  | c :: cs => c.walkNamed above ++ walkNamedAll above cs

end

end Column

def dottedPath (names : List String) : String :=
  ".".intercalate names

/-- The paths of the columns that have no type. -/
def untypedPaths (columns : List (List String × ColumnFacts)) : List String :=
  (columns.filter (·.2.sqlType.isNone)).map fun column => dottedPath column.1

/-- The paths of the columns that have no type, in all result sets. -/
def Content.untypedPaths (c : Content) : List String :=
  SqlSnapshot.untypedPaths (c.resultSets.flatMap fun s => Column.walkNamedAll [] s.columns)

theorem dottedPath_append_singleton {names : List String} (h : names ≠ []) (name : String) :
    dottedPath (names ++ [name]) = dottedPath names ++ "." ++ name := by
  unfold dottedPath
  induction names with
  | nil => exact absurd rfl h
  | cons first names ih =>
    cases names with
    | nil =>
      rw [List.cons_append, String.intercalate_cons_of_ne_nil (by simp)]
      simp
    | cons second names =>
      have houter : ".".intercalate (first :: (second :: names ++ [name])) =
          first ++ "." ++ ".".intercalate (second :: names ++ [name]) :=
        String.intercalate_cons_of_ne_nil (by simp)
      have hinner : ".".intercalate (first :: second :: names) =
          first ++ "." ++ ".".intercalate (second :: names) :=
        String.intercalate_cons_of_ne_nil (by simp)
      rw [List.cons_append, houter, hinner, ih (by simp)]
      simp only [String.append_assoc]

/-- What stands before the name of a column in its path. -/
def pathPrefix (above : List String) : String :=
  if above = [] then "" else dottedPath above ++ "."

theorem pathPrefix_append (above : List String) (name : String) :
    pathPrefix above ++ name = dottedPath (above ++ [name]) := by
  unfold pathPrefix
  split
  · rename_i h
    simp [h, dottedPath]
  · rename_i h
    rw [dottedPath_append_singleton h]

namespace Enrichment

open ColumnFacts

variable {f : ColumnFacts} {procedure path : String} {inJson : Bool}
  {columns : Option (List TableColumn)}

/-! ## One column -/

theorem exists_tableBinding?
    (h : f.hasSourceBinding = true) (hcast : f.isCast = false) (hjson : f.isJsonContainer = false) :
    ∃ binding, f.tableBinding? = some binding := by
  simp only [hasSourceBinding, Bool.and_eq_true, Option.isSome_iff_exists] at h
  obtain ⟨⟨⟨schema, hschema⟩, table, htable⟩, column, hcolumn⟩ := h
  exact ⟨⟨schema, table, column⟩, by simp [tableBinding?, hcast, hjson, hschema, htable, hcolumn]⟩

/-- The path of the column that has the facts if it has no type. -/
def pathIfUntyped (path : String) (f : ColumnFacts) : List (Option String) :=
  if f.sqlType.isNone then [some path] else []

theorem pathIfUntyped_of_isSome (h : f.sqlType.isSome) : pathIfUntyped path f = [] := by
  simp [pathIfUntyped, Option.isNone_eq_false_iff.mpr h]

theorem pathIfUntyped_of_eq_none (h : f.sqlType = none) : pathIfUntyped path f = [some path] := by
  simp [pathIfUntyped, h]

/-- Evidence and remainder, where no document is concerned, raise an issue at the column exactly
if they leave it untyped. -/
theorem issuePaths_remainderRule (hbound : f.hasSourceBinding = false)
    (hjson : f.isJsonContainer = false) :
    (remainderRule procedure path inJson f).2.issues.map (·.columnPath) =
      pathIfUntyped path (remainderRule procedure path inJson f).1 := by
  cases htype : f.sqlType with
  | some sqlType =>
    rw [remainderRule_of_not_isBare (by simp [isBare, htype])]
    exact (pathIfUntyped_of_isSome (by simp [htype])).symm
  | none =>
    rw [remainderRule_of_isBare (by simp [isBare, htype, hbound, hjson])]
    cases inJson with
    | true =>
      rw [if_pos rfl, setPayload, setType_eq]
      rfl
    | false =>
      rw [if_neg (by simp)]
      exact (pathIfUntyped_of_eq_none htype).symm

theorem issues_evidenceRule_of_unbound (h : f.tableBinding? = none) :
    (evidenceRule procedure path columns f).2.issues = [] := by
  cases hcast : f.isCast with
  | true =>
    rw [evidenceRule_of_isCast hcast]
    exact issues_castRule f
  | false => rw [evidenceRule_of_unbound hcast h]

/-- A column that is no document gets an issue exactly if it is left untyped. -/
theorem issuePaths_evidence
    (hjson : f.isJsonContainer = false) (hdefers : f.DefersToTable) :
    let evident := evidenceRule procedure path columns f
    let left := remainderRule procedure path inJson evident.1
    (evident.2.issues ++ left.2.issues).map (·.columnPath) = pathIfUntyped path left.1 := by
  intro evident left
  have hrefines : f.Refines evident.1 := isRefining_evidenceRule f
  have hjson' : evident.1.isJsonContainer = false := hrefines.isJsonContainer_eq.trans hjson
  cases hbound : f.hasSourceBinding with
  | false =>
    have hbound' : evident.1.hasSourceBinding = false := hrefines.hasSourceBinding_eq.trans hbound
    have hissues : evident.2.issues = [] :=
      issues_evidenceRule_of_unbound (tableBinding?_of_unbound hbound)
    rw [hissues, List.nil_append]
    exact issuePaths_remainderRule hbound' hjson'
  | true =>
    obtain ⟨hcast, huntyped⟩ := hdefers hbound
    obtain ⟨binding, hbinding⟩ := exists_tableBinding? hbound hcast hjson
    have hbound' : evident.1.hasSourceBinding = true := hrefines.hasSourceBinding_eq.trans hbound
    -- nothing is left to a column that is bound
    have hleft : left = (evident.1, {}) :=
      remainderRule_of_not_isBare (by simp [isBare, hbound'])
    have hevident : evident = tableRule procedure path binding columns f :=
      evidenceRule_of_bound hbinding
    rw [hleft, List.append_nil]
    cases hcolumn : boundColumn? columns binding with
    | none =>
      obtain ⟨issue, hpath, heq⟩ := tableRule_of_missing procedure path hcolumn
      rw [hevident, heq, pathIfUntyped_of_eq_none huntyped]
      change [issue.columnPath] = _
      rw [hpath]
    | some column =>
      obtain ⟨hfacts, hissues⟩ := tableRule_of_found procedure path hcolumn f
      rw [hevident, hissues, hfacts]
      rfl

theorem issuePaths_document
    (hjson : f.isJsonContainer = true) (htyped : f.sqlType.isSome) :
    let evident := evidenceRule procedure path columns f
    let left := remainderRule procedure path inJson evident.1
    (evident.2.issues ++ left.2.issues).map (·.columnPath) = pathIfUntyped path left.1 := by
  intro evident left
  have hrefines : f.Refines evident.1 := isRefining_evidenceRule f
  have hissues : evident.2.issues = [] :=
    issues_evidenceRule_of_unbound (by simp [tableBinding?, hjson])
  have hleft : left = (evident.1, {}) :=
    remainderRule_of_not_isBare (by simp [isBare, hrefines.isJsonContainer_eq, hjson])
  rw [hleft, hissues, pathIfUntyped_of_isSome (hrefines.typed htyped)]
  rfl

theorem sqlType_outerJoinRule (f : ColumnFacts) :
    (outerJoinRule f).1.sqlType = f.sqlType := by
  unfold outerJoinRule
  split <;> rfl

/-- A column whose binding leaves the type to its table gets an issue exactly if it is left
untyped. -/
theorem issuePaths_settle (hdefers : f.DefersToTable) :
    (settle procedure path inJson columns f).2.issues.map (·.columnPath) =
      pathIfUntyped path (settle procedure path inJson columns f).1 := by
  rw [issues_settle]
  let joined := (outerJoinRule (documentRule f).1).1
  have hjoined : f.Refines joined := (isRefining_documentRule f).trans (isRefining_outerJoinRule _)
  cases hjson : f.isJsonContainer with
  | true =>
    have hdocument : (documentRule f).1.sqlType.isSome :=
      isSome_sqlType_documentRule ((isRefining_documentRule f).isJsonContainer_eq.trans hjson)
    have hjoinedTyped : joined.sqlType.isSome := (isRefining_outerJoinRule _).typed hdocument
    exact issuePaths_document (hjoined.isJsonContainer_eq.trans hjson) hjoinedTyped
  | false =>
    have htype : joined.sqlType = f.sqlType := by
      change (outerJoinRule (documentRule f).1).1.sqlType = _
      rw [sqlType_outerJoinRule, documentRule, hjson]
      rfl
    apply issuePaths_evidence (f := joined) (hjoined.isJsonContainer_eq.trans hjson)
    intro hbound
    rw [hjoined.isCast_eq, htype]
    exact hdefers (hjoined.hasSourceBinding_eq.symm.trans hbound)

/-! ## Trees of columns -/

variable {σ : Type}

/-- Whatever is remembered and in whichever state the provider is, the step gives a value that has
the property. -/
def Always {α : Type} (p : α → Prop) (step : StateT TableCache (StateM σ) α) : Prop :=
  ∀ tables state, p ((step.run tables).run state).1.1

theorem always_pure {α : Type} {p : α → Prop} {a : α} (h : p a) :
    Always (σ := σ) p (pure a) :=
  fun _ _ => h

theorem Always.bind
    {α β : Type} {p : α → Prop} {q : β → Prop} {step : StateT TableCache (StateM σ) α}
    {next : α → StateT TableCache (StateM σ) β}
    (h : Always p step) (hnext : ∀ a, p a → Always q (next a)) :
    Always q (step >>= next) :=
  fun tables state => hnext _ (h tables state) _ _

theorem always_true {α : Type} (step : StateT TableCache (StateM σ) α) :
    Always (fun _ => True) step :=
  fun _ _ => trivial

theorem map_untypedPaths_cons
    (names : List String) (f : ColumnFacts) (columns : List (List String × ColumnFacts)) :
    (untypedPaths ((names, f) :: columns)).map some =
      pathIfUntyped (dottedPath names) f ++ (untypedPaths columns).map some := by
  unfold untypedPaths pathIfUntyped
  rw [List.filter_cons]
  split <;> rfl

theorem untypedPaths_append (columns others : List (List String × ColumnFacts)) :
    untypedPaths (columns ++ others) = untypedPaths columns ++ untypedPaths others := by
  simp [untypedPaths]

/-- The issues are at the columns without a type, in order. -/
def AtUntyped (issues : List Issue) (columns : List (List String × ColumnFacts)) : Prop :=
  issues.map (·.columnPath) = (untypedPaths columns).map some

theorem AtUntyped.append
    {issues others : List Issue} {columns more : List (List String × ColumnFacts)}
    (h : AtUntyped issues columns) (h' : AtUntyped others more) :
    AtUntyped (issues ++ others) (columns ++ more) := by
  unfold AtUntyped at h h' ⊢
  rw [List.map_append, untypedPaths_append, List.map_append, h, h']

variable {lookup : Lookup (StateT TableCache (StateM σ))}

theorem atUntyped_enrichFacts
    (above : List String) (hdefers : f.DefersToTable) :
    Always (fun outcome => AtUntyped outcome.2.issues [(above ++ [f.name], outcome.1)] ∧
        outcome.1.name = f.name)
      (enrichFacts lookup procedure (pathPrefix above ++ f.name) inJson f) := by
  have hsettle : ∀ columns,
      let outcome := settle procedure (pathPrefix above ++ f.name) inJson columns f
      AtUntyped outcome.2.issues [(above ++ [f.name], outcome.1)] ∧ outcome.1.name = f.name := by
    intro columns
    refine ⟨?_, (isRefining_settle f).name_eq⟩
    rw [AtUntyped, issuePaths_settle hdefers, map_untypedPaths_cons, pathPrefix_append]
    exact (List.append_nil _).symm
  unfold enrichFacts
  split
  · exact always_pure (hsettle none)
  · exact (always_true _).bind fun columns _ => always_pure (hsettle columns)

mutual

theorem atUntyped_enrichColumn
    (above : List String) (inJson : Bool) {c : Column} (hdefers : c.DefersToTables) :
    Always (fun outcome => AtUntyped outcome.2.issues (outcome.1.walkNamed above) ∧
        outcome.1.facts.name = c.facts.name)
      (enrichColumn lookup procedure (pathPrefix above ++ c.facts.name) inJson c) := by
  cases c with
  | node facts children =>
    have hchildren := atUntyped_enrichColumns (above ++ [facts.name]) true hdefers.children
    rw [enrichColumn]
    refine (atUntyped_enrichFacts above hdefers.facts).bind ?_
    rintro ⟨own, notes⟩ ⟨hown, hname⟩
    have hparent : pathPrefix above ++ facts.name ++ "." = pathPrefix (above ++ [facts.name]) := by
      rw [pathPrefix_append, pathPrefix, if_neg (by simp)]
    rw [Column.facts_node, hparent]
    refine hchildren.bind ?_
    rintro ⟨children, below⟩ hbelow
    apply always_pure
    refine ⟨?_, hname⟩
    dsimp only at hown hname hbelow ⊢
    rw [Column.walkNamed, hname]
    exact hown.append hbelow

theorem atUntyped_enrichColumns
    (above : List String) (inJson : Bool) {cs : List Column}
    (hdefers : ∀ c ∈ cs, c.DefersToTables) :
    Always (fun outcome => AtUntyped outcome.2.issues (Column.walkNamedAll above outcome.1))
      (enrichColumns lookup procedure (pathPrefix above) inJson cs) := by
  cases cs with
  | nil =>
    rw [enrichColumns]
    exact always_pure rfl
  | cons c cs =>
    obtain ⟨hfirst, hothers⟩ := List.forall_mem_cons.mp hdefers
    have hcs := atUntyped_enrichColumns above inJson hothers
    rw [enrichColumns]
    refine (atUntyped_enrichColumn above inJson hfirst).bind ?_
    rintro ⟨one, notes⟩ ⟨hone, -⟩
    refine hcs.bind ?_
    rintro ⟨rest, others⟩ hrest
    exact always_pure (hone.append hrest)

end

theorem atUntyped_enrichSets {sets : List ResultSet} (hdefers : ∀ s ∈ sets, s.DefersToTables) :
    Always (fun outcome => AtUntyped outcome.2.issues
        (outcome.1.flatMap fun s => Column.walkNamedAll [] s.columns))
      (enrichSets lookup procedure sets) := by
  induction sets with
  | nil => exact always_pure rfl
  | cons s sets ih =>
    obtain ⟨hfirst, hothers⟩ := List.forall_mem_cons.mp hdefers
    rw [enrichSets]
    refine (atUntyped_enrichColumns [] s.returnsJson hfirst).bind ?_
    rintro ⟨columns, notes⟩ hcolumns
    refine (ih hothers).bind ?_
    rintro ⟨rest, others⟩ hrest
    apply always_pure
    rw [List.flatMap_cons]
    exact hcolumns.append hrest

end Enrichment

/-- The issues of an enrichment of an analyzed definition stand at the columns that it leaves
without a type, one at each and in their order, whatever the provider of tables answers and what it
goes by. -/
theorem Analysis.issuePaths_enrich_ofDefinition
    {σ : Type} (provider : Enrichment.Lookup (StateM σ)) (tables : TableCache) (state : σ)
    (descriptor : Descriptor) (definition : String) :
    let outcome := (((ofDefinition descriptor definition).enrich
      (Enrichment.enricher provider)).run tables).run state
    outcome.1.1.2.issues.map (·.columnPath) = outcome.1.1.1.content.untypedPaths.map some := by
  have h : Enrichment.Always (fun outcome => Enrichment.AtUntyped outcome.2.issues
      (outcome.1.content.resultSets.flatMap fun s => Column.walkNamedAll [] s.columns))
      ((ofDefinition descriptor definition).enrich (Enrichment.enricher provider)) := by
    refine (Enrichment.atUntyped_enrichSets
      (defersToTables_ofDefinition descriptor definition)).bind ?_
    rintro ⟨sets, notes⟩ hsets
    exact Enrichment.always_pure hsets
  exact h tables state

end SqlSnapshot
