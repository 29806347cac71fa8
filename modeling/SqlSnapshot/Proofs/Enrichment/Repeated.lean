import SqlSnapshot.Proofs.Enrichment.Enricher
import SqlSnapshot.Proofs.Outcome

/-!
# Enriching twice

A rule is idempotent when it has nothing to change in the facts that it leaves, and raises its
issues again.  Rules in sequence are idempotent when each is and a later one does not give an
earlier one something to change; every rule only refines the type of a column, which is why none
does.  What holds of one column is carried over a tree of columns and over an analysis.
-/

namespace SqlSnapshot

namespace ColumnFacts

variable {f g : ColumnFacts} {sqlType : String} {length : Option Int} {nullable : Bool}

theorem hasType_withType :
    (f.withType sqlType length nullable).hasType sqlType length nullable = true := by
  simp [hasType, withType]

theorem withType_of_hasType (h : f.hasType sqlType length nullable = true) :
    f.withType sqlType length nullable = f := by
  simp only [hasType, Bool.and_eq_true, beq_iff_eq] at h
  obtain ⟨⟨htype, hlength⟩, hnullable⟩ := h
  rw [withType, ← htype, ← hlength, ← hnullable]

/-- `g` is `f` with another type, and as much is known of it as of `f`. -/
structure Refines (f g : ColumnFacts) : Prop where
  eq : g = { f with sqlType := g.sqlType, maxLength := g.maxLength, isNullable := g.isNullable }
  typed : f.sqlType.isSome → g.sqlType.isSome
  forced : f.forcedNullable = some true → f.isNullable = some true → g.isNullable = some true

namespace Refines

theorem refl (f : ColumnFacts) : Refines f f :=
  ⟨rfl, id, fun _ => id⟩

theorem isJsonContainer_eq (h : Refines f g) : g.isJsonContainer = f.isJsonContainer := by
  rw [h.eq]
  rfl

theorem isCast_eq (h : Refines f g) : g.isCast = f.isCast := by
  rw [h.eq]
  rfl

theorem castTarget_eq (h : Refines f g) : g.castTarget = f.castTarget := by
  rw [h.eq]

theorem forcedNullable_eq (h : Refines f g) : g.forcedNullable = f.forcedNullable := by
  rw [h.eq]

theorem name_eq (h : Refines f g) : g.name = f.name := by
  rw [h.eq]

theorem hasSourceBinding_eq (h : Refines f g) : g.hasSourceBinding = f.hasSourceBinding := by
  rw [h.eq]
  rfl

theorem tableBinding?_eq (h : Refines f g) : g.tableBinding? = f.tableBinding? := by
  rw [h.eq]
  rfl

theorem trans {k : ColumnFacts} (h : Refines f g) (h' : Refines g k) : Refines f k where
  eq := by
    rw [h'.eq, h.eq]
  typed hf := h'.typed (h.typed hf)
  forced hforced hf := h'.forced (by rw [h.forcedNullable_eq, hforced]) (h.forced hforced hf)

end Refines

end ColumnFacts

theorem ColumnFacts.tableBinding?_of_unbound
    {f : ColumnFacts} (h : f.hasSourceBinding = false) : f.tableBinding? = none := by
  unfold tableBinding?
  unfold hasSourceBinding at h
  split
  · rfl
  · cases hschema : f.sourceSchema <;> cases htable : f.sourceTable <;>
      cases hcolumn : f.sourceColumn <;> simp_all

/-- No table types a cast. -/
theorem ColumnFacts.isCast_of_tableBinding?
    {f : ColumnFacts} {binding : TableBinding} (h : f.tableBinding? = some binding) :
    f.isCast = false := by
  unfold tableBinding? at h
  split at h
  · cases h
  · rename_i hnot
    have hparts : f.isCast = false ∧ f.isJsonContainer = false := by simpa using hnot
    exact hparts.1

namespace Enrichment

open ColumnFacts

variable {f : ColumnFacts} {procedure path : String} {inJson : Bool}
  {columns : Option (List TableColumn)} {r s : Rule}

/-! ## Rules -/

/-- The rule has nothing to change in the facts, and raises the issues. -/
def Rule.Leaves (r : Rule) (f : ColumnFacts) (issues : List Issue) : Prop :=
  r f = (f, { issues })

def Rule.IsIdempotent (r : Rule) : Prop :=
  ∀ f : ColumnFacts, r.Leaves (r f).1 (r f).2.issues

def Rule.IsRefining (r : Rule) : Prop :=
  ∀ f : ColumnFacts, f.Refines (r f).1

theorem Rule.Leaves.andThen {is js : List Issue} (hr : r.Leaves f is) (hs : s.Leaves f js) :
    (r.andThen s).Leaves f (is ++ js) := by
  rw [Leaves] at hr hs ⊢
  rw [Rule.andThen, hr]
  dsimp only
  rw [hs]
  rfl

theorem Rule.IsRefining.andThen (hr : r.IsRefining) (hs : s.IsRefining) :
    (r.andThen s).IsRefining :=
  fun f => (hr f).trans (hs (r f).1)

theorem setType_eq (sqlType : String) (length : Option Int) (nullable : Bool) (f : ColumnFacts) :
    setType sqlType length nullable f =
      (f.withType sqlType length nullable, { changed := !f.hasType sqlType length nullable }) := by
  unfold setType
  split
  · rename_i h
    rw [withType_of_hasType h, h]
    rfl
  · rename_i h
    simp [h]

theorem setType_of_hasType {sqlType : String} {length : Option Int} {nullable : Bool}
    (h : f.hasType sqlType length nullable = true) :
    setType sqlType length nullable f = (f, {}) := by
  rw [setType, if_pos h]

theorem refines_withType {sqlType : String} {length : Option Int} {nullable : Bool}
    (h : f.forcedNullable = some true → f.isNullable = some true → nullable = true) :
    f.Refines (f.withType sqlType length nullable) where
  eq := rfl
  typed _ := rfl
  forced hforced hnullable := congrArg some (h hforced hnullable)

theorem refines_setPayload (f : ColumnFacts) : f.Refines (setPayload f).1 := by
  rw [setPayload, setType_eq]
  exact refines_withType fun _ _ => rfl

/-! ### JSON documents -/

theorem documentRule_leaves (h : f.isJsonContainer = true → f.sqlType.isSome) :
    documentRule.Leaves f [] := by
  unfold Rule.Leaves documentRule
  cases hjson : f.isJsonContainer with
  | false => rfl
  | true =>
    have htyped : f.sqlType.isNone = false := by
      simpa [Option.isNone_eq_false_iff] using h hjson
    rw [htyped]
    rfl

theorem isRefining_documentRule : documentRule.IsRefining := by
  intro f
  unfold documentRule
  split
  · exact refines_setPayload f
  · exact .refl f

theorem isSome_sqlType_documentRule
    (h : (documentRule f).1.isJsonContainer = true) : (documentRule f).1.sqlType.isSome := by
  rw [(isRefining_documentRule f).isJsonContainer_eq] at h
  unfold documentRule
  rw [h, Bool.true_and]
  split
  · rw [setPayload, setType_eq]
    rfl
  · rename_i htyped
    simpa [Option.isSome_iff_ne_none] using htyped

/-! ### Outer joins -/

theorem outerJoinRule_leaves (h : f.forcedNullable = some true → f.isNullable = some true) :
    outerJoinRule.Leaves f [] := by
  unfold Rule.Leaves outerJoinRule
  by_cases hforced : f.forcedNullable = some true
  · simp [hforced, h hforced]
  · simp [hforced]

theorem isRefining_outerJoinRule : outerJoinRule.IsRefining := by
  intro f
  unfold outerJoinRule
  split
  · exact ⟨rfl, id, fun _ _ => rfl⟩
  · exact .refl f

theorem isNullable_outerJoinRule (h : (outerJoinRule f).1.forcedNullable = some true) :
    (outerJoinRule f).1.isNullable = some true := by
  rw [(isRefining_outerJoinRule f).forcedNullable_eq] at h
  unfold outerJoinRule
  split
  · rfl
  · rename_i hnullable
    simpa [h] using hnullable

/-! ### Casts and tables -/

theorem castRule_none (h : f.castTarget = none) : castRule f = (f, {}) := by
  rw [castRule, h]

theorem fst_castRule_some {target : String} (h : f.castTarget = some target) :
    (castRule f).1 = f.withType target (typeLength? target) (f.isNullable.getD false) := by
  rw [castRule, h]
  dsimp only
  rw [setType_eq]

theorem issues_castRule (f : ColumnFacts) : (castRule f).2.issues = [] := by
  cases h : f.castTarget with
  | none => rw [castRule_none h]
  | some target =>
    rw [castRule, h]
    dsimp only
    rw [setType_eq]

theorem castRule_leaves {target : String} (h : f.castTarget = some target)
    (htype : f.hasType target (typeLength? target) (f.isNullable.getD false) = true) :
    castRule.Leaves f [] := by
  rw [Rule.Leaves, castRule, h]
  dsimp only
  rw [setType_of_hasType htype]
  rfl

theorem isRefining_castRule : castRule.IsRefining := by
  intro f
  cases h : f.castTarget with
  | none =>
    rw [castRule_none h]
    exact .refl f
  | some target =>
    rw [fst_castRule_some h]
    apply refines_withType
    intro _ hnullable
    rw [hnullable]
    rfl

theorem isIdempotent_castRule : castRule.IsIdempotent := by
  intro f
  rw [issues_castRule]
  cases h : f.castTarget with
  | none =>
    rw [castRule_none h]
    exact castRule_none h
  | some target =>
    rw [fst_castRule_some h]
    exact castRule_leaves h hasType_withType

/-- The table's column, if the table is known and has it. -/
def boundColumn? (columns : Option (List TableColumn)) (binding : TableBinding) :
    Option TableColumn :=
  columns.bind (Table.column? · binding.column)

variable {binding : TableBinding} {column : TableColumn}

theorem tableRule_of_missing
    (procedure path : String) (h : boundColumn? columns binding = none) :
    ∃ issue : Issue, issue.columnPath = some path ∧
      ∀ f, tableRule procedure path binding columns f = (f, .ofIssue issue) := by
  cases columns with
  | none =>
    exact ⟨.unknownTable binding.schema binding.table procedure path, rfl, fun f => rfl⟩
  | some columns =>
    have hcolumn : Table.column? columns binding.column = none := h
    refine ⟨.unknownTableColumn binding.schema binding.table binding.column procedure path, rfl,
      fun f => ?_⟩
    rw [tableRule]
    dsimp only
    rw [hcolumn]

/-- The facts with the type of the table's column. -/
def typed (column : TableColumn) (f : ColumnFacts) : ColumnFacts :=
  f.withType column.sqlTypeName column.charLength
    (column.isNullable || f.forcedNullable == some true)

theorem tableRule_of_found
    (procedure path : String) (h : boundColumn? columns binding = some column)
    (f : ColumnFacts) :
    (tableRule procedure path binding columns f).1 = typed column f ∧
      (tableRule procedure path binding columns f).2.issues = [] := by
  obtain ⟨columns, rfl, hcolumn⟩ := Option.bind_eq_some_iff.mp h
  rw [tableRule]
  dsimp only
  rw [hcolumn]
  dsimp only
  rw [setType_eq]
  dsimp only
  split <;> exact ⟨rfl, rfl⟩

theorem tableRule_typed
    (procedure path : String) (h : boundColumn? columns binding = some column)
    (f : ColumnFacts) :
    tableRule procedure path binding columns (typed column f) = (typed column f, {}) := by
  obtain ⟨columns, rfl, hcolumn⟩ := Option.bind_eq_some_iff.mp h
  have htype : (typed column f).hasType column.sqlTypeName column.charLength
      (column.isNullable || (typed column f).forcedNullable == some true) = true :=
    hasType_withType
  rw [tableRule]
  dsimp only
  rw [hcolumn]
  dsimp only
  rw [setType_of_hasType htype]
  rfl

theorem isRefining_tableRule : (tableRule procedure path binding columns).IsRefining := by
  intro f
  cases h : boundColumn? columns binding with
  | none =>
    obtain ⟨issue, -, heq⟩ := tableRule_of_missing procedure path h
    rw [heq]
    exact .refl f
  | some column =>
    rw [(tableRule_of_found procedure path h f).1]
    apply refines_withType
    intro hforced _
    simp [hforced]

theorem isIdempotent_tableRule : (tableRule procedure path binding columns).IsIdempotent := by
  intro f
  cases h : boundColumn? columns binding with
  | none =>
    obtain ⟨issue, -, heq⟩ := tableRule_of_missing procedure path h
    rw [heq]
    exact heq f
  | some column =>
    obtain ⟨hfacts, hissues⟩ := tableRule_of_found procedure path h f
    rw [hfacts, hissues]
    exact tableRule_typed procedure path h f

theorem evidenceRule_of_isCast (h : f.isCast = true) :
    evidenceRule procedure path columns f = castRule f := by
  rw [evidenceRule, if_pos h]

theorem evidenceRule_of_bound (h : f.tableBinding? = some binding) :
    evidenceRule procedure path columns f = tableRule procedure path binding columns f := by
  have hcast := isCast_of_tableBinding? h
  rw [evidenceRule, if_neg (by simp [hcast]), h]

theorem evidenceRule_of_unbound (hcast : f.isCast = false) (h : f.tableBinding? = none) :
    evidenceRule procedure path columns f = (f, {}) := by
  rw [evidenceRule, if_neg (by simp [hcast]), h]

theorem isRefining_evidenceRule : (evidenceRule procedure path columns).IsRefining := by
  intro f
  unfold evidenceRule
  split
  · exact isRefining_castRule f
  · split
    · exact .refl f
    · exact isRefining_tableRule f

theorem isIdempotent_evidenceRule : (evidenceRule procedure path columns).IsIdempotent := by
  intro f
  have hrefines : f.Refines (evidenceRule procedure path columns f).1 := isRefining_evidenceRule f
  unfold Rule.Leaves
  cases hcast : f.isCast with
  | true =>
    rw [evidenceRule_of_isCast (hrefines.isCast_eq.trans hcast), evidenceRule_of_isCast hcast]
    exact isIdempotent_castRule f
  | false =>
    cases hbinding : f.tableBinding? with
    | none =>
      have heq : evidenceRule procedure path columns f = (f, {}) :=
        evidenceRule_of_unbound hcast hbinding
      rw [heq]
      exact heq
    | some binding =>
      rw [evidenceRule_of_bound (hrefines.tableBinding?_eq.trans hbinding),
        evidenceRule_of_bound hbinding]
      exact isIdempotent_tableRule f

/-! ### What is left -/

/-- Nothing types the column: no table, and neither its own text nor its being a document. -/
def isBare (f : ColumnFacts) : Bool :=
  !f.isJsonContainer && f.sqlType.isNone && !f.hasSourceBinding

theorem remainderRule_of_not_isBare (h : isBare f = false) :
    remainderRule procedure path inJson f = (f, {}) := by
  unfold isBare at h
  simp [remainderRule, h]

theorem remainderRule_of_isBare (h : isBare f = true) :
    remainderRule procedure path inJson f =
      if inJson then setPayload f else (f, .ofIssue (.unresolvedColumnType procedure path)) := by
  unfold isBare at h
  simp [remainderRule, h]

theorem isRefining_remainderRule : (remainderRule procedure path inJson).IsRefining := by
  intro f
  unfold remainderRule
  split
  · split
    · exact refines_setPayload f
    · exact .refl f
  · exact .refl f

theorem isIdempotent_remainderRule : (remainderRule procedure path inJson).IsIdempotent := by
  intro f
  unfold Rule.Leaves
  cases hbare : isBare f with
  | false =>
    rw [remainderRule_of_not_isBare hbare]
    exact remainderRule_of_not_isBare hbare
  | true =>
    rw [remainderRule_of_isBare hbare]
    cases inJson with
    | false =>
      simp only [Bool.false_eq_true, if_false]
      rw [remainderRule_of_isBare hbare]
      rfl
    | true =>
      simp only [if_true]
      rw [setPayload, setType_eq]
      apply remainderRule_of_not_isBare
      simp [isBare, withType]

/-- Where something is left after the evidence, there was none. -/
theorem evidenceRule_leaves_setPayload {issues : List Issue}
    (h : (evidenceRule procedure path columns).Leaves f issues) (hbare : isBare f = true) :
    (evidenceRule procedure path columns).Leaves (setPayload f).1 issues := by
  have hrefines := refines_setPayload f
  simp only [isBare, Bool.and_eq_true, Bool.not_eq_true', Option.isNone_iff_eq_none] at hbare
  obtain ⟨⟨-, huntyped⟩, hunbound⟩ := hbare
  unfold Rule.Leaves at h ⊢
  cases hcast : f.isCast with
  | true =>
    rw [evidenceRule_of_isCast hcast] at h
    rw [evidenceRule_of_isCast (hrefines.isCast_eq.trans hcast)]
    cases htarget : f.castTarget with
    | none =>
      rw [castRule_none htarget] at h
      rw [castRule_none (hrefines.castTarget_eq.trans htarget)]
      exact congrArg (Prod.mk _) (congrArg Prod.snd h)
    | some target =>
      -- a cast with a target would have typed the column
      have hfacts := congrArg (fun outcome => outcome.1.sqlType) h
      dsimp only at hfacts
      rw [fst_castRule_some htarget, huntyped] at hfacts
      cases hfacts
  | false =>
    have hbinding : f.tableBinding? = none := tableBinding?_of_unbound hunbound
    rw [evidenceRule_of_unbound hcast hbinding] at h
    rw [evidenceRule_of_unbound (hrefines.isCast_eq.trans hcast)
      (hrefines.tableBinding?_eq.trans hbinding)]
    exact congrArg (Prod.mk _) (congrArg Prod.snd h)

theorem evidenceRule_leaves_remainderRule {issues : List Issue}
    (h : (evidenceRule procedure path columns).Leaves f issues) :
    (evidenceRule procedure path columns).Leaves (remainderRule procedure path inJson f).1
      issues := by
  cases hbare : isBare f with
  | false =>
    rw [remainderRule_of_not_isBare hbare]
    exact h
  | true =>
    rw [remainderRule_of_isBare hbare]
    split
    · exact evidenceRule_leaves_setPayload h hbare
    · exact h

/-! ### All rules -/

theorem isRefining_settle : (settle procedure path inJson columns).IsRefining :=
  ((isRefining_documentRule.andThen isRefining_outerJoinRule).andThen
    isRefining_evidenceRule).andThen isRefining_remainderRule

theorem issues_settle (f : ColumnFacts) :
    (settle procedure path inJson columns f).2.issues =
      (evidenceRule procedure path columns (outerJoinRule (documentRule f).1).1).2.issues ++
        (remainderRule procedure path inJson
          (evidenceRule procedure path columns
            (outerJoinRule (documentRule f).1).1).1).2.issues := by
  have hdocument : (documentRule f).2.issues = [] := by
    unfold documentRule
    split
    · rw [setPayload, setType_eq]
    · rfl
  have houter : (outerJoinRule (documentRule f).1).2.issues = [] := by
    unfold outerJoinRule
    split <;> rfl
  change ((documentRule f).2.issues ++ (outerJoinRule (documentRule f).1).2.issues ++ _) ++ _ = _
  rw [hdocument, houter]
  rfl

/-- Settling what is settled changes nothing and raises the same issues. -/
theorem isIdempotent_settle : (settle procedure path inJson columns).IsIdempotent := by
  intro f
  rw [issues_settle]
  let document := (documentRule f).1
  let joined := (outerJoinRule document).1
  let evident := (evidenceRule procedure path columns joined).1
  let settled := (remainderRule procedure path inJson evident).1
  have hevident : evident.Refines settled := isRefining_remainderRule evident
  have hjoined : joined.Refines settled := (isRefining_evidenceRule joined).trans hevident
  have hdocument : document.Refines settled := (isRefining_outerJoinRule document).trans hjoined
  have first : documentRule.Leaves settled [] := by
    apply documentRule_leaves
    intro hjson
    rw [hdocument.isJsonContainer_eq] at hjson
    exact hdocument.typed (isSome_sqlType_documentRule hjson)
  have second : outerJoinRule.Leaves settled [] := by
    apply outerJoinRule_leaves
    intro hforced
    rw [hjoined.forcedNullable_eq] at hforced
    exact hjoined.forced hforced (isNullable_outerJoinRule hforced)
  have third : (evidenceRule procedure path columns).Leaves settled
      (evidenceRule procedure path columns joined).2.issues :=
    evidenceRule_leaves_remainderRule (isIdempotent_evidenceRule joined)
  have fourth : (remainderRule procedure path inJson).Leaves settled
      (remainderRule procedure path inJson evident).2.issues :=
    isIdempotent_remainderRule evident
  exact ((first.andThen second).andThen third).andThen fourth

/-! ## Columns -/

variable {ε : Type} {provider : Lookup (Except ε)}

theorem enrichFacts_again
    {g : ColumnFacts} {notes : EnrichmentNotes}
    (h : enrichFacts provider procedure path inJson f = .ok (g, notes)) :
    enrichFacts provider procedure path inJson g = .ok (g, { issues := notes.issues }) ∧
      g.name = f.name := by
  have key : ∀ columns, settle procedure path inJson columns f = (g, notes) →
      settle procedure path inJson columns g = (g, { issues := notes.issues }) ∧ f.Refines g := by
    intro columns hsettle
    have hagain : (settle procedure path inJson columns).Leaves
        (settle procedure path inJson columns f).1
        (settle procedure path inJson columns f).2.issues := isIdempotent_settle f
    have hrefines : f.Refines (settle procedure path inJson columns f).1 := isRefining_settle f
    rw [hsettle] at hagain hrefines
    exact ⟨hagain, hrefines⟩
  unfold enrichFacts at h ⊢
  cases hbinding : f.tableBinding? with
  | none =>
    rw [hbinding] at h
    obtain ⟨hagain, hrefines⟩ := key none (Except.ok.inj h)
    rw [hrefines.tableBinding?_eq, hbinding]
    exact ⟨congrArg Except.ok hagain, hrefines.name_eq⟩
  | some binding =>
    rw [hbinding] at h
    obtain ⟨columns, hlookup, hsettle⟩ := exists_of_bind_eq_ok h
    obtain ⟨hagain, hrefines⟩ := key columns (Except.ok.inj hsettle)
    rw [hrefines.tableBinding?_eq, hbinding]
    dsimp only
    rw [hlookup]
    exact ⟨congrArg Except.ok hagain, hrefines.name_eq⟩

mutual

theorem enrichColumn_again
    {path : String} {inJson : Bool} {c d : Column} {notes : EnrichmentNotes}
    (h : enrichColumn provider procedure path inJson c = .ok (d, notes)) :
    enrichColumn provider procedure path inJson d = .ok (d, { issues := notes.issues }) ∧
      d.facts.name = c.facts.name := by
  cases c with
  | node facts children =>
    rw [enrichColumn] at h
    obtain ⟨⟨own, first⟩, hown, hrest⟩ := exists_of_bind_eq_ok h
    obtain ⟨⟨below, second⟩, hbelow, hrest⟩ := exists_of_bind_eq_ok hrest
    have hbelow' := enrichColumns_again hbelow
    obtain ⟨hown', hname⟩ := enrichFacts_again hown
    cases hrest
    refine ⟨?_, hname⟩
    rw [enrichColumn, hown', ok_bind, hbelow']
    rfl

theorem enrichColumns_again
    {parent : String} {inJson : Bool} {cs ds : List Column} {notes : EnrichmentNotes}
    (h : enrichColumns provider procedure parent inJson cs = .ok (ds, notes)) :
    enrichColumns provider procedure parent inJson ds = .ok (ds, { issues := notes.issues }) := by
  cases cs with
  | nil =>
    rw [enrichColumns] at h
    cases h
    rw [enrichColumns]
    rfl
  | cons c cs =>
    rw [enrichColumns] at h
    obtain ⟨⟨one, first⟩, hone, hrest⟩ := exists_of_bind_eq_ok h
    obtain ⟨⟨others, second⟩, hothers, hrest⟩ := exists_of_bind_eq_ok hrest
    obtain ⟨hone', hname⟩ := enrichColumn_again hone
    have hothers' := enrichColumns_again hothers
    cases hrest
    rw [enrichColumns, hname, hone', ok_bind, hothers']
    rfl

end

theorem enrichSets_again
    {sets enriched : List ResultSet} {notes : EnrichmentNotes}
    (h : enrichSets provider procedure sets = .ok (enriched, notes)) :
    enrichSets provider procedure enriched = .ok (enriched, { issues := notes.issues }) := by
  induction sets generalizing enriched notes with
  | nil =>
    cases h
    rfl
  | cons set sets ih =>
    rw [enrichSets] at h
    obtain ⟨⟨columns, first⟩, hcolumns, hrest⟩ := exists_of_bind_eq_ok h
    obtain ⟨⟨others, second⟩, hothers, hrest⟩ := exists_of_bind_eq_ok hrest
    cases hrest
    rw [enrichSets, enrichColumns_again hcolumns, ok_bind]
    rw [ih hothers]
    rfl

theorem enrich_again
    {a enriched : Analysis} {notes : EnrichmentNotes}
    (h : a.enrich provider = .ok (enriched, notes)) :
    enriched.enrich provider = .ok (enriched, { issues := notes.issues }) := by
  obtain ⟨⟨sets, found⟩, hsets, hrest⟩ := exists_of_bind_eq_ok h
  cases hrest
  rw [Analysis.enrich, enrichSets_again hsets]
  rfl

end Enrichment

open Enrichment

/-- Enriching what an enricher has enriched, by the same enricher or a new one, succeeds, changes
nothing and raises the same issues.  The enricher may have been in use before; what it remembers of
then are answers of its provider. -/
theorem Analysis.enrich_enriched
    {ε : Type} {provider : Lookup (Except ε)} (hprovider : provider.IsConsistent)
    {tables later : TableCache} (htables : provider.Answered tables)
    {a enriched : Analysis} {notes : EnrichmentNotes}
    (h : (a.enrich (enricher provider)).run tables = .ok ((enriched, notes), later)) :
    ∀ start ∈ [later, []], ∃ last,
      (enriched.enrich (enricher provider)).run start =
        .ok ((enriched, { changed := false, counts := ⟨0, 0, 0⟩, issues := notes.issues }),
          last) := by
  intro start hstart
  have hanswered : provider.Answered start := by
    simp only [List.mem_cons, List.not_mem_nil, or_false] at hstart
    rcases hstart with rfl | rfl
    · exact hprovider.answered_run_enrich htables h
    · exact Lookup.answered_nil
  have hfirst : a.enrich provider = .ok (enriched, notes) := by
    rw [← hprovider.map_run_enrich htables, h]
    rfl
  have hagain := hprovider.map_run_enrich hanswered enriched
  rw [enrich_again hfirst] at hagain
  cases hrun : (enriched.enrich (enricher provider)).run start with
  | error e =>
    rw [hrun] at hagain
    cases hagain
  | ok outcome =>
    rw [hrun] at hagain
    exact ⟨outcome.2, by rw [← Except.ok.inj hagain]⟩

/-- A provider that knows one table, by any spelling of its name. -/
def Enrichment.sampleProvider : Lookup (Except Unit) := fun schema table =>
  if objectKey schema table = "dbo.users" then
    .ok (some [{
      name := "Id"
      typeName := "int"
      maxLength := some 4
      precision := none
      scale := none
      isNullable := false }])
  else .ok none

theorem Enrichment.isConsistent_sampleProvider : sampleProvider.IsConsistent := by
  intro schema table schema' table' h
  rw [sampleProvider, h]
  rfl

/-- A column from an outer join, a computed one, and a document with a computed one inside. -/
def Analysis.sample : Analysis where
  descriptor := ⟨"dbo", "Report"⟩
  content := {
    resultSets := [{
      columns := [
        .leaf {
          name := "Id"
          kind := .columnRef
          sourceSchema := some "dbo"
          sourceTable := some "Users"
          sourceColumn := some "id"
          forcedNullable := some true },
        .leaf { name := "Total" },
        .node { name := "Items", kind := .nestedJson } [.leaf { name := "Count" }]] }] }

theorem Analysis.enrich_enriched_sample :
    ∃ enriched notes later last,
      (sample.enrich (enricher sampleProvider)).run [] = .ok ((enriched, notes), later) ∧
      notes.changed = true ∧ notes.issues.map (·.columnPath) = [some "Total"] ∧
      (enriched.enrich (enricher sampleProvider)).run later =
        .ok ((enriched, { changed := false, counts := ⟨0, 0, 0⟩, issues := notes.issues }),
          last) := by
  have hfirst : ∃ enriched notes later,
      (sample.enrich (enricher sampleProvider)).run [] = .ok ((enriched, notes), later) ∧
      notes.changed = true ∧ notes.issues.map (·.columnPath) = [some "Total"] := by
    refine ⟨_, _, _, rfl, ?_, ?_⟩
    · decide +kernel
    · decide +kernel
  obtain ⟨enriched, notes, later, hrun, hchanged, hissues⟩ := hfirst
  obtain ⟨last, hagain⟩ := enrich_enriched isConsistent_sampleProvider Lookup.answered_nil hrun
    later List.mem_cons_self
  exact ⟨enriched, notes, later, last, hrun, hchanged, hissues, hagain⟩

end SqlSnapshot
