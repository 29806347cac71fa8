import SqlSnapshot.Proofs.Enrichment.Priority

/-!
# What enrichment changes

Enrichment changes nothing but the types of columns, and notes a change exactly where there is one.
Every rule notes its own changes, but a later rule might undo them.  It does not: the rules before
the evidence and after it only type what had no type and make nullable what is forced to be, and no
rule takes either back.
-/

namespace SqlSnapshot

/-! ## All but types -/

def ColumnFacts.withoutType (f : ColumnFacts) : ColumnFacts :=
  { f with sqlType := none, maxLength := none, isNullable := none }

mutual

/-- The column and all below it without their types. -/
def Column.withoutTypes : Column → Column
  | .node facts children => .node facts.withoutType (withoutTypesAll children)

def Column.withoutTypesAll : List Column → List Column
  | [] => []
  | c :: cs => c.withoutTypes :: withoutTypesAll cs

end

def ResultSet.withoutTypes (s : ResultSet) : ResultSet :=
  { s with columns := Column.withoutTypesAll s.columns }

/-- The analysis with everything but the types of its columns. -/
def Analysis.withoutTypes (a : Analysis) : Analysis :=
  { a with content := { a.content with resultSets := a.content.resultSets.map (·.withoutTypes) } }

theorem ColumnFacts.Refines.withoutType_eq {f g : ColumnFacts} (h : f.Refines g) :
    g.withoutType = f.withoutType := by
  rw [h.eq]
  rfl

/-- `g` has a type where `f` had none, or is nullable where `f` was forced to be and was not. -/
def ColumnFacts.Gains (f g : ColumnFacts) : Prop :=
  f.sqlType = none ∧ g.sqlType.isSome ∨
    f.forcedNullable = some true ∧ f.isNullable ≠ some true ∧ g.isNullable = some true

namespace ColumnFacts.Gains

variable {f g k : ColumnFacts}

theorem ne (h : Gains f g) : g ≠ f := by
  rintro rfl
  rcases h with ⟨huntyped, htyped⟩ | ⟨-, hnot, hnullable⟩
  · rw [huntyped] at htyped
    cases htyped
  · exact hnot hnullable

/-- No rule takes back what was gained. -/
theorem kept (hrefines : f.Refines g) (h : Gains f g) (hlater : g.Refines k) : Gains f k := by
  rcases h with ⟨huntyped, htyped⟩ | ⟨hforced, hnot, hnullable⟩
  · exact .inl ⟨huntyped, hlater.typed htyped⟩
  · exact .inr ⟨hforced, hnot, hlater.forced (hrefines.forcedNullable_eq.trans hforced) hnullable⟩

/-- What is gained later was not there before. -/
theorem since (hrefines : f.Refines g) (h : Gains g k) : Gains f k := by
  rcases h with ⟨huntyped, htyped⟩ | ⟨hforced, hnot, hnullable⟩
  · refine .inl ⟨?_, htyped⟩
    cases hf : f.sqlType with
    | none => rfl
    | some sqlType =>
      have hkept : g.sqlType.isSome := hrefines.typed (by rw [hf]; rfl)
      rw [huntyped] at hkept
      cases hkept
  · have hforced' : f.forcedNullable = some true := hrefines.forcedNullable_eq.symm.trans hforced
    exact .inr ⟨hforced', fun hf => hnot (hrefines.forced hforced' hf), hnullable⟩

end ColumnFacts.Gains

namespace Enrichment

open ColumnFacts

variable {r s : Rule} {f : ColumnFacts} {procedure path : String} {inJson : Bool}
  {columns : Option (List TableColumn)}

/-! ## Rules -/

/-- The rule notes a change exactly where it changes the facts. -/
def Rule.TellsChanges (r : Rule) : Prop :=
  ∀ f : ColumnFacts, (r f).2.changed = true ↔ (r f).1 ≠ f

/-- All that the rule changes, it gains. -/
def Rule.IsGaining (r : Rule) : Prop :=
  ∀ f : ColumnFacts, (r f).1 = f ∨ f.Gains (r f).1

theorem Rule.TellsChanges.andThen
    (hr : r.TellsChanges) (hs : s.TellsChanges)
    (hkept : ∀ f, (r f).1 ≠ f → (s (r f).1).1 ≠ f) : (r.andThen s).TellsChanges := by
  intro f
  have hchanged : (r.andThen s f).2.changed = ((r f).2.changed || (s (r f).1).2.changed) := rfl
  rw [hchanged, Rule.fst_andThen, Bool.or_eq_true, hr f, hs (r f).1]
  by_cases hsame : (r f).1 = f
  · rw [hsame]
    simp
  · simp [hsame, hkept f hsame]

theorem Rule.IsGaining.ne_of_refining
    (hr : r.IsGaining) (hrefining : r.IsRefining) (hs : s.IsRefining) (f : ColumnFacts)
    (hchanged : (r f).1 ≠ f) : (s (r f).1).1 ≠ f :=
  (((hr f).resolve_left hchanged).kept (hrefining f) (hs (r f).1)).ne

theorem Rule.IsGaining.ne_after_refining
    (hr : r.IsRefining) (hs : s.IsGaining) (f : ColumnFacts)
    (hchanged : (r f).1 ≠ f) : (s (r f).1).1 ≠ f := by
  rcases hs (r f).1 with hsame | hgains
  · rwa [hsame]
  · exact (hgains.since (hr f)).ne

theorem Rule.IsGaining.andThen
    (hr : r.IsGaining) (hs : s.IsGaining) (hrefining : r.IsRefining) (hrefining' : s.IsRefining) :
    (r.andThen s).IsGaining := by
  intro f
  rw [Rule.fst_andThen]
  rcases hr f with hsame | hgains
  · rw [hsame]
    exact hs f
  · exact .inr (hgains.kept (hrefining f) (hrefining' (r f).1))

theorem tellsChanges_setType (sqlType : String) (length : Option Int) (nullable : Bool) :
    (setType sqlType length nullable).TellsChanges := by
  intro f
  rw [setType_eq]
  dsimp only
  rw [Bool.not_eq_true']
  constructor
  · rintro hother heq
    rw [← heq, hasType_withType] at hother
    cases hother
  · intro hne
    rw [← Bool.not_eq_true]
    exact fun hsame => hne (withType_of_hasType hsame)

theorem tells_unchanged {α : Type} (a : α) {issues : List Issue} :
    ((a, ({ issues } : EnrichmentNotes)).2.changed = true) ↔
      (a, ({ issues } : EnrichmentNotes)).1 ≠ a := by
  simp

theorem tellsChanges_documentRule : documentRule.TellsChanges := by
  intro f
  unfold documentRule
  split
  · exact tellsChanges_setType _ _ _ f
  · exact tells_unchanged f

theorem isGaining_documentRule : documentRule.IsGaining := by
  intro f
  unfold documentRule
  split
  · rename_i huntyped
    rw [Bool.and_eq_true, Option.isNone_iff_eq_none] at huntyped
    rw [setPayload, setType_eq]
    exact .inr (.inl ⟨huntyped.2, rfl⟩)
  · exact .inl rfl

theorem isGaining_outerJoinRule : outerJoinRule.IsGaining := by
  intro f
  unfold outerJoinRule
  split
  · rename_i hmissing
    rw [Bool.and_eq_true, beq_iff_eq, bne_iff_ne] at hmissing
    exact .inr (.inr ⟨hmissing.1, hmissing.2, rfl⟩)
  · exact .inl rfl

theorem tellsChanges_outerJoinRule : outerJoinRule.TellsChanges := by
  intro f
  have hgaining := isGaining_outerJoinRule f
  unfold outerJoinRule at hgaining ⊢
  split
  · rename_i hmissing
    rw [if_pos hmissing] at hgaining
    have hnullable : f.isNullable ≠ some true := by
      rw [Bool.and_eq_true, bne_iff_ne] at hmissing
      exact hmissing.2
    have hchanged : { f with isNullable := some true } ≠ f :=
      fun heq => hnullable (congrArg ColumnFacts.isNullable heq).symm
    exact ⟨fun _ => hchanged, fun _ => rfl⟩
  · exact tells_unchanged f

theorem tellsChanges_castRule : castRule.TellsChanges := by
  intro f
  cases h : f.castTarget with
  | none =>
    rw [castRule_none h]
    exact tells_unchanged f
  | some target =>
    rw [castRule, h]
    exact tellsChanges_setType _ _ _ f

theorem tellsChanges_tableRule {binding : TableBinding} :
    (tableRule procedure path binding columns).TellsChanges := by
  intro f
  unfold tableRule
  split
  · exact tells_unchanged f
  · split
    · exact tells_unchanged f
    · dsimp only
      split
      · exact tellsChanges_setType _ _ _ f
      · exact tellsChanges_setType _ _ _ f

theorem tellsChanges_evidenceRule : (evidenceRule procedure path columns).TellsChanges := by
  intro f
  unfold evidenceRule
  split
  · exact tellsChanges_castRule f
  · split
    · exact tells_unchanged f
    · exact tellsChanges_tableRule f

theorem tellsChanges_remainderRule : (remainderRule procedure path inJson).TellsChanges := by
  intro f
  unfold remainderRule
  split
  · split
    · exact tellsChanges_setType _ _ _ f
    · exact tells_unchanged f
  · exact tells_unchanged f

theorem isGaining_remainderRule : (remainderRule procedure path inJson).IsGaining := by
  intro f
  cases hbare : isBare f with
  | false =>
    rw [remainderRule_of_not_isBare hbare]
    exact .inl rfl
  | true =>
    rw [remainderRule_of_isBare hbare]
    simp only [isBare, Bool.and_eq_true, Option.isNone_iff_eq_none] at hbare
    split
    · rw [setPayload, setType_eq]
      exact .inr (.inl ⟨hbare.1.2, rfl⟩)
    · exact .inl rfl

/-- The changes before the evidence outlast it, and those of the evidence outlast what comes after
it. -/
theorem tellsChanges_settle : (settle procedure path inJson columns).TellsChanges := by
  have hrefining : (documentRule.andThen outerJoinRule).IsRefining :=
    isRefining_documentRule.andThen isRefining_outerJoinRule
  have hgaining : (documentRule.andThen outerJoinRule).IsGaining :=
    isGaining_documentRule.andThen isGaining_outerJoinRule isRefining_documentRule
      isRefining_outerJoinRule
  have hbefore : (documentRule.andThen outerJoinRule).TellsChanges :=
    tellsChanges_documentRule.andThen tellsChanges_outerJoinRule
      (isGaining_documentRule.ne_of_refining isRefining_documentRule isRefining_outerJoinRule)
  have hrefined : (evidenceRule procedure path columns).IsRefining := isRefining_evidenceRule
  have hevident := hbefore.andThen tellsChanges_evidenceRule
    (hgaining.ne_of_refining hrefining hrefined)
  exact hevident.andThen tellsChanges_remainderRule
    (Rule.IsGaining.ne_after_refining (hrefining.andThen hrefined) isGaining_remainderRule)

/-! ## Trees of columns -/

variable {columns? : String → String → Option (List TableColumn)}

/-- The notes tell whether the outcome is other than what it was made from, and it is other at most
in types. -/
structure Reports {α β : Type} (withoutTypes : α → β) (before : α) (outcome : α × EnrichmentNotes) :
    Prop where
  same : withoutTypes outcome.1 = withoutTypes before
  tells : outcome.2.changed = true ↔ outcome.1 ≠ before

theorem reports_settle (f : ColumnFacts) :
    Reports withoutType f (settle procedure path inJson columns f) where
  same := (isRefining_settle f).withoutType_eq
  tells := tellsChanges_settle f

theorem reports_enrichFacts (path : String) (inJson : Bool) (f : ColumnFacts) :
    Reports withoutType f (enrichFacts (answering columns?) procedure path inJson f) := by
  unfold enrichFacts
  split
  · exact reports_settle f
  · exact reports_settle f

/-- What is made of two parts, each with its report, has the report of both. -/
theorem Reports.both
    {α β γ α' β' γ' : Type} {onFirst : α → α'} {onSecond : β → β'} {onBoth : γ → γ'}
    (make : α → β → γ)
    (hinj : ∀ a a' b b', make a b = make a' b' → a = a' ∧ b = b')
    (hboth : ∀ a a' b b', onFirst a = onFirst a' → onSecond b = onSecond b' →
      onBoth (make a b) = onBoth (make a' b'))
    {a : α} {b : β} {x : α × EnrichmentNotes} {y : β × EnrichmentNotes}
    (hx : Reports onFirst a x) (hy : Reports onSecond b y) :
    Reports onBoth (make a b) (make x.1 y.1, x.2 ++ y.2) where
  same := hboth _ _ _ _ hx.same hy.same
  tells := by
    have hchanged : (x.2 ++ y.2).changed = (x.2.changed || y.2.changed) := rfl
    rw [hchanged, Bool.or_eq_true, hx.tells, hy.tells]
    constructor
    · rintro (hfirst | hsecond) heq
      · exact hfirst (hinj _ _ _ _ heq).1
      · exact hsecond (hinj _ _ _ _ heq).2
    · intro hne
      by_cases hfirst : x.1 = a
      · refine .inr fun hsecond => hne ?_
        rw [hfirst, hsecond]
      · exact .inl hfirst

mutual

theorem reports_enrichColumn (path : String) (inJson : Bool) (c : Column) :
    Reports Column.withoutTypes c
      (enrichColumn (answering columns?) procedure path inJson c) := by
  cases c with
  | node facts children =>
    have hown : Reports withoutType facts
        (enrichFacts (answering columns?) procedure path inJson facts) :=
      reports_enrichFacts path inJson facts
    have hbelow := reports_enrichColumns (path ++ ".") true children
    rw [enrichColumn]
    refine hown.both Column.node ?_ ?_ hbelow
    · rintro _ _ _ _ ⟨⟩
      exact ⟨rfl, rfl⟩
    · intro _ _ _ _ hfacts hchildren
      rw [Column.withoutTypes, hfacts, hchildren, ← Column.withoutTypes]

theorem reports_enrichColumns (parent : String) (inJson : Bool) (cs : List Column) :
    Reports Column.withoutTypesAll cs
      (enrichColumns (answering columns?) procedure parent inJson cs) := by
  cases cs with
  | nil =>
    rw [enrichColumns]
    exact ⟨rfl, tells_unchanged []⟩
  | cons c cs =>
    have hfirst := reports_enrichColumn (parent ++ c.facts.name) inJson c
    have hothers := reports_enrichColumns parent inJson cs
    rw [enrichColumns]
    refine hfirst.both List.cons ?_ ?_ hothers
    · rintro _ _ _ _ ⟨⟩
      exact ⟨rfl, rfl⟩
    · intro _ _ _ _ hcolumn hcolumns
      rw [Column.withoutTypesAll, hcolumn, hcolumns, ← Column.withoutTypesAll]

end

theorem reports_enrichSets (sets : List ResultSet) :
    Reports (List.map ResultSet.withoutTypes) sets
      (enrichSets (answering columns?) procedure sets) := by
  induction sets with
  | nil => exact ⟨rfl, tells_unchanged []⟩
  | cons set sets ih =>
    have hcolumns : Reports Column.withoutTypesAll set.columns
        (enrichColumns (answering columns?) procedure "" set.returnsJson set.columns) :=
      reports_enrichColumns "" set.returnsJson set.columns
    refine hcolumns.both (fun columns sets => { set with columns } :: sets) ?_ ?_ ih
    · intro _ _ _ _ heq
      rw [List.cons.injEq, ResultSet.mk.injEq] at heq
      exact ⟨heq.1.2.2.2.2.2.2, heq.2⟩
    · intro _ _ _ _ hcolumns hsets
      rw [List.map_cons, List.map_cons, hsets, ResultSet.withoutTypes, ResultSet.withoutTypes,
        hcolumns]

theorem reports_enrichWith (a : Analysis) :
    Reports Analysis.withoutTypes a (enrichWith columns? a) := by
  have hsets : Reports (List.map ResultSet.withoutTypes) a.content.resultSets
      (enrichSets (answering columns?) a.descriptor.display a.content.resultSets) :=
    reports_enrichSets a.content.resultSets
  constructor
  · exact congrArg (fun resultSets => { a with content := { a.content with resultSets } })
      hsets.same
  · have hne : (enrichWith columns? a).1 ≠ a ↔
        (enrichSets (answering columns?) a.descriptor.display a.content.resultSets).1 ≠
          a.content.resultSets := by
      apply not_congr
      constructor
      · exact congrArg fun b : Analysis => b.content.resultSets
      · exact congrArg fun resultSets => { a with content := { a.content with resultSets } }
    rw [hne]
    exact hsets.tells

end Enrichment

open Enrichment

/-- An enrichment that succeeds changes at most the types of columns, and notes a change exactly if
it changed something. -/
theorem Analysis.enrich_changes_types
    {σ ε : Type} {provider : Lookup (StateT σ (Except ε))} {tables later : TableCache}
    {state next : σ} {a enriched : Analysis} {notes : EnrichmentNotes}
    (h : ((a.enrich (enricher provider)).run tables).run state =
      .ok (((enriched, notes), later), next)) :
    enriched.withoutTypes = a.withoutTypes ∧ (notes.changed = true ↔ enriched ≠ a) := by
  obtain ⟨houtcome, -⟩ := run_enrich_eq h
  have hreports : Reports Analysis.withoutTypes a (enriched, notes) := by
    rw [houtcome]
    exact reports_enrichWith a
  exact ⟨hreports.same, hreports.tells⟩

theorem Analysis.enrich_changes_types_sample :
    ∃ enriched notes later next,
      ((sample.enrich (enricher countingProvider)).run []).run 0 =
        .ok (((enriched, notes), later), next) ∧
      enriched.withoutTypes = sample.withoutTypes ∧ (notes.changed = true ↔ enriched ≠ sample) ∧
      notes.changed = true := by
  have hrun : ∃ enriched notes later next,
      ((sample.enrich (enricher countingProvider)).run []).run 0 =
        .ok (((enriched, notes), later), next) ∧ notes.changed = true := by
    refine ⟨_, _, _, _, rfl, ?_⟩
    decide +kernel
  obtain ⟨enriched, notes, later, next, hrun, hchanged⟩ := hrun
  obtain ⟨hsame, htells⟩ := enrich_changes_types hrun
  exact ⟨enriched, notes, later, next, hrun, hsame, htells, hchanged⟩

end SqlSnapshot
