import SqlSnapshot.Proofs.Definition.ResultSets
import SqlSnapshot.Proofs.Enrichment.Repeated

/-!
# Parse errors among issues

The analysis of a definition has one parse error if the definition was searched for keywords, and
none otherwise.  Neither reading statements nor typing columns raises another.
-/

namespace SqlSnapshot

namespace Issue

def isParseError (i : Issue) : Bool :=
  i.code == parseErrorCode

/-- None of the issues says that a definition could not be read. -/
def NoParseErrors (issues : List Issue) : Prop :=
  ∀ i ∈ issues, i.isParseError = false

@[simp]
theorem isParseError_withDefaultProcedure (i : Issue) (procedure : String) :
    (i.withDefaultProcedure procedure).isParseError = i.isParseError := rfl

theorem noParseErrors_nil : NoParseErrors [] := by
  simp [NoParseErrors]

theorem noParseErrors_singleton {i : Issue} (h : i.isParseError = false) : NoParseErrors [i] := by
  simpa [NoParseErrors] using h

theorem NoParseErrors.append
    {issues others : List Issue} (h : NoParseErrors issues) (h' : NoParseErrors others) :
    NoParseErrors (issues ++ others) := by
  intro i hi
  exact (List.mem_append.mp hi).elim (h i) (h' i)

theorem NoParseErrors.flatMap
    {α : Type} {items : List α} {issuesOf : α → List Issue}
    (h : ∀ item ∈ items, NoParseErrors (issuesOf item)) :
    NoParseErrors (items.flatMap issuesOf) := by
  intro i hi
  obtain ⟨item, hitem, hi⟩ := List.mem_flatMap.mp hi
  exact h item hitem i hi

theorem NoParseErrors.countP_eq_zero
    {issues : List Issue} (h : NoParseErrors issues) :
    issues.countP isParseError = 0 :=
  List.countP_eq_zero.mpr fun i hi => by simp [h i hi]

end Issue

open Issue (NoParseErrors noParseErrors_nil noParseErrors_singleton)

/-! ## Reading statements -/

namespace Select

open Token

theorem noParseErrors_ofClauses
    (items clauses : List Token) {columns : List Column} {issues : List Issue}
    (h : NoParseErrors issues) :
    NoParseErrors (ofClauses items clauses (columns, issues)).issues := by
  unfold ofClauses
  split
  · exact noParseErrors_nil
  · exact h

/-- Reading a select, an item of its list or an expression raises no parse error. -/
theorem noParseErrors_readers (ctes : List String) :
    (∀ scope ts, NoParseErrors (read ctes scope ts).issues) ∧
      (∀ scope item, NoParseErrors (readItem ctes scope item).2) ∧
      ∀ scope expr, NoParseErrors (readExpr ctes scope expr).2 := by
  apply readers_induct ctes
  case select =>
    intro scope ts ih
    rw [read_eq]
    apply noParseErrors_ofClauses
    apply NoParseErrors.flatMap
    intro outcome houtcome
    obtain ⟨item, hitem, rfl⟩ := List.mem_map.mp houtcome
    exact ih item hitem
  case empty =>
    intro scope item hempty
    rw [readItem_of_isEmpty hempty]
    exact noParseErrors_nil
  case wildcard =>
    intro scope item hempty hwildcard
    rw [readItem_of_isWildcard hempty hwildcard]
    exact noParseErrors_singleton rfl
  case item =>
    intro scope item hempty hwildcard ih
    rw [readItem_of_expr hempty hwildcard]
    exact ih
  case subSelect =>
    intro scope expr inner hinner hselect ih
    rw [readExpr_of_subSelect hinner hselect]
    exact ih
  case parenthesized =>
    intro scope expr inner hinner hselect ih
    rw [readExpr_of_parenthesized hinner hselect]
    exact ih
  case jsonQuery =>
    intro scope expr arguments inner hinner hcall hselect ih
    rw [readExpr_of_jsonQuery hinner hcall hselect]
    exact ih
  case jsonValue =>
    intro scope expr arguments hinner hcall hselect
    rw [readExpr_of_jsonQuery_value hinner hcall hselect]
    exact noParseErrors_nil
  case call =>
    intro scope expr function arguments hinner hcall hname
    rw [readExpr_of_call hinner hcall hname]
    exact noParseErrors_nil
  case column =>
    intro scope expr parts hinner hcall hparts
    rw [readExpr_of_column hinner hcall hparts]
    exact noParseErrors_nil
  case other =>
    intro scope expr hinner hcall hparts
    rw [readExpr_of_other hinner hcall hparts]
    exact noParseErrors_nil

end Select

namespace Body

open Token

variable {ctes : List String} {ts : List Token}

theorem noParseErrors_readExec (ts : List Token) : NoParseErrors (readExec ts).issues := by
  unfold readExec
  split
  · exact noParseErrors_singleton rfl
  · dsimp only
    split
    · exact noParseErrors_singleton rfl
    · split
      · exact noParseErrors_singleton rfl
      · split
        · exact noParseErrors_nil
        · exact noParseErrors_nil
  · exact noParseErrors_nil

theorem noParseErrors_readSelect
    {own : Findings} (h : readSelect ctes ts = .ok own) :
    NoParseErrors own.issues := by
  obtain ⟨u, -, h⟩ := exists_of_bind_eq_ok h
  cases h
  exact (Select.noParseErrors_readers ctes).1 [] ts

theorem Step.noParseErrors
    {state next : State} {own : Findings} (h : Step state own next) :
    NoParseErrors own.issues := by
  cases h with
  | group _ => exact noParseErrors_nil
  | ctes _ _ => exact noParseErrors_nil
  | other _ _ _ => exact noParseErrors_nil
  | statement ht hctes h =>
    obtain ⟨-, hselect, -⟩ | ⟨hnone, -⟩ | ⟨-, hexec, -⟩ := readStatement?_cases h
    · exact noParseErrors_readSelect hselect.symm
    · cases hnone
      exact noParseErrors_nil
    · cases hexec
      exact noParseErrors_readExec _

/-- A body that can be read raises no parse error. -/
theorem noParseErrors_read
    {found : Findings} (h : read ctes ts = .ok found) :
    NoParseErrors found.issues := by
  obtain ⟨steps, rfl, hsteps⟩ := read_eq_ok h
  clear h
  induction steps with
  | nil => exact noParseErrors_nil
  | cons own others ih =>
    obtain ⟨state, next, -, hstep⟩ := hsteps own List.mem_cons_self
    exact hstep.noParseErrors.append
      (ih fun other hother => hsteps other (List.mem_cons_of_mem own hother))

end Body

namespace Analysis

variable {definition : String}

/-- A definition has one parse error if it was searched for keywords, and none otherwise. -/
theorem countP_isParseError_ofDefinition (descriptor : Descriptor) (definition : String) :
    (ofDefinition descriptor definition).issues.countP Issue.isParseError =
      if (ofDefinition descriptor definition).content.usedFallback then 1 else 0 := by
  have hcount : ∀ issues : List Issue,
      (issues.map (·.withDefaultProcedure descriptor.display)).countP Issue.isParseError =
        issues.countP Issue.isParseError :=
    fun issues => List.countP_map
  cases h : readStructure definition with
  | ok parts =>
    obtain ⟨content, parameters, issues⟩ := parts
    obtain ⟨ts, found, hfound, hbody⟩ := readStructure_eq_ok h
    have hnone : (ofDefinition descriptor definition).content.usedFallback = false := by
      simp only [ofDefinition, h]
      exact hbody.isParsed
    rw [hnone]
    simp only [ofDefinition, h, hcount, hbody.issues]
    exact (Body.noParseErrors_read hfound).countP_eq_zero
  | error e =>
    simp only [ofDefinition, h, hcount]
    rfl

theorem countP_isParseError_withoutDefinition (descriptor : Descriptor) :
    (withoutDefinition descriptor).issues.countP Issue.isParseError = 0 :=
  (noParseErrors_singleton rfl).countP_eq_zero

end Analysis

/-! ## Typing columns -/

namespace Enrichment

variable {procedure path : String} {inJson : Bool} {columns : Option (List TableColumn)}

theorem noParseErrors_tableRule (binding : TableBinding) (f : ColumnFacts) :
    NoParseErrors (tableRule procedure path binding columns f).2.issues := by
  cases hcolumn : boundColumn? columns binding with
  | some column =>
    rw [(tableRule_of_found procedure path hcolumn f).2]
    exact noParseErrors_nil
  | none =>
    cases columns with
    | none => exact noParseErrors_singleton rfl
    | some columns =>
      have hmissing : Table.column? columns binding.column = none := hcolumn
      rw [tableRule]
      dsimp only
      rw [hmissing]
      exact noParseErrors_singleton rfl

theorem noParseErrors_evidenceRule (f : ColumnFacts) :
    NoParseErrors (evidenceRule procedure path columns f).2.issues := by
  unfold evidenceRule
  split
  · rw [issues_castRule]
    exact noParseErrors_nil
  · split
    · exact noParseErrors_nil
    · exact noParseErrors_tableRule _ f

theorem noParseErrors_remainderRule (f : ColumnFacts) :
    NoParseErrors (remainderRule procedure path inJson f).2.issues := by
  cases hbare : isBare f with
  | false =>
    rw [remainderRule_of_not_isBare hbare]
    exact noParseErrors_nil
  | true =>
    rw [remainderRule_of_isBare hbare]
    split
    · rw [setPayload, setType_eq]
      exact noParseErrors_nil
    · exact noParseErrors_singleton rfl

theorem noParseErrors_settle (f : ColumnFacts) :
    NoParseErrors (settle procedure path inJson columns f).2.issues := by
  rw [issues_settle]
  exact (noParseErrors_evidenceRule _).append (noParseErrors_remainderRule _)

variable (lookup : Lookup Id)

theorem noParseErrors_enrichFacts
    (procedure path : String) (inJson : Bool) (f : ColumnFacts) :
    NoParseErrors (enrichFacts lookup procedure path inJson f).run.2.issues := by
  unfold enrichFacts
  split
  · exact noParseErrors_settle f
  · exact noParseErrors_settle f

mutual

theorem noParseErrors_enrichColumn
    (procedure path : String) (inJson : Bool) (c : Column) :
    NoParseErrors (enrichColumn lookup procedure path inJson c).run.2.issues := by
  cases c with
  | node facts children =>
    rw [enrichColumn]
    exact (noParseErrors_enrichFacts lookup procedure path inJson facts).append
      (noParseErrors_enrichColumns procedure (path ++ ".") true children)

theorem noParseErrors_enrichColumns
    (procedure parent : String) (inJson : Bool) (cs : List Column) :
    NoParseErrors (enrichColumns lookup procedure parent inJson cs).run.2.issues := by
  cases cs with
  | nil =>
    rw [enrichColumns]
    exact noParseErrors_nil
  | cons c cs =>
    rw [enrichColumns]
    exact (noParseErrors_enrichColumn procedure (parent ++ c.facts.name) inJson c).append
      (noParseErrors_enrichColumns procedure parent inJson cs)

end

theorem noParseErrors_enrichSets (procedure : String) (sets : List ResultSet) :
    NoParseErrors (enrichSets lookup procedure sets).run.2.issues := by
  induction sets with
  | nil => exact noParseErrors_nil
  | cons s sets ih =>
    rw [enrichSets]
    exact (noParseErrors_enrichColumns lookup procedure "" s.returnsJson s.columns).append ih

end Enrichment

/-- Typing the columns of an analysis raises no parse error. -/
theorem Analysis.noParseErrors_enrich (lookup : Enrichment.Lookup Id) (a : Analysis) :
    NoParseErrors (a.enrich lookup).run.2.issues :=
  Enrichment.noParseErrors_enrichSets lookup _ _

end SqlSnapshot
