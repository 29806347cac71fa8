import SqlSnapshot.Proofs.Definition.Select

/-!
# Scopes

What a select reads to depends on the sources around it only by the sources that its column
references resolve to.
-/

namespace SqlSnapshot

/-- Every column reference resolves to the same source in both scopes. -/
def Scope.Agrees (scope other : Scope) : Prop :=
  ∀ qualifier, scope.resolve? qualifier = other.resolve? qualifier

theorem Scope.Agrees.cons {scope other : Scope} (h : scope.Agrees other) (sources : List Source) :
    Agrees (sources :: scope) (sources :: other) := by
  intro qualifier
  simp only [resolve?, h qualifier]

theorem Scope.agrees_without_sources (scope : Scope) : Agrees ([] :: scope) scope := by
  intro qualifier
  rw [resolve?]
  split <;> rfl

namespace Select

variable {scope other : Scope}

theorem columnRef_congr (h : scope.Agrees other) (parts : List String) :
    columnRef scope parts = columnRef other parts := by
  simp only [columnRef, h parts.dropLast]

theorem callColumn_congr (h : scope.Agrees other) (function : String) (arguments : List Token) :
    callColumn scope function arguments = callColumn other function arguments := by
  simp only [callColumn, aggregateColumn, columnRef_congr h]

theorem read_congr (ctes : List String) :
    (∀ scope ts, ∀ other, scope.Agrees other → read ctes scope ts = read ctes other ts) ∧
      (∀ scope item, ∀ other, scope.Agrees other →
        readItem ctes scope item = readItem ctes other item) ∧
      ∀ scope expr, ∀ other, scope.Agrees other →
        readExpr ctes scope expr = readExpr ctes other expr := by
  apply readers_induct ctes
  case select =>
    intro scope ts ih other h
    have hitems : readItems ctes scope ts = readItems ctes other ts := by
      apply List.map_congr_left
      intro item hitem
      exact ih item hitem _ (h.cons _)
    rw [read_eq, read_eq, hitems]
  case empty =>
    intro scope item hempty other h
    rw [readItem_of_isEmpty hempty, readItem_of_isEmpty hempty]
  case wildcard =>
    intro scope item hempty hwildcard other h
    rw [readItem_of_isWildcard hempty hwildcard, readItem_of_isWildcard hempty hwildcard]
  case item =>
    intro scope item hempty hwildcard ih other h
    rw [readItem_of_expr hempty hwildcard, readItem_of_expr hempty hwildcard, ih other h]
  case subSelect =>
    intro scope expr inner hinner hselect ih other h
    rw [readExpr_of_subSelect hinner hselect, readExpr_of_subSelect hinner hselect, ih other h]
  case parenthesized =>
    intro scope expr inner hinner hselect ih other h
    rw [readExpr_of_parenthesized hinner hselect, readExpr_of_parenthesized hinner hselect,
      ih other h]
  case jsonQuery =>
    intro scope expr arguments inner hinner hcall hselect ih other h
    rw [readExpr_of_jsonQuery hinner hcall hselect, readExpr_of_jsonQuery hinner hcall hselect,
      ih other h]
  case jsonValue =>
    intro scope expr arguments hinner hcall hselect other h
    rw [readExpr_of_jsonQuery_value hinner hcall hselect,
      readExpr_of_jsonQuery_value hinner hcall hselect]
  case call =>
    intro scope expr function arguments hinner hcall hname other h
    rw [readExpr_of_call hinner hcall hname, readExpr_of_call hinner hcall hname,
      callColumn_congr h]
  case column =>
    intro scope expr parts hinner hcall hparts other h
    rw [readExpr_of_column hinner hcall hparts, readExpr_of_column hinner hcall hparts,
      columnRef_congr h]
  case other =>
    intro scope expr hinner hcall hparts other h
    rw [readExpr_of_other hinner hcall hparts, readExpr_of_other hinner hcall hparts]

end Select

end SqlSnapshot
