import SqlSnapshot.Definition.Select

/-!
# Reading selects, case by case

One equation for each way in which a select, an item of its list and an expression are read.  Later
proofs follow these cases and leave the functions closed.
-/

namespace SqlSnapshot.Select

open Token

variable (ctes : List String) (scope : Scope)

/-- The scope inside a select. -/
def innerScope (ctes : List String) (scope : Scope) (ts : List Token) : Scope :=
  sourcesOf ctes (upToKw setOperators (listAndClauses ts).2) :: scope

/-- What the items of the select list are read to. -/
def readItems (ctes : List String) (scope : Scope) (ts : List Token) :
    List (Option Column × List Issue) :=
  (splitCommas 0 (listAndClauses ts).1).map (readItem ctes (innerScope ctes scope ts))

theorem read_eq (ts : List Token) :
    read ctes scope ts =
      ofClauses (listAndClauses ts).1 (listAndClauses ts).2
        ((readItems ctes scope ts).filterMap (·.1), (readItems ctes scope ts).flatMap (·.2)) := by
  have hitems : (splitCommas 0 (listAndClauses ts).1).attach.map
      (fun item => readItem ctes (innerScope ctes scope ts) item.1) = readItems ctes scope ts :=
    List.attach_map_val
  rw [← hitems, read]
  rfl

variable {ctes scope}

/-! ## Items -/

theorem readItem_of_isEmpty {item : List Token} (h : (splitAlias item).2.isEmpty = true) :
    readItem ctes scope item = (none, []) := by
  rw [readItem]
  simp only [h, if_true]

theorem readItem_of_isWildcard
    {item : List Token} (h : ¬ (splitAlias item).2.isEmpty = true)
    (hwildcard : isWildcard (splitAlias item).2 = true) :
    readItem ctes scope item = (none, [.wildcardProjection]) := by
  rw [readItem]
  simp only [h, hwildcard, if_true]
  rfl

/-- The column with the alias of its item, if there is one. -/
def withAlias (aliasName : Option String) (column : Column) : Column :=
  match aliasName with
  | some name => column.named name
  | none => column

theorem readItem_of_expr
    {item : List Token} (h : ¬ (splitAlias item).2.isEmpty = true)
    (hwildcard : ¬ isWildcard (splitAlias item).2 = true) :
    readItem ctes scope item =
      (some (withAlias (splitAlias item).1 (readExpr ctes scope (splitAlias item).2).1),
        (readExpr ctes scope (splitAlias item).2).2) := by
  rw [readItem]
  simp only [h, hwildcard]
  rfl

/-! ## Expressions -/

/-- The reading of an expression without the proofs that its parts are shorter. -/
theorem readExpr_eq (expr : List Token) :
    readExpr ctes scope expr =
      match parenthesized? expr with
      | some inner =>
        if startsWithKw "SELECT" inner then
          (subSelectColumn (read ctes scope inner), (read ctes scope inner).issues)
        else readExpr ctes scope inner
      | none =>
        match readCall? expr with
        | some (function, arguments) =>
          if function = "JSON_QUERY" then
            match selectArgument? arguments with
            | some inner =>
              (jsonQueryColumn (read ctes scope inner), (read ctes scope inner).issues)
            | none => (.leaf { kind := .jsonQuery }, [])
          else (.leaf (callColumn scope function arguments), [])
        | none =>
          match columnParts? expr with
          | some parts => (.leaf (columnRef scope parts), [])
          | none => (.leaf {}, []) := by
  rw [readExpr]
  split
  · rename_i inner hinner
    simp only [hinner]
  · rename_i hinner
    simp only [hinner]
    split
    · rename_i function arguments hcall
      simp only [hcall]
      split
      · split
        · rename_i inner hselect
          simp only [hselect]
        · rename_i hselect
          simp only [hselect]
      · rfl
    · rename_i hcall
      cases columnParts? expr with
      | some parts => simp only [hcall]
      | none => simp only [hcall]

variable {expr inner arguments : List Token}

theorem readExpr_of_subSelect
    (h : parenthesized? expr = some inner) (hselect : startsWithKw "SELECT" inner = true) :
    readExpr ctes scope expr =
      (subSelectColumn (read ctes scope inner), (read ctes scope inner).issues) := by
  rw [readExpr_eq, h]
  exact if_pos hselect

theorem readExpr_of_parenthesized
    (h : parenthesized? expr = some inner) (hselect : ¬ startsWithKw "SELECT" inner = true) :
    readExpr ctes scope expr = readExpr ctes scope inner := by
  rw [readExpr_eq, h]
  exact if_neg hselect

theorem readExpr_of_jsonQuery
    (h : parenthesized? expr = none) (hcall : readCall? expr = some ("JSON_QUERY", arguments))
    (hselect : selectArgument? arguments = some inner) :
    readExpr ctes scope expr =
      (jsonQueryColumn (read ctes scope inner), (read ctes scope inner).issues) := by
  rw [readExpr_eq, h, hcall]
  dsimp only
  rw [if_pos rfl, hselect]

theorem readExpr_of_jsonQuery_value
    (h : parenthesized? expr = none) (hcall : readCall? expr = some ("JSON_QUERY", arguments))
    (hselect : selectArgument? arguments = none) :
    readExpr ctes scope expr = (.leaf { kind := .jsonQuery }, []) := by
  rw [readExpr_eq, h, hcall]
  dsimp only
  rw [if_pos rfl, hselect]

theorem readExpr_of_call
    {function : String} (h : parenthesized? expr = none)
    (hcall : readCall? expr = some (function, arguments)) (hname : ¬ function = "JSON_QUERY") :
    readExpr ctes scope expr = (.leaf (callColumn scope function arguments), []) := by
  rw [readExpr_eq, h, hcall]
  exact if_neg hname

theorem readExpr_of_column
    {parts : List String} (h : parenthesized? expr = none) (hcall : readCall? expr = none)
    (hparts : columnParts? expr = some parts) :
    readExpr ctes scope expr = (.leaf (columnRef scope parts), []) := by
  rw [readExpr_eq, h, hcall]
  dsimp only
  rw [hparts]

theorem readExpr_of_other
    (h : parenthesized? expr = none) (hcall : readCall? expr = none)
    (hparts : columnParts? expr = none) :
    readExpr ctes scope expr = (.leaf {}, []) := by
  rw [readExpr_eq, h, hcall]
  dsimp only
  rw [hparts]

/-! ## Induction -/

/-- Induction along the readers of selects, items and expressions, with one case for each of their
equations. -/
theorem readers_induct
    (ctes : List String) {OfSelect OfItem OfExpr : Scope → List Token → Prop}
    (select : ∀ scope ts,
      (∀ item ∈ splitCommas 0 (listAndClauses ts).1, OfItem (innerScope ctes scope ts) item) →
      OfSelect scope ts)
    (empty : ∀ scope item, (splitAlias item).2.isEmpty = true → OfItem scope item)
    (wildcard : ∀ scope item, ¬ (splitAlias item).2.isEmpty = true →
      isWildcard (splitAlias item).2 = true → OfItem scope item)
    (item : ∀ scope item, ¬ (splitAlias item).2.isEmpty = true →
      ¬ isWildcard (splitAlias item).2 = true → OfExpr scope (splitAlias item).2 →
      OfItem scope item)
    (subSelect : ∀ scope expr inner, parenthesized? expr = some inner →
      startsWithKw "SELECT" inner = true → OfSelect scope inner → OfExpr scope expr)
    (parenthesized : ∀ scope expr inner, parenthesized? expr = some inner →
      ¬ startsWithKw "SELECT" inner = true → OfExpr scope inner → OfExpr scope expr)
    (jsonQuery : ∀ scope expr arguments inner, parenthesized? expr = none →
      readCall? expr = some ("JSON_QUERY", arguments) → selectArgument? arguments = some inner →
      OfSelect scope inner → OfExpr scope expr)
    (jsonValue : ∀ scope expr arguments, parenthesized? expr = none →
      readCall? expr = some ("JSON_QUERY", arguments) → selectArgument? arguments = none →
      OfExpr scope expr)
    (call : ∀ scope expr function arguments, parenthesized? expr = none →
      readCall? expr = some (function, arguments) → ¬ function = "JSON_QUERY" → OfExpr scope expr)
    (column : ∀ scope expr parts, parenthesized? expr = none → readCall? expr = none →
      columnParts? expr = some parts → OfExpr scope expr)
    (other : ∀ scope expr, parenthesized? expr = none → readCall? expr = none →
      columnParts? expr = none → OfExpr scope expr) :
    (∀ scope ts, OfSelect scope ts) ∧ (∀ scope item, OfItem scope item) ∧
      ∀ scope expr, OfExpr scope expr :=
  read.mutual_induct ctes OfSelect OfItem OfExpr select empty wildcard
    (fun scope ts hempty hwildcard _ _ _ => item scope ts hempty hwildcard)
    (fun scope expr inner hinner _ => subSelect scope expr inner hinner)
    (fun scope expr inner hinner _ => parenthesized scope expr inner hinner)
    (fun scope expr hnone arguments inner hselect _ hcall _ =>
      jsonQuery scope expr arguments inner hnone hcall hselect)
    (fun scope expr hnone arguments hselect hcall =>
      jsonValue scope expr arguments hnone hcall hselect)
    (fun scope expr hnone function arguments => call scope expr function arguments hnone)
    (fun scope expr hnone hcall parts => column scope expr parts hnone hcall)
    other

end SqlSnapshot.Select
