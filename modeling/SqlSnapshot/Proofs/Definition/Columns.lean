import SqlSnapshot.Proofs.Definition.Select
import SqlSnapshot.Proofs.Token.Parts

/-!
# Where columns come from

`ReadIn` says how the column of a select list arises: from which tokens of which list, and with the
sources of which selects around it.  Every column that a select is read to arises so
(`readIn_read`); what holds of all columns is proved by induction on how they arise, and no such
proof goes through the reader again.
-/

namespace SqlSnapshot.Select

open Token

/-! ## Parts of items -/

variable {item expr inner arguments : List Token}

theorem eq_parens_of_parenthesized?
    (h : parenthesized? expr = some inner) :
    expr = parens inner := by
  unfold parenthesized? at h
  split at h
  · split at h
    · rename_i hclose
      obtain rfl := Option.some.inj h
      rw [closeParen?_append hclose]
      rfl
    · cases h
  · cases h

theorem isInfix_of_readCall?
    {function : String} (h : readCall? expr = some (function, arguments)) :
    arguments <:+: expr := by
  unfold readCall? at h
  split at h
  · cases h
  · split at h
    · cases h
    · obtain ⟨⟨parts, rest⟩, hname, h⟩ := Option.bind_eq_some_iff.mp h
      have hrest := (isSuffix_readName? hname).isInfix
      dsimp only at h
      split at h
      · obtain ⟨⟨arguments', after⟩, hclose, h⟩ := Option.bind_eq_some_iff.mp h
        simp only [Option.bind_eq_bind, Option.bind_eq_some_iff, Option.ite_none_right_eq_some,
          Option.some.injEq, Prod.mk.injEq] at h
        obtain ⟨_, -, _, -, -, -, rfl⟩ := h
        exact ((isInfix_of_closeParen? hclose).trans (List.infix_cons List.infix_rfl)).trans hrest
      · cases h

theorem isInfix_of_selectArgument?
    (h : selectArgument? arguments = some inner) :
    parens inner <:+: arguments ∧ startsWithKw "SELECT" inner = true := by
  simp only [selectArgument?, Option.bind_eq_bind, Option.bind_eq_some_iff] at h
  obtain ⟨first, hfirst, inner', hinner, h⟩ := h
  split at h
  · rename_i hselect
    obtain rfl := Option.some.inj h
    rw [← eq_parens_of_parenthesized? hinner]
    exact ⟨isInfix_of_mem_splitCommas (List.mem_of_head? hfirst), hselect⟩
  · cases h

/-! ## Lists and scopes -/

/-- The tokens stand in an item of the list of the select. -/
def Lists (select tokens : List Token) : Prop :=
  ∃ item ∈ splitCommas 0 (listAndClauses select).1, tokens <:+: item

theorem Lists.of_isInfix
    {select ts us : List Token} (h : Lists select ts) (hin : us <:+: ts) :
    Lists select us := by
  obtain ⟨item, hitem, hts⟩ := h
  exact ⟨item, hitem, hin.trans hts⟩

/-- The second select stands in parentheses in the list of the first. -/
structure Encloses (outer inner : List Token) : Prop where
  isSelect : startsWithKw "SELECT" inner = true
  listed : Lists outer (parens inner)

/-- The sources of the selects, each of which stands in the next one. -/
def scopeOf (ctes : List String) (selects : List (List Token)) : Scope :=
  selects.map fun select => sourcesOf ctes (upToKw setOperators (listAndClauses select).2)

/-- How a column arises that is read in the list of the first select; each of the others has the one
before it in its list. -/
inductive ReadIn (ctes : List String) : List (List Token) → Column → Prop where
  | other {selects : List (List Token)} : ReadIn ctes selects (.leaf {})
  | jsonValue {selects : List (List Token)} : ReadIn ctes selects (.leaf { kind := .jsonQuery })
  | reference {select : List Token} {outer : List (List Token)} {expr : List Token}
      {parts : List String} (hlisted : Lists select expr)
      (hparts : columnParts? expr = some parts) :
      ReadIn ctes (select :: outer) (.leaf (columnRef (scopeOf ctes (select :: outer)) parts))
  | call {select : List Token} {outer : List (List Token)} {arguments : List Token}
      (function : String) (hlisted : Lists select arguments) :
      ReadIn ctes (select :: outer)
        (.leaf (callColumn (scopeOf ctes (select :: outer)) function arguments))
  | nested {select inner : List Token} {outer : List (List Token)} {columns : List Column}
      (kind : ExpressionKind) (json : JsonOptions) (hkind : kind = .nestedJson ∨ kind = .jsonQuery)
      (hinner : Encloses select inner)
      (hcolumns : ∀ c ∈ columns, ReadIn ctes (inner :: select :: outer) c) :
      ReadIn ctes (select :: outer) (nestedJson { kind } json columns)
  | scalar {select inner : List Token} {outer : List (List Token)} {c : Column}
      (hinner : Encloses select inner) (hcolumn : ReadIn ctes (inner :: select :: outer) c) :
      ReadIn ctes (select :: outer) (scalarColumn [c])
  | named {selects : List (List Token)} {c : Column} (name : String)
      (hcolumn : ReadIn ctes selects c) : ReadIn ctes selects (c.named name)

variable {ctes : List String} {select : List Token} {outer : List (List Token)}

theorem readIn_scalarColumn
    {columns : List Column} (hinner : Encloses select inner)
    (hcolumns : ∀ c ∈ columns, ReadIn ctes (inner :: select :: outer) c) :
    ReadIn ctes (select :: outer) (scalarColumn columns) := by
  match columns with
  | [] => exact .other
  | [c] => exact .scalar hinner (hcolumns c List.mem_cons_self)
  | .node _ _ :: _ :: _ => exact .other

theorem readIn_subSelectColumn
    {s : Select} (hinner : Encloses select inner)
    (hcolumns : ∀ c ∈ s.columns, ReadIn ctes (inner :: select :: outer) c) :
    ReadIn ctes (select :: outer) (subSelectColumn s) := by
  unfold subSelectColumn
  split
  · exact .nested .nestedJson _ (.inl rfl) hinner hcolumns
  · exact readIn_scalarColumn hinner hcolumns

theorem readIn_jsonQueryColumn
    {s : Select} (hinner : Encloses select inner)
    (hcolumns : ∀ c ∈ s.columns, ReadIn ctes (inner :: select :: outer) c) :
    ReadIn ctes (select :: outer) (jsonQueryColumn s) := by
  unfold jsonQueryColumn
  split
  · exact .nested .jsonQuery _ (.inr rfl) hinner hcolumns
  · exact .jsonValue

theorem readIn_withAlias
    {c : Column} (h : ReadIn ctes (select :: outer) c) (aliasName : Option String) :
    ReadIn ctes (select :: outer) (withAlias aliasName c) := by
  cases aliasName with
  | none => exact h
  | some name => exact h.named name

theorem mem_columns_read
    {scope : Scope} {ts : List Token} {c : Column} (h : c ∈ (read ctes scope ts).columns) :
    ∃ item ∈ splitCommas 0 (listAndClauses ts).1,
      (readItem ctes (innerScope ctes scope ts) item).1 = some c := by
  rw [read_eq, ofClauses] at h
  split at h
  · cases h
  · obtain ⟨outcome, houtcome, hc⟩ := List.mem_filterMap.mp h
    obtain ⟨item, hitem, rfl⟩ := List.mem_map.mp houtcome
    exact ⟨item, hitem, hc⟩

/-- The columns of a select, of an item and of an expression, in a scope that is that of the selects
around it. -/
theorem readIn_readers (ctes : List String) :
    (∀ scope ts, ∀ outer, scope = scopeOf ctes outer →
        ∀ c ∈ (read ctes scope ts).columns, ReadIn ctes (ts :: outer) c) ∧
      (∀ scope item, ∀ select outer, scope = scopeOf ctes (select :: outer) → Lists select item →
        ∀ c, (readItem ctes scope item).1 = some c → ReadIn ctes (select :: outer) c) ∧
      ∀ scope expr, ∀ select outer, scope = scopeOf ctes (select :: outer) → Lists select expr →
        ReadIn ctes (select :: outer) (readExpr ctes scope expr).1 := by
  apply readers_induct ctes
  case select =>
    rintro scope ts ih outer rfl c hc
    obtain ⟨item, hitem, hread⟩ := mem_columns_read hc
    exact ih item hitem ts outer rfl ⟨item, hitem, List.infix_rfl⟩ c hread
  case empty =>
    intro scope item hempty select outer _ _ c hc
    rw [readItem_of_isEmpty hempty] at hc
    cases hc
  case wildcard =>
    intro scope item hempty hwildcard select outer _ _ c hc
    rw [readItem_of_isWildcard hempty hwildcard] at hc
    cases hc
  case item =>
    intro scope item hempty hwildcard ih select outer hscope hlisted c hc
    rw [readItem_of_expr hempty hwildcard] at hc
    cases hc
    exact readIn_withAlias
      (ih select outer hscope (hlisted.of_isInfix (isInfix_splitAlias item))) _
  case subSelect =>
    rintro scope expr inner hinner hselect ih select outer rfl hlisted
    rw [readExpr_of_subSelect hinner hselect]
    rw [eq_parens_of_parenthesized? hinner] at hlisted
    exact readIn_subSelectColumn ⟨hselect, hlisted⟩ (ih (select :: outer) rfl)
  case parenthesized =>
    intro scope expr inner hinner hselect ih select outer hscope hlisted
    rw [readExpr_of_parenthesized hinner hselect]
    rw [eq_parens_of_parenthesized? hinner] at hlisted
    exact ih select outer hscope (hlisted.of_isInfix ⟨[.lparen], [.rparen], rfl⟩)
  case jsonQuery =>
    rintro scope expr arguments inner hinner hcall hselect ih select outer rfl hlisted
    rw [readExpr_of_jsonQuery hinner hcall hselect]
    obtain ⟨hin, hstart⟩ := isInfix_of_selectArgument? hselect
    exact readIn_jsonQueryColumn
      ⟨hstart, hlisted.of_isInfix (hin.trans (isInfix_of_readCall? hcall))⟩
      (ih (select :: outer) rfl)
  case jsonValue =>
    intro scope expr arguments hinner hcall hselect select outer _ _
    rw [readExpr_of_jsonQuery_value hinner hcall hselect]
    exact .jsonValue
  case call =>
    rintro scope expr function arguments hinner hcall hname select outer rfl hlisted
    rw [readExpr_of_call hinner hcall hname]
    exact .call function (hlisted.of_isInfix (isInfix_of_readCall? hcall))
  case column =>
    rintro scope expr parts hinner hcall hparts select outer rfl hlisted
    rw [readExpr_of_column hinner hcall hparts]
    exact .reference hlisted hparts
  case other =>
    intro scope expr hinner hcall hparts select outer _ _
    rw [readExpr_of_other hinner hcall hparts]
    exact .other

/-- Every column of a statement arises in the list of its select. -/
theorem readIn_read
    {ts : List Token} {c : Column} (hc : c ∈ (read ctes [] ts).columns) :
    ReadIn ctes [ts] c :=
  (readIn_readers ctes).1 [] ts [] rfl c hc

end SqlSnapshot.Select
