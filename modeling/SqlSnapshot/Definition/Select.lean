import SqlSnapshot.Content.Column
import SqlSnapshot.Definition.Source
import SqlSnapshot.Issue
import SqlSnapshot.ParseError

/-!
# Select statements

A select is read into its columns, its `FOR JSON` options and two marks: it assigns variables, or
it writes into a table.  An expression of the select list can be a select again, whose columns may
refer to the sources around it; it is shorter than the select it stands in, and the recursion ends
by that length.
-/

namespace SqlSnapshot

structure JsonOptions where
  array : Bool := true
  root : Option String := none
  includeNullValues : Bool := false
deriving DecidableEq, Repr, Inhabited

structure Select where
  columns : List Column := []
  json : Option JsonOptions := none
  assignsVariables : Bool := false
  hasInto : Bool := false
  issues : List Issue := []
deriving Inhabited

namespace Select

open Token

/-! ## Clauses -/

def listEnd : List String :=
  ["FROM", "INTO", "WHERE", "GROUP", "HAVING", "ORDER", "FOR", "OPTION", "UNION", "EXCEPT",
   "INTERSECT"]

def fromEnd : List String :=
  ["WHERE", "GROUP", "HAVING", "ORDER", "FOR", "OPTION", "UNION", "EXCEPT", "INTERSECT"]

def setOperators : List String :=
  ["UNION", "EXCEPT", "INTERSECT"]

/-- Skips the first token, if there is one; the first part is the last token skipped. -/
def skipOne (prev : Token) : List Token → Token × List Token
  | [] => (prev, [])
  | t :: ts => (t, ts)

def skipTopAmount (prev : Token) (ts : List Token) : Token × List Token :=
  match skipGroup? ts with
  | some rest => (.rparen, rest)
  | none => skipOne prev ts

def skipPercent (prev : Token) (ts : List Token) : Token × List Token :=
  if startsWithKw "PERCENT" ts then skipOne prev ts else (prev, ts)

def skipTies (prev : Token) (ts : List Token) : Token × List Token :=
  if startsWithKw "WITH" ts && startsWithKw "TIES" (ts.drop 1) then skipOne prev (ts.drop 1)
  else (prev, ts)

def skipTop (prev : Token) (ts : List Token) : Token × List Token :=
  let (prev, ts) := skipTopAmount prev ts
  let (prev, ts) := skipPercent prev ts
  skipTies prev ts

/-- The last token skipped stands before the rest. -/
theorem isSuffix_skipOne (prev : Token) (ts : List Token) :
    (skipOne prev ts).1 :: (skipOne prev ts).2 <:+ prev :: ts := by
  cases ts with
  | nil => exact List.suffix_refl _
  | cons t ts => exact List.suffix_cons prev _

theorem isSuffix_skipTopAmount (prev : Token) (ts : List Token) :
    (skipTopAmount prev ts).1 :: (skipTopAmount prev ts).2 <:+ prev :: ts := by
  unfold skipTopAmount
  split
  · rename_i hgroup
    exact (isSuffix_rparen_skipGroup? hgroup).trans (List.suffix_cons prev ts)
  · exact isSuffix_skipOne prev ts

theorem isSuffix_skipPercent (prev : Token) (ts : List Token) :
    (skipPercent prev ts).1 :: (skipPercent prev ts).2 <:+ prev :: ts := by
  unfold skipPercent
  split
  · exact isSuffix_skipOne prev ts
  · exact List.suffix_refl _

theorem isSuffix_skipTies (prev : Token) (ts : List Token) :
    (skipTies prev ts).1 :: (skipTies prev ts).2 <:+ prev :: ts := by
  unfold skipTies
  split
  · rename_i hties
    match ts with
    | [] | [_] => simp [startsWithKw] at hties
    | t :: u :: ts => exact (List.suffix_cons t (u :: ts)).trans (List.suffix_cons prev _)
  · exact List.suffix_refl _

theorem isSuffix_skipTop (prev : Token) (ts : List Token) :
    (skipTop prev ts).1 :: (skipTop prev ts).2 <:+ prev :: ts :=
  (isSuffix_skipTies _ _).trans ((isSuffix_skipPercent _ _).trans (isSuffix_skipTopAmount prev ts))

theorem length_skipTop (prev : Token) (ts : List Token) :
    (skipTop prev ts).2.length ≤ ts.length := by
  simpa using (isSuffix_skipTop prev ts).length_le

/-- Skips `ALL`, `DISTINCT` and `TOP`; the first part is the last token skipped. -/
def skipModifiers (prev : Token) (ts : List Token) : Token × List Token :=
  match ts with
  | [] => (prev, [])
  | t :: rest =>
    if t.isAnyKw ["ALL", "DISTINCT"] then skipModifiers t rest
    else if t.isKw "TOP" then
      have := length_skipTop t rest
      skipModifiers (skipTop t rest).1 (skipTop t rest).2
    else (prev, t :: rest)
termination_by ts.length

theorem isSuffix_skipModifiers (prev : Token) (ts : List Token) :
    (skipModifiers prev ts).1 :: (skipModifiers prev ts).2 <:+ prev :: ts := by
  fun_induction skipModifiers prev ts with
  | case1 => exact List.suffix_refl _
  | case2 _ _ _ _ ih => exact ih.trans (List.suffix_cons _ _)
  | case3 prev t ts _ _ _ ih =>
    exact ih.trans ((isSuffix_skipTop t ts).trans (List.suffix_cons prev _))
  | case4 => exact List.suffix_refl _

/-- Cuts the select list off: it ends before the first of the clause keywords, but the `GROUP` of
`WITHIN GROUP` is none. -/
def cutList (prev : Token) (depth : Nat) : List Token → List Token × List Token
  | [] => ([], [])
  | t :: ts =>
    if depth = 0 ∧ t.isAnyKw listEnd = true ∧ ¬ (t.isKw "GROUP" = true ∧ prev.isKw "WITHIN" = true)
    then ([], t :: ts)
    else
      let (list, rest) := cutList t (depthAfter depth t) ts
      (t :: list, rest)

theorem append_cutList (prev : Token) (depth : Nat) (ts : List Token) :
    (cutList prev depth ts).1 ++ (cutList prev depth ts).2 = ts := by
  induction ts generalizing prev depth with
  | nil => rfl
  | cons t ts ih =>
    rw [cutList]
    split
    · rfl
    · exact congrArg (t :: ·) (ih _ _)

/-- The select list and the clauses after it; the list of tokens starts with `SELECT`. -/
def listAndClauses : List Token → List Token × List Token
  | [] => ([], [])
  | t :: ts =>
    let (prev, rest) := skipModifiers t ts
    cutList prev 0 rest

theorem length_listAndClauses (ts : List Token) :
    (listAndClauses ts).1.length ≤ ts.length - 1 := by
  unfold listAndClauses
  split
  · simp
  · rename_i t ts
    have hskipped := (isSuffix_skipModifiers t ts).length_le
    have hcut := congrArg List.length
      (append_cutList (skipModifiers t ts).1 0 (skipModifiers t ts).2)
    simp only [List.length_cons, List.length_append] at hskipped hcut ⊢
    omega

/-- A select without a select list is refused. -/
def checkList (ts : List Token) : Except ParseError Unit :=
  if (listAndClauses ts).1.isEmpty then .error .emptySelectList else .ok ()

def endsWithEquals (operator : String) : Bool :=
  operator.toList.getLast? == some '='

def isVariableAssignment : List Token → Bool
  | t :: .equals :: _ => t.isVariable
  | t :: .other operator :: _ => t.isVariable && endsWithEquals operator
  | _ => false

/-- The root name after `ROOT`, and the tokens after it. -/
def readRoot : List Token → String × List Token
  | .lparen :: ts =>
    let name := match ts with | .str name :: _ => name | _ => "root"
    (name, (skipGroup? (.lparen :: ts)).getD ts)
  | ts => ("root", ts)

theorem isSuffix_readRoot (ts : List Token) : (readRoot ts).2 <:+ ts := by
  unfold readRoot
  split
  · rename_i inner
    cases hgroup : skipGroup? (.lparen :: inner) with
    | none => exact List.suffix_cons _ inner
    | some rest => exact isSuffix_skipGroup? hgroup
  · exact List.suffix_refl ts

theorem length_readRoot (ts : List Token) : (readRoot ts).2.length ≤ ts.length :=
  (isSuffix_readRoot ts).length_le

def readJsonOptions (options : JsonOptions) (ts : List Token) : JsonOptions :=
  match ts with
  | [] => options
  | t :: rest =>
    if t.isKw "ROOT" then
      have := length_readRoot rest
      readJsonOptions { options with root := some (readRoot rest).1 } (readRoot rest).2
    else if t.isKw "WITHOUT_ARRAY_WRAPPER" then readJsonOptions { options with array := false } rest
    else if t.isKw "INCLUDE_NULL_VALUES" then
      readJsonOptions { options with includeNullValues := true } rest
    else if t.isAnyKw ["PATH", "AUTO"] ∨ t = .comma then readJsonOptions options rest
    else options
termination_by ts.length

/-- The first `FOR JSON` outside parentheses. -/
def readForJson? (depth : Nat) : List Token → Option JsonOptions
  | [] => none
  | t :: ts =>
    if depth = 0 ∧ t.isKw "FOR" = true ∧ startsWithKw "JSON" ts = true then
      some (readJsonOptions {} (ts.drop 1))
    else readForJson? (depthAfter depth t) ts

/-- The sources of a select, given the clauses of its first branch. -/
def sourcesOf (ctes : List String) (clauses : List Token) : List Source :=
  match fromKw ["FROM"] clauses with
  | [] => []
  | _ :: ts => Source.ofClause ctes (upToKw fromEnd ts)

/-! ## Items of the select list -/

/-- Last words of an item that are no alias. -/
def notAlias : List String :=
  ["END", "NULL", "AND", "OR", "NOT", "THEN", "ELSE", "WHEN", "IS", "AS", "IN", "LIKE", "CASE",
   "ASC", "DESC"]

/-- Words after which no alias stands. -/
def notBeforeAlias : List String :=
  ["COLLATE", "AS", "THEN", "ELSE", "WHEN", "AND", "OR", "NOT", "IS", "IN", "LIKE", "CASE",
   "SELECT", "DISTINCT", "TOP", "BETWEEN"]

/-- The name that a token gives as an alias. -/
def aliasText? : Token → Option String
  | .word text true => some text
  | .str text => some text
  | .word text false =>
    if Source.startsWithChar '@' text || Token.isAnyKw (.word text false) notAlias then none
    else some text
  | _ => none

/-- A token that an alias without `AS` may follow. -/
def precedesAlias : Token → Bool
  | .word text quoted => !Token.isAnyKw (.word text quoted) notBeforeAlias
  | .rparen => true
  | .num _ => true
  | .str _ => true
  | _ => false

/-- An alias in front, as in `alias = expression`. -/
def leadingAlias? : List Token → Option (String × List Token)
  | .word text quoted :: .equals :: t :: ts =>
    if Token.isVariable (.word text quoted) then none else some (text, t :: ts)
  | .str text :: .equals :: t :: ts => some (text, t :: ts)
  | _ => none

def trailingAlias? (item : List Token) : Option (String × List Token) :=
  match item.reverse with
  | last :: prev :: front =>
    match aliasText? last with
    | none => none
    | some text =>
      if prev.isKw "AS" && !front.isEmpty then some (text, front.reverse)
      else if precedesAlias prev then some (text, (prev :: front).reverse)
      else none
  | _ => none

def splitAlias (item : List Token) : Option String × List Token :=
  match leadingAlias? item with
  | some (text, expr) => (some text, expr)
  | none =>
    match trailingAlias? item with
    | some (text, expr) => (some text, expr)
    | none => (none, item)

theorem isInfix_of_leadingAlias? {item expr : List Token} {name : String}
    (h : leadingAlias? item = some (name, expr)) : expr <:+: item := by
  have htail : ∀ {first second : Token} {ts : List Token}, ts <:+: first :: second :: ts :=
    (List.infix_cons (List.infix_cons List.infix_rfl))
  unfold leadingAlias? at h
  split at h
  · split at h
    · cases h
    · cases h
      exact htail
  · cases h
    exact htail
  · cases h

theorem isInfix_of_trailingAlias? {item expr : List Token} {name : String}
    (h : trailingAlias? item = some (name, expr)) : expr <:+: item := by
  have hfront : ∀ back {front : List Token}, item.reverse = back ++ front →
      front.reverse <:+: item := by
    intro back front hitem
    have hprefix : front.reverse <+: item.reverse.reverse := by
      rw [hitem, List.reverse_append]
      exact List.prefix_append _ _
    rw [List.reverse_reverse] at hprefix
    exact hprefix.isInfix
  unfold trailingAlias? at h
  split at h
  · rename_i last prev front hitem
    split at h
    · cases h
    · split at h
      · cases h
        exact hfront [last, prev] hitem
      · split at h
        · cases h
          exact hfront [last] hitem
        · cases h
  · cases h

theorem isInfix_splitAlias (item : List Token) : (splitAlias item).2 <:+: item := by
  unfold splitAlias
  split
  · rename_i hleading
    exact isInfix_of_leadingAlias? hleading
  · split
    · rename_i htrailing
      exact isInfix_of_trailingAlias? htrailing
    · exact List.infix_rfl

theorem length_splitAlias (item : List Token) : (splitAlias item).2.length ≤ item.length :=
  (isInfix_splitAlias item).length_le

def isWildcard (expr : List Token) : Bool :=
  match expr.reverse with
  | [.star] => true
  | .star :: .period :: _ => true
  | _ => false

/-- The tokens inside one pair of parentheses that wraps the whole expression. -/
def parenthesized? : List Token → Option (List Token)
  | .lparen :: ts =>
    match closeParen? 0 ts with
    | some (inner, []) => some inner
    | _ => none
  | _ => none

theorem length_parenthesized? {expr inner : List Token} (h : parenthesized? expr = some inner) :
    inner.length < expr.length := by
  unfold parenthesized? at h
  split at h
  · split at h
    · rename_i hc
      have := length_closeParen? hc
      simp only [Option.some.injEq] at h
      subst h
      simp only [List.length_cons]
      omega
    · cases h
  · cases h

/-! ## Calls -/

/-- A clause such as `OVER (…)` after a call, skipped if it is there; `none` if it is not closed. -/
def skipClause? (keywords : List String) (ts : List Token) : Option (List Token) :=
  let named := ts.take keywords.length
  let after := ts.drop keywords.length
  if named.length == keywords.length && (named.zip keywords).all (fun p => p.1.isKw p.2) &&
      startsWithParen after then
    skipGroup? after
  else some ts

/-- The name of the function in upper case and its arguments, if the expression is one call. -/
def readCall? (expr : List Token) : Option (String × List Token) :=
  match expr with
  | [] => none
  | t :: _ =>
    if t.isVariable then none
    else do
      let (parts, rest) ← readName? expr
      match rest with
      | .lparen :: ts =>
        let (arguments, rest) ← closeParen? 0 ts
        let rest ← skipClause? ["WITHIN", "GROUP"] rest
        let rest ← skipClause? ["OVER"] rest
        if rest.isEmpty then some (Text.asciiUpper (parts.getLast?.getD ""), arguments) else none
      | _ => none

theorem length_readCall? {expr arguments : List Token} {name : String}
    (h : readCall? expr = some (name, arguments)) : arguments.length < expr.length := by
  unfold readCall? at h
  split at h
  · cases h
  · split at h
    · cases h
    · simp only [Option.bind_eq_bind, Option.bind_eq_some_iff] at h
      obtain ⟨⟨parts, rest⟩, hn, h⟩ := h
      have h1 := length_readName? hn
      split at h
      · rename_i hr
        simp only [Option.bind_eq_some_iff] at h
        obtain ⟨⟨as, r⟩, hc, r1, _, r2, _, h⟩ := h
        have h2 := length_closeParen? hc
        replace hr : rest = _ := hr
        split at h
        · simp only [Option.some.injEq, Prod.mk.injEq] at h
          simp only [hr, List.length_cons] at h1 ⊢
          rw [← h.2]
          omega
        · cases h
      · cases h

def aggregates : List String :=
  ["SUM", "AVG", "MIN", "MAX", "COUNT", "COUNT_BIG", "STRING_AGG", "STDEV", "STDEVP", "VAR",
   "VARP", "CHECKSUM_AGG", "APPROX_COUNT_DISTINCT"]

/-- Single words that are values and no columns. -/
def valueWords : List String :=
  ["NULL", "DEFAULT", "CURRENT_TIMESTAMP", "CURRENT_USER", "SESSION_USER", "SYSTEM_USER", "USER"]

def columnParts? (expr : List Token) : Option (List String) :=
  match expr with
  | [] => none
  | t :: rest =>
    if t.isVariable || (rest.isEmpty && t.isAnyKw valueWords) then none
    else
      match readName? expr with
      | some (parts, []) => if parts.length ≤ 4 then some parts else none
      | _ => none

/-- The column that a reference names, bound to its source if that is known. -/
def columnRef (scope : Scope) (parts : List String) : ColumnFacts :=
  let name := parts.getLast?.getD ""
  let qualifier := parts.dropLast
  let facts : ColumnFacts := { name, kind := .columnRef, sourceAlias := qualifier.getLast? }
  match scope.resolve? qualifier with
  | none => facts
  | some source =>
    let bound :=
      match source.target with
      | some (schema, table) =>
        { facts with
          sourceSchema := some schema, sourceTable := some table, sourceColumn := some name }
      | none => facts
    if source.nullable then { bound with forcedNullable := some true } else bound

/-- A cast to the given type; the casts that start with `TRY_` may yield no value. -/
def castColumn (function : String) (target : Option String) : ColumnFacts :=
  { kind := .cast, castTarget := target
    isNullable := if "TRY_".toList.isPrefixOf function.toList then some true else none }

/-- The argument of `MIN` or `MAX`. -/
def dropQuantifier : List Token → List Token
  | t :: ts => if t.isAnyKw ["ALL", "DISTINCT"] then ts else t :: ts
  | [] => []

def aggregateColumn (scope : Scope) (function : String) (arguments : List Token) : ColumnFacts :=
  let facts : ColumnFacts :=
    { kind := .aggregate, isAggregate := some true
      aggregateFunction := some (Text.asciiLower function) }
  match function with
  | "COUNT" => { facts with sqlType := some "int", isNullable := some false }
  | "COUNT_BIG" => { facts with sqlType := some "bigint", isNullable := some false }
  | "MIN" | "MAX" =>
    match columnParts? (dropQuantifier arguments) with
    | none => facts
    | some parts =>
      let bound := columnRef scope parts
      { facts with
        sourceSchema := bound.sourceSchema, sourceTable := bound.sourceTable
        sourceColumn := bound.sourceColumn, sourceAlias := bound.sourceAlias
        forcedNullable := some true }
  | _ => facts

/-- A call that needs no look into a sub-select. -/
def callColumn (scope : Scope) (function : String) (arguments : List Token) : ColumnFacts :=
  match function with
  | "CAST" | "TRY_CAST" =>
    castColumn function ((readType? ((fromKw ["AS"] arguments).drop 1)).map (·.1))
  | "CONVERT" | "TRY_CONVERT" =>
    castColumn function (((splitCommas 0 arguments).head?.bind readType?).map (·.1))
  | _ =>
    if aggregates.contains function then aggregateColumn scope function arguments
    else { kind := .functionCall }

/-- The select that is the whole first argument of a call. -/
def selectArgument? (arguments : List Token) : Option (List Token) := do
  let first ← (splitCommas 0 arguments).head?
  let inner ← parenthesized? first
  if startsWithKw "SELECT" inner then some inner else none

theorem length_selectArgument? {arguments inner : List Token}
    (h : selectArgument? arguments = some inner) : inner.length < arguments.length := by
  simp only [selectArgument?, Option.bind_eq_bind, Option.bind_eq_some_iff] at h
  obtain ⟨first, hf, i, hi, h⟩ := h
  have h1 := length_of_mem_splitCommas (List.mem_of_head? hf)
  have h2 := length_parenthesized? hi
  split at h
  · simp only [Option.some.injEq] at h
    subst h
    omega
  · cases h

/-! ## Columns of sub-selects -/

/-- The column of a nested select with `FOR JSON`. -/
def nestedJson (facts : ColumnFacts) (json : JsonOptions) (columns : List Column) : Column :=
  .node { facts with
    isNestedJson := some true, returnsJson := some true, returnsJsonArray := some json.array }
    columns

/-- A scalar sub-select has the binding of its only column, but no value when no row matches. -/
def scalarColumn (columns : List Column) : Column :=
  match columns with
  | [.node facts children] =>
    .node { facts with
      name := ""
      kind := if facts.isCast then .cast else .computed
      forcedNullable :=
        if facts.isAggregate = some true then facts.forcedNullable else some true } children
  | _ => .leaf {}

def subSelectColumn (select : Select) : Column :=
  match select.json with
  | some json => nestedJson { kind := .nestedJson } json select.columns
  | none => scalarColumn select.columns

def jsonQueryColumn (select : Select) : Column :=
  match select.json with
  | some json => nestedJson { kind := .jsonQuery } json select.columns
  | none => .leaf { kind := .jsonQuery }

/-- The select without its list: marks and options from the clauses after the list. -/
def ofClauses (items clauses : List Token) (columns : List Column × List Issue) : Select :=
  if ((splitCommas 0 items).head?.map isVariableAssignment).getD false then
    { assignsVariables := true }
  else {
    columns := columns.1
    json := readForJson? 0 clauses
    hasInto := !(fromKw ["INTO"] (upToKw setOperators clauses)).isEmpty
    issues := columns.2 }

mutual

/-- Reads a select, whose list of tokens starts with `SELECT`; `scope` holds the sources around
it. -/
def read (ctes : List String) (scope : Scope) (ts : List Token) : Select :=
  let clauses := (listAndClauses ts).2
  let inner := sourcesOf ctes (upToKw setOperators clauses) :: scope
  let parts := (splitCommas 0 (listAndClauses ts).1).attach.map fun ⟨item, _⟩ =>
    readItem ctes inner item
  ofClauses (listAndClauses ts).1 clauses (parts.filterMap (·.1), parts.flatMap (·.2))
termination_by (ts.length, 0)
decreasing_by
  rename_i hm
  have h1 := length_of_mem_splitCommas hm
  have h2 := length_listAndClauses ts
  cases ts with
  | nil => simp [listAndClauses, splitCommas] at hm
  | cons t ts =>
    simp only [List.length_cons] at h2
    apply Prod.Lex.left
    simp only [List.length_cons]
    omega

/-- The column of one item of a select list; a wildcard has none. -/
def readItem (ctes : List String) (scope : Scope) (item : List Token) :
    Option Column × List Issue :=
  let aliasName := (splitAlias item).1
  let expr := (splitAlias item).2
  if expr.isEmpty then (none, [])
  else if isWildcard expr then (none, [.wildcardProjection])
  else
    let (column, issues) := readExpr ctes scope expr
    (some (match aliasName with | some name => column.named name | none => column), issues)
termination_by (item.length, 2)
decreasing_by
  have := length_splitAlias item
  rcases Nat.lt_or_eq_of_le this with h | h
  · exact Prod.Lex.left _ _ h
  · rw [h]
    exact Prod.Lex.right _ (by omega)

def readExpr (ctes : List String) (scope : Scope) (expr : List Token) : Column × List Issue :=
  match hp : parenthesized? expr with
  | some inner =>
    have := length_parenthesized? hp
    if startsWithKw "SELECT" inner then
      let select := read ctes scope inner
      (subSelectColumn select, select.issues)
    else readExpr ctes scope inner
  | none =>
    match hc : readCall? expr with
    | some (function, arguments) =>
      if function = "JSON_QUERY" then
        match hs : selectArgument? arguments with
        | some inner =>
          have := length_readCall? hc
          have := length_selectArgument? hs
          let select := read ctes scope inner
          (jsonQueryColumn select, select.issues)
        | none => (.leaf { kind := .jsonQuery }, [])
      else (.leaf (callColumn scope function arguments), [])
    | none =>
      match columnParts? expr with
      | some parts => (.leaf (columnRef scope parts), [])
      | none => (.leaf {}, [])
termination_by (expr.length, 1)

end

end Select

end SqlSnapshot
