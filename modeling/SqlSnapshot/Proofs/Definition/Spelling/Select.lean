import SqlSnapshot.Proofs.Definition.Select
import SqlSnapshot.Proofs.Definition.Spelling.Source

/-!
# Spelling of selects

A select in another spelling has the same columns at every depth, up to the case of the names and
types that they record, and the same marks and issues.
-/

namespace SqlSnapshot

open Text Token

/-! ## What is recorded, in lower case -/

def ColumnFacts.lowered (f : ColumnFacts) : ColumnFacts :=
  { f with
    name := asciiLower f.name
    sourceSchema := f.sourceSchema.map asciiLower
    sourceTable := f.sourceTable.map asciiLower
    sourceColumn := f.sourceColumn.map asciiLower
    sourceAlias := f.sourceAlias.map asciiLower
    castTarget := f.castTarget.map asciiLower }

namespace Column

mutual

/-- The column with the names and types of it and of all below it in lower case. -/
def lowered : Column → Column
  | .node facts children => .node facts.lowered (loweredAll children)

def loweredAll : List Column → List Column
  | [] => []
  | c :: cs => c.lowered :: loweredAll cs

end

theorem loweredAll_eq_map (cs : List Column) : loweredAll cs = cs.map lowered := by
  induction cs with
  | nil => rfl
  | cons c cs ih => rw [loweredAll, ih, List.map_cons]

theorem lowered_named (c : Column) (name : String) :
    (c.named name).lowered = c.lowered.named (asciiLower name) := by
  cases c
  rfl

end Column

def JsonOptions.lowered (options : JsonOptions) : JsonOptions :=
  { options with root := options.root.map asciiLower }

/-- The select with the names and types of its columns in lower case. -/
def Select.lowered (select : Select) : Select :=
  { select with
    columns := Column.loweredAll select.columns
    json := select.json.map JsonOptions.lowered }

namespace Select

variable {ctes : List String} {scope : Scope} {ts : List Token}

/-! ## The select list and its modifiers -/

/-- The normal spelling of a token and of the tokens after it. -/
def normalAfter : Token × List Token → Token × List Token :=
  Prod.map normal (List.map normal)

@[simp]
theorem normalAfter_fst (found : Token × List Token) :
    (normalAfter found).1 = found.1.normal := rfl

@[simp]
theorem normalAfter_snd (found : Token × List Token) :
    (normalAfter found).2 = found.2.map normal := rfl

theorem skipOne_normal (prev : Token) (ts : List Token) :
    skipOne prev.normal (ts.map normal) = normalAfter (skipOne prev ts) := by
  cases ts <;> rfl

theorem skipTopAmount_normal (prev : Token) (ts : List Token) :
    skipTopAmount prev.normal (ts.map normal) = normalAfter (skipTopAmount prev ts) := by
  simp only [skipTopAmount, skipGroup?_normal]
  cases skipGroup? ts with
  | none => exact skipOne_normal prev ts
  | some rest => rfl

theorem skipPercent_normal (prev : Token) (ts : List Token) :
    skipPercent prev.normal (ts.map normal) = normalAfter (skipPercent prev ts) := by
  simp only [skipPercent, startsWithKw_normal, mem_keywords, skipOne_normal]
  split <;> rfl

theorem skipTies_normal (prev : Token) (ts : List Token) :
    skipTies prev.normal (ts.map normal) = normalAfter (skipTies prev ts) := by
  simp only [skipTies, ← List.map_drop, startsWithKw_normal, mem_keywords, skipOne_normal]
  split <;> rfl

theorem skipTop_normal (prev : Token) (ts : List Token) :
    skipTop prev.normal (ts.map normal) = normalAfter (skipTop prev ts) := by
  simp only [skipTop, skipTopAmount_normal, normalAfter_fst, normalAfter_snd, skipPercent_normal,
    skipTies_normal]

theorem skipModifiers_normal (prev : Token) (ts : List Token) :
    skipModifiers prev.normal (ts.map normal) = normalAfter (skipModifiers prev ts) := by
  fun_induction skipModifiers prev ts with
  | case1 prev => rw [List.map_nil, skipModifiers]; rfl
  | case2 prev t rest h ih =>
    rw [List.map_cons, skipModifiers]
    simp [h, ih]
  | case3 prev t rest h htop _ ih =>
    rw [List.map_cons, skipModifiers]
    simp [h, htop, skipTop_normal]
    exact ih
  | case4 prev t rest h htop =>
    rw [List.map_cons, skipModifiers]
    simp [h, htop]
    rfl

theorem cutList_normal (prev : Token) (depth : Nat) (ts : List Token) :
    cutList prev.normal depth (ts.map normal) = normalBoth (cutList prev depth ts) := by
  induction ts generalizing prev depth with
  | nil => rfl
  | cons t ts ih =>
    simp [cutList, ih]
    split_ifs <;> rfl

theorem listAndClauses_normal (ts : List Token) :
    listAndClauses (ts.map normal) = normalBoth (listAndClauses ts) := by
  cases ts with
  | nil => rfl
  | cons t ts =>
    simp only [List.map_cons, listAndClauses, skipModifiers_normal]
    exact cutList_normal _ 0 _

theorem checkList_normal (ts : List Token) : checkList (ts.map normal) = checkList ts := by
  simp [checkList, listAndClauses_normal]

theorem isVariableAssignment_normal (ts : List Token) :
    isVariableAssignment (ts.map normal) = isVariableAssignment ts := by
  match ts with
  | [] => rfl
  | [t] => rfl
  | t :: u :: ts =>
    cases u <;> simp [isVariableAssignment]

/-! ## Clauses -/

/-- The root name in the parenthesis after `ROOT`. -/
def rootName : List Token → String
  | .str name :: _ => name
  | _ => "root"

theorem readRoot_group (ts : List Token) :
    readRoot (.lparen :: ts) = (rootName ts, (skipGroup? (.lparen :: ts)).getD ts) := rfl

theorem rootName_normal (ts : List Token) :
    rootName (ts.map normal) = asciiLower (rootName ts) := by
  have hroot : asciiLower "root" = "root" := by decide
  cases ts with
  | nil => exact hroot.symm
  | cons t ts =>
    cases t with
    | str name => rfl
    | _ => exact hroot.symm

theorem readRoot_normal (ts : List Token) :
    readRoot (ts.map normal) = (asciiLower (readRoot ts).1, (readRoot ts).2.map normal) := by
  have hroot : asciiLower "root" = "root" := by decide
  cases ts with
  | nil => exact congrArg (·, []) hroot.symm
  | cons t ts =>
    cases t with
    | lparen =>
      have hgroup := skipGroup?_normal (.lparen :: ts)
      rw [List.map_cons, normal_lparen] at hgroup
      rw [List.map_cons, normal_lparen, readRoot_group, readRoot_group, hgroup, Option.getD_map,
        rootName_normal]
    | _ => exact congrArg (·, _) hroot.symm

theorem readJsonOptions_normal (options : JsonOptions) (ts : List Token) :
    readJsonOptions options.lowered (ts.map normal) = (readJsonOptions options ts).lowered := by
  fun_induction readJsonOptions options ts with
  | case1 options => rw [List.map_nil, readJsonOptions]
  | case2 options t rest hroot _ ih =>
    rw [List.map_cons, readJsonOptions]
    simp [hroot, readRoot_normal]
    exact ih
  | case3 options t rest hroot hwrapper ih =>
    rw [List.map_cons, readJsonOptions]
    simp [hroot, hwrapper]
    exact ih
  | case4 options t rest hroot hwrapper hnulls ih =>
    rw [List.map_cons, readJsonOptions]
    simp [hroot, hwrapper, hnulls]
    exact ih
  | case5 options t rest hroot hwrapper hnulls hskip ih =>
    rw [List.map_cons, readJsonOptions]
    simp [hroot, hwrapper, hnulls, hskip, ih]
  | case6 options t rest hroot hwrapper hnulls hskip =>
    rw [List.map_cons, readJsonOptions]
    simp [hroot, hwrapper, hnulls, hskip]

theorem readForJson?_normal (depth : Nat) (ts : List Token) :
    readForJson? depth (ts.map normal) = (readForJson? depth ts).map JsonOptions.lowered := by
  induction ts generalizing depth with
  | nil => rfl
  | cons t ts ih =>
    have hoptions := readJsonOptions_normal {} ts.tail
    rw [List.map_tail] at hoptions
    simp [readForJson?, ih]
    split_ifs
    · exact congrArg some hoptions
    · rfl

theorem sourcesOf_normal (ctes : List String) (clauses : List Token) :
    sourcesOf (ctes.map asciiLower) (clauses.map normal) =
      (sourcesOf ctes clauses).map Source.lowered := by
  rw [sourcesOf, sourcesOf, fromKw_normal (by simp)]
  cases fromKw ["FROM"] clauses with
  | nil => rfl
  | cons t ts =>
    show Source.ofClause _ (upToKw fromEnd (ts.map normal)) = _
    rw [upToKw_normal (by simp), Source.ofClause_normal]

/-! ## Aliases -/

theorem aliasText?_normal (t : Token) : aliasText? t.normal = (aliasText? t).map asciiLower := by
  cases t with
  | word text quoted =>
    cases quoted with
    | true => rfl
    | false =>
      cases hordinary : isOrdinary text with
      | true =>
        have hat : Source.startsWithChar '@' text = false := head?_of_isOrdinary hordinary
        rw [normal_of_isOrdinary hordinary, aliasText?, aliasText?,
          isAnyKw_of_isOrdinary (by simp) hordinary, hat]
        rfl
      | false =>
        have hat : Source.startsWithChar '@' (asciiLower text) = Source.startsWithChar '@' text :=
          Source.startsWithChar_asciiLower (by decide) (by decide) text
        rw [normal_of_not_isOrdinary hordinary, aliasText?, aliasText?, hat, isAnyKw_asciiLower]
        split <;> rfl
  | _ => rfl

theorem precedesAlias_normal (t : Token) : precedesAlias t.normal = precedesAlias t := by
  cases t with
  | word text quoted => exact congrArg not (isAnyKw_normal (.word text quoted) (by simp))
  | _ => rfl

/-- An alias in lower case and the normal spelling of the expression. -/
def normalNamed : String × List Token → String × List Token :=
  Prod.map asciiLower (List.map normal)

theorem leadingAlias?_normal (item : List Token) :
    leadingAlias? (item.map normal) = (leadingAlias? item).map normalNamed := by
  match item with
  | [] => rfl
  | [t] => cases t <;> rfl
  | [t, u] => cases t <;> cases u <;> rfl
  | t :: u :: v :: ts =>
    cases t with
    | word text quoted =>
      cases u with
      | equals =>
        have hvariable := isVariable_normal (.word text quoted)
        rw [normal] at hvariable
        simp only [List.map_cons, normal_word, normal_equals, leadingAlias?, hvariable]
        split <;> rfl
      | _ => rfl
    | str text => cases u <;> rfl
    | _ => rfl

theorem trailingAlias?_normal (item : List Token) :
    trailingAlias? (item.map normal) = (trailingAlias? item).map normalNamed := by
  rw [trailingAlias?, trailingAlias?, ← List.map_reverse]
  match item.reverse with
  | [] => rfl
  | [last] => rfl
  | last :: prev :: front =>
    simp only [List.map_cons, aliasText?_normal, isKw_normal, mem_keywords, precedesAlias_normal,
      List.isEmpty_map]
    cases aliasText? last with
    | none => rfl
    | some text =>
      simp only [Option.map_some]
      split_ifs <;> simp [normalNamed]

theorem splitAlias_normal (item : List Token) :
    splitAlias (item.map normal) =
      ((splitAlias item).1.map asciiLower, (splitAlias item).2.map normal) := by
  rw [splitAlias, splitAlias, leadingAlias?_normal, trailingAlias?_normal]
  cases leadingAlias? item with
  | some named => rfl
  | none =>
    cases trailingAlias? item with
    | some named => rfl
    | none => rfl

theorem isWildcard_normal (expr : List Token) : isWildcard (expr.map normal) = isWildcard expr := by
  rw [isWildcard, isWildcard, ← List.map_reverse]
  match expr.reverse with
  | [] => rfl
  | [t] => cases t <;> rfl
  | t :: u :: ts => cases t <;> cases u <;> rfl

theorem isEmpty_splitAlias_normal (item : List Token) :
    (splitAlias (item.map normal)).2.isEmpty = (splitAlias item).2.isEmpty := by
  rw [splitAlias_normal, List.isEmpty_map]

theorem isWildcard_splitAlias_normal (item : List Token) :
    isWildcard (splitAlias (item.map normal)).2 = isWildcard (splitAlias item).2 := by
  rw [splitAlias_normal, isWildcard_normal]

theorem parenthesized?_normal (expr : List Token) :
    parenthesized? (expr.map normal) = (parenthesized? expr).map (List.map normal) := by
  cases expr with
  | nil => rfl
  | cons t ts =>
    cases t with
    | lparen =>
      rw [List.map_cons, normal_lparen, parenthesized?, parenthesized?, closeParen?_normal]
      cases closeParen? 0 ts with
      | none => rfl
      | some parts =>
        obtain ⟨inner, rest⟩ := parts
        cases rest <;> rfl
    | _ => rfl

/-! ## Calls -/

theorem zip_all_isKw_normal {tested : List String} (h : tested ⊆ keywords) (ts : List Token) :
    ((ts.map normal).zip tested).all (fun p => p.1.isKw p.2) =
      (ts.zip tested).all (fun p => p.1.isKw p.2) := by
  induction ts generalizing tested with
  | nil => rfl
  | cons t ts ih =>
    cases tested with
    | nil => rfl
    | cons keyword tested =>
      obtain ⟨hkeyword, htested⟩ := List.cons_subset.mp h
      simp only [List.map_cons, List.zip_cons_cons, List.all_cons, isKw_normal t hkeyword,
        ih htested]

theorem skipClause?_normal {tested : List String} (h : tested ⊆ keywords) (ts : List Token) :
    skipClause? tested (ts.map normal) = (skipClause? tested ts).map (List.map normal) := by
  simp only [skipClause?, ← List.map_take, ← List.map_drop, List.length_map,
    zip_all_isKw_normal h, startsWithParen_normal, skipGroup?_normal]
  split <;> rfl

def normalArguments : String × List Token → String × List Token :=
  Prod.map id (List.map normal)

/-- The call whose name is read already. -/
def finishCall? (name : List String × List Token) : Option (String × List Token) :=
  match name.2 with
  | .lparen :: ts =>
    (closeParen? 0 ts).bind fun parts =>
      (skipClause? ["WITHIN", "GROUP"] parts.2).bind fun rest =>
        (skipClause? ["OVER"] rest).bind fun rest =>
          if rest.isEmpty then some (asciiUpper (name.1.getLast?.getD ""), parts.1) else none
  | _ => none

theorem readCall?_eq (t : Token) (ts : List Token) :
    readCall? (t :: ts) =
      if t.isVariable then none else (readName? (t :: ts)).bind finishCall? := by
  rw [readCall?]
  congr 2

theorem finishCall?_normal (name : List String × List Token) :
    finishCall? (normalName name) = (finishCall? name).map normalArguments := by
  obtain ⟨parts, rest⟩ := name
  cases rest with
  | nil => rfl
  | cons t rest =>
    cases t with
    | lparen =>
      have hlast := Source.getLastD_map_asciiLower "" rfl parts
      simp only [finishCall?, normalName, Prod.map_apply, List.map_cons, normal_lparen,
        closeParen?_normal]
      cases closeParen? 0 rest with
      | none => rfl
      | some found =>
        simp only [Option.map_some, Option.bind_some, normalBoth_snd, normalBoth_fst]
        rw [skipClause?_normal (by simp)]
        cases skipClause? ["WITHIN", "GROUP"] found.2 with
        | none => rfl
        | some after =>
          simp only [Option.map_some, Option.bind_some]
          rw [skipClause?_normal (by simp)]
          cases skipClause? ["OVER"] after with
          | none => rfl
          | some last =>
            simp only [Option.map_some, Option.bind_some, List.isEmpty_map, hlast,
              asciiUpper_asciiLower]
            split <;> rfl
    | _ => rfl

theorem readCall?_normal (expr : List Token) :
    readCall? (expr.map normal) = (readCall? expr).map normalArguments := by
  cases expr with
  | nil => rfl
  | cons t ts =>
    have hname := readName?_normal (t :: ts)
    rw [List.map_cons] at hname
    rw [List.map_cons, readCall?_eq, readCall?_eq, hname, isVariable_normal]
    split
    · rfl
    · cases readName? (t :: ts) with
      | none => rfl
      | some name => exact finishCall?_normal name

/-! ## Columns -/

theorem columnParts?_normal (expr : List Token) :
    columnParts? (expr.map normal) = (columnParts? expr).map (List.map asciiLower) := by
  cases expr with
  | nil => rfl
  | cons t ts =>
    have hname := readName?_normal (t :: ts)
    rw [List.map_cons] at hname
    simp only [columnParts?, List.map_cons, isVariable_normal, List.isEmpty_map, isAnyKw_normal,
      subset_keywords, hname]
    split
    · rfl
    · cases readName? (t :: ts) with
      | none => rfl
      | some name =>
        obtain ⟨parts, rest⟩ := name
        cases rest with
        | nil =>
          simp only [Option.map_some, normalName, Prod.map_apply, List.map_nil, List.length_map]
          split <;> rfl
        | cons u rest => rfl

theorem columnRef_lowered (scope : Scope) (parts : List String) :
    columnRef scope.lowered (parts.map asciiLower) = (columnRef scope parts).lowered := by
  have hname := Source.getLastD_map_asciiLower "" rfl parts
  have hqualifier : (parts.map asciiLower).dropLast.getLast? =
      parts.dropLast.getLast?.map asciiLower := by
    rw [← List.map_dropLast, List.getLast?_map]
  have hresolve : scope.lowered.resolve? (parts.map asciiLower).dropLast =
      (scope.resolve? parts.dropLast).map Source.lowered := by
    rw [← List.map_dropLast, Scope.resolve?_lowered]
  simp only [columnRef, hname, hqualifier, hresolve]
  cases scope.resolve? parts.dropLast with
  | none => rfl
  | some source =>
    obtain ⟨aliasName, name, target, nullable⟩ := source
    cases target <;> cases nullable <;> rfl

theorem castColumn_lowered (function : String) (target : Option String) :
    castColumn function (target.map asciiLower) = (castColumn function target).lowered := rfl

theorem dropQuantifier_normal (ts : List Token) :
    dropQuantifier (ts.map normal) = (dropQuantifier ts).map normal := by
  cases ts with
  | nil => rfl
  | cons t ts =>
    simp only [List.map_cons, dropQuantifier]
    rw [isAnyKw_normal t (by simp)]
    split <;> rfl

theorem aggregateColumn_lowered (scope : Scope) (function : String) (arguments : List Token) :
    aggregateColumn scope.lowered function (arguments.map normal) =
      (aggregateColumn scope function arguments).lowered := by
  simp only [aggregateColumn, dropQuantifier_normal, columnParts?_normal]
  split
  · rfl
  · rfl
  case h_3 | h_4 =>
    cases columnParts? (dropQuantifier arguments) with
    | none => rfl
    | some parts =>
      simp only [Option.map_some, columnRef_lowered]
      rfl
  · rfl

theorem head?_splitCommas_normal (depth : Nat) (ts : List Token) :
    (splitCommas depth (ts.map normal)).head? =
      (splitCommas depth ts).head?.map (List.map normal) := by
  rw [splitCommas_normal, List.head?_map]

theorem callColumn_lowered (scope : Scope) (function : String) (arguments : List Token) :
    callColumn scope.lowered function (arguments.map normal) =
      (callColumn scope function arguments).lowered := by
  have hcast : ((fromKw ["AS"] (arguments.map normal)).drop 1) =
      ((fromKw ["AS"] arguments).drop 1).map normal := by
    rw [fromKw_normal (by simp), List.map_drop]
  unfold callColumn
  split
  case h_1 | h_2 =>
    rw [hcast, readType?_normal, Option.map_map, ← castColumn_lowered, Option.map_map]
    rfl
  case h_3 | h_4 =>
    rw [head?_splitCommas_normal, ← castColumn_lowered]
    cases (splitCommas 0 arguments).head? with
    | none => rfl
    | some first =>
      simp only [Option.map_some, Option.bind_some, readType?_normal, Option.map_map]
      rfl
  · rw [aggregateColumn_lowered]
    split <;> rfl

theorem selectArgument?_normal (arguments : List Token) :
    selectArgument? (arguments.map normal) = (selectArgument? arguments).map (List.map normal) := by
  rw [selectArgument?, selectArgument?, head?_splitCommas_normal]
  cases (splitCommas 0 arguments).head? with
  | none => rfl
  | some first =>
    simp only [Option.map_some, Option.bind_eq_bind, Option.bind_some, parenthesized?_normal]
    cases parenthesized? first with
    | none => rfl
    | some inner =>
      simp only [Option.map_some, Option.bind_some, startsWithKw_normal, mem_keywords]
      split <;> rfl

/-! ## Sub-selects -/

theorem nestedJson_lowered (facts : ColumnFacts) (json : JsonOptions) (columns : List Column) :
    (nestedJson facts json columns).lowered =
      nestedJson facts.lowered json.lowered (Column.loweredAll columns) := rfl

theorem scalarColumn_lowered (columns : List Column) :
    (scalarColumn columns).lowered = scalarColumn (Column.loweredAll columns) := by
  match columns with
  | [] => rfl
  | [.node facts children] => rfl
  | .node _ _ :: _ :: _ => rfl

theorem subSelectColumn_lowered (select : Select) :
    (subSelectColumn select).lowered = subSelectColumn select.lowered := by
  cases h : select.json with
  | none => simp [subSelectColumn, lowered, h, scalarColumn_lowered]
  | some json => simp [subSelectColumn, lowered, h, nestedJson_lowered]; rfl

theorem jsonQueryColumn_lowered (select : Select) :
    (jsonQueryColumn select).lowered = jsonQueryColumn select.lowered := by
  cases h : select.json with
  | none => simp [jsonQueryColumn, lowered, h]; rfl
  | some json => simp [jsonQueryColumn, lowered, h, nestedJson_lowered]; rfl

theorem ofClauses_lowered
    (items clauses : List Token) (columns : List Column) (issues : List Issue) :
    ofClauses (items.map normal) (clauses.map normal) (Column.loweredAll columns, issues) =
      (ofClauses items clauses (columns, issues)).lowered := by
  have hassignment : ((splitCommas 0 (items.map normal)).head?.map isVariableAssignment) =
      (splitCommas 0 items).head?.map isVariableAssignment := by
    rw [head?_splitCommas_normal, Option.map_map]
    congr 1
    exact funext isVariableAssignment_normal
  have hinto : (fromKw ["INTO"] (upToKw setOperators (clauses.map normal))).isEmpty =
      (fromKw ["INTO"] (upToKw setOperators clauses)).isEmpty := by
    rw [upToKw_normal (by simp), fromKw_normal (by simp), List.isEmpty_map]
  simp only [ofClauses, hassignment, hinto, readForJson?_normal]
  split <;> rfl

/-! ## Selects -/

/-- The column of an item in lower case, with its issues. -/
def loweredItem : Option Column × List Issue → Option Column × List Issue :=
  Prod.map (Option.map Column.lowered) id

def loweredColumn : Column × List Issue → Column × List Issue :=
  Prod.map Column.lowered id

theorem innerScope_normal (ctes : List String) (scope : Scope) (ts : List Token) :
    innerScope (ctes.map asciiLower) scope.lowered (ts.map normal) =
      (innerScope ctes scope ts).lowered := by
  rw [innerScope, listAndClauses_normal, normalBoth_snd, upToKw_normal (by simp), sourcesOf_normal]
  rfl

theorem readItems_normal
    {items : List (Option Column × List Issue)}
    (h : items = (readItems ctes scope ts).map loweredItem) :
    (items.filterMap (·.1), items.flatMap (·.2)) =
      (Column.loweredAll ((readItems ctes scope ts).filterMap (·.1)),
        (readItems ctes scope ts).flatMap (·.2)) := by
  subst h
  rw [Column.loweredAll_eq_map, List.map_filterMap, List.filterMap_map, List.flatMap_map]
  rfl

theorem withAlias_lowered (aliasName : Option String) (column : Column) :
    (withAlias aliasName column).lowered =
      withAlias (aliasName.map asciiLower) column.lowered := by
  cases aliasName with
  | none => rfl
  | some name => exact Column.lowered_named column name

variable {expr arguments : List Token}

theorem parenthesized?_normal_some {inner : List Token} (h : parenthesized? expr = some inner) :
    parenthesized? (expr.map normal) = some (inner.map normal) := by
  rw [parenthesized?_normal, h]
  rfl

theorem parenthesized?_normal_none (h : parenthesized? expr = none) :
    parenthesized? (expr.map normal) = none := by
  rw [parenthesized?_normal, h]
  rfl

theorem readCall?_normal_some
    {function : String} (h : readCall? expr = some (function, arguments)) :
    readCall? (expr.map normal) = some (function, arguments.map normal) := by
  rw [readCall?_normal, h]
  rfl

theorem readCall?_normal_none (h : readCall? expr = none) :
    readCall? (expr.map normal) = none := by
  rw [readCall?_normal, h]
  rfl

/-- Selects, items and expressions are read alike in every spelling. -/
theorem read_normal (ctes : List String) :
    (∀ scope ts, read (ctes.map asciiLower) scope.lowered (ts.map normal) =
      (read ctes scope ts).lowered) ∧
    (∀ scope item, readItem (ctes.map asciiLower) scope.lowered (item.map normal) =
      loweredItem (readItem ctes scope item)) ∧
    ∀ scope expr, readExpr (ctes.map asciiLower) scope.lowered (expr.map normal) =
      loweredColumn (readExpr ctes scope expr) := by
  apply readers_induct ctes
  case select =>
    intro scope ts ih
    have hitems : readItems (ctes.map asciiLower) scope.lowered (ts.map normal) =
        (readItems ctes scope ts).map loweredItem := by
      rw [readItems, readItems, innerScope_normal, listAndClauses_normal, normalBoth_fst,
        splitCommas_normal, List.map_map, List.map_map]
      exact List.map_congr_left ih
    rw [read_eq, read_eq, readItems_normal hitems, listAndClauses_normal]
    exact ofClauses_lowered _ _ _ _
  case empty =>
    intro scope item hempty
    have hempty' : (splitAlias (item.map normal)).2.isEmpty = true :=
      (isEmpty_splitAlias_normal item).trans hempty
    rw [readItem_of_isEmpty hempty, readItem_of_isEmpty hempty']
    rfl
  case wildcard =>
    intro scope item hempty hwildcard
    have hempty' : ¬ (splitAlias (item.map normal)).2.isEmpty = true := fun h =>
      hempty ((isEmpty_splitAlias_normal item).symm.trans h)
    have hwildcard' : isWildcard (splitAlias (item.map normal)).2 = true :=
      (isWildcard_splitAlias_normal item).trans hwildcard
    rw [readItem_of_isWildcard hempty hwildcard, readItem_of_isWildcard hempty' hwildcard']
    rfl
  case item =>
    intro scope item hempty hwildcard ih
    have hempty' : ¬ (splitAlias (item.map normal)).2.isEmpty = true := fun h =>
      hempty ((isEmpty_splitAlias_normal item).symm.trans h)
    have hwildcard' : ¬ isWildcard (splitAlias (item.map normal)).2 = true := fun h =>
      hwildcard ((isWildcard_splitAlias_normal item).symm.trans h)
    have hcolumn : readExpr (ctes.map asciiLower) scope.lowered ((splitAlias item).2.map normal) =
        loweredColumn (readExpr ctes scope (splitAlias item).2) := ih
    rw [readItem_of_expr hempty hwildcard, readItem_of_expr hempty' hwildcard', splitAlias_normal,
      hcolumn, loweredItem, Prod.map_apply, Option.map_some, withAlias_lowered]
    rfl
  case subSelect =>
    intro scope expr inner hinner hselect ih
    have hselect' : startsWithKw "SELECT" (inner.map normal) = true := by simpa using hselect
    rw [readExpr_of_subSelect hinner hselect,
      readExpr_of_subSelect (parenthesized?_normal_some hinner) hselect', ih,
      ← subSelectColumn_lowered]
    rfl
  case parenthesized =>
    intro scope expr inner hinner hselect ih
    have hselect' : ¬ startsWithKw "SELECT" (inner.map normal) = true := by simpa using hselect
    rw [readExpr_of_parenthesized hinner hselect,
      readExpr_of_parenthesized (parenthesized?_normal_some hinner) hselect', ih]
  case jsonQuery =>
    intro scope expr arguments inner hinner hcall hselect ih
    have hselect' : selectArgument? (arguments.map normal) = some (inner.map normal) := by
      rw [selectArgument?_normal, hselect]
      rfl
    rw [readExpr_of_jsonQuery hinner hcall hselect,
      readExpr_of_jsonQuery (parenthesized?_normal_none hinner) (readCall?_normal_some hcall)
        hselect', ih, ← jsonQueryColumn_lowered]
    rfl
  case jsonValue =>
    intro scope expr arguments hinner hcall hselect
    have hselect' : selectArgument? (arguments.map normal) = none := by
      rw [selectArgument?_normal, hselect]
      rfl
    rw [readExpr_of_jsonQuery_value hinner hcall hselect,
      readExpr_of_jsonQuery_value (parenthesized?_normal_none hinner)
        (readCall?_normal_some hcall) hselect']
    rfl
  case call =>
    intro scope expr function arguments hinner hcall hname
    rw [readExpr_of_call hinner hcall hname,
      readExpr_of_call (parenthesized?_normal_none hinner) (readCall?_normal_some hcall) hname,
      callColumn_lowered]
    rfl
  case column =>
    intro scope expr parts hinner hcall hparts
    have hparts' : columnParts? (expr.map normal) = some (parts.map asciiLower) := by
      rw [columnParts?_normal, hparts]
      rfl
    rw [readExpr_of_column hinner hcall hparts,
      readExpr_of_column (parenthesized?_normal_none hinner) (readCall?_normal_none hcall) hparts',
      columnRef_lowered]
    rfl
  case other =>
    intro scope expr hinner hcall hparts
    have hparts' : columnParts? (expr.map normal) = none := by
      rw [columnParts?_normal, hparts]
      rfl
    rw [readExpr_of_other hinner hcall hparts,
      readExpr_of_other (parenthesized?_normal_none hinner) (readCall?_normal_none hcall) hparts']
    rfl

end Select

end SqlSnapshot
