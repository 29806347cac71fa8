import SqlSnapshot.Proofs.Definition.Select
import SqlSnapshot.Proofs.Indexed.Clauses
import SqlSnapshot.Proofs.Indexed.Source

/-!
# Selects by positions

A select reads the items of its list, an item its expression, and an expression may be a select
again.  Each goes on with a part of what it was given, and the part of an expression that is read by
recursion is shorter.
-/

namespace SqlSnapshot.Indexed

open Token

variable {ts us rest expr : List Token} {t : Token} {ctes : List String} {scope : Scope}

/-! ## Aliases -/

def leadingAlias (item : List Token) : Checked (Option (String × List Token)) := do
  if 2 < item.length ∧ item[1]? = some .equals then
    match ← tokenAt item 0 with
    | .word text quoted =>
      if Token.isVariable (.word text quoted) then return none
      else return some (text, ← slice item 2 item.length)
    | .str text => return some (text, ← slice item 2 item.length)
    | _ => return none
  else return none

def trailingAlias (item : List Token) : Checked (Option (String × List Token)) := do
  if item.length < 2 then return none
  else
    match Select.aliasText? (← tokenAt item (← lower item.length 1)) with
    | none => return none
    | some text =>
      let prev ← tokenAt item (← lower item.length 2)
      if 3 ≤ item.length ∧ prev.isKw "AS" = true then
        return some (text, ← slice item 0 (← lower item.length 2))
      else if Select.precedesAlias prev then
        return some (text, ← slice item 0 (← lower item.length 1))
      else return none

def splitAlias (item : List Token) : Checked (Option String × List Token) := do
  match ← leadingAlias item with
  | some (text, expr) => return (some text, expr)
  | none =>
    match ← trailingAlias item with
    | some (text, expr) => return (some text, expr)
    | none => return (none, item)

theorem leadingAlias?_of_not
    {item : List Token} (h : ¬ (2 < item.length ∧ item[1]? = some .equals)) :
    Select.leadingAlias? item = none := by
  unfold Select.leadingAlias?
  split
  · exact absurd ⟨by simp, rfl⟩ h
  · exact absurd ⟨by simp, rfl⟩ h
  · rfl

theorem leadingAlias_eq (item : List Token) :
    leadingAlias item = .ok (Select.leadingAlias? item) := by
  rw [leadingAlias]
  split
  · rename_i hequals
    have hslice := slice_drop (Nat.le_of_lt hequals.1)
    match item, hequals, hslice with
    | t :: u :: v :: rest, hequals, hslice =>
      obtain rfl : u = .equals := Option.some.inj hequals.2
      have ht : tokenAt (t :: .equals :: v :: rest) 0 = .ok t := rfl
      rw [ht, ok_bind, hslice]
      cases t with
      | word text quoted => exact apply_ite Except.ok _ _ _ |>.symm
      | _ => rfl
  · rename_i hnot
    rw [leadingAlias?_of_not hnot]
    rfl

theorem trailingAlias?_append (front : List Token) (prev last : Token) :
    Select.trailingAlias? (front ++ [prev, last]) =
      match Select.aliasText? last with
      | none => none
      | some text =>
        if prev.isKw "AS" && !front.isEmpty then some (text, front)
        else if Select.precedesAlias prev then some (text, front ++ [prev])
        else none := by
  have hreverse : (front ++ [prev, last]).reverse = last :: prev :: front.reverse := by simp
  rw [Select.trailingAlias?, hreverse]
  dsimp only
  cases Select.aliasText? last with
  | none => rfl
  | some text => simp only [List.isEmpty_reverse, List.reverse_cons, List.reverse_reverse]

theorem trailingAlias_eq (item : List Token) :
    trailingAlias item = .ok (Select.trailingAlias? item) := by
  rcases List.eq_nil_or_concat item with rfl | ⟨butLast, last, rfl⟩
  · rfl
  rcases List.eq_nil_or_concat butLast with rfl | ⟨front, prev, rfl⟩
  · rfl
  have hitem : (front.concat prev).concat last = front ++ [prev, last] := by simp
  have hlength : (front ++ [prev, last]).length = front.length + 2 := by simp
  have hlast : tokenAt (front ++ [prev, last]) (front.length + 1) = .ok last := by
    have hbehind := tokenAt_append (front ++ [prev]) last []
    rwa [List.append_assoc, List.length_append] at hbehind
  have hprev : tokenAt (front ++ [prev, last]) front.length = .ok prev :=
    tokenAt_append front prev [last]
  have hone : lower (front.length + 2) 1 = .ok (front.length + 1) := lower_of_le (by omega)
  have htwo : lower (front.length + 2) 2 = .ok front.length := lower_of_le (by omega)
  have hfront : slice (front ++ [prev, last]) 0 front.length = .ok front := by
    rw [slice_take (by simp), List.take_left']
    rfl
  have hbutLast : slice (front ++ [prev, last]) 0 (front.length + 1) = .ok (front ++ [prev]) := by
    have hlist : front ++ [prev, last] = (front ++ [prev]) ++ [last] := by simp
    rw [slice_take (by simp), hlist, List.take_left' (by simp)]
  have hmore : 3 ≤ front.length + 2 ∧ prev.isKw "AS" = true ↔
      (prev.isKw "AS" && !front.isEmpty) = true := by
    cases front <;> simp
  rw [hitem, trailingAlias?_append, trailingAlias, hlength, if_neg (by omega), hone, ok_bind, hlast,
    ok_bind]
  cases Select.aliasText? last with
  | none => rfl
  | some text =>
    simp only [htwo, ok_bind, hprev, hfront, hbutLast, hmore]
    split
    · rfl
    · split <;> rfl

theorem splitAlias_eq (item : List Token) : splitAlias item = .ok (Select.splitAlias item) := by
  rw [splitAlias, leadingAlias_eq, ok_bind, Select.splitAlias]
  cases Select.leadingAlias? item with
  | some found => rfl
  | none =>
    simp only [trailingAlias_eq, ok_bind]
    cases Select.trailingAlias? item <;> rfl

/-! ## Expressions -/

/-- The tokens inside one pair of parentheses that wraps the whole expression. -/
def parenthesized (expr : List Token) : Checked (Option (List Token)) := do
  if expr.head? = some .lparen ∧ expr.getLast? = some .rparen then
    let last ← lower expr.length 1
    if matchingParen expr 0 = some last then return some (← slice expr 1 last) else return none
  else return none

/-- The keywords stand at the positions from the given one on. -/
def hasKws (ts : List Token) (i : Nat) : List String → Bool
  | [] => true
  | keyword :: keywords => hasKw ts i keyword && hasKws ts (i + 1) keywords

/-- Behind a clause such as `OVER (…)`, if it stands at a position. -/
def skipClause (keywords : List String) (ts : List Token) (i : Nat) : Option Nat :=
  if hasKws ts i keywords && hasParen ts (i + keywords.length) then
    afterGroup ts (i + keywords.length)
  else some i

/-- The name of the function in upper case and its arguments, if the expression is one call. -/
def readCall (expr : List Token) : Checked (Option (String × List Token)) :=
  if (expr.head?).any (·.isVariable) then .ok none
  else
    andThen (readName expr 0) fun (parts, i) =>
      if hasParen expr i then
        andThen (readGroup expr i) fun (arguments, i) =>
          .ok <| (skipClause ["WITHIN", "GROUP"] expr i).bind fun i =>
            (skipClause ["OVER"] expr i).bind fun i =>
              if i = expr.length then some (Text.asciiUpper (parts.getLast?.getD ""), arguments)
              else none
      else .ok none

def columnParts (expr : List Token) : Checked (Option (List String)) :=
  match expr.head? with
  | none => .ok none
  | some first =>
    if first.isVariable || (expr.length == 1 && first.isAnyKw Select.valueWords) then .ok none
    else
      andThen (readName expr 0) fun (parts, i) =>
        .ok (if i = expr.length ∧ parts.length ≤ 4 then some parts else none)

theorem parenthesized?_of_closeParen?
    {inner : List Token} (hclose : closeParen? 0 us = some (inner, rest)) :
    Select.parenthesized? (.lparen :: us) = if rest = [] then some inner else none := by
  rw [Select.parenthesized?, hclose]
  cases rest <;> rfl

theorem parenthesized?_of_unclosed (hclose : closeParen? 0 us = none) :
    Select.parenthesized? (.lparen :: us) = none := by
  rw [Select.parenthesized?, hclose]

theorem parenthesized_eq (expr : List Token) :
    parenthesized expr = .ok (Select.parenthesized? expr) := by
  rw [parenthesized]
  match expr with
  | [] => rfl
  | .lparen :: us =>
    have hmatching := matchingParen_eq (.lparen :: us) 0 rfl
    rw [List.drop_one, List.tail_cons] at hmatching
    have hlast : lower (Token.lparen :: us).length 1 = .ok us.length := lower_of_le (by simp)
    rw [hmatching, hlast, ok_bind]
    cases hclose : closeParen? 0 us with
    | none =>
      rw [parenthesized?_of_unclosed hclose]
      split <;> rfl
    | some group =>
      obtain ⟨inner, rest⟩ := group
      rw [parenthesized?_of_closeParen? hclose]
      obtain rfl := closeParen?_append hclose
      cases rest with
      | nil =>
        have hends : (Token.lparen :: (inner ++ [.rparen])).head? = some .lparen ∧
            (Token.lparen :: (inner ++ [.rparen])).getLast? = some .rparen := by
          rw [← List.cons_append, List.getLast?_concat]
          exact ⟨rfl, rfl⟩
        have hlength : some (0 + 1 + inner.length) = some (inner ++ [Token.rparen]).length := by
          rw [List.length_append, List.length_singleton, Nat.zero_add, Nat.add_comm]
        have hslice :
            slice (Token.lparen :: (inner ++ [.rparen])) 1 (inner ++ [Token.rparen]).length =
            .ok inner := by
          simp [slice]
        rw [if_pos hends]
        simp only [Option.map_some, if_pos hlength, hslice]
        rfl
      | cons t rest =>
        have hlength : some (0 + 1 + inner.length) ≠
            some (inner ++ Token.rparen :: t :: rest).length := by
          intro heq
          have hnumbers := Option.some.inj heq
          simp only [List.length_append, List.length_cons] at hnumbers
          omega
        simp only [Option.map_some, if_neg hlength]
        split <;> rfl
  | .word _ _ :: _ | .str _ :: _ | .num _ :: _ | .rparen :: _ | .comma :: _ | .period :: _
  | .equals :: _ | .semicolon :: _ | .star :: _ | .other _ :: _ => rfl

theorem hasKws_eq (ts : List Token) (i : Nat) (keywords : List String) :
    hasKws ts i keywords =
      (((ts.drop i).take keywords.length).length == keywords.length &&
        (((ts.drop i).take keywords.length).zip keywords).all fun p => p.1.isKw p.2) := by
  induction keywords generalizing i with
  | nil => simp [hasKws]
  | cons keyword keywords ih =>
    rw [hasKws, ih, hasKw_eq, ← List.drop_drop]
    cases ts.drop i with
    | nil => rfl
    | cons t us =>
      simp [startsWithKw, Bool.and_left_comm]

theorem skipClause_position (h : us <:+ ts) (keywords : List String) :
    skipClause keywords ts (position ts us) =
      (Select.skipClause? keywords us).map (position ts) := by
  rw [skipClause, Select.skipClause?, hasKws_eq, hasParen_eq, drop_position h, drop_position_add h]
  split
  · rename_i hclause
    rw [Bool.and_eq_true] at hclause
    have hlength : keywords.length ≤ us.length :=
      Nat.le_of_lt (lt_length_of_startsWithParen hclause.2)
    rw [← position_drop h hlength]
    exact afterGroup_position ((List.drop_suffix _ us).trans h) hclause.2
  · rfl

theorem isSuffix_skipClause?
    {keywords : List String} (h : Select.skipClause? keywords us = some rest) :
    rest <:+ us := by
  unfold Select.skipClause? at h
  dsimp only at h
  split at h
  · exact (isSuffix_skipGroup? h).trans (List.drop_suffix _ us)
  · cases h
    exact List.suffix_refl us

theorem readCall_eq (expr : List Token) : readCall expr = .ok (Select.readCall? expr) := by
  cases expr with
  | nil => rfl
  | cons t us =>
    rw [readCall, Select.readCall?_eq, readName_zero, List.head?_cons, Option.any_some]
    split
    · rfl
    cases hread : readName? (t :: us) with
    | none => rfl
    | some name =>
      have hrest : name.2 <:+ t :: us := isSuffix_readName? hread
      simp only [endingAt, Option.map_some, andThen_some, hasParen_eq, drop_position hrest,
        Option.bind_some, Select.finishCall?]
      split
      · rename_i hparen
        obtain ⟨inner, hinner⟩ := exists_of_startsWithParen hparen
        rw [hinner] at hrest ⊢
        rw [readGroup_position hrest]
        dsimp only
        cases hclose : closeParen? 0 inner with
        | none => rfl
        | some group =>
          have hbehind : group.2 <:+ t :: us :=
            (isSuffix_of_closeParen? hclose).trans (isSuffix_tail hrest)
          simp only [endingAt, Option.map_some, andThen_some, Option.bind_some,
            skipClause_position hbehind]
          cases hwithin : Select.skipClause? ["WITHIN", "GROUP"] group.2 with
          | none => rfl
          | some within =>
            have hgroup : within <:+ t :: us := (isSuffix_skipClause? hwithin).trans hbehind
            simp only [Option.map_some, Option.bind_some, skipClause_position hgroup]
            cases hover : Select.skipClause? ["OVER"] within with
            | none => rfl
            | some rest =>
              have hlast : rest <:+ t :: us := (isSuffix_skipClause? hover).trans hgroup
              simp only [Option.map_some, Option.bind_some, position_eq_length hlast,
                List.isEmpty_iff]
      · rename_i hparen
        split
        · rename_i heq
          rw [heq] at hparen
          exact absurd rfl hparen
        · rfl

theorem columnParts_eq (expr : List Token) : columnParts expr = .ok (Select.columnParts? expr) := by
  cases expr with
  | nil => rfl
  | cons t us =>
    have hsingle : ((t :: us).length == 1) = us.isEmpty := by cases us <;> rfl
    rw [columnParts, Select.columnParts?, readName_zero, hsingle, List.head?_cons]
    dsimp only
    split
    · rfl
    cases hread : readName? (t :: us) with
    | none => rfl
    | some name =>
      obtain ⟨parts, rest⟩ := name
      have hrest : rest <:+ t :: us := isSuffix_readName? hread
      simp only [endingAt, Option.map_some, andThen_some, position_eq_length hrest]
      cases rest with
      | nil => simp
      | cons t rest => rfl

/-! ## Calls -/

/-- The type after the `AS` of a cast. -/
def castTarget (arguments : List Token) : Checked (Option String) := do
  match findKw arguments 0 ["AS"] with
  | none => return none
  | some i => return (← readType arguments (i + 1)).map (·.1)

/-- The type that is the first argument of a conversion. -/
def convertTarget (arguments : List Token) : Checked (Option String) := do
  match (← splitTopLevel arguments).head? with
  | none => return none
  | some first => return (← readType first 0).map (·.1)

def aggregateColumn (scope : Scope) (function : String) (arguments : List Token) :
    Checked ColumnFacts := do
  let facts : ColumnFacts :=
    { kind := .aggregate, isAggregate := some true
      aggregateFunction := some (Text.asciiLower function) }
  match function with
  | "COUNT" => return { facts with sqlType := some "int", isNullable := some false }
  | "COUNT_BIG" => return { facts with sqlType := some "bigint", isNullable := some false }
  | "MIN" | "MAX" =>
    match ← columnParts (Select.dropQuantifier arguments) with
    | none => return facts
    | some parts =>
      let bound := Select.columnRef scope parts
      return { facts with
        sourceSchema := bound.sourceSchema, sourceTable := bound.sourceTable
        sourceColumn := bound.sourceColumn, sourceAlias := bound.sourceAlias
        forcedNullable := some true }
  | _ => return facts

/-- A call that needs no look into a sub-select. -/
def callColumn (scope : Scope) (function : String) (arguments : List Token) :
    Checked ColumnFacts := do
  match function with
  | "CAST" | "TRY_CAST" => return Select.castColumn function (← castTarget arguments)
  | "CONVERT" | "TRY_CONVERT" => return Select.castColumn function (← convertTarget arguments)
  | _ =>
    if Select.aggregates.contains function then aggregateColumn scope function arguments
    else return { kind := .functionCall }

/-- The select that is the whole first argument of a call. -/
def selectArgument (arguments : List Token) : Checked (Option (List Token)) := do
  match (← splitTopLevel arguments).head? with
  | none => return none
  | some first => return (← parenthesized first).filter (startsWithKw "SELECT")

theorem castTarget_eq (arguments : List Token) :
    castTarget arguments =
      .ok ((readType? ((fromKw ["AS"] arguments).drop 1)).map (·.1)) := by
  have hfind := findKw_position (List.suffix_refl arguments) ["AS"]
  rw [position_self] at hfind
  rw [castTarget, hfind]
  cases hfrom : fromKw ["AS"] arguments with
  | nil => rfl
  | cons t rest =>
    have hsuffix : t :: rest <:+ arguments := hfrom ▸ isSuffix_fromKw ["AS"] arguments
    rw [if_neg (List.cons_ne_nil t rest)]
    dsimp only
    rw [← position_cons hsuffix, readType_position (isSuffix_tail hsuffix), ok_bind, List.drop_one,
      List.tail_cons]
    cases readType? rest <;> rfl

theorem convertTarget_eq (arguments : List Token) :
    convertTarget arguments =
      .ok (((splitCommas 0 arguments).head?.bind readType?).map (·.1)) := by
  rw [convertTarget, splitTopLevel_eq, ok_bind]
  cases (splitCommas 0 arguments).head? with
  | none => rfl
  | some first =>
    have htype := readType_position (List.suffix_refl first)
    rw [position_self] at htype
    dsimp only
    rw [htype, ok_bind, Option.bind_some]
    cases readType? first <;> rfl

theorem aggregateColumn_eq (scope : Scope) (function : String) (arguments : List Token) :
    aggregateColumn scope function arguments =
      .ok (Select.aggregateColumn scope function arguments) := by
  unfold aggregateColumn
  simp only [columnParts_eq]
  split
  · rfl
  · rfl
  case h_3 | h_4 =>
    rw [Select.aggregateColumn]
    cases Select.columnParts? (Select.dropQuantifier arguments) <;> rfl
  · rw [Select.aggregateColumn]
    · rfl
    all_goals assumption

theorem callColumn_eq (scope : Scope) (function : String) (arguments : List Token) :
    callColumn scope function arguments = .ok (Select.callColumn scope function arguments) := by
  unfold callColumn
  simp only [castTarget_eq, convertTarget_eq, aggregateColumn_eq]
  split
  · rfl
  · rfl
  · rfl
  · rfl
  · rw [Select.callColumn]
    · split <;> rfl
    all_goals assumption

theorem selectArgument_eq (arguments : List Token) :
    selectArgument arguments = .ok (Select.selectArgument? arguments) := by
  rw [selectArgument, splitTopLevel_eq, ok_bind, Select.selectArgument?]
  cases (splitCommas 0 arguments).head? with
  | none => rfl
  | some first =>
    dsimp only
    rw [parenthesized_eq, ok_bind, Option.bind_eq_bind, Option.bind_some]
    cases hinner : Select.parenthesized? first with
    | none => rfl
    | some inner => simp [Option.filter]; rfl

/-! ## Selects -/

/-- Reads an expression; `select` reads the selects inside it. -/
def classifyExpr (select : Scope → List Token → Checked Select) (scope : Scope)
    (expr : List Token) : Checked (Column × List Issue) := do
  match ← parenthesized expr with
  | some inner =>
    if startsWithKw "SELECT" inner then
      let shape ← select scope inner
      return (Select.subSelectColumn shape, shape.issues)
    else if _h : inner.length < expr.length then classifyExpr select scope inner
    else .error .notShorter
  | none =>
    match ← readCall expr with
    | some (function, arguments) =>
      if function = "JSON_QUERY" then
        match ← selectArgument arguments with
        | some inner =>
          let shape ← select scope inner
          return (Select.jsonQueryColumn shape, shape.issues)
        | none => return (.leaf { kind := .jsonQuery }, [])
      else return (.leaf (← callColumn scope function arguments), [])
    | none =>
      match ← columnParts expr with
      | some parts => return (.leaf (Select.columnRef scope parts), [])
      | none => return (.leaf {}, [])
termination_by expr.length

/-- The column of one item of a select list; a wildcard has none. -/
def classifyItem (select : Scope → List Token → Checked Select) (scope : Scope)
    (item : List Token) : Checked (Option Column × List Issue) := do
  let (aliasName, expr) ← splitAlias item
  if expr.isEmpty then return (none, [])
  else if Select.isWildcard expr then return (none, [.wildcardProjection])
  else
    let (column, issues) ← classifyExpr select scope expr
    return (some (Select.withAlias aliasName column), issues)

/-- The sources of the branch of a select that ends at `last`, whose clauses begin at `first`. -/
def readSources (ctes : List String) (ts : List Token) (first last : Nat) :
    Checked (List Source) := do
  let branch ← slice ts 0 last
  match findKw branch first ["FROM"] with
  | none => return []
  | some start =>
    let stop := (findKw branch (start + 1) Select.fromEnd).getD last
    parseFromClause ctes (← slice ts (start + 1) stop)

/-- Reads a select, whose list of tokens starts with `SELECT`; `scope` holds the sources around
it. -/
def parseSelect (ctes : List String) (scope : Scope) (ts : List Token) : Checked Select := do
  let (first, last) ← listBounds ts
  let items ← splitTopLevel (← slice ts first last)
  if (items.head?.map Select.isVariableAssignment).getD false then
    return { assignsVariables := true }
  else
    let stop := (findKw ts last Select.setOperators).getD ts.length
    let hasInto := (findKw (← slice ts 0 stop) last ["INTO"]).isSome
    let sources ← readSources ctes ts last stop
    let columns ← items.mapM <| classifyItem
      (fun scope inner =>
        if _h : inner.length < ts.length then parseSelect ctes scope inner
        else .error .notShorter)
      (sources :: scope)
    let json ← parseForJson ts last
    return {
      columns := columns.filterMap (·.1), json, hasInto
      issues := columns.flatMap (·.2) }
termination_by ts.length

/-- The selects in what is shorter are read as they are by themselves. -/
def ReadsSelects (ctes : List String) (select : Scope → List Token → Checked Select)
    (length : Nat) : Prop :=
  ∀ (scope : Scope) (inner : List Token), inner.length < length →
    select scope inner = .ok (Select.read ctes scope inner)

variable {select : Scope → List Token → Checked Select} {length : Nat}

theorem classifyExpr_eq
    (hselect : ReadsSelects ctes select length) (scope : Scope) (expr : List Token)
    (hexpr : expr.length ≤ length) :
    classifyExpr select scope expr = .ok (Select.readExpr ctes scope expr) := by
  rw [classifyExpr, parenthesized_eq, ok_bind, Select.readExpr_eq]
  cases hinner : Select.parenthesized? expr with
  | some inner =>
    have hshorter : inner.length < expr.length := Select.length_parenthesized? hinner
    have hlength : inner.length < length := Nat.lt_of_lt_of_le hshorter hexpr
    dsimp only
    split
    · rw [hselect scope inner hlength]
      rfl
    · exact classifyExpr_eq hselect scope inner (Nat.le_of_lt hlength)
  | none =>
    dsimp only
    rw [readCall_eq, ok_bind]
    cases hcall : Select.readCall? expr with
    | some call =>
      obtain ⟨function, arguments⟩ := call
      dsimp only
      split
      · rw [selectArgument_eq, ok_bind]
        cases hargument : Select.selectArgument? arguments with
        | none => rfl
        | some inner =>
          have hlength : inner.length < length :=
            Nat.lt_of_lt_of_le
              (Nat.lt_trans (Select.length_selectArgument? hargument)
                (Select.length_readCall? hcall))
              hexpr
          dsimp only
          rw [hselect scope inner hlength]
          rfl
      · rw [callColumn_eq]
        rfl
    | none =>
      dsimp only
      rw [columnParts_eq, ok_bind]
      cases Select.columnParts? expr <;> rfl
termination_by expr.length

theorem classifyItem_eq
    (hselect : ReadsSelects ctes select length) (scope : Scope) {item : List Token}
    (hitem : item.length ≤ length) :
    classifyItem select scope item = .ok (Select.readItem ctes scope item) := by
  have hexpr : (Select.splitAlias item).2.length ≤ length :=
    Nat.le_trans (Select.length_splitAlias item) hitem
  rw [classifyItem, splitAlias_eq, ok_bind]
  dsimp only
  split
  · rename_i hempty
    rw [Select.readItem_of_isEmpty hempty]
    rfl
  rename_i hempty
  split
  · rename_i hwildcard
    rw [Select.readItem_of_isWildcard hempty hwildcard]
    rfl
  · rename_i hwildcard
    rw [classifyExpr_eq hselect scope _ hexpr, ok_bind, Select.readItem_of_expr hempty hwildcard]
    rfl

/-- The clauses of the first branch of a select, and the position at which the branch ends. -/
theorem branch_position {clauses : List Token} (h : clauses <:+ ts) :
    upToKw Select.setOperators clauses <:+
        ts.take (position ts (fromKw Select.setOperators clauses)) ∧
      position (ts.take (position ts (fromKw Select.setOperators clauses)))
        (upToKw Select.setOperators clauses) = position ts clauses := by
  exact isSuffix_take_position (upToKw_append_fromKw Select.setOperators clauses) h

theorem hasInto_position {clauses : List Token} (h : clauses <:+ ts) :
    (findKw (ts.take (position ts (fromKw Select.setOperators clauses))) (position ts clauses)
        ["INTO"]).isSome =
      !(fromKw ["INTO"] (upToKw Select.setOperators clauses)).isEmpty := by
  obtain ⟨hbranch, hfirst⟩ := branch_position h
  rw [← hfirst, findKw_position hbranch]
  cases fromKw ["INTO"] (upToKw Select.setOperators clauses) <;> rfl

theorem readSources_position {clauses : List Token} (h : clauses <:+ ts) :
    readSources ctes ts (position ts clauses) (position ts (fromKw Select.setOperators clauses)) =
      .ok (Select.sourcesOf ctes (upToKw Select.setOperators clauses)) := by
  obtain ⟨hbranch, hfirst⟩ := branch_position h
  have hstop := position_le ts (fromKw Select.setOperators clauses)
  rw [readSources, slice_take hstop, ok_bind, ← hfirst, findKw_position hbranch, Select.sourcesOf]
  cases hfrom : fromKw ["FROM"] (upToKw Select.setOperators clauses) with
  | nil => rfl
  | cons t more =>
    have hsuffix := hfrom ▸ (isSuffix_fromKw ["FROM"] _).trans hbranch
    have hmore := isSuffix_tail hsuffix
    have hend := findKw_getD hmore Select.fromEnd
    rw [List.length_take, Nat.min_eq_left hstop] at hend
    have hslice := slice_of_take (slice_position (upToKw_append_fromKw Select.fromEnd more) hmore)
    rw [if_neg (List.cons_ne_nil t more)]
    dsimp only
    rw [← position_cons hsuffix, hend, hslice, ok_bind, parseFromClause_eq]

/-- A select by positions is the select that is read; no fault occurs, and each select inside it is
shorter. -/
theorem parseSelect_eq (ctes : List String) (scope : Scope) (ts : List Token) :
    parseSelect ctes scope ts = .ok (Select.read ctes scope ts) := by
  have hselect : ReadsSelects ctes
      (fun scope inner =>
        if _h : inner.length < ts.length then parseSelect ctes scope inner
        else .error .notShorter)
      ts.length := by
    intro scope inner hinner
    dsimp only
    rw [dif_pos hinner]
    exact parseSelect_eq ctes scope inner
  have hlist : listTokens ts <:+ ts := isSuffix_listTokens ts
  have hclauses : (Select.listAndClauses ts).2 <:+ ts := (List.suffix_append _ _).trans hlist
  have hlength : ∀ item ∈ splitCommas 0 (Select.listAndClauses ts).1, item.length ≤ ts.length := by
    intro item hitem
    have hitemLength := length_of_mem_splitCommas hitem
    have hlistLength := hlist.length_le
    rw [List.length_append] at hlistLength
    omega
  rw [parseSelect, listBounds_eq, ok_bind]
  dsimp only
  rw [slice_position rfl hlist, ok_bind, splitTopLevel_eq, ok_bind, Select.read_eq,
    Select.ofClauses]
  split
  · rfl
  · rw [findKw_getD hclauses, slice_take (position_le _ _), ok_bind, hasInto_position hclauses,
      readSources_position hclauses, ok_bind,
      mapM_ok fun item hitem => classifyItem_eq hselect _ (hlength item hitem), ok_bind,
      parseForJson_position _ hclauses]
    rfl
termination_by ts.length

end SqlSnapshot.Indexed
