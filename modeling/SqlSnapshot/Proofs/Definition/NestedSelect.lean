import SqlSnapshot.Proofs.Definition.JsonSelect
import SqlSnapshot.Proofs.Outcome

/-!
# Selects with `FOR JSON` in both places

As a statement, a select with `FOR JSON` is cut out of its body, and in parentheses it is read as it
is.  Where none of its words starts a statement, the cut takes it whole, and both readings come to
the same columns.
-/

namespace SqlSnapshot

open Token

/-! ## The parts of a select -/

namespace Select

variable {depth : Nat} {ts us : List Token} {t : Token}

/-- The scan for the end of the select list ends before a clause at the latest. -/
theorem exists_cutList_before
    (h : balancedFrom depth ts = true) (hend : t.isAnyKw listEnd = true)
    (hgroup : t.isKw "GROUP" = false) (prev : Token) (us : List Token) :
    ∃ more back, ts = more ++ back ∧ depthAfterAll depth more = 0 ∧ isBalanced back = true ∧
      cutList prev depth (ts ++ t :: us) = (more, back ++ t :: us) := by
  induction ts generalizing depth prev with
  | nil =>
    obtain rfl : depth = 0 := by simpa [balancedFrom] using h
    refine ⟨[], [], rfl, rfl, rfl, ?_⟩
    rw [List.nil_append, cutList, if_pos ⟨rfl, hend, by simp [hgroup]⟩]
  | cons u ts ih =>
    rw [List.cons_append, cutList]
    split
    · rename_i hcut
      obtain ⟨rfl, -⟩ := hcut
      exact ⟨[], u :: ts, rfl, rfl, h, rfl⟩
    · obtain ⟨more, back, rfl, hmore, hback, hcut⟩ := ih (balancedFrom_tail h) u
      exact ⟨u :: more, back, rfl, hmore, hback, by rw [hcut]⟩

theorem cutList_inside (prev : Token) (depth : Nat) (t : Token) (ts : List Token) :
    cutList prev (depth + 1) (t :: ts) =
      carry [t] (cutList t (depthAfter (depth + 1) t) ts) := by
  rw [cutList, if_neg (by simp)]
  rfl

theorem cutList_parens {inner : List Token}
    (prev : Token) (h : isBalanced inner = true) (rest : List Token) :
    cutList prev 0 (parens inner ++ rest) = carry (parens inner) (cutList .rparen 0 rest) := by
  have hopen : ∀ us, cutList prev 0 (.lparen :: us) = carry [.lparen] (cutList .lparen 1 us) := by
    intro us
    rw [cutList, if_neg (by simp [isAnyKw])]
    rfl
  have hinner : cutList .lparen 1 (inner ++ .rparen :: rest) = _ :=
    scan_group cutList cutList_inside h .lparen rest
  rw [parens, List.append_assoc, List.singleton_append, List.cons_append, hopen, hinner,
    foldr_carry, ← carry_append]
  rfl

theorem cutList_ne_nil
    (hts : ts ≠ []) (h : startsWithAnyKw listEnd ts = false) (prev : Token) (depth : Nat) :
    (cutList prev depth ts).1 ≠ [] := by
  cases ts with
  | nil => exact absurd rfl hts
  | cons t ts =>
    have hstay : t.isAnyKw listEnd = false := h
    rw [cutList, if_neg (by simp [hstay])]
    simp

theorem isSome_readForJson?
    (h : balancedFrom depth ts = true) (ht : t.isKw "FOR" = true)
    (hjson : startsWithKw "JSON" us = true) :
    (readForJson? depth (ts ++ t :: us)).isSome := by
  induction ts generalizing depth with
  | nil =>
    obtain rfl : depth = 0 := by simpa [balancedFrom] using h
    rw [List.nil_append, readForJson?, if_pos ⟨rfl, ht, hjson⟩]
    rfl
  | cons u ts ih =>
    rw [List.cons_append, readForJson?]
    split
    · rfl
    · exact ih (balancedFrom_tail h)

theorem skipModifiers_of_not
    (h : startsWithAnyKw ["ALL", "DISTINCT", "TOP"] ts = false) (prev : Token) :
    skipModifiers prev ts = (prev, ts) := by
  cases ts with
  | nil => rw [skipModifiers]
  | cons t ts =>
    have hquantifier : t.isAnyKw ["ALL", "DISTINCT"] = false :=
      isAnyKw_eq_false_of_subset h (by decide)
    have htop : t.isKw "TOP" = false := isAnyKw_eq_false_of_subset h (by decide)
    rw [skipModifiers, if_neg (by simp [hquantifier]), if_neg (by simp [htop])]

theorem exists_skipTopAmount (a : TopAmount) (prev : Token) (rest : List Token) :
    ∃ last, skipTopAmount prev (a.tokens ++ rest) = (last, rest) := by
  cases a with
  | single t h =>
    have hnone : skipGroup? (t :: rest) = none := by
      cases t with
      | lparen => cases h
      | _ => rfl
    exact ⟨t, by rw [TopAmount.tokens, List.singleton_append, skipTopAmount, hnone]; rfl⟩
  | group inner h => exact ⟨.rparen, by rw [TopAmount.tokens, skipTopAmount, skipGroup?_parens h]⟩

theorem exists_skipPercent
    (percent : Option (Keyword ["PERCENT"])) {rest : List Token}
    (h : startsWithKw "PERCENT" rest = false) (prev : Token) :
    ∃ last, skipPercent prev ((percent.map (·.1)).toList ++ rest) = (last, rest) := by
  cases percent with
  | none => exact ⟨prev, if_neg (by simp [h])⟩
  | some word => exact ⟨word.1, if_pos word.2⟩

theorem exists_skipTies
    (ties : Option (Keyword ["WITH"] × Keyword ["TIES"])) {rest : List Token}
    (h : startsWithKw "WITH" rest = false) (prev : Token) :
    ∃ last, skipTies prev (pairTokens ties ++ rest) = (last, rest) := by
  rcases ties with _ | ⟨first, second⟩
  · exact ⟨prev, if_neg (by simp [pairTokens, h])⟩
  · have hfirst : startsWithKw "WITH" (first.1 :: second.1 :: rest) = true := first.2
    have hsecond : startsWithKw "TIES" (second.1 :: rest) = true := second.2
    exact ⟨second.1, if_pos (by rw [Bool.and_eq_true]; exact ⟨hfirst, hsecond⟩)⟩

theorem exists_skipTop
    (top : Top) {rest : List Token} (h : startsWithAnyKw listBounds rest = false) (prev : Token) :
    ∃ last, skipModifiers prev (top.tokens ++ rest) = (last, rest) := by
  have hwith : startsWithKw "WITH" rest = false :=
    startsWithAnyKw_eq_false_of_subset h (by decide)
  have hpercent : startsWithKw "PERCENT" (pairTokens top.ties ++ rest) = false := by
    rcases top.ties with _ | ⟨first, second⟩
    · exact startsWithAnyKw_eq_false_of_subset h (by decide)
    · exact isAnyKw_eq_false_of_disjoint first.2 (by decide)
  obtain ⟨amount, hamount⟩ := exists_skipTopAmount top.amount top.keyword.1
    ((top.percent.map (·.1)).toList ++ (pairTokens top.ties ++ rest))
  obtain ⟨percent, hpercents⟩ := exists_skipPercent top.percent hpercent amount
  obtain ⟨last, hties⟩ := exists_skipTies top.ties hwith percent
  have hskip : skipTop top.keyword.1 (top.amount.tokens ++
      ((top.percent.map (·.1)).toList ++ (pairTokens top.ties ++ rest))) = (last, rest) := by
    rw [skipTop, hamount]
    dsimp only
    rw [hpercents]
    exact hties
  have htop : top.keyword.1.isKw "TOP" = true := top.keyword.2
  have hquantifier : top.keyword.1.isAnyKw ["ALL", "DISTINCT"] = false :=
    isAnyKw_eq_false_of_disjoint htop (by decide)
  refine ⟨last, ?_⟩
  rw [Top.tokens, List.cons_append, List.append_assoc, List.append_assoc, skipModifiers,
    if_neg (by simp [hquantifier]), if_pos htop, hskip]
  exact skipModifiers_of_not (startsWithAnyKw_eq_false_of_subset h (by decide)) last

theorem exists_skipModifiers
    (quantifier : Option (Keyword ["ALL", "DISTINCT"])) (top : Option Top) {rest : List Token}
    (h : startsWithAnyKw listBounds rest = false) (prev : Token) :
    ∃ last, skipModifiers prev
      ((quantifier.map (·.1)).toList ++ (top.elim [] Top.tokens ++ rest)) = (last, rest) := by
  have htop : ∀ prev, ∃ last,
      skipModifiers prev (top.elim [] Top.tokens ++ rest) = (last, rest) := by
    intro prev
    cases top with
    | none =>
      exact ⟨prev, skipModifiers_of_not (startsWithAnyKw_eq_false_of_subset h (by decide)) prev⟩
    | some top => exact exists_skipTop top h prev
  cases quantifier with
  | none => exact htop prev
  | some word =>
    obtain ⟨last, hlast⟩ := htop word.1
    refine ⟨last, ?_⟩
    rw [Option.map_some, Option.toList_some, List.singleton_append, skipModifiers, if_pos word.2,
      hlast]

theorem isVariableAssignment_of_not_isVariable (h : t.isVariable = false) (ts : List Token) :
    isVariableAssignment (t :: ts) = false := by
  unfold isVariableAssignment
  split <;> simp_all

theorem head?_consFirst (t : Token) (parts : List (List Token)) :
    ∃ item, (consFirst t parts).head? = some (t :: item) := by
  cases parts with
  | nil => exact ⟨[], rfl⟩
  | cons p ps => exact ⟨p, rfl⟩

/-- Whether a select assigns variables shows in the first two tokens of its list. -/
theorem assigns_splitCommas (ts : List Token) :
    ((splitCommas 0 ts).head?.map isVariableAssignment).getD false = isVariableAssignment ts := by
  cases ts with
  | nil => rfl
  | cons t ts =>
    rw [splitCommas]
    cases hvariable : t.isVariable with
    | false =>
      rw [isVariableAssignment_of_not_isVariable hvariable]
      split
      · rfl
      · obtain ⟨item, hitem⟩ := head?_consFirst t (splitCommas (depthAfter 0 t) ts)
        rw [hitem, Option.map_some, isVariableAssignment_of_not_isVariable hvariable]
        rfl
    | true =>
      obtain ⟨text, rfl⟩ : ∃ text, t = .word text false := by
        cases t with
        | word text quoted => cases quoted <;> simp_all [Token.isVariable]
        | _ => cases hvariable
      rw [if_neg (by simp)]
      cases ts with
      | nil => rfl
      | cons u ts =>
        change
          ((consFirst _ (splitCommas 0 (u :: ts))).head?.map isVariableAssignment).getD false = _
        rw [splitCommas]
        split
        · rename_i hcomma
          rw [hcomma.1]
          rfl
        · cases splitCommas (depthAfter 0 u) ts <;> cases u <;> rfl

theorem assigns_append {us : List Token}
    (hts : ts ≠ []) (h : isVariableAssignment ts = false) (hus : ∀ u ∈ us.head?, u.isWord = true) :
    isVariableAssignment (ts ++ us) = false := by
  match ts, us with
  | [], _ => exact absurd rfl hts
  | [t], [] => rfl
  | [t], u :: us =>
    have hword : u.isWord = true := hus u rfl
    cases u <;> simp_all [Token.isWord, isVariableAssignment]
  | t :: u :: rest, us => cases u <;> exact h

theorem isVariableAssignment_of_append {us : List Token}
    (h : isVariableAssignment (ts ++ us) = false) : isVariableAssignment ts = false := by
  match ts with
  | [] => rfl
  | [t] => rfl
  | t :: u :: rest => cases u <;> exact h

/-- A select that assigns no variables, by its list and its clauses. -/
theorem read_of_parts
    {items clauses : List Token} (hparts : listAndClauses ts = (items, clauses))
    (hassigns : isVariableAssignment items = false) (ctes : List String) (scope : Scope) :
    read ctes scope ts = {
      columns := (readItems ctes scope ts).filterMap (·.1)
      json := readForJson? 0 clauses
      hasInto := !(fromKw ["INTO"] (upToKw setOperators clauses)).isEmpty
      issues := (readItems ctes scope ts).flatMap (·.2) } := by
  rw [read_eq, hparts, ofClauses, assigns_splitCommas, hassigns]
  rfl

end Select

namespace Body

variable {t : Token} {ts : List Token}

theorem Passes.cutStatement_all (h : Passes false ts) (t : Token) :
    cutStatement t 0 0 ts = (ts, []) := by
  have hcut := h t 0 [] (by simp)
  rw [List.append_nil] at hcut
  rw [hcut]
  simp [cutStatement, carry]

theorem startsCtes_of_not_with (h : t.isKw "WITH" = false) (ts : List Token) :
    startsCtes t ts = false := by
  simp [startsCtes, h]

theorem readSelect_of_columns
    {ctes : List String} (hlist : (Select.listAndClauses ts).1 ≠ [])
    (hassigns : (Select.read ctes [] ts).assignsVariables = false)
    (hinto : (Select.read ctes [] ts).hasInto = false) :
    readSelect ctes ts = .ok {
      resultSets := [resultSet (Select.read ctes [] ts)]
      issues := (Select.read ctes [] ts).issues } := by
  have hcheck : Select.checkList ts = .ok () := by
    rw [Select.checkList, if_neg (by simpa using hlist)]
  rw [readSelect, hcheck, ok_bind]
  dsimp only
  rw [hassigns, hinto]
  rfl

/-- A select is read from the tokens that are cut off for it. -/
theorem read_cut
    {ctes : List String} {taken rest : List Token} (ht : t.isKw "SELECT" = true)
    (hcut : cutStatement t 0 0 ts = (taken, rest)) :
    read ctes (t :: ts) = followedBy (readSelect ctes (t :: taken)) (read [] rest) := by
  have hopen : t ≠ .lparen := by
    rintro rfl
    cases ht
  have hctes : startsCtes t ts = false :=
    startsCtes_of_not_with (isAnyKw_eq_false_of_disjoint ht (by decide)) ts
  have hstatement : readStatement? ctes t ts = some (readSelect ctes (t :: taken), rest) := by
    rw [readStatement?, if_pos ht, hcut]
  exact read_statement hopen (by simp [hctes]) hstatement

theorem read_select (ht : t.isKw "SELECT" = true) (h : Passes false ts) :
    read [] (t :: ts) = readSelect [] (t :: ts) := by
  rw [read_cut ht (h.cutStatement_all t), read_nil, followedBy_empty]

end Body

/-- Where the list starts, a word stands. -/
def StartsWithWord (ts : List Token) : Prop :=
  ∀ t ∈ ts.head?, t.isWord = true

theorem startsWithWord_keyword {keywords : List String} (k : Keyword keywords) (ts : List Token) :
    StartsWithWord (k.1 :: ts) := by
  intro t ht
  obtain rfl := Option.some.inj ht
  exact isWord_of_isAnyKw k.2

theorem StartsWithWord.append {ts us : List Token} (hts : StartsWithWord ts)
    (hus : StartsWithWord us) : StartsWithWord (ts ++ us) := by
  cases ts with
  | nil => exact hus
  | cons t ts => exact hts

theorem startsWithWord_elim {α : Type} {tokens : α → List Token} {x : Option α}
    (h : ∀ a, StartsWithWord (tokens a)) : StartsWithWord (x.elim [] tokens) := by
  cases x with
  | none => simp [StartsWithWord]
  | some a => exact h a

namespace JsonSelect

variable {s : JsonSelect}

theorem startsWithWord_clauses (s : JsonSelect) : StartsWithWord s.clauses := by
  have hsource : StartsWithWord (s.source.elim [] FromClause.tokens) :=
    startsWithWord_elim fun c => startsWithWord_keyword c.keyword _
  have hfilter : StartsWithWord (s.filter.elim [] Condition.tokens) :=
    startsWithWord_elim fun c => startsWithWord_keyword c.keyword _
  have hgrouping : StartsWithWord (s.grouping.elim [] GroupBy.tokens) :=
    startsWithWord_elim fun g => startsWithWord_keyword g.group _
  have hhaving : StartsWithWord (s.having.elim [] Condition.tokens) :=
    startsWithWord_elim fun c => startsWithWord_keyword c.keyword _
  have hordering : StartsWithWord (s.ordering.elim [] OrderBy.tokens) :=
    startsWithWord_elim fun o => startsWithWord_keyword o.order _
  exact (((hsource.append hfilter).append hgrouping).append hhaving).append hordering

theorem exists_skipModifiers
    (s : JsonSelect) {rest : List Token} (h : startsWithAnyKw Select.listBounds rest = false)
    (prev : Token) :
    ∃ last, Select.skipModifiers prev (s.modifiers ++ rest) = (last, rest) := by
  rw [modifiers, List.append_assoc]
  exact Select.exists_skipModifiers s.quantifier s.top h prev

/-- Where the select list and the clauses part: at the first clause, or at a word of the list that
could start one. -/
theorem exists_listAndClauses (h : s.hasStatementWord = false) :
    ∃ items back, s.list.1 ++ s.clauses = items ++ back ∧ items ≠ [] ∧
      depthAfterAll 0 items = 0 ∧ isBalanced back = true ∧
      Select.listAndClauses s.tokens = (items, back ++ s.forJson) := by
  have hstart :
      startsWithAnyKw Select.listBounds (s.list.1 ++ (s.clauses ++ s.forJson)) = false := by
    have hlist := s.starts_item
    cases hempty : s.list.1 with
    | nil => exact absurd hempty s.list_ne_nil
    | cons t ts =>
      rw [hempty] at hlist
      exact hlist
  have hfor : s.forWord.1.isAnyKw Select.listEnd = true :=
    isAnyKw_of_subset s.forWord.2 (by decide)
  have hquiet := (IsQuiet.phrase s.list).append (isQuiet_clauses h)
  obtain ⟨last, hskip⟩ := exists_skipModifiers s hstart s.select.1
  obtain ⟨items, back, hwhole, hitems, hback, hcut⟩ :=
    Select.exists_cutList_before hquiet.balanced hfor
      (isAnyKw_eq_false_of_disjoint s.forWord.2 (by decide)) last (s.json.1 :: s.options.1)
  have hlist : Select.cutList last 0 (s.list.1 ++ (s.clauses ++ s.forJson)) =
      (items, back ++ s.forJson) := by
    rw [← List.append_assoc]
    exact hcut
  refine ⟨items, back, hwhole, ?_, hitems, hback, ?_⟩
  · have hnonempty := Select.cutList_ne_nil (by simp [s.list_ne_nil])
      (startsWithAnyKw_eq_false_of_subset hstart fun k hk => List.mem_append_right _ hk) last 0
    rw [hlist] at hnonempty
    exact hnonempty
  · rw [tokens, Select.listAndClauses, hskip]
    exact hlist

/-- The select is no assignment, writes into no table and has `FOR JSON` options. -/
theorem read_tokens
    (h : s.hasStatementWord = false) (ctes : List String) (scope : Scope) :
    (Select.read ctes scope s.tokens).assignsVariables = false ∧
      (Select.read ctes scope s.tokens).hasInto = false ∧
      (Select.read ctes scope s.tokens).json.isSome := by
  obtain ⟨items, back, hwhole, -, hitems, hback, hparts⟩ := exists_listAndClauses h
  have hassigns : Select.isVariableAssignment items = false := by
    apply Select.isVariableAssignment_of_append
    rw [← hwhole]
    apply Select.assigns_append s.list_ne_nil
    · rw [← Select.assigns_splitCommas]
      cases hfirst : (splitCommas 0 s.list.1).head? with
      | none => rfl
      | some item => exact s.no_assignment item (List.mem_of_head? hfirst)
    · exact startsWithWord_clauses s
  have hinto : fromKw ["INTO"] (upToKw Select.setOperators (back ++ s.forJson)) = [] := by
    have hquiet := (IsQuiet.phrase s.list).append ((isQuiet_clauses h).append (isQuiet_forJson s))
    have havoids := hquiet.avoidsInto
    rw [← List.append_assoc, hwhole, List.append_assoc] at havoids
    apply snd_cutAtKw_of_forall_outside
    intro t ht
    exact Avoids.of_append havoids hitems t (mem_outside_upTo ht)
  have hjson : (Select.readForJson? 0 (back ++ s.forJson)).isSome :=
    Select.isSome_readForJson? hback s.forWord.2 s.json.2
  rw [Select.read_of_parts hparts hassigns]
  exact ⟨rfl, by simp [hinto], hjson⟩

theorem isQuiet_body (h : s.hasStatementWord = false) :
    IsQuiet (s.modifiers ++ (s.list.1 ++ (s.clauses ++ s.forJson))) :=
  (isQuiet_modifiers s.quantifier s.top).append
    ((IsQuiet.phrase s.list).append ((isQuiet_clauses h).append (isQuiet_forJson s)))

/-- As a statement the select is read whole. -/
theorem read_statement (h : s.hasStatementWord = false) :
    Body.read [] s.tokens = .ok {
      resultSets := [Body.resultSet (Select.read [] [] s.tokens)]
      issues := (Select.read [] [] s.tokens).issues } := by
  obtain ⟨hassigns, hinto, -⟩ := read_tokens h [] []
  obtain ⟨items, back, -, hitems, -, -, hparts⟩ := exists_listAndClauses h
  have hlist : (Select.listAndClauses s.tokens).1 ≠ [] := by
    rw [hparts]
    exact hitems
  rw [tokens, Body.read_select s.select.2 (isQuiet_body h).passes]
  exact Body.readSelect_of_columns hlist hassigns hinto

end JsonSelect

/-! ## In parentheses -/

def namedX : List Token := [.word "AS" false, .word "X" false]

/-- The select that has the given one as its only column. -/
def asColumn (select : List Token) : List Token :=
  .word "SELECT" false :: (parens select ++ namedX)

variable {select : List Token}

theorem isPhrase_asColumn (h : isBalanced select = true) :
    IsPhrase false (parens select ++ namedX) :=
  (IsPhrase.group h).append (.member (.inr (by decide)) (by decide))

theorem listAndClauses_asColumn (h : isBalanced select = true) :
    Select.listAndClauses (asColumn select) =
      (parens select ++ namedX, []) := by
  rw [asColumn, Select.listAndClauses, Select.skipModifiers_of_not (by rfl)]
  exact Select.cutList_parens (.word "SELECT" false) h namedX

theorem splitCommas_parens (h : isBalanced select = true) :
    splitCommas 0 (parens select ++ namedX) =
      [parens select ++ namedX] := by
  have hinner : splitCommas 1 (select ++ .rparen :: namedX) =
      (select ++ [rparen]).foldr consFirst (splitCommas 0 namedX) :=
    scan_group (fun _ => splitCommas)
      (fun _ depth t ts => by rw [splitCommas, if_neg (by simp)]) h .lparen namedX
  have hlast : splitCommas 0 namedX = [namedX] := rfl
  have hopen : ∀ us, splitCommas 0 (.lparen :: us) = consFirst .lparen (splitCommas 1 us) :=
    fun us => rfl
  rw [parens, List.append_assoc, List.singleton_append, List.cons_append, hopen, hinner, hlast,
    foldr_consFirst, List.append_assoc]
  rfl

theorem splitAlias_asColumn (select : List Token) :
    Select.splitAlias (parens select ++ namedX) =
      (some "X", parens select) := by
  have hleading : Select.leadingAlias? (parens select ++ namedX) = none := rfl
  have htrailing : Select.trailingAlias? (parens select ++ namedX) =
      some ("X", parens select) := by
    have halias : Select.aliasText? (.word "X" false) = some "X" := by decide
    have has : (Token.word "AS" false).isKw "AS" = true := by decide
    have hnonempty : parens select ≠ [] := by simp [parens]
    have hreverse : (parens select ++ namedX).reverse =
        .word "X" false :: .word "AS" false :: (parens select).reverse := by
      simp [namedX]
    rw [Select.trailingAlias?, hreverse]
    simp [halias, has, hnonempty]
  rw [Select.splitAlias, hleading, htrailing]

theorem parenthesized?_parens (h : isBalanced select = true) :
    Select.parenthesized? (parens select) = some select := by
  rw [parens, List.cons_append, Select.parenthesized?, closeParen?_of_balancedFrom h]

/-- A balanced select with `FOR JSON` is the only column of the select around it. -/
theorem read_asColumn
    (h : isBalanced select = true) (hselect : startsWithKw "SELECT" select = true)
    {json : JsonOptions} (hjson : (Select.read [] [] select).json = some json) :
    Body.read [] (asColumn select) = .ok {
      resultSets := [{
        columns := [(Select.nestedJson { kind := .nestedJson } json
          (Select.read [] [] select).columns).named "X"] }]
      issues := (Select.read [] [] select).issues } := by
  have hexpr : Select.readExpr [] [[]] (parens select) =
      (Select.nestedJson { kind := .nestedJson } json (Select.read [] [] select).columns,
        (Select.read [] [] select).issues) := by
    rw [Select.readExpr_of_subSelect (parenthesized?_parens h) hselect,
      (Select.read_congr []).1 [[]] select [] (Scope.agrees_without_sources []),
      Select.subSelectColumn, hjson]
  have hitems : Select.readItems [] [] (asColumn select) =
      [(some ((Select.nestedJson { kind := .nestedJson } json
          (Select.read [] [] select).columns).named "X"),
        (Select.read [] [] select).issues)] := by
    have hwildcard : Select.isWildcard (parens select) = false := by
      simp [Select.isWildcard, parens]
    have hscope : Select.innerScope [] [] (asColumn select) = [[]] := by
      rw [Select.innerScope, listAndClauses_asColumn h]
      rfl
    rw [Select.readItems, hscope, listAndClauses_asColumn h, splitCommas_parens h,
      List.map_singleton, Select.readItem_of_expr]
    · rw [splitAlias_asColumn, hexpr]
      rfl
    · rw [splitAlias_asColumn]
      simp [parens]
    · rw [splitAlias_asColumn, hwildcard]
      simp
  have houter : Select.read [] [] (asColumn select) = {
      columns := [(Select.nestedJson { kind := .nestedJson } json
        (Select.read [] [] select).columns).named "X"]
      issues := (Select.read [] [] select).issues } := by
    have hassigns : Select.isVariableAssignment (parens select ++ namedX) = false :=
      Select.isVariableAssignment_of_not_isVariable rfl _
    rw [Select.read_of_parts (listAndClauses_asColumn h) hassigns, hitems, List.flatMap_singleton]
    rfl
  have hlist : (Select.listAndClauses (asColumn select)).1 ≠ [] := by
    rw [listAndClauses_asColumn h]
    simp [namedX]
  have hpasses := Body.passes_of_isPhrase (isPhrase_asColumn h)
  rw [asColumn, Body.read_select (by decide) hpasses, ← asColumn,
    Body.readSelect_of_columns hlist (by rw [houter]) (by rw [houter]), houter]
  rfl

/-- A select with `FOR JSON` is read to one JSON result set, which has the columns and the shape of
the JSON column that the select is in parentheses. -/
theorem JsonSelect.read_both (s : JsonSelect) (h : s.hasStatementWord = false) :
    ∃ found set outer around column,
      Body.read [] s.tokens = .ok found ∧ found.resultSets = [set] ∧ set.returnsJson = true ∧
      Body.read [] (asColumn s.tokens) = .ok outer ∧ outer.resultSets = [around] ∧
      around.columns = [column] ∧ column.facts.name = "X" ∧
      column.facts.kind = .nestedJson ∧ column.children = set.columns ∧
      column.facts.returnsJsonArray = some set.returnsJsonArray := by
  obtain ⟨-, -, hjson⟩ := read_tokens h [] []
  obtain ⟨json, hjson⟩ := Option.isSome_iff_exists.mp hjson
  have hbalanced : isBalanced s.tokens = true :=
    isBalanced_append (isBalanced_keyword s.select.2) (isQuiet_body h).balanced
  have hnested := read_asColumn hbalanced s.select.2 hjson
  refine ⟨_, _, _, _, _, read_statement h, rfl, ?_, hnested, rfl, rfl, rfl, rfl, rfl, ?_⟩
  · simp [Body.resultSet, hjson]
  · simp [Body.resultSet, hjson, Select.nestedJson, Column.named, Column.mapFacts]

theorem isPhrase_of_operands {ts : List Token} (h : ∀ t ∈ ts, t.isOperand = true) :
    IsPhrase false ts := by
  induction ts with
  | nil => exact .nil
  | cons t ts ih =>
    rw [List.forall_mem_cons] at h
    exact .append (.operand h.1) (ih h.2)

def selectWord : Keyword ["SELECT"] :=
  ⟨.word "SELECT" false, by decide⟩

def fromWord : Keyword ["FROM"] :=
  ⟨.word "FROM" false, by decide⟩

/-- `FROM dbo.Orders o` -/
def FromClause.orders : FromClause where
  keyword := fromWord
  sources := ⟨[.word "dbo" false, .period, .word "Orders" false, .word "o" false],
    isPhrase_of_operands (by decide)⟩
  joins := []

/-- A select from a join with the given hint. -/
def JsonSelect.ofHint (hint : Option (Keyword ["MERGE", "LOOP", "HASH"])) : JsonSelect where
  select := ⟨.word "SELECT" false, by decide⟩
  quantifier := none
  top := none
  list := ⟨[.word "u" false, .period, .word "Id" false], isPhrase_of_operands (by decide)⟩
  source := some {
    keyword := ⟨.word "FROM" false, by decide⟩
    sources := ⟨[.word "dbo" false, .period, .word "Users" false, .word "u" false],
      isPhrase_of_operands (by decide)⟩
    joins := [{
      words := [⟨.word "INNER" false, by decide⟩]
      hint
      join := ⟨.word "JOIN" false, by decide⟩
      source := ⟨[.word "dbo" false, .period, .word "Orders" false, .word "o" false,
          .word "ON" false, .word "o" false, .period, .word "UserId" false, .equals,
          .word "u" false, .period, .word "Id" false],
        isPhrase_of_operands (by decide)⟩ }] }
  filter := none
  grouping := none
  having := none
  ordering := none
  forWord := ⟨.word "FOR" false, by decide⟩
  json := ⟨.word "JSON" false, by decide⟩
  options := ⟨[.word "PATH" false], isPhrase_of_operands (by decide)⟩
  list_ne_nil := by simp
  starts_item := by decide
  no_assignment := by decide

theorem JsonSelect.read_both_loop :
    let s := ofHint (some ⟨.word "LOOP" false, by decide⟩)
    s.hasStatementWord = false ∧
    ∃ found set outer around column,
      Body.read [] s.tokens = .ok found ∧ found.resultSets = [set] ∧ set.returnsJson = true ∧
      Body.read [] (asColumn s.tokens) = .ok outer ∧ outer.resultSets = [around] ∧
      around.columns = [column] ∧ column.children = set.columns ∧
      column.facts.returnsJsonArray = some set.returnsJsonArray := by
  have hword : (ofHint (some ⟨.word "LOOP" false, by decide⟩)).hasStatementWord = false := by
    decide
  obtain ⟨found, set, outer, around, column, hread, hset, hjson, hnested, haround, hcolumn, -, -,
    hchildren, harray⟩ := read_both (ofHint (some ⟨.word "LOOP" false, by decide⟩)) hword
  exact ⟨hword, found, set, outer, around, column, hread, hset, hjson, hnested, haround, hcolumn,
    hchildren, harray⟩

/-- The hint `MERGE` starts a statement: the select before it has lost its `FOR JSON`. -/
theorem JsonSelect.read_both_merge :
    let s := ofHint (some ⟨.word "MERGE" false, by decide⟩)
    s.hasStatementWord = true ∧
    ∃ found set, Body.read [] s.tokens = .ok found ∧ found.resultSets = [set] ∧
      set.returnsJson = false := by
  refine ⟨by decide, ?_⟩
  let taken : List Token :=
    [.word "u" false, .period, .word "Id" false, .word "FROM" false, .word "dbo" false, .period,
     .word "Users" false, .word "u" false, .word "INNER" false]
  obtain ⟨rest, hcut, hrest⟩ : ∃ rest,
      Body.cutStatement (.word "SELECT" false) 0 0
        (ofHint (some ⟨.word "MERGE" false, by decide⟩)).tokens.tail =
          (taken, .word "MERGE" false :: rest) ∧
      Body.afterSemicolon 0 rest = [] :=
    ⟨_, rfl, by decide⟩
  have hmerge : Body.read [] (.word "MERGE" false :: rest) = .ok {} := by
    have hstatement : Body.readStatement? [] (.word "MERGE" false) rest = some (.ok {}, []) := by
      rw [Body.readStatement?, if_neg (by decide), if_neg (by decide), if_neg (by decide),
        if_pos (by decide), hrest]
    have hctes := Body.startsCtes_of_not_with (t := .word "MERGE" false) (by decide) rest
    rw [Body.read_statement (by simp) (by simp [hctes]) hstatement, Body.read_nil,
      Body.followedBy_empty]
  have hparts : Select.listAndClauses (.word "SELECT" false :: taken) =
      ([.word "u" false, .period, .word "Id" false], taken.drop 3) := by
    rw [Select.listAndClauses, Select.skipModifiers_of_not (by decide)]
    rfl
  have hread := Select.read_of_parts hparts rfl [] []
  have hselect : Body.readSelect [] (.word "SELECT" false :: taken) = _ :=
    Body.readSelect_of_columns (by simp [hparts]) (by rw [hread]) (by rw [hread]; decide)
  have hall : Body.read [] (ofHint (some ⟨.word "MERGE" false, by decide⟩)).tokens =
      Body.followedBy (Body.readSelect [] (.word "SELECT" false :: taken))
        (Body.read [] (.word "MERGE" false :: rest)) :=
    Body.read_cut (by decide) hcut
  rw [hselect, hmerge, Body.followedBy_empty] at hall
  refine ⟨_, _, hall, rfl, ?_⟩
  rw [Body.resultSet, hread]
  rfl

end SqlSnapshot
