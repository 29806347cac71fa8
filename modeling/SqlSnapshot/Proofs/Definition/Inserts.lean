import SqlSnapshot.Proofs.Definition.StatementEnds

/-!
# Inserts

An `INSERT` owns the statement that its rows come from.  The reader steps over the target and what
may stand behind it to the word that starts that statement, and goes on behind it.  It knows no
`TOP` before the target and no name with an empty part: there it goes on with the source as a
statement of its own, which shows if rows are selected or a procedure is called.
-/

namespace SqlSnapshot

open Token Body

/-! ## Grammar -/

/-- Words that start the source of an `INSERT`. -/
def sourceWords : List String :=
  ["SELECT", "VALUES", "EXEC", "EXECUTE", "DEFAULT"]

structure InsertTop where
  keyword : Keyword ["TOP"]
  amount : Source.Balanced
  percent : Option (Keyword ["PERCENT"])

/-- A dotted name; a part between two periods may be left out. -/
structure InsertTarget where
  first : Token
  parts : List (Option Token)
  is_word : first.isWord = true
  is_operand : first.isOperand = true
  words : ∀ part ∈ parts, ∀ t ∈ part, t.isWord = true ∧ t.isMember = true
  ends_with_word : parts.getLast? ≠ some none

/-- An `OUTPUT` clause.  The words that start a source are reserved, so it does not hold them. -/
structure Output where
  keyword : Keyword ["OUTPUT"]
  list : Phrase
  target : Option (Keyword ["INTO"] × Phrase)
  avoids_list : Avoids sourceWords list.1
  avoids_target : ∀ into ∈ target, Avoids sourceWords into.2.1

structure Grouping where
  group : Keyword ["GROUP"]
  byWord : Keyword ["BY"]
  keys : Phrase
  summary : Option (Keyword ["WITH"] × Keyword ["ROLLUP", "CUBE"])

/-- A select up to the next set operator. -/
structure Branch where
  select : Keyword ["SELECT"]
  quantifier : Option (Keyword ["ALL", "DISTINCT"])
  top : Option Top
  list : Phrase
  source : Option FromClause
  filter : Option (Condition "WHERE")
  grouping : Option Grouping
  having : Option (Condition "HAVING")

inductive QueryOperand where
  | branch (b : Branch)
  | group (query : Source.Balanced)

structure SetOperation where
  operator : Keyword ["UNION", "EXCEPT", "INTERSECT"]
  all : Option (Keyword ["ALL"])
  operand : QueryOperand

structure Query where
  first : Branch
  operations : List SetOperation
  ordering : Option OrderBy
  options : Option (Keyword ["OPTION"] × Source.Balanced)
  fetches_idle : ∀ o ∈ ordering, o.FetchesIdle

/-- The call of a procedure; its arguments belong to the phrase. -/
structure ProcedureCall where
  keyword : Keyword ["EXEC", "EXECUTE"]
  phrase : Phrase
  recompile : Option (Keyword ["WITH"] × Keyword ["RECOMPILE"])

inductive InsertSource where
  | rows (keyword : Keyword ["VALUES"]) (phrase : Phrase)
  | defaults (keyword : Keyword ["DEFAULT"]) (values : Keyword ["VALUES"])
  | query (q : Query)
  | call (c : ProcedureCall)

structure Insert where
  insert : Keyword ["INSERT"]
  top : Option InsertTop
  into : Option (Keyword ["INTO"])
  target : InsertTarget
  hints : Option Source.Hints
  columns : Option Source.Balanced
  output : Option Output
  source : InsertSource
  /-- Behind `TOP`, a table of that name needs `INTO` before it. -/
  not_output : top.isSome = true → target.first.isKw "OUTPUT" = false

/-! ## Tokens -/

def InsertTop.tokens (top : InsertTop) : List Token :=
  top.keyword.1 :: (parens top.amount.1 ++ (top.percent.map (·.1)).toList)

def partTokens (parts : List (Option Token)) : List Token :=
  parts.flatMap fun part => .period :: part.toList

def InsertTarget.tokens (target : InsertTarget) : List Token :=
  target.first :: partTokens target.parts

def Output.targetTokens : Option (Keyword ["INTO"] × Phrase) → List Token
  | some (into, target) => into.1 :: target.1
  | none => []

def Output.tokens (o : Output) : List Token :=
  o.keyword.1 :: (o.list.1 ++ targetTokens o.target)

def Grouping.tokens (g : Grouping) : List Token :=
  g.group.1 :: g.byWord.1 :: g.keys.1 ++ pairTokens g.summary

namespace Branch

/-- What stands between `SELECT` and the sources. -/
def front (b : Branch) : List Token :=
  (b.quantifier.map (·.1)).toList ++ b.top.elim [] Top.tokens ++ b.list.1

/-- What follows `SELECT`. -/
def tail (b : Branch) : List Token :=
  b.front ++ (b.source.elim [] FromClause.tokens ++ (b.filter.elim [] Condition.tokens ++
    (b.grouping.elim [] Grouping.tokens ++ b.having.elim [] Condition.tokens)))

end Branch

def SetOperation.tokens (op : SetOperation) : List Token :=
  op.operator.1 :: ((op.all.map (·.1)).toList ++
    match op.operand with
    | .branch b => b.select.1 :: b.tail
    | .group query => parens query.1)

namespace Query

/-- The clauses behind the last branch. -/
def ending (q : Query) : List Token :=
  q.ordering.elim [] OrderBy.tokens ++
    q.options.elim [] fun options => options.1.1 :: parens options.2.1

def tail (q : Query) : List Token :=
  q.first.tail ++ (q.operations.flatMap SetOperation.tokens ++ q.ending)

end Query

namespace InsertSource

def keyword : InsertSource → Token
  | .rows keyword _ => keyword.1
  | .defaults keyword _ => keyword.1
  | .query q => q.first.select.1
  | .call c => c.keyword.1

def tail : InsertSource → List Token
  | .rows _ phrase => phrase.1
  | .defaults _ values => [values.1]
  | .query q => q.tail
  | .call c => c.phrase.1 ++ pairTokens c.recompile

/-- A select or a call, which contributes something where it is a statement of its own. -/
def isRead : InsertSource → Bool
  | .rows _ _ => false
  | .defaults _ _ => false
  | .query _ => true
  | .call _ => true

end InsertSource

namespace Insert

/-- What follows the target. -/
def rest (i : Insert) : List Token :=
  i.hints.elim [] Source.Hints.tokens ++ (i.columns.elim [] (parens ·.1) ++
    (i.output.elim [] Output.tokens ++ i.source.keyword :: i.source.tail))

/-- What follows `INSERT`. -/
def tail (i : Insert) : List Token :=
  i.top.elim [] InsertTop.tokens ++ ((i.into.map (·.1)).toList ++ (i.target.tokens ++ i.rest))

def tokens (i : Insert) : List Token :=
  i.insert.1 :: i.tail

end Insert

/-- Behind `WITH ROLLUP` or `WITH CUBE`, nothing starts a statement: no further branch follows. -/
def Branch.SummarizesLast (b : Branch) (us : List Token) : Prop :=
  ∀ g ∈ b.grouping, g.summary.isSome = true →
    HoldsNoStatement (b.having.elim [] Condition.tokens ++ us)

def SetOperation.SummarizesLast (op : SetOperation) (us : List Token) : Prop :=
  ∀ b, op.operand = .branch b → b.SummarizesLast us

structure Query.SummarizesLast (q : Query) : Prop where
  first : q.first.SummarizesLast (q.operations.flatMap SetOperation.tokens ++ q.ending)
  later : ∀ op later, op :: later <:+ q.operations →
    op.SummarizesLast (later.flatMap SetOperation.tokens ++ q.ending)

/-! ## Ends of sources -/

variable {us ts : List Token} {keywords : List String}

theorem Grouping.endsIdle_append
    {g : Grouping} (hlast : g.summary.isSome = true → IsIdle us) (hus : EndsIdle true us)
    (hnext : Source.Ends keywords us) (has : "AS" ∉ keywords) :
    EndsIdle true (g.tokens ++ us) := by
  have hsummary : EndsIdle true (pairTokens g.summary ++ us) := by
    cases hg : g.summary with
    | none => exact hus
    | some words =>
      have hidle : IsIdle us := hlast (by rw [hg]; rfl)
      exact EndsIdle.with_cons words.1 words.2 (by decide) hus hnext has hidle
  have hkeys : IsQuiet (g.group.1 :: g.byWord.1 :: g.keys.1) :=
    (IsQuiet.keyword g.group (by decide)).append
      ((IsQuiet.keyword g.byWord (by decide)).append (.phrase g.keys))
  rw [Grouping.tokens, List.append_assoc]
  exact hsummary.quiet_append hkeys

/-- Words that may follow a branch of a query. -/
def branchEnds : List String :=
  ["UNION", "EXCEPT", "INTERSECT", "ORDER", "OPTION"]

theorem Branch.endsIdle_append
    {b : Branch} (hlast : b.SummarizesLast us) (hus : EndsIdle true us)
    (hnext : Source.Ends branchEnds us) : EndsIdle true (b.tail ++ us) := by
  have hhaving : IsQuiet (b.having.elim [] Condition.tokens) := .elim fun c _ =>
    c.isQuiet_tokens (by decide)
  have hrest : EndsIdle true (b.having.elim [] Condition.tokens ++ us) := hus.quiet_append hhaving
  have hends : Source.Ends ("HAVING" :: branchEnds) (b.having.elim [] Condition.tokens ++ us) := by
    cases b.having with
    | none => exact hnext.mono fun word hword => List.mem_cons_of_mem _ hword
    | some c =>
      have hkeyword : c.keyword.1.isAnyKw ("HAVING" :: branchEnds) = true :=
        isAnyKw_of_subset c.keyword.2 (by decide)
      exact Source.ends_cons hkeyword _
  have hgrouping : EndsIdle true (b.grouping.elim [] Grouping.tokens ++
      (b.having.elim [] Condition.tokens ++ us)) := by
    cases hg : b.grouping with
    | none => exact hrest
    | some g =>
      have hidle : g.summary.isSome = true → IsIdle (b.having.elim [] Condition.tokens ++ us) :=
        fun hsummary => isIdle_of_holdsNoStatement
          (closes_of_isBalanced hrest.unterminated.balanced) (hlast g hg hsummary)
      exact Grouping.endsIdle_append hidle hrest hends (by decide)
  have hfilter : IsQuiet (b.filter.elim [] Condition.tokens) := .elim fun c _ =>
    c.isQuiet_tokens (by decide)
  have hlater := hgrouping.quiet_append hfilter
  have hsource : EndsIdle true (b.source.elim [] FromClause.tokens ++
      (b.filter.elim [] Condition.tokens ++ (b.grouping.elim [] Grouping.tokens ++
        (b.having.elim [] Condition.tokens ++ us)))) := by
    cases b.source with
    | none => exact hlater
    | some c => exact (c.endsIdle_append hlater).mono fun _ => rfl
  have hfront : IsQuiet b.front :=
    (isQuiet_modifiers b.quantifier b.top).append (.phrase b.list)
  simpa [Branch.tail] using hsource.quiet_append hfront

theorem SetOperation.isQuiet_select (op : SetOperation) (select : Keyword ["SELECT"]) :
    IsQuiet (op.operator.1 :: (op.all.map (·.1)).toList ++ [select.1]) := by
  have hwords : IsQuiet (op.operator.1 :: (op.all.map (·.1)).toList) :=
    (IsQuiet.keyword op.operator (by decide)).append (.option op.all (by decide))
  refine ⟨?_, isBalanced_append hwords.balanced (isBalanced_keyword select.2),
    hwords.avoidsInto.append hwords.balanced (avoidsInto_keyword select.2 (by decide))⟩
  intro prev caseDepth rest hcase
  have hlast : (lastOf prev (op.operator.1 :: (op.all.map (·.1)).toList)).isAnyKw
      ["UNION", "ALL", "EXCEPT", "INTERSECT"] = true := by
    cases op.all with
    | none => exact isAnyKw_of_subset op.operator.2 (by decide)
    | some word => exact isAnyKw_of_subset word.2 (by decide)
  rw [List.append_assoc, hwords.passes prev caseDepth _ hcase, List.singleton_append,
    cutStatement_select hlast select.2, ← carry_append, lastOf_concat]

theorem SetOperation.endsIdle_append
    {op : SetOperation} (hlast : op.SummarizesLast us) (hus : EndsIdle true us)
    (hnext : Source.Ends branchEnds us) : EndsIdle true (op.tokens ++ us) := by
  rw [SetOperation.tokens]
  cases hop : op.operand with
  | branch b =>
    have hbranch := Branch.endsIdle_append (hlast b hop) hus hnext
    simpa using hbranch.quiet_append (op.isQuiet_select b.select)
  | group query =>
    have hwords := (IsQuiet.keyword op.operator (by decide)).append (.option op.all (by decide))
    have hgroup : IsQuiet (parens query.1) := .phrase ⟨_, .group query.2⟩
    simpa using hus.quiet_append (hwords.append hgroup)

theorem Query.endsIdle_ending (q : Query) : EndsIdle true q.ending := by
  have hoptions : ∀ options : Option (Keyword ["OPTION"] × Source.Balanced),
      IsQuiet (options.elim [] fun options => options.1.1 :: parens options.2.1) ∧
        IsIdle (options.elim [] fun options => options.1.1 :: parens options.2.1) := by
    intro options
    cases options with
    | none => exact ⟨.nil, isIdle_nil⟩
    | some options =>
      exact ⟨(IsQuiet.keyword options.1 (by decide)).append (.phrase ⟨_, .group options.2.2⟩),
        (isIdle_keyword options.1 (by decide)).append (isIdle_parens options.2.2)⟩
  obtain ⟨hquiet, hidle⟩ := hoptions q.options
  rw [Query.ending]
  cases ho : q.ordering with
  | none => exact endsIdle_of_isQuiet hquiet
  | some o =>
    exact OrderBy.endsIdle_append (q.fetches_idle o ho) (endsIdle_of_isQuiet hquiet) hidle

theorem Query.ends_operations (q : Query) (operations : List SetOperation) :
    Source.Ends branchEnds (operations.flatMap SetOperation.tokens ++ q.ending) := by
  have hending : Source.Ends branchEnds q.ending := by
    rw [Query.ending]
    cases q.ordering with
    | some o => exact Source.ends_cons (isAnyKw_of_subset o.order.2 (by decide)) _
    | none =>
      cases q.options with
      | none => exact Source.ends_nil
      | some options => exact Source.ends_cons (isAnyKw_of_subset options.1.2 (by decide)) _
  cases operations with
  | nil => exact hending
  | cons op operations =>
    exact Source.ends_cons (isAnyKw_of_subset op.operator.2 (by decide)) _

/-- Wherever the scan stops in a query, nothing is read from the rest of it. -/
theorem Query.SummarizesLast.endsIdle_tail {q : Query} (h : q.SummarizesLast) :
    EndsIdle true q.tail := by
  have hoperations : ∀ operations, operations <:+ q.operations →
      EndsIdle true (operations.flatMap SetOperation.tokens ++ q.ending) := by
    intro operations hsuffix
    -- From the last branch back: what follows a branch decides whether its rest contributes.
    induction operations with
    | nil => exact q.endsIdle_ending
    | cons op operations ih =>
      have hlater := ih ((List.suffix_cons op operations).trans hsuffix)
      rw [List.flatMap_cons, List.append_assoc]
      exact SetOperation.endsIdle_append (h.later op operations hsuffix) hlater
        (q.ends_operations operations)
  exact Branch.endsIdle_append h.first (hoperations _ (List.suffix_refl _))
    (q.ends_operations q.operations)

theorem ProcedureCall.endsIdle (c : ProcedureCall) :
    EndsIdle true (c.phrase.1 ++ pairTokens c.recompile) := by
  have hrecompile : EndsIdle true (pairTokens c.recompile) := by
    cases c.recompile with
    | none => exact endsIdle_nil true
    | some words =>
      exact EndsIdle.with_cons words.1 words.2 (by decide) (endsIdle_nil true) Source.ends_nil
        List.not_mem_nil isIdle_nil
  exact hrecompile.quiet_append (.phrase c.phrase)

theorem InsertSource.endsIdle_tail
    {source : InsertSource} (h : ∀ q, source = .query q → q.SummarizesLast) :
    EndsIdle true source.tail :=
  match source with
  | .rows _ phrase => endsIdle_of_isQuiet (.phrase phrase)
  | .defaults _ values => endsIdle_of_isQuiet (.keyword values (by decide))
  | .query q => (h q rfl).endsIdle_tail
  | .call c => c.endsIdle

/-! ## Parts between the target and the source -/

theorem InsertSource.isAnyKw_keyword (source : InsertSource) :
    source.keyword.isAnyKw sourceWords = true :=
  match source with
  | .rows keyword _ => isAnyKw_of_subset keyword.2 (by decide)
  | .defaults keyword _ => isAnyKw_of_subset keyword.2 (by decide)
  | .query q => isAnyKw_of_subset q.first.select.2 (by decide)
  | .call c => isAnyKw_of_subset c.keyword.2 (by decide)

theorem skipHints_append (hints : Option Source.Hints) (h : startsWithKw "WITH" ts = false) :
    skipHints (hints.elim [] Source.Hints.tokens ++ ts) = ts := by
  cases hints with
  | none => exact if_neg (by simp [h])
  | some hints =>
    have hwith : startsWithKw "WITH" (hints.tokens ++ ts) = true := hints.keyword.2
    have hgroup : skipGroup? ((hints.tokens ++ ts).drop 1) = some ts :=
      skipGroup?_parens hints.group.2 ts
    have hparen : startsWithParen ((hints.tokens ++ ts).drop 1) = true := rfl
    rw [Option.elim_some, skipHints, if_pos (by rw [hwith, hparen]; rfl), hgroup, Option.getD_some]

theorem skipColumns_append (columns : Option Source.Balanced) (h : startsWithParen ts = false) :
    skipColumns (columns.elim [] (parens ·.1) ++ ts) = ts := by
  cases columns with
  | none => exact skipsGroup_skipColumns.other h
  | some columns => exact skipsGroup_skipColumns.group (skipGroup?_parens columns.2 ts)

theorem Output.avoids_tokens (o : Output) : Avoids sourceWords o.tokens := by
  have hkeyword : ∀ {keywords} (k : Keyword keywords), (∀ word ∈ keywords, word ∉ sourceWords) →
      Avoids sourceWords [k.1] ∧ Closes [k.1] := by
    intro keywords k hother
    refine ⟨?_, closes_of_isBalanced (isBalanced_keyword k.2)⟩
    intro t ht
    obtain rfl : t = k.1 := by simpa [outside] using ht
    exact isAnyKw_eq_false_of_disjoint k.2 hother
  obtain ⟨houtput, houtputs⟩ := hkeyword o.keyword (by decide)
  have htarget : Avoids sourceWords (targetTokens o.target) := by
    cases ho : o.target with
    | none => exact fun t ht => absurd ht List.not_mem_nil
    | some into =>
      obtain ⟨hinto, hintos⟩ := hkeyword into.1 (by decide)
      exact hinto.append hintos (o.avoids_target into ho)
  have hlist : Closes o.list.1 := closes_of_isBalanced (isBalanced_of_isPhrase o.list.2)
  exact houtput.append houtputs (o.avoids_list.append hlist htarget)

theorem Output.closes_tokens (o : Output) : Closes o.tokens := by
  have htarget : isBalanced (targetTokens o.target) = true := by
    cases o.target with
    | none => rfl
    | some into =>
      exact isBalanced_append (isBalanced_keyword into.1.2) (isBalanced_of_isPhrase into.2.2)
  exact closes_of_isBalanced (isBalanced_append (isBalanced_keyword o.keyword.2)
    (isBalanced_append (isBalanced_of_isPhrase o.list.2) htarget))

theorem skipOutput_append
    (output : Option Output) {t : Token} (h : t.isAnyKw sourceWords = true) (ts : List Token) :
    skipOutput (output.elim [] Output.tokens ++ t :: ts) = t :: ts := by
  cases output with
  | none =>
    have hnot : startsWithKw "OUTPUT" (t :: ts) = false :=
      isAnyKw_eq_false_of_disjoint h (by decide)
    exact if_neg (by simp [hnot])
  | some o =>
    have houtput : startsWithKw "OUTPUT" (o.tokens ++ t :: ts) = true := o.keyword.2
    have hstop : fromKw sourceWords (t :: ts) = t :: ts := by
      rw [fromKw, cutAtKw, if_pos ⟨rfl, h⟩]
    have hfrom : fromKw sourceWords (o.tokens ++ t :: ts) = t :: ts :=
      (fromKw_append_of_avoids o.avoids_tokens o.closes_tokens _).trans hstop
    rw [Option.elim_some, skipOutput, if_pos houtput]
    unfold sourceWords at hfrom
    rw [hfrom]

theorem Output.passes_tokens (o : Output) : Passes false o.tokens := by
  have htarget : Passes false (targetTokens o.target) := by
    cases o.target with
    | none => exact passes_nil
    | some into => exact (passes_keyword into.1.2 (by decide)).append (passes_of_isPhrase into.2.2)
  exact (passes_keyword o.keyword.2 (by decide)).append
    ((passes_of_isPhrase o.list.2).append htarget)

theorem passes_elim {α : Type} {tokens : α → List Token} {x : Option α}
    (h : ∀ a, Passes false (tokens a)) : Passes false (x.elim [] tokens) := by
  cases x with
  | none => exact passes_nil
  | some a => exact h a

theorem InsertSource.passes {source : InsertSource} (h : source.isRead = false) :
    Passes false (source.keyword :: source.tail) := by
  cases source with
  | rows keyword phrase =>
    exact (passes_keyword keyword.2 (by decide)).append (passes_of_isPhrase phrase.2)
  | defaults keyword values =>
    exact (passes_keyword keyword.2 (by decide)).append (passes_keyword values.2 (by decide))
  | query q => cases h
  | call c => cases h

namespace Insert

variable {i : Insert}

theorem insertSource_rest (i : Insert) (more : List Token) :
    insertSource (i.rest ++ more) = i.source.keyword :: (i.source.tail ++ more) := by
  have hkeyword := i.source.isAnyKw_keyword
  have hwith : startsWithKw "WITH" (i.columns.elim [] (parens ·.1) ++
      (i.output.elim [] Output.tokens ++ i.source.keyword :: (i.source.tail ++ more))) = false := by
    cases i.columns with
    | some columns => rfl
    | none =>
      cases i.output with
      | some output => exact isAnyKw_eq_false_of_disjoint output.keyword.2 (by decide)
      | none => exact isAnyKw_eq_false_of_disjoint hkeyword (by decide)
  have hparen : startsWithParen
      (i.output.elim [] Output.tokens ++ i.source.keyword :: (i.source.tail ++ more)) = false := by
    cases i.output with
    | some output => exact (Source.wordNext_cons (isWord_of_isAnyKw output.keyword.2) _).not_paren
    | none => exact (Source.wordNext_cons (isWord_of_isAnyKw hkeyword) _).not_paren
  rw [insertSource_eq, rest, List.append_assoc, List.append_assoc, List.append_assoc,
    List.cons_append, skipHints_append i.hints hwith, skipColumns_append i.columns hparen,
    skipOutput_append i.output hkeyword]

theorem passes_rest (h : i.source.isRead = false) : Passes false i.rest := by
  have hhints : Passes false (i.hints.elim [] Source.Hints.tokens) :=
    passes_elim fun hints => passes_hints hints.keyword.2 hints.group.2
  have hcolumns : Passes false (i.columns.elim [] (parens ·.1)) :=
    passes_elim fun columns => passes_parens columns.2
  exact hhints.append (hcolumns.append
    ((passes_elim fun output => output.passes_tokens).append (i.source.passes h)))

end Insert

/-! ## Targets -/

namespace InsertTarget

variable {parts : List (Option Token)}

theorem passes_parts (h : ∀ part ∈ parts, ∀ t ∈ part, t.isWord = true ∧ t.isMember = true) :
    Passes false (partTokens parts) := by
  induction parts with
  | nil => exact passes_nil
  | cons part parts ih =>
    rw [List.forall_mem_cons] at h
    refine Passes.append ?_ (ih h.2)
    cases part with
    | none => exact passes_of_not_statement rfl rfl
    | some t => exact passes_member (.inl rfl) (h.1 t rfl).2

/-- The reader of names takes all parts of a name, or those before the first empty one. -/
theorem readNameTail_parts
    (h : ∀ part ∈ parts, ∀ t ∈ part, t.isWord = true ∧ t.isMember = true)
    (hlast : parts.getLast? ≠ some none) (hrest : readNameTail ts = ([], ts)) :
    (∃ names, readNameTail (partTokens parts ++ ts) = (names, ts)) ∨
      ∃ names before later, parts = before ++ none :: later ∧
        readNameTail (partTokens parts ++ ts) = (names, .period :: (partTokens later ++ ts)) := by
  induction parts with
  | nil => exact .inl ⟨[], hrest⟩
  | cons part parts ih =>
    rw [List.forall_mem_cons] at h
    cases part with
    | none =>
      cases parts with
      | nil => exact absurd rfl hlast
      | cons next parts =>
        have hstop : readNameTail (partTokens (none :: next :: parts) ++ ts) =
            ([], partTokens (none :: next :: parts) ++ ts) := readNameTail_of_not_word rfl _
        exact .inr ⟨[], [], next :: parts, rfl, hstop⟩
    | some t =>
      have hlater : parts.getLast? ≠ some none := by
        cases parts with
        | nil => simp
        | cons next parts => rwa [List.getLast?_cons_cons] at hlast
      obtain ⟨text, quoted, rfl⟩ := exists_word (h.1 t rfl).1
      have hstep : readNameTail (partTokens (some (.word text quoted) :: parts) ++ ts) =
          (text :: (readNameTail (partTokens parts ++ ts)).1,
            (readNameTail (partTokens parts ++ ts)).2) := by
        change readNameTail (.period :: .word text quoted :: (partTokens parts ++ ts)) = _
        rw [readNameTail]
      rcases ih h.2 hlater with ⟨names, hnames⟩ | ⟨names, before, later, rfl, hnames⟩
      · exact .inl ⟨text :: names, by rw [hstep, hnames]⟩
      · exact .inr ⟨text :: names, some (.word text quoted) :: before, later, rfl,
          by rw [hstep, hnames]⟩

theorem exists_readName? (target : InsertTarget) (hrest : readNameTail ts = ([], ts)) :
    (∃ names, readName? (target.tokens ++ ts) = some (names, ts)) ∨
      ∃ names before later, target.parts = before ++ none :: later ∧
        readName? (target.tokens ++ ts) = some (names, .period :: (partTokens later ++ ts)) := by
  obtain ⟨text, quoted, hfirst⟩ := exists_word target.is_word
  have hname : readName? (target.tokens ++ ts) =
      some (text :: (readNameTail (partTokens target.parts ++ ts)).1,
        (readNameTail (partTokens target.parts ++ ts)).2) := by
    rw [tokens, hfirst]
    rfl
  rcases readNameTail_parts target.words target.ends_with_word hrest with
    ⟨names, hnames⟩ | ⟨names, before, later, hparts, hnames⟩
  · exact .inl ⟨text :: names, by rw [hname, hnames]⟩
  · exact .inr ⟨text :: names, before, later, hparts, by rw [hname, hnames]⟩

theorem passes_tokens (target : InsertTarget) : Passes false target.tokens :=
  (passes_of_isPhrase (.operand target.is_operand)).append (passes_parts target.words)

end InsertTarget

/-! ## Inserts -/

namespace Insert

variable {i : Insert}

theorem readNameTail_rest (i : Insert) (more : List Token) :
    readNameTail (i.rest ++ more) = ([], i.rest ++ more) := by
  have hstop : ∀ t us, t ≠ .period → readNameTail (t :: us) = ([], t :: us) :=
    fun t us ht => readNameTail_of_ne_period ht us
  rw [rest]
  cases i.hints with
  | some hints => exact hstop _ _ (ne_of_isAnyKw hints.keyword.2 rfl)
  | none =>
    cases i.columns with
    | some columns => exact hstop _ _ (by simp)
    | none =>
      cases i.output with
      | some output => exact hstop _ _ (ne_of_isAnyKw output.keyword.2 rfl)
      | none => exact hstop _ _ (ne_of_isAnyKw i.source.isAnyKw_keyword rfl)

theorem insertTarget_into (i : Insert) (more : List Token) :
    insertTarget ((i.into.map (·.1)).toList ++ (i.target.tokens ++ more)) =
      i.target.tokens ++ more := by
  cases i.into with
  | some word => exact if_pos word.2
  | none =>
    have hfirst : i.target.first.isKw "INTO" = false := by
      have hoperand := i.target.is_operand
      rw [Token.isOperand, Bool.and_eq_true, Bool.not_eq_true'] at hoperand
      exact isAnyKw_eq_false_of_subset hoperand.2 (by decide)
    have hstart : startsWithKw "INTO" (i.target.tokens ++ more) = false := hfirst
    exact if_neg (by simpa using hstart)

/-- `TOP` is taken for the target, and its amount for the columns. -/
theorem afterInsert_top
    (top : InsertTop) {u : Token} (houtput : u.isKw "OUTPUT" = false) (t : Token)
    (us : List Token) :
    afterInsert t (top.keyword.1 :: (parens top.amount.1 ++ u :: us)) =
      afterStatement (u :: us) := by
  have hinto : insertTarget (top.keyword.1 :: (parens top.amount.1 ++ u :: us)) =
      top.keyword.1 :: (parens top.amount.1 ++ u :: us) := by
    have hnot : startsWithKw "INTO" (top.keyword.1 :: (parens top.amount.1 ++ u :: us)) = false :=
      isAnyKw_eq_false_of_disjoint top.keyword.2 (by decide)
    exact if_neg (by simp [hnot])
  obtain ⟨names, hname⟩ : ∃ names, readName? (top.keyword.1 :: (parens top.amount.1 ++ u :: us)) =
      some (names, parens top.amount.1 ++ u :: us) := by
    obtain ⟨text, quoted, hword⟩ := exists_word (isWord_of_isAnyKw top.keyword.2)
    have hstop : readNameTail (parens top.amount.1 ++ u :: us) = _ :=
      readNameTail_of_ne_period (by simp) _
    exact ⟨[text], by rw [hword, readName?, hstop]; rfl⟩
  have hsource : insertSource (parens top.amount.1 ++ u :: us) = u :: us := by
    have hhints : skipHints (parens top.amount.1 ++ u :: us) = _ :=
      if_neg (by simp [parens, startsWithKw, isKw, isAnyKw])
    have hcolumns : skipColumns (parens top.amount.1 ++ u :: us) = _ :=
      skipsGroup_skipColumns.group (skipGroup?_parens top.amount.2 _)
    have hstart : startsWithKw "OUTPUT" (u :: us) = false := houtput
    rw [insertSource_eq, hhints, hcolumns, skipOutput, if_neg (by rw [hstart]; simp)]
  rw [afterInsert_eq, hinto, hname]
  dsimp only
  rw [hsource]

theorem read_afterInsert_top
    {top : InsertTop} (htop : i.top = some top) (h : i.source.isRead = false) (B : List Token) :
    read [] (afterInsert i.insert.1 (i.tail ++ .semicolon :: B)) = read [] B := by
  have htarget : Passes false (partTokens i.target.parts ++ i.rest) :=
    (InsertTarget.passes_parts i.target.words).append (passes_rest h)
  have hall : Passes false (i.target.tokens ++ i.rest) :=
    i.target.passes_tokens.append (passes_rest h)
  -- The scan for the end starts behind the first token after the amount, whichever that is.
  obtain ⟨u, us, hbehind, houtput, hpasses⟩ : ∃ u us,
      (top.percent.map (·.1)).toList ++ ((i.into.map (·.1)).toList ++ (i.target.tokens ++ i.rest)) =
        u :: us ∧ u.isKw "OUTPUT" = false ∧ Passes false us := by
    cases top.percent with
    | some word =>
      refine ⟨word.1, _, rfl, isAnyKw_eq_false_of_disjoint word.2 (by decide), ?_⟩
      cases i.into with
      | some into => exact (passes_keyword into.2 (by decide)).append hall
      | none => exact hall
    | none =>
      cases i.into with
      | some into => exact ⟨into.1, _, rfl, isAnyKw_eq_false_of_disjoint into.2 (by decide), hall⟩
      | none => exact ⟨i.target.first, _, rfl, i.not_output (by rw [htop]; rfl), htarget⟩
  have htail : i.tail ++ .semicolon :: B =
      top.keyword.1 :: (parens top.amount.1 ++ (u :: us ++ .semicolon :: B)) := by
    rw [tail, htop, ← hbehind]
    simp [InsertTop.tokens]
  have hafter := afterStatement_of_passes hpasses u B
  rw [List.cons_append] at htail hafter
  rw [htail, afterInsert_top top houtput, hafter, read_semicolon]

theorem read_afterInsert
    (htop : i.top = none) (hempty : i.source.isRead = true → none ∉ i.target.parts)
    (hlast : ∀ q, i.source = .query q → q.SummarizesLast) (B : List Token) :
    read [] (afterInsert i.insert.1 (i.tail ++ .semicolon :: B)) = read [] B := by
  have htail : i.tail ++ .semicolon :: B =
      (i.into.map (·.1)).toList ++ (i.target.tokens ++ (i.rest ++ .semicolon :: B)) := by
    rw [tail, htop]
    simp
  rw [afterInsert_eq, htail, insertTarget_into]
  -- The name is read up to its end, or up to its first empty part.
  rcases i.target.exists_readName? (i.readNameTail_rest (.semicolon :: B)) with
    ⟨names, hname⟩ | ⟨names, before, later, hparts, hname⟩
  · rw [hname]
    dsimp only
    rw [insertSource_rest]
    exact read_afterStatement (InsertSource.endsIdle_tail hlast) i.source.keyword B
  · have hrows : i.source.isRead = false := by
      apply eq_false_of_ne_true
      intro hread
      exact hempty hread (hparts ▸ List.mem_append_right before List.mem_cons_self)
    have hwords : ∀ part ∈ later, ∀ t ∈ part, t.isWord = true ∧ t.isMember = true :=
      fun part hpart => i.target.words part
        (hparts ▸ List.mem_append_right before (List.mem_cons_of_mem none hpart))
    have hpasses : Passes false (partTokens later ++ i.rest) :=
      (InsertTarget.passes_parts hwords).append (passes_rest hrows)
    have hsource : ∀ us, insertSource (.period :: us) = .period :: us := fun us => rfl
    have hafter := afterStatement_of_passes hpasses .period B
    rw [List.cons_append, List.append_assoc] at hafter
    rw [hname]
    dsimp only
    rw [hsource, hafter, read_semicolon]

theorem read_insert {t : Token} (ht : t.isKw "INSERT" = true) (ctes : List String)
    (ts : List Token) : read ctes (t :: ts) = read [] (afterInsert t ts) := by
  have hselect : t.isKw "SELECT" = false := isAnyKw_eq_false_of_disjoint ht (by decide)
  have hstatement : readStatement? ctes t ts = some (.ok {}, afterInsert t ts) := by
    rw [readStatement?, if_neg (by simp [hselect]), if_pos ht]
  have hctes := startsCtes_of_not_with (isAnyKw_eq_false_of_disjoint ht (by decide)) ts
  rw [read_statement (ne_of_isAnyKw ht rfl) (by simp [hctes]) hstatement, empty_followedBy]

/-- An `INSERT` with its terminator contributes nothing to the body.  If its rows are selected or
come from a procedure, there is no `TOP` before its target and no empty part in the target, and a
branch with `WITH ROLLUP` or `WITH CUBE` is the last one. -/
theorem read_to_terminator
    (i : Insert)
    (htarget : i.source.isRead = true → i.top = none ∧ none ∉ i.target.parts)
    (hlast : ∀ q, i.source = .query q → q.SummarizesLast)
    (ctes : List String) (B : List Token) :
    read ctes (i.tokens ++ .semicolon :: B) = read [] B := by
  rw [tokens, List.cons_append, read_insert i.insert.2]
  cases htop : i.top with
  | none => exact read_afterInsert htop (fun hread => (htarget hread).2) hlast B
  | some top =>
    have hrows : i.source.isRead = false := by
      apply eq_false_of_ne_true
      intro hread
      rw [(htarget hread).1] at htop
      cases htop
    exact read_afterInsert_top htop hrows B

end Insert

/-- `SELECT o.Id FROM dbo.Orders o` -/
def Query.orders : Query where
  first := {
    select := selectWord
    quantifier := none
    top := none
    list := ⟨[.word "o" false, .period, .word "Id" false], isPhrase_of_operands (by decide)⟩
    source := some .orders
    filter := none
    grouping := none
    having := none }
  operations := []
  ordering := none
  options := none
  fetches_idle := OrderBy.fetchesIdle_none

theorem Query.summarizesLast_orders : orders.SummarizesLast where
  first g hg := by cases hg
  later op later hsuffix := by cases List.suffix_nil.mp hsuffix

namespace Insert

/-- `INSERT INTO tempdb.dbo.T (a) SELECT o.Id FROM dbo.Orders o`, with another schema or none in the
target, or with a `TOP` before it. -/
def ofOrders (top : Option InsertTop) (schema : Option Token)
    (h : ∀ t ∈ schema, t.isWord = true ∧ t.isMember = true) : Insert where
  insert := ⟨.word "INSERT" false, by decide⟩
  top
  into := some ⟨.word "INTO" false, by decide⟩
  target := {
    first := .word "tempdb" false
    parts := [schema, some (.word "T" false)]
    is_word := rfl
    is_operand := by decide
    words := by
      rw [List.forall_mem_cons, List.forall_mem_singleton]
      exact ⟨h, by decide⟩
    ends_with_word := by simp }
  hints := none
  columns := some ⟨[.word "a" false], by decide⟩
  output := none
  source := .query .orders
  not_output := fun _ => rfl

theorem read_to_terminator_orders :
    let i := ofOrders none (some (.word "dbo" false)) (by decide)
    i.source.isRead = true ∧ i.top = none ∧ none ∉ i.target.parts ∧ Query.orders.SummarizesLast ∧
      read [] (i.tokens ++ [.semicolon]) = .ok {} := by
  have hfull : none ∉ (ofOrders none (some (.word "dbo" false)) (by decide)).target.parts := by
    simp [ofOrders]
  have hlast : ∀ q, InsertSource.query .orders = .query q → q.SummarizesLast := by
    rintro q ⟨⟩
    exact Query.summarizesLast_orders
  refine ⟨rfl, rfl, hfull, Query.summarizesLast_orders, ?_⟩
  rw [read_to_terminator (ofOrders none (some (.word "dbo" false)) (by decide))
    (fun _ => ⟨rfl, hfull⟩) hlast [] [], read_nil]

/-- Behind a `TOP`, and behind a target with an empty part, the select is a statement of its own. -/
theorem read_to_terminator_leak :
    let top : InsertTop := ⟨⟨.word "TOP" false, by decide⟩, ⟨[.num "5"], by decide⟩, none⟩
    (∃ found set, read [] ((ofOrders (some top) (some (.word "dbo" false)) (by decide)).tokens ++
        [.semicolon]) = .ok found ∧ found.resultSets = [set]) ∧
      ∃ found set, read [] ((ofOrders none none (by simp)).tokens ++ [.semicolon]) = .ok found ∧
        found.resultSets = [set] := by
  intro top
  obtain ⟨found, set, hselect, hset⟩ : ∃ found set,
      readSelect [] (.word "SELECT" false :: Query.orders.tail) = .ok found ∧
        found.resultSets = [set] := by
    have hparts : Select.listAndClauses (.word "SELECT" false :: Query.orders.tail) =
        (Query.orders.first.list.1, Query.orders.tail.drop 3) := by
      rw [Select.listAndClauses, Select.skipModifiers_of_not (by decide)]
      rfl
    have hread := Select.read_of_parts hparts (by decide) [] []
    have hcolumns : readSelect [] (.word "SELECT" false :: Query.orders.tail) = _ :=
      readSelect_of_columns (by rw [hparts]; decide) (by rw [hread]) (by rw [hread]; decide)
    exact ⟨_, _, hcolumns, rfl⟩
  have hleak : ∀ ts, afterInsert (.word "INSERT" false) ts =
        .word "SELECT" false :: (Query.orders.tail ++ [.semicolon]) →
      ∃ found set, read [] (.word "INSERT" false :: ts) = .ok found ∧
        found.resultSets = [set] := by
    intro ts hafter
    have hcut : cutStatement (.word "SELECT" false) 0 0 (Query.orders.tail ++ [.semicolon]) =
        (Query.orders.tail, [.semicolon]) := by rfl
    have hall : read [] (.word "SELECT" false :: (Query.orders.tail ++ [.semicolon])) = _ :=
      read_cut (by decide) hcut
    rw [hselect, read_semicolon, read_nil, followedBy_empty] at hall
    exact ⟨found, set, by rw [read_insert (by decide), hafter, hall], hset⟩
  exact ⟨hleak _ (by rfl), hleak _ (by rfl)⟩

end Insert

end SqlSnapshot
