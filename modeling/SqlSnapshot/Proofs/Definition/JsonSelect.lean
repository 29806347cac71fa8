import SqlSnapshot.Proofs.Definition.Body
import SqlSnapshot.Proofs.Definition.Phrases
import SqlSnapshot.Proofs.Definition.Scope

/-!
# Selects with `FOR JSON`

A select with `FOR JSON` is a statement, or stands in parentheses as a column of another select.  In
parentheses it is read as it is; as a statement it is first cut out of the body, which takes
`MERGE`, `FETCH` and a `WITH` before `ROLLUP` for starts of other statements.  Without these three
it is read to the same columns in both places.
-/

namespace SqlSnapshot

open Token

/-! ## Grammar -/

/-- One of the keywords, in some spelling. -/
abbrev Keyword (keywords : List String) := { t : Token // t.isAnyKw keywords = true }

abbrev Phrase := { ts : List Token // IsPhrase false ts }

/-- The amount of a `TOP`: one token, or what stands in parentheses. -/
inductive TopAmount where
  | single (t : Token) (h : t.isOperand = true)
  | group (inner : List Token) (h : isBalanced inner = true)

structure Top where
  keyword : Keyword ["TOP"]
  amount : TopAmount
  percent : Option (Keyword ["PERCENT"])
  ties : Option (Keyword ["WITH"] × Keyword ["TIES"])

/-- A join; its condition belongs to the phrase of its source. -/
structure Join where
  words : List (Keyword ["INNER", "LEFT", "RIGHT", "FULL", "OUTER", "CROSS"])
  hint : Option (Keyword ["MERGE", "LOOP", "HASH"])
  join : Keyword ["JOIN", "APPLY"]
  source : Phrase

structure FromClause where
  keyword : Keyword ["FROM"]
  sources : Phrase
  joins : List Join

/-- `WHERE` or `HAVING` with its condition. -/
structure Condition (word : String) where
  keyword : Keyword [word]
  phrase : Phrase

structure GroupBy where
  group : Keyword ["GROUP"]
  byWord : Keyword ["BY"]
  keys : Phrase
  rollup : Option (Keyword ["WITH"] × Keyword ["ROLLUP"])

structure Fetch where
  keyword : Keyword ["FETCH"]
  next : Keyword ["NEXT", "FIRST"]
  amount : Phrase
  rows : Keyword ["ROW", "ROWS"]
  only : Keyword ["ONLY"]

structure Paging where
  keyword : Keyword ["OFFSET"]
  amount : Phrase
  rows : Keyword ["ROW", "ROWS"]
  fetch : Option Fetch

structure OrderBy where
  order : Keyword ["ORDER"]
  byWord : Keyword ["BY"]
  keys : Phrase
  paging : Option Paging

/-- No item of a select list starts with these words: they belong to the modifiers before it and to
the clauses after it. -/
def Select.listBounds : List String :=
  ["ALL", "DISTINCT", "TOP", "PERCENT", "WITH"] ++ listEnd

/-- A select with `FOR JSON`.  Its list assigns no variable. -/
structure JsonSelect where
  select : Keyword ["SELECT"]
  quantifier : Option (Keyword ["ALL", "DISTINCT"])
  top : Option Top
  list : Phrase
  source : Option FromClause
  filter : Option (Condition "WHERE")
  grouping : Option GroupBy
  having : Option (Condition "HAVING")
  ordering : Option OrderBy
  forWord : Keyword ["FOR"]
  json : Keyword ["JSON"]
  options : Phrase
  list_ne_nil : list.1 ≠ []
  starts_item : startsWithAnyKw Select.listBounds list.1 = false
  no_assignment : ∀ item ∈ splitCommas 0 list.1, Select.isVariableAssignment item = false

/-- Two words that stand together or not at all. -/
def pairTokens {first second : List String} :
    Option (Keyword first × Keyword second) → List Token
  | some (one, next) => [one.1, next.1]
  | none => []

def TopAmount.tokens : TopAmount → List Token
  | .single t _ => [t]
  | .group inner _ => parens inner

def Top.tokens (top : Top) : List Token :=
  top.keyword.1 :: (top.amount.tokens ++ ((top.percent.map (·.1)).toList ++ pairTokens top.ties))

namespace Join

def tokens (j : Join) : List Token :=
  j.words.map (·.1) ++ (j.hint.map (·.1)).toList ++ j.join.1 :: j.source.1

def usesMerge (j : Join) : Bool :=
  j.hint.any (·.1.isKw "MERGE")

end Join

def FromClause.tokens (c : FromClause) : List Token :=
  c.keyword.1 :: c.sources.1 ++ c.joins.flatMap Join.tokens

def Condition.tokens {word : String} (c : Condition word) : List Token :=
  c.keyword.1 :: c.phrase.1

def GroupBy.tokens (g : GroupBy) : List Token :=
  g.group.1 :: g.byWord.1 :: g.keys.1 ++ pairTokens g.rollup

def Fetch.tokens (f : Fetch) : List Token :=
  f.keyword.1 :: f.next.1 :: f.amount.1 ++ [f.rows.1, f.only.1]

def Paging.tokens (p : Paging) : List Token :=
  p.keyword.1 :: p.amount.1 ++ p.rows.1 :: p.fetch.elim [] Fetch.tokens

def OrderBy.tokens (o : OrderBy) : List Token :=
  o.order.1 :: o.byWord.1 :: o.keys.1 ++ o.paging.elim [] Paging.tokens

namespace JsonSelect

/-- What stands between `SELECT` and the select list. -/
def modifiers (s : JsonSelect) : List Token :=
  (s.quantifier.map (·.1)).toList ++ s.top.elim [] Top.tokens

/-- The clauses between the select list and `FOR JSON`. -/
def clauses (s : JsonSelect) : List Token :=
  s.source.elim [] FromClause.tokens ++ s.filter.elim [] Condition.tokens ++
    s.grouping.elim [] GroupBy.tokens ++ s.having.elim [] Condition.tokens ++
    s.ordering.elim [] OrderBy.tokens

def forJson (s : JsonSelect) : List Token :=
  s.forWord.1 :: s.json.1 :: s.options.1

def tokens (s : JsonSelect) : List Token :=
  s.select.1 :: (s.modifiers ++ (s.list.1 ++ (s.clauses ++ s.forJson)))

/-- One of the words outside parentheses starts a statement where it is not part of a select. -/
def hasStatementWord (s : JsonSelect) : Bool :=
  s.source.any (·.joins.any Join.usesMerge) || s.grouping.any (·.rollup.isSome) ||
    s.ordering.any (·.paging.any (·.fetch.isSome))

end JsonSelect

/-! ## Clauses -/

/-- What the scans of a select do not stop at. -/
structure IsQuiet (ts : List Token) : Prop where
  passes : Body.Passes false ts
  balanced : isBalanced ts = true
  avoidsInto : AvoidsInto ts

namespace IsQuiet

variable {ts us : List Token}

theorem nil : IsQuiet [] :=
  ⟨Body.passes_nil, rfl, by simp [AvoidsInto, outside]⟩

theorem append (hts : IsQuiet ts) (hus : IsQuiet us) : IsQuiet (ts ++ us) where
  passes := hts.passes.append hus.passes
  balanced := isBalanced_append hts.balanced hus.balanced
  avoidsInto := hts.avoidsInto.append hts.balanced hus.avoidsInto

theorem phrase (p : Phrase) : IsQuiet p.1 where
  passes := Body.passes_of_isPhrase p.2
  balanced := isBalanced_of_isPhrase p.2
  avoidsInto := avoidsInto_of_isPhrase p.2

theorem keyword {keywords : List String} (k : Keyword keywords)
    (hother : ∀ word ∈ keywords, word ∉ "INTO" :: "CASE" :: Body.statementKeywords) :
    IsQuiet [k.1] where
  passes := Body.passes_keyword k.2 fun word hword hmem =>
    hother word hword (List.mem_cons_of_mem _ hmem)
  balanced := isBalanced_keyword k.2
  avoidsInto := avoidsInto_keyword k.2 fun hmem => hother _ hmem List.mem_cons_self

theorem option {keywords : List String} (k : Option (Keyword keywords))
    (hother : ∀ word ∈ keywords, word ∉ "INTO" :: "CASE" :: Body.statementKeywords) :
    IsQuiet (k.map (·.1)).toList := by
  cases k with
  | none => exact nil
  | some word => exact keyword word hother

theorem flatMap {α : Type} {tokens : α → List Token} {xs : List α}
    (h : ∀ x ∈ xs, IsQuiet (tokens x)) : IsQuiet (xs.flatMap tokens) := by
  induction xs with
  | nil => exact nil
  | cons x xs ih =>
    rw [List.forall_mem_cons] at h
    rw [List.flatMap_cons]
    exact h.1.append (ih h.2)

theorem elim {α : Type} {tokens : α → List Token} {x : Option α}
    (h : ∀ a, x = some a → IsQuiet (tokens a)) : IsQuiet (x.elim [] tokens) := by
  cases x with
  | none => exact nil
  | some a => exact h a rfl

end IsQuiet

theorem TopAmount.isQuiet_tokens (a : TopAmount) : IsQuiet a.tokens :=
  match a with
  | .single t h => .phrase ⟨[t], .operand h⟩
  | .group inner h => .phrase ⟨parens inner, .group h⟩

theorem Top.isQuiet_tokens (top : Top) : IsQuiet top.tokens := by
  have hties : IsQuiet (pairTokens top.ties) := by
    rcases top.ties with _ | ⟨first, second⟩
    · exact .nil
    · exact .phrase ⟨[first.1, second.1], .ties first.2 second.2⟩
  exact (IsQuiet.keyword top.keyword (by decide)).append
    (top.amount.isQuiet_tokens.append ((IsQuiet.option top.percent (by decide)).append hties))

theorem isQuiet_modifiers
    (quantifier : Option (Keyword ["ALL", "DISTINCT"])) (top : Option Top) :
    IsQuiet ((quantifier.map (·.1)).toList ++ top.elim [] Top.tokens) :=
  (IsQuiet.option quantifier (by decide)).append (.elim fun top _ => top.isQuiet_tokens)

theorem Join.isQuiet_tokens {j : Join} (h : j.usesMerge = false) : IsQuiet j.tokens := by
  have hwords : IsQuiet (j.words.map (·.1)) := by
    rw [List.map_eq_flatMap]
    exact .flatMap fun word _ => .keyword word (by decide)
  have hhint : IsQuiet (j.hint.map (·.1)).toList := by
    unfold usesMerge at h
    cases hint : j.hint with
    | none => exact .nil
    | some word =>
      have hother : word.1.isAnyKw ["LOOP", "HASH"] = true := by
        have hword := word.2
        rw [isAnyKw_cons] at hword
        simpa [show word.1.isKw "MERGE" = false by simpa [hint] using h] using hword
      exact .keyword ⟨word.1, hother⟩ (by decide)
  exact (hwords.append hhint).append
    ((IsQuiet.keyword j.join (by decide)).append (.phrase j.source))

theorem FromClause.isQuiet_tokens
    {c : FromClause} (h : c.joins.any Join.usesMerge = false) : IsQuiet c.tokens := by
  rw [List.any_eq_false] at h
  have hjoins : IsQuiet (c.joins.flatMap Join.tokens) := .flatMap fun j hj =>
    Join.isQuiet_tokens (eq_false_of_ne_true (h j hj))
  exact ((IsQuiet.keyword c.keyword (by decide)).append (.phrase c.sources)).append hjoins

theorem Condition.isQuiet_tokens
    {word : String} (hword : word ∉ "INTO" :: "CASE" :: Body.statementKeywords)
    (c : Condition word) : IsQuiet c.tokens :=
  (IsQuiet.keyword c.keyword (by simpa using hword)).append (.phrase c.phrase)

theorem GroupBy.isQuiet_tokens {g : GroupBy} (h : g.rollup.isSome = false) : IsQuiet g.tokens := by
  have hrollup : g.rollup = none := by simpa using h
  have hkeys := (IsQuiet.keyword g.byWord (by decide)).append (.phrase g.keys)
  rw [tokens, hrollup, pairTokens, List.append_nil]
  exact (IsQuiet.keyword g.group (by decide)).append hkeys

theorem Paging.isQuiet_tokens {p : Paging} (h : p.fetch.isSome = false) : IsQuiet p.tokens := by
  have hfetch : p.fetch = none := by simpa using h
  have hamount := (IsQuiet.keyword p.keyword (by decide)).append (.phrase p.amount)
  rw [tokens, hfetch]
  exact hamount.append (IsQuiet.keyword p.rows (by decide))

theorem OrderBy.isQuiet_tokens
    {o : OrderBy} (h : o.paging.any (·.fetch.isSome) = false) : IsQuiet o.tokens := by
  have hpaging : IsQuiet (o.paging.elim [] Paging.tokens) := by
    apply IsQuiet.elim
    intro p hp
    rw [hp] at h
    exact Paging.isQuiet_tokens h
  have hkeys := (IsQuiet.keyword o.byWord (by decide)).append (.phrase o.keys)
  exact ((IsQuiet.keyword o.order (by decide)).append hkeys).append hpaging

namespace JsonSelect

variable {s : JsonSelect}

theorem isQuiet_clauses (h : s.hasStatementWord = false) : IsQuiet s.clauses := by
  simp only [hasStatementWord, Bool.or_eq_false_iff] at h
  obtain ⟨⟨hjoins, hrollup⟩, hfetch⟩ := h
  have hsource : IsQuiet (s.source.elim [] FromClause.tokens) := .elim fun c hc =>
    FromClause.isQuiet_tokens (by simpa [hc] using hjoins)
  have hfilter : IsQuiet (s.filter.elim [] Condition.tokens) := .elim fun c _ =>
    c.isQuiet_tokens (by decide)
  have hgrouping : IsQuiet (s.grouping.elim [] GroupBy.tokens) := .elim fun g hg =>
    GroupBy.isQuiet_tokens (by simpa [hg] using hrollup)
  have hhaving : IsQuiet (s.having.elim [] Condition.tokens) := .elim fun c _ =>
    c.isQuiet_tokens (by decide)
  have hordering : IsQuiet (s.ordering.elim [] OrderBy.tokens) := .elim fun o ho =>
    OrderBy.isQuiet_tokens (by simpa [ho] using hfetch)
  exact (((hsource.append hfilter).append hgrouping).append hhaving).append hordering

theorem isQuiet_forJson (s : JsonSelect) : IsQuiet s.forJson :=
  (IsQuiet.keyword s.forWord (by decide)).append
    ((IsQuiet.keyword s.json (by decide)).append (.phrase s.options))

end JsonSelect

end SqlSnapshot
