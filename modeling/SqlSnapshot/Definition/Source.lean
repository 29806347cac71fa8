import SqlSnapshot.Descriptor
import SqlSnapshot.Token.Name

/-!
# Table sources

The sources of a `FROM` clause with their aliases, and the lookup of the source that a column
reference belongs to.  A source is nullable when an outer join may leave its rows out.
-/

namespace SqlSnapshot

/-- `target` is the base table as schema and table; sub-selects, functions, common table
expressions, variables and temporary tables have none. -/
structure Source where
  aliasName : Option String := none
  name : String := ""
  target : Option (String × String) := none
  nullable : Bool := false
deriving DecidableEq, Repr, Inhabited

namespace Source

/-- The alias hides the name. -/
def answersTo (s : Source) (qualifier : String) : Bool :=
  Text.sameAscii (s.aliasName.getD s.name) qualifier

def isTable (s : Source) (schema table : String) : Bool :=
  match s.target with
  | some (ownSchema, ownTable) =>
    Text.sameAscii ownSchema schema && Text.sameAscii ownTable table
  | none => false

def asNullable (s : Source) : Source :=
  { s with nullable := true }

def startsWithChar (c : Char) (s : String) : Bool :=
  s.toList.head? == some c

/-- A name in a `FROM` clause; `ctes` are the names of the common table expressions. -/
def ofName (ctes parts : List String) : Source :=
  let name := parts.getLast?.getD ""
  let isLocal := startsWithChar '@' name || startsWithChar '#' name ||
    (parts.length == 1 && ctes.any (Text.sameAscii · name))
  if isLocal then { name }
  else { name, target := some (parts.dropLast.getLast?.getD defaultSchema, name) }

end Source

/-- The sources of a select, innermost first, and of the selects around it. -/
abbrev Scope := List (List Source)

namespace Scope

/-- The source of a column, given the name parts before the column.  A column without them belongs
to the only source of its select. -/
def resolve? (qualifier : List String) : Scope → Option Source
  | [] => none
  | sources :: outer =>
    match qualifier.reverse with
    | [] =>
      match sources with
      | [only] => some only
      | [] => resolve? qualifier outer
      | _ => none
    | [name] => (sources.find? (·.answersTo name)).or (resolve? qualifier outer)
    | table :: schema :: _ => (sources.find? (·.isTable schema table)).or (resolve? qualifier outer)

end Scope

namespace Source

open Token

inductive JoinKind where
  | inner
  | left
  | right
  | full
deriving DecidableEq, Repr, Inhabited

def joinWords : List String :=
  ["JOIN", "INNER", "LEFT", "RIGHT", "FULL", "CROSS", "OUTER", "APPLY", "HASH", "LOOP", "MERGE"]

/-- Words that end a source and so are no alias of it. -/
def nonAliasWords : List String :=
  ["WHERE", "JOIN", "INNER", "LEFT", "RIGHT", "FULL", "CROSS", "OUTER", "ON", "WITH", "GROUP",
   "ORDER", "FOR", "OPTION", "UNION", "EXCEPT", "INTERSECT", "HAVING", "PIVOT", "UNPIVOT",
   "APPLY", "TABLESAMPLE", "INTO"]

/-- The words of a join up to `JOIN` or `APPLY`.  `OUTER` alone, as in `OUTER APPLY`, is a left
join. -/
def readJoin (kind : JoinKind) : List Token → JoinKind × List Token
  | [] => (kind, [])
  | t :: ts =>
    if t.isKw "LEFT" then readJoin .left ts
    else if t.isKw "RIGHT" then readJoin .right ts
    else if t.isKw "FULL" then readJoin .full ts
    else if t.isKw "OUTER" then readJoin (if kind = .inner then .left else kind) ts
    else if t.isAnyKw ["JOIN", "APPLY"] then (kind, ts)
    else if t.isAnyKw ["INNER", "CROSS", "HASH", "LOOP", "MERGE"] then readJoin kind ts
    else (kind, t :: ts)

/-- Skips a join condition up to a comma or the next join. -/
def skipCondition (depth : Nat) : List Token → List Token
  | [] => []
  | t :: ts =>
    if depth = 0 ∧ (t = .comma ∨ t.isAnyKw joinWords = true) then t :: ts
    else skipCondition (depthAfter depth t) ts

theorem length_readJoin (kind : JoinKind) (ts : List Token) :
    (readJoin kind ts).2.length ≤ ts.length := by
  fun_induction readJoin kind ts <;> simp_all <;> omega

theorem length_skipCondition (depth : Nat) (ts : List Token) :
    (skipCondition depth ts).length ≤ ts.length := by
  fun_induction skipCondition depth ts with
  | case1 => exact Nat.le_refl _
  | case2 => exact Nat.le_refl _
  | case3 _ _ _ _ ih => exact Nat.le_succ_of_le ih

/-- Join words are consumed by the join that they introduce. -/
theorem length_readJoin_cons {t : Token} {ts : List Token} (h : t.isAnyKw joinWords = true) :
    (readJoin .inner (t :: ts)).2.length ≤ ts.length := by
  have key : ∀ k, (readJoin k ts).2.length ≤ ts.length := fun k => length_readJoin k ts
  unfold readJoin
  repeat' split
  all_goals first
    | exact key _
    | exact Nat.le_refl _
    | skip
  rename_i h1 h2 h3 h4 h5 h6
  cases t with
  | word text quoted =>
    cases quoted with
    | true => simp [isAnyKw] at h
    | false =>
      simp only [isKw, isAnyKw, joinWords, List.contains_eq_mem, decide_eq_true_eq,
        List.mem_cons, List.not_mem_nil, or_false] at h h1 h2 h3 h4 h5 h6
      simp_all
  | _ => simp [isAnyKw] at h

/-- What stands for one source in a `FROM` clause. -/
inductive Shape where
  | subSelect
  | joinTree (inner : List Token)
  | call (name : String)
  | table (parts : List String)
deriving Repr, Inhabited

/-- Skips `WITH` and a parenthesized group: table hints, or the columns of a function. -/
def skipHints? (ts : List Token) : Option (List Token) :=
  if startsWithKw "WITH" ts && startsWithParen (ts.drop 1) then skipGroup? (ts.drop 1) else some ts

/-- A source without its alias, and the tokens after it. -/
def readShape? : List Token → Option (Shape × List Token)
  | .lparen :: ts => do
    let (inner, rest) ← closeParen? 0 ts
    if startsWithAnyKw ["SELECT", "WITH"] inner then some (.subSelect, rest)
    else some (.joinTree inner, rest)
  | ts => do
    let (parts, rest) ← readName? ts
    if startsWithParen rest then do
      let rest ← skipGroup? rest
      let rest ← skipHints? rest
      some (.call (parts.getLast?.getD ""), rest)
    else some (.table parts, rest)

def aliasWord? : Token → Option String
  | .word text true => some text
  | .word text false =>
    if Token.isAnyKw (.word text false) nonAliasWords || startsWithChar '@' text then none
    else some text
  | _ => none

/-- The alias after a source, with its column list, if there is one. -/
def readAlias? (ts : List Token) : Option (Option String × List Token) :=
  let ts := if startsWithKw "AS" ts then ts.drop 1 else ts
  match ts with
  | [] => some (none, [])
  | t :: rest =>
    match aliasWord? t with
    | none => some (none, t :: rest)
    | some text =>
      if startsWithParen rest then (skipGroup? rest).map (some text, ·)
      else some (some text, rest)

def readSource? (ts : List Token) : Option (Shape × Option String × List Token) := do
  let (shape, rest) ← readShape? ts
  let (aliasName, rest) ← readAlias? rest
  let rest ← skipHints? rest
  return (shape, aliasName, rest)

/-! ## What the readers of a source leave over -/

theorem isSuffix_skipHints? {ts rest : List Token} (h : skipHints? ts = some rest) :
    rest <:+ ts := by
  unfold skipHints? at h
  split at h
  · exact (isSuffix_skipGroup? h).trans (List.drop_suffix 1 ts)
  · cases h
    exact List.suffix_refl ts

theorem length_skipHints? {ts rest : List Token} (h : skipHints? ts = some rest) :
    rest.length ≤ ts.length :=
  (isSuffix_skipHints? h).length_le

/-- The source whose parenthesis holds `inner`. -/
def groupShape (inner : List Token) : Shape :=
  if startsWithAnyKw ["SELECT", "WITH"] inner then .subSelect else .joinTree inner

theorem readShape?_group (ts : List Token) :
    readShape? (.lparen :: ts) =
      (closeParen? 0 ts).map fun parts => (groupShape parts.1, parts.2) := by
  rw [readShape?, Option.map_eq_bind]
  congr 1
  funext ⟨inner, rest⟩
  dsimp only [groupShape, Function.comp_apply]
  split <;> rfl

/-- The source that a name starts, with the tokens after it. -/
def finishShape? (name : List String × List Token) : Option (Shape × List Token) :=
  if startsWithParen name.2 then
    (skipGroup? name.2).bind fun rest =>
      (skipHints? rest).map fun rest => (.call (name.1.getLast?.getD ""), rest)
  else some (.table name.1, name.2)

theorem readShape?_name {t : Token} {ts : List Token} (ht : t ≠ .lparen) :
    readShape? (t :: ts) = (readName? (t :: ts)).bind finishShape? := by
  have hfinish : ∀ name : List String × List Token,
      (if startsWithParen name.2 then do
        let rest ← skipGroup? name.2
        let rest ← skipHints? rest
        some (.call (name.1.getLast?.getD ""), rest)
      else some (.table name.1, name.2)) = finishShape? name := by
    intro name
    simp only [finishShape?, Option.map_eq_bind]
    rfl
  rw [readShape?]
  · exact congrArg _ (funext hfinish)
  · exact fun _ h => ht (List.cons.inj h).1

theorem isSuffix_finishShape? {name : List String × List Token} {rest : List Token} {shape : Shape}
    (h : finishShape? name = some (shape, rest)) : rest <:+ name.2 := by
  unfold finishShape? at h
  split at h
  · obtain ⟨behind, hgroup, h⟩ := Option.bind_eq_some_iff.mp h
    obtain ⟨behind', hhints, heq⟩ := Option.map_eq_some_iff.mp h
    cases heq
    exact (isSuffix_skipHints? hhints).trans (isSuffix_skipGroup? hgroup)
  · cases h
    exact List.suffix_refl _

theorem ne_joinTree_of_finishShape? {name : List String × List Token} {rest : List Token}
    {shape : Shape} (h : finishShape? name = some (shape, rest)) (inner : List Token) :
    shape ≠ .joinTree inner := by
  rintro rfl
  unfold finishShape? at h
  split at h
  · obtain ⟨behind, hgroup, h⟩ := Option.bind_eq_some_iff.mp h
    obtain ⟨behind', hhints, heq⟩ := Option.map_eq_some_iff.mp h
    cases heq
  · cases h

theorem eq_of_groupShape {inner tree : List Token} (h : groupShape inner = .joinTree tree) :
    tree = inner := by
  unfold groupShape at h
  split at h
  · cases h
  · exact (Shape.joinTree.inj h).symm

theorem length_readShape? {ts rest : List Token} {shape : Shape}
    (h : readShape? ts = some (shape, rest)) :
    rest.length < ts.length ∧ ∀ inner, shape = .joinTree inner → inner.length < ts.length := by
  match ts with
  | [] => cases h
  | t :: ts =>
    by_cases ht : t = .lparen
    · subst ht
      rw [readShape?_group] at h
      obtain ⟨⟨inner, after⟩, hclose, heq⟩ := Option.map_eq_some_iff.mp h
      obtain ⟨rfl, rfl⟩ := Prod.mk.inj heq
      have hlength := length_closeParen? hclose
      simp only [List.length_cons]
      refine ⟨by omega, fun tree htree => ?_⟩
      rw [eq_of_groupShape htree]
      omega
    · rw [readShape?_name ht] at h
      obtain ⟨name, hname, h⟩ := Option.bind_eq_some_iff.mp h
      have hrest := (isSuffix_finishShape? h).length_le
      exact ⟨Nat.lt_of_le_of_lt hrest (length_readName? hname),
        fun inner htree => absurd htree (ne_joinTree_of_finishShape? h inner)⟩

/-- The alias at the front of a list, where `AS` is skipped already. -/
def finishAlias? : List Token → Option (Option String × List Token)
  | [] => some (none, [])
  | t :: ts =>
    match aliasWord? t with
    | none => some (none, t :: ts)
    | some text =>
      if startsWithParen ts then (skipGroup? ts).map (some text, ·) else some (some text, ts)

theorem readAlias?_eq (ts : List Token) :
    readAlias? ts = finishAlias? (if startsWithKw "AS" ts then ts.drop 1 else ts) := by
  rw [readAlias?]
  generalize (if startsWithKw "AS" ts = true then ts.drop 1 else ts) = us
  cases us with
  | nil => rfl
  | cons t us => rfl

theorem isSuffix_finishAlias? {ts rest : List Token} {aliasName : Option String}
    (h : finishAlias? ts = some (aliasName, rest)) : rest <:+ ts := by
  unfold finishAlias? at h
  split at h
  · cases h
    exact List.suffix_refl []
  · split at h
    · cases h
      exact List.suffix_refl _
    · split at h
      · obtain ⟨behind, hgroup, heq⟩ := Option.map_eq_some_iff.mp h
        cases heq
        exact (isSuffix_skipGroup? hgroup).trans (List.suffix_cons _ _)
      · cases h
        exact List.suffix_cons _ _

theorem isSuffix_dropAs (ts : List Token) :
    (if startsWithKw "AS" ts then ts.drop 1 else ts) <:+ ts := by
  split
  · exact List.drop_suffix 1 ts
  · exact List.suffix_refl ts

theorem isSuffix_readAlias? {ts rest : List Token} {aliasName : Option String}
    (h : readAlias? ts = some (aliasName, rest)) : rest <:+ ts := by
  rw [readAlias?_eq] at h
  exact (isSuffix_finishAlias? h).trans (isSuffix_dropAs ts)

theorem length_readAlias? {ts rest : List Token} {aliasName : Option String}
    (h : readAlias? ts = some (aliasName, rest)) : rest.length ≤ ts.length :=
  (isSuffix_readAlias? h).length_le

theorem length_readSource? {ts rest : List Token} {shape : Shape} {aliasName : Option String}
    (h : readSource? ts = some (shape, aliasName, rest)) :
    rest.length < ts.length ∧ ∀ inner, shape = .joinTree inner → inner.length < ts.length := by
  simp only [readSource?, Option.bind_eq_bind, Option.bind_eq_some_iff, Option.pure_def,
    Option.some.injEq, Prod.mk.injEq] at h
  obtain ⟨⟨s, r1⟩, h1, ⟨a, r2⟩, h2, r3, h3, rfl, rfl, rfl⟩ := h
  have l1 := length_readShape? h1
  have l2 := length_readAlias? h2
  have l3 := length_skipHints? h3
  dsimp only at l2 l3
  exact ⟨by omega, l1.2⟩

/-! ## Clauses -/

def withAlias (aliasName : Option String) : List Source → List Source
  | [s] => [match aliasName with | some _ => { s with aliasName } | none => s]
  | sources => sources

def join (kind : JoinKind) (seen sources : List Source) : List Source :=
  match kind with
  | .inner => seen ++ sources
  | .left => seen ++ sources.map asNullable
  | .right => seen.map asNullable ++ sources
  | .full => seen.map asNullable ++ sources.map asNullable

/-- The sources of the rest of a `FROM` clause, after those in `seen` and the words of a join. -/
def collect (ctes : List String) (kind : JoinKind) (seen : List Source) (ts : List Token) :
    List Source :=
  match ts with
  | [] => seen
  | t :: rest =>
    if t = .comma then collect ctes .inner seen rest
    else if hj : t.isAnyKw joinWords = true then
      have := @length_readJoin_cons t rest hj
      collect ctes (readJoin .inner (t :: rest)).1 seen (readJoin .inner (t :: rest)).2
    else if t.isKw "ON" then
      have := length_skipCondition 0 rest
      collect ctes kind seen (skipCondition 0 rest)
    else
      match h : readSource? (t :: rest) with
      | none => collect ctes kind seen rest
      | some (shape, aliasName, rest') =>
        have hl := length_readSource? h
        have := hl.1
        let sources :=
          match shape with
          | .subSelect => [{}]
          | .joinTree inner =>
            have := hl.2 inner rfl
            collect ctes .inner [] inner
          | .call name => [{ name }]
          | .table parts => [ofName ctes parts]
        collect ctes .inner (join kind seen (withAlias aliasName sources)) rest'
termination_by ts.length
decreasing_by
  all_goals simp only [List.length_cons] at *
  all_goals omega

/-- The sources of a `FROM` clause, whose tokens stand after `FROM`. -/
def ofClause (ctes : List String) (ts : List Token) : List Source :=
  collect ctes .inner [] ts

end Source

end SqlSnapshot
