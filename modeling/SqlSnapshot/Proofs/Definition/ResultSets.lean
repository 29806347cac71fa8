import Mathlib.Logic.Relation
import SqlSnapshot.Definition.Analysis
import SqlSnapshot.Proofs.Definition.Body
import SqlSnapshot.Proofs.Definition.Columns
import SqlSnapshot.Proofs.Outcome

/-!
# Where result sets come from

The reader of bodies goes step by step from one list of tokens to a shorter one, and carries the
names of the common table expressions that hold there.  A result set of a body comes from a
statement that these steps lead to: it is that of a select, or passed on from an executed procedure.
-/

namespace SqlSnapshot

/-- The procedure whose result set is passed on. -/
def ResultSet.target? (s : ResultSet) : Option Descriptor := do
  return ⟨← s.execSchema, ← s.execProcedure⟩

namespace Body

open Token

/-- The names of common table expressions that hold, and the tokens that are left. -/
abbrev State := List String × List Token

/-- One step of the reader, with what it finds there. -/
inductive Step : State → Findings → State → Prop where
  | group
      {ctes : List String} {ts after : List Token} (h : skipGroup? (.lparen :: ts) = some after) :
      Step (ctes, .lparen :: ts) {} (ctes, after)
  | ctes {ctes : List String} {t : Token} {ts : List Token} (ht : t ≠ .lparen)
      (h : startsCtes t ts = true) : Step (ctes, t :: ts) {} (readCtes ts)
  | other {ctes : List String} {t : Token} {ts : List Token} (ht : t ≠ .lparen)
      (hctes : ¬ startsCtes t ts = true) (h : readStatement? ctes t ts = none) :
      Step (ctes, t :: ts) {} (ctes, ts)
  | statement {ctes : List String} {t : Token} {ts after : List Token} {own : Findings}
      (ht : t ≠ .lparen) (hctes : ¬ startsCtes t ts = true)
      (h : readStatement? ctes t ts = some (.ok own, after)) : Step (ctes, t :: ts) own ([], after)

/-- The steps of the reader lead from one state to the other. -/
def Reaches : State → State → Prop :=
  Relation.ReflTransGen fun state next => ∃ own, Step state own next

variable {state next : State} {own : Findings} {ctes : List String} {t : Token}
  {ts after : List Token}

theorem Step.length_lt (h : Step state own next) : next.2.length < state.2.length := by
  cases h with
  | group h => exact length_skipGroup? h
  | ctes _ _ => exact Nat.lt_succ_of_le (length_readCtes _)
  | other _ _ _ => exact Nat.lt_succ_self _
  | statement _ _ h => exact Nat.lt_succ_of_le (length_readStatement? h)

theorem Step.unique
    {own' : Findings} {next' : State} (h : Step state own next) (h' : Step state own' next') :
    own = own' ∧ next = next' := by
  cases h with
  | group h =>
    cases h' with
    | group h' =>
      rw [h] at h'
      cases h'
      exact ⟨rfl, rfl⟩
    | ctes ht _ => exact absurd rfl ht
    | other ht _ _ => exact absurd rfl ht
    | statement ht _ _ => exact absurd rfl ht
  | ctes ht h =>
    cases h' with
    | group _ => exact absurd rfl ht
    | ctes _ _ => exact ⟨rfl, rfl⟩
    | other _ hctes _ => exact absurd h hctes
    | statement _ hctes _ => exact absurd h hctes
  | other ht hctes h =>
    cases h' with
    | group _ => exact absurd rfl ht
    | ctes _ h' => exact absurd h' hctes
    | other _ _ _ => exact ⟨rfl, rfl⟩
    | statement _ _ h' =>
      rw [h] at h'
      cases h'
  | statement ht hctes h =>
    cases h' with
    | group _ => exact absurd rfl ht
    | ctes _ h' => exact absurd h' hctes
    | other _ _ h' =>
      rw [h] at h'
      cases h'
    | statement _ _ h' =>
      rw [h] at h'
      cases h'
      exact ⟨rfl, rfl⟩

theorem Reaches.length_le (h : Reaches state next) : next.2.length ≤ state.2.length := by
  induction h with
  | refl => exact Nat.le_refl _
  | tail _ hstep ih =>
    obtain ⟨own, hstep⟩ := hstep
    exact Nat.le_trans (Nat.le_of_lt hstep.length_lt) ih

/-- The reader comes to what is left of the tokens in one way only. -/
theorem Reaches.unique
    {next' : State} (h : Reaches state next) (h' : Reaches state next')
    (hlength : next.2.length = next'.2.length) :
    next = next' := by
  induction h using Relation.ReflTransGen.head_induction_on with
  | refl =>
    rcases Relation.ReflTransGen.cases_head h' with rfl | ⟨later, ⟨own, hstep⟩, hrest⟩
    · rfl
    · have hlt := hstep.length_lt
      have hle := length_le hrest
      omega
  | head hstep hrest ih =>
    obtain ⟨own, hstep⟩ := hstep
    rcases Relation.ReflTransGen.cases_head h' with rfl | ⟨later, ⟨own', hstep'⟩, hrest'⟩
    · have hlt := hstep.length_lt
      have hle := length_le hrest
      omega
    · obtain ⟨-, rfl⟩ := hstep.unique hstep'
      exact ih hrest'

/-- The findings of a body are those of steps that the reader comes to, in order. -/
theorem read_eq_ok
    {found : Findings} (h : read ctes ts = .ok found) :
    ∃ steps : List Findings, found = steps.foldr Findings.append {} ∧
      ∀ own ∈ steps, ∃ state next, Reaches (ctes, ts) state ∧ Step state own next := by
  have hcons : ∀ {state next : State} {own others : Findings}, Step state own next →
      (∃ steps : List Findings, others = steps.foldr Findings.append {} ∧
        ∀ own ∈ steps, ∃ later last, Reaches next later ∧ Step later own last) →
      ∃ steps : List Findings, own.append others = steps.foldr Findings.append {} ∧
        ∀ own ∈ steps, ∃ later last, Reaches state later ∧ Step later own last := by
    rintro state next own _ hstep ⟨steps, rfl, hsteps⟩
    refine ⟨own :: steps, rfl, ?_⟩
    intro own' hown'
    rcases List.mem_cons.mp hown' with rfl | hown'
    · exact ⟨state, next, .refl, hstep⟩
    · obtain ⟨later, last, hreaches, hlast⟩ := hsteps own' hown'
      exact ⟨later, last, .head ⟨own, hstep⟩ hreaches, hlast⟩
  induction ctes, ts using read.induct generalizing found with
  | case1 ctes =>
    rw [read_nil] at h
    cases h
    exact ⟨[], rfl, by simp⟩
  | case2 ctes ts after hgroup _ ih =>
    rw [read_group hgroup] at h
    simpa using hcons (.group hgroup) (ih h)
  | case3 ctes ts hgroup =>
    rw [read_unclosed hgroup] at h
    cases h
    exact ⟨[], rfl, by simp⟩
  | case4 ctes t ts ht hctes _ ih =>
    rw [read_ctes ht hctes] at h
    simpa using hcons (.ctes ht hctes) (ih h)
  | case5 ctes t ts ht hctes hnone ih =>
    rw [read_other ht hctes hnone] at h
    simpa using hcons (.other ht hctes hnone) (ih h)
  | case6 ctes t ts ht hctes after e hstatement =>
    rw [read_statement ht hctes hstatement] at h
    cases h
  | case7 ctes t ts ht hctes after own hstatement _ _ ih =>
    rw [read_statement ht hctes hstatement] at h
    obtain ⟨own', others, hown, hothers, rfl⟩ := followedBy_eq_ok h
    cases hown
    exact hcons (.statement ht hctes hstatement) (ih hothers)

/-! ## What statements find -/

theorem readExec_cases
    (ts : List Token) :
    ((readExec ts).resultSets = [] ∧ (readExec ts).executed = []) ∨
      ∃ target, (readExec ts).resultSets = [.forwarded target] ∧
        (readExec ts).executed = [target] := by
  unfold readExec
  split
  · exact .inl ⟨rfl, rfl⟩
  · dsimp only
    split
    · exact .inl ⟨rfl, rfl⟩
    · split
      · exact .inl ⟨rfl, rfl⟩
      · split
        · exact .inl ⟨rfl, rfl⟩
        · exact .inr ⟨_, rfl, rfl⟩
  · exact .inl ⟨rfl, rfl⟩

theorem readSelect_eq_ok
    (h : readSelect ctes ts = .ok own) :
    own.executed = [] ∧
      (own.resultSets = [] ∨ own.resultSets = [resultSet (Select.read ctes [] ts)]) := by
  obtain ⟨u, -, h⟩ := exists_of_bind_eq_ok h
  cases h
  dsimp only
  split
  · exact ⟨rfl, .inl rfl⟩
  · exact ⟨rfl, .inr rfl⟩

/-- A step finds the result set of a select, one that is passed on, or none. -/
theorem Step.findings_cases
    (h : Step state own next) :
    (own.resultSets = [] ∧ own.executed = []) ∨
    (∃ target, own.resultSets = [.forwarded target] ∧ own.executed = [target]) ∨
    ∃ t ts, state.2 = t :: ts ∧ t.isKw "SELECT" = true ∧ own.executed = [] ∧
      own.resultSets = [resultSet (Select.read state.1 [] (t :: (cutStatement t 0 0 ts).1))] := by
  cases h with
  | group _ => exact .inl ⟨rfl, rfl⟩
  | ctes _ _ => exact .inl ⟨rfl, rfl⟩
  | other _ _ _ => exact .inl ⟨rfl, rfl⟩
  | @statement ctes t ts after own ht hctes h =>
    obtain ⟨hselect, hread, -⟩ | ⟨hnone, -⟩ | ⟨-, hexec, -⟩ := readStatement?_cases h
    · obtain ⟨hexecuted, hsets | hsets⟩ := readSelect_eq_ok hread.symm
      · exact .inl ⟨hsets, hexecuted⟩
      · exact .inr (.inr ⟨t, ts, rfl, hselect, hexecuted, hsets⟩)
    · cases hnone
      exact .inl ⟨rfl, rfl⟩
    · cases hexec
      rcases readExec_cases (cutStatement t 0 0 ts).1 with hnone | hone
      · exact .inl hnone
      · exact .inr (.inl hone)

/-- A body executes the procedures whose result sets it passes on. -/
theorem executed_read
    {found : Findings} (h : read ctes ts = .ok found) :
    found.executed = found.resultSets.filterMap ResultSet.target? := by
  obtain ⟨steps, rfl, hsteps⟩ := read_eq_ok h
  have hown : ∀ own ∈ steps, own.executed = own.resultSets.filterMap ResultSet.target? := by
    intro own hown
    obtain ⟨state, next, -, hstep⟩ := hsteps own hown
    rcases hstep.findings_cases with ⟨hsets, hexecuted⟩ | ⟨target, hsets, hexecuted⟩ |
      ⟨t, rest, -, -, hexecuted, hsets⟩
    · rw [hsets, hexecuted, List.filterMap_nil]
    · rw [hsets, hexecuted]
      rfl
    · rw [hsets, hexecuted]
      rfl
  clear h hsteps
  induction steps with
  | nil => rfl
  | cons own steps ih =>
    rw [List.forall_mem_cons] at hown
    rw [List.foldr_cons, Findings.append, List.filterMap_append, hown.1, ih hown.2]

/-- A result set of a body is passed on, or that of a select that the reader comes to. -/
theorem mem_resultSets_read
    {found : Findings} (h : read ctes ts = .ok found) {set : ResultSet}
    (hset : set ∈ found.resultSets) :
    (∃ target, set = .forwarded target) ∨
    ∃ names t rest, Reaches (ctes, ts) (names, t :: rest) ∧ t.isKw "SELECT" = true ∧
      set = resultSet (Select.read names [] (t :: (cutStatement t 0 0 rest).1)) := by
  obtain ⟨steps, rfl, hsteps⟩ := read_eq_ok h
  obtain ⟨own, hown, hset⟩ : ∃ own ∈ steps, set ∈ own.resultSets := by
    clear h hsteps
    induction steps with
    | nil => cases hset
    | cons own steps ih =>
      rcases List.mem_append.mp hset with hset | hset
      · exact ⟨own, List.mem_cons_self, hset⟩
      · obtain ⟨own', hown', hset⟩ := ih hset
        exact ⟨own', List.mem_cons_of_mem own hown', hset⟩
  obtain ⟨⟨names, left⟩, next, hreaches, hstep⟩ := hsteps own hown
  rcases hstep.findings_cases with ⟨hnone, -⟩ | ⟨target, hone, -⟩ | ⟨t, rest, rfl, ht, -, hone⟩
  · rw [hnone] at hset
    cases hset
  · rw [hone] at hset
    exact .inl ⟨target, List.mem_singleton.mp hset⟩
  · rw [hone] at hset
    exact .inr ⟨names, t, rest, hreaches, ht, List.mem_singleton.mp hset⟩

end Body

namespace Analysis

/-- What is read of a definition is what is found in its body, where each procedure is executed
once. -/
structure ReadsBody (content : Content) (issues : List Issue) (found : Findings) : Prop where
  resultSets : content.resultSets = found.resultSets
  executed : content.executed = Descriptor.distinct found.executed
  isParsed : content.usedFallback = false
  issues : issues = found.issues

theorem readStructure_eq_ok
    {definition : String} {content : Content} {parameters : List Parameter} {issues : List Issue}
    (h : readStructure definition = .ok (content, parameters, issues)) :
    ∃ ts found, Body.read [] ts = .ok found ∧ ReadsBody content issues found := by
  obtain ⟨tokens, -, h⟩ := exists_of_bind_eq_ok h
  dsimp only at h
  split at h
  · cases h
  obtain ⟨header, -, h⟩ := exists_of_bind_eq_ok h
  obtain ⟨found, hfound, h⟩ := exists_of_bind_eq_ok h
  cases h
  exact ⟨header.body, found, hfound, rfl, rfl, rfl, rfl⟩

end Analysis

end SqlSnapshot
