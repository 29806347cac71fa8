import SqlSnapshot.Proofs.Definition.StatementEnds

/-!
# Selects that assign variables

A select whose list assigns variables returns nothing.  Whether it does is told from the first item,
by the token behind its variable.  That token is `=` in a plain assignment; a compound assignment
has the sign of its operator there, and the select is taken for one that returns rows.
-/

namespace SqlSnapshot

open Token

/-! ## Grammar -/

/-- What stands before `=` in a compound assignment. -/
def Token.isAssignmentSign : Token → Bool
  | .star => true
  | .other text => ["+", "-", "/", "%", "&", "^", "|"].contains text
  | _ => false

/-- An item that assigns a variable; a compound assignment has a sign. -/
structure Assignment where
  name : Token
  sign : Option Token
  value : Phrase
  is_variable : name.isVariable = true
  is_sign : ∀ t ∈ sign, t.isAssignmentSign = true

structure AssignmentSelect where
  select : Keyword ["SELECT"]
  quantifier : Option (Keyword ["ALL", "DISTINCT"])
  top : Option Top
  first : Assignment
  others : List Assignment
  source : Option FromClause
  filter : Option (Condition "WHERE")
  ordering : Option OrderBy
  fetches_idle : ∀ o ∈ ordering, o.FetchesIdle

namespace Assignment

def tokens (a : Assignment) : List Token :=
  a.name :: (a.sign.toList ++ .equals :: a.value.1)

/-- The token behind the variable. -/
def mark (a : Assignment) : Token :=
  a.sign.getD .equals

end Assignment

namespace AssignmentSelect

def list (s : AssignmentSelect) : List Token :=
  s.first.tokens ++ s.others.flatMap fun a => .comma :: a.tokens

/-- What stands between `SELECT` and the select list. -/
def modifiers (s : AssignmentSelect) : List Token :=
  (s.quantifier.map (·.1)).toList ++ s.top.elim [] Top.tokens

def clauses (s : AssignmentSelect) : List Token :=
  s.source.elim [] FromClause.tokens ++
    (s.filter.elim [] Condition.tokens ++ s.ordering.elim [] OrderBy.tokens)

/-- What follows `SELECT`. -/
def tail (s : AssignmentSelect) : List Token :=
  s.modifiers ++ (s.list ++ s.clauses)

def tokens (s : AssignmentSelect) : List Token :=
  s.select.1 :: s.tail

def usesMerge (s : AssignmentSelect) : Bool :=
  s.source.any (·.joins.any Join.usesMerge)

end AssignmentSelect

/-! ## Items -/

theorem Token.isOperand_of_isVariable {t : Token} (h : t.isVariable = true) :
    t.isOperand = true := by
  have hplain : t.isPlain = true := by
    cases t <;> simp_all [isVariable, isPlain]
  rw [isOperand, hplain, isAnyKw_eq_false_of_isVariable h (by decide)]
  rfl

theorem Token.isOperand_of_isAssignmentSign {t : Token} (h : t.isAssignmentSign = true) :
    t.isOperand = true := by
  cases t <;> first | rfl | cases h

/-- The lexer has no operator for a compound assignment, so no sign ends with `=`. -/
theorem isVariableAssignment_sign {name sign : Token} (h : sign.isAssignmentSign = true)
    (ts : List Token) : Select.isVariableAssignment (name :: sign :: ts) = false := by
  cases sign with
  | star => rfl
  | other text =>
    have hends : ∀ text ∈ ["+", "-", "/", "%", "&", "^", "|"],
        Select.endsWithEquals text = false := by decide
    rw [Select.isVariableAssignment, hends text (List.contains_iff_mem.mp h), Bool.and_false]
  | _ => cases h

namespace Assignment

theorem isPhrase_tokens (a : Assignment) : IsPhrase false a.tokens := by
  have hsign : IsPhrase false a.sign.toList := by
    cases hs : a.sign with
    | none => exact .nil
    | some t => exact .operand (isOperand_of_isAssignmentSign (a.is_sign t hs))
  have hvalue : IsPhrase false (.equals :: a.value.1) := .append (.operand (by decide)) a.value.2
  exact .append (.operand (isOperand_of_isVariable a.is_variable)) (.append hsign hvalue)

theorem exists_tokens (a : Assignment) : ∃ behind, a.tokens = a.name :: a.mark :: behind := by
  rw [tokens, mark]
  cases a.sign with
  | none => exact ⟨_, rfl⟩
  | some t => exact ⟨_, rfl⟩

theorem isAnyKw_mark (a : Assignment) (keywords : List String) :
    a.mark.isAnyKw keywords = false := by
  rw [mark]
  cases hs : a.sign with
  | none => rfl
  | some t =>
    have hsign := a.is_sign t hs
    rw [Option.getD_some]
    cases t <;> first | rfl | cases hsign

/-- An assignment is told from the token behind its variable, which is `=` in a plain one. -/
theorem isVariableAssignment_mark (a : Assignment) (ts : List Token) :
    Select.isVariableAssignment (a.name :: a.mark :: ts) = a.sign.isNone := by
  rw [mark]
  cases hs : a.sign with
  | none => exact a.is_variable
  | some t => exact isVariableAssignment_sign (a.is_sign t hs) ts

end Assignment

namespace AssignmentSelect

variable {s : AssignmentSelect}

theorem isPhrase_list (s : AssignmentSelect) : IsPhrase false s.list := by
  have hothers : ∀ others : List Assignment,
      IsPhrase false (others.flatMap fun a => .comma :: a.tokens) := by
    intro others
    induction others with
    | nil => exact .nil
    | cons a others ih =>
      exact .append (.append (.operand (by decide)) a.isPhrase_tokens) ih
  exact .append s.first.isPhrase_tokens (hothers s.others)

theorem exists_list_append (s : AssignmentSelect) (more : List Token) :
    ∃ behind, s.list ++ more = s.first.name :: s.first.mark :: behind := by
  obtain ⟨behind, hfirst⟩ := s.first.exists_tokens
  rw [list, hfirst]
  exact ⟨_, rfl⟩

theorem isQuiet_start (s : AssignmentSelect) : IsQuiet (s.modifiers ++ s.list) :=
  (isQuiet_modifiers s.quantifier s.top).append (.phrase ⟨s.list, s.isPhrase_list⟩)

theorem endsIdle_clauses (s : AssignmentSelect) : Body.EndsIdle s.usesMerge s.clauses := by
  have hordering : ∀ usesMerge, Body.EndsIdle usesMerge (s.ordering.elim [] OrderBy.tokens) := by
    intro usesMerge
    cases ho : s.ordering with
    | none => exact Body.endsIdle_nil usesMerge
    | some o =>
      have hends := OrderBy.endsIdle_append (s.fetches_idle o ho)
        (Body.endsIdle_nil usesMerge) Body.isIdle_nil
      rwa [List.append_nil] at hends
  have hfilter : IsQuiet (s.filter.elim [] Condition.tokens) := .elim fun c _ =>
    c.isQuiet_tokens (by decide)
  have hlater := fun usesMerge => (hordering usesMerge).quiet_append hfilter
  rw [clauses, usesMerge]
  cases s.source with
  | none => exact hlater false
  | some c =>
    have hends := c.endsIdle_append (hlater false)
    rwa [Bool.or_false] at hends

/-- The scans find the first variable and the token behind it at the front of the select list. -/
theorem exists_listAndClauses (s : AssignmentSelect) (more : List Token) :
    ∃ others, (Select.listAndClauses (s.select.1 :: (s.modifiers ++ s.list ++ more))).1 =
      s.first.name :: s.first.mark :: others := by
  have hname : ∀ keywords : List String,
      (∀ keyword ∈ keywords, keyword.toList.head? ≠ some '@') →
      s.first.name.isAnyKw keywords = false :=
    fun _ => isAnyKw_eq_false_of_isVariable s.first.is_variable
  obtain ⟨behind, hlist⟩ := s.exists_list_append more
  obtain ⟨last, hskip⟩ : ∃ last,
      Select.skipModifiers s.select.1 (s.modifiers ++ s.list ++ more) = (last, s.list ++ more) := by
    rw [modifiers, List.append_assoc, List.append_assoc]
    apply Select.exists_skipModifiers
    rw [hlist]
    exact hname Select.listBounds (by decide)
  have hfirst : s.first.name.isAnyKw Select.listEnd = false := hname _ (by decide)
  have hmark : s.first.mark.isAnyKw Select.listEnd = false := s.first.isAnyKw_mark Select.listEnd
  rw [Select.listAndClauses, hskip, hlist]
  dsimp only
  rw [Select.cutList, if_neg (by simp [hfirst]), Select.cutList, if_neg (by simp [hmark])]
  exact ⟨_, rfl⟩

/-- The reader takes the select for an assignment just if the first one is plain. -/
theorem read_assignsVariables
    (s : AssignmentSelect) (ctes : List String) (scope : Scope) (more : List Token) :
    (Select.read ctes scope (s.select.1 :: (s.modifiers ++ s.list ++ more))).assignsVariables =
      s.first.sign.isNone := by
  obtain ⟨others, hlist⟩ := s.exists_listAndClauses more
  rw [Select.read_eq, Select.ofClauses, hlist, Select.assigns_splitCommas,
    s.first.isVariableAssignment_mark]
  split
  · rename_i hplain
    exact hplain.symm
  · rename_i hcompound
    exact (eq_false_of_ne_true hcompound).symm

theorem readSelect_of_plain
    (hplain : s.first.sign = none) (ctes : List String) (more : List Token) :
    Body.readSelect ctes (s.select.1 :: (s.modifiers ++ s.list ++ more)) = .ok {} := by
  obtain ⟨others, hlist⟩ := s.exists_listAndClauses more
  have hcheck : Select.checkList (s.select.1 :: (s.modifiers ++ s.list ++ more)) = .ok () := by
    rw [Select.checkList, hlist]
    rfl
  have hassigns : Select.isVariableAssignment (s.first.name :: s.first.mark :: others) = true := by
    rw [s.first.isVariableAssignment_mark, hplain]
    rfl
  have hselect : Select.read ctes [] (s.select.1 :: (s.modifiers ++ s.list ++ more)) =
      { assignsVariables := true } := by
    rw [Select.read_eq, Select.ofClauses, hlist, Select.assigns_splitCommas, if_pos hassigns]
  rw [Body.readSelect, hcheck, hselect]
  rfl

/-- A select that assigns variables, the first one with `=`, adds nothing to what the body around it
returns: the reader goes on behind it, or, after a join hint `MERGE`, behind the next terminator. -/
theorem read_assignments
    (hplain : s.first.sign = none) {rest : List Token}
    (hrest : Body.StopsBehind (Body.lastOf s.select.1 s.tail) rest) (ctes : List String) :
    ∃ left, Body.IsLeft s.usesMerge rest left ∧
      Body.read ctes (s.tokens ++ rest) = Body.read [] left := by
  have hwhole : s.tail = s.modifiers ++ s.list ++ s.clauses := (List.append_assoc _ _ _).symm
  rw [hwhole, Body.lastOf_append] at hrest
  obtain ⟨left, hread, hleft⟩ := s.endsIdle_clauses.ends _ rest hrest
  have hcut := s.isQuiet_start.passes s.select.1 0 (s.clauses ++ rest) (by simp)
  refine ⟨left, hleft, ?_⟩
  rw [tokens, List.cons_append, hwhole, List.append_assoc, Body.read_cut s.select.2 hcut,
    readSelect_of_plain hplain, Body.empty_followedBy]
  exact hread

/-- `SELECT @x = o.Total FROM dbo.Orders o`, or the same with a sign before `=`. -/
def ofSign (sign : Option Token) (h : ∀ t ∈ sign, t.isAssignmentSign = true) :
    AssignmentSelect where
  select := selectWord
  quantifier := none
  top := none
  first := {
    name := .word "@x" false
    sign
    value := ⟨[.word "o" false, .period, .word "Total" false], isPhrase_of_operands (by decide)⟩
    is_variable := by decide
    is_sign := h }
  others := []
  source := some .orders
  filter := none
  ordering := none
  fetches_idle := OrderBy.fetchesIdle_none

theorem read_assignments_plain :
    let s := ofSign none (by simp)
    s.first.sign = none ∧ Body.StopsBehind (Body.lastOf s.select.1 s.tail) [.semicolon] ∧
    ∃ left, Body.IsLeft s.usesMerge [.semicolon] left ∧
      Body.read [] (s.tokens ++ [.semicolon]) = Body.read [] left :=
  ⟨rfl, Body.stopsBehind_semicolon _ [],
    read_assignments (s := ofSign none (by simp)) rfl (Body.stopsBehind_semicolon _ []) []⟩

/-- With `+=` in the place of `=` the select is read as one that returns its assignment. -/
theorem read_assignments_compound :
    ∃ found set,
      Body.read [] (ofSign (some (.other "+")) (by decide)).tokens = .ok found ∧
      found.resultSets = [set] := by
  let s := ofSign (some (.other "+")) (by decide)
  have hparts : Select.listAndClauses s.tokens = (s.list, s.clauses) := by
    rw [tokens, Select.listAndClauses, tail, modifiers]
    rw [Select.skipModifiers_of_not (by decide)]
    rfl
  have hassigns : Select.isVariableAssignment s.list = false := by decide
  have hread := Select.read_of_parts hparts hassigns [] []
  have hpasses : Body.Passes false s.tail :=
    Body.passes_of_isPhrase (isPhrase_of_operands (by decide))
  have hwhole : Body.readSelect [] s.tokens = _ :=
    Body.readSelect_of_columns (by rw [hparts]; decide) (by rw [hread]) (by rw [hread]; decide)
  exact ⟨_, _, (Body.read_select s.select.2 hpasses).trans hwhole, rfl⟩

end AssignmentSelect

end SqlSnapshot
