import SqlSnapshot.Proofs.Definition.JsonSelect
import SqlSnapshot.Proofs.Definition.Spelling.Source
import SqlSnapshot.Proofs.Token.Parts

/-!
# Single sources

The grammar of one source of a `FROM` clause: a table, a derived table or the call of a function,
with its alias and what else may follow.  The reader takes such a source as a whole where it stands
at the end of the clause or before `ON` or a join.

Two kinds of sources are left out of the grammar, since they are not read as one source: a name with
an empty part, as in `tempdb..Users`, and a derived table whose query is itself in parentheses or
starts with `VALUES`.
-/

namespace SqlSnapshot.Source

open Token

/-! ## Grammar -/

/-- Words that a name at the start of a source is not, unless it is quoted. -/
def reservedWords : List String :=
  ["SELECT", "WITH", "ON"] ++ joinWords

/-- Words at the start of a join. -/
def joinStarts : List String :=
  ["JOIN", "INNER", "CROSS", "LEFT", "RIGHT", "FULL", "OUTER"]

abbrev Balanced := { ts : List Token // isBalanced ts = true }

structure DottedName where
  first : String
  quoted : Bool
  others : List (String × Bool)
  unreserved : (Token.word first quoted).isAnyKw reservedWords = false

/-- An alias with its columns, if they are given. -/
structure Alias where
  asWord : Option (Keyword ["AS"])
  text : String
  quoted : Bool
  columns : Option Balanced
  isAlias : aliasWord? (.word text quoted) = some text
  notAs : asWord = none → (Token.word text quoted).isKw "AS" = false

/-- The hints of a table, or the columns of a function. -/
structure Hints where
  keyword : Keyword ["WITH"]
  group : Balanced

inductive Leaf where
  | table (name : DottedName) (aliasName : Option Alias) (hints : Option Hints)
  | derived (query : Balanced) (starts : startsWithAnyKw ["SELECT", "WITH"] query.1 = true)
      (aliasName : Option Alias)
  | call (name : DottedName) (arguments : Balanced) (columns : Option Hints)
      (aliasName : Option Alias)

/-! ## Tokens -/

def DottedName.parts (n : DottedName) : List String :=
  n.first :: n.others.map (·.1)

def DottedName.tokens (n : DottedName) : List Token :=
  .word n.first n.quoted :: n.others.flatMap fun part => [.period, .word part.1 part.2]

def Alias.tokens (a : Alias) : List Token :=
  (a.asWord.map (·.1)).toList ++ .word a.text a.quoted :: a.columns.elim [] (parens ·.1)

def Hints.tokens (h : Hints) : List Token :=
  h.keyword.1 :: parens h.group.1

def Leaf.tokens : Leaf → List Token
  | .table name aliasName hints =>
    name.tokens ++ (aliasName.elim [] Alias.tokens ++ hints.elim [] Hints.tokens)
  | .derived query _ aliasName => parens query.1 ++ aliasName.elim [] Alias.tokens
  | .call name arguments columns aliasName =>
    name.tokens ++ (parens arguments.1 ++
      (columns.elim [] Hints.tokens ++ aliasName.elim [] Alias.tokens))

/-- The source that a leaf stands for, where no join leaves its rows out. -/
def Leaf.source (ctes : List String) : Leaf → Source
  | .table name aliasName _ =>
    { ofName ctes name.parts with aliasName := aliasName.map (·.text) }
  | .derived _ _ aliasName => { aliasName := aliasName.map (·.text) }
  | .call name _ _ aliasName =>
    { name := name.parts.getLast?.getD "", aliasName := aliasName.map (·.text) }

/-! ## Ends of sources -/

variable {t : Token} {ts us rest : List Token} {keywords others : List String} {ctes : List String}

/-- Nothing follows, or one of the keywords does. -/
def Ends (keywords : List String) (ts : List Token) : Prop :=
  ∀ t us, ts = t :: us → t.isAnyKw keywords = true

/-- Nothing follows, or a word does. -/
def WordNext (ts : List Token) : Prop :=
  ∀ t us, ts = t :: us → t.isWord = true

theorem ends_nil : Ends keywords [] := by
  rintro t us ⟨⟩

theorem ends_cons (h : t.isAnyKw keywords = true) (ts : List Token) : Ends keywords (t :: ts) := by
  intro t' us heq
  obtain ⟨rfl, -⟩ := List.cons.inj heq
  exact h

theorem wordNext_cons (h : t.isWord = true) (ts : List Token) : WordNext (t :: ts) := by
  intro t' us heq
  obtain ⟨rfl, -⟩ := List.cons.inj heq
  exact h

theorem Ends.mono (h : Ends keywords ts) (hsubset : ∀ k ∈ keywords, k ∈ others) : Ends others ts :=
  fun t us heq => isAnyKw_of_subset (h t us heq) hsubset

theorem Ends.wordNext (h : Ends keywords ts) : WordNext ts :=
  fun t us heq => isWord_of_isAnyKw (h t us heq)

theorem isKw_eq_false
    {keyword : String} (h : t.isAnyKw keywords = true) (hother : keyword ∉ keywords) :
    t.isKw keyword = false :=
  isAnyKw_eq_false_of_disjoint h fun _ hk hmem => hother (List.mem_singleton.mp hmem ▸ hk)

theorem Ends.not_kw
    {keyword : String} (h : Ends keywords ts) (hother : keyword ∉ keywords) :
    startsWithKw keyword ts = false := by
  cases ts with
  | nil => rfl
  | cons t ts => exact isKw_eq_false (h t ts rfl) hother

theorem WordNext.not_paren (h : WordNext ts) : startsWithParen ts = false := by
  unfold startsWithParen
  split
  · cases h _ _ rfl
  · rfl

theorem WordNext.readNameTail (h : WordNext ts) : readNameTail ts = ([], ts) := by
  rw [Token.readNameTail]
  rintro text quoted us rfl
  cases h _ _ rfl

theorem ends_hints (hints : Option Hints) (h : Ends keywords ts) (hwith : "WITH" ∈ keywords) :
    Ends keywords (hints.elim [] Hints.tokens ++ ts) := by
  cases hints with
  | none => exact h
  | some hints =>
    exact ends_cons (isAnyKw_of_subset hints.keyword.2
      fun _ hk => List.mem_singleton.mp hk ▸ hwith) _

/-- The first token of an alias is `AS` or a word that the scanner takes for an alias. -/
theorem exists_alias_tokens (a : Alias) :
    ∃ t us, a.tokens = t :: us ∧ (t.isKw "AS" = true ∨ (aliasWord? t).isSome) := by
  obtain ⟨asWord, text, quoted, columns, isAlias, notAs⟩ := a
  cases asWord with
  | none => exact ⟨_, _, rfl, .inr (isAlias ▸ rfl)⟩
  | some first => exact ⟨_, _, rfl, .inl first.2⟩

theorem not_nonAlias_of_aliasWord? (h : (aliasWord? t).isSome) :
    t.isWord = true ∧ t.isAnyKw nonAliasWords = false := by
  cases t with
  | word text quoted =>
    refine ⟨rfl, ?_⟩
    cases quoted with
    | true => rfl
    | false =>
      simp only [aliasWord?] at h
      split at h
      · cases h
      · rename_i hnot
        rw [Bool.or_eq_true, not_or] at hnot
        exact Bool.eq_false_iff.mpr hnot.1
  | _ => cases h

theorem wordNext_alias (aliasName : Option Alias) (h : WordNext ts) :
    WordNext (aliasName.elim [] Alias.tokens ++ ts) := by
  cases aliasName with
  | none => exact h
  | some a =>
    obtain ⟨t, us, htokens, ht⟩ := exists_alias_tokens a
    rw [Option.elim_some, htokens]
    rcases ht with has | hword
    · exact wordNext_cons (isWord_of_isAnyKw has) _
    · exact wordNext_cons (not_nonAlias_of_aliasWord? hword).1 _

/-! ## Parts of a source -/

theorem readName?_tokens (n : DottedName) (h : readNameTail ts = ([], ts)) :
    readName? (n.tokens ++ ts) = some (n.parts, ts) := by
  rw [DottedName.tokens, List.cons_append, readName?, readNameTail_flatMap n.others h]
  rfl

theorem skipHints?_of_not_with (h : startsWithKw "WITH" ts = false) : skipHints? ts = some ts := by
  rw [skipHints?, h, Bool.false_and]
  rfl

theorem skipHints?_hints (hints : Option Hints) (h : startsWithKw "WITH" ts = false) :
    skipHints? (hints.elim [] Hints.tokens ++ ts) = some ts := by
  cases hints with
  | none => exact skipHints?_of_not_with h
  | some hints =>
    have hword : startsWithKw "WITH" (hints.tokens ++ ts) = true := hints.keyword.2
    have hgroup : (hints.tokens ++ ts).drop 1 = parens hints.group.1 ++ ts := rfl
    rw [Option.elim_some, skipHints?, hword, hgroup, skipGroup?_parens hints.group.2]
    rfl

theorem startsWithKw_with_alias (aliasName : Option Alias) (h : startsWithKw "WITH" ts = false) :
    startsWithKw "WITH" (aliasName.elim [] Alias.tokens ++ ts) = false := by
  cases aliasName with
  | none => exact h
  | some a =>
    obtain ⟨t, us, htokens, ht⟩ := exists_alias_tokens a
    rw [Option.elim_some, htokens]
    rcases ht with has | hword
    · exact isAnyKw_eq_false_of_disjoint has (by decide)
    · exact isAnyKw_eq_false_of_subset (not_nonAlias_of_aliasWord? hword).2 (by decide)

theorem readAlias?_none (h : Ends nonAliasWords ts) : readAlias? ts = some (none, ts) := by
  rw [readAlias?_eq, h.not_kw (by decide)]
  cases ts with
  | nil => rfl
  | cons t ts =>
    have hnone : aliasWord? t = none := by
      by_contra hsome
      have hnot := (not_nonAlias_of_aliasWord? (Option.isSome_iff_ne_none.mpr hsome)).2
      rw [h t ts rfl] at hnot
      cases hnot
    simp [finishAlias?, hnone]

theorem readAlias?_some (a : Alias) (h : WordNext ts) :
    readAlias? (a.tokens ++ ts) = some (some a.text, ts) := by
  obtain ⟨asWord, text, quoted, columns, isAlias, notAs⟩ := a
  have hname : finishAlias? (.word text quoted :: (columns.elim [] (parens ·.1) ++ ts)) =
      some (some text, ts) := by
    simp only [finishAlias?, isAlias]
    cases columns with
    | none => exact if_neg (Bool.eq_false_iff.mp h.not_paren)
    | some group =>
      rw [Option.elim_some, skipGroup?_parens group.2]
      exact if_pos rfl
  rw [readAlias?_eq]
  cases asWord with
  | none =>
    have hnotAs : startsWithKw "AS"
        (.word text quoted :: (columns.elim [] (parens ·.1) ++ ts)) = false := notAs rfl
    exact (congrArg finishAlias? (if_neg (Bool.eq_false_iff.mp hnotAs))).trans hname
  | some first =>
    have has : startsWithKw "AS"
        (first.1 :: .word text quoted :: (columns.elim [] (parens ·.1) ++ ts)) = true := first.2
    exact (congrArg finishAlias? (if_pos has)).trans hname

/-- An alias is read up to its end, and so is a missing one if the next word is none. -/
theorem readAlias?_alias (aliasName : Option Alias) (h : Ends nonAliasWords ts) :
    readAlias? (aliasName.elim [] Alias.tokens ++ ts) = some (aliasName.map (·.text), ts) := by
  cases aliasName with
  | none => exact readAlias?_none h
  | some a => exact readAlias?_some a h.wordNext

/-! ## Leaves -/

def Leaf.shape : Leaf → Shape
  | .table name _ _ => .table name.parts
  | .derived .. => .subSelect
  | .call name _ _ _ => .call (name.parts.getLast?.getD "")

def Leaf.aliasText : Leaf → Option String
  | .table _ aliasName _ => aliasName.map (·.text)
  | .derived _ _ aliasName => aliasName.map (·.text)
  | .call _ _ _ aliasName => aliasName.map (·.text)

/-- Words behind an operand: those of its condition, or of the next join. -/
def operandEnds : List String :=
  "ON" :: joinStarts

theorem readSource?_of_parts
    {shape : Shape} {aliasText : Option String} (hshape : readShape? ts = some (shape, us))
    {vs : List Token} (halias : readAlias? us = some (aliasText, vs))
    (hhints : skipHints? vs = some rest) :
    readSource? ts = some (shape, aliasText, rest) := by
  rw [readSource?, hshape]
  simp only [Option.bind_eq_bind, Option.bind_some, halias, hhints]
  rfl

theorem readShape?_of_name
    (n : DottedName) (hname : readName? (n.tokens ++ ts) = some (n.parts, ts)) :
    readShape? (n.tokens ++ ts) = finishShape? (n.parts, ts) := by
  have hword : readShape? (n.tokens ++ ts) = (readName? (n.tokens ++ ts)).bind finishShape? :=
    readShape?_name (t := .word n.first n.quoted) (by simp)
  rw [hword, hname, Option.bind_some]

theorem readSource?_leaf (l : Leaf) (h : Ends operandEnds rest) :
    readSource? (l.tokens ++ rest) = some (l.shape, l.aliasText, rest) := by
  have hrest : startsWithKw "WITH" rest = false := h.not_kw (by decide)
  cases l with
  | table name aliasName hints =>
    have hhints := ends_hints hints (h.mono (show _ ⊆ nonAliasWords by decide)) (by decide)
    have hword := wordNext_alias aliasName hhints.wordNext
    rw [Leaf.tokens, List.append_assoc, List.append_assoc]
    refine readSource?_of_parts ?_ (readAlias?_alias aliasName hhints)
      (skipHints?_hints hints hrest)
    rw [readShape?_of_name name (readName?_tokens name hword.readNameTail), finishShape?]
    exact if_neg (Bool.eq_false_iff.mp hword.not_paren)
  | derived query starts aliasName =>
    rw [Leaf.tokens, List.append_assoc]
    refine readSource?_of_parts ?_ (readAlias?_alias aliasName (h.mono (by decide)))
      (skipHints?_of_not_with hrest)
    have hclose := closeParen?_of_balancedFrom query.2 (aliasName.elim [] Alias.tokens ++ rest)
    rw [parens, List.append_assoc, List.cons_append, List.singleton_append, readShape?_group,
      hclose, Option.map_some, groupShape, if_pos starts]
    rfl
  | call name arguments columns aliasName =>
    have hwith := startsWithKw_with_alias aliasName hrest
    rw [Leaf.tokens, List.append_assoc, List.append_assoc, List.append_assoc]
    refine readSource?_of_parts ?_ (readAlias?_alias aliasName (h.mono (by decide)))
      (skipHints?_of_not_with hrest)
    rw [readShape?_of_name name (readName?_tokens name rfl), finishShape?,
      skipGroup?_parens arguments.2, Option.bind_some, skipHints?_hints columns hwith]
    exact if_pos rfl

/-- A name gives its source neither an alias nor a mark. -/
theorem ofName_eq (ctes parts : List String) :
    ofName ctes parts =
      { name := parts.getLast?.getD "", target := (ofName ctes parts).target } := by
  unfold ofName
  dsimp only
  split <;> rfl

theorem withAlias_unnamed
    {s : Source} (h : s.aliasName = none) (aliasText : Option String) :
    withAlias aliasText [s] = [{ s with aliasName := aliasText }] := by
  obtain ⟨aliasName, name, target, nullable⟩ := s
  subst h
  cases aliasText <;> rfl

theorem withAlias_leaf (l : Leaf) :
    withAlias l.aliasText (ofShape ctes l.shape) = [l.source ctes] := by
  cases l with
  | table name aliasName hints =>
    have hnone : (ofName ctes name.parts).aliasName = none := by rw [ofName_eq]
    exact withAlias_unnamed hnone _
  | derived query starts aliasName => exact withAlias_unnamed rfl _
  | call name arguments columns aliasName => exact withAlias_unnamed rfl _

theorem nullable_leaf (l : Leaf) : (l.source ctes).nullable = false := by
  cases l with
  | table name aliasName hints =>
    have hnot : (ofName ctes name.parts).nullable = false := by rw [ofName_eq]
    exact hnot
  | derived query starts aliasName => rfl
  | call name arguments columns aliasName => rfl

/-- The tokens start with a parenthesis or with a name that is no reserved word. -/
def StartsOperand (ts : List Token) : Prop :=
  ∃ t us, ts = t :: us ∧ t ≠ .comma ∧ t.isAnyKw reservedWords = false

theorem startsOperand_leaf (l : Leaf) : StartsOperand l.tokens := by
  cases l with
  | table name aliasName hints => exact ⟨_, _, rfl, by simp, name.unreserved⟩
  | derived query starts aliasName => exact ⟨.lparen, _, rfl, by simp, rfl⟩
  | call name arguments columns aliasName => exact ⟨_, _, rfl, by simp, name.unreserved⟩

/-! ## Balance -/

theorem isBalanced_elim
    {α : Type} (o : Option α) {f : α → List Token} (h : ∀ a, isBalanced (f a) = true) :
    isBalanced (o.elim [] f) = true := by
  cases o with
  | none => rfl
  | some a => exact h a

theorem isBalanced_optional (k : Option (Keyword keywords)) :
    isBalanced (k.map (·.1)).toList = true := by
  cases k with
  | none => rfl
  | some k => exact isBalanced_keyword k.2

theorem isBalanced_name (n : DottedName) : isBalanced n.tokens = true := by
  have hothers : isBalanced
      (n.others.flatMap fun part => [.period, .word part.1 part.2]) = true := by
    induction n.others with
    | nil => rfl
    | cons part others ih => exact ih
  exact hothers

theorem isBalanced_alias (a : Alias) : isBalanced a.tokens = true :=
  isBalanced_append (isBalanced_optional a.asWord)
    (isBalanced_append (show isBalanced [.word a.text a.quoted] = true from rfl)
      (isBalanced_elim a.columns fun group => isBalanced_parens group.2))

theorem isBalanced_hints (h : Hints) : isBalanced h.tokens = true :=
  isBalanced_append (isBalanced_keyword h.keyword.2) (isBalanced_parens h.group.2)

theorem isBalanced_leaf (l : Leaf) : isBalanced l.tokens = true := by
  cases l with
  | table name aliasName hints =>
    exact isBalanced_append (isBalanced_name name)
      (isBalanced_append (isBalanced_elim aliasName isBalanced_alias)
        (isBalanced_elim hints isBalanced_hints))
  | derived query starts aliasName =>
    exact isBalanced_append (isBalanced_parens query.2) (isBalanced_elim aliasName isBalanced_alias)
  | call name arguments columns aliasName =>
    exact isBalanced_append (isBalanced_name name)
      (isBalanced_append (isBalanced_parens arguments.2)
        (isBalanced_append (isBalanced_elim columns isBalanced_hints)
          (isBalanced_elim aliasName isBalanced_alias)))

end SqlSnapshot.Source
