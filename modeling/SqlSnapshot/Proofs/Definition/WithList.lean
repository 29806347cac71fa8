import SqlSnapshot.Proofs.Definition.ResultSets
import SqlSnapshot.Proofs.Definition.Statements

/-!
# Lists of common table expressions

The grammar of the list that `WITH` introduces.  The reader takes such a list as a whole, and the
names of its expressions are those that hold for the statement behind it.  It comes to every list
that stands behind complete statements and their terminator.
-/

namespace SqlSnapshot.Body

open Token

/-- A common table expression: its name, its columns if they are given, and its query. -/
inductive IsCte (name : String) : List Token → Prop where
  | plain (quoted : Bool) {t : Token} {query : List Token}
      (ht : t.isKw "AS" = true) (hquery : isBalanced query = true) :
      IsCte name (.word name quoted :: t :: parens query)
  | listed (quoted : Bool) {t : Token} {columns query : List Token}
      (hcolumns : isBalanced columns = true) (ht : t.isKw "AS" = true)
      (hquery : isBalanced query = true) :
      IsCte name (.word name quoted :: parens columns ++ t :: parens query)

/-- The names of common table expressions and their list. -/
inductive IsWithList : List String → List Token → Prop where
  | one {name : String} {ts : List Token} (h : IsCte name ts) : IsWithList [name] ts
  | more {name : String} {names : List String} {ts us : List Token} (h : IsCte name ts)
      (hrest : IsWithList names us) : IsWithList (name :: names) (ts ++ .comma :: us)

variable {t : Token} {ts rest query : List Token} {name : String} {names : List String}

/-- A `WITH` list of the names stands directly before the tokens, and the reader comes to it.  The
reader takes the word `TIES` behind `WITH` for a part of `TOP` and sees no list there. -/
def Introduces (body : List Token) (names : List String) (ts : List Token) : Prop :=
  ∃ held t list, Reaches ([], body) (held, t :: list ++ ts) ∧ t.isKw "WITH" = true ∧
    IsWithList names list ∧ startsWithKw "TIES" list = false

/-- The reader comes to what stands behind the terminator of complete statements. -/
theorem Complete.reaches
    {ctes : List String} (hcomplete : Complete ctes ts) (hcloses : Closes ts)
    {others : List Token} {found : Findings}
    (hread : read ctes (ts ++ .semicolon :: others) = .ok found) :
    Reaches (ctes, ts ++ .semicolon :: others) ([], others) := by
  induction hcomplete generalizing found with
  | done =>
    exact .single ⟨{}, .other (by simp) (by simp [startsCtes, isKw, isAnyKw])
      (by simp [readStatement?, isKw, isAnyKw])⟩
  | @group ctes ts after hgroup _ ih =>
    have hlonger : skipGroup? (.lparen :: (ts ++ .semicolon :: others)) =
        some (after ++ .semicolon :: others) :=
      skipGroup?_append_of_eq_some hgroup _
    rw [List.cons_append, read_group hlonger] at hread
    exact .head ⟨{}, .group hlonger⟩ (ih (hcloses.of_suffix (isSuffix_skipGroup? hgroup)) hread)
  | @ctes ctes t ts hopen hctes _ ih =>
    have hlonger : startsCtes t (ts ++ .semicolon :: others) = true := by
      rw [startsCtes_terminated, hctes]
    have hstep : Step (ctes, t :: (ts ++ .semicolon :: others)) {} _ := .ctes hopen hlonger
    rw [List.cons_append, read_ctes hopen hlonger, readCtes_terminated hcloses.tail] at hread
    rw [readCtes_terminated hcloses.tail] at hstep
    exact .head ⟨{}, hstep⟩ (ih (hcloses.tail.of_suffix (isSuffix_readCtes ts)) hread)
  | @other ctes t ts hopen hctes hnone _ ih =>
    have hlonger := not_startsCtes_terminated hctes others
    have hlater := readStatement?_eq_none hnone (ts ++ .semicolon :: others)
    rw [List.cons_append, read_other hopen hlonger hlater] at hread
    exact .head ⟨{}, .other hopen hlonger hlater⟩ (ih hcloses.tail hread)
  | @statement ctes t ts after own hopen hctes hstatement hends _ ih =>
    have hlonger := not_startsCtes_terminated hctes others
    obtain ⟨later, hlater, hrest⟩ :=
      readStatement?_terminated hcloses.tail hends hstatement others
    rw [List.cons_append, read_statement hopen hlonger hlater] at hread
    obtain ⟨own, rest, rfl, hothers, -⟩ := followedBy_eq_ok hread
    refine .head ⟨own, .statement hopen hlonger hlater⟩ ?_
    rcases hrest with rfl | ⟨-, rfl⟩
    · exact ih (hcloses.tail.of_suffix (isSuffix_readStatement? hstatement)) hothers
    -- a `MERGE` takes its terminator with it
    · exact .refl

/-- A list behind complete statements and their terminator introduces the statement behind it. -/
theorem introduces_of_complete
    {first list : List Token} (hcomplete : Complete [] first) (hcloses : Closes first)
    (ht : t.isKw "WITH" = true) (hlist : IsWithList names list)
    (hties : startsWithKw "TIES" list = false) {found : Findings}
    (hread : read [] (first ++ .semicolon :: (t :: list ++ ts)) = .ok found) :
    Introduces (first ++ .semicolon :: (t :: list ++ ts)) names ts :=
  ⟨[], t, list, hcomplete.reaches hcloses hread, ht, hlist, hties⟩

end SqlSnapshot.Body
