import Mathlib.Data.List.Induction
import SqlSnapshot.Proofs.Definition.Terminators
import SqlSnapshot.Proofs.NameOrder
import SqlSnapshot.Proofs.Outcome

/-!
# Statements apart

What stands before a terminator and what stands behind it are read apart, if every statement before
it ends before it.
-/

namespace SqlSnapshot

open Token

/-! ## Executed procedures -/

namespace Descriptor

theorem foldl_distinct (seen ds : List Descriptor) :
    ds.foldl (fun seen d => if seen.any (·.same d) then seen else seen ++ [d]) seen =
      seen ++ (distinct ds).filter fun d => !seen.any (·.same d) := by
  induction ds using List.reverseRecOn with
  | nil => simp [distinct]
  | append_singleton ds d ih =>
    have hstep : distinct (ds ++ [d]) =
        if (distinct ds).any (·.same d) then distinct ds else distinct ds ++ [d] := by
      rw [distinct, List.foldl_append]
      rfl
    rw [List.foldl_append, ih, hstep, List.foldl_cons, List.foldl_nil, List.any_append]
    cases hlisted : (distinct ds).any (·.same d) with
    | true =>
      -- one of its kind is kept, or was seen before
      obtain ⟨e, he, hsame⟩ := List.any_eq_true.mp hlisted
      have hkept : (seen.any (·.same d) ||
          ((distinct ds).filter fun d => !seen.any (·.same d)).any (·.same d)) = true := by
        rw [Bool.or_eq_true]
        cases hseen : seen.any (·.same e) with
        | true =>
          obtain ⟨f, hf, hfe⟩ := List.any_eq_true.mp hseen
          exact .inl (List.any_eq_true.mpr ⟨f, hf, (same_congr_right hsame f).symm.trans hfe⟩)
        | false =>
          exact .inr (List.any_eq_true.mpr ⟨e, List.mem_filter.mpr ⟨he, by simp [hseen]⟩, hsame⟩)
      rw [hkept]
      rfl
    | false =>
      have hnone : ((distinct ds).filter fun d => !seen.any (·.same d)).any (·.same d) = false := by
        rw [List.any_eq_false] at hlisted ⊢
        exact fun e he => hlisted e (List.mem_of_mem_filter he)
      rw [hnone, Bool.or_false, if_neg Bool.false_ne_true, List.filter_append]
      cases hseen : seen.any (·.same d) <;> simp [hseen]

/-- Of two lists after one another, those of the second are left that are not in the first. -/
theorem distinct_append (ds es : List Descriptor) :
    distinct (ds ++ es) =
      distinct ds ++ (distinct es).filter fun e => !(distinct ds).any (·.same e) := by
  rw [distinct, List.foldl_append]
  exact foldl_distinct (distinct ds) es

end Descriptor

/-! ## Statements -/

namespace Body

variable {ctes : List String} {t : Token} {ts after : List Token}
  {found : Except ParseError Findings}

/-- The statements of the list end within it, and its last `WITH` is used: `ctes` are the names that
hold for its first statement. -/
inductive Complete : List String → List Token → Prop where
  | done : Complete [] []
  | group {ctes : List String} {ts after : List Token} :
      skipGroup? (.lparen :: ts) = some after → Complete ctes after → Complete ctes (.lparen :: ts)
  | ctes {ctes : List String} {t : Token} {ts : List Token} :
      t ≠ .lparen → startsCtes t ts = true → Complete (readCtes ts).1 (readCtes ts).2 →
      Complete ctes (t :: ts)
  | other {ctes : List String} {t : Token} {ts : List Token} :
      t ≠ .lparen → ¬ startsCtes t ts = true → readStatement? ctes t ts = none →
      Complete ctes ts → Complete ctes (t :: ts)
  | statement {ctes : List String} {t : Token} {ts after : List Token}
      {found : Except ParseError Findings} :
      t ≠ .lparen → ¬ startsCtes t ts = true → readStatement? ctes t ts = some (found, after) →
      HoldsEnd t ts → Complete [] after → Complete ctes (t :: ts)

theorem readStatement?_eq_none (h : readStatement? ctes t ts = none) (us : List Token) :
    readStatement? ctes t us = none := by
  unfold readStatement? at h ⊢
  repeat' split at h
  all_goals simp_all

/-- A statement that ends before a terminator does not see what stands behind it.  Only a `MERGE`
takes the terminator with it. -/
theorem readStatement?_terminated
    (h : Closes ts) (hends : HoldsEnd t ts)
    (hread : readStatement? ctes t ts = some (found, after)) (others : List Token) :
    ∃ later, readStatement? ctes t (ts ++ .semicolon :: others) = some (found, later) ∧
      (later = after ++ .semicolon :: others ∨ after = [] ∧ later = others) := by
  have hcut := cutStatement_terminated h t 0 others
  have hafter := afterStatement_terminated h t others
  unfold readStatement? at hread ⊢
  by_cases hselect : t.isKw "SELECT" = true
  · rw [if_pos hselect] at hread ⊢
    cases hread
    rw [hcut]
    exact ⟨_, rfl, .inl rfl⟩
  rw [if_neg hselect] at hread ⊢
  by_cases hinsert : t.isKw "INSERT" = true
  · rw [if_pos hinsert] at hread ⊢
    cases hread
    exact ⟨_, rfl, .inl (afterInsert_terminated h hends hinsert others)⟩
  rw [if_neg hinsert] at hread ⊢
  by_cases hupdate : t.isKw "UPDATE" = true
  · rw [if_pos hupdate] at hread ⊢
    cases hread
    exact ⟨_, rfl, .inl (afterUpdate_terminated h (hends.update hupdate) t others)⟩
  rw [if_neg hupdate] at hread ⊢
  by_cases hmerge : t.isKw "MERGE" = true
  · rw [if_pos hmerge] at hread ⊢
    cases hread
    exact ⟨_, rfl, afterSemicolon_terminated h others⟩
  rw [if_neg hmerge] at hread ⊢
  by_cases hdeclare : t.isKw "DECLARE" = true
  · rw [if_pos hdeclare] at hread ⊢
    cases hread
    exact ⟨_, rfl, .inl (afterDeclare_terminated h hends hdeclare others)⟩
  rw [if_neg hdeclare] at hread ⊢
  by_cases hskipped : t.isAnyKw ["DELETE", "SET"] = true
  · rw [if_pos hskipped] at hread ⊢
    cases hread
    exact ⟨_, rfl, .inl hafter⟩
  rw [if_neg hskipped] at hread ⊢
  by_cases hexec : t.isAnyKw ["EXEC", "EXECUTE"] = true
  · rw [if_pos hexec] at hread ⊢
    cases hread
    rw [hcut]
    exact ⟨_, rfl, .inl rfl⟩
  · rw [if_neg hexec] at hread
    cases hread

theorem read_semicolon (others : List Token) : read [] (.semicolon :: others) = read [] others :=
  read_other (by simp) (by simp [startsCtes, isKw, isAnyKw])
    (by simp [readStatement?, isKw, isAnyKw])

theorem not_startsCtes_terminated (h : ¬ startsCtes t ts = true) (others : List Token) :
    ¬ startsCtes t (ts ++ .semicolon :: others) = true := by
  rw [startsCtes_terminated]
  exact h

/-- Complete statements and what stands behind their terminator are read one after the other. -/
theorem read_terminated
    (hcomplete : Complete ctes ts) (h : Closes ts) (others : List Token) :
    read ctes (ts ++ .semicolon :: others) = followedBy (read ctes ts) (read [] others) := by
  induction hcomplete with
  | done => rw [List.nil_append, read_semicolon, read_nil, empty_followedBy]
  | @group ctes ts after hgroup _ ih =>
    have hlonger : skipGroup? (.lparen :: (ts ++ .semicolon :: others)) =
        some (after ++ .semicolon :: others) :=
      skipGroup?_append_of_eq_some hgroup _
    rw [List.cons_append, read_group hgroup, read_group hlonger,
      ih (h.of_suffix (isSuffix_skipGroup? hgroup))]
  | @ctes ctes t ts hopen hctes _ ih =>
    have hlonger : startsCtes t (ts ++ .semicolon :: others) = true := by
      rw [startsCtes_terminated, hctes]
    rw [List.cons_append, read_ctes hopen hctes, read_ctes hopen hlonger,
      readCtes_terminated h.tail, ih (h.tail.of_suffix (isSuffix_readCtes ts))]
  | @other ctes t ts hopen hctes hread _ ih =>
    have hlonger := not_startsCtes_terminated hctes others
    rw [List.cons_append, read_other hopen hctes hread,
      read_other hopen hlonger (readStatement?_eq_none hread _), ih h.tail]
  | @statement ctes t ts after found hopen hctes hread hends _ ih =>
    have hlonger := not_startsCtes_terminated hctes others
    obtain ⟨later, hlater, hrest⟩ := readStatement?_terminated h.tail hends hread others
    have hcloses : Closes after := h.tail.of_suffix (isSuffix_readStatement? hread)
    rw [List.cons_append, read_statement hopen hctes hread, read_statement hopen hlonger hlater,
      followedBy_assoc]
    rcases hrest with rfl | ⟨rfl, rfl⟩
    · rw [ih hcloses]
    · rw [read_nil, empty_followedBy]

/-- Complete statements with their terminator and what stands behind it are read apart: the whole is
read if both are, and its findings are those of the first and then those of the second. -/
theorem read_apart
    {first : List Token} (hbalanced : isBalanced first = true)
    (hcomplete : Complete [] first) (second : List Token) :
    ((∃ found, read [] (first ++ .semicolon :: second) = .ok found) ↔
      (∃ own, read [] (first ++ [.semicolon]) = .ok own) ∧
        ∃ others, read [] second = .ok others) ∧
    ∀ found own others, read [] (first ++ .semicolon :: second) = .ok found →
      read [] (first ++ [.semicolon]) = .ok own → read [] second = .ok others →
      found.resultSets = own.resultSets ++ others.resultSets ∧
      found.issues = own.issues ++ others.issues ∧
      Descriptor.distinct found.executed = Descriptor.distinct own.executed ++
        (Descriptor.distinct others.executed).filter fun d =>
          !(Descriptor.distinct own.executed).any (·.same d) := by
  have hcloses : Closes first := closes_of_isBalanced hbalanced
  have hfirst : read [] (first ++ [.semicolon]) = read [] first := by
    rw [read_terminated hcomplete hcloses, read_nil, followedBy_empty]
  rw [read_terminated hcomplete hcloses, hfirst]
  constructor
  · constructor
    · rintro ⟨found, hfound⟩
      obtain ⟨own, others, hown, hothers, -⟩ := followedBy_eq_ok hfound
      exact ⟨⟨own, hown⟩, others, hothers⟩
    · rintro ⟨⟨own, hown⟩, others, hothers⟩
      exact ⟨own.append others, by rw [hown, hothers]; rfl⟩
  · intro found own others hfound hown hothers
    rw [hown, hothers] at hfound
    obtain rfl : own.append others = found := Except.ok.inj hfound
    exact ⟨rfl, rfl, Descriptor.distinct_append own.executed others.executed⟩

def sampleUpdate : List Token :=
  [.word "UPDATE" false, .word "Users" false, .word "SET" false, .word "Id" false, .equals,
   .num "1"]

def sampleExec (name : String) : List Token :=
  [.word "EXEC" false, .word name false]

theorem complete_sample : Complete [] (sampleUpdate ++ sampleExec "Load") := by
  refine .statement (by simp) (by decide) rfl
    ⟨by decide, by decide, fun hinsert => absurd hinsert (by decide)⟩ ?_
  refine .statement (by simp) (by decide) rfl
    ⟨by decide, by decide, fun hinsert => absurd hinsert (by decide)⟩ ?_
  exact .done

theorem read_apart_sample :
    let first := sampleUpdate ++ sampleExec "Load"
    let second := sampleExec "load" ++ sampleExec "Save"
    isBalanced first = true ∧ Complete [] first ∧
      ∃ found, read [] (first ++ .semicolon :: second) = .ok found ∧
        found.resultSets.length = 3 ∧
        Descriptor.distinct found.executed = [⟨"dbo", "Load"⟩, ⟨"dbo", "Save"⟩] := by
  intro first second
  have hbalanced : isBalanced first = true := by decide
  have hown : (read [] (first ++ [.semicolon])).map (fun f => (f.resultSets.length, f.executed)) =
      .ok (1, [⟨"dbo", "Load"⟩]) := by
    decide +kernel
  have hothers : (read [] second).map (fun f => (f.resultSets.length, f.executed)) =
      .ok (2, [⟨"dbo", "load"⟩, ⟨"dbo", "Save"⟩]) := by
    decide +kernel
  obtain ⟨own, hown, howns⟩ := exists_of_map_eq_ok hown
  obtain ⟨others, hothers, hseconds⟩ := exists_of_map_eq_ok hothers
  obtain ⟨hread, hparts⟩ := read_apart hbalanced complete_sample second
  obtain ⟨found, hfound⟩ := hread.mpr ⟨⟨own, hown⟩, others, hothers⟩
  obtain ⟨hsets, -, hexecuted⟩ := hparts found own others hfound hown hothers
  refine ⟨hbalanced, complete_sample, found, hfound, ?_, ?_⟩
  · rw [hsets, List.length_append, (Prod.mk.inj howns).1, (Prod.mk.inj hseconds).1]
  · rw [hexecuted, (Prod.mk.inj howns).2, (Prod.mk.inj hseconds).2]
    decide +kernel

/-- Without a `SET` of its own, an `UPDATE` takes in the statements up to the next one. -/
theorem read_apart_statistics :
    let first : List Token := [.word "UPDATE" false, .word "STATISTICS" false, .word "Orders" false]
    let second := sampleExec "Load" ++
      [.semicolon, .word "SET" false, .word "NOCOUNT" false, .word "OFF" false]
    isBalanced first = true ∧
      (read [] (first ++ [.semicolon])).map (·.executed) = .ok [] ∧
      (read [] second).map (·.executed) = .ok [⟨"dbo", "Load"⟩] ∧
      (read [] (first ++ .semicolon :: second)).map (·.executed) = .ok [] := by
  decide +kernel

end Body

end SqlSnapshot
