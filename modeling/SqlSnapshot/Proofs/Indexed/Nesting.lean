import Mathlib.Order.Bounds.Basic
import SqlSnapshot.Proofs.Indexed.Tokens

/-!
# Nested parentheses

Three scans count open parentheses, each in its own way.  At a closing one without a partner, the
check of a list fails, the search for the partner of an opening one gives up, and the split at
commas goes on as if it were not there.  All three agree with the nesting that the lists have by
their form.
-/

namespace SqlSnapshot.Indexed

open Token

variable {ts us front inner rest part : List Token} {t : Token} {depth i j : Nat}

/-! ## Balanced lists -/

/-- The lists in which each parenthesis has its partner. -/
inductive Balanced : List Token → Prop where
  | nil : Balanced []
  | token {t : Token} {ts : List Token} :
      t ≠ .lparen → t ≠ .rparen → Balanced ts → Balanced (t :: ts)
  | group {inner rest : List Token} :
      Balanced inner → Balanced rest → Balanced (parens inner ++ rest)

theorem Balanced.append (hts : Balanced ts) (hus : Balanced us) : Balanced (ts ++ us) := by
  induction hts with
  | nil => exact hus
  | token hopen hclose _ ih => exact .token hopen hclose ih
  | group hinner _ _ ih =>
    rw [List.append_assoc]
    exact .group hinner ih

/-- Behind an open parenthesis, a list that closes it has its partner, and the list behind the
partner is balanced as well. -/
theorem exists_closeParen?_of_balanced (h : balancedFrom 1 ts = true) :
    ∃ inner rest, closeParen? 0 ts = some (inner, rest) ∧ isBalanced rest = true := by
  have hcloses : (closeParen? 0 ts).isSome := isSome_closeParen? (depthAfterAll_of_balancedFrom h)
  obtain ⟨⟨inner, rest⟩, hclose⟩ := Option.isSome_iff_exists.mp hcloses
  refine ⟨inner, rest, hclose, ?_⟩
  rw [closeParen?_append hclose] at h
  exact (balancedFrom_append (balancedFrom_of_closeParen? hclose) 1 (.rparen :: rest)).symm.trans h

theorem isBalanced_of_balanced (h : Balanced ts) : isBalanced ts = true := by
  induction h with
  | nil => rfl
  | @token t ts hopen hclose _ ih =>
    cases t with
    | lparen => exact absurd rfl hopen
    | rparen => exact absurd rfl hclose
    | _ => exact ih
  | group _ _ hinner hrest => exact isBalanced_append (isBalanced_parens hinner) hrest

theorem balanced_of_isBalanced (ts : List Token) (h : isBalanced ts = true) : Balanced ts := by
  match ts with
  | [] => exact .nil
  | t :: ts =>
    by_cases hopen : t = .lparen
    · subst hopen
      obtain ⟨inner, rest, hclose, hrest⟩ := exists_closeParen?_of_balanced h
      have hinner : isBalanced inner = true := balancedFrom_of_closeParen? hclose
      have hlength := length_closeParen? hclose
      have hparts : .lparen :: ts = parens inner ++ rest := by
        rw [closeParen?_append hclose, parens]
        simp
      rw [hparts]
      exact .group (balanced_of_isBalanced inner hinner) (balanced_of_isBalanced rest hrest)
    · have hclose : t ≠ .rparen := by
        rintro rfl
        cases h
      have hlater : isBalanced ts = true := by
        cases t with
        | lparen => exact absurd rfl hopen
        | rparen => exact absurd rfl hclose
        | _ => exact h
      exact .token hopen hclose (balanced_of_isBalanced ts hlater)
termination_by ts.length

theorem isBalanced_iff (ts : List Token) : isBalanced ts = true ↔ Balanced ts :=
  ⟨balanced_of_isBalanced ts, isBalanced_of_balanced⟩

/-! ## Partners -/

/-- The positions at which a balanced part ends that begins at `i`. -/
def balancedEnds (ts : List Token) (i : Nat) : Set Nat :=
  {j | i ≤ j ∧ j < ts.length ∧ Balanced ((ts.take (j + 1)).drop i)}

theorem drop_eq_of_lparen (h : ts[i]? = some .lparen) : ts.drop i = .lparen :: ts.drop (i + 1) := by
  obtain ⟨hi, ht⟩ := List.getElem?_eq_some_iff.mp h
  rw [List.drop_eq_getElem_cons hi, ht]

theorem mem_balancedEnds_of_closeParen?
    (h : ts[i]? = some .lparen) (hclose : closeParen? 0 (ts.drop (i + 1)) = some (inner, rest)) :
    i + 1 + inner.length ∈ balancedEnds ts i := by
  have hlength := length_closeParen? hclose
  rw [List.length_drop] at hlength
  refine ⟨by omega, by omega, ?_⟩
  have hgroup : (ts.take (i + 1 + inner.length + 1)).drop i = parens inner := by
    have hend : i + 1 + inner.length + 1 - i = (parens inner).length := by
      simp only [parens, List.length_append, List.length_cons, List.length_nil]
      omega
    have hparts : .lparen :: (inner ++ .rparen :: rest) = parens inner ++ rest := by
      simp [parens]
    rw [List.drop_take, drop_eq_of_lparen h, closeParen?_append hclose, hparts, hend,
      List.take_left']
    rfl
  have hinner : Balanced inner := balanced_of_isBalanced inner (balancedFrom_of_closeParen? hclose)
  rw [hgroup, ← List.append_nil (parens inner)]
  exact .group hinner .nil

/-- No balanced part ends before the partner of its first parenthesis. -/
theorem exists_closeParen?_of_mem
    (h : ts[i]? = some .lparen) (hj : j ∈ balancedEnds ts i) :
    ∃ inner rest, closeParen? 0 (ts.drop (i + 1)) = some (inner, rest) ∧
      i + 1 + inner.length ≤ j := by
  obtain ⟨hij, -, hbalanced⟩ := hj
  have hlength : j + 1 - i = (j - i) + 1 := by omega
  rw [List.drop_take, drop_eq_of_lparen h, hlength, List.take_succ_cons] at hbalanced
  obtain ⟨inner, rest, hclose, -⟩ :=
    exists_closeParen?_of_balanced (isBalanced_of_balanced hbalanced)
  have hwhole := closeParen?_append_of_eq_some hclose ((ts.drop (i + 1)).drop (j - i))
  rw [List.take_append_drop] at hwhole
  have hinner := length_closeParen? hclose
  rw [List.length_take] at hinner
  exact ⟨inner, _, hwhole, by omega⟩

theorem isLeast_of_matchingParen
    (h : ts[i]? = some .lparen) (hmatching : matchingParen ts i = some j) :
    IsLeast (balancedEnds ts i) j := by
  rw [matchingParen_eq ts i h] at hmatching
  obtain ⟨⟨inner, rest⟩, hclose, rfl⟩ := Option.map_eq_some_iff.mp hmatching
  refine ⟨mem_balancedEnds_of_closeParen? h hclose, fun k hk => ?_⟩
  obtain ⟨inner', rest', hclose', hle⟩ := exists_closeParen?_of_mem h hk
  rw [hclose] at hclose'
  cases hclose'
  exact hle

theorem exists_matchingParen (h : ts[i]? = some .lparen) (hj : j ∈ balancedEnds ts i) :
    ∃ close, matchingParen ts i = some close := by
  obtain ⟨inner, rest, hclose, -⟩ := exists_closeParen?_of_mem h hj
  rw [matchingParen_eq ts i h, hclose]
  exact ⟨_, rfl⟩

theorem matchingParen_eq_some_iff (h : ts[i]? = some .lparen) (j : Nat) :
    matchingParen ts i = some j ↔ IsLeast (balancedEnds ts i) j := by
  refine ⟨isLeast_of_matchingParen h, fun hleast => ?_⟩
  obtain ⟨close, hmatching⟩ := exists_matchingParen h hleast.1
  rw [hmatching, (isLeast_of_matchingParen h hmatching).unique hleast]

theorem matchingParen_eq_none_iff (h : ts[i]? = some .lparen) :
    matchingParen ts i = none ↔ balancedEnds ts i = ∅ := by
  rw [Set.eq_empty_iff_forall_notMem]
  constructor
  · intro hnone j hj
    obtain ⟨close, hmatching⟩ := exists_matchingParen h hj
    rw [hnone] at hmatching
    cases hmatching
  · intro hempty
    cases hmatching : matchingParen ts i with
    | none => rfl
    | some j => exact absurd (isLeast_of_matchingParen h hmatching).1 (hempty j)

/-! ## Parts between commas -/

/-- A balanced list without a comma outside its parentheses. -/
structure IsItem (ts : List Token) : Prop where
  balanced : Balanced ts
  no_comma : .comma ∉ outside 0 ts

theorem IsItem.closes (h : IsItem ts) : Closes ts :=
  closes_of_isBalanced (isBalanced_of_balanced h.balanced)

theorem isItem_nil : IsItem [] :=
  ⟨.nil, List.not_mem_nil⟩

theorem isItem_token (hopen : t ≠ .lparen) (hclose : t ≠ .rparen) (hcomma : t ≠ .comma) :
    IsItem [t] :=
  ⟨.token hopen hclose .nil, by simpa [outside] using hcomma.symm⟩

theorem isItem_parens (h : Balanced inner) : IsItem (parens inner) where
  balanced := List.append_nil (parens inner) ▸ .group h .nil
  no_comma := by
    rw [outside_parens (isBalanced_of_balanced h)]
    simp

theorem IsItem.append (hts : IsItem ts) (hus : IsItem us) : IsItem (ts ++ us) where
  balanced := hts.balanced.append hus.balanced
  no_comma := by
    rw [outside_append, hts.closes, List.mem_append, not_or]
    exact ⟨hts.no_comma, hus.no_comma⟩

/-- No comma of an item stands behind a balanced part of it. -/
theorem IsItem.not_balanced (h : IsItem (front ++ .comma :: rest)) : ¬ Balanced front := by
  intro hfront
  have hcloses : Closes front := closes_of_isBalanced (isBalanced_of_balanced hfront)
  apply h.no_comma
  rw [outside_append, hcloses, List.mem_append]
  exact .inr (List.mem_cons_self)

/-- The comma that ends a list, if one does. -/
def lastComma (ts : List Token) : List Token :=
  if ts.getLast? = some .comma then [.comma] else []

theorem lastComma_append (front : List Token) (h : ts ≠ []) :
    lastComma (front ++ ts) = lastComma ts := by
  rw [lastComma, lastComma, List.getLast?_append_of_ne_nil front h]

/-- Every part of the list between commas is an item, and the list is its parts with commas between
them. -/
structure SplitsWell (ts : List Token) : Prop where
  items : ∀ part ∈ splitCommas 0 ts, IsItem part
  joined : ts = [.comma].intercalate (splitCommas 0 ts) ++ lastComma ts

theorem exists_splitCommas_cons (h : ts ≠ []) (depth : Nat) :
    ∃ part parts, splitCommas depth ts = part :: parts := by
  cases ts with
  | nil => exact absurd rfl h
  | cons t ts =>
    rw [splitCommas]
    split
    · exact ⟨_, _, rfl⟩
    · cases splitCommas (depthAfter depth t) ts <;> exact ⟨_, _, rfl⟩

theorem intercalate_append_first {α : Type} (sep first part : List α) (parts : List (List α)) :
    sep.intercalate ((first ++ part) :: parts) = first ++ sep.intercalate (part :: parts) := by
  cases parts with
  | nil => rw [List.intercalate_singleton, List.intercalate_singleton]
  | cons next parts =>
    rw [List.intercalate_cons_cons, List.intercalate_cons_cons]
    simp

theorem splitsWell_comma (h : SplitsWell ts) : SplitsWell (.comma :: ts) := by
  have hparts : splitCommas 0 (.comma :: ts) = [] :: splitCommas 0 ts := rfl
  constructor
  · rw [hparts, List.forall_mem_cons]
    exact ⟨isItem_nil, h.items⟩
  · rw [hparts]
    by_cases hts : ts = []
    · subst hts
      rfl
    · obtain ⟨part, parts, hlater⟩ := exists_splitCommas_cons hts 0
      have hlast := lastComma_append [.comma] hts
      have hjoined := h.joined
      rw [hlater] at hjoined
      rw [hlater, List.intercalate_cons_cons, List.nil_append, List.append_assoc]
      rw [List.singleton_append] at hlast
      rw [hlast, ← hjoined]
      rfl

theorem splitsWell_append
    (hfront : IsItem front) (hne : front ≠ []) (hlast : front.getLast? ≠ some .comma)
    (h : SplitsWell ts) : SplitsWell (front ++ ts) := by
  have hparts : splitCommas 0 (front ++ ts) = front.foldr consFirst (splitCommas 0 ts) := by
    rw [splitCommas_append hfront.no_comma, hfront.closes]
  by_cases hts : ts = []
  · subst hts
    have hwhole : splitCommas 0 (front ++ []) = [front] :=
      hparts.trans (foldr_consFirst_nil hne)
    constructor
    · rw [hwhole, List.forall_mem_singleton]
      exact hfront
    · rw [hwhole, List.append_nil, List.intercalate_singleton, lastComma, if_neg hlast,
        List.append_nil]
  · obtain ⟨part, parts, hlater⟩ := exists_splitCommas_cons hts 0
    have hwhole : splitCommas 0 (front ++ ts) = (front ++ part) :: parts := by
      rw [hparts, hlater, foldr_consFirst]
    have hitems := h.items
    have hjoined := h.joined
    rw [hlater] at hitems hjoined
    rw [List.forall_mem_cons] at hitems
    constructor
    · rw [hwhole, List.forall_mem_cons]
      exact ⟨hfront.append hitems.1, hitems.2⟩
    · rw [hwhole, intercalate_append_first, lastComma_append front hts, List.append_assoc,
        ← hjoined]

theorem splitsWell_of_balanced (h : Balanced ts) : SplitsWell ts := by
  induction h with
  | nil => exact ⟨by simp [splitCommas], rfl⟩
  | @token t ts hopen hclose _ ih =>
    by_cases hcomma : t = .comma
    · subst hcomma
      exact splitsWell_comma ih
    · refine splitsWell_append (isItem_token hopen hclose hcomma) (List.cons_ne_nil t []) ?_ ih
      simpa using hcomma
  | group hinner _ _ ih =>
    refine splitsWell_append (isItem_parens hinner) (List.cons_ne_nil _ _) ?_ ih
    rw [parens, List.getLast?_concat]
    simp

/-! ## Agreement with the nesting -/

/-- A list passes the check if and only if it is balanced.  The partner of a parenthesis ends the
shortest balanced part that begins there.  The parts of a balanced list are balanced, have no comma
outside their parentheses, and give the list with commas between them, up to a last comma. -/
theorem scans_follow_nesting :
    (∀ ts : List Token, isBalanced ts = true ↔ Balanced ts) ∧
    (∀ (ts : List Token) (i : Nat), ts[i]? = some .lparen →
      matchingParen ts i =
          (closeParen? 0 (ts.drop (i + 1))).map (fun parts => i + 1 + parts.1.length) ∧
        (∀ j, matchingParen ts i = some j ↔ IsLeast (balancedEnds ts i) j) ∧
        (matchingParen ts i = none ↔ balancedEnds ts i = ∅)) ∧
    ∀ ts : List Token, isBalanced ts = true →
      splitTopLevel ts = .ok (splitCommas 0 ts) ∧
        (∀ part ∈ splitCommas 0 ts,
          Balanced part ∧ ∀ front rest, part = front ++ .comma :: rest → ¬ Balanced front) ∧
        ts = [.comma].intercalate (splitCommas 0 ts) ++ lastComma ts := by
  refine ⟨isBalanced_iff, fun ts i h => ?_, fun ts h => ?_⟩
  · exact ⟨matchingParen_eq ts i h, matchingParen_eq_some_iff h, matchingParen_eq_none_iff h⟩
  · have hsplits : SplitsWell ts := splitsWell_of_balanced (balanced_of_isBalanced ts h)
    refine ⟨splitTopLevel_eq ts, fun part hpart => ?_, hsplits.joined⟩
    have hitem : IsItem part := hsplits.items part hpart
    refine ⟨hitem.balanced, ?_⟩
    rintro front rest rfl
    exact hitem.not_balanced

/-- The tokens of `(1, ()), *,`. -/
def nestedCommas : List Token :=
  [.lparen, .num "1", .comma, .lparen, .rparen, .rparen, .comma, .star, .comma]

theorem scans_follow_nesting_sample :
    nestedCommas[0]? = some .lparen ∧ isBalanced nestedCommas = true ∧
      IsLeast (balancedEnds nestedCommas 0) 5 ∧
      splitCommas 0 nestedCommas = [nestedCommas.take 6, [.star]] ∧
      (∀ part ∈ [nestedCommas.take 6, [.star]],
        Balanced part ∧ ∀ front rest, part = front ++ .comma :: rest → ¬ Balanced front) ∧
      nestedCommas = [.comma].intercalate [nestedCommas.take 6, [.star]] ++ [.comma] :=
  ⟨rfl, by decide, ((scans_follow_nesting.2.1 nestedCommas 0 rfl).2.1 5).mp rfl, rfl,
    (scans_follow_nesting.2.2 nestedCommas (by decide)).2.1,
    (scans_follow_nesting.2.2 nestedCommas (by decide)).2.2⟩

end SqlSnapshot.Indexed
