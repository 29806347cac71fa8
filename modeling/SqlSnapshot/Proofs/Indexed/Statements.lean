import SqlSnapshot.Proofs.Definition.Terminators
import SqlSnapshot.Proofs.Indexed.Tokens

/-!
# Ends of statements by positions

Where a statement ends that begins at a position.  The scan counts open parentheses and open `CASE`
expressions; it lowers a count only where something is open.
-/

namespace SqlSnapshot.Indexed

open Token

variable {ts us rest : List Token} {t prev : Token}

/-! ## Statements -/

/-- The keyword at the position starts a statement. -/
def isBoundary (ts : List Token) (i caseDepth : Nat) : Checked Bool := do
  let t ← tokenAt ts i
  let prev := if 0 < i then ts[i - 1]? else none
  if !t.isAnyKw Body.statementKeywords then return false
  else if prev.any fun p => p == .period || p.isKw "AS" then return false
  else if ts[i + 1]? = some .period then return false
  else if t.isKw "ELSE" then return caseDepth == 0
  else if t.isKw "SELECT" then
    return !prev.any (·.isAnyKw ["UNION", "ALL", "EXCEPT", "INTERSECT"])
  else if t.isKw "WITH" then return !hasParen ts (i + 1) && !hasKw ts (i + 1) "TIES"
  else return true

/-- The state counts the open parentheses and the open `CASE` expressions. -/
def statementRound (ts : List Token) (t : Token) (i : Nat) (counts : Nat × Nat) :
    Checked (Round (Nat × Nat) Nat) := do
  if t = .lparen then return .goOn (i + 1) (counts.1 + 1, counts.2)
  else if t = .rparen then
    if counts.1 = 0 then return .done i
    else return .goOn (i + 1) (← lower counts.1 1, counts.2)
  else if t = .semicolon ∧ counts.1 = 0 then return .done i
  else if counts.1 = 0 then
    if t.isKw "CASE" then return .goOn (i + 1) (counts.1, counts.2 + 1)
    else if t.isKw "END" ∧ 0 < counts.2 then
      return .goOn (i + 1) (counts.1, ← lower counts.2 1)
    else if ← isBoundary ts i counts.2 then return .done i
    else return .goOn (i + 1) counts
  else return .goOn (i + 1) counts

/-- Where the statement ends that starts at a position. -/
def statementEnd (ts : List Token) (start : Nat) : Checked Nat :=
  scanFrom ts (fun _ _ => ts.length) (statementRound ts) (start + 1) (0, 0)

theorem isBoundary_position (h : prev :: t :: us <:+ ts) (caseDepth : Nat) :
    isBoundary ts (position ts (t :: us)) caseDepth =
      .ok (Body.startsStatement prev t us caseDepth) := by
  have ht : t :: us <:+ ts := isSuffix_tail h
  have hprev : (if 0 < position ts (t :: us) then ts[position ts (t :: us) - 1]? else none) =
      some prev := by
    rw [position_cons h, if_pos (Nat.succ_pos _), Nat.add_sub_cancel]
    exact getElem?_position_zero h
  have hnext : ts[position ts (t :: us) + 1]? = us.head? := by
    rw [← position_cons ht, getElem?_position_zero (isSuffix_tail ht)]
  rw [isBoundary, tokenAt_position ht, ok_bind, hprev, hnext, hasParen_eq, hasKw_eq,
    ← position_cons ht, drop_position (isSuffix_tail ht), Body.startsStatement]
  simp only [Option.any_some, Bool.or_eq_true, beq_iff_eq]
  split
  · rfl
  split
  · rfl
  split
  · rfl
  split
  · rfl
  split
  · rfl
  split <;> rfl

/-- A round inside parentheses. -/
theorem statementRound_inside (ts : List Token) (t : Token) (i depth caseDepth : Nat) :
    statementRound ts t i (depth + 1, caseDepth) =
      .ok (.goOn (i + 1) (depthAfter (depth + 1) t, caseDepth)) := by
  rw [statementRound]
  cases t <;> rfl

/-- A round outside parentheses. -/
theorem statementRound_outside (h : prev :: t :: us <:+ ts) (caseDepth : Nat) :
    statementRound ts t (position ts (t :: us)) (0, caseDepth) =
      .ok (if t = .rparen ∨ t = .semicolon then .done (position ts (t :: us))
        else if t.isKw "CASE" then .goOn (position ts us) (0, caseDepth + 1)
        else if t.isKw "END" ∧ 0 < caseDepth then .goOn (position ts us) (0, caseDepth - 1)
        else if Body.startsStatement prev t us caseDepth then .done (position ts (t :: us))
        else .goOn (position ts us) (depthAfter 0 t, caseDepth)) := by
  rw [statementRound, isBoundary_position h, position_cons (isSuffix_tail h), ok_bind]
  by_cases hparen : t = .lparen
  · subst hparen
    rfl
  by_cases hstop : t = .rparen ∨ t = .semicolon
  · rcases hstop with rfl | rfl <;> rfl
  have hdepth : depthAfter 0 t = 0 := by
    cases t <;> first | rfl | exact absurd rfl hparen
  rw [if_neg hparen, if_neg (mt .inl hstop), if_neg fun hboth => hstop (.inr hboth.1), if_pos rfl,
    if_neg hstop, hdepth]
  split
  · rfl
  split
  · rename_i hend
    rw [lower_of_le hend.2]
    rfl
  split <;> rfl

theorem statementEnd_scan
    (us : List Token) (prev : Token) (h : prev :: us <:+ ts) (depth caseDepth : Nat) :
    scanFrom ts (fun _ _ => ts.length) (statementRound ts) (position ts us) (depth, caseDepth) =
      .ok (position ts (Body.cutStatement prev depth caseDepth us).2) := by
  induction us generalizing prev depth caseDepth with
  | nil => exact scanFrom_nil
  | cons t us ih =>
    have ht : t :: us <:+ ts := isSuffix_tail h
    have hstep : ∀ depth' caseDepth',
        statementRound ts t (position ts (t :: us)) (depth, caseDepth) =
          .ok (.goOn (position ts us) (depth', caseDepth')) →
        scanFrom ts (fun _ _ => ts.length) (statementRound ts) (position ts (t :: us))
            (depth, caseDepth) =
          .ok (position ts (Body.cutStatement t depth' caseDepth' us).2) := by
      intro depth' caseDepth' hgoOn
      rw [scanFrom_goOn ht hgoOn (Nat.le_refl _)]
      exact ih t ht depth' caseDepth'
    rw [Body.cutStatement]
    cases depth with
    | succ depth =>
      have hround := statementRound_inside ts t (position ts (t :: us)) depth caseDepth
      rw [← position_cons ht] at hround
      exact hstep _ _ hround
    | zero =>
      have hround := statementRound_outside h caseDepth
      rw [if_pos rfl]
      split
      · rename_i hstop
        rw [if_pos hstop] at hround
        exact scanFrom_done ht hround
      rename_i hstop
      rw [if_neg hstop] at hround
      split
      · rename_i hcase
        rw [if_pos hcase] at hround
        exact hstep _ _ hround
      rename_i hcase
      rw [if_neg hcase] at hround
      split
      · rename_i hend
        rw [if_pos hend] at hround
        exact hstep _ _ hround
      rename_i hend
      rw [if_neg hend] at hround
      split
      · rename_i hstarts
        rw [if_pos hstarts] at hround
        exact scanFrom_done ht hround
      · rename_i hstarts
        rw [if_neg hstarts] at hround
        exact hstep _ _ hround

theorem statementEnd_position (h : us <:+ ts) :
    statementEnd ts (position ts us) = .ok (position ts (Body.afterStatement us)) := by
  cases us with
  | nil => exact scanFrom_end (Nat.le_succ _)
  | cons t us =>
    rw [statementEnd, ← position_cons h]
    exact statementEnd_scan us t h 0 0

/-! ## Statements that hold others -/

/-- The position behind the first terminator outside parentheses, where `depth` are open before the
token at position `i`; without one it is `last`. -/
def semicolonFrom (last depth i : Nat) : List Token → Nat
  | [] => last
  | t :: ts =>
    if t = .semicolon ∧ depth = 0 then i + 1 else semicolonFrom last (depthAfter depth t) (i + 1) ts

def semicolonEnd (ts : List Token) (start : Nat) : Nat :=
  semicolonFrom ts.length 0 start (ts.drop start)

/-- Where an `UPDATE` ends: its statement goes on to the next `SET`. -/
def updateEnd (ts : List Token) (start : Nat) : Checked Nat :=
  statementEnd ts ((findKw ts (start + 1) ["SET"]).getD start)

def hintsEnd (ts : List Token) (i : Nat) : Nat :=
  if hasKw ts i "WITH" && hasParen ts (i + 1) then (afterGroup ts (i + 1)).getD (i + 1) else i

def columnsEnd (ts : List Token) (i : Nat) : Nat :=
  if hasParen ts i then (afterGroup ts i).getD (i + 1) else i

def outputEnd (ts : List Token) (i : Nat) : Nat :=
  if hasKw ts i "OUTPUT" then
    (findKw ts i ["SELECT", "VALUES", "EXEC", "EXECUTE", "DEFAULT"]).getD i
  else i

/-- Where an `INSERT` ends, whose source statement belongs to it. -/
def insertEnd (ts : List Token) (start : Nat) : Checked Nat := do
  match ← readName ts (if hasKw ts (start + 1) "INTO" then start + 2 else start + 1) with
  | none => statementEnd ts start
  | some (_, i) => statementEnd ts (outputEnd ts (columnsEnd ts (hintsEnd ts i)))

/-- Where a `DECLARE` ends; a cursor keeps the select that it is declared for. -/
def declareEnd (ts : List Token) (start : Nat) : Checked Nat :=
  if ((ts.drop (start + 1)).take 3).any (·.isKw "CURSOR") then
    match findKw ts (start + 1) ["FOR"] with
    | some forWord =>
      if hasKw ts (forWord + 1) "SELECT" then statementEnd ts (forWord + 1)
      else statementEnd ts start
    | none => statementEnd ts start
  else statementEnd ts start

theorem semicolonFrom_position (h : us <:+ ts) (depth : Nat) :
    semicolonFrom ts.length depth (position ts us) us =
      position ts (Body.afterSemicolon depth us) := by
  induction us generalizing depth with
  | nil => rfl
  | cons t us ih =>
    rw [semicolonFrom, Body.afterSemicolon, ← position_cons h, ih (isSuffix_tail h)]
    split <;> rfl

/-- A `MERGE` ends behind a terminator, which its keyword is not. -/
theorem semicolonEnd_position (h : t :: us <:+ ts) (ht : t.isKw "MERGE" = true) :
    semicolonEnd ts (position ts (t :: us)) = position ts (Body.afterSemicolon 0 us) := by
  have hterminator : t ≠ .semicolon := ne_of_isAnyKw ht rfl
  rw [semicolonEnd, drop_position h, semicolonFrom_position h, Body.afterSemicolon,
    if_neg fun hboth => hterminator hboth.1, depthAfter_of_isAnyKw ht]

theorem updateEnd_position (h : t :: us <:+ ts) :
    updateEnd ts (position ts (t :: us)) = .ok (position ts (Body.afterUpdate t us)) := by
  have hus : us <:+ ts := isSuffix_tail h
  rw [updateEnd, ← position_cons h, findKw_position hus, Body.afterUpdate]
  cases hset : fromKw ["SET"] us with
  | nil => exact statementEnd_position h
  | cons u rest => exact statementEnd_position (hset ▸ (isSuffix_fromKw ["SET"] us).trans hus)

theorem hintsEnd_position (h : us <:+ ts) :
    hintsEnd ts (position ts us) = position ts (Body.skipHints us) := by
  rw [hintsEnd, Body.skipHints, hasKw_eq, hasParen_eq, drop_position h, drop_position_add h]
  split
  · rename_i hhints
    rw [Bool.and_eq_true] at hhints
    have hlength : 0 < us.length := lt_length_of_startsWithKw hhints.1
    rw [← position_drop h hlength, afterGroup_position ((List.drop_suffix 1 us).trans h) hhints.2]
    cases skipGroup? (us.drop 1) <;> rfl
  · rfl

theorem columnsEnd_position (h : us <:+ ts) :
    columnsEnd ts (position ts us) = position ts (Body.skipColumns us) := by
  rw [columnsEnd, Body.skipColumns, hasParen_eq, drop_position h]
  split
  · rename_i hparen
    have hlength : 0 < us.length := lt_length_of_startsWithParen hparen
    rw [← position_drop h hlength, afterGroup_position h hparen]
    cases skipGroup? us <;> rfl
  · rfl

theorem outputEnd_position (h : us <:+ ts) :
    outputEnd ts (position ts us) = position ts (Body.skipOutput us) := by
  rw [outputEnd, Body.skipOutput, hasKw_eq, drop_position h, findKw_position h]
  split
  · cases fromKw ["SELECT", "VALUES", "EXEC", "EXECUTE", "DEFAULT"] us <;> rfl
  · rfl

theorem insertEnd_position (h : t :: us <:+ ts) :
    insertEnd ts (position ts (t :: us)) = .ok (position ts (Body.afterInsert t us)) := by
  have hus : us <:+ ts := isSuffix_tail h
  have htarget : Body.insertTarget us <:+ ts := (Body.isSuffix_insertTarget us).trans hus
  have hstart : (if hasKw ts (position ts (t :: us) + 1) "INTO" then position ts (t :: us) + 2
      else position ts (t :: us) + 1) = position ts (Body.insertTarget us) := by
    rw [hasKw_eq, ← position_cons h, drop_position hus, Body.insertTarget]
    split
    · rename_i hinto
      rw [position_drop hus (lt_length_of_startsWithKw hinto), position_cons h]
    · rfl
  rw [insertEnd, hstart, readName_position htarget, ok_bind, Body.afterInsert_eq]
  cases hname : readName? (Body.insertTarget us) with
  | none => exact statementEnd_position h
  | some name =>
    have hrest : name.2 <:+ ts := (isSuffix_readName? hname).trans htarget
    have hhints := (Body.isSuffix_skipHints name.2).trans hrest
    have hcolumns := (Body.isSuffix_skipColumns _).trans hhints
    simp only [endingAt, Option.map_some, hintsEnd_position hrest, columnsEnd_position hhints,
      outputEnd_position hcolumns]
    exact statementEnd_position ((Body.isSuffix_skipOutput _).trans hcolumns)

theorem declareEnd_position (h : t :: us <:+ ts) :
    declareEnd ts (position ts (t :: us)) = .ok (position ts (Body.afterDeclare t us)) := by
  have hus : us <:+ ts := isSuffix_tail h
  have hstart := statementEnd_position h
  rw [declareEnd, ← position_cons h, drop_position hus, findKw_position hus, Body.afterDeclare]
  cases (us.take 3).any (·.isKw "CURSOR") with
  | false => exact hstart
  | true =>
    cases hquery : fromKw ["FOR"] us with
    | nil => exact hstart
    | cons u rest =>
      have hfor : u :: rest <:+ ts := hquery ▸ (isSuffix_fromKw ["FOR"] us).trans hus
      have hrest : rest <:+ ts := isSuffix_tail hfor
      rw [if_pos rfl, if_neg (List.cons_ne_nil u rest), List.drop_one, List.tail_cons,
        Bool.true_and]
      dsimp only
      rw [← position_cons hfor, hasKw_eq, drop_position hrest]
      split
      · exact statementEnd_position hrest
      · exact hstart

end SqlSnapshot.Indexed
