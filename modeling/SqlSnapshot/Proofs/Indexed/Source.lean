import SqlSnapshot.Proofs.Definition.FromNames
import SqlSnapshot.Proofs.Definition.Spelling.Source
import SqlSnapshot.Proofs.Indexed.Tokens

/-!
# Table sources by positions

The reader of a `FROM` clause reads a join tree in parentheses by itself; the tokens of the tree are
fewer than those of the clause.
-/

namespace SqlSnapshot.Indexed

open Token Source

variable {ts us rest : List Token} {t : Token} {ctes : List String}

/-! ## Joins and their conditions -/

def joinRound (t : Token) (i : Nat) (kind : JoinKind) :
    Checked (Round JoinKind (JoinKind × Nat)) :=
  if t.isKw "LEFT" then .ok (.goOn (i + 1) .left)
  else if t.isKw "RIGHT" then .ok (.goOn (i + 1) .right)
  else if t.isKw "FULL" then .ok (.goOn (i + 1) .full)
  else if t.isKw "OUTER" then .ok (.goOn (i + 1) (if kind = .inner then .left else kind))
  else if t.isAnyKw ["JOIN", "APPLY"] then .ok (.done (kind, i + 1))
  else if t.isAnyKw ["INNER", "CROSS", "HASH", "LOOP", "MERGE"] then .ok (.goOn (i + 1) kind)
  else .ok (.done (kind, i))

/-- The join whose words begin at a position, and the position behind them. -/
def readJoin (ts : List Token) (i : Nat) : Checked (JoinKind × Nat) :=
  scanFrom ts (fun i kind => (kind, i)) joinRound i .inner

def conditionRound (t : Token) (i depth : Nat) : Checked (Round Nat Nat) :=
  if depth = 0 ∧ (t = .comma ∨ t.isAnyKw joinWords = true) then .ok (.done i)
  else .ok (.goOn (i + 1) (depthAfter depth t))

/-- Where the join condition ends that begins at a position. -/
def skipCondition (ts : List Token) (i : Nat) : Checked Nat :=
  scanFrom ts (fun i _ => i) conditionRound i 0

theorem readJoin_scan (us : List Token) (h : us <:+ ts) (kind : JoinKind) :
    scanFrom ts (fun i kind => (kind, i)) joinRound (position ts us) kind =
      .ok ((Source.readJoin kind us).1, position ts (Source.readJoin kind us).2) := by
  induction us generalizing kind with
  | nil => exact scanFrom_nil
  | cons t us ih =>
    have hnext := position_cons h
    have hgoOn : ∀ kind', joinRound t (position ts (t :: us)) kind =
        .ok (.goOn (position ts (t :: us) + 1) kind') →
        scanFrom ts (fun i kind => (kind, i)) joinRound (position ts (t :: us)) kind =
          .ok ((Source.readJoin kind' us).1, position ts (Source.readJoin kind' us).2) := by
      intro kind' hround
      rw [← ih (isSuffix_tail h) kind', hnext]
      exact scanFrom_goOn h hround (Nat.le_of_eq hnext)
    rw [Source.readJoin]
    split
    · exact hgoOn .left (by simp_all [joinRound])
    split
    · exact hgoOn .right (by simp_all [joinRound])
    split
    · exact hgoOn .full (by simp_all [joinRound])
    split
    · exact hgoOn _ (by simp_all [joinRound])
    split
    · rw [hnext]
      exact scanFrom_done h (by simp_all [joinRound])
    split
    · exact hgoOn kind (by simp_all [joinRound])
    · exact scanFrom_done h (by simp_all [joinRound])

theorem readJoin_position (h : us <:+ ts) :
    readJoin ts (position ts us) =
      .ok ((Source.readJoin .inner us).1, position ts (Source.readJoin .inner us).2) :=
  readJoin_scan us h .inner

theorem skipCondition_scan (us : List Token) (h : us <:+ ts) (depth : Nat) :
    scanFrom ts (fun i _ => i) conditionRound (position ts us) depth =
      .ok (position ts (Source.skipCondition depth us)) := by
  induction us generalizing depth with
  | nil => exact scanFrom_nil
  | cons t us ih =>
    rw [Source.skipCondition]
    split
    · rename_i hend
      exact scanFrom_done h (if_pos hend)
    · rename_i hend
      rw [← ih (isSuffix_tail h), position_cons h]
      exact scanFrom_goOn h (if_neg hend) (Nat.le_of_eq (position_cons h))

theorem skipCondition_position (h : us <:+ ts) :
    skipCondition ts (position ts us) = .ok (position ts (Source.skipCondition 0 us)) :=
  skipCondition_scan us h 0

/-! ## Single sources -/

/-- Behind `WITH` and a group in parentheses, if they stand at a position. -/
def skipHints (ts : List Token) (i : Nat) : Option Nat :=
  if hasKw ts i "WITH" && hasParen ts (i + 1) then afterGroup ts (i + 1) else some i

/-- The sources that begin at a position, without their alias, and the position behind them; a join
tree in parentheses is read by `descend`. -/
def readShape (ctes : List String) (descend : List Token → Checked (List Source))
    (ts : List Token) (i : Nat) : Checked (Option (List Source × Nat)) :=
  match ts[i]? with
  | some .lparen =>
    andThen (readGroup ts i) fun (inner, i) =>
      if startsWithAnyKw ["SELECT", "WITH"] inner then .ok (some ([{}], i))
      else do return some (← descend inner, i)
  | some (.word _ _) =>
    andThen (readName ts i) fun (parts, i) =>
      if hasParen ts i then
        .ok (((afterGroup ts i).bind (skipHints ts)).map ([{ name := parts.getLast?.getD "" }], ·))
      else .ok (some ([ofName ctes parts], i))
  | _ => .ok none

/-- The alias at a position, where `AS` is skipped already, and the position behind it and its
column list. -/
def finishAlias (ts : List Token) (i : Nat) : Option (Option String × Nat) :=
  match (ts[i]?).bind aliasWord? with
  | none => some (none, i)
  | some text =>
    if hasParen ts (i + 1) then (afterGroup ts (i + 1)).map (some text, ·)
    else some (some text, i + 1)

def readAlias (ts : List Token) (i : Nat) : Option (Option String × Nat) :=
  finishAlias ts (if hasKw ts i "AS" then i + 1 else i)

def readSource (ctes : List String) (descend : List Token → Checked (List Source))
    (ts : List Token) (i : Nat) : Checked (Option (List Source × Nat)) :=
  andThen (readShape ctes descend ts i) fun (sources, i) =>
    .ok ((readAlias ts i).bind fun (aliasName, i) =>
      (skipHints ts i).map (withAlias aliasName sources, ·))

theorem skipHints_position (h : us <:+ ts) :
    skipHints ts (position ts us) = (skipHints? us).map (position ts) := by
  rw [skipHints, skipHints?, hasKw_eq, hasParen_eq, drop_position h, drop_position_add h]
  split
  · rename_i hhints
    rw [Bool.and_eq_true] at hhints
    have hlength : 0 < us.length := lt_length_of_startsWithKw hhints.1
    rw [← position_drop h hlength]
    exact afterGroup_position ((List.drop_suffix 1 us).trans h) hhints.2
  · rfl

theorem isSuffix_readShape? {shape : Shape} (h : readShape? us = some (shape, rest)) :
    rest <:+ us := by
  match us with
  | [] => cases h
  | t :: us =>
    by_cases ht : t = .lparen
    · subst ht
      rw [readShape?_group] at h
      obtain ⟨group, hclose, heq⟩ := Option.map_eq_some_iff.mp h
      cases heq
      exact (isSuffix_of_closeParen? hclose).trans (List.suffix_cons _ us)
    · rw [readShape?_name ht] at h
      obtain ⟨name, hname, h⟩ := Option.bind_eq_some_iff.mp h
      exact (isSuffix_finishShape? h).trans (isSuffix_readName? hname)

theorem finishAlias_position (h : us <:+ ts) :
    finishAlias ts (position ts us) = endingAt ts (finishAlias? us) := by
  rw [finishAlias, getElem?_position_zero h]
  match us with
  | [] => rfl
  | t :: us =>
    have hus : us <:+ ts := isSuffix_tail h
    rw [List.head?_cons, Option.bind_some, finishAlias?, ← position_cons h, hasParen_eq,
      drop_position hus]
    cases aliasWord? t with
    | none => rfl
    | some text =>
      dsimp only
      split
      · rename_i hparen
        rw [afterGroup_position hus hparen]
        cases skipGroup? us <;> rfl
      · rfl

theorem readAlias_position (h : us <:+ ts) :
    readAlias ts (position ts us) = endingAt ts (readAlias? us) := by
  have hstart : (if hasKw ts (position ts us) "AS" then position ts us + 1 else position ts us) =
      position ts (if startsWithKw "AS" us then us.drop 1 else us) := by
    rw [hasKw_eq, drop_position h]
    split
    · rename_i has
      exact (position_drop h (lt_length_of_startsWithKw has)).symm
    · rfl
  rw [readAlias, hstart, readAlias?_eq]
  exact finishAlias_position ((isSuffix_dropAs us).trans h)

/-- The sources of the parts of a clause are known; none of the parts is as long as the clause. -/
def ReadsParts (ctes : List String) (descend : List Token → Checked (List Source))
    (ts : List Token) : Prop :=
  ∀ inner : List Token, inner.length < ts.length → descend inner = .ok (ofClause ctes inner)

variable {descend : List Token → Checked (List Source)}

theorem readShape_position (hdescend : ReadsParts ctes descend ts) (h : us <:+ ts) :
    readShape ctes descend ts (position ts us) =
      .ok (endingAt ts ((readShape? us).map fun (shape, rest) => (ofShape ctes shape, rest))) := by
  rw [readShape, getElem?_position_zero h]
  match us with
  | [] => rfl
  | .lparen :: us =>
    rw [List.head?_cons, readGroup_position h, readShape?_group]
    cases hclose : closeParen? 0 us with
    | none => rfl
    | some group =>
      obtain ⟨inner, rest⟩ := group
      have hinner : inner.length < ts.length := by
        have hlength := length_closeParen? hclose
        have hle := h.length_le
        rw [List.length_cons] at hle
        omega
      simp only [endingAt, Option.map_some, andThen_some, groupShape, hdescend _ hinner]
      split <;> rfl
  | .word text quoted :: us =>
    rw [List.head?_cons, readName_position h, readShape?_name (by simp)]
    cases hname : readName? (.word text quoted :: us) with
    | none => rfl
    | some name =>
      have hrest : name.2 <:+ ts := (isSuffix_readName? hname).trans h
      simp only [endingAt, Option.map_some, andThen_some, hasParen_eq, drop_position hrest,
        Option.bind_some, finishShape?]
      split
      · rename_i hparen
        rw [afterGroup_position hrest hparen]
        cases hgroup : skipGroup? name.2 with
        | none => rfl
        | some behind =>
          have hbehind : behind <:+ ts := (isSuffix_skipGroup? hgroup).trans hrest
          simp only [Option.map_some, Option.bind_some, skipHints_position hbehind]
          cases skipHints? behind <;> rfl
      · rfl
  | .str _ :: _ | .num _ :: _ | .rparen :: _ | .comma :: _ | .period :: _
  | .equals :: _ | .semicolon :: _ | .star :: _ | .other _ :: _ => rfl

theorem readSource_position (hdescend : ReadsParts ctes descend ts) (h : us <:+ ts) :
    readSource ctes descend ts (position ts us) =
      .ok (endingAt ts ((readSource? us).map fun (shape, aliasName, rest) =>
        (withAlias aliasName (ofShape ctes shape), rest))) := by
  rw [readSource, readShape_position hdescend h, readSource?]
  cases hshape : readShape? us with
  | none => rfl
  | some shaped =>
    have hshaped : shaped.2 <:+ ts := (isSuffix_readShape? hshape).trans h
    simp only [endingAt, Option.map_some, andThen_some, readAlias_position hshaped]
    cases halias : readAlias? shaped.2 with
    | none => simp [halias]
    | some named =>
      have hnamed : named.2 <:+ ts := (isSuffix_readAlias? halias).trans hshaped
      simp only [Option.map_some, Option.bind_some, skipHints_position hnamed]
      cases hhints : skipHints? named.2 <;> simp [halias, hhints]

/-! ## Clauses -/

def fromRound (ctes : List String) (descend : List Token → Checked (List Source))
    (ts : List Token) (t : Token) (i : Nat) (state : JoinKind × List Source) :
    Checked (Round (JoinKind × List Source) (List Source)) := do
  if t = .comma then return .goOn (i + 1) (.inner, state.2)
  else if t.isAnyKw joinWords then
    let (kind, next) ← readJoin ts i
    return .goOn next (kind, state.2)
  else if t.isKw "ON" then return .goOn (← skipCondition ts (i + 1)) state
  else
    match ← readSource ctes descend ts i with
    | none => return .goOn (i + 1) state
    | some (sources, next) => return .goOn next (.inner, join state.1 state.2 sources)

/-- The sources of a `FROM` clause, whose tokens stand after `FROM`. -/
def parseFromClause (ctes : List String) (ts : List Token) : Checked (List Source) :=
  scanFrom ts (fun _ state => state.2)
    (fromRound ctes
      (fun inner =>
        if _h : inner.length < ts.length then parseFromClause ctes inner else .error .notShorter)
      ts)
    0 (.inner, [])
termination_by ts.length

theorem isSuffix_readJoin (kind : JoinKind) (us : List Token) :
    (Source.readJoin kind us).2 <:+ us := by
  obtain ⟨words, hus, -⟩ := exists_readJoin_append kind us
  exact ⟨words, hus.symm⟩

theorem isSuffix_skipCondition (depth : Nat) (us : List Token) :
    Source.skipCondition depth us <:+ us := by
  induction us generalizing depth with
  | nil => exact List.suffix_refl []
  | cons t us ih =>
    rw [Source.skipCondition]
    split
    · exact List.suffix_refl _
    · exact (ih _).trans (List.suffix_cons t us)

theorem isSuffix_readSource?
    {shape : Shape} {aliasName : Option String}
    (h : readSource? us = some (shape, aliasName, rest)) : rest <:+ us := by
  obtain ⟨shaped, hshape, h⟩ := Option.bind_eq_some_iff.mp h
  obtain ⟨named, halias, h⟩ := Option.bind_eq_some_iff.mp h
  obtain ⟨behind, hhints, h⟩ := Option.bind_eq_some_iff.mp h
  cases h
  exact (isSuffix_skipHints? hhints).trans
    ((isSuffix_readAlias? halias).trans (isSuffix_readShape? hshape))

theorem fromRound_scan
    (hdescend : ReadsParts ctes descend ts) (us : List Token) (h : us <:+ ts)
    (kind : JoinKind) (seen : List Source) :
    scanFrom ts (fun _ state => state.2) (fromRound ctes descend ts) (position ts us) (kind, seen) =
      .ok (collect ctes kind seen us) := by
  match us with
  | [] =>
    rw [collect]
    exact scanFrom_nil
  | t :: us =>
    have hus : us <:+ ts := isSuffix_tail h
    have hnext : position ts us = position ts (t :: us) + 1 := position_cons h
    have hround := fromRound.eq_1 ctes descend ts t (position ts (t :: us)) (kind, seen)
    rw [← hnext, readJoin_position h, skipCondition_position hus,
      readSource_position hdescend h] at hround
    by_cases hcomma : t = .comma
    · subst hcomma
      rw [scanFrom_goOn h hround (Nat.le_refl _), collect_comma]
      exact fromRound_scan hdescend us hus .inner seen
    rw [if_neg hcomma] at hround
    by_cases hjoin : t.isAnyKw joinWords = true
    · rw [if_pos hjoin] at hround
      have hbehind : (Source.readJoin .inner (t :: us)).2.length ≤ us.length :=
        length_readJoin_cons hjoin
      rw [scanFrom_goOn h hround (position_mono hbehind), collect_join hcomma hjoin]
      exact fromRound_scan hdescend _ ((isSuffix_readJoin .inner _).trans h) _ seen
    rw [if_neg hjoin] at hround
    by_cases hon : t.isKw "ON" = true
    · rw [if_pos hon] at hround
      have hbehind : (Source.skipCondition 0 us).length ≤ us.length := length_skipCondition 0 us
      rw [scanFrom_goOn h hround (position_mono hbehind), collect_on hcomma hjoin hon]
      exact fromRound_scan hdescend _ ((isSuffix_skipCondition 0 us).trans hus) kind seen
    rw [if_neg hon] at hround
    cases hsource : readSource? (t :: us) with
    | none =>
      rw [hsource] at hround
      rw [scanFrom_goOn h hround (Nat.le_refl _), collect_other hcomma hjoin hon hsource]
      exact fromRound_scan hdescend us hus kind seen
    | some found =>
      obtain ⟨shape, aliasName, rest⟩ := found
      rw [hsource] at hround
      have hbehind : rest.length ≤ us.length := Nat.le_of_lt_succ (length_readSource? hsource).1
      rw [scanFrom_goOn h hround (position_mono hbehind),
        collect_source hcomma hjoin hon hsource]
      exact fromRound_scan hdescend rest ((isSuffix_readSource? hsource).trans h) .inner _
termination_by us.length

/-- The join trees in a clause are shorter than the clause, and each is read as it is by itself. -/
theorem parseFromClause_eq (ctes : List String) (ts : List Token) :
    parseFromClause ctes ts = .ok (ofClause ctes ts) := by
  have hdescend : ReadsParts ctes
      (fun inner =>
        if _h : inner.length < ts.length then parseFromClause ctes inner else .error .notShorter)
      ts := by
    intro inner hinner
    dsimp only
    rw [dif_pos hinner]
    exact parseFromClause_eq ctes inner
  have hscan := fromRound_scan hdescend ts (List.suffix_refl ts) .inner []
  rw [position_self] at hscan
  rw [parseFromClause]
  exact hscan
termination_by ts.length

end SqlSnapshot.Indexed
