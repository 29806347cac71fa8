import SqlSnapshot.Proofs.Definition.Spelling.Definition
import SqlSnapshot.Proofs.Indexed.Tokens

/-!
# Headers by positions

The reader of headers goes from position to position up to the first token of the body.  The skip of
options takes `EXECUTE AS` and one more token at once and may so end behind the list; what follows
is only looked up, and no `AS` stands there.
-/

namespace SqlSnapshot.Indexed

open Token

variable {ts us rest taken : List Token} {t : Token}

/-! ## Before the parameters -/

def skipOrAlter (ts : List Token) (i : Nat) : Checked Nat :=
  if hasKw ts i "OR" then
    if hasKw ts (i + 1) "ALTER" then .ok (i + 2) else refuse .expectedOrAlter
  else .ok i

/-- The position behind `CREATE PROCEDURE` in any of its spellings. -/
def afterCreate (ts : List Token) : Checked Nat :=
  match ts.findIdx? (·.isAnyKw ["CREATE", "ALTER"]) with
  | none => refuse .expectedCreate
  | some create => do
    let i ← skipOrAlter ts (create + 1)
    if hasAnyKw ts i ["PROC", "PROCEDURE"] then return i + 1 else refuse .expectedCreate

def skipNumber (ts : List Token) (i : Nat) : Nat :=
  match ts[i]?, ts[i + 1]? with
  | some .semicolon, some (.num _) => i + 2
  | _, _ => i

theorem isSuffix_skipOrAlter (h : Header.skipOrAlter us = .ok rest) : rest <:+ us := by
  unfold Header.skipOrAlter at h
  split at h
  · split at h <;> cases h
    exact List.drop_suffix 2 us
  · cases h
    exact List.suffix_refl us

theorem skipOrAlter_position (h : us <:+ ts) :
    skipOrAlter ts (position ts us) = ofOutcome ((Header.skipOrAlter us).map (position ts)) := by
  rw [skipOrAlter, Header.skipOrAlter, hasKw_eq, hasKw_eq, drop_position h, drop_position_add h]
  split
  · split
    · rename_i halter
      exact congrArg Except.ok (position_drop h (lt_length_of_startsWithKw halter)).symm
    · rfl
  · rfl

theorem isSuffix_afterCreate (h : Header.afterCreate ts = .ok rest) : rest <:+ ts := by
  unfold Header.afterCreate at h
  split at h
  · cases h
  · rename_i t us hdrop
    have hus : us <:+ ts :=
      (List.suffix_cons t us).trans (hdrop ▸ List.dropWhile_suffix _)
    obtain ⟨vs, hvs, h⟩ := exists_of_bind_eq_ok h
    split at h <;> cases h
    exact (List.drop_suffix 1 vs).trans ((isSuffix_skipOrAlter hvs).trans hus)

theorem afterCreate_eq (ts : List Token) :
    afterCreate ts = ofOutcome ((Header.afterCreate ts).map (position ts)) := by
  rw [afterCreate, Header.afterCreate, List.findIdx?_eq_guard_findIdx_lt,
    List.dropWhile_eq_drop_findIdx_not]
  simp only [Bool.not_not]
  generalize ts.findIdx _ = create
  by_cases hcreate : create < ts.length
  · obtain ⟨t, us, hdrop⟩ : ∃ t us, ts.drop create = t :: us :=
      ⟨_, _, List.drop_eq_getElem_cons hcreate⟩
    have hsuffix : t :: us <:+ ts := hdrop ▸ List.drop_suffix create ts
    have hus : us <:+ ts := isSuffix_tail hsuffix
    have hstart : create + 1 = position ts us := by
      rw [position_cons hsuffix, ← hdrop, position_drop_self (Nat.le_of_lt hcreate)]
    simp only [hdrop, Option.guard, decide_eq_true hcreate, if_true, hstart,
      skipOrAlter_position hus]
    cases halter : Header.skipOrAlter us with
    | error e => rfl
    | ok vs =>
      have hvs : vs <:+ ts := (isSuffix_skipOrAlter halter).trans hus
      simp only [Except.map, ofOutcome_ok, ok_bind, hasAnyKw_eq, drop_position hvs]
      split
      · rename_i hproc
        have hlength : 0 < vs.length := lt_length_of_startsWithAnyKw hproc
        exact congrArg Except.ok (position_drop hvs hlength).symm
      · rfl
  · rw [Option.guard, decide_eq_false hcreate, List.drop_eq_nil_of_le (Nat.not_lt.mp hcreate)]
    rfl

theorem isSuffix_skipNumber (ts : List Token) : Header.skipNumber ts <:+ ts := by
  unfold Header.skipNumber
  split
  · exact (List.suffix_cons _ _).trans (List.suffix_cons _ _)
  · exact List.suffix_refl _

theorem skipNumber_position (h : us <:+ ts) :
    skipNumber ts (position ts us) = position ts (Header.skipNumber us) := by
  rw [skipNumber, getElem?_position_zero h, getElem?_position h 1]
  match us with
  | [] => rfl
  | [t] => cases t <;> rfl
  | t :: u :: us =>
    cases t with
    | semicolon =>
      cases u with
      | num digits => exact (position_append [.semicolon, .num digits] h).symm
      | _ => rfl
    | _ => rfl

/-! ## Parameters -/

/-- The token before the position `i` is a variable of the list that begins at `start`. -/
def followsVariable (ts : List Token) (start i : Nat) : Checked Bool := do
  if start < i then
    let prev ← tokenAt ts (← lower i 1)
    return prev.isVariable
  else return false

def headerEndRound (ts : List Token) (start : Nat) (t : Token) (i depth : Nat) :
    Checked (Round Nat Nat) := do
  if depth = 0 ∧ t.isAnyKw ["AS", "WITH", "FOR"] = true then
    if ← followsVariable ts start i then return .goOn (i + 1) depth else return .done i
  else return .goOn (i + 1) (depthAfter depth t)

/-- Where a list of bare parameters ends that begins at a position. -/
def headerEnd (ts : List Token) (start : Nat) : Checked Nat :=
  scanFrom ts (fun _ _ => ts.length) (headerEndRound ts start) start 0

theorem append_cutParameters (afterVariable : Bool) (depth : Nat) (us : List Token) :
    (Header.cutParameters afterVariable depth us).1 ++
      (Header.cutParameters afterVariable depth us).2 = us := by
  induction us generalizing afterVariable depth with
  | nil => rfl
  | cons t us ih =>
    rw [Header.cutParameters]
    split
    · rfl
    · exact congrArg (t :: ·) (ih _ _)

theorem followsVariable_position (h : taken ++ us <:+ ts) :
    followsVariable ts (position ts (taken ++ us)) (position ts us) =
      .ok (taken.getLast?.any (·.isVariable)) := by
  rcases List.eq_nil_or_concat taken with rfl | ⟨front, prev, rfl⟩
  · rw [followsVariable, List.nil_append, if_neg (Nat.lt_irrefl _)]
    rfl
  · rw [List.concat_eq_append] at h ⊢
    have hprev : prev :: us <:+ ts := by
      rw [List.append_assoc] at h
      exact (List.suffix_append front _).trans h
    have hstart : position ts ((front ++ [prev]) ++ us) < position ts us := by
      rw [position_append _ h]
      exact Nat.lt_add_of_pos_right (by simp)
    rw [followsVariable, if_pos hstart, lower_position hprev, ok_bind, tokenAt_position hprev,
      ok_bind, List.getLast?_concat]
    rfl

theorem headerEnd_scan (us taken : List Token) (h : taken ++ us <:+ ts) (depth : Nat) :
    scanFrom ts (fun _ _ => ts.length) (headerEndRound ts (position ts (taken ++ us)))
        (position ts us) depth =
      .ok (position ts
        (Header.cutParameters (taken.getLast?.any (·.isVariable)) depth us).2) := by
  induction us generalizing taken depth with
  | nil => exact scanFrom_nil
  | cons t us ih =>
    have hus : t :: us <:+ ts := (List.suffix_append taken _).trans h
    have hnext : position ts us = position ts (t :: us) + 1 := position_cons hus
    have hlater := ih (taken ++ [t]) (by rwa [List.append_assoc]) (depthAfter depth t)
    rw [List.append_assoc, List.getLast?_concat, List.singleton_append, hnext] at hlater
    have hround := headerEndRound.eq_1 ts (position ts (taken ++ t :: us)) t
      (position ts (t :: us)) depth
    rw [followsVariable_position h, ok_bind] at hround
    rw [Header.cutParameters]
    by_cases hkeyword : depth = 0 ∧ t.isAnyKw ["AS", "WITH", "FOR"] = true
    · rw [if_pos hkeyword] at hround
      cases hafter : taken.getLast?.any (·.isVariable) with
      | true =>
        rw [hafter, if_pos rfl] at hround
        rw [depthAfter_of_isAnyKw hkeyword.2] at hlater ⊢
        rw [scanFrom_goOn hus hround (Nat.le_of_eq hnext), if_neg (by simp)]
        exact hlater
      | false =>
        rw [hafter, if_neg Bool.false_ne_true] at hround
        rw [scanFrom_done hus hround, if_pos ⟨hkeyword.1, hkeyword.2, rfl⟩]
    · rw [if_neg hkeyword] at hround
      rw [scanFrom_goOn hus hround (Nat.le_of_eq hnext),
        if_neg fun hcut => hkeyword ⟨hcut.1, hcut.2.1⟩]
      exact hlater

theorem headerEnd_position (h : us <:+ ts) :
    headerEnd ts (position ts us) = .ok (position ts (Header.cutParameters false 0 us).2) :=
  headerEnd_scan us [] h 0

def readParameter (part : List Token) : Checked Parameter :=
  match part.head? with
  | some (.word text false) =>
    if Token.isVariable (.word text false) then do
      match ← readType part (if hasKw part 1 "AS" then 2 else 1) with
      | none => refuse (.missingParameterType text)
      | some (sqlType, i) =>
        let rest ← slice part i part.length
        return {
          name := Header.bareName text
          sqlType
          isOutput := rest.any (·.isAnyKw ["OUT", "OUTPUT"])
          hasDefault := rest.any (· == .equals)
          isReadonly := rest.any (·.isKw "READONLY") }
    else refuse .expectedParameterName
  | _ => refuse .expectedParameterName

def readParameters (ts : List Token) : Checked (List Parameter) := do
  let parts ← splitTopLevel ts
  (parts.filter fun part => !part.isEmpty).mapM readParameter

/-- The parameters in parentheses or bare, and the position behind them. -/
def parameterList (ts : List Token) (i : Nat) : Checked (List Parameter × Nat) := do
  if hasParen ts i && (ts[i + 1]?).any (·.isVariable) then
    match ← readGroup ts i with
    | none => refuse .unterminatedParameters
    | some (list, next) => return (← readParameters list, next)
  else
    let stop ← headerEnd ts i
    return (← readParameters (← slice ts i stop), stop)

theorem isSuffix_readType? {sqlType : String} (h : readType? us = some (sqlType, rest)) :
    rest <:+ us := by
  cases hname : readName? us with
  | none =>
    rw [readType?, hname] at h
    cases h
  | some name =>
    obtain ⟨parts, vs⟩ := name
    have hvs : vs <:+ us := isSuffix_readName? hname
    by_cases hparen : startsWithParen vs = true
    · obtain ⟨vs, rfl⟩ := exists_of_startsWithParen hparen
      rw [readType?_of_group hname] at h
      obtain ⟨group, hclose, heq⟩ := Option.map_eq_some_iff.mp h
      cases heq
      exact (isSuffix_of_closeParen? hclose).trans (isSuffix_tail hvs)
    · rw [readType?_of_name hname (eq_false_of_ne_true hparen)] at h
      cases h
      exact hvs

theorem readParameter_eq (part : List Token) :
    readParameter part = ofOutcome (Header.readParameter part) := by
  match part with
  | [] => rfl
  | .word text false :: us =>
    have hus : us <:+ .word text false :: us := List.suffix_cons _ us
    have hone : position (.word text false :: us) us = 1 := by
      rw [position_cons (List.suffix_refl _), position_self]
    have hstart : (if hasKw (.word text false :: us) 1 "AS" then 2 else 1) =
        position (.word text false :: us) (if startsWithKw "AS" us then us.drop 1 else us) := by
      rw [hasKw_eq, List.drop_one, List.tail_cons]
      split
      · rename_i has
        have hlength : 0 < us.length := lt_length_of_startsWithKw has
        rw [position_drop hus hlength, hone]
      · exact hone.symm
    have htype : (if startsWithKw "AS" us then us.drop 1 else us) <:+ .word text false :: us := by
      split
      · exact (List.drop_suffix 1 us).trans hus
      · exact hus
    rw [readParameter, List.head?_cons, Header.readParameter]
    dsimp only
    split
    · rw [hstart, readType_position htype, ok_bind]
      generalize (if startsWithKw "AS" us then us.drop 1 else us) = vs at htype
      cases hread : readType? vs with
      | none => rfl
      | some found =>
        obtain ⟨sqlType, rest⟩ := found
        have hrest : rest <:+ .word text false :: us := (isSuffix_readType? hread).trans htype
        simp only [endingAt, Option.map_some, slice_position_length hrest, ok_bind]
        rfl
    · rfl
  | .word text true :: us => rfl
  | .str _ :: _ | .num _ :: _ | .lparen :: _ | .rparen :: _ | .comma :: _ | .period :: _
  | .equals :: _ | .semicolon :: _ | .star :: _ | .other _ :: _ => rfl

theorem readParameters_eq (ts : List Token) :
    readParameters ts = ofOutcome (Header.readParameters ts) := by
  rw [readParameters, splitTopLevel_eq, ok_bind]
  exact mapM_ofOutcome fun part _ => readParameter_eq part

/-! ## Behind the parameters -/

def optionRound (ts : List Token) (t : Token) (i : Nat) (_ : Unit) : Checked (Round Unit Nat) :=
  if t.isAnyKw ["EXECUTE", "EXEC"] && hasKw ts (i + 1) "AS" then .ok (.goOn (i + 3) ())
  else if t.isAnyKw ["AS", "FOR"] then .ok (.done i)
  else .ok (.goOn (i + 1) ())

def skipOptions (ts : List Token) (i : Nat) : Checked Nat :=
  scanFrom ts (fun i _ => i) (optionRound ts) i ()

def afterWith (ts : List Token) (i : Nat) : Checked Nat :=
  if hasKw ts i "WITH" then skipOptions ts (i + 1) else .ok i

def afterOptions (ts : List Token) (i : Nat) : Checked Nat := do
  let i ← afterWith ts i
  return if hasKw ts i "FOR" && hasKw ts (i + 1) "REPLICATION" then i + 2 else i

theorem skipOptions_cons (t : Token) (us : List Token) :
    Header.skipOptions (t :: us) =
      if t.isAnyKw ["EXECUTE", "EXEC"] && startsWithKw "AS" us then Header.skipOptions (us.drop 2)
      else if t.isAnyKw ["AS", "FOR"] then t :: us
      else Header.skipOptions us := by
  match us with
  | [] => simp [Header.skipOptions, startsWithKw]
  | [u] => simp [Header.skipOptions, startsWithKw, Header.isExecuteAs]
  | u :: v :: us => simp [Header.skipOptions, startsWithKw, Header.isExecuteAs]

/-- The position may lie behind the list, as `EXECUTE AS` takes one more token whether there is one
or not. -/
theorem exists_skipOptions (us : List Token) (h : us <:+ ts) :
    ∃ i, skipOptions ts (position ts us) = .ok i ∧ ts.drop i = Header.skipOptions us := by
  match us with
  | [] => exact ⟨ts.length, scanFrom_nil, List.drop_length⟩
  | t :: us =>
    have hus : us <:+ ts := isSuffix_tail h
    have hnext : position ts us = position ts (t :: us) + 1 := position_cons h
    have hround := optionRound.eq_1 ts t (position ts (t :: us)) ()
    rw [hasKw_eq, ← hnext, drop_position hus] at hround
    rw [skipOptions, skipOptions_cons]
    split
    · rename_i hexecute
      rw [if_pos hexecute] at hround
      rw [scanFrom_goOn h hround (by omega)]
      by_cases hlength : 2 ≤ us.length
      · have hbehind : position ts (t :: us) + 3 = position ts (us.drop 2) := by
          rw [position_drop hus hlength, hnext]
        rw [hbehind]
        exact exists_skipOptions (us.drop 2) ((List.drop_suffix 2 us).trans hus)
      · have hend : us.drop 2 = [] := List.drop_eq_nil_of_le (by omega)
        have hbehind : ts.length ≤ position ts (t :: us) + 3 := by
          have hlength := hus.length_le
          simp only [position, List.length_cons] at hnext ⊢
          omega
        rw [hend]
        exact ⟨_, scanFrom_end hbehind, List.drop_eq_nil_of_le hbehind⟩
    · rename_i hexecute
      rw [if_neg hexecute] at hround
      split
      · rename_i hstop
        rw [if_pos hstop] at hround
        exact ⟨_, scanFrom_done h hround, drop_position h⟩
      · rename_i hstop
        rw [if_neg hstop] at hround
        rw [scanFrom_goOn h hround (Nat.le_refl _)]
        exact exists_skipOptions us hus
termination_by us.length

theorem exists_afterWith (h : us <:+ ts) :
    ∃ i, afterWith ts (position ts us) = .ok i ∧
      ts.drop i = if startsWithKw "WITH" us then Header.skipOptions (us.drop 1) else us := by
  rw [afterWith, hasKw_eq, drop_position h]
  split
  · rename_i hwith
    have hlength : 0 < us.length := lt_length_of_startsWithKw hwith
    rw [← position_drop h hlength]
    exact exists_skipOptions (us.drop 1) ((List.drop_suffix 1 us).trans h)
  · exact ⟨_, rfl, drop_position h⟩

theorem exists_afterOptions (h : us <:+ ts) :
    ∃ i, afterOptions ts (position ts us) = .ok i ∧ ts.drop i = Header.afterOptions us := by
  obtain ⟨i, hskip, hdrop⟩ := exists_afterWith h
  rw [afterOptions, hskip, ok_bind, Header.afterOptions, ← hdrop, hasKw_eq, hasKw_eq,
    ← List.drop_drop]
  split
  · exact ⟨i + 2, rfl, List.drop_drop.symm⟩
  · exact ⟨i, rfl, rfl⟩

/-! ## Headers -/

/-- The name, the parameters and the position of the first token of the body. -/
def parseHeader (ts : List Token) : Checked (List String × List Parameter × Nat) := do
  let i ← afterCreate ts
  match ← readName ts i with
  | none => refuse .missingName
  | some (name, i) =>
    let (parameters, i) ← parameterList ts (skipNumber ts i)
    let i ← afterOptions ts i
    if hasKw ts i "AS" then return (name, parameters, i + 1) else refuse .expectedBody

theorem parameterList_of_bare
    (h : (startsWithParen us && (us[1]?).any (·.isVariable)) = false) :
    Header.parameterList us = Header.bareList us := by
  by_cases hparen : ∃ t vs, us = .lparen :: t :: vs
  · obtain ⟨t, vs, rfl⟩ := hparen
    have ht : ¬ t.isVariable = true := fun ht => absurd (h.symm.trans ht) Bool.false_ne_true
    rw [Header.parameterList_group, if_neg ht]
  · exact Header.parameterList_bare fun t vs heq => hparen ⟨t, vs, heq⟩

theorem readParameters_withRest (list rest : List Token) :
    (do return (← readParameters list, position ts rest)) =
      ofOutcome ((Header.withRest rest list).map fun (list, rest) => (list, position ts rest)) := by
  rw [readParameters_eq, Header.withRest]
  cases Header.readParameters list <;> rfl

theorem parameterList_position (h : us <:+ ts) :
    parameterList ts (position ts us) =
      ofOutcome ((Header.parameterList us).map fun (list, rest) => (list, position ts rest)) := by
  rw [parameterList, hasParen_eq, drop_position h, getElem?_position h 1]
  split
  · rename_i hgroup
    match us, hgroup with
    | .lparen :: t :: us, hgroup =>
      have ht : t.isVariable = true := hgroup
      rw [readGroup_position h, ok_bind, Header.parameterList_group, if_pos ht, Header.groupedList]
      cases hclose : closeParen? 0 (t :: us) with
      | none => rfl
      | some group => exact readParameters_withRest group.1 group.2
    | [.lparen], hgroup => cases hgroup
  · rename_i hbare
    have hcut := append_cutParameters false 0 us
    have hslice : slice ts (position ts us)
        (position ts (Header.cutParameters false 0 us).2) =
          .ok (Header.cutParameters false 0 us).1 :=
      slice_position hcut h
    rw [headerEnd_position h, ok_bind, hslice, ok_bind,
      parameterList_of_bare (eq_false_of_ne_true hbare)]
    exact readParameters_withRest _ _

theorem isSuffix_parameterList
    {list : List Parameter} (h : Header.parameterList us = .ok (list, rest)) : rest <:+ us := by
  by_cases hgroup : (startsWithParen us && (us[1]?).any (·.isVariable)) = true
  · match us, hgroup with
    | .lparen :: t :: us, hgroup =>
      have ht : t.isVariable = true := hgroup
      rw [Header.parameterList_group, if_pos ht, Header.groupedList] at h
      split at h
      · cases h
      · rename_i inner behind hclose
        obtain ⟨parameters, -, heq⟩ := exists_of_map_eq_ok h
        cases heq
        exact (isSuffix_of_closeParen? hclose).trans (List.suffix_cons _ _)
    | [.lparen], hgroup => cases hgroup
  · rw [parameterList_of_bare (eq_false_of_ne_true hgroup)] at h
    obtain ⟨parameters, -, heq⟩ := exists_of_map_eq_ok h
    cases heq
    exact ⟨_, append_cutParameters false 0 us⟩

theorem parseHeader_eq (ts : List Token) :
    parseHeader ts =
      ofOutcome ((Header.parse ts).map fun header =>
        (header.name, header.parameters, position ts header.body)) := by
  rw [parseHeader, afterCreate_eq, Header.parse]
  cases hcreate : Header.afterCreate ts with
  | error e => rfl
  | ok us =>
    have hus : us <:+ ts := isSuffix_afterCreate hcreate
    simp only [Except.map, ofOutcome_ok, ok_bind, readName_position hus]
    cases hname : readName? us with
    | none => rfl
    | some name =>
      have hnumber : Header.skipNumber name.2 <:+ ts :=
        (isSuffix_skipNumber _).trans ((isSuffix_readName? hname).trans hus)
      simp only [endingAt, Option.map_some,
        skipNumber_position ((isSuffix_readName? hname).trans hus), parameterList_position hnumber]
      cases hlist : Header.parameterList (Header.skipNumber name.2) with
      | error e => rfl
      | ok list =>
        have hlater : list.2 <:+ ts := (isSuffix_parameterList hlist).trans hnumber
        obtain ⟨i, hoptions, hdrop⟩ := exists_afterOptions hlater
        simp only [Except.map, ofOutcome_ok, ok_bind, hoptions, hasKw_eq, hdrop]
        split
        · rename_i has
          have hi : i < ts.length := by
            rw [← hdrop] at has
            exact lt_length_of_startsWithKw has
          have hbody : position ts ((Header.afterOptions list.2).drop 1) = i + 1 := by
            rw [← hdrop, List.drop_drop, position_drop_self hi]
          exact congrArg (fun start => Except.ok (name.1, list.1, start)) hbody.symm
        · rfl

/-- A header is left at the first token of its body. -/
theorem isSuffix_body {header : Header} (h : Header.parse ts = .ok header) :
    header.body <:+ ts := by
  rw [Header.parse_eq] at h
  obtain ⟨us, hcreate, h⟩ := exists_of_bind_eq_ok h
  rw [Header.parseNamed] at h
  split at h
  · rename_i name hname
    obtain ⟨list, hlist, h⟩ := exists_of_bind_eq_ok h
    have hlater : list.2 <:+ ts :=
      (isSuffix_parameterList hlist).trans <| (isSuffix_skipNumber _).trans <|
        (isSuffix_readName? hname).trans (isSuffix_afterCreate hcreate)
    obtain ⟨i, -, hdrop⟩ := exists_afterOptions hlater
    rw [Header.finish] at h
    split at h <;> cases h
    rw [← hdrop, List.drop_drop]
    exact List.drop_suffix _ ts
  · cases h

end SqlSnapshot.Indexed
