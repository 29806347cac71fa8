import SqlSnapshot.Proofs.Definition.Spelling.Body
import SqlSnapshot.Proofs.Definition.Statements
import SqlSnapshot.Proofs.Indexed.Header
import SqlSnapshot.Proofs.Indexed.Select
import SqlSnapshot.Proofs.Indexed.Statements

/-!
# Bodies by positions

The reader of bodies goes from statement to statement.  With the reader of headers it commits no
fault, for no list of tokens: each part that it takes lies in its list, no count falls below zero,
each round of a loop advances, and what is read by recursion is shorter.
-/

namespace SqlSnapshot.Indexed

open Token

variable {ts us rest : List Token} {t : Token} {ctes : List String}

/-! ## Common table expressions -/

/-- The `WITH` at the position introduces common table expressions. -/
def isCteStart (ts : List Token) (i : Nat) : Checked Bool := do
  let t ← tokenAt ts i
  return t.isKw "WITH" && (ts[i + 1]?).any (fun name => name.isWord && !name.isKw "TIES") &&
    (ts[i + 2]?).any (fun next => next.isKw "AS" || next == .lparen)

/-- The position behind a group; one that is not closed takes the rest. -/
def closeEnd (ts : List Token) (i : Nat) : Nat :=
  if hasParen ts i then (afterGroup ts i).getD ts.length else i

def cteRound (ts : List Token) (t : Token) (i : Nat) (names : List String) :
    Checked (Round (List String) (List String × Nat)) :=
  match t with
  | .word name _ =>
    let query := closeEnd ts (i + 1)
    if hasKw ts query "AS" then
      if hasParen ts (query + 1) then
        let behind := closeEnd ts (query + 1)
        if ts[behind]? = some .comma then .ok (.goOn (behind + 1) (names ++ [name]))
        else .ok (.done (names ++ [name], behind))
      else .ok (.done (names, query + 1))
    else .ok (.done (names, query))
  | _ => .ok (.done (names, i))

/-- The names of the common table expressions at a position, and the position of the statement that
uses them. -/
def readCtes (ts : List Token) (i : Nat) : Checked (List String × Nat) :=
  scanFrom ts (fun i names => (names, i)) (cteRound ts) i []

theorem isCteStart_position (h : t :: us <:+ ts) :
    isCteStart ts (position ts (t :: us)) = .ok (Body.startsCtes t us) := by
  rw [isCteStart, tokenAt_position h, ok_bind, getElem?_position h 1, getElem?_position h 2]
  match us with
  | [] => simp [Body.startsCtes]; rfl
  | [name] => simp [Body.startsCtes]; rfl
  | name :: next :: rest => simp [Body.startsCtes, Bool.and_assoc]; rfl

theorem closeEnd_position (h : us <:+ ts) :
    closeEnd ts (position ts us) = position ts (Body.skipToClose us) := by
  rw [closeEnd, Body.skipToClose, hasParen_eq, drop_position h]
  split
  · rename_i hparen
    rw [afterGroup_position h hparen]
    cases skipGroup? us <;> rfl
  · rfl

theorem readCtes_of_not_word (h : ∀ name quoted rest, us ≠ .word name quoted :: rest) :
    Body.readCtes us = ([], us) := by
  rw [Body.readCtes]
  exact h

theorem readCtes_scan (us : List Token) (h : us <:+ ts) (names : List String) :
    scanFrom ts (fun i names => (names, i)) (cteRound ts) (position ts us) names =
      .ok (names ++ (Body.readCtes us).1, position ts (Body.readCtes us).2) := by
  match us with
  | [] =>
    rw [readCtes_of_not_word (by simp), List.append_nil]
    exact scanFrom_nil
  | .word name quoted :: us =>
    have hus : us <:+ ts := isSuffix_tail h
    have hfirst : Body.skipToClose us <:+ ts := (Body.isSuffix_skipToClose us).trans hus
    have hround := cteRound.eq_1 ts (position ts (.word name quoted :: us)) names name quoted
    simp only [← position_cons h, closeEnd_position hus, hasKw_eq, drop_position hfirst] at hround
    rw [Body.readCtes_word]
    cases hs : Body.skipToClose us with
    | nil =>
      rw [hs] at hround
      rw [scanFrom_done h hround, List.append_nil]
    | cons u query =>
      rw [hs] at hround hfirst
      have hquery : query <:+ ts := isSuffix_tail hfirst
      have hsecond : Body.skipToClose query <:+ ts := (Body.isSuffix_skipToClose query).trans hquery
      simp only [← position_cons hfirst, closeEnd_position hquery, hasParen_eq,
        drop_position hquery, getElem?_position_zero hsecond] at hround
      by_cases has : u.isKw "AS" = true
      · have hstarts : startsWithKw "AS" (u :: query) = true := has
        rw [if_pos hstarts] at hround
        dsimp only
        rw [if_pos has]
        by_cases hparen : startsWithParen query = true
        · rw [if_pos hparen] at hround ⊢
          by_cases hcomma : (Body.skipToClose query).head? = some .comma
          · rw [if_pos hcomma] at hround
            obtain ⟨more, hmore⟩ := List.head?_eq_some_iff.mp hcomma
            rw [hmore] at hround hsecond
            have hshorter : more.length ≤ us.length :=
              Nat.le_of_lt_succ (Body.length_of_skipToClose_twice hs hmore)
            rw [← position_cons hsecond] at hround
            rw [scanFrom_goOn h hround (position_mono hshorter),
              readCtes_scan more (isSuffix_tail hsecond), hmore, List.append_assoc]
            rfl
          · rw [if_neg hcomma] at hround
            rw [scanFrom_done h hround]
            split
            · rename_i hmore
              exact absurd (by rw [hmore]; rfl) hcomma
            · rfl
        · rw [if_neg hparen] at hround ⊢
          rw [scanFrom_done h hround, List.append_nil]
      · have hstarts : ¬ startsWithKw "AS" (u :: query) = true := has
        rw [if_neg hstarts] at hround
        dsimp only
        rw [if_neg has, scanFrom_done h hround, List.append_nil]
  | .str _ :: _ | .num _ :: _ | .lparen :: _ | .rparen :: _ | .comma :: _ | .period :: _
  | .equals :: _ | .semicolon :: _ | .star :: _ | .other _ :: _ =>
    rw [readCtes_of_not_word (by simp), List.append_nil]
    exact scanFrom_done h rfl
termination_by us.length

/-! ## Statements -/

/-- What an `EXEC` contributes, given the tokens after the keyword. -/
def readExec (arguments : List Token) : Checked Findings := do
  let i : Nat :=
    if (arguments.head?).any (·.isVariable) && arguments[1]? == some .equals then 2 else 0
  match arguments[i]? with
  | some .lparen => return { issues := [.dynamicSql] }
  | some (.word text quoted) =>
    if Token.isVariable (.word text quoted) then return { issues := [.dynamicSql] }
    else
      match ← readName arguments i with
      | some (parts, _) => return Body.ofExecuted parts
      | none => return {}
  | _ => return {}

/-- What a select contributes, given its tokens from the keyword on. -/
def readSelect (ctes : List String) (ts : List Token) : Checked Findings := do
  checkSelectList ts
  return Body.ofSelect (← parseSelect ctes [] ts)

/-- What the statement that starts with `t` at a position contributes, and where it ends; `none` if
no statement that is looked into starts there. -/
def readStatement (ctes : List String) (ts : List Token) (t : Token) (i : Nat) :
    Checked (Option (Findings × Nat)) := do
  if t.isKw "SELECT" then
    let stop ← statementEnd ts i
    let found ← readSelect ctes (← slice ts i stop)
    return some (found, stop)
  else if t.isKw "INSERT" then return some ({}, ← insertEnd ts i)
  else if t.isKw "UPDATE" then return some ({}, ← updateEnd ts i)
  else if t.isKw "MERGE" then return some ({}, semicolonEnd ts i)
  else if t.isKw "DECLARE" then return some ({}, ← declareEnd ts i)
  else if t.isAnyKw ["DELETE", "SET"] then return some ({}, ← statementEnd ts i)
  else if t.isAnyKw ["EXEC", "EXECUTE"] then
    let stop ← statementEnd ts i
    let found ← readExec (← slice ts (i + 1) stop)
    return some (found, stop)
  else return none

/-- The position of the target of an `EXEC`, which may stand behind `@status =`. -/
theorem position_skipStatus (arguments : List Token) :
    Body.skipStatus arguments <:+ arguments ∧
      (if (arguments.head?).any (·.isVariable) && arguments[1]? == some .equals then 2 else 0) =
        position arguments (Body.skipStatus arguments) := by
  match arguments with
  | [] => exact ⟨List.suffix_refl [], rfl⟩
  | [t] => exact ⟨List.suffix_refl [t], by simp [Body.skipStatus]⟩
  | t :: u :: rest =>
    by_cases hu : u = .equals
    · subst hu
      rw [Body.skipStatus]
      have hposition : position (t :: .equals :: rest) rest = 2 :=
        (position_append [t, .equals] (List.suffix_refl _)).trans (by simp)
      cases hvariable : t.isVariable with
      | true => exact ⟨⟨[t, .equals], rfl⟩, by simp [hvariable, hposition]⟩
      | false => exact ⟨List.suffix_refl _, by simp [hvariable]⟩
    · have hskip : Body.skipStatus (t :: u :: rest) = t :: u :: rest := by
        rw [Body.skipStatus]
        rintro t' rest' heq
        cases heq
        exact hu rfl
      rw [hskip, position_self]
      exact ⟨List.suffix_refl _, by simp [hu]⟩

theorem readExec_eq (arguments : List Token) :
    readExec arguments = .ok (Body.readExec arguments) := by
  obtain ⟨hrest, hposition⟩ := position_skipStatus arguments
  rw [readExec, hposition, getElem?_position_zero hrest, readName_position hrest, Body.readExec]
  cases Body.skipStatus arguments with
  | nil => rfl
  | cons t rest =>
    cases t with
    | word text quoted =>
      simp only [List.head?_cons]
      split <;> rfl
    | _ => rfl

theorem readSelect_eq (ctes : List String) (ts : List Token) :
    readSelect ctes ts = ofOutcome (Body.readSelect ctes ts) := by
  rw [readSelect, checkSelectList_eq, Body.readSelect_eq]
  cases Select.checkList ts with
  | error e => rfl
  | ok list =>
    rw [parseSelect_eq]
    rfl

/-- A part that reaches from a position to the end of the statement that starts there. -/
theorem slice_statement (h : t :: us <:+ ts) :
    slice ts (position ts (t :: us)) (position ts (Body.cutStatement t 0 0 us).2) =
      .ok (t :: (Body.cutStatement t 0 0 us).1) :=
  slice_position (congrArg (t :: ·) (Body.append_cutStatement t 0 0 us)) h

theorem slice_arguments (h : us <:+ ts) :
    slice ts (position ts us) (position ts (Body.cutStatement t 0 0 us).2) =
      .ok (Body.cutStatement t 0 0 us).1 :=
  slice_position (Body.append_cutStatement t 0 0 us) h

theorem readStatement_position (h : t :: us <:+ ts) :
    readStatement ctes ts t (position ts (t :: us)) =
      match Body.readStatement? ctes t us with
      | none => .ok none
      | some (found, rest) =>
        ofOutcome (found.map fun found => some (found, position ts rest)) := by
  have hus : us <:+ ts := isSuffix_tail h
  rw [readStatement, Body.readStatement?, ← position_cons h]
  split
  · rw [statementEnd_position h, ok_bind, Body.afterStatement, slice_statement h, ok_bind,
      readSelect_eq]
    dsimp only
    cases Body.readSelect ctes (t :: (Body.cutStatement t 0 0 us).1) <;> rfl
  split
  · rw [insertEnd_position h]
    rfl
  split
  · rw [updateEnd_position h]
    rfl
  split
  · rename_i hmerge
    rw [semicolonEnd_position h hmerge]
    rfl
  split
  · rw [declareEnd_position h]
    rfl
  split
  · rw [statementEnd_position h]
    rfl
  split
  · rw [statementEnd_position h, ok_bind, Body.afterStatement, slice_arguments hus, ok_bind,
      readExec_eq]
    rfl
  · rfl

/-! ## Bodies -/

/-- The state holds the names of the common table expressions and what is found so far. -/
def bodyRound (ts : List Token) (t : Token) (i : Nat) (state : List String × Findings) :
    Checked (Round (List String × Findings) Findings) := do
  if t = .lparen then return .goOn ((afterGroup ts i).getD ts.length) state
  else if ← isCteStart ts i then
    let (names, next) ← readCtes ts (i + 1)
    return .goOn next (names, state.2)
  else
    match ← readStatement state.1 ts t i with
    | none => return .goOn (i + 1) state
    | some (found, next) => return .goOn (max next (i + 1)) ([], state.2.append found)

def analyzeBody (ts : List Token) : Checked Findings :=
  scanFrom ts (fun _ state => state.2) (bodyRound ts) 0 ([], {})

theorem bodyRound_group (h : .lparen :: us <:+ ts) (state : List String × Findings) :
    bodyRound ts .lparen (position ts (.lparen :: us)) state =
      .ok (.goOn (position ts ((skipGroup? (.lparen :: us)).getD [])) state) := by
  rw [bodyRound, if_pos rfl, afterGroup_position h rfl]
  cases skipGroup? (.lparen :: us) <;> rfl

theorem bodyRound_ctes
    (h : t :: us <:+ ts) (ht : t ≠ .lparen) (hctes : Body.startsCtes t us = true)
    (state : List String × Findings) :
    bodyRound ts t (position ts (t :: us)) state =
      .ok (.goOn (position ts (Body.readCtes us).2) ((Body.readCtes us).1, state.2)) := by
  rw [bodyRound, if_neg ht, isCteStart_position h, ok_bind, if_pos hctes, ← position_cons h,
    readCtes, readCtes_scan us (isSuffix_tail h), List.nil_append]
  rfl

theorem bodyRound_statement
    (h : t :: us <:+ ts) (ht : t ≠ .lparen) (hctes : ¬ Body.startsCtes t us = true)
    (state : List String × Findings) :
    bodyRound ts t (position ts (t :: us)) state =
      match Body.readStatement? state.1 t us with
      | none => .ok (.goOn (position ts us) state)
      | some (found, rest) => ofOutcome (found.map fun found =>
          .goOn (max (position ts rest) (position ts us)) ([], state.2.append found)) := by
  rw [bodyRound, if_neg ht, isCteStart_position h, ok_bind, if_neg hctes,
    readStatement_position h, ← position_cons h]
  cases Body.readStatement? state.1 t us with
  | none => rfl
  | some statement =>
    obtain ⟨found, rest⟩ := statement
    cases found <;> rfl

theorem bodyRound_scan
    (us : List Token) (h : us <:+ ts) (ctes : List String) (found : Findings) :
    scanFrom ts (fun _ state => state.2) (bodyRound ts) (position ts us) (ctes, found) =
      ofOutcome ((Body.read ctes us).map found.append) := by
  match us with
  | [] =>
    rw [Body.read_nil, scanFrom_nil]
    exact congrArg Except.ok (Findings.append_empty found).symm
  | t :: us =>
    have hus : us <:+ ts := isSuffix_tail h
    by_cases ht : t = .lparen
    · subst ht
      have hround := bodyRound_group h (ctes, found)
      cases hgroup : skipGroup? (.lparen :: us) with
      | none =>
        rw [hgroup] at hround
        rw [Body.read_unclosed hgroup, scanFrom_goOn h hround (position_le ts us),
          Option.getD_none, scanFrom_nil]
        exact congrArg Except.ok (Findings.append_empty found).symm
      | some rest =>
        have hshorter : rest.length < us.length + 1 := length_skipGroup? hgroup
        rw [hgroup] at hround
        rw [Body.read_group hgroup,
          scanFrom_goOn h hround (position_mono (Nat.le_of_lt_succ hshorter))]
        exact bodyRound_scan rest ((isSuffix_skipGroup? hgroup).trans h) ctes found
    · by_cases hctes : Body.startsCtes t us = true
      · have hshorter := Body.length_readCtes us
        rw [Body.read_ctes ht hctes,
          scanFrom_goOn h (bodyRound_ctes h ht hctes (ctes, found)) (position_mono hshorter)]
        exact bodyRound_scan _ ((Body.isSuffix_readCtes us).trans hus) _ found
      · have hround := bodyRound_statement h ht hctes (ctes, found)
        cases hstatement : Body.readStatement? ctes t us with
        | none =>
          simp only [hstatement] at hround
          rw [Body.read_other ht hctes hstatement, scanFrom_goOn h hround (Nat.le_refl _)]
          exact bodyRound_scan us hus ctes found
        | some statement =>
          obtain ⟨own, rest⟩ := statement
          have hshorter := Body.length_readStatement? hstatement
          simp only [hstatement] at hround
          rw [Body.read_statement ht hctes hstatement]
          cases own with
          | error e => exact scanFrom_error h hround
          | ok own =>
            have hbehind : position ts us ≤ position ts rest := position_mono hshorter
            rw [Nat.max_eq_left hbehind] at hround
            rw [scanFrom_goOn h hround hbehind,
              bodyRound_scan rest ((Body.isSuffix_readStatement? hstatement).trans hus)]
            cases Body.read [] rest with
            | error e => rfl
            | ok later => exact congrArg Except.ok (Findings.append_assoc found own later)
termination_by us.length

theorem analyzeBody_eq (ts : List Token) : analyzeBody ts = ofOutcome (Body.read [] ts) := by
  have hscan := bodyRound_scan ts (List.suffix_refl ts) [] {}
  rw [position_self] at hscan
  rw [analyzeBody, hscan]
  cases Body.read [] ts with
  | error e => rfl
  | ok found => exact congrArg Except.ok (Findings.empty_append found)

/-! ## Definitions -/

/-- The name, the parameters and the findings of a definition, whose body starts at the position
that the reader of headers gives. -/
def readDefinition (ts : List Token) : Checked (List String × List Parameter × Findings) := do
  let (name, parameters, bodyStart) ← parseHeader ts
  let body ← slice ts bodyStart ts.length
  let found ← analyzeBody body
  return (name, parameters, found)

theorem readDefinition_eq (ts : List Token) :
    readDefinition ts = ofOutcome (do
      let header ← Header.parse ts
      let found ← Body.read [] header.body
      return (header.name, header.parameters, found)) := by
  rw [readDefinition, parseHeader_eq]
  cases hheader : Header.parse ts with
  | error e => rfl
  | ok header =>
    simp only [Except.map, ofOutcome_ok, ok_bind,
      slice_position_length (isSuffix_body hheader), analyzeBody_eq]
    cases Body.read [] header.body <;> rfl

/-- The readers by positions give, for every list, what the readers of what is left give.  So none
of them ends with a fault: a definition is read, or it is refused. -/
theorem readers_commit_no_fault :
    (∀ ts : List Token,
      (∃ result, readDefinition ts = .ok result) ∨ ∃ e, readDefinition ts = .error (.refused e)) ∧
    (∀ ts : List Token, readDefinition ts = ofOutcome (do
      let header ← Header.parse ts
      let found ← Body.read [] header.body
      return (header.name, header.parameters, found))) ∧
    (∀ ts : List Token, parseHeader ts = ofOutcome ((Header.parse ts).map fun header =>
      (header.name, header.parameters, position ts header.body))) ∧
    (∀ ts : List Token, analyzeBody ts = ofOutcome (Body.read [] ts)) ∧
    (∀ (ctes : List String) (scope : Scope) (ts : List Token),
      parseSelect ctes scope ts = .ok (Select.read ctes scope ts)) ∧
    ∀ (ctes : List String) (ts : List Token),
      parseFromClause ctes ts = .ok (Source.ofClause ctes ts) := by
  refine ⟨fun ts => ?_, readDefinition_eq, parseHeader_eq, analyzeBody_eq, parseSelect_eq,
    parseFromClause_eq⟩
  rw [readDefinition_eq]
  generalize (do
    let header ← Header.parse ts
    let found ← Body.read [] header.body
    return (header.name, header.parameters, found)) = outcome
  cases outcome with
  | error e => exact .inr ⟨e, rfl⟩
  | ok result => exact .inl ⟨result, rfl⟩

end SqlSnapshot.Indexed
