import SqlSnapshot.Proofs.Definition.ForJson
import SqlSnapshot.Proofs.Definition.FromNames
import SqlSnapshot.Proofs.Definition.Spelling.Select
import SqlSnapshot.Proofs.Indexed.Tokens

/-!
# Clauses of a select by positions

Where the list of a select begins and ends, and the options of its `FOR JSON`.  The skip of `TOP`
takes the next token whether there is one or not and may so end behind the list; the position is cut
back before a part is taken at it.
-/

namespace SqlSnapshot.Indexed

open Token

variable {ts us rest : List Token} {t prev : Token}

/-! ## Modifiers -/

/-- The position behind the amount of a `TOP`. -/
def amountEnd (ts : List Token) (i : Nat) : Nat :=
  if hasParen ts i then (afterGroup ts i).getD (i + 1) else i + 1

def percentEnd (ts : List Token) (i : Nat) : Nat :=
  if hasKw ts i "PERCENT" then i + 1 else i

def tiesEnd (ts : List Token) (i : Nat) : Nat :=
  if hasKw ts i "WITH" && hasKw ts (i + 1) "TIES" then i + 2 else i

def topEnd (ts : List Token) (i : Nat) : Nat :=
  tiesEnd ts (percentEnd ts (amountEnd ts i))

def modifierRound (ts : List Token) (t : Token) (i : Nat) (_ : Unit) : Checked (Round Unit Nat) :=
  if t.isAnyKw ["ALL", "DISTINCT"] then .ok (.goOn (i + 1) ())
  else if t.isKw "TOP" then .ok (.goOn (topEnd ts (i + 1)) ())
  else .ok (.done i)

/-- The position behind `ALL`, `DISTINCT` and `TOP`. -/
def skipModifiers (ts : List Token) (i : Nat) : Checked Nat :=
  scanFrom ts (fun i _ => i) (modifierRound ts) i ()

theorem snd_skipOne (prev : Token) (us : List Token) : (Select.skipOne prev us).2 = us.drop 1 := by
  cases us <;> rfl

theorem drop_amountEnd (ts : List Token) (i : Nat) (prev : Token) :
    ts.drop (amountEnd ts i) = (Select.skipTopAmount prev (ts.drop i)).2 := by
  have hone : ts.drop (i + 1) = (Select.skipOne prev (ts.drop i)).2 := by
    rw [snd_skipOne, List.drop_drop]
  rw [amountEnd, Select.skipTopAmount, hasParen_eq]
  split
  · rename_i hparen
    have hsuffix : ts.drop i <:+ ts := List.drop_suffix i ts
    have hi : position ts (ts.drop i) = i :=
      position_drop_self (Nat.le_of_lt (lt_length_of_startsWithParen hparen))
    have hgroup := afterGroup_position hsuffix hparen
    rw [hi] at hgroup
    rw [hgroup]
    cases hskip : skipGroup? (ts.drop i) with
    | none => exact hone
    | some rest => exact drop_position ((isSuffix_skipGroup? hskip).trans hsuffix)
  · rename_i hparen
    rw [skipGroup?_of_not_paren (eq_false_of_ne_true hparen)]
    exact hone

theorem drop_percentEnd (ts : List Token) (i : Nat) (prev : Token) :
    ts.drop (percentEnd ts i) = (Select.skipPercent prev (ts.drop i)).2 := by
  rw [percentEnd, Select.skipPercent, hasKw_eq]
  split
  · rw [snd_skipOne, List.drop_drop]
  · rfl

theorem drop_tiesEnd (ts : List Token) (i : Nat) (prev : Token) :
    ts.drop (tiesEnd ts i) = (Select.skipTies prev (ts.drop i)).2 := by
  rw [tiesEnd, Select.skipTies, hasKw_eq, hasKw_eq, List.drop_drop]
  split
  · rw [snd_skipOne, List.drop_drop]
  · rfl

theorem drop_topEnd (ts : List Token) (i : Nat) (prev : Token) :
    ts.drop (topEnd ts i) = (Select.skipTop prev (ts.drop i)).2 := by
  rw [topEnd, drop_tiesEnd ts _ (Select.skipPercent (Select.skipTopAmount prev (ts.drop i)).1
      (Select.skipTopAmount prev (ts.drop i)).2).1,
    drop_percentEnd ts _ (Select.skipTopAmount prev (ts.drop i)).1, drop_amountEnd ts i prev]
  rfl

theorem le_topEnd (ts : List Token) (i : Nat) : i ≤ topEnd ts i := by
  have hamount : i ≤ amountEnd ts i := by
    unfold amountEnd
    split
    · cases hgroup : afterGroup ts i with
      | none => exact Nat.le_succ i
      | some j => exact Nat.le_of_lt (lt_of_afterGroup hgroup)
    · exact Nat.le_succ i
  have hpercent : ∀ i, i ≤ percentEnd ts i := by
    intro i
    unfold percentEnd
    split <;> omega
  have hties : ∀ i, i ≤ tiesEnd ts i := by
    intro i
    unfold tiesEnd
    split <;> omega
  exact Nat.le_trans hamount (Nat.le_trans (hpercent _) (hties _))

/-- The position may lie behind the list. -/
theorem exists_skipModifiers (us : List Token) {i : Nat} (hi : ts.drop i = us) (prev : Token) :
    ∃ j, skipModifiers ts i = .ok j ∧ ts.drop j = (Select.skipModifiers prev us).2 := by
  match us with
  | [] =>
    rw [Select.skipModifiers]
    exact ⟨i, scanFrom_end (List.drop_eq_nil_iff.mp hi), hi⟩
  | t :: us =>
    have hlength : i < ts.length := lt_length_of_drop_ne_nil (by simp [hi])
    have hposition : position ts (t :: us) = i := by
      rw [← hi, position_drop_self (Nat.le_of_lt hlength)]
    have hsuffix : t :: us <:+ ts := hi ▸ List.drop_suffix i ts
    have hnext : ts.drop (i + 1) = us := by
      rw [← List.drop_drop, hi, List.drop_one, List.tail_cons]
    have hstart : position ts us = i + 1 := by rw [position_cons hsuffix, hposition]
    have hround := modifierRound.eq_1 ts t (position ts (t :: us)) ()
    rw [Select.skipModifiers]
    by_cases hquantifier : t.isAnyKw ["ALL", "DISTINCT"] = true
    · rw [if_pos hquantifier] at hround
      have hstep : skipModifiers ts (position ts (t :: us)) =
          skipModifiers ts (position ts (t :: us) + 1) :=
        scanFrom_goOn hsuffix hround (Nat.le_of_eq (position_cons hsuffix))
      rw [hposition] at hstep
      rw [hstep, if_pos hquantifier]
      exact exists_skipModifiers us hnext t
    rw [if_neg hquantifier] at hround
    by_cases htop : t.isKw "TOP" = true
    · rw [if_pos htop] at hround
      have hbehindTop : position ts us ≤ topEnd ts (position ts (t :: us) + 1) := by
        rw [hstart, hposition]
        exact le_topEnd ts (i + 1)
      have hstep : skipModifiers ts (position ts (t :: us)) =
          skipModifiers ts (topEnd ts (position ts (t :: us) + 1)) :=
        scanFrom_goOn hsuffix hround hbehindTop
      have hbehind : ts.drop (topEnd ts (i + 1)) = (Select.skipTop t us).2 := by
        rw [drop_topEnd ts (i + 1) t, hnext]
      have hshorter := Select.length_skipTop t us
      rw [hposition] at hstep
      rw [hstep, if_neg hquantifier, if_pos htop]
      exact exists_skipModifiers _ hbehind _
    · rw [if_neg htop] at hround
      have hdone : skipModifiers ts (position ts (t :: us)) = .ok (position ts (t :: us)) :=
        scanFrom_done hsuffix hround
      rw [hposition] at hdone
      rw [if_neg hquantifier, if_neg htop]
      exact ⟨i, hdone, hi⟩
termination_by us.length

/-! ## The end of the list -/

/-- The keyword at the position is the `GROUP` of `WITHIN GROUP`. -/
def isWithinGroup (ts : List Token) (i : Nat) : Checked Bool := do
  let t ← tokenAt ts i
  if t.isKw "GROUP" ∧ 0 < i then
    let prev ← tokenAt ts (← lower i 1)
    return prev.isKw "WITHIN"
  else return false

def listEndRound (ts : List Token) (i : Nat) (_ : Unit) : Checked (Round Unit Nat) :=
  match findKw ts i Select.listEnd with
  | none => .ok (.done ts.length)
  | some stop => do
    if ← isWithinGroup ts stop then return .goOn (stop + 1) () else return .done stop

/-- The position of the first clause after a select list. -/
def findListEnd (ts : List Token) (i : Nat) : Checked Nat :=
  loop ts (listEndRound ts) i ()

theorem isWithinGroup_position (h : prev :: t :: us <:+ ts) :
    isWithinGroup ts (position ts (t :: us)) =
      .ok (t.isKw "GROUP" && prev.isKw "WITHIN") := by
  have ht : t :: us <:+ ts := isSuffix_tail h
  have hpos : 0 < position ts (t :: us) := by
    rw [position_cons h]
    exact Nat.succ_pos _
  rw [isWithinGroup, tokenAt_position ht, ok_bind]
  by_cases hgroup : t.isKw "GROUP" = true
  · rw [if_pos ⟨hgroup, hpos⟩, lower_position h, ok_bind, tokenAt_position h, hgroup]
    rfl
  · rw [if_neg fun hboth => hgroup hboth.1, eq_false_of_ne_true hgroup]
    rfl

theorem cutList_of_cutAtKw_eq_nil
    {depth : Nat} (h : (cutAtKw Select.listEnd depth us).2 = []) :
    (Select.cutList prev depth us).2 = [] := by
  induction us generalizing prev depth with
  | nil => rfl
  | cons t us ih =>
    rw [cutAtKw] at h
    rw [Select.cutList]
    split at h
    · cases h
    · rename_i hnot
      rw [if_neg fun hcut => hnot ⟨hcut.1, hcut.2.1⟩]
      exact ih h

/-- The scan for the end of the list goes on behind a `WITHIN GROUP`. -/
theorem exists_cutList_of_cutAtKw
    (prev : Token) {depth : Nat} (h : (cutAtKw Select.listEnd depth us).2 = t :: rest) :
    ∃ before, before :: t :: rest <:+ prev :: us ∧
      (Select.cutList prev depth us).2 =
        if (t.isKw "GROUP" && before.isKw "WITHIN") = true then (Select.cutList t 0 rest).2
        else t :: rest := by
  induction us generalizing prev depth with
  | nil => cases h
  | cons u us ih =>
    rw [cutAtKw] at h
    split at h
    · rename_i hcut
      cases h
      refine ⟨prev, List.suffix_refl _, ?_⟩
      rw [Select.cutList, depthAfter_of_isAnyKw hcut.2, hcut.1]
      by_cases hwithin : t.isKw "GROUP" = true ∧ prev.isKw "WITHIN" = true
      · rw [if_pos ((Bool.and_eq_true _ _).mpr hwithin), if_neg fun hboth => hboth.2.2 hwithin]
      · rw [if_neg (mt (Bool.and_eq_true _ _).mp hwithin), if_pos ⟨rfl, hcut.2, hwithin⟩]
    · rename_i hnot
      obtain ⟨before, hbefore, hlist⟩ := ih u h
      refine ⟨before, hbefore.trans (List.suffix_cons prev _), ?_⟩
      rw [Select.cutList, if_neg fun hboth => hnot ⟨hboth.1, hboth.2.1⟩]
      exact hlist

theorem findListEnd_nil : findListEnd ts ts.length = .ok ts.length := by
  refine loop_done ?_
  rw [listEndRound, findKw, List.drop_length]
  rfl

theorem findListEnd_position (prev : Token) (us : List Token) (h : prev :: us <:+ ts) :
    findListEnd ts (position ts us) = .ok (position ts (Select.cutList prev 0 us).2) := by
  have hus : us <:+ ts := isSuffix_tail h
  have hround := listEndRound.eq_1 ts (position ts us) ()
  rw [findKw_position hus] at hround
  cases hcut : fromKw Select.listEnd us with
  | nil =>
    rw [hcut, if_pos rfl] at hround
    rw [findListEnd, loop_done hround, cutList_of_cutAtKw_eq_nil hcut]
    rfl
  | cons t rest =>
    obtain ⟨before, hbefore, hlist⟩ := exists_cutList_of_cutAtKw prev hcut
    have hrest : before :: t :: rest <:+ ts := hbefore.trans h
    rw [hcut, if_neg (List.cons_ne_nil t rest)] at hround
    dsimp only at hround
    rw [isWithinGroup_position hrest, ok_bind] at hround
    rw [hlist]
    split
    · rename_i hwithin
      have hshorter : rest.length < us.length := by
        have hlength := (isSuffix_fromKw Select.listEnd us).length_le
        rw [hcut, List.length_cons] at hlength
        exact hlength
      rw [if_pos hwithin, ← position_cons (isSuffix_tail hrest)] at hround
      have hlength : position ts us < ts.length :=
        position_lt_length_of_pos hus (Nat.zero_lt_of_lt hshorter)
      rw [findListEnd, loop_goOn hround (position_lt hus hshorter) hlength]
      exact findListEnd_position t rest (isSuffix_tail hrest)
    · rename_i hwithin
      rw [if_neg hwithin] at hround
      exact loop_done hround
termination_by us.length

/-! ## The list -/

/-- Where the list of the select begins, whose first token is the `SELECT`, and where it ends. -/
def listBounds (ts : List Token) : Checked (Nat × Nat) := do
  let first := min (← skipModifiers ts 1) ts.length
  return (first, ← findListEnd ts first)

/-- A select without a select list is refused. -/
def checkSelectList (ts : List Token) : Checked Unit := do
  let (first, last) ← listBounds ts
  if last ≤ first then refuse .emptySelectList else return ()

/-- The list and the clauses of a select. -/
abbrev listTokens (ts : List Token) : List Token :=
  (Select.listAndClauses ts).1 ++ (Select.listAndClauses ts).2

theorem listTokens_cons (t : Token) (us : List Token) :
    listTokens (t :: us) = (Select.skipModifiers t us).2 :=
  Select.append_cutList _ 0 _

theorem isSuffix_listTokens (ts : List Token) : listTokens ts <:+ ts := by
  cases ts with
  | nil => exact List.suffix_refl []
  | cons t us =>
    rw [listTokens_cons]
    exact isSuffix_tail (Select.isSuffix_skipModifiers t us)

theorem listBounds_eq (ts : List Token) :
    listBounds ts =
      .ok (position ts (listTokens ts), position ts (Select.listAndClauses ts).2) := by
  cases ts with
  | nil =>
    have hskip : skipModifiers [] 1 = .ok 1 := scanFrom_end (Nat.zero_le 1)
    have hlast : findListEnd [] 0 = .ok 0 := findListEnd_nil
    rw [listBounds, hskip, ok_bind]
    exact congrArg (fun x => x >>= fun last => pure (0, last)) hlast
  | cons t us =>
    have hskipped := Select.isSuffix_skipModifiers t us
    have hone : (t :: us).drop 1 = us := rfl
    obtain ⟨i, hskip, hdrop⟩ := exists_skipModifiers us hone t
    have hfirst : min i (t :: us).length = position (t :: us) (listTokens (t :: us)) := by
      rw [listTokens_cons, ← hdrop, position, List.length_drop]
      omega
    rw [listBounds, hskip, ok_bind, hfirst, listTokens_cons]
    dsimp only
    rw [findListEnd_position _ _ hskipped]
    rfl

theorem checkSelectList_eq (ts : List Token) :
    checkSelectList ts = ofOutcome (Select.checkList ts) := by
  have hlast : position ts (Select.listAndClauses ts).2 =
      position ts (listTokens ts) + (Select.listAndClauses ts).1.length :=
    position_append _ (isSuffix_listTokens ts)
  rw [checkSelectList, listBounds_eq, ok_bind, hlast, Select.checkList]
  dsimp only
  cases (Select.listAndClauses ts).1 with
  | nil => exact if_pos (Nat.le_refl _)
  | cons t items => exact if_neg (by simp)

/-! ## Options of `FOR JSON` -/

def jsonRound (ts : List Token) (t : Token) (i : Nat) (options : JsonOptions) :
    Checked (Round JsonOptions JsonOptions) :=
  if t.isKw "ROOT" then
    if hasParen ts (i + 1) then
      let name := match ts[i + 2]? with | some (.str name) => name | _ => "root"
      .ok (.goOn ((afterGroup ts (i + 1)).getD (i + 2)) { options with root := some name })
    else .ok (.goOn (i + 1) { options with root := some "root" })
  else if t.isKw "WITHOUT_ARRAY_WRAPPER" then .ok (.goOn (i + 1) { options with array := false })
  else if t.isKw "INCLUDE_NULL_VALUES" then
    .ok (.goOn (i + 1) { options with includeNullValues := true })
  else if t.isAnyKw ["PATH", "AUTO"] ∨ t = .comma then .ok (.goOn (i + 1) options)
  else .ok (.done options)

def readJsonOptions (ts : List Token) : Checked JsonOptions :=
  scanFrom ts (fun _ options => options) (jsonRound ts) 0 {}

def forJsonRound (ts : List Token) (i : Nat) (_ : Unit) :
    Checked (Round Unit (Option JsonOptions)) :=
  match findKw ts i ["FOR"] with
  | none => .ok (.done none)
  | some start => do
    if hasKw ts (start + 1) "JSON" then
      let options ← readJsonOptions (← slice ts (start + 2) ts.length)
      return .done (some options)
    else return .goOn (start + 1) ()

/-- The options of the first `FOR JSON` from a position on. -/
def parseForJson (ts : List Token) (i : Nat) : Checked (Option JsonOptions) :=
  loop ts (forJsonRound ts) i ()

theorem jsonRound_root
    (h : t :: us <:+ ts) (hroot : t.isKw "ROOT" = true) (options : JsonOptions) :
    jsonRound ts t (position ts (t :: us)) options =
      .ok (.goOn (position ts (Select.readRoot us).2)
        { options with root := some (Select.readRoot us).1 }) := by
  have hus : us <:+ ts := isSuffix_tail h
  rw [jsonRound, if_pos hroot, ← position_cons h, hasParen_eq, drop_position hus]
  split
  · rename_i hparen
    have hgroup := afterGroup_position hus hparen
    obtain ⟨inner, rfl⟩ := exists_of_startsWithParen hparen
    have hname : (match ts[position ts (t :: .lparen :: inner) + 2]? with
        | some (.str name) => name | _ => "root") = Select.rootName inner := by
      rw [getElem?_position h 2]
      match inner with
      | [] => rfl
      | u :: inner => cases u <;> rfl
    have hbehind : (afterGroup ts (position ts (.lparen :: inner))).getD
        (position ts (t :: .lparen :: inner) + 2) =
          position ts ((skipGroup? (.lparen :: inner)).getD inner) := by
      rw [hgroup]
      cases skipGroup? (.lparen :: inner) with
      | none => exact (position_append [t, .lparen] h).symm
      | some rest => rfl
    simp only [hname, hbehind]
    rfl
  · rename_i hparen
    rw [Select.readRoot_of_not_startsWithParen (eq_false_of_ne_true hparen)]

theorem readJsonOptions_scan (us : List Token) (h : us <:+ ts) (options : JsonOptions) :
    scanFrom ts (fun _ options => options) (jsonRound ts) (position ts us) options =
      .ok (Select.readJsonOptions options us) := by
  match us with
  | [] =>
    rw [Select.readJsonOptions]
    exact scanFrom_nil
  | t :: us =>
    have hus : us <:+ ts := isSuffix_tail h
    have hround := jsonRound.eq_1 ts t (position ts (t :: us)) options
    have hstep : ∀ options',
        jsonRound ts t (position ts (t :: us)) options =
          .ok (.goOn (position ts (t :: us) + 1) options') →
        scanFrom ts (fun _ options => options) (jsonRound ts) (position ts (t :: us)) options =
          .ok (Select.readJsonOptions options' us) := by
      intro options' hgoOn
      rw [scanFrom_goOn h hgoOn (Nat.le_of_eq (position_cons h)), ← position_cons h]
      exact readJsonOptions_scan us hus options'
    rw [Select.readJsonOptions]
    by_cases hroot : t.isKw "ROOT" = true
    · have hlength := Select.length_readRoot us
      rw [if_pos hroot, scanFrom_goOn h (jsonRound_root h hroot options) (position_mono hlength)]
      exact readJsonOptions_scan _ ((Select.isSuffix_readRoot us).trans hus) _
    rw [if_neg hroot] at hround ⊢
    by_cases hwrapper : t.isKw "WITHOUT_ARRAY_WRAPPER" = true
    · rw [if_pos hwrapper] at hround ⊢
      exact hstep _ hround
    rw [if_neg hwrapper] at hround ⊢
    by_cases hnulls : t.isKw "INCLUDE_NULL_VALUES" = true
    · rw [if_pos hnulls] at hround ⊢
      exact hstep _ hround
    rw [if_neg hnulls] at hround ⊢
    by_cases hskip : t.isAnyKw ["PATH", "AUTO"] = true ∨ t = .comma
    · rw [if_pos hskip] at hround ⊢
      exact hstep _ hround
    · rw [if_neg hskip] at hround ⊢
      exact scanFrom_done h hround
termination_by us.length

theorem readJsonOptions_eq (us : List Token) :
    readJsonOptions us = .ok (Select.readJsonOptions {} us) := by
  have hscan := readJsonOptions_scan us (List.suffix_refl us) {}
  rwa [position_self] at hscan

theorem readForJson?_of_cutAtKw_eq_nil
    {depth : Nat} (h : (cutAtKw ["FOR"] depth us).2 = []) :
    Select.readForJson? depth us = none := by
  induction us generalizing depth with
  | nil => rfl
  | cons t us ih =>
    rw [cutAtKw] at h
    split at h
    · cases h
    · rename_i hnot
      rw [Select.readForJson?, if_neg fun hfor => hnot ⟨hfor.1, hfor.2.1⟩]
      exact ih h

theorem readForJson?_of_cutAtKw
    {depth : Nat} (h : (cutAtKw ["FOR"] depth us).2 = t :: rest) :
    Select.readForJson? depth us =
      if startsWithKw "JSON" rest then some (Select.readJsonOptions {} (rest.drop 1))
      else Select.readForJson? 0 rest := by
  induction us generalizing depth with
  | nil => cases h
  | cons u us ih =>
    rw [cutAtKw] at h
    rw [Select.readForJson?]
    split at h
    · rename_i hcut
      cases h
      rw [depthAfter_of_isAnyKw hcut.2, hcut.1]
      by_cases hjson : startsWithKw "JSON" rest = true
      · rw [if_pos ⟨rfl, hcut.2, hjson⟩, if_pos hjson]
      · rw [if_neg fun hboth => hjson hboth.2.2, if_neg hjson]
    · rename_i hnot
      rw [if_neg fun hfor => hnot ⟨hfor.1, hfor.2.1⟩]
      exact ih h

theorem parseForJson_position (us : List Token) (h : us <:+ ts) :
    parseForJson ts (position ts us) = .ok (Select.readForJson? 0 us) := by
  have hround := forJsonRound.eq_1 ts (position ts us) ()
  rw [findKw_position h] at hround
  cases hcut : fromKw ["FOR"] us with
  | nil =>
    rw [hcut, if_pos rfl] at hround
    rw [parseForJson, loop_done hround, readForJson?_of_cutAtKw_eq_nil hcut]
  | cons t rest =>
    have hfor : t :: rest <:+ ts := hcut ▸ (isSuffix_fromKw ["FOR"] us).trans h
    have hrest : rest <:+ ts := isSuffix_tail hfor
    rw [hcut, if_neg (List.cons_ne_nil t rest)] at hround
    dsimp only at hround
    rw [← position_cons hfor, hasKw_eq, drop_position hrest] at hround
    rw [readForJson?_of_cutAtKw hcut]
    split
    · rename_i hjson
      have hlength : 0 < rest.length := lt_length_of_startsWithKw hjson
      have hbehind : position ts (t :: rest) + 2 = position ts (rest.drop 1) := by
        rw [position_drop hrest hlength, position_cons hfor]
      rw [if_pos hjson, hbehind, slice_position_length ((List.drop_suffix 1 rest).trans hrest),
        ok_bind, readJsonOptions_eq] at hround
      exact loop_done hround
    · rename_i hjson
      rw [if_neg hjson] at hround
      have hshorter : rest.length < us.length := by
        have hlength := (isSuffix_fromKw ["FOR"] us).length_le
        rw [hcut, List.length_cons] at hlength
        exact hlength
      have hlength : position ts us < ts.length :=
        position_lt_length_of_pos h (Nat.zero_lt_of_lt hshorter)
      rw [parseForJson, loop_goOn hround (position_lt h hshorter) hlength]
      exact parseForJson_position rest hrest
termination_by us.length

end SqlSnapshot.Indexed
