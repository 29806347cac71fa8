import SqlSnapshot.Proofs.Definition.Body
import SqlSnapshot.Proofs.Definition.Spelling.Select

/-!
# Spelling of bodies

A body in another spelling is cut into the same statements, with the same common table expressions,
and its findings are the same up to the case of names and types.
-/

namespace SqlSnapshot

open Text Token

/-! ## What is recorded, in lower case -/

def ResultSet.lowered (s : ResultSet) : ResultSet :=
  { s with
    jsonRoot := s.jsonRoot.map asciiLower
    execSchema := s.execSchema.map asciiLower
    execProcedure := s.execProcedure.map asciiLower
    columns := Column.loweredAll s.columns }

def Descriptor.lowered (d : Descriptor) : Descriptor :=
  ⟨asciiLower d.schema, asciiLower d.name⟩

def Findings.lowered (found : Findings) : Findings where
  resultSets := found.resultSets.map ResultSet.lowered
  executed := found.executed.map Descriptor.lowered
  issues := found.issues

theorem Findings.lowered_append (a b : Findings) :
    (a.append b).lowered = a.lowered.append b.lowered := by
  simp [append, lowered]

def ParseError.lowered : ParseError → ParseError
  | .missingParameterType parameter => .missingParameterType (asciiLower parameter)
  | e => e

/-- The outcome of a reader with its error in lower case, and its result changed by `change`. -/
def lowerOutcome {α β : Type} (change : α → β) : Except ParseError α → Except ParseError β
  | .ok a => .ok (change a)
  | .error e => .error e.lowered

theorem bind_lowerOutcome
    {α β γ δ : Type} {next : α → Except ParseError γ} {other : β → Except ParseError δ}
    {before : α → β} {after : γ → δ} (h : ∀ a, other (before a) = lowerOutcome after (next a))
    (x : Except ParseError α) :
    (lowerOutcome before x >>= other) = lowerOutcome after (x >>= next) := by
  cases x with
  | error e => rfl
  | ok a => exact h a

namespace Body

variable {ctes : List String} {t : Token} {ts : List Token}

/-! ## Ends of statements -/

theorem startsStatement_normal (prev t : Token) (ts : List Token) (caseDepth : Nat) :
    startsStatement prev.normal t.normal (ts.map normal) caseDepth =
      startsStatement prev t ts caseDepth := by
  have hperiod : (ts.map normal).head? = some .period ↔ ts.head? = some .period := by
    cases ts <;> simp
  simp only [startsStatement, isAnyKw_normal, isKw_normal, subset_keywords, mem_keywords,
    normal_eq_period, hperiod, startsWithParen_normal, startsWithKw_normal, List.cons_subset,
    List.nil_subset, and_self]

theorem cutStatement_normal (prev : Token) (depth caseDepth : Nat) (ts : List Token) :
    cutStatement prev.normal depth caseDepth (ts.map normal) =
      normalBoth (cutStatement prev depth caseDepth ts) := by
  induction ts generalizing prev depth caseDepth with
  | nil => rfl
  | cons t ts ih =>
    simp only [List.map_cons, cutStatement, ih, depthAfter_normal, startsStatement_normal,
      normal_eq_rparen, normal_eq_semicolon, isKw_normal, mem_keywords]
    split_ifs <;> rfl

theorem afterStatement_normal (ts : List Token) :
    afterStatement (ts.map normal) = (afterStatement ts).map normal := by
  cases ts with
  | nil => rfl
  | cons t ts => rw [List.map_cons, afterStatement, cutStatement_normal]; rfl

theorem afterSemicolon_normal (depth : Nat) (ts : List Token) :
    afterSemicolon depth (ts.map normal) = (afterSemicolon depth ts).map normal := by
  induction ts generalizing depth with
  | nil => rfl
  | cons t ts ih =>
    simp only [List.map_cons, afterSemicolon, ih, depthAfter_normal, normal_eq_semicolon]
    split <;> rfl

theorem skipColumns_normal (ts : List Token) :
    skipColumns (ts.map normal) = (skipColumns ts).map normal := by
  simp only [skipColumns, startsWithParen_normal, skipGroup?_normal, ← List.map_drop,
    Option.getD_map]
  split <;> rfl

theorem skipToClose_normal (ts : List Token) :
    skipToClose (ts.map normal) = (skipToClose ts).map normal := by
  simp only [skipToClose, startsWithParen_normal, skipGroup?_normal]
  split
  · cases skipGroup? ts <;> rfl
  · rfl

theorem skipHints_normal (ts : List Token) :
    skipHints (ts.map normal) = (skipHints ts).map normal := by
  simp only [skipHints, ← List.map_drop, startsWithKw_normal, mem_keywords,
    startsWithParen_normal, skipGroup?_normal, Option.getD_map]
  split <;> rfl

theorem skipOutput_normal (ts : List Token) :
    skipOutput (ts.map normal) = (skipOutput ts).map normal := by
  rw [skipOutput, skipOutput, startsWithKw_normal ts (by simp), fromKw_normal (by simp)]
  split
  · cases fromKw ["SELECT", "VALUES", "EXEC", "EXECUTE", "DEFAULT"] ts <;> rfl
  · rfl

theorem insertSource_normal (ts : List Token) :
    insertSource (ts.map normal) = (insertSource ts).map normal := by
  rw [insertSource_eq, insertSource_eq, skipHints_normal, skipColumns_normal,
    skipOutput_normal]

theorem afterInsert_normal (t : Token) (ts : List Token) :
    afterInsert t.normal (ts.map normal) = (afterInsert t ts).map normal := by
  rw [afterInsert, afterInsert, dropKw_normal (by simp), readName?_normal]
  cases readName? (if startsWithKw "INTO" ts then ts.drop 1 else ts) with
  | none => exact afterStatement_normal (t :: ts)
  | some name =>
    show afterStatement (insertSource (name.2.map normal)) = _
    rw [insertSource_normal, afterStatement_normal]

theorem afterUpdate_normal (t : Token) (ts : List Token) :
    afterUpdate t.normal (ts.map normal) = (afterUpdate t ts).map normal := by
  rw [afterUpdate, afterUpdate, fromKw_normal (by simp)]
  cases fromKw ["SET"] ts with
  | nil => exact afterStatement_normal (t :: ts)
  | cons u us => exact afterStatement_normal (u :: us)

theorem afterDeclare_normal (t : Token) (ts : List Token) :
    afterDeclare t.normal (ts.map normal) = (afterDeclare t ts).map normal := by
  have hcursor : ((ts.map normal).take 3).any (·.isKw "CURSOR") =
      (ts.take 3).any (·.isKw "CURSOR") := by
    rw [← List.map_take, List.any_map]
    exact List.any_congr rfl fun u => isKw_normal u (by simp)
  have hquery : (fromKw ["FOR"] (ts.map normal)).drop 1 =
      ((fromKw ["FOR"] ts).drop 1).map normal := by
    rw [fromKw_normal (by simp), List.map_drop]
  have hstatement := afterStatement_normal (t :: ts)
  rw [List.map_cons] at hstatement
  simp only [afterDeclare, hcursor, hquery, startsWithKw_normal, mem_keywords, hstatement,
    afterStatement_normal]
  split <;> rfl

/-! ## Common table expressions -/

theorem startsCtes_normal (t : Token) (ts : List Token) :
    startsCtes t.normal (ts.map normal) = startsCtes t ts := by
  match ts with
  | [] => simp [startsCtes]
  | [name] => simp [startsCtes]
  | name :: next :: rest =>
    have hparen : (next.normal == .lparen) = (next == .lparen) := by
      rw [Bool.eq_iff_iff]
      simp
    simp [startsCtes, hparen]

theorem not_startsCtes_normal (h : ¬ startsCtes t ts = true) :
    ¬ startsCtes t.normal (ts.map normal) = true := by
  rwa [startsCtes_normal]

theorem readCtes_normal (ts : List Token) :
    readCtes (ts.map normal) = normalName (readCtes ts) := by
  fun_induction readCtes ts with
  | case1 name quoted rest t query hs has hparen more hq x names after hmore ih =>
    rw [List.map_cons, normal_word, readCtes_word, skipToClose_normal, hs]
    simp only [List.map_cons, isKw_normal, mem_keywords, has, if_true, startsWithParen_normal,
      hparen, skipToClose_normal, hq, normal_comma, ih, hmore]
    rfl
  | case2 name quoted rest t query hs has hparen hq =>
    rw [List.map_cons, normal_word, readCtes_word, skipToClose_normal, hs]
    simp only [List.map_cons, isKw_normal, mem_keywords, has, if_true, startsWithParen_normal,
      hparen, skipToClose_normal]
    cases hlast : skipToClose query with
    | nil => rfl
    | cons u us => cases u <;> first | rfl | exact absurd hlast (hq us)
  | case3 name quoted rest t query hs has hparen =>
    rw [List.map_cons, normal_word, readCtes_word, skipToClose_normal, hs]
    simp [has, hparen]
    rfl
  | case4 name quoted rest t query hs has =>
    rw [List.map_cons, normal_word, readCtes_word, skipToClose_normal, hs]
    simp [has]
    rfl
  | case5 name quoted rest hs =>
    rw [List.map_cons, normal_word, readCtes_word, skipToClose_normal, hs]
    rfl
  | case6 ts hname =>
    have hname' : ∀ name quoted rest, ts.map normal ≠ .word name quoted :: rest := by
      intro name quoted rest h
      cases ts with
      | nil => cases h
      | cons t ts =>
        cases t with
        | word text quoted => exact hname text quoted ts rfl
        | _ => cases h
    rw [readCtes]
    · rfl
    · exact hname'

/-! ## Executed procedures -/

theorem isSystem_lowered (isUnqualified : Bool) (d : Descriptor) :
    isSystem isUnqualified d.lowered = isSystem isUnqualified d := by
  have hsys : sameAscii (asciiLower d.schema) "sys" = sameAscii d.schema "sys" :=
    sameAscii_asciiLower d.schema "sys"
  simp only [isSystem, Descriptor.lowered, hsys, asciiLower_asciiLower]

theorem targetOf_lowered (parts : List String) :
    targetOf (parts.map asciiLower) = (targetOf parts).lowered := by
  have hname := Source.getLastD_map_asciiLower "" rfl parts
  have hschema := Source.getLastD_map_asciiLower defaultSchema (by decide) parts.dropLast
  rw [targetOf, hname, ← List.map_dropLast, hschema]
  rfl

theorem skipStatus_normal (ts : List Token) :
    skipStatus (ts.map normal) = (skipStatus ts).map normal := by
  match ts with
  | [] => rfl
  | [t] => rfl
  | t :: u :: ts =>
    cases u with
    | equals =>
      simp only [List.map_cons, normal_equals, skipStatus, isVariable_normal]
      split <;> rfl
    | _ => rfl

/-- What the execution of a procedure with the given name contributes. -/
def ofExecuted (parts : List String) : Findings :=
  if sameAscii (targetOf parts).name "sp_executesql" then { issues := [.dynamicSql] }
  else if isSystem (parts.length == 1) (targetOf parts) then {}
  else { resultSets := [.forwarded (targetOf parts)], executed := [targetOf parts] }

theorem ofExecuted_lowered (parts : List String) :
    ofExecuted (parts.map asciiLower) = (ofExecuted parts).lowered := by
  have hdynamic : sameAscii (targetOf parts).lowered.name "sp_executesql" =
      sameAscii (targetOf parts).name "sp_executesql" :=
    sameAscii_asciiLower (targetOf parts).name "sp_executesql"
  simp only [ofExecuted, targetOf_lowered, isSystem_lowered, List.length_map, hdynamic]
  split_ifs <;> rfl

theorem readExec_normal (ts : List Token) : readExec (ts.map normal) = (readExec ts).lowered := by
  rw [readExec, readExec, skipStatus_normal]
  cases skipStatus ts with
  | nil => rfl
  | cons t rest =>
    cases t with
    | word text quoted =>
      have hvariable := isVariable_normal (.word text quoted)
      have hparts : asciiLower text :: (readNameTail (rest.map normal)).1 =
          (text :: (readNameTail rest).1).map asciiLower := by
        rw [readNameTail_normal, List.map_cons]
      show (if Token.isVariable (normal (.word text quoted)) then { issues := [.dynamicSql] }
        else ofExecuted (asciiLower text :: (readNameTail (rest.map normal)).1)) =
          (if Token.isVariable (.word text quoted) then { issues := [.dynamicSql] }
            else ofExecuted (text :: (readNameTail rest).1) : Findings).lowered
      rw [hvariable, hparts, ofExecuted_lowered]
      split <;> rfl
    | _ => rfl

/-! ## Statements -/

theorem resultSet_lowered (select : Select) :
    resultSet select.lowered = (resultSet select).lowered := by
  obtain ⟨columns, json, assignsVariables, hasInto, issues⟩ := select
  cases json <;> rfl

/-- What a select contributes that has a select list. -/
def ofSelect (select : Select) : Findings where
  resultSets := if select.assignsVariables || select.hasInto then [] else [resultSet select]
  issues := select.issues

theorem readSelect_eq (ctes : List String) (ts : List Token) :
    readSelect ctes ts =
      (Select.checkList ts).map fun _ => ofSelect (Select.read ctes [] ts) := by
  rw [readSelect]
  cases Select.checkList ts <;> rfl

theorem ofSelect_lowered (select : Select) :
    ofSelect select.lowered = (ofSelect select).lowered := by
  have hsets : (if select.assignsVariables || select.hasInto then []
      else [(resultSet select).lowered]) =
      (if select.assignsVariables || select.hasInto then [] else [resultSet select]).map
        ResultSet.lowered := by
    split <;> rfl
  rw [ofSelect, resultSet_lowered, Findings.lowered, ofSelect, ← hsets]
  rfl

theorem readSelect_normal (ctes : List String) (ts : List Token) :
    readSelect (ctes.map asciiLower) (ts.map normal) =
      lowerOutcome Findings.lowered (readSelect ctes ts) := by
  have hread : Select.read (ctes.map asciiLower) [] (ts.map normal) =
      (Select.read ctes [] ts).lowered := (Select.read_normal ctes).1 [] ts
  rw [readSelect_eq, readSelect_eq, Select.checkList_normal, hread, ofSelect_lowered,
    Select.checkList]
  split <;> rfl

theorem readStatement?_normal (ctes : List String) (t : Token) (ts : List Token) :
    readStatement? (ctes.map asciiLower) t.normal (ts.map normal) =
      (readStatement? ctes t ts).map
        (Prod.map (lowerOutcome Findings.lowered) (List.map normal)) := by
  have hstatement := afterStatement_normal (t :: ts)
  rw [List.map_cons] at hstatement
  have hselect := readSelect_normal ctes (t :: (cutStatement t 0 0 ts).1)
  rw [List.map_cons] at hselect
  simp only [readStatement?, isKw_normal, isAnyKw_normal, mem_keywords, List.cons_subset,
    List.nil_subset, and_self, cutStatement_normal, normalBoth_fst, normalBoth_snd,
    afterInsert_normal, afterUpdate_normal, afterDeclare_normal, afterSemicolon_normal,
    hstatement, hselect, readExec_normal]
  split_ifs <;> rfl

theorem followedBy_lowered (first second : Except ParseError Findings) :
    lowerOutcome Findings.lowered (followedBy first second) =
      followedBy (lowerOutcome Findings.lowered first) (lowerOutcome Findings.lowered second) := by
  cases first with
  | error e => rfl
  | ok own =>
    cases second with
    | error e => rfl
    | ok others => exact congrArg Except.ok (Findings.lowered_append own others)

theorem read_normal (ctes : List String) (ts : List Token) :
    read (ctes.map asciiLower) (ts.map normal) =
      lowerOutcome Findings.lowered (read ctes ts) := by
  fun_induction read ctes ts with
  | case1 ctes => rw [List.map_nil, read_nil]; rfl
  | case2 ctes rest after h _ ih =>
    have h' := skipGroup?_normal (.lparen :: rest)
    rw [h] at h'
    rw [List.map_cons, normal_lparen, read_group h', ih]
  | case3 ctes rest h =>
    have h' := skipGroup?_normal (.lparen :: rest)
    rw [h] at h'
    rw [List.map_cons, normal_lparen, read_unclosed h']
    rfl
  | case4 ctes t rest ht hctes _ ih =>
    have hctes' : startsCtes t.normal (rest.map normal) = true :=
      (startsCtes_normal t rest).trans hctes
    rw [List.map_cons, read_ctes (mt t.normal_eq_lparen.mp ht) hctes', readCtes_normal]
    exact ih
  | case5 ctes t rest ht hctes h ih =>
    have h' := readStatement?_normal ctes t rest
    rw [h] at h'
    rw [List.map_cons,
      read_other (mt t.normal_eq_lparen.mp ht) (not_startsCtes_normal hctes) h', ih]
  | case6 ctes t rest ht hctes after e h _ =>
    have h' := readStatement?_normal ctes t rest
    rw [h] at h'
    rw [List.map_cons,
      read_statement (mt t.normal_eq_lparen.mp ht) (not_startsCtes_normal hctes) h']
    rfl
  | case7 ctes t rest ht hctes after found h _ _ ih =>
    have h' := readStatement?_normal ctes t rest
    rw [h] at h'
    rw [List.map_cons,
      read_statement (mt t.normal_eq_lparen.mp ht) (not_startsCtes_normal hctes) h']
    rw [List.map_nil] at ih
    rw [ih]
    exact (followedBy_lowered (.ok found) (read [] after)).symm

end Body

end SqlSnapshot
