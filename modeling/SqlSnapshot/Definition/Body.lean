import SqlSnapshot.Content.Basic
import SqlSnapshot.Definition.Select

/-!
# Procedure bodies

Statements need no terminator, so a statement ends where the next keyword that starts one stands
outside parentheses and `CASE … END`.  The body is read from one statement to the next; each
contributes its findings, and those of the body are theirs in order.  What a reader leaves over is
a suffix of its list, so that the reading ends.
-/

namespace SqlSnapshot

/-- What statements contribute: result sets, the targets of `EXEC` in order, and issues. -/
structure Findings where
  resultSets : List ResultSet := []
  executed : List Descriptor := []
  issues : List Issue := []
deriving Inhabited

namespace Findings

def append (a b : Findings) : Findings where
  resultSets := a.resultSets ++ b.resultSets
  executed := a.executed ++ b.executed
  issues := a.issues ++ b.issues

end Findings

namespace Body

open Token

def statementKeywords : List String :=
  ["SELECT", "INSERT", "UPDATE", "DELETE", "MERGE", "SET", "DECLARE", "IF", "ELSE", "WHILE",
   "BEGIN", "END", "RETURN", "EXEC", "EXECUTE", "PRINT", "RAISERROR", "THROW", "TRUNCATE",
   "DROP", "CREATE", "ALTER", "COMMIT", "ROLLBACK", "BREAK", "CONTINUE", "GOTO", "WAITFOR",
   "OPEN", "FETCH", "CLOSE", "DEALLOCATE", "WITH", "USE"]

/-! ## Ends of statements -/

/-- The keyword `t` between `prev` and `ts` starts a statement.  A word next to a period or after
`AS` is a name, `ELSE` may belong to an open `CASE`, `SELECT` to a set operator, and `WITH` to
hints or ties. -/
def startsStatement (prev t : Token) (ts : List Token) (caseDepth : Nat) : Bool :=
  if !t.isAnyKw statementKeywords then false
  else if prev = .period ∨ prev.isKw "AS" = true then false
  else if ts.head? = some .period then false
  else if t.isKw "ELSE" then caseDepth == 0
  else if t.isKw "SELECT" then !prev.isAnyKw ["UNION", "ALL", "EXCEPT", "INTERSECT"]
  else if t.isKw "WITH" then !startsWithParen ts && !startsWithKw "TIES" ts
  else true

/-- Cuts the rest of a statement off, before which `prev` stands: it ends before a terminator, a
closing parenthesis that is not open here, or the next statement. -/
def cutStatement (prev : Token) (depth caseDepth : Nat) : List Token → List Token × List Token
  | [] => ([], [])
  | t :: ts =>
    if depth = 0 then
      if t = .rparen ∨ t = .semicolon then ([], t :: ts)
      else if t.isKw "CASE" then
        let (taken, rest) := cutStatement t 0 (caseDepth + 1) ts
        (t :: taken, rest)
      else if t.isKw "END" ∧ 0 < caseDepth then
        let (taken, rest) := cutStatement t 0 (caseDepth - 1) ts
        (t :: taken, rest)
      else if startsStatement prev t ts caseDepth then ([], t :: ts)
      else
        let (taken, rest) := cutStatement t (depthAfter 0 t) caseDepth ts
        (t :: taken, rest)
    else
      let (taken, rest) := cutStatement t (depthAfter depth t) caseDepth ts
      (t :: taken, rest)

theorem append_cutStatement (prev : Token) (depth caseDepth : Nat) (ts : List Token) :
    (cutStatement prev depth caseDepth ts).1 ++ (cutStatement prev depth caseDepth ts).2 = ts := by
  fun_induction cutStatement prev depth caseDepth ts <;> simp_all

theorem isSuffix_cutStatement (prev : Token) (depth caseDepth : Nat) (ts : List Token) :
    (cutStatement prev depth caseDepth ts).2 <:+ ts :=
  ⟨_, append_cutStatement prev depth caseDepth ts⟩

def afterStatement : List Token → List Token
  | [] => []
  | t :: ts => (cutStatement t 0 0 ts).2

theorem isSuffix_afterStatement (ts : List Token) : afterStatement ts <:+ ts := by
  cases ts with
  | nil => exact List.suffix_refl []
  | cons t ts => exact (isSuffix_cutStatement t 0 0 ts).trans (List.suffix_cons t ts)

/-- The tokens after the first terminator outside parentheses. -/
def afterSemicolon (depth : Nat) : List Token → List Token
  | [] => []
  | t :: ts => if t = .semicolon ∧ depth = 0 then ts else afterSemicolon (depthAfter depth t) ts

theorem isSuffix_afterSemicolon (depth : Nat) (ts : List Token) :
    afterSemicolon depth ts <:+ ts := by
  induction ts generalizing depth with
  | nil => exact List.suffix_refl []
  | cons t ts ih =>
    rw [afterSemicolon]
    split
    · exact List.suffix_cons t ts
    · exact (ih _).trans (List.suffix_cons t ts)

/-- A group that is skipped leaves a suffix over, and so does one that is not closed. -/
theorem isSuffix_skipGroup?_getD {ts rest : List Token} (h : rest <:+ ts) :
    (skipGroup? ts).getD rest <:+ ts := by
  cases hgroup : skipGroup? ts with
  | none => exact h
  | some after => exact isSuffix_skipGroup? hgroup

/-- Skips a parenthesized group; of one that is not closed, only its parenthesis. -/
def skipColumns (ts : List Token) : List Token :=
  if startsWithParen ts then (skipGroup? ts).getD (ts.drop 1) else ts

theorem isSuffix_skipColumns (ts : List Token) : skipColumns ts <:+ ts := by
  unfold skipColumns
  split
  · exact isSuffix_skipGroup?_getD (List.drop_suffix 1 ts)
  · exact List.suffix_refl ts

/-- Skips the hints of the target of an `INSERT`. -/
def skipHints (ts : List Token) : List Token :=
  if startsWithKw "WITH" ts && startsWithParen (ts.drop 1) then
    (skipGroup? (ts.drop 1)).getD (ts.drop 1) else ts

theorem isSuffix_skipHints (ts : List Token) : skipHints ts <:+ ts := by
  unfold skipHints
  split
  · exact (isSuffix_skipGroup?_getD (List.suffix_refl _)).trans (List.drop_suffix 1 ts)
  · exact List.suffix_refl ts

/-- Skips the `OUTPUT` of an `INSERT`. -/
def skipOutput (ts : List Token) : List Token :=
  if startsWithKw "OUTPUT" ts then
    match fromKw ["SELECT", "VALUES", "EXEC", "EXECUTE", "DEFAULT"] ts with
    | [] => ts
    | source => source
  else ts

theorem isSuffix_skipOutput (ts : List Token) : skipOutput ts <:+ ts := by
  unfold skipOutput
  split
  · split
    · exact List.suffix_refl ts
    · exact isSuffix_fromKw _ ts
  · exact List.suffix_refl ts

/-- The source statement of an `INSERT`, given the tokens after its target. -/
def insertSource (ts : List Token) : List Token :=
  let ts := if startsWithKw "WITH" ts && startsWithParen (ts.drop 1) then
      (skipGroup? (ts.drop 1)).getD (ts.drop 1) else ts
  let ts := skipColumns ts
  if startsWithKw "OUTPUT" ts then
    match fromKw ["SELECT", "VALUES", "EXEC", "EXECUTE", "DEFAULT"] ts with
    | [] => ts
    | source => source
  else ts

/-- The hints of the target, its columns and `OUTPUT` are skipped one after the other. -/
theorem insertSource_eq (ts : List Token) :
    insertSource ts = skipOutput (skipColumns (skipHints ts)) := rfl

theorem isSuffix_insertSource (ts : List Token) : insertSource ts <:+ ts := by
  rw [insertSource_eq]
  exact ((isSuffix_skipOutput _).trans (isSuffix_skipColumns _)).trans (isSuffix_skipHints ts)

/-- The tokens after an `INSERT`, whose source statement belongs to it; `ts` stands after the
keyword `t`. -/
def afterInsert (t : Token) (ts : List Token) : List Token :=
  let target := if startsWithKw "INTO" ts then ts.drop 1 else ts
  match readName? target with
  | none => afterStatement (t :: ts)
  | some (_, rest) => afterStatement (insertSource rest)

/-- The tokens after an `UPDATE`: its statement goes on to the next `SET`. -/
def afterUpdate (t : Token) (ts : List Token) : List Token :=
  match fromKw ["SET"] ts with
  | [] => afterStatement (t :: ts)
  | set => afterStatement set

/-- The tokens after a `DECLARE`; a cursor keeps the select that it is declared for. -/
def afterDeclare (t : Token) (ts : List Token) : List Token :=
  let isCursor := (ts.take 3).any (·.isKw "CURSOR")
  let query := (fromKw ["FOR"] ts).drop 1
  if isCursor && startsWithKw "SELECT" query then afterStatement query
  else afterStatement (t :: ts)

/-- The target of an `INSERT` and what follows it. -/
def insertTarget (ts : List Token) : List Token :=
  if startsWithKw "INTO" ts then ts.drop 1 else ts

theorem isSuffix_insertTarget (ts : List Token) : insertTarget ts <:+ ts := by
  unfold insertTarget
  split
  · exact List.drop_suffix 1 ts
  · exact List.suffix_refl ts

theorem afterInsert_eq (t : Token) (ts : List Token) :
    afterInsert t ts =
      match readName? (insertTarget ts) with
      | none => afterStatement (t :: ts)
      | some (_, rest) => afterStatement (insertSource rest) := rfl

theorem isSuffix_afterInsert (t : Token) (ts : List Token) : afterInsert t ts <:+ ts := by
  rw [afterInsert_eq]
  cases hname : readName? (insertTarget ts) with
  | none => exact isSuffix_cutStatement t 0 0 ts
  | some name =>
    obtain ⟨parts, rest⟩ := name
    have hrest : rest <:+ ts := (isSuffix_readName? hname).trans (isSuffix_insertTarget ts)
    exact ((isSuffix_afterStatement _).trans (isSuffix_insertSource rest)).trans hrest

theorem isSuffix_afterUpdate (t : Token) (ts : List Token) : afterUpdate t ts <:+ ts := by
  unfold afterUpdate
  split
  · exact isSuffix_cutStatement t 0 0 ts
  · exact (isSuffix_afterStatement _).trans (isSuffix_fromKw _ ts)

theorem isSuffix_afterDeclare (t : Token) (ts : List Token) : afterDeclare t ts <:+ ts := by
  unfold afterDeclare
  dsimp only
  split
  · exact ((isSuffix_afterStatement _).trans (List.drop_suffix 1 _)).trans (isSuffix_fromKw _ ts)
  · exact isSuffix_cutStatement t 0 0 ts

/-! ## Common table expressions -/

/-- `WITH` introduces common table expressions. -/
def startsCtes (t : Token) (ts : List Token) : Bool :=
  t.isKw "WITH" &&
    match ts with
    | name :: next :: _ =>
      name.isWord && !name.isKw "TIES" && (next.isKw "AS" || next == .lparen)
    | _ => false

/-- Skips a parenthesized group; one that is not closed takes the rest. -/
def skipToClose (ts : List Token) : List Token :=
  if startsWithParen ts then (skipGroup? ts).getD [] else ts

theorem isSuffix_skipToClose (ts : List Token) : skipToClose ts <:+ ts := by
  unfold skipToClose
  split
  · exact isSuffix_skipGroup?_getD List.nil_suffix
  · exact List.suffix_refl ts

theorem length_of_skipToClose_twice {rest query more : List Token} {t u : Token}
    (hs : skipToClose rest = t :: query) (hq : skipToClose query = u :: more) :
    more.length < rest.length + 1 := by
  have h1 := (isSuffix_skipToClose rest).length_le
  have h2 := (isSuffix_skipToClose query).length_le
  rw [hs, List.length_cons] at h1
  rw [hq, List.length_cons] at h2
  omega

/-- The names of the common table expressions, and the statement that uses them. -/
def readCtes (ts : List Token) : List String × List Token :=
  match ts with
  | .word name _ :: rest =>
    match hs : skipToClose rest with
    | t :: query =>
      if t.isKw "AS" then
        if startsWithParen query then
          match hq : skipToClose query with
          | .comma :: more =>
            have := length_of_skipToClose_twice hs hq
            let (names, rest) := readCtes more
            (name :: names, rest)
          | rest => ([name], rest)
        else ([], query)
      else ([], t :: query)
    | [] => ([], [])
  | ts => ([], ts)
termination_by ts.length

theorem isSuffix_readCtes (ts : List Token) : (readCtes ts).2 <:+ ts := by
  have hname : ∀ {name quoted rest t query}, skipToClose rest = t :: query →
      query <:+ .word name quoted :: rest := by
    intro name quoted rest t query hs
    have hrest : t :: query <:+ rest := hs ▸ isSuffix_skipToClose rest
    exact ((List.suffix_cons t query).trans hrest).trans (List.suffix_cons _ rest)
  fun_induction readCtes ts with
  | case1 name quoted rest t query hs has hparen more hq x names after hmore ih =>
    have hsecond : .comma :: more <:+ query := hq ▸ isSuffix_skipToClose query
    rw [hmore] at ih
    exact ((ih.trans (List.suffix_cons _ more)).trans hsecond).trans (hname hs)
  | case2 name quoted rest t query hs has hparen hq =>
    exact (isSuffix_skipToClose query).trans (hname hs)
  | case3 name quoted rest t query hs has hparen => exact hname hs
  | case4 name quoted rest t query hs has =>
    exact (hs ▸ isSuffix_skipToClose rest).trans (List.suffix_cons _ rest)
  | case5 name quoted rest hs => exact List.nil_suffix
  | case6 ts hname => exact List.suffix_refl ts

theorem length_readCtes (ts : List Token) : (readCtes ts).2.length ≤ ts.length :=
  (isSuffix_readCtes ts).length_le

/-! ## Executed procedures -/

/-- Names of procedures of the server, which return no result sets of the application. -/
def isSystem (isUnqualified : Bool) (d : Descriptor) : Bool :=
  Text.sameAscii d.schema "sys" ||
    (isUnqualified && "sp_".toList.isPrefixOf (Text.asciiLower d.name).toList)

def targetOf (parts : List String) : Descriptor :=
  ⟨parts.dropLast.getLast?.getD defaultSchema, parts.getLast?.getD ""⟩

/-- Skips `@status =` before the target of an `EXEC`. -/
def skipStatus : List Token → List Token
  | t :: .equals :: ts => if t.isVariable then ts else t :: .equals :: ts
  | ts => ts

/-- What an `EXEC` contributes, given the tokens after the keyword. -/
def readExec (ts : List Token) : Findings :=
  match skipStatus ts with
  | .lparen :: _ => { issues := [.dynamicSql] }
  | .word text quoted :: rest =>
    if Token.isVariable (.word text quoted) then { issues := [.dynamicSql] }
    else
      let parts := text :: (readNameTail rest).1
      let target := targetOf parts
      if Text.sameAscii target.name "sp_executesql" then { issues := [.dynamicSql] }
      else if isSystem (parts.length == 1) target then {}
      else { resultSets := [.forwarded target], executed := [target] }
  | _ => {}

/-! ## Statements -/

def resultSet (select : Select) : ResultSet where
  returnsJson := select.json.isSome
  returnsJsonArray := (select.json.map (·.array)).getD false
  jsonRoot := select.json.bind (·.root)
  includeNullValues := (select.json.map (·.includeNullValues)).getD false
  columns := select.columns

/-- What a select contributes, given its tokens from the keyword on. -/
def readSelect (ctes : List String) (ts : List Token) : Except ParseError Findings := do
  Select.checkList ts
  let select := Select.read ctes [] ts
  let silent := select.assignsVariables || select.hasInto
  return { resultSets := if silent then [] else [resultSet select], issues := select.issues }

/-- What the statement that starts with `t` contributes, and the tokens after it; `none` if no
statement that is looked into starts there. -/
def readStatement? (ctes : List String) (t : Token) (ts : List Token) :
    Option (Except ParseError Findings × List Token) :=
  if t.isKw "SELECT" then
    let (taken, rest) := cutStatement t 0 0 ts
    some (readSelect ctes (t :: taken), rest)
  else if t.isKw "INSERT" then some (.ok {}, afterInsert t ts)
  else if t.isKw "UPDATE" then some (.ok {}, afterUpdate t ts)
  else if t.isKw "MERGE" then some (.ok {}, afterSemicolon 0 ts)
  else if t.isKw "DECLARE" then some (.ok {}, afterDeclare t ts)
  else if t.isAnyKw ["DELETE", "SET"] then some (.ok {}, afterStatement (t :: ts))
  else if t.isAnyKw ["EXEC", "EXECUTE"] then
    let (taken, rest) := cutStatement t 0 0 ts
    some (.ok (readExec taken), rest)
  else none

/-- The statements that find nothing, with the tokens after each. -/
inductive IsSilent (t : Token) (ts : List Token) : List Token → Prop where
  | insert : t.isKw "INSERT" = true → IsSilent t ts (afterInsert t ts)
  | update : t.isKw "UPDATE" = true → IsSilent t ts (afterUpdate t ts)
  | merge : t.isKw "MERGE" = true → IsSilent t ts (afterSemicolon 0 ts)
  | declare : t.isKw "DECLARE" = true → IsSilent t ts (afterDeclare t ts)
  | plain : t.isAnyKw ["DELETE", "SET"] = true → IsSilent t ts (afterStatement (t :: ts))

theorem IsSilent.isSuffix {t : Token} {ts after : List Token} (h : IsSilent t ts after) :
    after <:+ ts := by
  cases h with
  | insert _ => exact isSuffix_afterInsert t ts
  | update _ => exact isSuffix_afterUpdate t ts
  | merge _ => exact isSuffix_afterSemicolon 0 ts
  | declare _ => exact isSuffix_afterDeclare t ts
  | plain _ => exact isSuffix_cutStatement t 0 0 ts

/-- A statement that is looked into is a select, finds nothing or executes a procedure. -/
theorem readStatement?_cases {ctes : List String} {t : Token} {ts after : List Token}
    {found : Except ParseError Findings} (h : readStatement? ctes t ts = some (found, after)) :
    (t.isKw "SELECT" = true ∧ found = readSelect ctes (t :: (cutStatement t 0 0 ts).1) ∧
      after = (cutStatement t 0 0 ts).2) ∨
    (found = .ok {} ∧ IsSilent t ts after) ∨
    (t.isAnyKw ["EXEC", "EXECUTE"] = true ∧ found = .ok (readExec (cutStatement t 0 0 ts).1) ∧
      after = (cutStatement t 0 0 ts).2) := by
  unfold readStatement? at h
  split at h
  · rename_i hselect
    cases h
    exact .inl ⟨hselect, rfl, rfl⟩
  split at h
  · rename_i hinsert
    cases h
    exact .inr (.inl ⟨rfl, .insert hinsert⟩)
  split at h
  · rename_i hupdate
    cases h
    exact .inr (.inl ⟨rfl, .update hupdate⟩)
  split at h
  · rename_i hmerge
    cases h
    exact .inr (.inl ⟨rfl, .merge hmerge⟩)
  split at h
  · rename_i hdeclare
    cases h
    exact .inr (.inl ⟨rfl, .declare hdeclare⟩)
  split at h
  · rename_i hplain
    cases h
    exact .inr (.inl ⟨rfl, .plain hplain⟩)
  split at h
  · rename_i hexec
    cases h
    exact .inr (.inr ⟨hexec, rfl, rfl⟩)
  · cases h

theorem isSuffix_readStatement? {ctes : List String} {t : Token} {ts after : List Token}
    {found : Except ParseError Findings} (h : readStatement? ctes t ts = some (found, after)) :
    after <:+ ts := by
  obtain ⟨-, -, rfl⟩ | ⟨-, hsilent⟩ | ⟨-, -, rfl⟩ := readStatement?_cases h
  · exact isSuffix_cutStatement t 0 0 ts
  · exact hsilent.isSuffix
  · exact isSuffix_cutStatement t 0 0 ts

theorem length_readStatement? {ctes : List String} {t : Token} {ts after : List Token}
    {found : Except ParseError Findings} (h : readStatement? ctes t ts = some (found, after)) :
    after.length ≤ ts.length :=
  (isSuffix_readStatement? h).length_le

/-- The findings of the statements in the list; `ctes` are the names that hold for the next one. -/
def read (ctes : List String) (ts : List Token) : Except ParseError Findings :=
  match ts with
  | [] => .ok {}
  | t :: rest =>
    if t = .lparen then
      match h : skipGroup? (t :: rest) with
      | some after =>
        have : after.length < rest.length + 1 := length_skipGroup? h
        read ctes after
      | none => .ok {}
    else if startsCtes t rest then
      have := length_readCtes rest
      read (readCtes rest).1 (readCtes rest).2
    else
      match h : readStatement? ctes t rest with
      | none => read ctes rest
      | some (found, after) =>
        have := length_readStatement? h
        match found with
        | .error e => .error e
        | .ok found => (read [] after).map found.append
termination_by ts.length

end Body

end SqlSnapshot
