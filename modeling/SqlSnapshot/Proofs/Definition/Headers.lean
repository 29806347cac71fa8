import SqlSnapshot.Proofs.Definition.HeaderParameters

/-!
# Headers as they are written

The grammar of a header from `CREATE` or `ALTER` to the `AS` before the body, and what a header of
the grammar is read to.  An `AS` may stand in a parameter, in its parentheses and in `EXECUTE AS`;
the one before the body is the first that none of these takes.
-/

namespace SqlSnapshot.Header

open Token

/-! ## Grammar -/

inductive ProcedureOption where
  | plain (ts : List Token) (h : ∀ t ∈ ts, t.isAnyKw ["AS", "FOR", "EXECUTE", "EXEC"] = false)
  | executeAs (execute : Keyword ["EXECUTE", "EXEC"]) (asWord : Keyword ["AS"]) (principal : Token)

inductive CreateWords where
  | single (keyword : Keyword ["CREATE", "ALTER"])
  | createOrAlter (create : Keyword ["CREATE"]) (orWord : Keyword ["OR"])
      (alter : Keyword ["ALTER"])

/-- A header up to the `AS` before the body. -/
structure Written where
  create : CreateWords
  procedure : Keyword ["PROC", "PROCEDURE"]
  name : WrittenName
  number : Option String
  list : WrittenList
  options : Option (Keyword ["WITH"] × List ProcedureOption)
  replication : Option (Keyword ["FOR"] × Keyword ["REPLICATION"])
  asWord : Keyword ["AS"]

def ProcedureOption.tokens : ProcedureOption → List Token
  | .plain ts _ => ts
  | .executeAs execute asWord principal => [execute.1, asWord.1, principal]

def CreateWords.tokens : CreateWords → List Token
  | .single keyword => [keyword.1]
  | .createOrAlter create orWord alter => [create.1, orWord.1, alter.1]

def optionTokens : Option (Keyword ["WITH"] × List ProcedureOption) → List Token
  | none => []
  | some (withWord, options) => withWord.1 :: commaSeparated (options.map ProcedureOption.tokens)

def numberTokens : Option String → List Token
  | none => []
  | some digits => [.semicolon, .num digits]

namespace Written

/-- What stands between the parameters and the body. -/
def ending (h : Written) : List Token :=
  optionTokens h.options ++ (pairTokens h.replication ++ [h.asWord.1])

def tokens (h : Written) : List Token :=
  h.create.tokens ++ (h.procedure.1 :: (h.name.tokens ++
    (numberTokens h.number ++ (h.list.tokens ++ h.ending))))

end Written

variable {ts us rest : List Token} {t : Token}

/-! ## What follows the parameters -/

theorem skipOptions_of_not (h : t.isAnyKw ["AS", "FOR", "EXECUTE", "EXEC"] = false)
    (ts : List Token) : skipOptions (t :: ts) = skipOptions ts := by
  have hexecute : ∀ u, isExecuteAs t u = false := by
    intro u
    rw [isExecuteAs, isAnyKw_eq_false_of_subset h (by decide), Bool.false_and]
  have hend : t.isAnyKw ["AS", "FOR"] = false := isAnyKw_eq_false_of_subset h (by decide)
  cases ts with
  | nil => simp [skipOptions, hend]
  | cons u ts => cases ts <;> simp [skipOptions, hexecute, hend]

theorem skipOptions_executeAs
    (execute : Keyword ["EXECUTE", "EXEC"]) (asWord : Keyword ["AS"]) (principal : Token)
    (ts : List Token) :
    skipOptions (execute.1 :: asWord.1 :: principal :: ts) = skipOptions ts := by
  have hexecute : isExecuteAs execute.1 asWord.1 = true := by
    rw [isExecuteAs, execute.2, Bool.true_and]
    exact asWord.2
  rw [skipOptions, if_pos hexecute]

theorem skipOptions_end (h : startsWithAnyKw ["AS", "FOR"] ts = true) : skipOptions ts = ts := by
  cases ts with
  | nil => rfl
  | cons t ts =>
    have hkeyword : t.isAnyKw ["AS", "FOR"] = true := h
    have hexecute : ∀ u, isExecuteAs t u = false := by
      intro u
      rw [isExecuteAs, isAnyKw_eq_false_of_disjoint hkeyword (by decide), Bool.false_and]
    cases ts with
    | nil => simp [skipOptions, hkeyword]
    | cons u ts => cases ts <;> simp [skipOptions, hexecute, hkeyword]

theorem skipOptions_commaSeparated (options : List ProcedureOption) (rest : List Token) :
    skipOptions (commaSeparated (options.map ProcedureOption.tokens) ++ rest) =
      skipOptions rest := by
  have hrun : ∀ ts, (∀ t ∈ ts, t.isAnyKw ["AS", "FOR", "EXECUTE", "EXEC"] = false) → ∀ rest,
      skipOptions (ts ++ rest) = skipOptions rest := by
    intro ts h rest
    induction ts with
    | nil => rfl
    | cons t ts ih =>
      rw [List.forall_mem_cons] at h
      rw [List.cons_append, skipOptions_of_not h.1, ih h.2]
  have hall : ∀ rest, skipOptions (commaSeparated (options.map ProcedureOption.tokens) ++ rest) =
      skipOptions rest := by
    apply intercalate_induction (P := fun ts => ∀ rest, skipOptions (ts ++ rest) = skipOptions rest)
    · exact fun rest => rfl
    · intro ts us hts hus rest
      rw [List.append_assoc, hts, hus]
    · exact hrun [comma] (by decide)
    · intro part hpart
      obtain ⟨option, -, rfl⟩ := List.mem_map.mp hpart
      cases option with
      | plain ts h => exact hrun ts h
      | executeAs execute asWord principal => exact skipOptions_executeAs execute asWord principal
  exact hall rest

theorem skipWith_optionTokens
    (options : Option (Keyword ["WITH"] × List ProcedureOption))
    (h : startsWithAnyKw ["AS", "FOR"] ts = true) :
    (if startsWithKw "WITH" (optionTokens options ++ ts) then
      skipOptions ((optionTokens options ++ ts).drop 1) else optionTokens options ++ ts) = ts := by
  rcases options with _ | ⟨withWord, options⟩
  · have hwith : startsWithKw "WITH" ts = false := by
      cases ts with
      | nil => rfl
      | cons t ts => exact isAnyKw_eq_false_of_disjoint h (by decide)
    exact if_neg (ne_true_of_eq_false hwith)
  · have hskip : skipOptions (commaSeparated (options.map ProcedureOption.tokens) ++ ts) = ts := by
      rw [skipOptions_commaSeparated, skipOptions_end h]
    exact (if_pos withWord.2).trans hskip

theorem skipReplication_pairTokens
    (replication : Option (Keyword ["FOR"] × Keyword ["REPLICATION"]))
    (h : startsWithKw "AS" ts = true) :
    (if startsWithKw "FOR" (pairTokens replication ++ ts) &&
        startsWithKw "REPLICATION" ((pairTokens replication ++ ts).drop 1) then
      (pairTokens replication ++ ts).drop 2 else pairTokens replication ++ ts) = ts := by
  rcases replication with _ | ⟨forWord, replication⟩
  · have hfor : startsWithKw "FOR" ts = false := by
      cases ts with
      | nil => rfl
      | cons t ts => exact isAnyKw_eq_false_of_disjoint h (by decide)
    exact if_neg (by simp [pairTokens, hfor])
  · have hwords : (startsWithKw "FOR" (forWord.1 :: replication.1 :: ts) &&
        startsWithKw "REPLICATION" (replication.1 :: ts)) = true := by
      rw [Bool.and_eq_true]
      exact ⟨forWord.2, replication.2⟩
    exact if_pos hwords

namespace Written

variable (h : Written) (body : List Token)

theorem startsWithAnyKw_replication :
    startsWithAnyKw ["AS", "FOR"] (pairTokens h.replication ++ h.asWord.1 :: body) = true := by
  rcases h.replication with _ | ⟨forWord, replication⟩
  · exact isAnyKw_of_subset h.asWord.2 (by decide)
  · exact isAnyKw_of_subset forWord.2 (by decide)

theorem ending_append :
    h.ending ++ body =
      optionTokens h.options ++ (pairTokens h.replication ++ h.asWord.1 :: body) := by
  simp [ending]

theorem startsWithAnyKw_ending : startsWithAnyKw listEnd (h.ending ++ body) = true := by
  rw [ending_append]
  rcases h.options with _ | ⟨withWord, options⟩
  · have hstart := h.startsWithAnyKw_replication body
    cases hrest : pairTokens h.replication ++ h.asWord.1 :: body with
    | nil =>
      rw [hrest] at hstart
      cases hstart
    | cons t ts =>
      rw [hrest] at hstart
      exact isAnyKw_of_subset hstart (by decide)
  · exact isAnyKw_of_subset withWord.2 (by decide)

theorem afterOptions_ending : afterOptions (h.ending ++ body) = h.asWord.1 :: body := by
  rw [ending_append, afterOptions,
    skipWith_optionTokens h.options (h.startsWithAnyKw_replication body)]
  exact skipReplication_pairTokens h.replication h.asWord.2

/-- After the name and its number, a parenthesis or a word stands. -/
theorem head_list :
    ∀ t ∈ (h.list.tokens ++ (h.ending ++ body)).head?, t = .lparen ∨ t.isWord = true := by
  intro t ht
  have hending := h.startsWithAnyKw_ending body
  cases hlist : h.list with
  | grouped first others =>
    rw [hlist] at ht
    exact .inl (Option.some.inj ht).symm
  | bare parameters =>
    rw [hlist] at ht
    match parameters with
    | [] =>
      cases hrest : h.ending ++ body with
      | nil =>
        rw [hrest] at hending
        cases hending
      | cons u us =>
        rw [hrest] at hending ht
        obtain rfl : u = t := Option.some.inj ht
        exact .inr (isWord_of_isAnyKw hending)
    | [p] => exact .inr (Option.some.inj ht ▸ rfl)
    | p :: q :: ps => exact .inr (Option.some.inj ht ▸ rfl)

theorem skipNumber_tokens :
    skipNumber (numberTokens h.number ++ (h.list.tokens ++ (h.ending ++ body))) =
      h.list.tokens ++ (h.ending ++ body) := by
  cases h.number with
  | some digits => rfl
  | none =>
    have hhead := h.head_list body
    rw [numberTokens, List.nil_append]
    cases hrest : h.list.tokens ++ (h.ending ++ body) with
    | nil => rfl
    | cons t ts =>
      rw [hrest] at hhead
      cases t with
      | semicolon => exact (hhead .semicolon rfl).elim Token.noConfusion Bool.noConfusion
      | _ => rfl

theorem readNameTail_afterName :
    readNameTail (numberTokens h.number ++ (h.list.tokens ++ (h.ending ++ body))) =
      ([], numberTokens h.number ++ (h.list.tokens ++ (h.ending ++ body))) := by
  apply readNameTail_of_head
  rintro _ ht rfl
  cases hnumber : h.number with
  | some digits =>
    rw [hnumber] at ht
    cases ht
  | none =>
    rw [hnumber] at ht
    rcases h.head_list body _ ht with hparen | hword
    · cases hparen
    · cases hword

theorem afterCreate_of_skip
    (hcreate : t.isAnyKw ["CREATE", "ALTER"] = true)
    (hskip : skipOrAlter ts = .ok (h.procedure.1 :: us)) : afterCreate (t :: ts) = .ok us := by
  have hprocedure : startsWithAnyKw ["PROC", "PROCEDURE"] (h.procedure.1 :: us) = true :=
    h.procedure.2
  rw [afterCreate, List.dropWhile_cons_of_neg (by simp [hcreate])]
  dsimp only
  rw [hskip, ok_bind, if_pos hprocedure]
  rfl

theorem afterCreate_tokens (ts : List Token) :
    afterCreate (h.create.tokens ++ h.procedure.1 :: ts) = .ok ts := by
  cases h.create with
  | single keyword =>
    have hor : startsWithKw "OR" (h.procedure.1 :: ts) = false :=
      isAnyKw_eq_false_of_disjoint h.procedure.2 (by decide)
    exact h.afterCreate_of_skip keyword.2 (if_neg (ne_true_of_eq_false hor))
  | createOrAlter create orWord alter =>
    have hcreate : create.1.isAnyKw ["CREATE", "ALTER"] = true :=
      isAnyKw_of_subset create.2 (by decide)
    have hor : startsWithKw "OR" (orWord.1 :: alter.1 :: h.procedure.1 :: ts) = true := orWord.2
    have halter : startsWithKw "ALTER" (alter.1 :: h.procedure.1 :: ts) = true := alter.2
    have hskip : skipOrAlter (orWord.1 :: alter.1 :: h.procedure.1 :: ts) =
        .ok (h.procedure.1 :: ts) := by
      rw [skipOrAlter, if_pos hor]
      exact if_pos halter
    exact h.afterCreate_of_skip hcreate hskip

theorem parse_eq_asRead (hlist : h.list.endsInVariable = false) :
    parse (h.tokens ++ body) = .ok {
      name := h.name.parts
      parameters := h.list.parameters.map (·.asRead)
      body } := by
  have hwhole : h.tokens ++ body = h.create.tokens ++ h.procedure.1 :: (h.name.tokens ++
      (numberTokens h.number ++ (h.list.tokens ++ (h.ending ++ body)))) := by
    simp [tokens]
  have hbody : startsWithKw "AS" (h.asWord.1 :: body) = true := h.asWord.2
  rw [hwhole, parse_eq, afterCreate_tokens, ok_bind, parseNamed,
    readName?_tokens h.name (h.readNameTail_afterName body)]
  dsimp only
  rw [skipNumber_tokens, parameterList_tokens hlist (h.startsWithAnyKw_ending body), ok_bind,
    finish, afterOptions_ending, if_pos hbody]
  rfl

end Written

/-- A header is read as it is written, whatever body follows it, unless a bare list ends in a
variable.  Its parameters have the flags of their defaults, and so are as declared exactly where no
default gives a flag. -/
theorem parse_written (h : Written) (hlist : h.list.endsInVariable = false) (body : List Token) :
    parse (h.tokens ++ body) = .ok {
      name := h.name.parts
      parameters := h.list.parameters.map (·.asRead)
      body } ∧
    (h.list.parameters.map (·.asRead) = h.list.parameters.map (·.declared) ↔
      ∀ p ∈ h.list.parameters, p.FlagsApart) := by
  refine ⟨h.parse_eq_asRead body hlist, ?_⟩
  rw [List.map_inj_left]
  exact forall₂_congr fun p _ => p.asRead_eq_declared_iff

/-- A type of one part without arguments. -/
def WrittenType.simple (name : String) (h : (Token.word name false).isAnyKw listEnd = false) :
    WrittenType where
  name := ⟨(name, false), []⟩
  arguments := none
  no_word := by simpa using h

/-- `@ids AS dbo.Ids READONLY, @name varchar(MAX) = 'x' OUTPUT` -/
def WrittenList.sample : WrittenList :=
  .bare [
    { name := "ids"
      one_at := by decide
      asWord := some ⟨.word "AS" false, by decide⟩
      type := {
        name := ⟨("dbo", false), [("Ids", false)]⟩
        arguments := none
        no_word := by decide }
      value := none
      flags := [⟨.word "READONLY" false, by decide⟩] },
    { name := "name"
      one_at := by decide
      asWord := none
      type := {
        name := ⟨("varchar", false), []⟩
        arguments := some [.name "MAX" false]
        no_word := by decide }
      value := some {
        tokens := [.str "x"]
        balanced := by decide
        no_comma := by decide
        no_word := by
          unfold Avoids
          decide }
      flags := [⟨.word "OUTPUT" false, by decide⟩] }]

/-- `CREATE OR ALTER PROC dbo.P;2 … WITH RECOMPILE, EXECUTE AS OWNER For Replication AS` -/
def Written.sample : Written where
  create := .createOrAlter ⟨.word "CREATE" false, by decide⟩ ⟨.word "OR" false, by decide⟩
    ⟨.word "ALTER" false, by decide⟩
  procedure := ⟨.word "PROC" false, by decide⟩
  name := ⟨("dbo", false), [("P", false)]⟩
  number := some "2"
  list := .sample
  options := some (⟨.word "WITH" false, by decide⟩, [
    .plain [.word "RECOMPILE" false] (by decide),
    .executeAs ⟨.word "EXECUTE" false, by decide⟩ ⟨.word "AS" false, by decide⟩
      (.word "OWNER" false)])
  replication := some (⟨.word "For" false, by decide⟩, ⟨.word "Replication" false, by decide⟩)
  asWord := ⟨.word "AS" false, by decide⟩

theorem parse_written_sample :
    Written.sample.list.endsInVariable = false ∧
    parse (Written.sample.tokens ++ [.word "SELECT" false, .num "1"]) = .ok {
      name := ["dbo", "P"]
      parameters := [
        { name := "ids", sqlType := "dbo.Ids", isReadonly := true },
        { name := "name", sqlType := "varchar(max)", isOutput := true, hasDefault := true }]
      body := [.word "SELECT" false, .num "1"] } := by
  have hlist : Written.sample.list.endsInVariable = false := by decide
  have hparameters : Written.sample.list.parameters.map (·.asRead) = [
      { name := "ids", sqlType := "dbo.Ids", isReadonly := true },
      { name := "name", sqlType := "varchar(max)", isOutput := true, hasDefault := true }] := by
    decide
  obtain ⟨hparse, -⟩ := parse_written Written.sample hlist [.word "SELECT" false, .num "1"]
  rw [hparameters] at hparse
  exact ⟨hlist, hparse⟩

/-- `CREATE PROCEDURE dbo.P … AS` -/
def Written.ofList (list : WrittenList) : Written where
  create := .single ⟨.word "CREATE" false, by decide⟩
  procedure := ⟨.word "PROCEDURE" false, by decide⟩
  name := ⟨("dbo", false), [("P", false)]⟩
  number := none
  list
  options := none
  replication := none
  asWord := ⟨.word "AS" false, by decide⟩

/-- `@a int = (OUTPUT)` -/
def WrittenParameter.outputInDefault : WrittenParameter where
  name := "a"
  one_at := by decide
  asWord := none
  type := .simple "int" (by decide)
  value := some {
    tokens := [.lparen, .word "OUTPUT" false, .rparen]
    balanced := by decide
    no_comma := by decide
    no_word := by
      unfold Avoids
      decide }
  flags := []

/-- `@a @t` -/
def WrittenParameter.typedByVariable : WrittenParameter where
  name := "a"
  one_at := by decide
  asWord := none
  type := .simple "@t" (by decide)
  value := none
  flags := []

/-- A word in a default gives its parameter a flag that is not declared, and a variable for a type
takes the `AS` before the body for its own, so that the body starts behind a later one. -/
theorem parse_misread :
    (∃ header, parse (Written.ofList (.bare [.outputInDefault])).tokens = .ok header ∧
      header.parameters.map (·.isOutput) = [true] ∧
      WrittenParameter.outputInDefault.declared.isOutput = false) ∧
    ∃ header, parse ((Written.ofList (.bare [.typedByVariable])).tokens ++
        [.word "SELECT" false, .num "1", .word "AS" false, .word "x" false]) = .ok header ∧
      header.body = [.word "x" false] := by
  constructor
  · have hparse := (Written.ofList (.bare [.outputInDefault])).parse_eq_asRead [] (by decide)
    rw [List.append_nil] at hparse
    exact ⟨_, hparse, by decide, by decide⟩
  · exact ⟨_, rfl, rfl⟩

end SqlSnapshot.Header
