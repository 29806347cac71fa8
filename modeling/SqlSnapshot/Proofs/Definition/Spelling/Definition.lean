import SqlSnapshot.Definition.Analysis
import SqlSnapshot.Proofs.Definition.Spelling.Body
import SqlSnapshot.Proofs.Outcome

/-!
# Spelling of definitions

Header and body of a definition are read alike in every spelling: both spellings are accepted or
both are refused, and what is recorded differs in the case of names and types only.
-/

namespace SqlSnapshot

open Text Token

/-! ## Headers -/

def Parameter.lowered (p : Parameter) : Parameter :=
  { p with name := asciiLower p.name, sqlType := asciiLower p.sqlType }

namespace Header

def lowered (header : Header) : Header where
  name := header.name.map asciiLower
  parameters := header.parameters.map Parameter.lowered
  body := header.body.map normal

theorem skipOrAlter_normal (ts : List Token) :
    skipOrAlter (ts.map normal) = lowerOutcome (List.map normal) (skipOrAlter ts) := by
  simp only [skipOrAlter, ← List.map_drop, startsWithKw_normal, mem_keywords]
  split_ifs <;> rfl

theorem cutParameters_normal (afterVariable : Bool) (depth : Nat) (ts : List Token) :
    cutParameters afterVariable depth (ts.map normal) =
      normalBoth (cutParameters afterVariable depth ts) := by
  induction ts generalizing afterVariable depth with
  | nil => rfl
  | cons t ts ih =>
    simp only [List.map_cons, cutParameters, ih, depthAfter_normal, isAnyKw_normal,
      isVariable_normal, mem_keywords, List.cons_subset, List.nil_subset, and_self]
    split_ifs <;> rfl

theorem bareName_asciiLower (text : String) :
    bareName (asciiLower text) = asciiLower (bareName text) := by
  have hat : ((fun c : Char => c == '@') ∘ Char.toLower) = fun c => c == '@' := by
    funext c
    rw [Function.comp_apply, Bool.eq_iff_iff, beq_iff_eq, beq_iff_eq]
    exact toLower_eq_iff (by decide) (by decide)
  apply String.toList_injective
  rw [toList_asciiLower, bareName, bareName, String.toList_ofList, String.toList_ofList,
    toList_asciiLower, List.dropWhile_map, hat]

/-- The parameter of the given name, with the tokens of its type. -/
def typedParameter (text : String) (ts : List Token) : Except ParseError Parameter :=
  match readType? ts with
  | none => .error (.missingParameterType text)
  | some (sqlType, rest) =>
    .ok {
      name := bareName text
      sqlType
      isOutput := rest.any (·.isAnyKw ["OUT", "OUTPUT"])
      hasDefault := rest.any (· == .equals)
      isReadonly := rest.any (·.isKw "READONLY") }

theorem readParameter_word (text : String) (ts : List Token) :
    readParameter (.word text false :: ts) =
      if Token.isVariable (.word text false) then
        typedParameter text (if startsWithKw "AS" ts then ts.drop 1 else ts)
      else .error .expectedParameterName := rfl

theorem typedParameter_normal (text : String) (ts : List Token) :
    typedParameter (asciiLower text) (ts.map normal) =
      lowerOutcome Parameter.lowered (typedParameter text ts) := by
  rw [typedParameter, typedParameter, readType?_normal]
  cases readType? ts with
  | none => rfl
  | some typed =>
    obtain ⟨sqlType, rest⟩ := typed
    have houtput : (rest.map normal).any (·.isAnyKw ["OUT", "OUTPUT"]) =
        rest.any (·.isAnyKw ["OUT", "OUTPUT"]) := by
      rw [List.any_map]
      exact List.any_congr rfl fun t => isAnyKw_normal t (by simp)
    have hdefault : (rest.map normal).any (· == .equals) = rest.any (· == .equals) := by
      rw [List.any_map]
      refine List.any_congr rfl fun t => ?_
      rw [Function.comp_apply, Bool.eq_iff_iff, beq_iff_eq, beq_iff_eq, normal_eq_equals]
    have hreadonly : (rest.map normal).any (·.isKw "READONLY") =
        rest.any (·.isKw "READONLY") := by
      rw [List.any_map]
      exact List.any_congr rfl fun t => isKw_normal t (by simp)
    simp only [Option.map_some, normalType, Prod.map_apply, houtput, hdefault, hreadonly,
      bareName_asciiLower]
    rfl

theorem readParameter_normal (part : List Token) :
    readParameter (part.map normal) = lowerOutcome Parameter.lowered (readParameter part) := by
  cases part with
  | nil => rfl
  | cons t ts =>
    cases t with
    | word text quoted =>
      cases quoted with
      | true => rfl
      | false =>
        cases hordinary : isOrdinary text with
        | true =>
          have hvariable : Token.isVariable (.word text false) = false :=
            head?_of_isOrdinary hordinary
          rw [List.map_cons, normal_of_isOrdinary hordinary, readParameter_word, hvariable]
          rfl
        | false =>
          have hvariable := isVariable_normal (.word text false)
          rw [normal_of_not_isOrdinary hordinary] at hvariable
          rw [List.map_cons, normal_of_not_isOrdinary hordinary, readParameter_word,
            readParameter_word, hvariable, dropKw_normal (by simp), typedParameter_normal]
          split <;> rfl
    | _ => rfl

theorem mapM_lowerOutcome
    {α β γ δ : Type} {f : α → Except ParseError γ} {g : β → Except ParseError δ} {before : α → β}
    {after : γ → δ} (h : ∀ a, g (before a) = lowerOutcome after (f a)) (as : List α) :
    (as.map before).mapM g = lowerOutcome (List.map after) (as.mapM f) := by
  induction as with
  | nil => rfl
  | cons a as ih =>
    rw [List.map_cons, List.mapM_cons, List.mapM_cons, h, ih]
    cases f a with
    | error e => rfl
    | ok c =>
      cases as.mapM f <;> rfl

theorem readParameters_normal (ts : List Token) :
    readParameters (ts.map normal) =
      lowerOutcome (List.map Parameter.lowered) (readParameters ts) := by
  have hfilter : (splitCommas 0 (ts.map normal)).filter (fun part => !part.isEmpty) =
      ((splitCommas 0 ts).filter fun part => !part.isEmpty).map (List.map normal) := by
    rw [splitCommas_normal, List.filter_map]
    congr 2
    funext part
    rw [Function.comp_apply, List.isEmpty_map]
  rw [readParameters, hfilter]
  exact mapM_lowerOutcome readParameter_normal _

theorem isExecuteAs_normal (t u : Token) : isExecuteAs t.normal u.normal = isExecuteAs t u := by
  simp [isExecuteAs]

theorem skipOptions_normal (ts : List Token) :
    skipOptions (ts.map normal) = (skipOptions ts).map normal := by
  fun_induction skipOptions ts <;> simp_all [skipOptions, isExecuteAs_normal]

theorem skipNumber_normal (ts : List Token) :
    skipNumber (ts.map normal) = (skipNumber ts).map normal := by
  match ts with
  | [] => rfl
  | [t] => cases t <;> rfl
  | t :: u :: ts => cases t <;> cases u <;> rfl

/-- The outcome for a list, with the tokens after it. -/
def withRest (rest : List Token) (list : List Token) :
    Except ParseError (List Parameter × List Token) :=
  (readParameters list).map (·, rest)

def loweredList : List Parameter × List Token → List Parameter × List Token :=
  Prod.map (List.map Parameter.lowered) (List.map normal)

theorem withRest_normal (list rest : List Token) :
    withRest (rest.map normal) (list.map normal) =
      lowerOutcome loweredList (withRest rest list) := by
  rw [withRest, withRest, readParameters_normal]
  cases readParameters list <;> rfl

def bareList (ts : List Token) : Except ParseError (List Parameter × List Token) :=
  withRest (cutParameters false 0 ts).2 (cutParameters false 0 ts).1

theorem bareList_normal (ts : List Token) :
    bareList (ts.map normal) = lowerOutcome loweredList (bareList ts) := by
  rw [bareList, cutParameters_normal]
  exact withRest_normal _ _

def groupedList (ts : List Token) : Except ParseError (List Parameter × List Token) :=
  match closeParen? 0 ts with
  | none => .error .unterminatedParameters
  | some (list, rest) => withRest rest list

theorem groupedList_normal (ts : List Token) :
    groupedList (ts.map normal) = lowerOutcome loweredList (groupedList ts) := by
  rw [groupedList, groupedList, closeParen?_normal]
  cases closeParen? 0 ts with
  | none => rfl
  | some parts => exact withRest_normal _ _

theorem parameterList_group (t : Token) (ts : List Token) :
    parameterList (.lparen :: t :: ts) =
      if t.isVariable then groupedList (t :: ts) else bareList (.lparen :: t :: ts) := rfl

theorem parameterList_bare {ts : List Token} (h : ∀ t us, ts ≠ .lparen :: t :: us) :
    parameterList ts = bareList ts := by
  rw [parameterList]
  · rfl
  · exact h

theorem parameterList_normal (ts : List Token) :
    parameterList (ts.map normal) = lowerOutcome loweredList (parameterList ts) := by
  by_cases h : ∃ t us, ts = .lparen :: t :: us
  · obtain ⟨t, us, rfl⟩ := h
    have hgrouped := groupedList_normal (t :: us)
    have hbare := bareList_normal (.lparen :: t :: us)
    simp only [List.map_cons, normal_lparen] at hgrouped hbare
    rw [List.map_cons, List.map_cons, normal_lparen, parameterList_group, parameterList_group,
      isVariable_normal, hgrouped, hbare]
    split <;> rfl
  · have hnormal : ∀ t us, ts.map normal ≠ .lparen :: t :: us := by
      intro t us heq
      obtain ⟨u, rest, rfl, hu, hrest⟩ := List.map_eq_cons_iff.mp heq
      obtain ⟨v, rest, rfl, -, -⟩ := List.map_eq_cons_iff.mp hrest
      exact h ⟨v, rest, by rw [(u.normal_eq_lparen).mp hu]⟩
    rw [parameterList_bare hnormal, parameterList_bare fun t us heq => h ⟨t, us, heq⟩,
      bareList_normal]

theorem afterOptions_normal (ts : List Token) :
    afterOptions (ts.map normal) = (afterOptions ts).map normal := by
  have hskip : (if startsWithKw "WITH" (ts.map normal) then skipOptions ((ts.map normal).drop 1)
      else ts.map normal) =
      (if startsWithKw "WITH" ts then skipOptions (ts.drop 1) else ts).map normal := by
    rw [startsWithKw_normal ts (by simp), ← List.map_drop, skipOptions_normal]
    split <;> rfl
  rw [afterOptions, afterOptions, hskip]
  simp only [startsWithKw_normal, mem_keywords, ← List.map_drop]
  split_ifs <;> rfl

theorem afterCreate_normal (ts : List Token) :
    afterCreate (ts.map normal) = lowerOutcome (List.map normal) (afterCreate ts) := by
  have hskip : (ts.map normal).dropWhile (fun t => !t.isAnyKw ["CREATE", "ALTER"]) =
      (ts.dropWhile fun t => !t.isAnyKw ["CREATE", "ALTER"]).map normal := by
    rw [List.dropWhile_map]
    congr 2
    funext t
    rw [Function.comp_apply, isAnyKw_normal t (by simp)]
  rw [afterCreate, afterCreate, hskip]
  cases ts.dropWhile fun t => !t.isAnyKw ["CREATE", "ALTER"] with
  | nil => rfl
  | cons t rest =>
    simp only [List.map_cons, skipOrAlter_normal]
    refine bind_lowerOutcome (fun after => ?_) (skipOrAlter rest)
    rw [startsWithAnyKw_normal after (by simp), ← List.map_drop]
    split <;> rfl

/-- The header whose parameters are read already. -/
def finish (name : List String) (list : List Parameter × List Token) : Except ParseError Header :=
  if startsWithKw "AS" (afterOptions list.2) then
    .ok { name, parameters := list.1, body := (afterOptions list.2).drop 1 }
  else .error .expectedBody

/-- The header after `CREATE PROCEDURE`. -/
def parseNamed (ts : List Token) : Except ParseError Header :=
  match readName? ts with
  | some name => parameterList (skipNumber name.2) >>= finish name.1
  | none => .error .missingName

theorem parse_eq (ts : List Token) : parse ts = afterCreate ts >>= parseNamed := by
  rw [parse]
  congr 1

theorem finish_normal (name : List String) (list : List Parameter × List Token) :
    finish (name.map asciiLower) (loweredList list) = lowerOutcome lowered (finish name list) := by
  obtain ⟨parameters, ts⟩ := list
  simp only [finish, loweredList, Prod.map_apply, afterOptions_normal, startsWithKw_normal,
    mem_keywords, ← List.map_drop]
  split <;> rfl

theorem parseNamed_normal (ts : List Token) :
    parseNamed (ts.map normal) = lowerOutcome lowered (parseNamed ts) := by
  rw [parseNamed, parseNamed, readName?_normal]
  cases readName? ts with
  | none => rfl
  | some name =>
    simp only [Option.map_some, normalName, Prod.map_fst, Prod.map_snd, skipNumber_normal,
      parameterList_normal]
    exact bind_lowerOutcome (finish_normal name.1) _

theorem parse_normal (ts : List Token) :
    parse (ts.map normal) = lowerOutcome lowered (parse ts) := by
  rw [parse_eq, parse_eq, afterCreate_normal]
  exact bind_lowerOutcome parseNamed_normal _

end Header

/-! ## Whole definitions -/

/-- What the tokens of a definition are read to: its parameters, and the findings of its body with
each executed procedure once. -/
structure Reading where
  parameters : List Parameter
  resultSets : List ResultSet
  executed : List Descriptor
  issues : List Issue

theorem Descriptor.same_lowered (d e : Descriptor) : d.lowered.same e.lowered = d.same e := by
  simp [same, compare, lowered, compareNames]

theorem Descriptor.distinct_lowered (ds : List Descriptor) :
    distinct (ds.map lowered) = (distinct ds).map lowered := by
  have hstep : ∀ seen : List Descriptor,
      (ds.map lowered).foldl
        (fun seen d => if seen.any (·.same d) then seen else seen ++ [d]) (seen.map lowered) =
      (ds.foldl (fun seen d => if seen.any (·.same d) then seen else seen ++ [d]) seen).map
        lowered := by
    induction ds with
    | nil => exact fun _ => rfl
    | cons d ds ih =>
      intro seen
      have hany : (seen.map lowered).any (·.same d.lowered) = seen.any (·.same d) := by
        rw [List.any_map]
        exact List.any_congr rfl fun e => same_lowered e d
      rw [List.map_cons, List.foldl_cons, List.foldl_cons, hany, ← ih]
      congr 1
      split
      · rfl
      · rw [List.map_append]
        rfl
  exact hstep []

namespace Reading

/-- Header and body of a definition, read one after the other. -/
def ofTokens (ts : List Token) : Except ParseError Reading := do
  let header ← Header.parse ts
  let found ← Body.read [] header.body
  return {
    parameters := header.parameters
    resultSets := found.resultSets
    executed := Descriptor.distinct found.executed
    issues := found.issues }

/-- The parts of a structured analysis that depend on header and body. -/
def ofStructure (parts : Content × List Parameter × List Issue) : Reading where
  parameters := parts.2.1
  resultSets := parts.1.resultSets
  executed := parts.1.executed
  issues := parts.2.2

/-- The analysis of a definition reads its balanced tokens in this way. -/
theorem readStructure_eq (definition : String) :
    (Analysis.readStructure definition).map ofStructure =
      (tokenize definition).bind fun ts =>
        if isBalanced ts then ofTokens ts else .error .unbalancedParentheses := by
  rw [Analysis.readStructure]
  cases tokenize definition with
  | error e => rfl
  | ok ts =>
    rw [ok_bind]
    show _ = if isBalanced ts then ofTokens ts else .error .unbalancedParentheses
    cases isBalanced ts with
    | false => rfl
    | true =>
      rw [ofTokens]
      cases Header.parse ts with
      | error e => rfl
      | ok header =>
        simp only [ok_bind]
        cases Body.read [] header.body <;> rfl

/-- The reading with all names and types in lower case. -/
def lowered (r : Reading) : Reading where
  parameters := r.parameters.map Parameter.lowered
  resultSets := r.resultSets.map ResultSet.lowered
  executed := r.executed.map Descriptor.lowered
  issues := r.issues

theorem ofTokens_normal (ts : List Token) :
    ofTokens (ts.map normal) = lowerOutcome lowered (ofTokens ts) := by
  rw [ofTokens, ofTokens, Header.parse_normal]
  refine bind_lowerOutcome (fun header => ?_) (Header.parse ts)
  have hbody : Body.read [] header.lowered.body =
      lowerOutcome Findings.lowered (Body.read [] header.body) :=
    Body.read_normal [] header.body
  rw [hbody]
  refine bind_lowerOutcome (fun found => ?_) (Body.read [] header.body)
  rw [Findings.lowered, Descriptor.distinct_lowered]
  rfl

variable {ts us : List Token}

/-- Definitions that differ in spelling only are both accepted or both refused, and what is read
from them, columns at every depth included, differs in the case of names and types only. -/
theorem ofTokens_respelled (h : List.Forall₂ Respelled ts us) :
    (∃ r s, ofTokens ts = .ok r ∧ ofTokens us = .ok s ∧ r.lowered = s.lowered) ∨
      ∃ e f, ofTokens ts = .error e ∧ ofTokens us = .error f ∧ e.lowered = f.lowered := by
  have heq : lowerOutcome lowered (ofTokens ts) = lowerOutcome lowered (ofTokens us) := by
    rw [← ofTokens_normal, ← ofTokens_normal, map_normal_eq h]
  cases ht : ofTokens ts with
  | ok r =>
    cases hu : ofTokens us with
    | ok s =>
      rw [ht, hu] at heq
      exact .inl ⟨r, s, rfl, rfl, Except.ok.inj heq⟩
    | error f =>
      rw [ht, hu] at heq
      cases heq
  | error e =>
    cases hu : ofTokens us with
    | ok s =>
      rw [ht, hu] at heq
      cases heq
    | error f =>
      rw [ht, hu] at heq
      exact .inr ⟨e, f, rfl, rfl, Except.error.inj heq⟩

/-- `CREATE PROC P @Id INT AS SELECT o.Id FROM Orders o` -/
def sampleTokens : List Token :=
  [.word "CREATE" false, .word "PROC" false, .word "P" false, .word "@Id" false,
   .word "INT" false, .word "AS" false, .word "SELECT" false, .word "o" false, .period,
   .word "Id" false, .word "FROM" false, .word "Orders" false, .word "o" false]

/-- `create PROC [p] @ID [int] As select [O].[Id] from ORDERS o` -/
def sampleRespelled : List Token :=
  [.word "create" false, .word "PROC" false, .word "p" true, .word "@ID" false,
   .word "int" true, .word "As" false, .word "select" false, .word "O" true, .period,
   .word "Id" true, .word "from" false, .word "ORDERS" false, .word "o" false]

theorem respelled_sample : List.Forall₂ Respelled sampleTokens sampleRespelled := by
  refine .cons (.recased ?_) (.cons (.same _) (.cons (.bracketed ?_ ?_) (.cons (.recased ?_)
    (.cons (.bracketed ?_ ?_) (.cons (.recased ?_) (.cons (.recased ?_) (.cons (.bracketed ?_ ?_)
    (.cons (.same _) (.cons (.bracketed ?_ ?_) (.cons (.recased ?_) (.cons (.recased ?_)
    (.cons (.same _) .nil)))))))))))) <;> decide +kernel

theorem ofTokens_respelled_sample :
    List.Forall₂ Respelled sampleTokens sampleRespelled ∧
      ((∃ r s, ofTokens sampleTokens = .ok r ∧ ofTokens sampleRespelled = .ok s ∧
          r.lowered = s.lowered) ∨
        ∃ e f, ofTokens sampleTokens = .error e ∧ ofTokens sampleRespelled = .error f ∧
          e.lowered = f.lowered) :=
  ⟨respelled_sample, ofTokens_respelled respelled_sample⟩

end Reading

end SqlSnapshot
