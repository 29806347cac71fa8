import Mathlib
import SqlSnapshot.Proofs.Definition.ExecTargets
import SqlSnapshot.Proofs.NameOrder

/-!
# Executed procedures in both readings

The keyword scan takes the first two parts of a name and the reader of bodies the last two, and only
the reader knows a qualified `sp_executesql`.  `ExecStatement.scan_agrees_iff` says of which
statements both record the same procedures.
-/

namespace SqlSnapshot

open Text Token NamePart

/-! ## Names as texts -/

namespace NamePart

variable (p q : NamePart)

theorem isTrimmed_written : IsTrimmed p.written := by
  cases p with
  | plain name h =>
    exact isTrimmed_of_forall fun c hc =>
      (isNameOnly_of_isIdentifierChar (h.forall_mem c hc)).isBlank
  | bracketed name h => exact Descriptor.isTrimmed_bracketed name

/-- No period and no bracket stands in an identifier. -/
theorem unmarked_identifier
    {name : List Char} (h : IsIdentifier name) :
    ∀ c ∈ name, c ≠ '.' ∧ c ≠ '[' ∧ c ≠ ']' := by
  intro c hc
  have hunmarked := (isNameOnly_of_isIdentifierChar (h.forall_mem c hc)).unmarked
  refine ⟨?_, ?_, ?_⟩ <;> rintro rfl <;> exact absurd hunmarked (by decide)

theorem unbracket_written : Descriptor.unbracket p.written = p.text := by
  cases p with
  | plain name h =>
    exact Descriptor.unbracket_of_plain (isTrimmed_written (.plain name h))
      fun c hc => (unmarked_identifier h c hc).2.1
  | bracketed name h => exact Descriptor.unbracket_bracketed name

theorem splitQualified?_written : Descriptor.splitQualified? 0 p.written = none := by
  cases p with
  | plain name h =>
    exact Descriptor.splitQualified?_of_dotless (fun c hc => (unmarked_identifier h c hc).1) 0
  | bracketed name h =>
    have hquoted := Descriptor.splitQualified?_quoted h.isBracketFree []
    rwa [List.append_nil] at hquoted

theorem splitQualified?_dot (rest : List Char) :
    Descriptor.splitQualified? 0 (p.written ++ '.' :: rest) = some (p.written, rest) := by
  cases p with
  | plain name h => exact Descriptor.splitQualified?_append_dot (unmarked_identifier h) rest
  | bracketed name h => exact Descriptor.splitQualified?_bracketed h.isBracketFree rest

theorem parse_part :
    Descriptor.parse (String.ofList p.written) = ⟨defaultSchema, p.text⟩ := by
  rw [Descriptor.parse, Descriptor.parseQualified?, String.toList_ofList,
    p.isTrimmed_written.trimBoth_eq, p.splitQualified?_written, p.unbracket_written]
  rfl

theorem parse_dot :
    Descriptor.parse (String.ofList (p.written ++ '.' :: q.written)) = ⟨p.text, q.text⟩ := by
  rw [Descriptor.parse, Descriptor.parseQualified?, String.toList_ofList,
    (p.isTrimmed_written.append_dot q.isTrimmed_written).trimBoth_eq, p.splitQualified?_dot]
  simp [unbracket_written]

theorem dot_mem_written : '.' ∈ p.written ↔ '.' ∈ p.text.toList := by
  cases p with
  | plain name h => simp [written, text]
  | bracketed name h => simp [written, text]

end NamePart

/-! ## Both readings of a statement -/

theorem KeywordScan.applicationTargets_singleton (target : String) :
    applicationTargets [target] =
      if Body.isSystem (!target.toList.contains '.') (Descriptor.parse target) then []
      else [Descriptor.parse target] := by
  rw [applicationTargets, List.map_singleton, List.filterMap_cons]
  dsimp only
  cases Body.isSystem (!target.toList.contains '.') (Descriptor.parse target) <;> rfl

theorem Body.length_recorded (parts : List String) : (recorded parts).length ≤ 1 := by
  rw [recorded]
  split <;> simp

theorem Descriptor.distinct_of_length {ds : List Descriptor} (h : ds.length ≤ 1) :
    distinct ds = ds := by
  match ds, h with
  | [], _ => rfl
  | [d], _ => rfl

namespace ExecStatement

variable (s : ExecStatement)

/-- What the scan records: the first two parts of the name, unless they name a procedure of the
server.  A period inside brackets counts as one between parts. -/
def scanned : List Descriptor :=
  let target := Body.targetOf ((s.parts.take 2).map NamePart.text)
  if Body.isSystem (s.more.isEmpty && !s.first.text.toList.contains '.') target then []
  else [target]

/-- What the reader records: the last two parts of the name. -/
def recorded : List Descriptor :=
  Body.recorded (s.parts.map NamePart.text)

theorem applicationTargets_target :
    KeywordScan.applicationTargets [String.ofList s.target] = s.scanned := by
  rw [KeywordScan.applicationTargets_singleton, scanned, parts, target, String.toList_ofList]
  cases s.more with
  | nil =>
    have hdot : s.first.written.contains '.' = s.first.text.toList.contains '.' := by
      rw [Bool.eq_iff_iff, List.contains_iff_mem, List.contains_iff_mem, s.first.dot_mem_written]
    have htarget : s.first.written ++ dotted (List.take 1 []) = s.first.written :=
      List.append_nil _
    rw [htarget, hdot, s.first.parse_part]
    rfl
  | cons q ps =>
    have htarget : s.first.written ++ dotted (List.take 1 (q :: ps)) =
        s.first.written ++ '.' :: q.written := by simp [dotted]
    have hdot : (s.first.written ++ '.' :: q.written).contains '.' = true := by simp
    rw [htarget, hdot, s.first.parse_dot q]
    rfl

theorem executed_scan (e : ParseError) :
    (KeywordScan.scan s.text e).executed = s.scanned := by
  have hlength : s.scanned.length ≤ 1 := by
    rw [scanned]
    split <;> simp
  rw [KeywordScan.scan]
  dsimp only
  rw [s.findAll_text, s.applicationTargets_target, Descriptor.distinct_of_length hlength]

theorem distinct_executed
    {found : Findings} (h : Body.read [] s.tokens = .ok found) :
    Descriptor.distinct found.executed = s.recorded := by
  rw [s.executed_eq h]
  exact Descriptor.distinct_of_length (Body.length_recorded _)

/-- When both readings record the same procedures.  A name of one part may not be a system one with
a period in it, and a name of two parts may not be `sp_executesql` outside of `sys`.  Of a longer
name, the first two parts and the last two have to name the same procedure, or both be left out. -/
def ReadAlike : Prop :=
  match s.more with
  | [] => ¬ ('.' ∈ s.first.text.toList ∧ "sp_".toList <+: (asciiLower s.first.text).toList)
  | [name] => sameAscii name.text "sp_executesql" = true → sameAscii s.first.text "sys" = true
  | second :: _ :: _ =>
    let target := Body.targetOf (s.parts.map NamePart.text)
    let isOmitted := sameAscii target.name "sp_executesql" || sameAscii target.schema "sys"
    if sameAscii s.first.text "sys" then isOmitted = true
    else isOmitted = false ∧ Descriptor.same ⟨s.first.text, second.text⟩ target = true

/-- At most one procedure on each side is recorded alike if none is, or the same one. -/
theorem forall₂_unless (a b : Bool) (d d' : Descriptor) :
    List.Forall₂ (fun d d' => d.same d' = true) (if a then [] else [d]) (if b then [] else [d']) ↔
      if a then b = true else b = false ∧ d.same d' = true := by
  cases a <;> cases b <;> simp

theorem sp_of_sameAscii {name : String} (h : sameAscii name "sp_executesql" = true) :
    "sp_".toList <+: (asciiLower name).toList := by
  have hlower : (asciiLower name).toList = "sp_executesql".toList := by
    rw [toList_asciiLower, beq_iff_eq.mp h]
    rfl
  rw [hlower]
  decide

theorem isSystem_default (isUnqualified : Bool) (name : String) :
    Body.isSystem isUnqualified ⟨defaultSchema, name⟩ =
      (isUnqualified && "sp_".toList.isPrefixOf (asciiLower name).toList) := by
  have hschema : sameAscii defaultSchema "sys" = false := by decide
  rw [Body.isSystem, hschema, Bool.false_or]

theorem isSystem_qualified (d : Descriptor) :
    Body.isSystem false d = sameAscii d.schema "sys" := by
  rw [Body.isSystem, Bool.false_and, Bool.or_false]

/-- Of a name of one part, the reader asks for the prefix of system procedures only. -/
theorem recorded_single (name : String) :
    Body.recorded [name] = if "sp_".toList.isPrefixOf (asciiLower name).toList then []
      else [⟨defaultSchema, name⟩] := by
  have htarget : Body.targetOf [name] = ⟨defaultSchema, name⟩ := rfl
  have honly : ([name].length == 1) = true := rfl
  rw [Body.recorded, htarget, honly, isSystem_default, Bool.true_and]
  cases hdynamic : sameAscii name "sp_executesql" with
  | false => rw [Bool.false_or]
  | true =>
    have hstarts := List.isPrefixOf_iff_prefix.mpr (sp_of_sameAscii hdynamic)
    rw [hstarts, Bool.true_or]

theorem recorded_qualified (first second : String) (others : List String) :
    Body.recorded (first :: second :: others) =
      let target := Body.targetOf (first :: second :: others)
      if sameAscii target.name "sp_executesql" || sameAscii target.schema "sys" then []
      else [target] := by
  have hmany : ((first :: second :: others).length == 1) = false := by simp
  rw [Body.recorded, hmany, isSystem_qualified]

theorem same_iff_readAlike :
    List.Forall₂ (fun d d' => d.same d' = true) s.scanned s.recorded ↔ s.ReadAlike := by
  rw [scanned, recorded, ReadAlike, parts]
  cases s.more with
  | nil =>
    have htarget : Body.targetOf ((List.take 2 [s.first]).map NamePart.text) =
        ⟨defaultSchema, s.first.text⟩ := rfl
    rw [htarget, isSystem_default, List.map_singleton, recorded_single, forall₂_unless]
    simp only [List.isEmpty_nil, Bool.true_and, ← List.isPrefixOf_iff_prefix,
      ← List.contains_iff_mem, Descriptor.same_refl]
    cases s.first.text.toList.contains '.' <;>
      cases "sp_".toList.isPrefixOf (asciiLower s.first.text).toList <;> simp
  | cons second others =>
    have htarget : Body.targetOf ((List.take 2 (s.first :: second :: others)).map NamePart.text) =
        ⟨s.first.text, second.text⟩ := rfl
    rw [htarget, List.isEmpty_cons, Bool.false_and, isSystem_qualified, List.map_cons,
      List.map_cons, recorded_qualified, forall₂_unless]
    cases others with
    | nil =>
      have hwhole : Body.targetOf (s.first.text :: second.text :: [].map NamePart.text) =
          ⟨s.first.text, second.text⟩ := rfl
      rw [hwhole]
      simp only [Descriptor.same_refl]
      cases sameAscii s.first.text "sys" <;> cases sameAscii second.text "sp_executesql" <;> simp
    | cons third others => exact Iff.rfl

/-- The scan records the first two parts of the name and the reader the last two, both without what
belongs to the server; they record the same procedures exactly if these rules come to the same.
Without a select in the arguments, the reader does not fail. -/
theorem scan_agrees_iff (s : ExecStatement) (e : ParseError) :
    tokenize s.text = .ok s.tokens ∧
      (KeywordScan.scan s.text e).executed = s.scanned ∧
      (∀ found, Body.read [] s.tokens = .ok found →
        Descriptor.distinct found.executed = s.recorded ∧
        (List.Forall₂ (fun d d' => d.same d' = true) (KeywordScan.scan s.text e).executed
          (Descriptor.distinct found.executed) ↔ s.ReadAlike)) ∧
      ((∀ t ∈ s.argumentTokens, t.isKw "SELECT" = false) →
        ∃ found, Body.read [] s.tokens = .ok found) := by
  refine ⟨s.tokenize_text, s.executed_scan e, ?_, s.exists_found⟩
  intro found h
  rw [s.distinct_executed h, s.executed_scan e]
  exact ⟨rfl, s.same_iff_readAlike⟩

/-! ### Calls by a name of two and of three parts -/

def databasePart : NamePart :=
  .plain "archive".toList ⟨by decide, forall_mem_of_all (by decide)⟩

def schemaPart : NamePart :=
  .plain "sales".toList ⟨by decide, forall_mem_of_all (by decide)⟩

def childPart : NamePart :=
  .bracketed "Child".toList {
    ne_nil := by decide
    isBracketFree := forall_mem_of_all (by decide)
    noLine := fun hin => absurd (hin.subset List.mem_cons_self) (by decide)
    noBlock := fun hin => absurd (hin.subset List.mem_cons_self) (by decide) }

def returnCode : StatusVariable where
  name := "rc".toList
  before := [' ']
  after := [' ']
  name_ne_nil := by decide
  isName := forall_mem_of_all (by decide +kernel)
  blank_before := forall_mem_of_all (by decide)
  blank_after := forall_mem_of_all (by decide)

theorem tokensFrom_nil (b : Bool) : tokensFrom b [] = .ok [] := by
  rw [tokensFrom, lexemes]
  rfl

theorem tokensFrom_argument : tokensFrom true " @id".toList = .ok [.word "@id" false] := by
  cbv

def schemaCall : ExecStatement where
  keyword := "Execute".toList
  gap := [' ']
  status := some returnCode
  first := schemaPart
  more := [childPart]
  arguments := " @id".toList
  argumentTokens := [.word "@id" false]
  isKeyword := by decide +kernel
  gap_ne_nil := by decide
  blank_gap := forall_mem_of_all (by decide)
  not_keyword := by decide +kernel
  isEnded := (by decide : " @id".toList.head? ≠ some ']')
  isRead := tokensFrom_argument
  not_period := by decide
  not_exec_token := by decide +kernel
  not_exec_word := by decide +kernel

theorem scan_agrees_iff_schemaCall :
    schemaCall.text = "Execute @rc = sales.[Child] @id" ∧ schemaCall.ReadAlike ∧
      (KeywordScan.scan schemaCall.text .unbalancedParentheses).executed = [⟨"sales", "Child"⟩] ∧
      ∃ found, Body.read [] schemaCall.tokens = .ok found ∧
        Descriptor.distinct found.executed = [⟨"sales", "Child"⟩] := by
  obtain ⟨-, hscan, hread, hreads⟩ := scan_agrees_iff schemaCall .unbalancedParentheses
  obtain ⟨found, hfound⟩ := hreads (by decide +kernel)
  obtain ⟨hrecorded, hiff⟩ := hread found hfound
  have hscanned : schemaCall.scanned = [⟨"sales", "Child"⟩] := by decide +kernel
  have hlast : schemaCall.recorded = [⟨"sales", "Child"⟩] := by decide +kernel
  refine ⟨by decide +kernel, hiff.mp ?_, hscan.trans hscanned, found, hfound, hrecorded.trans hlast⟩
  rw [hscan, hrecorded, hscanned, hlast]
  exact .cons (Descriptor.same_refl _) .nil

def databaseCall : ExecStatement where
  keyword := "EXEC".toList
  gap := [' ']
  status := none
  first := databasePart
  more := [schemaPart, childPart]
  arguments := []
  argumentTokens := []
  isKeyword := by decide +kernel
  gap_ne_nil := by decide
  blank_gap := forall_mem_of_all (by decide)
  not_keyword := by decide +kernel
  isEnded := (by decide : [].head? ≠ some ']')
  isRead := tokensFrom_nil true
  not_period := by decide
  not_exec_token := by decide
  not_exec_word := by decide +kernel

/-- Of a name of three parts, the scan records the database and the schema. -/
theorem scan_comes_apart :
    databaseCall.text = "EXEC archive.sales.[Child]" ∧
      tokenize databaseCall.text = .ok databaseCall.tokens ∧
      (KeywordScan.scan databaseCall.text .unbalancedParentheses).executed =
        [⟨"archive", "sales"⟩] ∧
      ∃ found, Body.read [] databaseCall.tokens = .ok found ∧
        Descriptor.distinct found.executed = [⟨"sales", "Child"⟩] ∧
        Descriptor.same ⟨"archive", "sales"⟩ ⟨"sales", "Child"⟩ = false := by
  obtain ⟨found, hfound⟩ := databaseCall.exists_found (by decide)
  have hscanned : databaseCall.scanned = [⟨"archive", "sales"⟩] := by decide +kernel
  have hlast : databaseCall.recorded = [⟨"sales", "Child"⟩] := by decide +kernel
  exact ⟨by decide +kernel, databaseCall.tokenize_text,
    (databaseCall.executed_scan _).trans hscanned, found, hfound,
    (databaseCall.distinct_executed hfound).trans hlast, by decide +kernel⟩

end ExecStatement

end SqlSnapshot
