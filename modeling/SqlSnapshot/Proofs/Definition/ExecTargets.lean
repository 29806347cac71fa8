import SqlSnapshot.Proofs.Definition.Comments
import SqlSnapshot.Proofs.Definition.ExecStatements

/-!
# Targets of the keyword scan

The keyword scan takes the first two parts of the name behind `EXEC`.  It finds them once in a
statement: no comment stands in what it passes, and no further word behind it
(`ExecStatement.findAll_text`).
-/

namespace SqlSnapshot

open Text Token NamePart

/-! ## Searches for a word -/

namespace Text

variable {prev : Option Char} {word cs rest : List Char} {w c : Char}

theorem stripFold?_eq_some
    (h : stripFold? word cs = some rest) :
    ∃ front, cs = front ++ rest ∧ List.Forall₂ (fun w c => sameFold w c = true) word front := by
  induction word generalizing cs with
  | nil => exact ⟨[], Option.some.inj h, .nil⟩
  | cons w word ih =>
    cases cs with
    | nil => cases h
    | cons c cs =>
      rw [stripFold?] at h
      split at h
      · rename_i hc
        obtain ⟨front, rfl, hfront⟩ := ih h
        exact ⟨c :: front, rfl, .cons hc hfront⟩
      · cases h

theorem stripFold?_of_map_toLower
    (h : cs.map Char.toLower = word.map Char.toLower) (hword : ∀ w ∈ word, w.toLower.toNat < 128)
    (rest : List Char) :
    stripFold? word (cs ++ rest) = some rest := by
  induction word generalizing cs with
  | nil =>
    obtain rfl := List.map_eq_nil_iff.mp h
    rfl
  | cons w word ih =>
    cases cs with
    | nil => cases h
    | cons c cs =>
      obtain ⟨hlower, hothers⟩ := List.cons.inj h
      obtain ⟨hw, hwords⟩ := List.forall_mem_cons.mp hword
      have hsame : sameFold w c = true :=
        (sameFold_iff_of_ascii (ascii_of_toLower rfl hw) (ascii_of_toLower hlower hw)).mpr
          hlower.symm
      rw [List.cons_append, stripFold?, if_pos hsame, ih hothers hwords]

theorem stripFold?_append (word word' cs : List Char) :
    stripFold? (word ++ word') cs = (stripFold? word cs).bind (stripFold? word') := by
  induction word generalizing cs with
  | nil => rfl
  | cons w word ih =>
    cases cs with
    | nil => rfl
    | cons c cs =>
      rw [List.cons_append, stripFold?, stripFold?]
      split
      · exact ih cs
      · rfl

theorem lastBefore_append (prev : Option Char) (front rest : List Char) :
    lastBefore prev (front ++ rest) rest = front.getLast?.or prev := by
  rw [lastBefore, List.length_append, Nat.add_sub_cancel, List.take_left]

theorem exists_last_of_forall₂
    {front : List Char} (h : List.Forall₂ (fun w c => sameFold w c = true) (word ++ [w]) front) :
    ∃ c, front.getLast? = some c ∧ sameFold w c = true := by
  induction word generalizing front with
  | nil =>
    cases h with
    | cons hc hnil =>
      cases hnil
      exact ⟨_, rfl, hc⟩
  | cons v word ih =>
    cases h with
    | cons hc hothers =>
      obtain ⟨c, hlast, hsame⟩ := ih hothers
      exact ⟨c, by rw [List.getLast?_cons, hlast]; rfl, hsame⟩

/-- Nothing but the letters `C` and `E` of either case is folded as these are. -/
theorem isWordChar_of_sameFold
    (hw : w = 'C' ∨ w = 'E') (h : sameFold w c = true) :
    isWordChar c = true := by
  have hruns : ∀ r ∈ foldRuns, r = ⟨0x41, 0x5A, 1, 32⟩ ∨ (101 : Int) < r.first + r.shift := by
    decide +kernel
  have hfold : foldChar c = 99 ∨ foldChar c = 101 := by
    have hsame : foldChar w = foldChar c := beq_iff_eq.mp h
    rw [← hsame]
    rcases hw with rfl | rfl <;> decide +kernel
  have hcode : c.toNat = 67 ∨ c.toNat = 69 ∨ c.toNat = 99 ∨ c.toNat = 101 := by
    rw [foldChar] at hfold
    rcases shiftBy_cases foldRuns c.toNat with hself | ⟨r, hr, hcovers, himage⟩
    · omega
    · have hbounds := Run.covers_iff.mp hcovers
      rcases hruns r hr with rfl | hlarge
      · dsimp only at hbounds himage
        omega
      · omega
  rw [isWordChar]
  rcases hcode with hcode | hcode | hcode | hcode <;> rw [hcode] <;> decide +kernel

variable {text : String}

theorem keyword_eq_some
    {front : List Char} (hfront : cs = front ++ rest)
    (h : stripFold? text.toList cs = some rest) (hprev : isBoundary prev cs = true)
    (hlast : isBoundary (front.getLast?.or prev) rest = true) :
    (keyword text prev cs).isSome = true := by
  subst hfront
  simp [keyword, h, hprev, lastBefore_append, hlast]

end Text

/-! ## Places of further `EXEC` -/

namespace KeywordScan

variable {prev : Option Char} {cs : List Char}

/-- What follows the word of an `EXEC`: blanks, perhaps a variable, and the target. -/
def targetBehind? (cs : List Char) : Option (String × List Char) := do
  let rest ← stripBlanks? cs
  let (target, rest) ← readTarget? ((skipStatus? rest).getD rest)
  return (String.ofList target, rest)

theorem execTarget_eq (prev : Option Char) (cs : List Char) :
    execTarget prev cs =
      if isBoundary prev cs then
        (stripFold? "EXEC".toList cs).bind fun rest =>
          targetBehind? ((stripFold? "UTE".toList rest).getD rest)
      else none := by
  unfold execTarget targetBehind?
  cases isBoundary prev cs <;> rfl

theorem exists_blank_of_targetBehind?
    {found : String × List Char} (h : targetBehind? cs = some found) :
    ∃ c rest, cs = c :: rest ∧ isBlank c = true := by
  cases cs with
  | nil => cases h
  | cons c rest =>
    cases hc : isBlank c with
    | true => exact ⟨c, rest, rfl, hc⟩
    | false =>
      simp [targetBehind?, stripBlanks?, hc] at h

theorem isWordChar_of_blank {c : Char} (h : isBlank c = true) : isWordChar c = false :=
  (endsName_of_blank h [] c rfl).2.1

/-- A word that is followed by blanks, and by a character that is folded as its last letter. -/
theorem exists_keyword
    {text : String} (word : List Char) {rest : List Char} {w : Char}
    (htext : text.toList = word ++ [w])
    (hw : w = 'C' ∨ w = 'E') (hprev : isBoundary prev cs = true)
    (h : stripFold? text.toList cs = some rest)
    (hrest : ∃ c others, rest = c :: others ∧ isBlank c = true) :
    (keyword text prev cs).isSome = true := by
  obtain ⟨front, hfront, hsame⟩ := stripFold?_eq_some h
  obtain ⟨c, hlast, hc⟩ := exists_last_of_forall₂ (htext ▸ hsame)
  obtain ⟨d, others, rfl, hd⟩ := hrest
  refine keyword_eq_some hfront h hprev ?_
  simp [isBoundary, hlast, isWordChar_of_sameFold hw hc, isWordChar_of_blank hd]

/-- Where the target of an `EXEC` is found, the word stands. -/
theorem exists_keyword_of_execTarget
    {found : String × List Char} (h : execTarget prev cs = some found) :
    ∃ word ∈ Body.execWords, (keyword word prev cs).isSome = true := by
  rw [execTarget_eq] at h
  split at h
  · rename_i hprev
    obtain ⟨rest, hexec, hbehind⟩ := Option.bind_eq_some_iff.mp h
    have hblank := exists_blank_of_targetBehind? hbehind
    cases hute : stripFold? "UTE".toList rest with
    | none =>
      rw [hute, Option.getD_none] at hblank
      exact ⟨"EXEC", by decide, exists_keyword ['E', 'X', 'E'] rfl (.inl rfl) hprev
        hexec hblank⟩
    | some behind =>
      rw [hute, Option.getD_some] at hblank
      have hexecute : stripFold? ("EXEC".toList ++ "UTE".toList) cs = some behind := by
        rw [stripFold?_append, hexec, Option.bind_some, hute]
      exact ⟨"EXECUTE", by decide, exists_keyword "EXECUT".toList rfl (.inr rfl) hprev
        hexecute hblank⟩
  · cases h

theorem execTarget_eq_none
    (h : ∀ word ∈ Body.execWords, keyword word prev cs = none) :
    execTarget prev cs = none := by
  rw [Option.eq_none_iff_forall_ne_some]
  intro found hfound
  obtain ⟨word, hword, hkeyword⟩ := exists_keyword_of_execTarget hfound
  rw [h word hword] at hkeyword
  cases hkeyword

theorem find?_cons_eq_none
    {α : Type} {p : Pattern α} {c : Char} (h : find? p prev (c :: cs) = none) :
    p prev (c :: cs) = none ∧ find? p (some c) cs = none := by
  rw [find?] at h
  split at h
  · cases h
  · rename_i hhere
    exact ⟨hhere, h⟩

theorem findAll_execTarget_of_find?
    (h : ∀ word ∈ Body.execWords, find? (keyword word) prev cs = none) :
    findAll execTarget prev cs = [] := by
  induction cs generalizing prev with
  | nil => rw [findAll]
  | cons c cs ih =>
    have hnot := execTarget_eq_none fun word hword => (find?_cons_eq_none (h word hword)).1
    rw [findAll, hnot]
    exact ih fun word hword => (find?_cons_eq_none (h word hword)).2

/-- A text without the words has no target, if it does not go on with a word before it. -/
theorem findAll_execTarget_eq_nil
    (h : ∀ word ∈ Body.execWords, hasKeyword word cs = false)
    (hprev : (∀ c ∈ prev, isWordChar c = false) ∨ ∀ c ∈ cs.head?, isWordChar c = false) :
    findAll execTarget prev cs = [] := by
  cases cs with
  | nil => rw [findAll]
  | cons c cs =>
    have hnone : ∀ word ∈ Body.execWords, keyword word none (c :: cs) = none ∧
        find? (keyword word) (some c) cs = none := fun word hword =>
      find?_cons_eq_none (Option.isNone_iff_eq_none.mp
        (Option.isSome_eq_false_iff.mp (h word hword)))
    have hnot : execTarget prev (c :: cs) = none := by
      rcases hprev with hprev | hhead
      · have hboundary : isBoundary prev (c :: cs) = isBoundary none (c :: cs) := by
          cases prev with
          | none => rfl
          | some d => simp [isBoundary, hprev d rfl]
        have hstart := execTarget_eq_none fun word hword => (hnone word hword).1
        rwa [execTarget_eq, hboundary, ← execTarget_eq]
      · have hfold : ¬ sameFold 'E' c = true := fun hsame =>
          absurd ((isWordChar_of_sameFold (.inr rfl) hsame).symm.trans (hhead c rfl)) (by decide)
        have hexec : stripFold? "EXEC".toList (c :: cs) = none := by
          show stripFold? ('E' :: _) (c :: cs) = none
          rw [stripFold?, if_neg hfold]
        rw [execTarget_eq, hexec]
        cases isBoundary prev (c :: cs) <;> rfl
    rw [findAll, hnot]
    exact findAll_execTarget_of_find? fun word hword => (hnone word hword).2

/-! ## Texts without comments -/

/-- The text stays as it is when comments are erased, whatever stands behind it. -/
def IsKept (cs : List Char) : Prop :=
  ∀ rest, eraseComments (cs ++ rest) = cs ++ eraseComments rest

theorem isKept_nil : IsKept [] :=
  fun _ => rfl

theorem IsKept.append {ds : List Char} (hcs : IsKept cs) (hds : IsKept ds) : IsKept (cs ++ ds) := by
  intro rest
  rw [List.append_assoc, hcs, hds, List.append_assoc]

/-- No comment starts in the text, and none with its last character. -/
theorem isKept_of_not_infix
    (hline : ¬ ['-', '-'] <:+: cs) (hblock : ¬ ['/', '*'] <:+: cs)
    (hlast : ∀ c ∈ cs.getLast?, c ≠ '-' ∧ c ≠ '/') :
    IsKept cs := by
  intro rest
  induction cs with
  | nil => rfl
  | cons c cs ih =>
    have htail : ∀ mark : List Char, ¬ mark <:+: c :: cs → ¬ mark <:+: cs := fun mark hnot hin =>
      hnot (hin.trans (List.suffix_cons c cs).isInfix)
    have hmark : ∀ a b, ¬ [a, b] <:+: c :: cs → (∀ d ∈ (c :: cs).getLast?, d ≠ a) →
        ¬ (c = a ∧ (cs ++ rest).head? = some b) := by
      rintro a b hnot hends ⟨rfl, hhead⟩
      cases cs with
      | nil => exact hends c rfl rfl
      | cons d ds =>
        obtain rfl := Option.some.inj hhead
        exact hnot (List.prefix_append [c, d] ds).isInfix
    have hothers := ih (htail _ hline) (htail _ hblock) fun d hd => hlast d (by
      cases cs with
      | nil => cases hd
      | cons e es => rwa [List.getLast?_cons_cons])
    rw [List.cons_append, List.cons_append,
      eraseComments_cons (hmark '/' '*' hblock fun d hd => (hlast d hd).2)
        (hmark '-' '-' hline fun d hd => (hlast d hd).1), hothers]

/-- No comment starts in a text of characters that do not start one. -/
theorem isKept_of_forall
    {p : Char → Bool} (h : ∀ c ∈ cs, p c = true) (hline : p '-' = false) (hblock : p '/' = false) :
    IsKept cs := by
  have hne : ∀ c ∈ cs, c ≠ '-' ∧ c ≠ '/' := by
    intro c hc
    constructor
    · rintro rfl
      exact absurd ((h _ hc).symm.trans hline) (by decide)
    · rintro rfl
      exact absurd ((h _ hc).symm.trans hblock) (by decide)
  apply isKept_of_not_infix
  · exact fun hin => (hne '-' (hin.subset List.mem_cons_self)).1 rfl
  · exact fun hin => (hne '/' (hin.subset List.mem_cons_self)).2 rfl
  · exact fun c hc => hne c (List.mem_of_getLast? hc)

theorem isKept_of_blank (h : ∀ c ∈ cs, isBlank c = true) : IsKept cs :=
  isKept_of_forall h (by decide) (by decide)

theorem isKept_of_isIdentifierChar (h : ∀ c ∈ cs, isIdentifierChar c = true) : IsKept cs :=
  isKept_of_forall h (by decide) (by decide)

theorem isKept_singleton
    {c : Char} (hline : c ≠ '-') (hblock : c ≠ '/') :
    IsKept [c] :=
  isKept_of_forall (p := (· == c)) (by simp) (beq_eq_false_iff_ne.mpr hline.symm)
    (beq_eq_false_iff_ne.mpr hblock.symm)

theorem not_infix_brackets
    {a b : Char} (h : ¬ [a, b] <:+: cs) (ha : a ≠ '[') (hb : b ≠ ']') :
    ¬ [a, b] <:+: '[' :: cs ++ [']'] := by
  rw [List.infix_concat_iff, List.infix_cons_iff]
  rintro (hends | hstarts | hinside)
  · obtain hnil | ⟨front, hfront, -⟩ := List.suffix_concat_iff.mp hends
    · cases hnil
    · have hlast := congrArg List.getLast? hfront
      rw [List.getLast?_concat] at hlast
      exact hb (Option.some.inj hlast)
  · exact ha (List.cons_prefix_cons.mp hstarts).1
  · exact h hinside

theorem isKept_written (p : NamePart) : IsKept p.written := by
  cases p with
  | plain name h => exact isKept_of_isIdentifierChar h.forall_mem
  | bracketed name h =>
    apply isKept_of_not_infix
    · exact not_infix_brackets h.noLine (by decide) (by decide)
    · exact not_infix_brackets h.noBlock (by decide) (by decide)
    · intro c hc
      rw [NamePart.written, List.getLast?_concat] at hc
      obtain rfl := Option.some.inj hc
      decide

theorem isKept_dotted (ps : List NamePart) : IsKept (dotted ps) := by
  induction ps with
  | nil => exact isKept_nil
  | cons p ps ih =>
    have hdot : IsKept ['.'] := isKept_singleton (by decide) (by decide)
    exact (hdot.append (isKept_written p)).append ih

theorem isKept_variable (v : StatusVariable) : IsKept v.written := by
  have hat : IsKept ['@'] := isKept_singleton (by decide) (by decide)
  have hname : IsKept v.name :=
    isKept_of_forall (fun c hc => (v.isName c hc).2) (by decide +kernel) (by decide +kernel)
  have hequals : IsKept ['='] := isKept_singleton (by decide) (by decide)
  exact hat.append (hname.append
    ((isKept_of_blank v.blank_before).append (hequals.append (isKept_of_blank v.blank_after))))

/-- Erasing comments leaves the first character, or a blank. -/
theorem head?_eraseComments (cs : List Char) :
    ∀ c ∈ (eraseComments cs).head?, c = ' ' ∨ c ∈ cs.head? := by
  intro c hc
  rw [eraseComments.eq_def] at hc
  split at hc
  · cases hc
  · split at hc
    · exact .inl (Option.some.inj hc).symm
    · exact .inr hc
  · exact .inl (Option.some.inj hc).symm
  · exact .inr hc

/-! ## The target of a statement -/

variable {p q : NamePart} {rest : List Char}

theorem isEndedBy_eraseComments (h : p.IsEndedBy cs) : p.IsEndedBy (eraseComments cs) := by
  cases p with
  | plain name hname =>
    intro c hc
    rcases head?_eraseComments cs c hc with rfl | hc
    · exact endsName_of_blank (by decide) [] ' ' rfl
    · exact h c hc
  | bracketed name hname =>
    intro hhead
    rcases head?_eraseComments cs ']' hhead with hblank | hhead
    · exact absurd hblank (by decide)
    · exact h hhead

theorem isPlainStart_of_starts
    {c : Char} (h : startsIdentifier c = true) :
    isPlainStart c = true := by
  simp only [startsIdentifier, Bool.or_eq_true] at h
  rcases h with h | h <;> simp [isPlainStart, h]

/-- No part of a name starts like a number. -/
theorem start_of_part
    {c : Char} (h : c = '[' ∨ isPlainStart c = true) :
    c ≠ ' ' ∧ isDigit c = false := by
  have hstarts : startsIdentifier c = true ∨ c = '[' ∨ c = '\u017F' ∨ c = '\u212A' := by
    simp only [isPlainStart, Bool.or_eq_true, beq_iff_eq] at h
    simp only [startsIdentifier, Bool.or_eq_true, beq_iff_eq]
    tauto
  rcases hstarts with hstarts | rfl | rfl | rfl
  · refine ⟨?_, isDigit_of_starts (.inl hstarts)⟩
    rintro rfl
    exact absurd hstarts (by decide)
  · decide
  · decide
  · decide

theorem readPart?_written
    (h : p.IsEndedBy rest) :
    readPart? (p.written ++ rest) = some (p.written, rest) := by
  cases p with
  | plain name hname =>
    cases name with
    | nil => exact hname.elim
    | cons c cs =>
      have hword : ∀ d ∈ cs, isWordChar d = true := fun d hd =>
        (isNameOnly_of_isIdentifierChar (hname.2 d hd)).isWordChar
      obtain ⟨htake, hdrop⟩ := span_append hword fun d hd => (h d hd).2.1
      have hopens : c ≠ '[' := by
        rintro rfl
        exact absurd hname.1 (by decide)
      have hbracket : readBracketed? (c :: (cs ++ rest)) = none := by
        simp [readBracketed?, hopens]
      rw [NamePart.written, List.cons_append, readPart?, hbracket, Option.none_or, readPlainName?,
        if_pos (isPlainStart_of_starts hname.1), htake, hdrop]
  | bracketed name hname =>
    have hinside : ∀ d ∈ name, (d != ']') = true := fun d hd => by
      simpa using (hname.isBracketFree d hd).2
    obtain ⟨htake, hdrop⟩ : (name ++ ']' :: rest).takeWhile (· != ']') = name ∧
        (name ++ ']' :: rest).dropWhile (· != ']') = ']' :: rest :=
      span_append hinside (by simp)
    have hbracket : readBracketed? ('[' :: (name ++ ']' :: rest)) =
        some ('[' :: (name ++ [']']), rest) := by
      simp [readBracketed?, htake, hdrop, hname.ne_nil]
    rw [NamePart.written, List.cons_append, List.cons_append, List.append_assoc,
      List.singleton_append, readPart?, hbracket, Option.some_or]

theorem exists_start_of_readPart?
    {found : List Char × List Char} (h : readPart? cs = some found) :
    ∃ c rest, cs = c :: rest ∧ (c = '[' ∨ isPlainStart c = true) := by
  cases cs with
  | nil => cases h
  | cons c rest =>
    refine ⟨c, rest, rfl, ?_⟩
    by_cases hopens : c = '['
    · exact .inl hopens
    · cases hstart : isPlainStart c with
      | true => exact .inr rfl
      | false => simp [readPart?, readBracketed?, hopens, readPlainName?, hstart] at h

theorem readTarget?_one
    (h : p.IsEndedBy rest) (hdot : ∀ others, rest = '.' :: others → readPart? others = none) :
    readTarget? (p.written ++ rest) = some (p.written, rest) := by
  rw [readTarget?, readPart?_written h]
  cases rest with
  | nil => rfl
  | cons c others =>
    by_cases hc : '.' = c
    · subst hc
      simp [stripChar?, hdot others rfl]
    · simp [stripChar?, hc]

theorem readTarget?_two
    (h : q.IsEndedBy rest) :
    readTarget? (p.written ++ '.' :: (q.written ++ rest)) =
      some (p.written ++ '.' :: q.written, rest) := by
  simp [readTarget?, readPart?_written (isEndedBy_dot p _), readPart?_written h, stripChar?]

/-! ## Blanks and the variable before the target -/

theorem not_blank_of_starts
    {c : Char} (hc : startsIdentifier c = true ∨ c = '[') :
    isBlank c = false := by
  rcases hc with hc | rfl
  · exact (isNameOnly_of_isIdentifierChar (isIdentifierChar_of_starts hc)).isBlank
  · decide

theorem trimStart_blanks
    {gap : List Char} (hgap : ∀ c ∈ gap, isBlank c = true)
    (hrest : ∀ c ∈ rest.head?, isBlank c = false) :
    trimStart isBlank (gap ++ rest) = rest :=
  (span_append hgap hrest).2

theorem not_blank_written (p : NamePart) (rest : List Char) :
    ∀ c ∈ (p.written ++ rest).head?, isBlank c = false := by
  obtain ⟨c, cs, hp, hc⟩ := p.exists_cons_written
  rw [hp]
  rintro d ⟨⟩
  exact not_blank_of_starts hc

theorem skipStatus?_part (p : NamePart) (rest : List Char) :
    skipStatus? (p.written ++ rest) = none := by
  obtain ⟨c, cs, hp, hc⟩ := p.exists_cons_written
  have hat : '@' ≠ c := by
    rintro rfl
    exact absurd hc (by decide)
  simp [hp, skipStatus?, stripChar?, hat]

theorem skipStatus?_variable (v : StatusVariable) (p : NamePart) (rest : List Char) :
    skipStatus? (v.written ++ (p.written ++ rest)) = some (p.written ++ rest) := by
  have hends := v.endsName_before (v.after ++ (p.written ++ rest))
  obtain ⟨htake, hdrop⟩ := span_append (fun c hc => (v.isName c hc).2) fun c hc => (hends c hc).2.1
  have hequals : trimStart isBlank (v.before ++ '=' :: (v.after ++ (p.written ++ rest))) =
      '=' :: (v.after ++ (p.written ++ rest)) := by
    apply trimStart_blanks v.blank_before
    rintro c ⟨⟩
    decide
  have hname := trimStart_blanks v.blank_after (not_blank_written p rest)
  simp [StatusVariable.written, skipStatus?, stripChar?, htake, hdrop, v.name_ne_nil, hequals,
    hname, -List.takeWhile_eq_nil_iff]

/-- The blanks and the variable before the name are skipped. -/
theorem targetBehind?_lead (s : ExecStatement) (rest : List Char) :
    targetBehind? (s.lead ++ (s.first.written ++ rest)) =
      (readTarget? (s.first.written ++ rest)).map fun (target, rest) =>
        (String.ofList target, rest) := by
  have hstrip : ∀ {behind : List Char}, (∀ c ∈ behind.head?, isBlank c = false) →
      stripBlanks? (s.gap ++ behind) = some behind := by
    intro behind hbehind
    obtain ⟨c, gap, hgap⟩ := List.exists_cons_of_ne_nil s.gap_ne_nil
    obtain ⟨hc, hothers⟩ := List.forall_mem_cons.mp (hgap ▸ s.blank_gap)
    rw [hgap, List.cons_append, stripBlanks?, if_pos hc, trimStart_blanks hothers hbehind]
  have hskip : ∃ behind, stripBlanks? (s.lead ++ (s.first.written ++ rest)) = some behind ∧
      (skipStatus? behind).getD behind = s.first.written ++ rest := by
    cases hstatus : s.status with
    | none =>
      refine ⟨s.first.written ++ rest, ?_, by rw [skipStatus?_part, Option.getD_none]⟩
      simp [ExecStatement.lead, hstatus, hstrip (not_blank_written s.first rest)]
    | some v =>
      refine ⟨v.written ++ (s.first.written ++ rest), ?_,
        by rw [skipStatus?_variable, Option.getD_some]⟩
      have hat : ∀ c ∈ (v.written ++ (s.first.written ++ rest)).head?, isBlank c = false := by
        rintro c ⟨⟩
        decide
      simp [ExecStatement.lead, hstatus, hstrip hat]
  obtain ⟨behind, hblanks, hstatus⟩ := hskip
  rw [targetBehind?, hblanks]
  show ((readTarget? ((skipStatus? behind).getD behind)).bind _) = _
  rw [hstatus, Option.map_eq_bind]
  rfl

/-! ## The targets of a statement -/

theorem not_sameFold_blank {c : Char} (h : isBlank c = true) : sameFold 'U' c = false := by
  simpa using forall_blank (p := fun c => !sameFold 'U' c) (by decide +kernel) h

/-- The statement itself has the target that stands behind its lead. -/
theorem execTarget_statement (s : ExecStatement) (rest : List Char) :
    execTarget none (s.keyword ++ (s.lead ++ (s.first.written ++ rest))) =
      (readTarget? (s.first.written ++ rest)).map fun (target, rest) =>
        (String.ofList target, rest) := by
  have hstart : isBoundary none (s.keyword ++ (s.lead ++ (s.first.written ++ rest))) = true := by
    have hidentifier := s.isIdentifier_keyword
    cases hkeyword : s.keyword with
    | nil => exact (hkeyword ▸ hidentifier).elim
    | cons c cs =>
      have hc := (hkeyword ▸ hidentifier).forall_mem c List.mem_cons_self
      simp [isBoundary, (isNameOnly_of_isIdentifierChar hc).isWordChar]
  have hword : ∃ behind,
      stripFold? "EXEC".toList (s.keyword ++ (s.lead ++ (s.first.written ++ rest))) = some behind ∧
      (stripFold? "UTE".toList behind).getD behind = s.lead ++ (s.first.written ++ rest) := by
    rcases s.map_toLower_keyword with hexec | hexecute
    · refine ⟨_, stripFold?_of_map_toLower hexec (forall_mem_of_all (by decide)) _, ?_⟩
      obtain ⟨c, gap, hgap⟩ := List.exists_cons_of_ne_nil s.gap_ne_nil
      have hc := not_sameFold_blank (s.blank_gap c (hgap ▸ List.mem_cons_self))
      have hute : stripFold? "UTE".toList (s.lead ++ (s.first.written ++ rest)) = none := by
        rw [ExecStatement.lead, hgap]
        show stripFold? ('U' :: _) (c :: _) = none
        rw [stripFold?, if_neg (Bool.eq_false_iff.mp hc)]
      rw [hute, Option.getD_none]
    · have hwhole : stripFold? ("EXEC".toList ++ "UTE".toList)
          (s.keyword ++ (s.lead ++ (s.first.written ++ rest))) =
            some (s.lead ++ (s.first.written ++ rest)) :=
        stripFold?_of_map_toLower hexecute (forall_mem_of_all (by decide)) _
      rw [stripFold?_append] at hwhole
      obtain ⟨behind, hexec, hute⟩ := Option.bind_eq_some_iff.mp hwhole
      exact ⟨behind, hexec, by rw [hute, Option.getD_some]⟩
  obtain ⟨behind, hexec, hute⟩ := hword
  rw [execTarget_eq, if_pos hstart, hexec, Option.bind_some, hute, targetBehind?_lead]

theorem findAll_of_match
    {α : Type} {p : Pattern α} {prev : Option Char} {v : α} (h : p prev cs = some (v, rest))
    (hlength : rest.length < cs.length) :
    findAll p prev cs = v :: findAll p (lastBefore prev cs rest) rest := by
  cases cs with
  | nil => exact absurd hlength (Nat.not_lt_zero _)
  | cons c tail =>
    rw [findAll, h]
    exact if_pos hlength

/-- A word does not go on behind a part that is ended. -/
theorem not_word_behind
    (h : p.IsEndedBy rest) (front : List Char) :
    (∀ c ∈ (front ++ p.written).getLast?, isWordChar c = false) ∨
      ∀ c ∈ rest.head?, isWordChar c = false := by
  cases p with
  | plain name hname => exact .inr fun c hc => (h c hc).2.1
  | bracketed name hname =>
    left
    intro c hc
    rw [NamePart.written, ← List.append_assoc, List.getLast?_concat] at hc
    obtain rfl := Option.some.inj hc
    decide +kernel

end KeywordScan

namespace ExecStatement

open KeywordScan

/-- The parts of the name that the scan takes, as they are written. -/
def target (s : ExecStatement) : List Char :=
  s.first.written ++ dotted (s.more.take 1)

theorem eraseComments_text (s : ExecStatement) :
    eraseComments s.text.toList = s.keyword ++ (s.lead ++ (s.target ++
      (dotted (s.more.drop 1) ++ eraseComments s.arguments))) := by
  have hstatus : IsKept ((s.status.map StatusVariable.written).getD []) := by
    cases s.status with
    | none => exact isKept_nil
    | some v => exact isKept_variable v
  have hlead : IsKept s.lead := (isKept_of_blank s.blank_gap).append hstatus
  have hmore : dotted s.more = dotted (s.more.take 1) ++ dotted (s.more.drop 1) := by
    rw [dotted, dotted, dotted, ← List.flatMap_append, List.take_append_drop]
  rw [text, String.toList_ofList, isKept_of_isIdentifierChar s.isIdentifier_keyword.forall_mem,
    hlead, isKept_written s.first, isKept_dotted s.more, hmore, target, List.append_assoc,
    List.append_assoc]

/-- The last part that the scan takes is ended. -/
theorem isEndedBy_behind (s : ExecStatement) :
    (last s.first (s.more.take 1)).IsEndedBy
      (dotted (s.more.drop 1) ++ eraseComments s.arguments) := by
  have hended := s.isEnded
  cases hmore : s.more with
  | nil =>
    rw [hmore] at hended
    exact isEndedBy_eraseComments hended
  | cons q ps =>
    cases ps with
    | nil =>
      rw [hmore] at hended
      exact isEndedBy_eraseComments hended
    | cons r ps => exact isEndedBy_dot q _

/-- The arguments do not go on with the name, also without their comments. -/
theorem readPart?_arguments
    (s : ExecStatement) {others : List Char} (h : eraseComments s.arguments = '.' :: others) :
    readPart? others = none := by
  rw [Option.eq_none_iff_forall_ne_some]
  intro found hfound
  obtain ⟨c, cs, rfl, hc⟩ := exists_start_of_readPart? hfound
  have hnot : c ≠ ' ' ∧ isDigit c = false := start_of_part hc
  have hhead := head?_eraseComments s.arguments '.' (h ▸ rfl)
  obtain ⟨arguments, harguments⟩ := List.head?_eq_some_iff.mp
    (hhead.resolve_left (by decide))
  rw [harguments, eraseComments_cons (by simp) (by simp)] at h
  have hnext := head?_eraseComments arguments c ((List.cons.inj h).2 ▸ rfl)
  obtain ⟨behind, rfl⟩ := List.head?_eq_some_iff.mp (hnext.resolve_left hnot.1)
  have hread := s.isRead
  rw [harguments, tokensFrom_period hnot.2] at hread
  obtain ⟨ts, -, hts⟩ := exists_of_map_eq_ok hread
  exact s.not_period (hts ▸ rfl)

theorem readTarget?_statement (s : ExecStatement) :
    readTarget? (s.target ++ (dotted (s.more.drop 1) ++ eraseComments s.arguments)) =
      some (s.target, dotted (s.more.drop 1) ++ eraseComments s.arguments) := by
  have hended := s.isEndedBy_behind
  cases hmore : s.more with
  | nil =>
    rw [hmore] at hended
    have hone : readTarget? (s.first.written ++ eraseComments s.arguments) = _ :=
      readTarget?_one hended fun others hdot => s.readPart?_arguments hdot
    simpa [target, hmore, dotted] using hone
  | cons q ps =>
    rw [hmore] at hended
    have htwo : readTarget? (s.first.written ++ '.' ::
        (q.written ++ (dotted ps ++ eraseComments s.arguments))) = _ := readTarget?_two hended
    simpa [target, hmore, dotted] using htwo

theorem exists_front_target (s : ExecStatement) :
    ∃ front, s.target = front ++ (last s.first (s.more.take 1)).written := by
  cases hmore : s.more with
  | nil => exact ⟨[], by simp [target, hmore, dotted, last]⟩
  | cons q ps => exact ⟨s.first.written ++ ['.'], by simp [target, hmore, dotted, last]⟩

/-- The scan finds one target. -/
theorem findAll_text (s : ExecStatement) :
    findAll execTarget none (eraseComments s.text.toList) = [String.ofList s.target] := by
  have hmatch := execTarget_statement s (dotted (s.more.take 1) ++
    (dotted (s.more.drop 1) ++ eraseComments s.arguments))
  rw [← List.append_assoc s.first.written, ← target, s.readTarget?_statement, Option.map_some]
    at hmatch
  obtain ⟨front, hfront⟩ := s.exists_front_target
  have hboundary := not_word_behind s.isEndedBy_behind (s.keyword ++ (s.lead ++ front))
  have hlength : (dotted (s.more.drop 1) ++ eraseComments s.arguments).length <
      (s.keyword ++ (s.lead ++ (s.target ++
        (dotted (s.more.drop 1) ++ eraseComments s.arguments)))).length := by
    have hgap := List.length_pos_iff.mpr s.gap_ne_nil
    simp only [lead, List.length_append]
    omega
  rw [s.eraseComments_text, findAll_of_match hmatch hlength,
    findAll_execTarget_eq_nil s.not_exec_word]
  rwa [← List.append_assoc s.lead, ← List.append_assoc s.keyword, lastBefore_append, Option.or_none,
    hfront, ← List.append_assoc s.lead, ← List.append_assoc s.keyword]

end ExecStatement

end SqlSnapshot
