import Mathlib.Data.List.Induction
import SqlSnapshot.Definition.Body
import SqlSnapshot.Proofs.Token.Scans

/-!
# Phrases

A phrase is what stands between the keywords of a select: the select list, a condition, a list of
sources.  Its words outside parentheses and `CASE … END` start no statement, and the scan for the
end of the statement passes it as a whole.
-/

namespace SqlSnapshot

open Token

/-! ## Grammar -/

/-- Neither a parenthesis nor a terminator. -/
def Token.isPlain (t : Token) : Bool :=
  t != .lparen && t != .rparen && t != .semicolon

theorem Token.isPlain_of_isAnyKw {t : Token} {keywords : List String}
    (h : t.isAnyKw keywords = true) : t.isPlain = true := by
  cases t <;> simp_all [isAnyKw, isPlain]

theorem Token.isPlain_of_lead {t : Token} (h : t = .period ∨ t.isKw "AS" = true) :
    t.isPlain = true := by
  rcases h with rfl | has
  · rfl
  · exact isPlain_of_isAnyKw has

theorem Token.ne_of_isPlain {t : Token} (h : t.isPlain = true) :
    t ≠ .rparen ∧ t ≠ .semicolon := by
  cases t <;> simp_all [isPlain]

/-- A sign or a word that stands for itself in a phrase. -/
def Token.isOperand (t : Token) : Bool :=
  t.isPlain && !t.isAnyKw ("INTO" :: "CASE" :: Body.statementKeywords)

/-- A word that may stand next to a period or after `AS`. -/
def Token.isMember (t : Token) : Bool :=
  t.isPlain && !t.isAnyKw ["INTO", "CASE", "END"]

/-- Parts of a phrase one after another; with `inCase`, between `CASE` and its `END`. -/
inductive IsPhrase : (inCase : Bool) → List Token → Prop where
  | nil {inCase : Bool} : IsPhrase inCase []
  | append {inCase : Bool} {ts us : List Token} :
      IsPhrase inCase ts → IsPhrase inCase us → IsPhrase inCase (ts ++ us)
  | operand {inCase : Bool} {t : Token} : t.isOperand = true → IsPhrase inCase [t]
  | member {inCase : Bool} {lead t : Token} :
      lead = .period ∨ lead.isKw "AS" = true → t.isMember = true → IsPhrase inCase [lead, t]
  | qualifier {inCase : Bool} {t : Token} : t.isMember = true → IsPhrase inCase [t, .period]
  | group {inCase : Bool} {inner : List Token} :
      isBalanced inner = true → IsPhrase inCase (parens inner)
  | choice {inCase : Bool} {first last : Token} {branches : List Token} :
      first.isKw "CASE" = true → IsPhrase true branches → last.isKw "END" = true →
      IsPhrase inCase (first :: branches ++ [last])
  | otherwise {t : Token} : t.isKw "ELSE" = true → IsPhrase true [t]
  /-- Table hints, or the columns of a function. -/
  | hints {inCase : Bool} {t : Token} {inner : List Token} :
      t.isKw "WITH" = true → isBalanced inner = true →
      IsPhrase inCase (t :: parens inner)
  /-- What may follow the amount of `TOP`. -/
  | ties {inCase : Bool} {first second : Token} :
      first.isKw "WITH" = true → second.isKw "TIES" = true → IsPhrase inCase [first, second]

/-! ## Cuts -/

/-- The cut after the tokens are taken in front of it. -/
def carry (ts : List Token) (cut : List Token × List Token) : List Token × List Token :=
  (ts ++ cut.1, cut.2)

theorem carry_append (ts us : List Token) (cut : List Token × List Token) :
    carry (ts ++ us) cut = carry ts (carry us cut) := by
  simp [carry]

theorem foldr_carry (ts : List Token) (cut : List Token × List Token) :
    ts.foldr (fun t cut => carry [t] cut) cut = carry ts cut := by
  induction ts with
  | nil => rfl
  | cons t ts ih =>
    rw [List.foldr_cons, ih, ← carry_append]
    rfl

namespace Body

variable {prev t : Token} {caseDepth : Nat} {ts inner : List Token}

theorem cutStatement_inside (prev : Token) (depth caseDepth : Nat) (t : Token) (ts : List Token) :
    cutStatement prev (depth + 1) caseDepth (t :: ts) =
      carry [t] (cutStatement t (depthAfter (depth + 1) t) caseDepth ts) := by
  rw [cutStatement, if_neg (Nat.succ_ne_zero depth)]
  rfl

theorem cutStatement_parens
    (prev : Token) (caseDepth : Nat) (h : isBalanced inner = true) (rest : List Token) :
    cutStatement prev 0 caseDepth (parens inner ++ rest) =
      carry (parens inner) (cutStatement .rparen 0 caseDepth rest) := by
  have hopen : ∀ us, cutStatement prev 0 caseDepth (.lparen :: us) =
      carry [.lparen] (cutStatement .lparen 1 caseDepth us) := by
    intro us
    rw [cutStatement]
    simp [isKw, isAnyKw, startsStatement, depthAfter, carry]
  have hinner : cutStatement .lparen 1 caseDepth (inner ++ .rparen :: rest) = _ :=
    scan_group (fun prev depth ts => cutStatement prev depth caseDepth ts)
      (fun prev depth t ts => cutStatement_inside prev depth caseDepth t ts) h .lparen rest
  rw [parens, List.append_assoc, List.singleton_append, List.cons_append, hopen, hinner,
    foldr_carry, ← carry_append]
  rfl

theorem cutStatement_plain
    (hplain : t.isPlain = true) (hcase : t.isKw "CASE" = false)
    (hend : t.isKw "END" = false) (hstart : startsStatement prev t ts caseDepth = false) :
    cutStatement prev 0 caseDepth (t :: ts) = carry [t] (cutStatement t 0 caseDepth ts) := by
  have hdepth : depthAfter 0 t = 0 := by
    cases t <;> simp_all [depthAfter, isPlain]
  rw [cutStatement, if_pos rfl, if_neg (not_or.mpr (ne_of_isPlain hplain)),
    if_neg (by simp [hcase]), if_neg (by simp [hend]), if_neg (by simp [hstart]), hdepth]
  rfl

/-- The token before what follows the list, if `prev` stands before the list. -/
def lastOf (prev : Token) (ts : List Token) : Token :=
  ts.getLast?.getD prev

@[simp]
theorem lastOf_nil (prev : Token) : lastOf prev [] = prev := rfl

@[simp]
theorem lastOf_concat (prev : Token) (ts : List Token) (t : Token) :
    lastOf prev (ts ++ [t]) = t := by
  simp [lastOf]

theorem lastOf_append (prev : Token) (ts us : List Token) :
    lastOf prev (ts ++ us) = lastOf (lastOf prev ts) us := by
  cases us using List.reverseRecOn with
  | nil => rw [List.append_nil, lastOf_nil]
  | append_singleton us u => rw [← List.append_assoc, lastOf_concat, lastOf_concat]

/-- The scan for the end of the statement passes the tokens, whatever comes before and after them;
with `inCase`, inside a `CASE`. -/
def Passes (inCase : Bool) (ts : List Token) : Prop :=
  ∀ prev caseDepth rest, (inCase = true → 0 < caseDepth) →
    cutStatement prev 0 caseDepth (ts ++ rest) =
      carry ts (cutStatement (lastOf prev ts) 0 caseDepth rest)

theorem passes_nil {inCase : Bool} : Passes inCase [] :=
  fun _ _ _ _ => rfl

theorem Passes.append {inCase : Bool} {us : List Token}
    (hts : Passes inCase ts) (hus : Passes inCase us) : Passes inCase (ts ++ us) := by
  intro prev caseDepth rest hcase
  rw [List.append_assoc, hts prev caseDepth (us ++ rest) hcase, hus _ caseDepth rest hcase,
    carry_append, lastOf_append]

theorem passes_parens {inCase : Bool} (h : isBalanced inner = true) :
    Passes inCase (parens inner) := by
  intro prev caseDepth rest _
  rw [cutStatement_parens prev caseDepth h rest, parens, lastOf_concat]

theorem startsStatement_of_not (h : t.isAnyKw statementKeywords = false) :
    startsStatement prev t ts caseDepth = false := by
  rw [startsStatement, h]
  rfl

theorem startsStatement_member (hprev : prev = .period ∨ prev.isKw "AS" = true) :
    startsStatement prev t ts caseDepth = false := by
  unfold startsStatement
  split
  · rfl
  · rfl

theorem startsStatement_qualifier (t : Token) (ts : List Token) :
    startsStatement prev t (.period :: ts) caseDepth = false := by
  unfold startsStatement
  repeat' split
  all_goals simp_all

theorem passes_of_not_statement {inCase : Bool}
    (hplain : t.isPlain = true) (h : t.isAnyKw ("CASE" :: statementKeywords) = false) :
    Passes inCase [t] := by
  intro prev caseDepth rest _
  have hkeyword := isAnyKw_eq_false_of_subset h fun k hk => List.mem_cons_of_mem "CASE" hk
  exact cutStatement_plain hplain (isAnyKw_eq_false_of_subset h (by simp))
    (isAnyKw_eq_false_of_subset h (by simp [statementKeywords])) (startsStatement_of_not hkeyword)

theorem passes_member {inCase : Bool} {lead : Token}
    (hlead : lead = .period ∨ lead.isKw "AS" = true) (ht : t.isMember = true) :
    Passes inCase [lead, t] := by
  intro prev caseDepth rest _
  have hnot : lead.isAnyKw ("CASE" :: statementKeywords) = false := by
    rcases hlead with rfl | has
    · rfl
    · exact isAnyKw_eq_false_of_disjoint has (by decide)
  rw [isMember, Bool.and_eq_true, Bool.not_eq_true'] at ht
  have hkeyword := isAnyKw_eq_false_of_subset hnot fun k hk => List.mem_cons_of_mem "CASE" hk
  have hfirst : cutStatement prev 0 caseDepth (lead :: t :: rest) =
      carry [lead] (cutStatement lead 0 caseDepth (t :: rest)) :=
    cutStatement_plain (isPlain_of_lead hlead) (isAnyKw_eq_false_of_subset hnot (by simp))
      (isAnyKw_eq_false_of_subset hnot (by simp [statementKeywords]))
      (startsStatement_of_not hkeyword)
  have hsecond : cutStatement lead 0 caseDepth (t :: rest) =
      carry [t] (cutStatement t 0 caseDepth rest) :=
    cutStatement_plain ht.1 (isAnyKw_eq_false_of_subset ht.2 (by simp))
      (isAnyKw_eq_false_of_subset ht.2 (by simp)) (startsStatement_member hlead)
  rw [List.cons_append, List.cons_append, List.nil_append, hfirst, hsecond, ← carry_append]
  rfl

theorem passes_qualifier {inCase : Bool} (ht : t.isMember = true) :
    Passes inCase [t, .period] := by
  intro prev caseDepth rest hcase
  rw [isMember, Bool.and_eq_true, Bool.not_eq_true'] at ht
  have hfirst : cutStatement prev 0 caseDepth (t :: .period :: rest) =
      carry [t] (cutStatement t 0 caseDepth (.period :: rest)) :=
    cutStatement_plain ht.1 (isAnyKw_eq_false_of_subset ht.2 (by simp))
      (isAnyKw_eq_false_of_subset ht.2 (by simp)) (startsStatement_qualifier t rest)
  have hpasses : Passes inCase [.period] := passes_of_not_statement rfl rfl
  have hperiod := hpasses t caseDepth rest hcase
  rw [List.singleton_append] at hperiod
  rw [List.cons_append, List.singleton_append, hfirst, hperiod, ← carry_append]
  rfl

theorem passes_otherwise (h : t.isKw "ELSE" = true) : Passes true [t] := by
  intro prev caseDepth rest hcase
  have hinside : (caseDepth == 0) = false := beq_false_of_ne (Nat.ne_of_gt (hcase rfl))
  have hstart : startsStatement prev t rest caseDepth = false := by
    unfold startsStatement
    rw [if_pos h, hinside]
    repeat' split
    all_goals rfl
  exact cutStatement_plain (isPlain_of_isAnyKw h)
    (isAnyKw_eq_false_of_disjoint h (by decide)) (isAnyKw_eq_false_of_disjoint h (by decide))
    hstart

theorem passes_choice {inCase : Bool} {first last : Token} {branches : List Token}
    (hfirst : first.isKw "CASE" = true) (hbranches : Passes true branches)
    (hlast : last.isKw "END" = true) :
    Passes inCase (first :: branches ++ [last]) := by
  intro prev caseDepth rest _
  have hopen : ∀ us, cutStatement prev 0 caseDepth (first :: us) =
      carry [first] (cutStatement first 0 (caseDepth + 1) us) := by
    intro us
    rw [cutStatement, if_pos rfl, if_neg (not_or.mpr (ne_of_isPlain (isPlain_of_isAnyKw hfirst))),
      if_pos hfirst]
    rfl
  have hclose : ∀ middle us, cutStatement middle 0 (caseDepth + 1) (last :: us) =
      carry [last] (cutStatement last 0 caseDepth us) := by
    intro middle us
    have hcase : last.isKw "CASE" = false := isAnyKw_eq_false_of_disjoint hlast (by decide)
    rw [cutStatement, if_pos rfl, if_neg (not_or.mpr (ne_of_isPlain (isPlain_of_isAnyKw hlast))),
      if_neg (by simp [hcase]), if_pos ⟨hlast, Nat.succ_pos caseDepth⟩]
    rfl
  have hmiddle := hbranches first (caseDepth + 1) (last :: rest) fun _ => Nat.succ_pos caseDepth
  rw [List.append_assoc, List.cons_append, List.singleton_append, hopen, hmiddle, hclose,
    ← carry_append, ← carry_append, lastOf_concat]
  rfl

theorem cutStatement_with
    (ht : t.isKw "WITH" = true)
    (hnext : startsWithParen ts = true ∨ startsWithKw "TIES" ts = true) :
    cutStatement prev 0 caseDepth (t :: ts) = carry [t] (cutStatement t 0 caseDepth ts) := by
  have hstart : startsStatement prev t ts caseDepth = false := by
    have helse : t.isKw "ELSE" = false := isAnyKw_eq_false_of_disjoint ht (by decide)
    have hselect : t.isKw "SELECT" = false := isAnyKw_eq_false_of_disjoint ht (by decide)
    rcases hnext with hparen | hties <;> simp [startsStatement, *]
  exact cutStatement_plain (isPlain_of_isAnyKw ht) (isAnyKw_eq_false_of_disjoint ht (by decide))
    (isAnyKw_eq_false_of_disjoint ht (by decide)) hstart

theorem passes_hints {inCase : Bool} (ht : t.isKw "WITH" = true) (h : isBalanced inner = true) :
    Passes inCase (t :: parens inner) := by
  intro prev caseDepth rest _
  rw [List.cons_append, cutStatement_with ht (.inl rfl), cutStatement_parens t caseDepth h rest,
    ← carry_append, parens, ← List.cons_append, lastOf_concat]
  rfl

theorem not_statement_of_isOperand (h : t.isOperand = true) :
    t.isPlain = true ∧ t.isAnyKw ("CASE" :: statementKeywords) = false := by
  rw [isOperand, Bool.and_eq_true, Bool.not_eq_true'] at h
  exact ⟨h.1, isAnyKw_eq_false_of_subset h.2 fun k hk => List.mem_cons_of_mem "INTO" hk⟩

theorem passes_keyword {inCase : Bool} {keywords : List String}
    (h : t.isAnyKw keywords = true) (hother : ∀ k ∈ keywords, k ∉ "CASE" :: statementKeywords) :
    Passes inCase [t] :=
  passes_of_not_statement (isPlain_of_isAnyKw h) (isAnyKw_eq_false_of_disjoint h hother)

theorem passes_ties {inCase : Bool} {first second : Token}
    (hfirst : first.isKw "WITH" = true) (hsecond : second.isKw "TIES" = true) :
    Passes inCase [first, second] := by
  intro prev caseDepth rest hcase
  have hties : startsWithKw "TIES" (second :: rest) = true := hsecond
  have hlast := passes_keyword hsecond (by decide) first caseDepth rest hcase
  rw [List.singleton_append] at hlast
  rw [List.cons_append, List.singleton_append, cutStatement_with hfirst (.inr hties), hlast,
    ← carry_append]
  rfl

/-- The scan for the end of the statement passes a phrase. -/
theorem passes_of_isPhrase {inCase : Bool} (h : IsPhrase inCase ts) : Passes inCase ts := by
  induction h with
  | nil => exact passes_nil
  | append _ _ hts hus => exact hts.append hus
  | operand ht =>
    obtain ⟨hplain, hnot⟩ := not_statement_of_isOperand ht
    exact passes_of_not_statement hplain hnot
  | member hlead ht => exact passes_member hlead ht
  | qualifier ht => exact passes_qualifier ht
  | group hinner => exact passes_parens hinner
  | choice hfirst _ hlast hbranches => exact passes_choice hfirst hbranches hlast
  | otherwise ht => exact passes_otherwise ht
  | hints ht hinner => exact passes_hints ht hinner
  | ties hfirst hsecond => exact passes_ties hfirst hsecond

end Body

/-! ## Balance -/

variable {ts : List Token} {inCase : Bool}

theorem isBalanced_plain {t : Token} (h : t.isPlain = true) : isBalanced [t] = true := by
  cases t <;> simp_all [isBalanced, balancedFrom, isPlain]

theorem isBalanced_keyword {t : Token} {keywords : List String} (h : t.isAnyKw keywords = true) :
    isBalanced [t] = true :=
  isBalanced_plain (isPlain_of_isAnyKw h)

theorem isBalanced_of_isPhrase (h : IsPhrase inCase ts) : isBalanced ts = true := by
  induction h with
  | nil => rfl
  | append _ _ hts hus => exact isBalanced_append hts hus
  | operand ht => exact isBalanced_plain (Body.not_statement_of_isOperand ht).1
  | member hlead ht =>
    rw [isMember, Bool.and_eq_true] at ht
    exact isBalanced_append (isBalanced_plain (isPlain_of_lead hlead)) (isBalanced_plain ht.1)
  | qualifier ht =>
    rw [isMember, Bool.and_eq_true] at ht
    exact isBalanced_append (isBalanced_plain ht.1) rfl
  | group hinner => exact isBalanced_parens hinner
  | choice hfirst _ hlast hbranches =>
    exact isBalanced_append (isBalanced_append (isBalanced_keyword hfirst) hbranches)
      (isBalanced_keyword hlast)
  | otherwise ht => exact isBalanced_keyword ht
  | hints ht hinner => exact isBalanced_append (isBalanced_keyword ht) (isBalanced_parens hinner)
  | ties hfirst hsecond =>
    exact isBalanced_append (isBalanced_keyword hfirst) (isBalanced_keyword hsecond)

/-! ## Words outside parentheses -/

/-- No `INTO` stands outside parentheses. -/
def AvoidsInto (ts : List Token) : Prop :=
  ∀ t ∈ outside 0 ts, t.isKw "INTO" = false

theorem avoidsInto_singleton {t : Token} (h : t.isKw "INTO" = false) : AvoidsInto [t] := by
  intro u hu
  rw [outside, if_pos rfl, outside, List.mem_singleton] at hu
  exact hu ▸ h

theorem avoidsInto_keyword {t : Token} {keywords : List String}
    (h : t.isAnyKw keywords = true) (hother : "INTO" ∉ keywords) : AvoidsInto [t] :=
  avoidsInto_singleton (isAnyKw_eq_false_of_disjoint h fun _ hk hinto =>
    hother (List.mem_singleton.mp hinto ▸ hk))

theorem avoidsInto_parens {inner : List Token} (h : isBalanced inner = true) :
    AvoidsInto (parens inner) := by
  intro t ht
  rw [outside_parens h, List.mem_singleton] at ht
  rw [ht]
  rfl

theorem AvoidsInto.append {us : List Token}
    (hts : AvoidsInto ts) (hbalanced : isBalanced ts = true) (hus : AvoidsInto us) :
    AvoidsInto (ts ++ us) :=
  Avoids.append hts (closes_of_isBalanced hbalanced) hus

theorem avoidsInto_of_isPhrase (h : IsPhrase inCase ts) : AvoidsInto ts := by
  induction h with
  | nil => simp [AvoidsInto, outside]
  | append hts _ ihts ihus => exact ihts.append (isBalanced_of_isPhrase hts) ihus
  | operand ht =>
    rw [isOperand, Bool.and_eq_true, Bool.not_eq_true'] at ht
    exact avoidsInto_singleton (isAnyKw_eq_false_of_subset ht.2 (by decide))
  | member hlead ht =>
    have hfirst := isPlain_of_lead hlead
    rw [isMember, Bool.and_eq_true, Bool.not_eq_true'] at ht
    refine AvoidsInto.append (avoidsInto_singleton ?_) (isBalanced_plain hfirst)
      (avoidsInto_singleton (isAnyKw_eq_false_of_subset ht.2 (by decide)))
    rcases hlead with rfl | has
    · rfl
    · exact isAnyKw_eq_false_of_disjoint has (by decide)
  | qualifier ht =>
    rw [isMember, Bool.and_eq_true, Bool.not_eq_true'] at ht
    exact (avoidsInto_singleton (isAnyKw_eq_false_of_subset ht.2 (by decide))).append
      (isBalanced_plain ht.1) (avoidsInto_singleton rfl)
  | group hinner => exact avoidsInto_parens hinner
  | choice hfirst hbranches hlast ih =>
    have hopen := (avoidsInto_keyword hfirst (by decide)).append (isBalanced_keyword hfirst) ih
    have hbalanced :=
      isBalanced_append (isBalanced_keyword hfirst) (isBalanced_of_isPhrase hbranches)
    exact hopen.append hbalanced (avoidsInto_keyword hlast (by decide))
  | otherwise ht => exact avoidsInto_keyword ht (by decide)
  | hints ht hinner =>
    exact (avoidsInto_keyword ht (by decide)).append (isBalanced_keyword ht)
      (avoidsInto_parens hinner)
  | ties hfirst hsecond =>
    exact (avoidsInto_keyword hfirst (by decide)).append (isBalanced_keyword hfirst)
      (avoidsInto_keyword hsecond (by decide))

end SqlSnapshot
