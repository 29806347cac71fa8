import SqlSnapshot.Token.Basic

/-!
# Parentheses

Scans over token lists that keep count of the open parentheses.  Each returns parts of its list,
never positions; the lemmas say which parts, and that nothing is lost.
-/

namespace SqlSnapshot.Token

/-- The tokens before the parenthesis that closes the open one, inside which `depth` further ones
are open, and the tokens after it. -/
def closeParen? (depth : Nat) : List Token → Option (List Token × List Token)
  | [] => none
  | .rparen :: ts =>
    match depth with
    | 0 => some ([], ts)
    | depth + 1 => (closeParen? depth ts).map fun (inner, rest) => (.rparen :: inner, rest)
  | .lparen :: ts =>
    (closeParen? (depth + 1) ts).map fun (inner, rest) => (.lparen :: inner, rest)
  | t :: ts => (closeParen? depth ts).map fun (inner, rest) => (t :: inner, rest)

theorem closeParen?_append {depth : Nat} {ts inner rest : List Token}
    (h : closeParen? depth ts = some (inner, rest)) : ts = inner ++ .rparen :: rest := by
  fun_induction closeParen? depth ts generalizing inner rest <;> simp_all <;> grind

theorem length_closeParen? {depth : Nat} {ts inner rest : List Token}
    (h : closeParen? depth ts = some (inner, rest)) :
    inner.length + rest.length + 1 = ts.length := by
  rw [closeParen?_append h]
  simp
  omega

/-- Whether every parenthesis has its partner, with `depth` open ones before the list. -/
def balancedFrom (depth : Nat) : List Token → Bool
  | [] => depth == 0
  | .lparen :: ts => balancedFrom (depth + 1) ts
  | .rparen :: ts => if depth = 0 then false else balancedFrom (depth - 1) ts
  | _ :: ts => balancedFrom depth ts

def isBalanced (ts : List Token) : Bool :=
  balancedFrom 0 ts

/-- How the number of open parentheses changes at a token; a stray closing one is ignored. -/
def depthAfter (depth : Nat) : Token → Nat
  | .lparen => depth + 1
  | .rparen => depth - 1
  | _ => depth

def consFirst (t : Token) : List (List Token) → List (List Token)
  | [] => [[t]]
  | p :: ps => (t :: p) :: ps

/-- The parts between the commas outside parentheses; there is none after a last comma. -/
def splitCommas (depth : Nat) : List Token → List (List Token)
  | [] => []
  | t :: ts =>
    if t = .comma ∧ depth = 0 then [] :: splitCommas 0 ts
    else consFirst t (splitCommas (depthAfter depth t) ts)

theorem isPrefix_consFirst_or
    {t : Token} {ts : List Token} {pieces : List (List Token)}
    (hfirst : ∀ q, pieces.head? = some q → q <+: ts)
    (hpieces : ∀ q ∈ pieces, q <:+: ts) :
    (∀ q, (consFirst t pieces).head? = some q → q <+: t :: ts) ∧
      ∀ q ∈ consFirst t pieces, q <:+: t :: ts := by
  cases pieces with
  | nil =>
    have hone : [t] <+: t :: ts := ⟨ts, rfl⟩
    simp only [consFirst, List.head?_cons, Option.some.injEq, forall_eq', List.mem_singleton,
      forall_eq]
    exact ⟨hone, hone.isInfix⟩
  | cons q pieces =>
    have hq : t :: q <+: t :: ts := (List.prefix_cons_inj t).mpr (hfirst q rfl)
    simp only [consFirst, List.head?_cons, Option.some.injEq, forall_eq', List.forall_mem_cons]
    exact ⟨hq, hq.isInfix, fun r hr =>
      (hpieces r (List.mem_cons_of_mem q hr)).trans (List.infix_cons List.infix_rfl)⟩

theorem isPrefix_splitCommas_or
    (depth : Nat) (ts : List Token) :
    (∀ p, (splitCommas depth ts).head? = some p → p <+: ts) ∧
      ∀ p ∈ splitCommas depth ts, p <:+: ts := by
  induction ts generalizing depth with
  | nil => simp [splitCommas]
  | cons t ts ih =>
    rw [splitCommas]
    split
    · simp only [List.head?_cons, Option.some.injEq, forall_eq', List.forall_mem_cons]
      exact ⟨List.nil_prefix, List.nil_infix, fun p hp =>
        ((ih 0).2 p hp).trans (List.infix_cons List.infix_rfl)⟩
    · exact isPrefix_consFirst_or (ih _).1 (ih _).2

theorem isInfix_of_mem_splitCommas {depth : Nat} {ts p : List Token}
    (h : p ∈ splitCommas depth ts) : p <:+: ts :=
  (isPrefix_splitCommas_or depth ts).2 p h

theorem length_of_mem_splitCommas {depth : Nat} {ts p : List Token}
    (h : p ∈ splitCommas depth ts) : p.length ≤ ts.length :=
  (isInfix_of_mem_splitCommas h).length_le

/-- Cuts before the first token outside parentheses that is one of the keywords. -/
def cutAtKw (keywords : List String) (depth : Nat) : List Token → List Token × List Token
  | [] => ([], [])
  | t :: ts =>
    if depth = 0 ∧ t.isAnyKw keywords = true then ([], t :: ts)
    else
      let (before, rest) := cutAtKw keywords (depthAfter depth t) ts
      (t :: before, rest)

theorem cutAtKw_append (keywords : List String) (depth : Nat) (ts : List Token) :
    (cutAtKw keywords depth ts).1 ++ (cutAtKw keywords depth ts).2 = ts := by
  induction ts generalizing depth with
  | nil => rfl
  | cons t ts ih =>
    rw [cutAtKw]
    split
    · rfl
    · simp [ih]

def upToKw (keywords : List String) (ts : List Token) : List Token :=
  (cutAtKw keywords 0 ts).1

def fromKw (keywords : List String) (ts : List Token) : List Token :=
  (cutAtKw keywords 0 ts).2

theorem isSuffix_fromKw (keywords : List String) (ts : List Token) : fromKw keywords ts <:+ ts :=
  ⟨(cutAtKw keywords 0 ts).1, cutAtKw_append keywords 0 ts⟩

/-- The list after its leading parenthesized group, if it starts with a complete one. -/
def skipGroup? : List Token → Option (List Token)
  | .lparen :: ts => (closeParen? 0 ts).map (·.2)
  | _ => none

/-- A group that is skipped ends with its closing parenthesis. -/
theorem isSuffix_rparen_skipGroup? {ts rest : List Token} (h : skipGroup? ts = some rest) :
    .rparen :: rest <:+ ts := by
  unfold skipGroup? at h
  split at h
  · obtain ⟨⟨inner, after⟩, hclose, rfl⟩ := Option.map_eq_some_iff.mp h
    rw [closeParen?_append hclose]
    exact List.suffix_append (.lparen :: inner) _
  · cases h

theorem isSuffix_skipGroup? {ts rest : List Token} (h : skipGroup? ts = some rest) :
    rest <:+ ts :=
  (List.suffix_cons .rparen rest).trans (isSuffix_rparen_skipGroup? h)

theorem length_skipGroup? {ts rest : List Token} (h : skipGroup? ts = some rest) :
    rest.length < ts.length :=
  (isSuffix_rparen_skipGroup? h).length_le

end SqlSnapshot.Token
