import SqlSnapshot.Proofs.Token.Scans
import SqlSnapshot.Token.Name

/-!
# Parts of a list

What the readers of tokens take out of a list stands in that list, in one piece.
-/

namespace SqlSnapshot.Token

variable {ts us inner rest p : List Token} {depth : Nat} {parts : List String}

/-! ## Parts inside parentheses -/

theorem isInfix_of_closeParen?
    (h : closeParen? depth ts = some (inner, rest)) :
    inner <:+: ts := by
  rw [closeParen?_append h]
  exact (List.prefix_append inner _).isInfix

/-! ## Names -/

theorem readNameTail_of_ne_period {t : Token} (ht : t ≠ .period) (ts : List Token) :
    readNameTail (t :: ts) = ([], t :: ts) := by
  rw [readNameTail]
  rintro text quoted us heq
  exact ht (List.cons.inj heq).1

theorem readNameTail_of_not_word {t : Token} (ht : t.isWord = false) (ts : List Token) :
    readNameTail (.period :: t :: ts) = ([], .period :: t :: ts) := by
  rw [readNameTail]
  rintro text quoted us heq
  obtain ⟨rfl, -⟩ := List.cons.inj (List.cons.inj heq).2
  cases ht

/-- The reader takes all further parts of a name, where no other part follows. -/
theorem readNameTail_flatMap (parts : List (String × Bool)) (h : readNameTail ts = ([], ts)) :
    readNameTail ((parts.flatMap fun part => [.period, .word part.1 part.2]) ++ ts) =
      (parts.map (·.1), ts) := by
  induction parts with
  | nil => exact h
  | cons part parts ih =>
    rw [List.flatMap_cons, List.append_assoc]
    exact congrArg (fun name => (part.1 :: name.1, name.2)) ih

/-- A token that is no part of a name ends one. -/
theorem readNameTail_append
    {t : Token} (hperiod : t ≠ .period) (hword : t.isWord = false) (ts us : List Token) :
    readNameTail (ts ++ t :: us) = ((readNameTail ts).1, (readNameTail ts).2 ++ t :: us) := by
  fun_induction readNameTail ts with
  | case1 text quoted ts parts rest hrest ih => simp [readNameTail, ih, hrest]
  | case2 ts hname =>
    match ts with
    | [] => cases t <;> first | rfl | exact absurd rfl hperiod
    | [u] => cases u <;> cases t <;> first | rfl | cases hword
    | u :: v :: ts =>
      cases u with
      | period => cases v <;> simp_all [readNameTail]
      | _ => simp [readNameTail]

theorem readName?_append
    {t : Token} (hperiod : t ≠ .period) (hword : t.isWord = false) (ts us : List Token) :
    readName? (ts ++ t :: us) = (readName? ts).map fun name => (name.1, name.2 ++ t :: us) := by
  cases ts with
  | nil => cases t <;> first | rfl | cases hword
  | cons u ts =>
    cases u with
    | word text quoted => simp [readName?, readNameTail_append hperiod hword]
    | _ => rfl

end SqlSnapshot.Token
