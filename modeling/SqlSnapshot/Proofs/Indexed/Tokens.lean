import SqlSnapshot.Proofs.Indexed.Checked
import SqlSnapshot.Proofs.Outcome
import SqlSnapshot.Proofs.Token.Parts

/-!
# Parentheses, names and types by positions

The scans that count parentheses go from token to token and return positions; the part that a caller
cuts at them is checked.  Each is shown to find what the scan over what is left finds.
-/

namespace SqlSnapshot.Indexed

open Token

variable {ts us rest inner taken : List Token}

/-! ## The partner of a parenthesis -/

/-- The position of the parenthesis that closes the first one, where `depth` are open before the
token at position `i`. -/
def matchingFrom (depth i : Nat) : List Token → Option Nat
  | [] => none
  | .lparen :: ts => matchingFrom (depth + 1) (i + 1) ts
  | .rparen :: ts =>
    match depth with
    | 0 => none
    | 1 => some i
    | depth + 2 => matchingFrom (depth + 1) (i + 1) ts
  | _ :: ts => matchingFrom depth (i + 1) ts

def matchingParen (ts : List Token) (start : Nat) : Option Nat :=
  matchingFrom 0 start (ts.drop start)

theorem matchingFrom_eq (depth i : Nat) (us : List Token) :
    matchingFrom (depth + 1) i us = (closeParen? depth us).map fun parts => i + parts.1.length := by
  induction us generalizing depth i with
  | nil => rfl
  | cons t us ih =>
    have hpass : ∀ depth',
        (Option.map (fun parts => i + 1 + parts.1.length) (closeParen? depth' us)) =
        ((closeParen? depth' us).map fun parts => (t :: parts.1, parts.2)).map
          fun parts => i + parts.1.length := by
      intro depth'
      rw [Option.map_map]
      congr 1
      funext parts
      simp only [Function.comp_apply, List.length_cons]
      omega
    cases t with
    | lparen => exact (ih (depth + 1) (i + 1)).trans (hpass (depth + 1))
    | rparen =>
      cases depth with
      | zero => rfl
      | succ depth => exact (ih depth (i + 1)).trans (hpass depth)
    | _ => exact (ih depth (i + 1)).trans (hpass depth)

theorem matchingParen_eq (ts : List Token) (i : Nat) (h : ts[i]? = some .lparen) :
    matchingParen ts i =
      (closeParen? 0 (ts.drop (i + 1))).map fun parts => i + 1 + parts.1.length := by
  obtain ⟨hi, ht⟩ := List.getElem?_eq_some_iff.mp h
  rw [matchingParen, List.drop_eq_getElem_cons hi, ht, matchingFrom, matchingFrom_eq]

theorem isSuffix_tail {t : Token} (h : t :: us <:+ ts) : us <:+ ts :=
  (List.suffix_cons t us).trans h

theorem isSuffix_of_closeParen? (hclose : closeParen? 0 us = some (inner, rest)) :
    rest <:+ us := by
  rw [closeParen?_append hclose]
  exact ⟨inner ++ [.rparen], by simp⟩

/-- The partner of a parenthesis, and what stands between the two. -/
theorem matchingParen_of_closeParen?
    (h : .lparen :: us <:+ ts) (hclose : closeParen? 0 us = some (inner, rest)) :
    ∃ close, matchingParen ts (position ts (.lparen :: us)) = some close ∧
      close + 1 = position ts rest ∧
      slice ts (position ts (.lparen :: us) + 1) close = .ok inner := by
  have hus := closeParen?_append hclose
  have hsuffix : inner ++ .rparen :: rest <:+ ts := hus ▸ isSuffix_tail h
  have hposition : position ts us = position ts (.lparen :: us) + 1 := position_cons h
  refine ⟨position ts (.rparen :: rest), ?_, (position_cons ?_).symm, ?_⟩
  · have hparen : ts[position ts (.lparen :: us)]? = some .lparen := getElem?_position_zero h
    rw [matchingParen_eq ts _ hparen, drop_position_add h, List.drop_one, List.tail_cons, hclose,
      Option.map_some, ← hposition, hus, ← position_append inner hsuffix]
  · exact (List.suffix_append inner _).trans hsuffix
  · rw [← hposition]
    exact slice_position hus.symm (isSuffix_tail h)

theorem exists_of_startsWithParen (h : startsWithParen us = true) :
    ∃ rest, us = .lparen :: rest := by
  unfold startsWithParen at h
  split at h
  · exact ⟨_, rfl⟩
  · cases h

theorem matchingParen_of_unclosed
    (h : .lparen :: us <:+ ts) (hclose : closeParen? 0 us = none) :
    matchingParen ts (position ts (.lparen :: us)) = none := by
  rw [matchingParen_eq ts _ (getElem?_position_zero h), drop_position_add h, List.drop_one,
    List.tail_cons, hclose]
  rfl

theorem le_of_matchingFrom
    {depth i j : Nat} {us : List Token} (h : matchingFrom depth i us = some j) :
    i ≤ j := by
  fun_induction matchingFrom depth i us with
  | case1 => cases h
  | case3 => cases h
  | case4 => exact Nat.le_of_eq (Option.some.inj h)
  | case2 _ _ _ ih | case5 _ _ _ ih | case6 _ _ _ _ _ _ ih => exact Nat.le_of_succ_le (ih h)

/-- The position behind the parentheses of which the first one stands at a position. -/
def afterGroup (ts : List Token) (i : Nat) : Option Nat :=
  (matchingParen ts i).map (· + 1)

theorem lt_of_afterGroup {i j : Nat} (h : afterGroup ts i = some j) : i < j := by
  obtain ⟨close, hclose, rfl⟩ := Option.map_eq_some_iff.mp h
  exact Nat.lt_succ_of_le (le_of_matchingFrom hclose)

theorem afterGroup_position (h : us <:+ ts) (hparen : startsWithParen us = true) :
    afterGroup ts (position ts us) = (skipGroup? us).map (position ts) := by
  obtain ⟨us, rfl⟩ := exists_of_startsWithParen hparen
  rw [afterGroup, skipGroup?]
  cases hclose : closeParen? 0 us with
  | none =>
    rw [matchingParen_of_unclosed h hclose]
    rfl
  | some parts =>
    obtain ⟨inner, rest⟩ := parts
    obtain ⟨close, hmatching, hbehind, -⟩ := matchingParen_of_closeParen? h hclose
    rw [hmatching]
    exact congrArg some hbehind

/-- The reading of what is left, with the position at which it ends. -/
def endingAt {α : Type} (ts : List Token) (parsed : Option (α × List Token)) : Option (α × Nat) :=
  parsed.map fun (a, rest) => (a, position ts rest)

/-- The part inside the parentheses of which the first one stands at a position, and the position
behind them. -/
def readGroup (ts : List Token) (i : Nat) : Checked (Option (List Token × Nat)) :=
  match matchingParen ts i with
  | none => .ok none
  | some close => do return some (← slice ts (i + 1) close, close + 1)

theorem readGroup_position (h : .lparen :: us <:+ ts) :
    readGroup ts (position ts (.lparen :: us)) = .ok (endingAt ts (closeParen? 0 us)) := by
  rw [readGroup]
  cases hclose : closeParen? 0 us with
  | none =>
    rw [matchingParen_of_unclosed h hclose]
    rfl
  | some parts =>
    obtain ⟨inner, rest⟩ := parts
    obtain ⟨close, hmatching, hbehind, hslice⟩ := matchingParen_of_closeParen? h hclose
    simp only [hmatching, hslice, hbehind]
    rfl

/-! ## Keywords outside parentheses -/

/-- The position of the first of the keywords outside parentheses, where `depth` are open before the
token at position `i`. -/
def findKwFrom (keywords : List String) (depth i : Nat) : List Token → Option Nat
  | [] => none
  | t :: ts =>
    if depth = 0 ∧ t.isAnyKw keywords = true then some i
    else findKwFrom keywords (depthAfter depth t) (i + 1) ts

def findKw (ts : List Token) (start : Nat) (keywords : List String) : Option Nat :=
  findKwFrom keywords 0 start (ts.drop start)

theorem findKwFrom_position
    (h : us <:+ ts) (keywords : List String) (depth : Nat) :
    findKwFrom keywords depth (position ts us) us =
      if (cutAtKw keywords depth us).2 = [] then none
      else some (position ts (cutAtKw keywords depth us).2) := by
  induction us generalizing depth with
  | nil => rfl
  | cons t us ih =>
    rw [findKwFrom, cutAtKw]
    split
    · rfl
    · rw [← position_cons h, ih (isSuffix_tail h)]

theorem findKw_position (h : us <:+ ts) (keywords : List String) :
    findKw ts (position ts us) keywords =
      if fromKw keywords us = [] then none else some (position ts (fromKw keywords us)) := by
  rw [findKw, drop_position h]
  exact findKwFrom_position h keywords 0

theorem upToKw_append_fromKw (keywords : List String) (us : List Token) :
    upToKw keywords us ++ fromKw keywords us = us :=
  cutAtKw_append keywords 0 us

/-- Where a keyword is looked for, or the end if there is none. -/
theorem findKw_getD (h : us <:+ ts) (keywords : List String) :
    (findKw ts (position ts us) keywords).getD ts.length = position ts (fromKw keywords us) := by
  rw [findKw_position h]
  split
  · rename_i hnone
    rw [hnone]
    rfl
  · rfl

/-! ## Parts between commas -/

/-- The parts from the position `first` on, of which the tokens up to the position `i` belong to the
first one. -/
def splitFrom (whole : List Token) (depth first i : Nat) : List Token → Checked (List (List Token))
  | [] => do
    if first < whole.length then return [← slice whole first whole.length] else return []
  | t :: ts => do
    if t = .comma ∧ depth = 0 then
      let part ← slice whole first i
      return part :: (← splitFrom whole 0 (i + 1) (i + 1) ts)
    else splitFrom whole (depthAfter depth t) first (i + 1) ts

def splitTopLevel (ts : List Token) : Checked (List (List Token)) :=
  splitFrom ts 0 0 0 ts

theorem splitFrom_position
    (depth : Nat) (us taken : List Token) (h : taken ++ us <:+ ts) :
    splitFrom ts depth (position ts (taken ++ us)) (position ts us) us =
      .ok (taken.foldr consFirst (splitCommas depth us)) := by
  induction us generalizing depth taken with
  | nil =>
    rw [List.append_nil] at h ⊢
    rw [splitFrom, splitCommas]
    cases taken with
    | nil =>
      rw [position_nil, if_neg (Nat.lt_irrefl _)]
      rfl
    | cons t taken =>
      rw [if_pos (position_lt_length h), slice_position_length h,
        foldr_consFirst_nil (List.cons_ne_nil t taken)]
      rfl
  | cons t us ih =>
    have hsuffix : t :: us <:+ ts := (List.suffix_append taken _).trans h
    rw [splitFrom, splitCommas, ← position_cons hsuffix]
    split
    · have hlater := ih 0 [] (isSuffix_tail hsuffix)
      rw [List.nil_append, List.foldr_nil] at hlater
      rw [slice_position rfl h, ok_bind, hlater, ok_bind, foldr_consFirst, List.append_nil]
      rfl
    · have hstep : (taken ++ [t]) ++ us = taken ++ t :: us := by simp
      rw [← hstep, ih _ (taken ++ [t]) (hstep ▸ h), List.foldr_append]
      rfl

theorem splitTopLevel_eq (ts : List Token) : splitTopLevel ts = .ok (splitCommas 0 ts) := by
  have hsplit := splitFrom_position 0 ts [] (List.suffix_refl ts)
  rwa [List.nil_append, position_self] at hsplit

/-! ## Names -/

def nameRound (ts : List Token) (i : Nat) (parts : List String) :
    Checked (Round (List String) (List String × Nat)) :=
  match ts[i]?, ts[i + 1]? with
  | some .period, some (.word text _) => .ok (.goOn (i + 2) (parts ++ [text]))
  | _, _ => .ok (.done (parts, i))

/-- The parts of the dotted name at a position, and the position behind it. -/
def readName (ts : List Token) (i : Nat) : Checked (Option (List String × Nat)) :=
  match ts[i]? with
  | some (.word text _) => (loop ts (nameRound ts) (i + 1) [text]).map some
  | _ => .ok none

theorem loop_nameRound (h : us <:+ ts) (parts : List String) :
    loop ts (nameRound ts) (position ts us) parts =
      .ok (parts ++ (readNameTail us).1, position ts (readNameTail us).2) := by
  fun_induction readNameTail us generalizing parts with
  | case1 text quoted us tail rest hrest ih =>
    have htail : us <:+ ts := isSuffix_tail (isSuffix_tail h)
    have hround : nameRound ts (position ts (.period :: .word text quoted :: us)) parts =
        .ok (.goOn (position ts us) (parts ++ [text])) := by
      rw [nameRound, getElem?_position_zero h, getElem?_position h 1,
        position_append [.period, .word text quoted] h]
      rfl
    rw [loop_goOn hround (position_lt h (by simp only [List.length_cons]; omega))
      (position_lt_length h), ih htail, hrest,
      List.append_assoc]
    rfl
  | case2 us hname =>
    refine loop_done ?_
    rw [nameRound, getElem?_position_zero h, getElem?_position h 1, List.append_nil]
    split
    · rename_i text quoted hperiod hword
      cases us with
      | nil => cases hperiod
      | cons t us =>
        cases us with
        | nil => cases hword
        | cons u us =>
          cases hperiod
          cases hword
          exact absurd rfl (hname text quoted us)
    · rfl

theorem readName_position (h : us <:+ ts) :
    readName ts (position ts us) = .ok (endingAt ts (readName? us)) := by
  rw [readName, getElem?_position_zero h]
  match us with
  | [] => rfl
  | t :: us =>
    cases t with
    | word text quoted =>
      rw [List.head?_cons, ← position_cons h]
      exact congrArg (Except.map some) (loop_nameRound (isSuffix_tail h) [text])
    | _ => rfl

theorem readName_zero (ts : List Token) : readName ts 0 = .ok (endingAt ts (readName? ts)) := by
  have hname := readName_position (List.suffix_refl ts)
  rwa [position_self] at hname

/-! ## Types -/

def typeBase : List String → String
  | [name] => Text.lower name
  | parts => ".".intercalate parts

/-- The type at a position, and the position behind it. -/
def readType (ts : List Token) (i : Nat) : Checked (Option (String × Nat)) :=
  andThen (readName ts i) fun (parts, i) =>
    if hasParen ts i then
      andThen (readGroup ts i) fun (arguments, i) =>
        .ok (some (typeBase parts ++ "(" ++ String.join (arguments.map typeArgument) ++ ")", i))
    else .ok (some (typeBase parts, i))

theorem readType?_of_name
    {parts : List String} (hname : readName? us = some (parts, rest))
    (hparen : startsWithParen rest = false) :
    readType? us = some (typeBase parts, rest) := by
  have hother : ∀ rest', rest ≠ .lparen :: rest' := by
    rintro rest' rfl
    cases hparen
  rw [readType?, hname, Option.bind_eq_bind, Option.bind_some]
  rcases parts with _ | ⟨name, _ | ⟨next, parts⟩⟩ <;> (dsimp only; split)
  all_goals first
    | exact absurd rfl (hother _)
    | rfl

theorem readType?_of_group
    {parts : List String} (hname : readName? us = some (parts, .lparen :: rest)) :
    readType? us = (closeParen? 0 rest).map fun (arguments, rest) =>
      (typeBase parts ++ "(" ++ String.join (arguments.map typeArgument) ++ ")", rest) := by
  rw [readType?, hname]
  cases hclose : closeParen? 0 rest with
  | none => simp [hclose]
  | some group =>
    rcases parts with _ | ⟨name, _ | ⟨next, parts⟩⟩ <;> simp [hclose, typeBase]

theorem readType_position (h : us <:+ ts) :
    readType ts (position ts us) = .ok (endingAt ts (readType? us)) := by
  rw [readType, readName_position h]
  cases hname : readName? us with
  | none =>
    rw [readType?, hname]
    rfl
  | some name =>
    obtain ⟨parts, rest⟩ := name
    have hrest : rest <:+ ts := (isSuffix_readName? hname).trans h
    simp only [endingAt, Option.map_some, andThen_some, hasParen_eq, drop_position hrest]
    split
    · rename_i hparen
      obtain ⟨rest, rfl⟩ := exists_of_startsWithParen hparen
      rw [readGroup_position hrest, readType?_of_group hname]
      cases closeParen? 0 rest <;> rfl
    · rename_i hparen
      rw [readType?_of_name hname (eq_false_of_ne_true hparen)]
      rfl

end SqlSnapshot.Indexed
