import Mathlib.Data.List.Basic
import SqlSnapshot.ParseError
import SqlSnapshot.Token.Basic

/-!
# Reading by positions

The readers of definitions hand on what is left of a list.  A reader can also keep the whole list
and hand on a position in it; it can then look outside the list, cut a part that does not lie in it,
count below zero, or go on without advancing.  Here all of these are checked: a checked computation
ends with a fault where one of them happens, and a loop does its next round only from a later
position.

`position` leads from one form to the other: what is left of a list stands at a position of it.
-/

namespace SqlSnapshot.Indexed

/-- Why a reader ends without a result. -/
inductive Halt where
  /-- A token or a part was taken that does not lie in the list. -/
  | outOfRange
  /-- A count or a position was lowered below zero. -/
  | belowZero
  /-- A round of a loop did not advance, or it began behind the list. -/
  | stuck
  /-- A part was read by recursion that is not shorter. -/
  | notShorter
  /-- The definition is refused, which is no fault of the reader. -/
  | refused (e : ParseError)
deriving DecidableEq

abbrev Checked (α : Type) : Type := Except Halt α

variable {α β σ : Type}

/-- The outcome of a reader that may refuse a definition, but commits no fault. -/
def ofOutcome (x : Except ParseError α) : Checked α :=
  x.mapError .refused

def refuse (e : ParseError) : Checked α :=
  .error (.refused e)

@[simp]
theorem ofOutcome_ok (a : α) : ofOutcome (.ok a) = .ok a := rfl

theorem mapM_ofOutcome
    {items : List α} {f : α → Checked β} {g : α → Except ParseError β}
    (h : ∀ a ∈ items, f a = ofOutcome (g a)) :
    items.mapM f = ofOutcome (items.mapM g) := by
  induction items with
  | nil => rfl
  | cons a items ih =>
    rw [List.forall_mem_cons] at h
    rw [List.mapM_cons, List.mapM_cons, h.1, ih h.2]
    cases g a with
    | error e => rfl
    | ok b => cases items.mapM g <;> rfl

theorem mapM_ok
    {items : List α} {f : α → Checked β} {g : α → β} (h : ∀ a ∈ items, f a = .ok (g a)) :
    items.mapM f = .ok (items.map g) := by
  induction items with
  | nil => rfl
  | cons a items ih =>
    rw [List.forall_mem_cons] at h
    rw [List.mapM_cons, h.1, ih h.2]
    rfl

/-! ## Checked accesses -/

def tokenAt (ts : List Token) (i : Nat) : Checked Token :=
  match ts[i]? with
  | some t => .ok t
  | none => .error .outOfRange

/-- The tokens from the position `first` up to the position `last`. -/
def slice (ts : List Token) (first last : Nat) : Checked (List Token) :=
  if first ≤ last ∧ last ≤ ts.length then .ok ((ts.take last).drop first) else .error .outOfRange

/-- Subtraction of what is not more. -/
def lower (n amount : Nat) : Checked Nat :=
  if amount ≤ n then .ok (n - amount) else .error .belowZero

/-- Goes on with a result, if there is one. -/
def andThen (x : Checked (Option α)) (next : α → Checked (Option β)) : Checked (Option β) :=
  match x with
  | .error e => .error e
  | .ok none => .ok none
  | .ok (some a) => next a

@[simp]
theorem andThen_some (a : α) (next : α → Checked (Option β)) :
    andThen (.ok (some a)) next = next a := rfl

def hasAnyKw (ts : List Token) (i : Nat) (keywords : List String) : Bool :=
  (ts[i]?).any (·.isAnyKw keywords)

def hasKw (ts : List Token) (i : Nat) (keyword : String) : Bool :=
  (ts[i]?).any (·.isKw keyword)

def hasParen (ts : List Token) (i : Nat) : Bool :=
  ts[i]? == some .lparen

/-! ## Loops -/

/-- What a round of a loop leads to. -/
inductive Round (σ β : Type) where
  | goOn (next : Nat) (state : σ)
  | done (result : β)

/-- Does the rounds of a loop from a position on; each has to begin in the list and to advance. -/
def loop (ts : List Token) (round : Nat → σ → Checked (Round σ β)) (i : Nat) (s : σ) : Checked β :=
  match round i s with
  | .error e => .error e
  | .ok (.done result) => .ok result
  | .ok (.goOn next s) =>
    if _h : i < next ∧ i < ts.length then loop ts round next s else .error .stuck
termination_by ts.length - i

section Loops

variable {ts : List Token} {round : Nat → σ → Checked (Round σ β)} {i next : Nat} {s s' : σ}
  {result : β}

theorem loop_goOn
    (hround : round i s = .ok (.goOn next s')) (hnext : i < next) (hi : i < ts.length) :
    loop ts round i s = loop ts round next s' := by
  rw [loop, hround]
  exact dif_pos ⟨hnext, hi⟩

theorem loop_done (hround : round i s = .ok (.done result)) : loop ts round i s = .ok result := by
  rw [loop, hround]

theorem loop_error {e : Halt} (hround : round i s = .error e) :
    loop ts round i s = .error e := by
  rw [loop, hround]

end Loops

/-! ## Positions of what is left -/

/-- The position at which what is left of the list begins. -/
def position (ts us : List Token) : Nat :=
  ts.length - us.length

variable {ts us vs taken rest : List Token} {t : Token}

@[simp]
theorem position_self (ts : List Token) : position ts ts = 0 :=
  Nat.sub_self _

@[simp]
theorem position_nil (ts : List Token) : position ts [] = ts.length := rfl

theorem position_le (ts us : List Token) : position ts us ≤ ts.length :=
  Nat.sub_le _ _

theorem drop_position (h : us <:+ ts) : ts.drop (position ts us) = us := by
  obtain ⟨front, rfl⟩ := h
  simp [position]

theorem position_append (taken : List Token) (h : taken ++ us <:+ ts) :
    position ts us = position ts (taken ++ us) + taken.length := by
  have hlength := h.length_le
  simp only [position, List.length_append] at hlength ⊢
  omega

theorem position_cons (h : t :: us <:+ ts) : position ts us = position ts (t :: us) + 1 :=
  position_append [t] h

theorem position_drop (h : us <:+ ts) {n : Nat} (hn : n ≤ us.length) :
    position ts (us.drop n) = position ts us + n := by
  have hlength := h.length_le
  simp only [position, List.length_drop]
  omega

theorem position_drop_self {i : Nat} (h : i ≤ ts.length) : position ts (ts.drop i) = i := by
  rw [position_drop (List.suffix_refl ts) h, position_self, Nat.zero_add]

theorem position_lt (hus : us <:+ ts) (h : vs.length < us.length) :
    position ts us < position ts vs := by
  have hlength := hus.length_le
  unfold position
  omega

theorem position_mono (h : vs.length ≤ us.length) : position ts us ≤ position ts vs :=
  Nat.sub_le_sub_left h _

theorem position_eq_length (h : us <:+ ts) : position ts us = ts.length ↔ us = [] := by
  have hlength := h.length_le
  rw [← List.length_eq_zero_iff]
  unfold position
  omega

theorem position_lt_length_of_pos (h : us <:+ ts) (hlength : 0 < us.length) :
    position ts us < ts.length :=
  Nat.sub_lt (Nat.lt_of_lt_of_le hlength h.length_le) hlength

theorem position_lt_length (h : t :: us <:+ ts) : position ts (t :: us) < ts.length :=
  position_lt_length_of_pos h (Nat.zero_lt_succ _)

theorem getElem?_position (h : us <:+ ts) (n : Nat) : ts[position ts us + n]? = us[n]? := by
  rw [← List.getElem?_drop, drop_position h]

theorem getElem?_position_zero (h : us <:+ ts) : ts[position ts us]? = us.head? := by
  rw [List.head?_eq_getElem?, ← getElem?_position h 0, Nat.add_zero]

theorem tokenAt_position (h : t :: us <:+ ts) : tokenAt ts (position ts (t :: us)) = .ok t := by
  rw [tokenAt, getElem?_position_zero h]
  rfl

theorem tokenAt_append (front : List Token) (t : Token) (back : List Token) :
    tokenAt (front ++ t :: back) front.length = .ok t := by
  simp [tokenAt]

theorem slice_drop {n : Nat} (h : n ≤ ts.length) : slice ts n ts.length = .ok (ts.drop n) := by
  rw [slice, if_pos ⟨h, Nat.le_refl _⟩, List.take_length]

theorem slice_take {n : Nat} (h : n ≤ ts.length) : slice ts 0 n = .ok (ts.take n) :=
  if_pos ⟨Nat.zero_le n, h⟩

theorem lower_of_le {n amount : Nat} (h : amount ≤ n) : lower n amount = .ok (n - amount) :=
  if_pos h

theorem lower_position (h : t :: us <:+ ts) :
    lower (position ts us) 1 = .ok (position ts (t :: us)) := by
  rw [position_cons h, lower, if_pos (Nat.le_add_left 1 _), Nat.add_sub_cancel]

/-- The part between two positions, where what is left at the second is left of the first. -/
theorem slice_position (hparts : taken ++ rest = us) (h : us <:+ ts) :
    slice ts (position ts us) (position ts rest) = .ok taken := by
  subst hparts
  have hle : position ts (taken ++ rest) ≤ position ts rest := by
    rw [position_append taken h]
    exact Nat.le_add_right _ _
  rw [slice, if_pos ⟨hle, position_le ts rest⟩, List.drop_take, drop_position h,
    position_append taken h, Nat.add_sub_cancel_left, List.take_left']
  rfl

theorem slice_of_take {n first last : Nat} {part : List Token}
    (h : slice (ts.take n) first last = .ok part) : slice ts first last = .ok part := by
  unfold slice at h ⊢
  split at h
  · rename_i hbounds
    rw [List.length_take] at hbounds
    rw [List.take_take, Nat.min_eq_left (by omega)] at h
    rw [if_pos (by omega)]
    exact h
  · cases h

/-- What is left of a list whose end is cut off stands where it stood. -/
theorem isSuffix_take_position (hparts : taken ++ rest = us) (h : us <:+ ts) :
    taken <:+ ts.take (position ts rest) ∧
      position (ts.take (position ts rest)) taken = position ts us := by
  subst hparts
  obtain ⟨front, rfl⟩ := h
  have hlength : position (front ++ (taken ++ rest)) rest = (front ++ taken).length := by
    simp only [position, List.length_append]
    omega
  rw [hlength, ← List.append_assoc, List.take_left']
  · refine ⟨List.suffix_append front taken, ?_⟩
    simp only [position, List.length_append]
    omega
  · rfl

theorem slice_position_length (h : us <:+ ts) : slice ts (position ts us) ts.length = .ok us :=
  slice_position (List.append_nil us) h

/-! ## Scans -/

/-- A loop that looks at the token at its position, as long as there is one. -/
def scanFrom (ts : List Token) (atEnd : Nat → σ → β)
    (round : Token → Nat → σ → Checked (Round σ β)) : Nat → σ → Checked β :=
  loop ts fun i s =>
    if i < ts.length then do round (← tokenAt ts i) i s else .ok (.done (atEnd i s))

section Scans

variable {atEnd : Nat → σ → β} {round : Token → Nat → σ → Checked (Round σ β)} {s s' : σ}

theorem scanFrom_end {i : Nat} (h : ts.length ≤ i) :
    scanFrom ts atEnd round i s = .ok (atEnd i s) :=
  loop_done (if_neg (Nat.not_lt.mpr h))

theorem scanFrom_nil : scanFrom ts atEnd round (position ts []) s = .ok (atEnd ts.length s) :=
  scanFrom_end (Nat.le_refl _)

theorem scanFrom_round (h : t :: us <:+ ts) :
    (if position ts (t :: us) < ts.length then do
        round (← tokenAt ts (position ts (t :: us))) (position ts (t :: us)) s
      else .ok (.done (atEnd (position ts (t :: us)) s))) =
      round t (position ts (t :: us)) s := by
  rw [if_pos (position_lt_length h), tokenAt_position h]
  rfl

theorem scanFrom_goOn
    {next : Nat} (h : t :: us <:+ ts)
    (hround : round t (position ts (t :: us)) s = .ok (.goOn next s'))
    (hnext : position ts us ≤ next) :
    scanFrom ts atEnd round (position ts (t :: us)) s = scanFrom ts atEnd round next s' := by
  refine loop_goOn ((scanFrom_round h).trans hround) ?_ (position_lt_length h)
  rw [position_cons h] at hnext
  exact hnext

theorem scanFrom_done
    {result : β} (h : t :: us <:+ ts)
    (hround : round t (position ts (t :: us)) s = .ok (.done result)) :
    scanFrom ts atEnd round (position ts (t :: us)) s = .ok result :=
  loop_done ((scanFrom_round h).trans hround)

theorem scanFrom_error
    {e : Halt} (h : t :: us <:+ ts)
    (hround : round t (position ts (t :: us)) s = .error e) :
    scanFrom ts atEnd round (position ts (t :: us)) s = .error e :=
  loop_error ((scanFrom_round h).trans hround)

end Scans

/-! ## Words at positions -/

theorem drop_position_add (h : us <:+ ts) (n : Nat) : ts.drop (position ts us + n) = us.drop n := by
  rw [← List.drop_drop, drop_position h]

theorem hasKw_eq (ts : List Token) (i : Nat) (keyword : String) :
    hasKw ts i keyword = startsWithKw keyword (ts.drop i) := by
  rw [hasKw, ← List.head?_drop]
  cases ts.drop i <;> rfl

theorem lt_length_of_drop_ne_nil {n : Nat} (h : us.drop n ≠ []) : n < us.length :=
  Nat.lt_of_not_le (mt List.drop_eq_nil_of_le h)

theorem lt_length_of_startsWithAnyKw
    {keywords : List String} {n : Nat} (h : startsWithAnyKw keywords (us.drop n) = true) :
    n < us.length := by
  apply lt_length_of_drop_ne_nil
  rintro hnil
  rw [hnil] at h
  cases h

theorem lt_length_of_startsWithKw
    {keyword : String} {n : Nat} (h : startsWithKw keyword (us.drop n) = true) :
    n < us.length := by
  apply lt_length_of_drop_ne_nil
  rintro hnil
  rw [hnil] at h
  cases h

theorem lt_length_of_startsWithParen {n : Nat} (h : startsWithParen (us.drop n) = true) :
    n < us.length := by
  apply lt_length_of_drop_ne_nil
  rintro hnil
  rw [hnil] at h
  cases h

theorem hasAnyKw_eq (ts : List Token) (i : Nat) (keywords : List String) :
    hasAnyKw ts i keywords = startsWithAnyKw keywords (ts.drop i) := by
  rw [hasAnyKw, ← List.head?_drop]
  cases ts.drop i <;> rfl

theorem hasParen_eq (ts : List Token) (i : Nat) :
    hasParen ts i = startsWithParen (ts.drop i) := by
  rw [hasParen, ← List.head?_drop]
  cases ts.drop i with
  | nil => rfl
  | cons t us => cases t <;> rfl

end SqlSnapshot.Indexed
