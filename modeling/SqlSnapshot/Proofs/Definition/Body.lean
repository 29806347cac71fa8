import SqlSnapshot.Definition.Body

/-!
# Reading bodies, case by case

One equation for each way in which the reader goes on at a token of a body.
-/

namespace SqlSnapshot

namespace Findings

@[simp]
theorem empty_append (found : Findings) : append {} found = found := by
  simp [append]

@[simp]
theorem append_empty (found : Findings) : found.append {} = found := by
  simp [append]

theorem append_assoc (a b c : Findings) : (a.append b).append c = a.append (b.append c) := by
  simp [append]

end Findings

namespace Body

open Token

variable {ctes : List String} {t : Token} {ts after : List Token}

/-- Findings after which come those of the rest, unless one of the two cannot be read. -/
def followedBy (first second : Except ParseError Findings) : Except ParseError Findings :=
  first.bind fun found => second.map found.append

@[simp]
theorem empty_followedBy (second : Except ParseError Findings) :
    followedBy (.ok {}) second = second := by
  cases second with
  | error e => rfl
  | ok found => simp [followedBy, Except.bind, Except.map]

@[simp]
theorem followedBy_empty (first : Except ParseError Findings) :
    followedBy first (.ok {}) = first := by
  cases first with
  | error e => rfl
  | ok found => simp [followedBy, Except.bind, Except.map]

theorem followedBy_assoc (a b c : Except ParseError Findings) :
    followedBy (followedBy a b) c = followedBy a (followedBy b c) := by
  cases a with
  | error e => rfl
  | ok first =>
    cases b with
    | error e => rfl
    | ok second =>
      cases c with
      | error e => rfl
      | ok third => exact congrArg Except.ok (Findings.append_assoc first second third)

theorem followedBy_eq_ok {first second : Except ParseError Findings} {found : Findings}
    (h : followedBy first second = .ok found) :
    ∃ own others, first = .ok own ∧ second = .ok others ∧ found = own.append others := by
  cases first with
  | error e => cases h
  | ok own =>
    cases second with
    | error e => cases h
    | ok others => exact ⟨own, others, rfl, rfl, (Except.ok.inj h).symm⟩

/-- The reading of a list of common table expressions without the proof that the rest is shorter. -/
theorem readCtes_word (name : String) (quoted : Bool) (rest : List Token) :
    readCtes (.word name quoted :: rest) =
      match skipToClose rest with
      | t :: query =>
        if t.isKw "AS" then
          if startsWithParen query then
            match skipToClose query with
            | .comma :: more => (name :: (readCtes more).1, (readCtes more).2)
            | rest => ([name], rest)
          else ([], query)
        else ([], t :: query)
      | [] => ([], []) := by
  rw [readCtes]
  split
  · rename_i hs
    simp only [hs]
    split
    · split
      · split
        · rename_i hq
          simp only [hq]
        · rename_i hcomma
          split
          · rename_i hq
            exact absurd hq (hcomma _)
          · rfl
      · rfl
    · rfl
  · rename_i hs
    simp only [hs]

theorem read_nil (ctes : List String) : read ctes [] = .ok {} := by
  rw [read]

theorem read_group (h : skipGroup? (.lparen :: ts) = some after) :
    read ctes (.lparen :: ts) = read ctes after := by
  rw [read, if_pos rfl]
  split
  · rename_i after' h'
    obtain rfl : after = after' := Option.some.inj (h.symm.trans h')
    rfl
  · rename_i h'
    rw [h] at h'
    cases h'

theorem read_unclosed (h : skipGroup? (.lparen :: ts) = none) :
    read ctes (.lparen :: ts) = .ok {} := by
  rw [read, if_pos rfl]
  split
  · rename_i h'
    rw [h] at h'
    cases h'
  · rfl

theorem read_ctes (ht : t ≠ .lparen) (h : startsCtes t ts = true) :
    read ctes (t :: ts) = read (readCtes ts).1 (readCtes ts).2 := by
  rw [read, if_neg ht, if_pos h]

theorem read_other
    (ht : t ≠ .lparen) (hctes : ¬ startsCtes t ts = true) (h : readStatement? ctes t ts = none) :
    read ctes (t :: ts) = read ctes ts := by
  rw [read, if_neg ht, if_neg hctes]
  split
  · rfl
  · rename_i h'
    rw [h] at h'
    cases h'

theorem read_statement
    {found : Except ParseError Findings} (ht : t ≠ .lparen) (hctes : ¬ startsCtes t ts = true)
    (h : readStatement? ctes t ts = some (found, after)) :
    read ctes (t :: ts) = followedBy found (read [] after) := by
  rw [read, if_neg ht, if_neg hctes]
  split
  · rename_i h'
    rw [h] at h'
    cases h'
  · rename_i found' after' h'
    rw [h] at h'
    cases h'
    cases found with
    | error e => rfl
    | ok own => rfl

end Body

end SqlSnapshot
