import SqlSnapshot.Definition.Source
import SqlSnapshot.Proofs.Token.Parts

/-!
# Names in a `FROM` clause

A source that stands for a base table is named in the `FROM` clause, by a dotted name of its own:
the reader comes to a name at its first part only.  The exception is a first part that is called
like a word of a join: the reader passes it, and takes what follows for the name.
-/

namespace SqlSnapshot

open Token

namespace Source

/-! ## Places of names -/

/-- A source can end here: with a group, with a word that is none of a join, or with a word that a
period makes the last part of a name. -/
inductive EndsSource : List Token → Prop where
  | group (front : List Token) : EndsSource (front ++ [.rparen])
  | word (front : List Token) {t : Token} (hword : t.isWord = true)
      (hjoin : t.isAnyKw ("ON" :: joinWords) = false) : EndsSource (front ++ [t])
  | part (front : List Token) {t : Token} (hword : t.isWord = true) :
      EndsSource (front ++ [.period, t])

/-- A name that starts behind the tokens has no part in them.  A period makes the word before it a
part of the name, unless that word belongs to a join or stands behind a source, as its alias. -/
def IsApart (before : List Token) : Prop :=
  ∀ front word, before = front ++ [word, .period] → word.isWord = true →
    word.isAnyKw joinWords = true ∨ EndsSource front

/-- The clause holds the name with all its parts, and no parenthesis follows the name. -/
def HoldsName (clause : List Token) (parts : List String) : Prop :=
  ∃ before name after, clause = before ++ name ∧ IsApart before ∧
    readName? name = some (parts, after) ∧ startsWithParen after = false

variable {t : Token} {ts rest front before taken : List Token}

theorem isApart_of_ne_period (h : t ≠ .period) (front : List Token) : IsApart (front ++ [t]) := by
  intro front' word heq
  have hlast := congrArg List.getLast? heq
  simp only [List.getLast?_append, List.getLast?_singleton, List.getLast?_cons_cons,
    Option.some_or, Option.some.injEq] at hlast
  exact absurd hlast h

theorem isApart_period
    (h : t.isWord = true → t.isAnyKw joinWords = true ∨ EndsSource front) :
    IsApart (front ++ [t, .period]) := by
  intro front' word heq
  obtain ⟨rfl, hlast⟩ := List.append_inj' heq rfl
  obtain rfl : t = word := (List.cons.inj hlast).1
  exact h

/-! ## Places of the reader -/

/-- A source is read at the front of the tokens, and a word comes first. -/
structure StartsSource (ts : List Token) : Prop where
  word : ∃ text quoted rest, ts = .word text quoted :: rest
  notJoin : startsWithAnyKw joinWords ts = false
  read : (readSource? ts).isSome = true

/-- A name that is read next, at once or behind a period, has no part in the tokens before. -/
structure KeepsNames (before ts : List Token) : Prop where
  here : StartsSource ts → IsApart before
  next : ∀ us, ts = .period :: us → StartsSource us → IsApart (before ++ [.period])

/-- Whether a source is read at a name is decided behind the name, and so the same at each part. -/
theorem isSome_readSource?_part
    (text first : String) (quoted firstQuoted : Bool) (ts : List Token) :
    (readSource? (.word text quoted :: .period :: .word first firstQuoted :: ts)).isSome =
      (readSource? (.word first firstQuoted :: ts)).isSome := by
  simp only [readSource?, readShape?, readName?, readNameTail, Option.bind_eq_bind,
    Option.bind_some]
  split <;> simp [Option.isSome_bind]

theorem KeepsNames.skip
    (h : KeepsNames before (t :: ts)) (hnone : readSource? (t :: ts) = none) :
    KeepsNames (before ++ [t]) ts := by
  constructor
  · intro hstart
    by_cases hperiod : t = .period
    · subst hperiod
      exact h.next ts rfl hstart
    · exact isApart_of_ne_period hperiod before
  · rintro us rfl hstart
    rw [List.append_assoc]
    apply isApart_period
    intro hword
    cases t with
    | word text quoted =>
      obtain ⟨first, firstQuoted, rest, rfl⟩ := hstart.word
      have hread := hstart.read
      rw [← isSome_readSource?_part text first quoted, hnone] at hread
      cases hread
    | _ => cases hword

/-! ## Parts of a source -/

/-- The tokens are read before the rest, and no name is torn apart between the two. -/
structure Takes (ts rest taken : List Token) : Prop where
  append : ts = taken ++ rest
  keeps : ∀ before, KeepsNames (before ++ taken) rest

theorem exists_readJoin_append (kind : JoinKind) (ts : List Token) :
    ∃ words, ts = words ++ (readJoin kind ts).2 ∧ ∀ w ∈ words, w.isAnyKw joinWords = true := by
  have hcons : ∀ {kind : JoinKind} {t : Token} {ts : List Token}, t.isAnyKw joinWords = true →
      (∃ words, ts = words ++ (readJoin kind ts).2 ∧ ∀ w ∈ words, w.isAnyKw joinWords = true) →
      ∃ words, t :: ts = words ++ (readJoin kind ts).2 ∧
        ∀ w ∈ words, w.isAnyKw joinWords = true := by
    rintro kind t ts ht ⟨words, hts, hwords⟩
    exact ⟨t :: words, congrArg (t :: ·) hts, List.forall_mem_cons.mpr ⟨ht, hwords⟩⟩
  fun_induction readJoin kind ts with
  | case1 kind => exact ⟨[], rfl, by simp⟩
  | case2 kind t ts h ih => exact hcons (isAnyKw_of_subset h (by decide)) ih
  | case3 kind t ts _ h ih => exact hcons (isAnyKw_of_subset h (by decide)) ih
  | case4 kind t ts _ _ h ih => exact hcons (isAnyKw_of_subset h (by decide)) ih
  | case5 kind t ts _ _ _ h ih => exact hcons (isAnyKw_of_subset h (by decide)) ih
  | case6 kind t ts _ _ _ _ h =>
    exact ⟨[t], rfl, by simpa using isAnyKw_of_subset h (by decide)⟩
  | case7 kind t ts _ _ _ _ _ h ih => exact hcons (isAnyKw_of_subset h (by decide)) ih
  | case8 kind t ts _ _ _ _ _ _ => exact ⟨[], rfl, by simp⟩

/-- The parts name the base table, with the default schema if they give none; a name that also is
that of a common table expression has a schema. -/
structure NamesTable (ctes parts : List String) (schema table : String) : Prop where
  lastParts : parts = [table] ∧ schema = defaultSchema ∨ ∃ front, parts = front ++ [schema, table]
  notVariable : startsWithChar '@' table = false
  notTemporary : startsWithChar '#' table = false
  qualified : ctes.any (Text.sameAscii · table) = true → 2 ≤ parts.length

variable {ctes : List String} {clause back : List Token} {seen sources : List Source}

/-- What stands behind a list of sources ends a name: nothing, or the end of a join tree. -/
def EndsName (back : List Token) : Prop :=
  back = [] ∨ ∃ rest, back = .rparen :: rest

end Source

end SqlSnapshot
