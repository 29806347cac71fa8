import SqlSnapshot.Proofs.Definition.JoinTree
import SqlSnapshot.Proofs.Token.Parts

/-!
# Join conditions

The sources of a `FROM` clause do not depend on the conditions of its joins.  Two clauses that
differ in one condition are read by the same steps, since each step either stands before the
condition, or passes it as a whole.

This holds of conditions without a comma or a word of a join outside parentheses.  Such a word ends
the condition, also where it is the name of a function or of a column.
-/

namespace SqlSnapshot.Source

open Token

variable {t : Token} {ts us rest : List Token} {keywords ctes : List String}
  {afterPeriod : Bool}

/-! ## Swapped conditions -/

/-- The lists differ in one join condition at most.  None starts behind a period, where `ON` would
be the part of a name. -/
inductive Swapped : (afterPeriod : Bool) → List Token → List Token → Prop where
  | same {afterPeriod : Bool} (ts : List Token) : Swapped afterPeriod ts ts
  | condition (c c' : JoinCondition) (rest : List Token) :
      Swapped false (c.tokens ++ rest) (c'.tokens ++ rest)
  | cons {afterPeriod : Bool} (t : Token) {ts us : List Token} :
      Swapped (decide (t = .period)) ts us → Swapped afterPeriod (t :: ts) (t :: us)

theorem swapped_append
    (c c' : JoinCondition) {pre : List Token} (hlast : pre.getLast? ≠ some .period)
    (hstart : pre = [] → afterPeriod = false) (rest : List Token) :
    Swapped afterPeriod (pre ++ (c.tokens ++ rest)) (pre ++ (c'.tokens ++ rest)) := by
  induction pre generalizing afterPeriod with
  | nil =>
    obtain rfl := hstart rfl
    exact .condition c c' rest
  | cons t pre ih =>
    refine .cons t (ih ?_ ?_)
    · cases pre with
      | nil => simp
      | cons u pre => simpa using hlast
    · rintro rfl
      simpa using hlast

theorem Swapped.weaken (h : Swapped afterPeriod ts us) : Swapped false ts us := by
  cases h with
  | same => exact .same _
  | condition c c' rest => exact .condition c c' rest
  | cons t h => exact .cons t h

theorem Swapped.startsWithAnyKw_eq (h : Swapped afterPeriod ts us) (hon : "ON" ∉ keywords) :
    startsWithAnyKw keywords ts = startsWithAnyKw keywords us := by
  cases h with
  | same => rfl
  | condition c c' rest =>
    have hnot : ∀ c : JoinCondition, c.keyword.1.isAnyKw keywords = false := fun c =>
      isAnyKw_eq_false_of_disjoint c.keyword.2 fun _ hk => List.mem_singleton.mp hk ▸ hon
    exact (hnot c).trans (hnot c').symm
  | cons t h => rfl

theorem Swapped.startsWithKw_eq
    {keyword : String} (h : Swapped afterPeriod ts us) (hon : "ON" ≠ keyword) :
    startsWithKw keyword ts = startsWithKw keyword us := by
  have hany : ∀ ts, startsWithKw keyword ts = startsWithAnyKw [keyword] ts := by
    intro ts
    cases ts <;> rfl
  rw [hany, hany]
  exact h.startsWithAnyKw_eq (mt List.mem_singleton.mp hon)

theorem Swapped.startsWithParen_eq (h : Swapped afterPeriod ts us) :
    startsWithParen ts = startsWithParen us := by
  cases h with
  | same => rfl
  | condition c c' rest =>
    have hnot : ∀ c : JoinCondition, startsWithParen (c.tokens ++ rest) = false := fun c =>
      WordNext.not_paren (wordNext_cons (isWord_of_isAnyKw c.keyword.2) _)
    exact (hnot c).trans (hnot c').symm
  | cons t h => cases t <;> rfl

/-- A word that is no `ON` stands in front of the condition. -/
theorem Swapped.drop_one
    {keyword : String} (h : Swapped afterPeriod ts us) (hkw : startsWithKw keyword ts = true)
    (hon : "ON" ≠ keyword) : Swapped false (ts.drop 1) (us.drop 1) := by
  cases h with
  | same => exact .same _
  | condition c c' rest =>
    have hnot : c.keyword.1.isKw keyword = false :=
      isKw_eq_false c.keyword.2 fun hmem => hon (List.mem_singleton.mp hmem).symm
    exact absurd hkw (Bool.eq_false_iff.mp hnot)
  | cons t h => exact h.weaken

/-! ## Steps before the condition -/

/-- The same was read off two lists, and what is left of them differs in one condition at most. -/
def ReadAlike {α : Type} (p q : α × List Token) : Prop :=
  p.1 = q.1 ∧ Swapped false p.2 q.2

theorem readAlike_refl {α : Type} (p : α × List Token) : ReadAlike p p :=
  ⟨rfl, .same p.2⟩

theorem readJoin_swapped (h : Swapped afterPeriod ts us) (kind : JoinKind) :
    ReadAlike (readJoin kind ts) (readJoin kind us) := by
  induction h generalizing kind with
  | same ts => exact readAlike_refl _
  | condition c c' rest =>
    have hstop : ∀ c : JoinCondition,
        readJoin kind (c.tokens ++ rest) = (kind, c.tokens ++ rest) := by
      intro c
      have hword : ∀ k, k ≠ "ON" → c.keyword.1.isKw k = false := fun k hk =>
        isKw_eq_false c.keyword.2 (mt List.mem_singleton.mp hk)
      have hlast : c.keyword.1.isAnyKw ["JOIN", "APPLY"] = false :=
        isAnyKw_eq_false_of_disjoint c.keyword.2 (by decide)
      have hskip : c.keyword.1.isAnyKw ["INNER", "CROSS", "HASH", "LOOP", "MERGE"] = false :=
        isAnyKw_eq_false_of_disjoint c.keyword.2 (by decide)
      simp [JoinCondition.tokens, readJoin, hword, hlast, hskip]
    rw [hstop c, hstop c']
    exact ⟨rfl, .condition c c' rest⟩
  | cons t h ih =>
    generalize hkind : (if kind = .inner then JoinKind.left else kind) = outerKind
    rw [readJoin, readJoin, hkind]
    split_ifs
    · exact ih .left
    · exact ih .right
    · exact ih .full
    · exact ih outerKind
    · exact ⟨rfl, h.weaken⟩
    · exact ih kind
    · exact ⟨rfl, .cons t h⟩

/-- The second part is about the lists with the period that stands before them. -/
theorem readNameTail_swapped (h : Swapped afterPeriod ts us) :
    ReadAlike (readNameTail ts) (readNameTail us) ∧
      (afterPeriod = true →
        ReadAlike (readNameTail (.period :: ts)) (readNameTail (.period :: us))) := by
  induction h with
  | same ts => exact ⟨readAlike_refl _, fun _ => readAlike_refl _⟩
  | condition c c' rest =>
    have hstop : ∀ c : JoinCondition,
        readNameTail (c.tokens ++ rest) = ([], c.tokens ++ rest) := fun c =>
      WordNext.readNameTail (wordNext_cons (isWord_of_isAnyKw c.keyword.2) _)
    rw [hstop c, hstop c']
    exact ⟨⟨rfl, .condition c c' rest⟩, fun hfalse => Bool.noConfusion hfalse⟩
  | cons t h ih =>
    constructor
    · by_cases ht : t = .period
      · subst ht
        exact ih.2 rfl
      · rw [readNameTail_of_ne_period ht, readNameTail_of_ne_period ht]
        exact ⟨rfl, .cons t h⟩
    · intro _
      cases hword : t.isWord with
      | false =>
        rw [readNameTail_of_not_word hword, readNameTail_of_not_word hword]
        exact ⟨rfl, .cons .period (.cons t h)⟩
      | true =>
        cases t with
        | word text quoted =>
          exact ⟨congrArg (text :: ·) ih.1.1, ih.1.2⟩
        | _ => cases hword

theorem readName?_swapped (h : Swapped (decide (t = .period)) ts us) :
    Option.Rel ReadAlike (readName? (t :: ts)) (readName? (t :: us)) := by
  cases t with
  | word text quoted =>
    have htail := (readNameTail_swapped h).1
    exact .some ⟨congrArg (text :: ·) htail.1, htail.2⟩
  | _ => exact .none

/-! ## Steps over the condition -/

section Options

variable {α β : Type} {R : α → α → Prop} {S : β → β → Prop} {o p : Option α}

theorem rel_refl (h : ∀ a, R a a) (o : Option α) : Option.Rel R o o := by
  cases o with
  | none => exact .none
  | some a => exact .some (h a)

theorem rel_map
    {f g : α → β} (h : Option.Rel R o p) (hmap : ∀ a b, R a b → S (f a) (g b)) :
    Option.Rel S (o.map f) (p.map g) := by
  cases h with
  | none => exact .none
  | some h => exact .some (hmap _ _ h)

theorem rel_bind
    {f g : α → Option β} (h : Option.Rel R o p) (hbind : ∀ a b, R a b → Option.Rel S (f a) (g b)) :
    Option.Rel S (o.bind f) (p.bind g) := by
  cases h with
  | none => exact .none
  | some h => exact hbind _ _ h

end Options

/-- The condition stands in the parentheses, or behind them. -/
theorem closeParen?_swapped (h : Swapped afterPeriod ts us) (depth : Nat) :
    Option.Rel (fun p q => Swapped afterPeriod p.1 q.1 ∧ Swapped false p.2 q.2)
      (closeParen? depth ts) (closeParen? depth us) := by
  induction h generalizing depth with
  | same ts => exact rel_refl (fun parts => ⟨.same parts.1, .same parts.2⟩) _
  | condition c c' rest =>
    have hpass : ∀ c : JoinCondition, closeParen? depth (c.tokens ++ rest) =
        (closeParen? depth rest).map fun parts => (c.tokens ++ parts.1, parts.2) := by
      intro c
      have hclose := closeParen?_append_of_balancedFrom (isBalanced_condition c) depth rest
      rwa [Nat.zero_add] at hclose
    rw [hpass c, hpass c']
    refine rel_map (rel_refl (R := Eq) (fun _ => rfl) _) ?_
    rintro parts _ rfl
    exact ⟨.condition c c' parts.1, .same parts.2⟩
  | cons t h ih =>
    by_cases hclose : depth = 0 ∧ t = .rparen
    · obtain ⟨rfl, rfl⟩ := hclose
      exact .some ⟨.same [], h.weaken⟩
    · have hinside : depth = 0 → t ≠ .rparen := fun hdepth ht => hclose ⟨hdepth, ht⟩
      rw [closeParen?_cons hinside, closeParen?_cons hinside]
      exact rel_map (ih _) fun _ _ hparts => ⟨.cons t hparts.1, hparts.2⟩

theorem skipGroup?_swapped (h : Swapped afterPeriod ts us) :
    Option.Rel (Swapped false) (skipGroup? ts) (skipGroup? us) := by
  cases h with
  | same => exact rel_refl .same _
  | condition c c' rest =>
    have hnone : ∀ c : JoinCondition, skipGroup? (c.tokens ++ rest) = none := fun c =>
      skipGroup?_of_not_paren
        (WordNext.not_paren (wordNext_cons (isWord_of_isAnyKw c.keyword.2) _))
    rw [hnone c, hnone c']
    exact .none
  | cons t h =>
    cases t with
    | lparen => exact rel_map (closeParen?_swapped h 0) fun _ _ hparts => hparts.2
    | _ => exact .none

theorem skipCondition_swapped (h : Swapped afterPeriod ts us) (depth : Nat) :
    Swapped false (skipCondition depth ts) (skipCondition depth us) := by
  induction h generalizing depth with
  | same ts => exact .same _
  | condition c c' rest =>
    rw [skipCondition_condition, skipCondition_condition]
    exact .same _
  | cons t h ih =>
    rw [skipCondition, skipCondition]
    split_ifs
    · exact .cons t h
    · exact ih _

/-! ## Sources -/

theorem skipHints?_swapped (h : Swapped false ts us) :
    Option.Rel (Swapped false) (skipHints? ts) (skipHints? us) := by
  have hwith : startsWithKw "WITH" ts = startsWithKw "WITH" us := h.startsWithKw_eq (by decide)
  rw [skipHints?, skipHints?, ← hwith]
  cases hstart : startsWithKw "WITH" ts with
  | false => exact .some h
  | true =>
    have hgroup := h.drop_one hstart (by decide)
    rw [← hgroup.startsWithParen_eq]
    split
    · exact skipGroup?_swapped hgroup
    · exact .some h

/-- Two sources are the same up to one join condition, in the parentheses of a join tree. -/
inductive ShapeAlike : Shape → Shape → Prop where
  | same (shape : Shape) : ShapeAlike shape shape
  | joinTree {inner inner' : List Token} :
      Swapped false inner inner' → ShapeAlike (.joinTree inner) (.joinTree inner')

def ShapeReadAlike (p q : Shape × List Token) : Prop :=
  ShapeAlike p.1 q.1 ∧ Swapped false p.2 q.2

theorem groupShape_swapped (h : Swapped false ts us) :
    ShapeAlike (groupShape ts) (groupShape us) := by
  rw [groupShape, groupShape, ← h.startsWithAnyKw_eq (by decide)]
  split
  · exact .same .subSelect
  · exact .joinTree h

theorem finishShape?_swapped
    {name name' : List String × List Token} (h : ReadAlike name name') :
    Option.Rel ShapeReadAlike (finishShape? name) (finishShape? name') := by
  obtain ⟨parts, ts⟩ := name
  obtain ⟨_, us⟩ := name'
  obtain ⟨rfl, hrest⟩ := h
  rw [finishShape?, finishShape?, ← hrest.startsWithParen_eq]
  split
  · refine rel_bind (skipGroup?_swapped hrest) fun _ _ hgroup => ?_
    exact rel_map (skipHints?_swapped hgroup) fun _ _ hhints => ⟨.same _, hhints⟩
  · exact .some ⟨.same _, hrest⟩

theorem readShape?_swapped (h : Swapped (decide (t = .period)) ts us) :
    Option.Rel ShapeReadAlike (readShape? (t :: ts)) (readShape? (t :: us)) := by
  by_cases ht : t = .lparen
  · subst ht
    rw [readShape?_group, readShape?_group]
    exact rel_map (closeParen?_swapped h 0) fun _ _ hparts =>
      ⟨groupShape_swapped hparts.1, hparts.2⟩
  · rw [readShape?_name ht, readShape?_name ht]
    exact rel_bind (readName?_swapped h) fun _ _ => finishShape?_swapped

theorem finishAlias?_swapped (h : Swapped afterPeriod ts us) :
    Option.Rel ReadAlike (finishAlias? ts) (finishAlias? us) := by
  cases h with
  | same => exact rel_refl readAlike_refl _
  | condition c c' rest =>
    have hnone : ∀ c : JoinCondition,
        finishAlias? (c.tokens ++ rest) = some (none, c.tokens ++ rest) := by
      intro c
      have hend : Ends nonAliasWords (c.tokens ++ rest) :=
        ends_cons (isAnyKw_of_subset c.keyword.2 (by decide)) _
      have hread := readAlias?_none hend
      rwa [readAlias?_eq, hend.not_kw (by decide)] at hread
    rw [hnone c, hnone c']
    exact .some ⟨rfl, .condition c c' rest⟩
  | cons t h =>
    rw [finishAlias?, finishAlias?, ← h.startsWithParen_eq]
    cases aliasWord? t with
    | none => exact .some ⟨rfl, .cons t h⟩
    | some text =>
      dsimp only
      split
      · exact rel_map (skipGroup?_swapped h) fun _ _ hgroup => ⟨rfl, hgroup⟩
      · exact .some ⟨rfl, h.weaken⟩

theorem readAlias?_swapped (h : Swapped false ts us) :
    Option.Rel ReadAlike (readAlias? ts) (readAlias? us) := by
  rw [readAlias?_eq, readAlias?_eq, ← h.startsWithKw_eq (by decide)]
  cases hstart : startsWithKw "AS" ts with
  | false => exact finishAlias?_swapped h
  | true => exact finishAlias?_swapped (h.drop_one hstart (by decide))

theorem readSource?_swapped (h : Swapped (decide (t = .period)) ts us) :
    Option.Rel (fun p q => ShapeAlike p.1 q.1 ∧ ReadAlike p.2 q.2)
      (readSource? (t :: ts)) (readSource? (t :: us)) := by
  rw [readSource?, readSource?]
  refine rel_bind (readShape?_swapped h) ?_
  rintro ⟨shape, rest⟩ ⟨shape', rest'⟩ ⟨hshape, hrest⟩
  refine rel_bind (readAlias?_swapped hrest) ?_
  rintro ⟨aliasName, rest⟩ ⟨_, rest'⟩ ⟨rfl, hrest⟩
  refine rel_bind (skipHints?_swapped hrest) ?_
  rintro rest rest' hrest
  exact .some ⟨hshape, rfl, hrest⟩

/-! ## Clauses -/

theorem ofShape_swapped
    {shape shape' : Shape} (h : ShapeAlike shape shape')
    (hinner : ∀ inner inner', shape = .joinTree inner → Swapped false inner inner' →
      collect ctes .inner [] inner = collect ctes .inner [] inner') :
    ofShape ctes shape = ofShape ctes shape' := by
  cases h with
  | same => rfl
  | joinTree hswapped => exact hinner _ _ rfl hswapped

/-- A step stands before the condition, and then leaves lists that differ in it again, or it passes
the condition. -/
theorem collect_swapped
    (h : Swapped afterPeriod ts us) (kind : JoinKind) (seen : List Source) :
    collect ctes kind seen ts = collect ctes kind seen us := by
  induction hlength : ts.length using Nat.strongRecOn
    generalizing ts us afterPeriod kind seen with
  | ind n ih =>
    cases h with
    | same => rfl
    | condition c c' rest => rw [collect_condition, collect_condition]
    | @cons _ t ts us h =>
      have hlater : ∀ {b : Bool} {ts' us' : List Token} (kind : JoinKind) (seen : List Source),
          ts'.length ≤ ts.length → Swapped b ts' us' →
          collect ctes kind seen ts' = collect ctes kind seen us' := fun kind seen hle h' =>
        ih _ (by rw [← hlength, List.length_cons]; omega) h' kind seen rfl
      by_cases hcomma : t = .comma
      · subst hcomma
        rw [collect_comma, collect_comma]
        exact hlater _ _ (Nat.le_refl _) h
      by_cases hjoin : t.isAnyKw joinWords = true
      · have hcons : Swapped false (t :: ts) (t :: us) := .cons t h
        obtain ⟨hkind, hrest⟩ := readJoin_swapped hcons .inner
        rw [collect_join hcomma hjoin, collect_join hcomma hjoin, ← hkind]
        exact hlater _ _ (length_readJoin_cons hjoin) hrest
      by_cases hon : t.isKw "ON" = true
      · rw [collect_on hcomma hjoin hon, collect_on hcomma hjoin hon]
        exact hlater _ _ (length_skipCondition 0 ts) (skipCondition_swapped h 0)
      have hread := readSource?_swapped h
      generalize hts : readSource? (t :: ts) = left, hus : readSource? (t :: us) = right at hread
      cases hread with
      | none =>
        rw [collect_other hcomma hjoin hon hts, collect_other hcomma hjoin hon hus]
        exact hlater _ _ (Nat.le_refl _) h
      | @some p q hparts =>
        obtain ⟨shape, aliasName, rest⟩ := p
        obtain ⟨shape', _, rest'⟩ := q
        obtain ⟨hshape, rfl, hrest⟩ := hparts
        obtain ⟨hshorter, hinner⟩ := length_readSource? hts
        have hsources : ofShape ctes shape = ofShape ctes shape' :=
          ofShape_swapped hshape fun inner inner' heq hswapped =>
            hlater _ _ (Nat.le_of_lt_succ (hinner inner heq)) hswapped
        rw [collect_source hcomma hjoin hon hts, collect_source hcomma hjoin hon hus, hsources]
        exact hlater _ _ (Nat.le_of_lt_succ hshorter) hrest

/-- The sources of a clause are the same with another condition in one of its joins. -/
theorem ofClause_condition
    {before : List Token} (hlast : before.getLast? ≠ some .period) (ctes : List String)
    (c c' : JoinCondition) (after : List Token) :
    ofClause ctes (before ++ (c.tokens ++ after)) =
      ofClause ctes (before ++ (c'.tokens ++ after)) :=
  collect_swapped (swapped_append c c' hlast (fun _ => rfl) after) .inner []

/-- `ON u.Id = o.UserId` -/
def JoinCondition.sample : JoinCondition where
  keyword := onWord
  condition := ⟨[.word "u" false, .period, .word "Id" false, .equals, .word "o" false, .period,
    .word "UserId" false], by decide +kernel⟩
  isPlain := by decide +kernel

/-- `ON (LEFT(u.Name, 3) = o.Code OR f(u.Id, 1) > 0)` -/
def JoinCondition.sampleCalls : JoinCondition where
  keyword := onWord
  condition := ⟨parens [.word "LEFT" false, .lparen, .word "u" false, .period, .word "Name" false,
    .comma, .num "3", .rparen, .equals, .word "o" false, .period, .word "Code" false,
    .word "OR" false, .word "f" false, .lparen, .word "u" false, .period, .word "Id" false, .comma,
    .num "1", .rparen, .other ">", .num "0"], by decide +kernel⟩
  isPlain := by decide +kernel

/-- A condition with a call of `LEFT` in its parentheses gives the sources that a plain one
gives. -/
theorem ofClause_condition_sample :
    let before : List Token := [.word "Users" false, .word "u" false, .word "JOIN" false,
      .word "Orders" false, .word "o" false]
    let after : List Token := [.word "RIGHT" false, .word "JOIN" false, .word "Items" false,
      .word "i" false]
    before.getLast? ≠ some .period ∧
    ofClause [] (before ++ (JoinCondition.sampleCalls.tokens ++ after)) =
      ofClause [] (before ++ (JoinCondition.sample.tokens ++ after)) ∧
    ofClause [] (before ++ (JoinCondition.sample.tokens ++ after)) =
      [⟨some "u", "Users", some ("dbo", "Users"), true⟩,
        ⟨some "o", "Orders", some ("dbo", "Orders"), true⟩,
        ⟨some "i", "Items", some ("dbo", "Items"), false⟩] :=
  ⟨by decide, ofClause_condition (by decide) [] .sampleCalls .sample _, by decide +kernel⟩

/-- Outside parentheses a call of `RIGHT` and a column named `Hash` start a join: the rest of the
condition is read as further sources, and a right join marks those before it. -/
theorem ofClause_condition_misread :
    (tokenize "A a JOIN B b ON a.Id = b.Id").toOption.map (ofClause []) =
      some [⟨some "a", "A", some ("dbo", "A"), false⟩, ⟨some "b", "B", some ("dbo", "B"), false⟩] ∧
    (tokenize "A a JOIN B b ON RIGHT(b.Code, 3) = a.Code").toOption.map (ofClause []) =
      some [⟨some "a", "A", some ("dbo", "A"), true⟩, ⟨some "b", "B", some ("dbo", "B"), true⟩,
        ⟨none, "Code", some ("b", "Code"), false⟩, ⟨none, "Code", some ("a", "Code"), false⟩] ∧
    (tokenize "A a JOIN B b ON a.Hash = b.Hash").toOption.map (ofClause []) =
      some [⟨some "a", "A", some ("dbo", "A"), false⟩, ⟨some "b", "B", some ("dbo", "B"), false⟩,
        ⟨none, "Hash", some ("b", "Hash"), false⟩] := by
  refine ⟨?_, ?_, ?_⟩ <;> decide +kernel

end SqlSnapshot.Source
