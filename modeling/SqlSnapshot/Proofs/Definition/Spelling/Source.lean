import SqlSnapshot.Proofs.Token.Spelling

/-!
# Spelling of table sources

The sources of a `FROM` clause in another spelling are the same sources up to the case of their
names, and a column reference finds the same one among them.
-/

namespace SqlSnapshot

open Text Token

variable {ctes : List String} {kind : Source.JoinKind} {seen : List Source} {t : Token}
  {ts rest : List Token}

namespace Source

/-- The source with its names in lower case. -/
def lowered (s : Source) : Source where
  aliasName := s.aliasName.map asciiLower
  name := asciiLower s.name
  target := s.target.map (Prod.map asciiLower asciiLower)
  nullable := s.nullable

end Source

/-- The scope with the names of its sources in lower case. -/
def Scope.lowered (scope : Scope) : Scope :=
  scope.map (List.map Source.lowered)

/-! ## Look-ups -/

theorem Source.answersTo_lowered (qualifier : String) (s : Source) :
    s.lowered.answersTo (asciiLower qualifier) = s.answersTo qualifier := by
  cases h : s.aliasName <;> simp [answersTo, lowered, h]

theorem Source.isTable_lowered (schema table : String) (s : Source) :
    s.lowered.isTable (asciiLower schema) (asciiLower table) = s.isTable schema table := by
  cases h : s.target <;> simp [isTable, lowered, h]

theorem Source.find?_lowered
    {test normalTest : Source → Bool} (h : ∀ s, normalTest s.lowered = test s)
    (sources : List Source) :
    (sources.map Source.lowered).find? normalTest = (sources.find? test).map lowered := by
  rw [List.find?_map]
  congr 2
  exact funext h

theorem Scope.resolve?_lowered (qualifier : List String) (scope : Scope) :
    resolve? (qualifier.map asciiLower) scope.lowered =
      (resolve? qualifier scope).map Source.lowered := by
  induction scope with
  | nil => rfl
  | cons sources outer ih =>
    have houter : lowered (sources :: outer) = sources.map Source.lowered :: lowered outer := rfl
    rw [houter]
    unfold resolve?
    rw [ih, ← List.map_reverse]
    match qualifier.reverse with
    | [] =>
      match sources with
      | [] => rfl
      | [only] => rfl
      | _ :: _ :: _ => rfl
    | [name] =>
      have hfind : (sources.map Source.lowered).find? (·.answersTo (asciiLower name)) =
          (sources.find? (·.answersTo name)).map Source.lowered :=
        Source.find?_lowered (Source.answersTo_lowered name) sources
      simp only [List.map_cons, List.map_nil, Option.map_or, hfind]
    | table :: schema :: _ =>
      have hfind : (sources.map Source.lowered).find?
          (·.isTable (asciiLower schema) (asciiLower table)) =
          (sources.find? (·.isTable schema table)).map Source.lowered :=
        Source.find?_lowered (Source.isTable_lowered schema table) sources
      simp only [List.map_cons, Option.map_or, hfind]

namespace Source

theorem startsWithChar_asciiLower
    {c : Char} (hcapital : ¬ isLatinCapital c) (hsmall : ¬ (0x61 ≤ c.toNat ∧ c.toNat ≤ 0x7A))
    (s : String) : startsWithChar c (asciiLower s) = startsWithChar c s :=
  head?_asciiLower hcapital hsmall s

theorem getLastD_map_asciiLower
    (default : String) (h : asciiLower default = default) (parts : List String) :
    (parts.map asciiLower).getLast?.getD default = asciiLower (parts.getLast?.getD default) := by
  rw [List.getLast?_map]
  cases parts.getLast? with
  | none => exact h.symm
  | some name => rfl

theorem ofName_lowered (ctes parts : List String) :
    ofName (ctes.map asciiLower) (parts.map asciiLower) = (ofName ctes parts).lowered := by
  have hname := getLastD_map_asciiLower "" rfl parts
  have hschema := getLastD_map_asciiLower defaultSchema (by decide) parts.dropLast
  simp only [ofName, hname, ← List.map_dropLast, hschema, List.length_map, List.any_map,
    Function.comp_def, sameAscii_asciiLower,
    startsWithChar_asciiLower (show ¬ isLatinCapital '@' by decide) (by decide),
    startsWithChar_asciiLower (show ¬ isLatinCapital '#' by decide) (by decide)]
  split <;> rfl

/-! ## Joins -/

theorem readJoin_normal (kind : JoinKind) (ts : List Token) :
    readJoin kind (ts.map normal) = ((readJoin kind ts).1, (readJoin kind ts).2.map normal) := by
  induction ts generalizing kind with
  | nil => rfl
  | cons t ts ih =>
    simp [readJoin, ih]
    split_ifs <;> rfl

theorem skipCondition_normal (depth : Nat) (ts : List Token) :
    skipCondition depth (ts.map normal) = (skipCondition depth ts).map normal := by
  induction ts generalizing depth with
  | nil => rfl
  | cons t ts ih =>
    simp [skipCondition, ih]
    split_ifs <;> rfl

/-! ## Single sources -/

/-- The shape in its normal spelling. -/
def Shape.normal : Shape → Shape
  | .subSelect => .subSelect
  | .joinTree inner => .joinTree (inner.map Token.normal)
  | .call name => .call (asciiLower name)
  | .table parts => .table (parts.map asciiLower)

theorem skipHints?_normal (ts : List Token) :
    skipHints? (ts.map normal) = (skipHints? ts).map (List.map normal) := by
  have hdrop : (ts.map normal).drop 1 = (ts.drop 1).map normal := List.map_drop.symm
  simp only [skipHints?, startsWithKw_normal, mem_keywords, hdrop, startsWithParen_normal,
    skipGroup?_normal]
  split <;> rfl

def normalShape : Shape × List Token → Shape × List Token :=
  Prod.map Shape.normal (List.map Token.normal)

theorem groupShape_normal (inner : List Token) :
    groupShape (inner.map normal) = (groupShape inner).normal := by
  simp only [groupShape, startsWithAnyKw_normal, List.cons_subset, mem_keywords,
    List.nil_subset, and_self]
  split <;> rfl

theorem finishShape?_normal (name : List String × List Token) :
    finishShape? (normalName name) = (finishShape? name).map normalShape := by
  obtain ⟨parts, rest⟩ := name
  have hlast := getLastD_map_asciiLower "" rfl parts
  simp only [finishShape?, normalName, Prod.map_apply, startsWithParen_normal, skipGroup?_normal]
  split
  · cases skipGroup? rest with
    | none => rfl
    | some after =>
      simp only [Option.map_some, Option.bind_some, skipHints?_normal, hlast]
      cases skipHints? after <;> rfl
  · rfl

theorem readShape?_normal (ts : List Token) :
    readShape? (ts.map normal) = (readShape? ts).map normalShape := by
  cases ts with
  | nil => rfl
  | cons t ts =>
    by_cases ht : t = .lparen
    · subst ht
      rw [List.map_cons, normal_lparen, readShape?_group, readShape?_group, closeParen?_normal]
      simp only [Option.map_map, Function.comp_def, normalBoth_fst, normalBoth_snd,
        groupShape_normal]
      rfl
    · rw [List.map_cons, readShape?_name (mt t.normal_eq_lparen.mp ht), readShape?_name ht,
        ← List.map_cons, readName?_normal]
      cases readName? (t :: ts) with
      | none => rfl
      | some name => exact finishShape?_normal name

/-! ## Aliases -/

theorem aliasWord?_normal (t : Token) : aliasWord? t.normal = (aliasWord? t).map asciiLower := by
  cases t with
  | word text quoted =>
    cases quoted with
    | true => rfl
    | false =>
      have hkeywords : nonAliasWords ⊆ keywords := by simp
      cases hordinary : isOrdinary text with
      | true =>
        have hat : startsWithChar '@' text = false := head?_of_isOrdinary hordinary
        rw [normal_of_isOrdinary hordinary, aliasWord?, aliasWord?,
          isAnyKw_of_isOrdinary hkeywords hordinary, hat]
        rfl
      | false =>
        have hat : startsWithChar '@' (asciiLower text) = startsWithChar '@' text :=
          startsWithChar_asciiLower (by decide) (by decide) text
        rw [normal_of_not_isOrdinary hordinary, aliasWord?, aliasWord?, hat, isAnyKw_asciiLower]
        split <;> rfl
  | _ => rfl

def normalAlias : Option String × List Token → Option String × List Token :=
  Prod.map (Option.map asciiLower) (List.map Token.normal)

theorem finishAlias?_normal (ts : List Token) :
    finishAlias? (ts.map normal) = (finishAlias? ts).map normalAlias := by
  cases ts with
  | nil => rfl
  | cons t ts =>
    simp only [List.map_cons, finishAlias?, aliasWord?_normal, startsWithParen_normal,
      skipGroup?_normal]
    cases aliasWord? t with
    | none => rfl
    | some text =>
      simp only [Option.map_some]
      split
      · cases skipGroup? ts <;> rfl
      · rfl

theorem readAlias?_normal (ts : List Token) :
    readAlias? (ts.map normal) = (readAlias? ts).map normalAlias := by
  rw [readAlias?_eq, readAlias?_eq, dropKw_normal (by simp), finishAlias?_normal]

def normalSource : Shape × Option String × List Token → Shape × Option String × List Token :=
  Prod.map Shape.normal normalAlias

theorem readSource?_normal (ts : List Token) :
    readSource? (ts.map normal) = (readSource? ts).map normalSource := by
  rw [readSource?, readSource?, readShape?_normal]
  cases readShape? ts with
  | none => rfl
  | some shaped =>
    simp only [Option.map_some, Option.bind_eq_bind, Option.bind_some]
    obtain ⟨shape, rest⟩ := shaped
    simp only [normalShape, Prod.map_apply, readAlias?_normal]
    cases readAlias? rest with
    | none => rfl
    | some named =>
      obtain ⟨aliasName, rest⟩ := named
      simp only [Option.map_some, Option.bind_some, normalAlias, Prod.map_apply,
        skipHints?_normal]
      cases skipHints? rest <;> rfl

/-! ## Clauses -/

theorem withAlias_lowered (aliasName : Option String) (sources : List Source) :
    withAlias (aliasName.map asciiLower) (sources.map lowered) =
      (withAlias aliasName sources).map lowered := by
  match sources with
  | [] => rfl
  | [s] => cases aliasName <;> rfl
  | _ :: _ :: _ => rfl

theorem join_lowered (kind : JoinKind) (seen sources : List Source) :
    join kind (seen.map lowered) (sources.map lowered) = (join kind seen sources).map lowered := by
  have hnullable : ∀ sources : List Source,
      (sources.map lowered).map asNullable = (sources.map asNullable).map lowered := by
    intro sources
    rw [List.map_map, List.map_map]
    rfl
  cases kind <;> simp only [join, hnullable, List.map_append]

/-- The sources that a shape stands for. -/
def ofShape (ctes : List String) : Shape → List Source
  | .subSelect => [{}]
  | .joinTree inner => collect ctes .inner [] inner
  | .call name => [{ name }]
  | .table parts => [ofName ctes parts]

theorem collect_comma (ctes : List String) (kind : JoinKind) (seen : List Source)
    (ts : List Token) :
    collect ctes kind seen (.comma :: ts) = collect ctes .inner seen ts := by
  rw [collect, if_pos rfl]

theorem collect_join (ht : t ≠ .comma) (hjoin : t.isAnyKw joinWords = true) :
    collect ctes kind seen (t :: ts) =
      collect ctes (readJoin .inner (t :: ts)).1 seen (readJoin .inner (t :: ts)).2 := by
  rw [collect, if_neg ht, dif_pos hjoin]

theorem collect_on
    (ht : t ≠ .comma) (hjoin : ¬ t.isAnyKw joinWords = true) (hon : t.isKw "ON" = true) :
    collect ctes kind seen (t :: ts) = collect ctes kind seen (skipCondition 0 ts) := by
  rw [collect, if_neg ht, dif_neg hjoin, if_pos hon]

theorem collect_other
    (ht : t ≠ .comma) (hjoin : ¬ t.isAnyKw joinWords = true) (hon : ¬ t.isKw "ON" = true)
    (h : readSource? (t :: ts) = none) :
    collect ctes kind seen (t :: ts) = collect ctes kind seen ts := by
  rw [collect, if_neg ht, dif_neg hjoin, if_neg hon]
  split
  · rfl
  · rename_i h'
    rw [h] at h'
    cases h'

theorem collect_source
    {shape : Shape} {aliasName : Option String} (ht : t ≠ .comma)
    (hjoin : ¬ t.isAnyKw joinWords = true) (hon : ¬ t.isKw "ON" = true)
    (h : readSource? (t :: ts) = some (shape, aliasName, rest)) :
    collect ctes kind seen (t :: ts) =
      collect ctes .inner (join kind seen (withAlias aliasName (ofShape ctes shape))) rest := by
  rw [collect, if_neg ht, dif_neg hjoin, if_neg hon]
  split
  · rename_i h'
    rw [h] at h'
    cases h'
  · rename_i h'
    rw [h] at h'
    cases h'
    cases shape <;> rfl

theorem collect_normal
    (ctes : List String) (kind : JoinKind) (seen : List Source) (ts : List Token) :
    collect (ctes.map asciiLower) kind (seen.map lowered) (ts.map normal) =
      (collect ctes kind seen ts).map lowered := by
  fun_induction collect ctes kind seen ts with
  | case1 kind seen => simp [collect]
  | case2 kind seen ts ih => rw [List.map_cons, normal_comma, collect_comma, ih]
  | case3 kind seen t ts ht hjoin _ ih =>
    have hjoin' : t.normal.isAnyKw joinWords = true := by simpa using hjoin
    rw [List.map_cons, collect_join (mt t.normal_eq_comma.mp ht) hjoin', ← List.map_cons,
      readJoin_normal]
    exact ih
  | case4 kind seen t ts ht hjoin hon _ ih =>
    have hjoin' : ¬ t.normal.isAnyKw joinWords = true := by simpa using hjoin
    have hon' : t.normal.isKw "ON" = true := by simpa using hon
    rw [List.map_cons, collect_on (mt t.normal_eq_comma.mp ht) hjoin' hon', skipCondition_normal]
    exact ih
  | case5 kind seen t ts ht hjoin hon hnone ih =>
    have hjoin' : ¬ t.normal.isAnyKw joinWords = true := by simpa using hjoin
    have hon' : ¬ t.normal.isKw "ON" = true := by simpa using hon
    have hnone' : readSource? (t.normal :: ts.map normal) = none := by
      rw [← List.map_cons, readSource?_normal, hnone]
      rfl
    rw [List.map_cons, collect_other (mt t.normal_eq_comma.mp ht) hjoin' hon' hnone', ih]
  | case6 kind seen t ts ht hjoin hon shape aliasName rest h hl _ sources ihinner ih =>
    have hjoin' : ¬ t.normal.isAnyKw joinWords = true := by simpa using hjoin
    have hon' : ¬ t.normal.isKw "ON" = true := by simpa using hon
    have h' : readSource? (t.normal :: ts.map normal) =
        some (shape.normal, aliasName.map asciiLower, rest.map normal) := by
      rw [← List.map_cons, readSource?_normal, h]
      rfl
    have hsources : ofShape (ctes.map asciiLower) shape.normal = sources.map lowered := by
      cases shape with
      | subSelect => rfl
      | joinTree inner => exact ihinner inner hl
      | call name => rfl
      | table parts => exact congrArg ([·]) (ofName_lowered ctes parts)
    rw [List.map_cons, collect_source (mt t.normal_eq_comma.mp ht) hjoin' hon' h', hsources,
      withAlias_lowered, join_lowered]
    exact ih

theorem ofClause_normal (ctes : List String) (ts : List Token) :
    ofClause (ctes.map asciiLower) (ts.map normal) = (ofClause ctes ts).map lowered :=
  collect_normal ctes .inner [] ts

end Source

end SqlSnapshot
