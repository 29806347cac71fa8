import SqlSnapshot.Proofs.Definition.SingleSources
import SqlSnapshot.Token.Lexer

/-!
# Join trees

The grammar of a `FROM` clause whose sources are joined from left to right, where a source may be a
clause of its own in parentheses.  The reader finds one source for each leaf of the tree, in the
order of the text, and takes it for nullable exactly if a join above the leaf may leave its rows
out.
-/

namespace SqlSnapshot.Source

open Token

/-! ## Grammar -/

inductive JoinPhrase where
  | inner (first : Option (Keyword ["INNER"])) (last : Keyword ["JOIN"])
  | cross (first : Keyword ["CROSS"]) (last : Keyword ["JOIN", "APPLY"])
  | left (first : Keyword ["LEFT"]) (outer : Option (Keyword ["OUTER"])) (last : Keyword ["JOIN"])
  | right (first : Keyword ["RIGHT"]) (outer : Option (Keyword ["OUTER"])) (last : Keyword ["JOIN"])
  | full (first : Keyword ["FULL"]) (outer : Option (Keyword ["OUTER"])) (last : Keyword ["JOIN"])
  | outerApply (first : Keyword ["OUTER"]) (last : Keyword ["APPLY"])

structure JoinCondition where
  keyword : Keyword ["ON"]
  condition : Balanced
  isPlain : ∀ t ∈ outside 0 condition.1, t ≠ .comma ∧ t.isAnyKw joinWords = false

/-- Sources joined from left to right.  An operand is a leaf or stands in parentheses. -/
inductive JoinTree : (isOperand : Bool) → Type where
  | leaf (source : Leaf) : JoinTree true
  | group {isOperand : Bool} (inner : JoinTree isOperand) : JoinTree true
  | join {isOperand : Bool} (left : JoinTree isOperand) (phrase : JoinPhrase)
      (right : JoinTree true) (condition : Option JoinCondition) : JoinTree false

def JoinPhrase.tokens : JoinPhrase → List Token
  | .inner first last => (first.map (·.1)).toList ++ [last.1]
  | .cross first last => [first.1, last.1]
  | .left first outer last => first.1 :: (outer.map (·.1)).toList ++ [last.1]
  | .right first outer last => first.1 :: (outer.map (·.1)).toList ++ [last.1]
  | .full first outer last => first.1 :: (outer.map (·.1)).toList ++ [last.1]
  | .outerApply first last => [first.1, last.1]

def JoinCondition.tokens (c : JoinCondition) : List Token :=
  c.keyword.1 :: c.condition.1

def JoinTree.tokens {isOperand : Bool} : JoinTree isOperand → List Token
  | .leaf source => source.tokens
  | .group inner => parens inner.tokens
  | .join left phrase right condition =>
    left.tokens ++ (phrase.tokens ++ (right.tokens ++ condition.elim [] JoinCondition.tokens))

/-! ## Nullable leaves -/

inductive Side where
  | left
  | right

/-- The join may leave out the rows of the sources on this side. -/
def JoinPhrase.leavesOut : JoinPhrase → Side → Bool
  | .left .., .right => true
  | .right .., .left => true
  | .full .., _ => true
  | .outerApply .., .right => true
  | _, _ => false

/-- A leaf with the joins above it, each with the side on which the leaf stands. -/
structure Place where
  leaf : Leaf
  joins : List (JoinPhrase × Side)

def Place.within (phrase : JoinPhrase) (side : Side) (p : Place) : Place :=
  { p with joins := (phrase, side) :: p.joins }

/-- The leaves of a tree in the order of the text. -/
def JoinTree.places {isOperand : Bool} : JoinTree isOperand → List Place
  | .leaf source => [⟨source, []⟩]
  | .group inner => inner.places
  | .join left phrase right _ =>
    left.places.map (Place.within phrase .left) ++ right.places.map (Place.within phrase .right)

def Place.isNullable (p : Place) : Bool :=
  p.joins.any fun (phrase, side) => phrase.leavesOut side

def Place.source (ctes : List String) (p : Place) : Source :=
  { p.leaf.source ctes with nullable := p.isNullable }

/-! ## Joins -/

variable {t : Token} {ts us rest : List Token} {keywords : List String} {ctes : List String}

def JoinPhrase.kind : JoinPhrase → JoinKind
  | .inner .. => .inner
  | .cross .. => .inner
  | .left .. => .left
  | .right .. => .right
  | .full .. => .full
  | .outerApply .. => .left

theorem readJoin_last (kind : JoinKind) (h : t.isAnyKw ["JOIN", "APPLY"] = true) (ts : List Token) :
    readJoin kind (t :: ts) = (kind, ts) := by
  simp [readJoin, isKw_eq_false h, h]

theorem readJoin_skip
    (kind : JoinKind) (h : t.isAnyKw ["INNER", "CROSS"] = true) (ts : List Token) :
    readJoin kind (t :: ts) = readJoin kind ts := by
  have hlast : t.isAnyKw ["JOIN", "APPLY"] = false := isAnyKw_eq_false_of_disjoint h (by decide)
  have hskip : t.isAnyKw ["INNER", "CROSS", "HASH", "LOOP", "MERGE"] = true :=
    isAnyKw_of_subset h (by decide)
  simp [readJoin, isKw_eq_false h, hlast, hskip]

theorem readJoin_left (h : t.isKw "LEFT" = true) (kind : JoinKind) (ts : List Token) :
    readJoin kind (t :: ts) = readJoin .left ts := by
  simp [readJoin, h]

theorem readJoin_right (h : t.isKw "RIGHT" = true) (kind : JoinKind) (ts : List Token) :
    readJoin kind (t :: ts) = readJoin .right ts := by
  simp [readJoin, isKw_eq_false h, h]

theorem readJoin_full (h : t.isKw "FULL" = true) (kind : JoinKind) (ts : List Token) :
    readJoin kind (t :: ts) = readJoin .full ts := by
  simp [readJoin, isKw_eq_false h, h]

theorem readJoin_outer (h : t.isKw "OUTER" = true) (kind : JoinKind) (ts : List Token) :
    readJoin kind (t :: ts) = readJoin (if kind = .inner then .left else kind) ts := by
  simp [readJoin, isKw_eq_false h, h]

/-- The words of a join are read as a whole, whatever follows them. -/
theorem readJoin_tokens (phrase : JoinPhrase) (ts : List Token) :
    readJoin .inner (phrase.tokens ++ ts) = (phrase.kind, ts) := by
  have houter : ∀ (kind : JoinKind) (outer : Option (Keyword ["OUTER"])) (last : Keyword ["JOIN"]),
      kind ≠ .inner →
      readJoin kind ((outer.map (·.1)).toList ++ [last.1] ++ ts) = (kind, ts) := by
    intro kind outer last hkind
    have hlast := readJoin_last kind (isAnyKw_of_subset last.2 (by decide)) ts
    cases outer with
    | none => exact hlast
    | some outer => exact (readJoin_outer outer.2 kind _).trans ((if_neg hkind).symm ▸ hlast)
  cases phrase with
  | inner first last =>
    have hlast := readJoin_last .inner (isAnyKw_of_subset last.2 (by decide)) ts
    cases first with
    | none => exact hlast
    | some first =>
      exact (readJoin_skip .inner (isAnyKw_of_subset first.2 (by decide)) _).trans hlast
  | cross first last =>
    exact (readJoin_skip .inner (isAnyKw_of_subset first.2 (by decide)) _).trans
      (readJoin_last .inner last.2 ts)
  | left first outer last =>
    exact (readJoin_left first.2 .inner _).trans (houter .left outer last (by decide))
  | right first outer last =>
    exact (readJoin_right first.2 .inner _).trans (houter .right outer last (by decide))
  | full first outer last =>
    exact (readJoin_full first.2 .inner _).trans (houter .full outer last (by decide))
  | outerApply first last =>
    exact (readJoin_outer first.2 .inner _).trans
      (readJoin_last .left (isAnyKw_of_subset last.2 (by decide)) ts)

theorem JoinPhrase.exists_head (phrase : JoinPhrase) :
    ∃ t us, phrase.tokens = t :: us ∧ t.isAnyKw joinStarts = true := by
  cases phrase with
  | inner first last =>
    cases first with
    | none => exact ⟨_, _, rfl, isAnyKw_of_subset last.2 (by decide)⟩
    | some first => exact ⟨_, _, rfl, isAnyKw_of_subset first.2 (by decide)⟩
  | cross first last => exact ⟨_, _, rfl, isAnyKw_of_subset first.2 (by decide)⟩
  | left first outer last => exact ⟨_, _, rfl, isAnyKw_of_subset first.2 (by decide)⟩
  | right first outer last => exact ⟨_, _, rfl, isAnyKw_of_subset first.2 (by decide)⟩
  | full first outer last => exact ⟨_, _, rfl, isAnyKw_of_subset first.2 (by decide)⟩
  | outerApply first last => exact ⟨_, _, rfl, isAnyKw_of_subset first.2 (by decide)⟩

theorem ends_phrase (phrase : JoinPhrase) (ts : List Token) :
    Ends joinStarts (phrase.tokens ++ ts) := by
  obtain ⟨t, us, htokens, ht⟩ := phrase.exists_head
  rw [htokens]
  exact ends_cons ht _

theorem ne_comma_of_isAnyKw (h : t.isAnyKw keywords = true) : t ≠ .comma := by
  rintro rfl
  cases h

variable {kind : JoinKind} {seen : List Source}

theorem collect_phrase (phrase : JoinPhrase) (ts : List Token) :
    collect ctes kind seen (phrase.tokens ++ ts) = collect ctes phrase.kind seen ts := by
  obtain ⟨t, us, htokens, ht⟩ := phrase.exists_head
  have hjoin : t.isAnyKw joinWords = true := isAnyKw_of_subset ht (by decide)
  have hread := readJoin_tokens phrase ts
  rw [htokens, List.cons_append] at hread ⊢
  rw [collect_join (ne_comma_of_isAnyKw ht) hjoin, hread]

theorem skipCondition_append
    {depth : Nat}
    (h : ∀ t ∈ outside depth ts, t ≠ .comma ∧ t.isAnyKw joinWords = false) :
    skipCondition depth (ts ++ us) = skipCondition (depthAfterAll depth ts) us := by
  induction ts generalizing depth with
  | nil => rfl
  | cons t ts ih =>
    rw [outside] at h
    rw [List.cons_append, skipCondition, depthAfterAll_cons]
    split at h
    · obtain ⟨ht, hts⟩ := List.forall_mem_cons.mp h
      rw [if_neg (by simp [ht.1, ht.2]), ih hts]
    · rename_i hdepth
      rw [if_neg (fun hstop => hdepth hstop.1), ih h]

theorem skipCondition_of_ends (h : Ends joinStarts rest) : skipCondition 0 rest = rest := by
  cases rest with
  | nil => rfl
  | cons t rest =>
    have hjoin : t.isAnyKw joinWords = true := isAnyKw_of_subset (h t rest rfl) (by decide)
    rw [skipCondition, if_pos ⟨rfl, .inr hjoin⟩]

theorem isBalanced_condition (c : JoinCondition) : isBalanced c.tokens = true :=
  isBalanced_append (isBalanced_keyword c.keyword.2) c.condition.2

/-- A condition is passed as a whole, wherever the scan for its end meets it. -/
theorem skipCondition_condition (c : JoinCondition) (depth : Nat) (rest : List Token) :
    skipCondition depth (c.tokens ++ rest) = skipCondition depth rest := by
  have hplain : ∀ t ∈ outside depth c.tokens, t ≠ .comma ∧ t.isAnyKw joinWords = false := by
    cases depth with
    | zero =>
      have hon : c.keyword.1.isAnyKw joinWords = false :=
        isAnyKw_eq_false_of_disjoint c.keyword.2 (by decide)
      rw [JoinCondition.tokens, outside, if_pos rfl, depthAfter_of_isAnyKw c.keyword.2]
      exact List.forall_mem_cons.mpr ⟨⟨ne_comma_of_isAnyKw c.keyword.2, hon⟩, c.isPlain⟩
    | succ depth =>
      have hnone := outside_of_balancedFrom (isBalanced_condition c) depth
      rw [Nat.zero_add] at hnone
      simp [hnone]
  have hdepth := depthAfterAll_add (isBalanced_condition c) depth
  rw [Nat.zero_add] at hdepth
  rw [skipCondition_append hplain, hdepth]

theorem collect_condition (c : JoinCondition) (rest : List Token) :
    collect ctes kind seen (c.tokens ++ rest) = collect ctes kind seen (skipCondition 0 rest) := by
  have hon : c.keyword.1.isKw "ON" = true := c.keyword.2
  have hcomma : c.keyword.1 ≠ .comma := ne_comma_of_isAnyKw hon
  have hjoin : c.keyword.1.isAnyKw joinWords = false := isAnyKw_eq_false_of_disjoint hon (by decide)
  have hskip : skipCondition 0 (c.condition.1 ++ rest) = skipCondition 0 rest := by
    rw [← skipCondition_condition c 0 rest, JoinCondition.tokens, List.cons_append,
      skipCondition.eq_2, if_neg (by simp [hcomma, hjoin]), depthAfter_of_isAnyKw hon]
  rw [JoinCondition.tokens, List.cons_append, collect_on hcomma (Bool.eq_false_iff.mp hjoin) hon,
    hskip]

theorem collect_optional_condition (condition : Option JoinCondition) (h : Ends joinStarts rest) :
    collect ctes kind seen (condition.elim [] JoinCondition.tokens ++ rest) =
      collect ctes kind seen rest := by
  cases condition with
  | none => rfl
  | some c => rw [Option.elim_some, collect_condition, skipCondition_of_ends h]

theorem ends_condition (condition : Option JoinCondition) (h : Ends joinStarts rest) :
    Ends operandEnds (condition.elim [] JoinCondition.tokens ++ rest) := by
  cases condition with
  | none => exact h.mono fun k hk => List.mem_cons_of_mem "ON" hk
  | some c => exact ends_cons (isAnyKw_of_subset c.keyword.2 (by decide)) _

/-! ## Trees -/

/-- The sources that stand for the leaves of a tree. -/
def JoinTree.sources {isOperand : Bool} (ctes : List String) (tree : JoinTree isOperand) :
    List Source :=
  tree.places.map (Place.source ctes)

theorem sources_leaf (l : Leaf) : (JoinTree.leaf l).sources ctes = [l.source ctes] := by
  have hunmarked : { l.source ctes with nullable := false } = l.source ctes := by
    rw [← nullable_leaf l]
  exact congrArg (fun s => [s]) hunmarked

theorem source_within (phrase : JoinPhrase) (side : Side) (p : Place) :
    (p.within phrase side).source ctes =
      if phrase.leavesOut side then (p.source ctes).asNullable else p.source ctes := by
  have hnullable : (p.within phrase side).isNullable =
      (phrase.leavesOut side || p.isNullable) := rfl
  rw [Place.source, hnullable]
  cases phrase.leavesOut side with
  | true => rfl
  | false => rw [Bool.false_or, if_neg Bool.false_ne_true]; rfl

/-- A join marks the sources on both of its sides, whatever stands above it. -/
theorem sources_join
    {isOperand : Bool} (left : JoinTree isOperand) (phrase : JoinPhrase) (right : JoinTree true)
    (condition : Option JoinCondition) :
    (JoinTree.join left phrase right condition).sources ctes =
      Source.join phrase.kind (left.sources ctes) (right.sources ctes) := by
  have hside : ∀ (side : Side) (ps : List Place),
      (ps.map (Place.within phrase side)).map (Place.source ctes) =
        if phrase.leavesOut side then (ps.map (Place.source ctes)).map asNullable
        else ps.map (Place.source ctes) := by
    intro side ps
    rw [List.map_map]
    have hsource : (Place.source ctes ∘ Place.within phrase side) =
        fun p => if phrase.leavesOut side then (p.source ctes).asNullable else p.source ctes :=
      funext fun p => source_within phrase side p
    rw [hsource]
    split
    · rw [List.map_map]
      rfl
    · rfl
  rw [JoinTree.sources, JoinTree.places, List.map_append, hside, hside]
  cases phrase <;> rfl

theorem withAlias_none (sources : List Source) : withAlias none sources = sources := by
  match sources with
  | [] => rfl
  | [_] => rfl
  | _ :: _ :: _ => rfl

theorem startsOperand_tree {isOperand : Bool} (tree : JoinTree isOperand) :
    StartsOperand tree.tokens := by
  induction tree with
  | leaf source => exact startsOperand_leaf source
  | group inner ih => exact ⟨.lparen, _, rfl, by simp, rfl⟩
  | join left phrase right condition ihLeft ihRight =>
    obtain ⟨t, us, htokens, ht⟩ := ihLeft
    rw [JoinTree.tokens, htokens]
    exact ⟨t, _, rfl, ht⟩

/-- The reader takes an operand from the front and marks sources for the join before it. -/
theorem collect_operand
    {shape : Shape} {aliasText : Option String} (hstart : StartsOperand ts)
    (hread : readSource? (ts ++ rest) = some (shape, aliasText, rest)) :
    collect ctes kind seen (ts ++ rest) =
      collect ctes .inner
        (Source.join kind seen (withAlias aliasText (ofShape ctes shape))) rest := by
  obtain ⟨t, us, rfl, hcomma, hreserved⟩ := hstart
  have hjoin : t.isAnyKw joinWords = false := isAnyKw_eq_false_of_subset hreserved (by decide)
  have hon : t.isKw "ON" = false := isAnyKw_eq_false_of_subset hreserved (by decide)
  rw [List.cons_append] at hread ⊢
  exact collect_source hcomma (Bool.eq_false_iff.mp hjoin) (Bool.eq_false_iff.mp hon) hread

theorem readSource?_group
    {inner : List Token} (hbalanced : isBalanced inner = true) (hstart : StartsOperand inner)
    (h : Ends operandEnds rest) :
    readSource? (parens inner ++ rest) = some (.joinTree inner, none, rest) := by
  have hquery : startsWithAnyKw ["SELECT", "WITH"] inner = false := by
    obtain ⟨t, us, rfl, -, hreserved⟩ := hstart
    exact isAnyKw_eq_false_of_subset hreserved (by decide)
  refine readSource?_of_parts ?_ (readAlias?_none (h.mono (by decide)))
    (skipHints?_of_not_with (h.not_kw (by decide)))
  rw [parens, List.append_assoc, List.cons_append, List.singleton_append, readShape?_group,
    closeParen?_of_balancedFrom hbalanced, Option.map_some, groupShape, hquery]
  rfl

theorem isBalanced_phrase (phrase : JoinPhrase) : isBalanced phrase.tokens = true := by
  have houter : ∀ {first : Token} {keyword : String} (outer : Option (Keyword ["OUTER"]))
      (last : Keyword ["JOIN"]), first.isKw keyword = true →
      isBalanced (first :: (outer.map (·.1)).toList ++ [last.1]) = true := by
    intro first keyword outer last hfirst
    exact isBalanced_append
      (isBalanced_append (isBalanced_keyword hfirst) (isBalanced_optional outer))
      (isBalanced_keyword last.2)
  cases phrase with
  | inner first last =>
    exact isBalanced_append (isBalanced_optional first) (isBalanced_keyword last.2)
  | cross first last =>
    exact isBalanced_append (isBalanced_keyword first.2) (isBalanced_keyword last.2)
  | left first outer last => exact houter outer last first.2
  | right first outer last => exact houter outer last first.2
  | full first outer last => exact houter outer last first.2
  | outerApply first last =>
    exact isBalanced_append (isBalanced_keyword first.2) (isBalanced_keyword last.2)

theorem isBalanced_tree {isOperand : Bool} (tree : JoinTree isOperand) :
    isBalanced tree.tokens = true := by
  induction tree with
  | leaf source => exact isBalanced_leaf source
  | group inner ih => exact isBalanced_parens ih
  | join left phrase right condition ihLeft ihRight =>
    exact isBalanced_append ihLeft (isBalanced_append (isBalanced_phrase phrase)
      (isBalanced_append ihRight (isBalanced_elim condition isBalanced_condition)))

/-! ## The reader -/

/-- A join may stand behind every tree, and a condition behind an operand. -/
def treeEnds (isOperand : Bool) : List String :=
  if isOperand then operandEnds else joinStarts

theorem Ends.treeEnds (h : Ends joinStarts ts) (isOperand : Bool) :
    Ends (treeEnds isOperand) ts := by
  cases isOperand with
  | true => exact h.mono fun k hk => List.mem_cons_of_mem "ON" hk
  | false => exact h

/-- The reader passes a tree and adds its sources to those it has seen.  A tree that is no operand
stands at the start of a clause, since the sources before it would belong to its first join. -/
theorem collect_tree
    {isOperand : Bool} (tree : JoinTree isOperand)
    (hstart : isOperand = false → kind = .inner ∧ seen = [])
    (hrest : Ends (treeEnds isOperand) rest) :
    collect ctes kind seen (tree.tokens ++ rest) =
      collect ctes .inner (Source.join kind seen (tree.sources ctes)) rest := by
  induction tree generalizing kind seen rest with
  | leaf source =>
    rw [sources_leaf, ← withAlias_leaf]
    exact collect_operand (startsOperand_leaf source) (readSource?_leaf source hrest)
  | group inner ih =>
    have hinner : collect ctes .inner [] inner.tokens = inner.sources ctes := by
      have htree : collect ctes .inner [] (inner.tokens ++ []) =
          collect ctes .inner (inner.sources ctes) [] := ih (fun _ => ⟨rfl, rfl⟩) ends_nil
      rwa [List.append_nil, collect] at htree
    have hsources : withAlias none (ofShape ctes (.joinTree inner.tokens)) =
        (JoinTree.group inner).sources ctes := by
      rw [withAlias_none, ofShape, hinner]
      rfl
    rw [← hsources]
    exact collect_operand (startsOperand_tree (.group inner))
      (readSource?_group (isBalanced_tree inner) (startsOperand_tree inner) hrest)
  | join left phrase right condition ihLeft ihRight =>
    obtain ⟨rfl, rfl⟩ := hstart rfl
    have hbehind := ends_condition condition hrest
    generalize hwords : condition.elim [] JoinCondition.tokens = words at hbehind
    calc collect ctes .inner [] ((JoinTree.join left phrase right condition).tokens ++ rest)
        = collect ctes .inner []
            (left.tokens ++ (phrase.tokens ++ (right.tokens ++ (words ++ rest)))) := by
          simp only [JoinTree.tokens, hwords, List.append_assoc]
      _ = collect ctes .inner (left.sources ctes)
            (phrase.tokens ++ (right.tokens ++ (words ++ rest))) :=
          ihLeft (fun _ => ⟨rfl, rfl⟩) ((ends_phrase phrase _).treeEnds _)
      _ = collect ctes phrase.kind (left.sources ctes) (right.tokens ++ (words ++ rest)) :=
          collect_phrase phrase _
      _ = collect ctes .inner
            (Source.join phrase.kind (left.sources ctes) (right.sources ctes)) (words ++ rest) :=
          ihRight (fun hfalse => Bool.noConfusion hfalse) hbehind
      _ = collect ctes .inner
            (Source.join phrase.kind (left.sources ctes) (right.sources ctes)) rest := by
          rw [← hwords, collect_optional_condition condition hrest]
      _ = collect ctes .inner ((JoinTree.join left phrase right condition).sources ctes) rest := by
          rw [sources_join]

/-- The sources of a clause are the leaves of its join tree, in the order of the text.  A source is
nullable exactly if one of the joins above its leaf may leave out the rows on the side of the
leaf. -/
theorem ofClause_joinTree
    {isOperand : Bool} (ctes : List String) (tree : JoinTree isOperand) :
    ofClause ctes tree.tokens = tree.places.map fun p =>
      { p.leaf.source ctes with
        nullable := p.joins.any fun (phrase, side) => phrase.leavesOut side } := by
  have htree : collect ctes .inner [] (tree.tokens ++ []) =
      collect ctes .inner (tree.sources ctes) [] := collect_tree tree (fun _ => ⟨rfl, rfl⟩) ends_nil
  rwa [List.append_nil, collect.eq_def ctes .inner (tree.sources ctes)] at htree

/-- A keyword in the spelling in which it is listed. -/
def plainKeyword (keyword : String) (h : (Token.word keyword false).isKw keyword = true) :
    Keyword [keyword] :=
  ⟨.word keyword false, h⟩

def onWord : Keyword ["ON"] :=
  plainKeyword "ON" (by decide +kernel)

/-- `Orders WITH (NOLOCK) LEFT JOIN (SELECT 1) AS d (x) ON 1 = 1` -/
def JoinTree.sampleInner : JoinTree false :=
  .join
    (.leaf (.table ⟨"Orders", false, [], by decide +kernel⟩ none
      (some ⟨plainKeyword "WITH" (by decide +kernel), [.word "NOLOCK" false], by decide +kernel⟩)))
    (.left (plainKeyword "LEFT" (by decide +kernel)) none (plainKeyword "JOIN" (by decide +kernel)))
    (.leaf (.derived ⟨[.word "SELECT" false, .num "1"], by decide +kernel⟩ (by decide +kernel)
      (some ⟨some (plainKeyword "AS" (by decide +kernel)), "d", false,
        some ⟨[.word "x" false], by decide +kernel⟩, by decide +kernel, by decide +kernel⟩)))
    (some ⟨plainKeyword "ON" (by decide +kernel),
      ⟨[.num "1", .equals, .num "1"], by decide +kernel⟩, by decide +kernel⟩)

/-- `dbo.[Users] u RIGHT OUTER JOIN (…) OUTER APPLY f(1)`, with the other tree in parentheses. -/
def JoinTree.sample : JoinTree false :=
  .join
    (.join
      (.leaf (.table ⟨"dbo", false, [("Users", true)], by decide +kernel⟩
        (some ⟨none, "u", false, none, by decide +kernel, by decide +kernel⟩) none))
      (.right (plainKeyword "RIGHT" (by decide +kernel))
        (some (plainKeyword "OUTER" (by decide +kernel))) (plainKeyword "JOIN" (by decide +kernel)))
      (.group sampleInner) none)
    (.outerApply (plainKeyword "OUTER" (by decide +kernel))
      (plainKeyword "APPLY" (by decide +kernel)))
    (.leaf (.call ⟨"f", false, [], by decide +kernel⟩ ⟨[.num "1"], by decide +kernel⟩ none none))
    none

/-- The right join reaches back to `u`, and the left one, in parentheses, not to `Orders`. -/
theorem ofClause_joinTree_sample :
    JoinTree.sample.tokens =
      [.word "dbo" false, .period, .word "Users" true, .word "u" false, .word "RIGHT" false,
        .word "OUTER" false, .word "JOIN" false, .lparen, .word "Orders" false, .word "WITH" false,
        .lparen, .word "NOLOCK" false, .rparen, .word "LEFT" false, .word "JOIN" false, .lparen,
        .word "SELECT" false, .num "1", .rparen, .word "AS" false, .word "d" false, .lparen,
        .word "x" false, .rparen, .word "ON" false, .num "1", .equals, .num "1", .rparen,
        .word "OUTER" false, .word "APPLY" false, .word "f" false, .lparen, .num "1", .rparen] ∧
    (ofClause [] JoinTree.sample.tokens).map (fun s => (s.aliasName.getD s.name, s.nullable)) =
      [("u", true), ("Orders", false), ("d", true), ("f", true)] := by
  refine ⟨rfl, ?_⟩
  rw [ofClause_joinTree]
  decide +kernel

/-- A query in parentheses of its own is read as two sources, neither of which has the alias, and a
name with an empty part as two sources, of which the join marks the first one only. -/
theorem ofClause_misread :
    (tokenize "A a LEFT JOIN ((SELECT 1 AS x) UNION (SELECT 2 AS x)) d ON d.x = a.Id").toOption.map
        (ofClause []) =
      some [⟨some "a", "A", some ("dbo", "A"), false⟩, ⟨none, "", none, true⟩,
        ⟨none, "UNION", none, true⟩] ∧
    (tokenize "A a LEFT JOIN tempdb..Users u ON u.Id = a.Id").toOption.map (ofClause []) =
      some [⟨some "a", "A", some ("dbo", "A"), false⟩,
        ⟨none, "tempdb", some ("dbo", "tempdb"), true⟩,
        ⟨some "u", "Users", some ("dbo", "Users"), false⟩] := by
  constructor <;> decide +kernel

end SqlSnapshot.Source
