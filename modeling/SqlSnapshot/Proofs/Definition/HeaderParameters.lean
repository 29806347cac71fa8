import SqlSnapshot.Proofs.Definition.JsonSelect
import SqlSnapshot.Proofs.Definition.Spelling.Definition
import SqlSnapshot.Proofs.Token.Parts

/-!
# Parameters as they are written

The grammar of the parameters of a procedure, bare or in parentheses, and what they are read to.  A
bare list ends before the first `AS`, `WITH` or `FOR` outside parentheses; an `AS` between the name
of a parameter and its type does not end it, since it stands behind a variable.

The flags of a parameter are searched in all that follows its type, the parentheses of its default
included: a default that has `OUTPUT` in its parentheses makes its parameter one for output.
-/

namespace SqlSnapshot.Header

open Token

/-! ## Grammar -/

/-- The words that end parameters without parentheses. -/
def listEnd : List String :=
  ["AS", "WITH", "FOR"]

def outputWords : List String :=
  ["OUT", "OUTPUT"]

def flagWords : List String :=
  "READONLY" :: outputWords

/-- A dotted name; each part may be quoted. -/
structure WrittenName where
  first : String × Bool
  others : List (String × Bool)

inductive TypeArgument where
  | number (digits : String)
  | name (text : String) (quoted : Bool)
  | comma

structure WrittenType where
  name : WrittenName
  arguments : Option (List TypeArgument)
  no_word : ∀ part ∈ name.first :: name.others, (Token.word part.1 part.2).isAnyKw listEnd = false

/-- The value behind the sign of a default. -/
structure DefaultValue where
  tokens : List Token
  balanced : isBalanced tokens = true
  no_comma : .comma ∉ outside 0 tokens
  no_word : Avoids (listEnd ++ flagWords) tokens

structure WrittenParameter where
  /-- The name without its `@`. -/
  name : String
  one_at : name.toList.head? ≠ some '@'
  asWord : Option (Keyword ["AS"])
  type : WrittenType
  value : Option DefaultValue
  flags : List (Keyword flagWords)

inductive WrittenList where
  | bare (parameters : List WrittenParameter)
  | grouped (first : WrittenParameter) (others : List WrittenParameter)

/-! ### Tokens -/

def commaSeparated (parts : List (List Token)) : List Token :=
  [comma].intercalate parts

namespace WrittenName

def parts (n : WrittenName) : List String :=
  n.first.1 :: n.others.map (·.1)

def tokens (n : WrittenName) : List Token :=
  .word n.first.1 n.first.2 :: n.others.flatMap fun part => [.period, .word part.1 part.2]

end WrittenName

namespace TypeArgument

def token : TypeArgument → Token
  | .number digits => .num digits
  | .name text quoted => .word text quoted
  | .comma => .comma

def text : TypeArgument → String
  | .number digits => digits
  | .name text _ => Text.lower text
  | .comma => ","

end TypeArgument

namespace WrittenType

def tokens (t : WrittenType) : List Token :=
  t.name.tokens ++ t.arguments.elim [] fun arguments => parens (arguments.map (·.token))

/-- The canonical text: a name of one part in lower case, one of more parts as it is written, and
the arguments in lower case without blanks. -/
def text (t : WrittenType) : String :=
  let name :=
    if t.name.others.isEmpty then Text.lower t.name.first.1 else ".".intercalate t.name.parts
  match t.arguments with
  | none => name
  | some arguments => name ++ "(" ++ String.join (arguments.map (·.text)) ++ ")"

end WrittenType

namespace WrittenParameter

/-- The default and the flags. -/
def afterType (p : WrittenParameter) : List Token :=
  p.value.elim [] (.equals :: ·.tokens) ++ p.flags.map (·.1)

/-- The parameter from its type on. -/
def tail (p : WrittenParameter) : List Token :=
  p.type.tokens ++ p.afterType

def tokens (p : WrittenParameter) : List Token :=
  .word ("@" ++ p.name) false :: ((p.asWord.map (·.1)).toList ++ p.tail)

def hasFlag (p : WrittenParameter) (words : List String) : Bool :=
  p.flags.any (·.1.isAnyKw words)

/-- Whether one of the words stands in the default, where it is in parentheses. -/
def hasInDefault (p : WrittenParameter) (words : List String) : Bool :=
  p.value.any (·.tokens.any (·.isAnyKw words))

/-- The parameter that is declared. -/
def declared (p : WrittenParameter) : Parameter where
  name := p.name
  sqlType := p.type.text
  isOutput := p.hasFlag outputWords
  hasDefault := p.value.isSome
  isReadonly := p.hasFlag ["READONLY"]

/-- The parameter with the flags of its default. -/
def asRead (p : WrittenParameter) : Parameter :=
  { p.declared with
    isOutput := p.hasInDefault outputWords || p.hasFlag outputWords
    isReadonly := p.hasInDefault ["READONLY"] || p.hasFlag ["READONLY"] }

/-- No word in the default gives a flag that the parameter does not have. -/
def FlagsApart (p : WrittenParameter) : Prop :=
  ∀ words ∈ [outputWords, ["READONLY"]], p.hasInDefault words = true → p.hasFlag words = true

end WrittenParameter

namespace WrittenList

def parameters : WrittenList → List WrittenParameter
  | .bare parameters => parameters
  | .grouped first others => first :: others

def tokens : WrittenList → List Token
  | .bare parameters => commaSeparated (parameters.map (·.tokens))
  | .grouped first others => parens (commaSeparated ((first :: others).map (·.tokens)))

/-- The last token is a variable: one that stands for a type, or in a default. -/
def endsInVariable (list : WrittenList) : Bool :=
  list.tokens.getLast?.any (·.isVariable)

end WrittenList

/-! ## Types -/

variable {ts us rest : List Token} {t : Token}

theorem readNameTail_of_head (h : ∀ t ∈ ts.head?, t ≠ .period) : readNameTail ts = ([], ts) := by
  cases ts with
  | nil => rfl
  | cons t ts => exact readNameTail_of_ne_period (h t rfl) ts

theorem not_startsWithParen_of_head (h : ∀ t ∈ ts.head?, t ≠ .lparen) :
    startsWithParen ts = false := by
  cases ts with
  | nil => rfl
  | cons t ts =>
    cases t with
    | lparen => exact absurd rfl (h .lparen rfl)
    | _ => rfl

theorem readName?_tokens (n : WrittenName) (h : readNameTail ts = ([], ts)) :
    readName? (n.tokens ++ ts) = some (n.parts, ts) := by
  rw [WrittenName.tokens, List.cons_append, readName?, readNameTail_flatMap n.others h]
  rfl

theorem typeArgument_token (a : TypeArgument) : typeArgument a.token = a.text := by
  cases a <;> rfl

theorem isBalanced_arguments (arguments : List TypeArgument) :
    isBalanced (arguments.map (·.token)) = true := by
  induction arguments with
  | nil => rfl
  | cons a arguments ih => cases a <;> exact ih

theorem typeName_parts (n : WrittenName) :
    typeName n.parts =
      if n.others.isEmpty then Text.lower n.first.1 else ".".intercalate n.parts := by
  obtain ⟨first, others⟩ := n
  cases others <;> rfl

/-- A type is read to its canonical text, where neither a part of its name nor arguments follow. -/
theorem readType?_tokens
    (type : WrittenType) (hname : readNameTail ts = ([], ts))
    (hparen : startsWithParen ts = false) :
    readType? (type.tokens ++ ts) = some (type.text, ts) := by
  rw [readType?_eq, WrittenType.tokens, List.append_assoc]
  unfold WrittenType.text
  rw [← typeName_parts]
  cases type.arguments with
  | none =>
    rw [Option.elim_none, List.nil_append, readName?_tokens type.name hname, Option.bind_some]
    cases ts with
    | nil => rfl
    | cons t ts =>
      cases t with
      | lparen => cases hparen
      | _ => rfl
  | some arguments =>
    have htexts : (arguments.map (·.token)).map typeArgument = arguments.map (·.text) := by
      rw [List.map_map]
      exact List.map_congr_left fun a _ => typeArgument_token a
    have hparens : parens (arguments.map (·.token)) ++ ts =
        .lparen :: (arguments.map (·.token) ++ .rparen :: ts) := by
      simp [parens]
    rw [Option.elim_some, hparens, readName?_tokens type.name
      (readNameTail_of_ne_period (by simp) _), Option.bind_some, finishType?]
    dsimp only
    rw [closeParen?_of_balancedFrom (isBalanced_arguments arguments), Option.map_some,
      typeWithArguments, htexts]

/-! ## One parameter -/

theorem isVariable_at (name : String) : (Token.word ("@" ++ name) false).isVariable = true := by
  simp [Token.isVariable]

theorem bareName_at {name : String} (h : name.toList.head? ≠ some '@') :
    bareName ("@" ++ name) = name := by
  have hdrop : name.toList.dropWhile (· == '@') = name.toList := by
    cases hchars : name.toList with
    | nil => rfl
    | cons c cs =>
      rw [hchars] at h
      have hc : (c == '@') = false := by simpa using h
      rw [List.dropWhile_cons, hc]
      rfl
  rw [bareName, String.toList_append]
  change String.ofList (List.dropWhile (· == '@') ('@' :: name.toList)) = name
  rw [List.dropWhile_cons, if_pos (by simp), hdrop, String.ofList_toList]

namespace WrittenParameter

variable (p : WrittenParameter)

theorem mem_flags {t : Token} (h : t ∈ p.flags.map (·.1)) : t.isAnyKw flagWords = true := by
  obtain ⟨flag, -, rfl⟩ := List.mem_map.mp h
  exact flag.2

theorem afterType_head : ∀ t ∈ p.afterType.head?, t = .equals ∨ t.isWord = true := by
  intro t ht
  rw [afterType] at ht
  cases hvalue : p.value with
  | some value =>
    rw [hvalue] at ht
    exact .inl (Option.some.inj ht).symm
  | none =>
    rw [hvalue, Option.elim_none, List.nil_append] at ht
    exact .inr (isWord_of_isAnyKw (p.mem_flags (List.mem_of_head? ht)))

theorem any_afterType (words : List String) :
    p.afterType.any (·.isAnyKw words) = (p.hasInDefault words || p.hasFlag words) := by
  rw [afterType, List.any_append, List.any_map]
  cases hvalue : p.value with
  | none => simp [hasInDefault, hvalue, hasFlag, Function.comp_def]
  | some value => simp [hasInDefault, hvalue, hasFlag, Function.comp_def, isAnyKw]

theorem any_equals_afterType : p.afterType.any (· == .equals) = p.value.isSome := by
  cases hvalue : p.value with
  | some value => simp [afterType, hvalue]
  | none =>
    rw [afterType, hvalue, Option.elim_none, List.nil_append, Option.isSome_none,
      List.any_eq_false]
    intro t ht
    simpa using ne_of_isAnyKw (p.mem_flags ht) rfl

theorem not_startsWithKw_as_tail : startsWithKw "AS" p.tail = false :=
  isAnyKw_eq_false_of_subset (p.type.no_word _ List.mem_cons_self) (by decide)

/-- A parameter is read with the flags of its default. -/
theorem readParameter_tokens : readParameter p.tokens = .ok p.asRead := by
  have hname : readNameTail p.afterType = ([], p.afterType) := by
    apply readNameTail_of_head
    rintro _ ht rfl
    exact (p.afterType_head _ ht).elim Token.noConfusion Bool.noConfusion
  have hparen : startsWithParen p.afterType = false := by
    apply not_startsWithParen_of_head
    rintro _ ht rfl
    exact (p.afterType_head _ ht).elim Token.noConfusion Bool.noConfusion
  have htype : readType? p.tail = some (p.type.text, p.afterType) :=
    readType?_tokens p.type hname hparen
  have hskip : (if startsWithKw "AS" ((p.asWord.map (·.1)).toList ++ p.tail) then
      ((p.asWord.map (·.1)).toList ++ p.tail).drop 1
      else (p.asWord.map (·.1)).toList ++ p.tail) = p.tail := by
    cases p.asWord with
    | some word => exact if_pos word.2
    | none => exact if_neg (ne_true_of_eq_false p.not_startsWithKw_as_tail)
  have hreadonly : p.afterType.any (·.isKw "READONLY") = _ := p.any_afterType ["READONLY"]
  rw [tokens, readParameter_word, if_pos (isVariable_at p.name), hskip, typedParameter, htype]
  dsimp only
  rw [p.any_afterType, p.any_equals_afterType, bareName_at p.one_at, hreadonly]
  rfl

/-- A parameter is read as declared exactly where no word in its default gives it a flag. -/
theorem asRead_eq_declared_iff : p.asRead = p.declared ↔ p.FlagsApart := by
  rw [FlagsApart, List.forall_mem_cons, List.forall_mem_singleton]
  simp only [asRead, declared, Parameter.mk.injEq]
  cases p.hasInDefault outputWords <;> cases p.hasInDefault ["READONLY"] <;> simp

end WrittenParameter

/-! ## Lists of parameters -/

/-- Whether a variable stands right before what follows the list. -/
def endsWithVariable (before : Bool) : List Token → Bool
  | [] => before
  | t :: ts => endsWithVariable t.isVariable ts

theorem endsWithVariable_eq (before : Bool) (ts : List Token) :
    endsWithVariable before ts = (ts.getLast?.map (·.isVariable)).getD before := by
  induction ts generalizing before with
  | nil => rfl
  | cons t ts ih =>
    rw [endsWithVariable, ih, List.getLast?_cons]
    cases ts.getLast? <;> rfl

theorem endsWithVariable_false (ts : List Token) :
    endsWithVariable false ts = ts.getLast?.any (·.isVariable) := by
  rw [endsWithVariable_eq]
  cases ts.getLast? <;> rfl

theorem endsWithVariable_append (before : Bool) (ts us : List Token) :
    endsWithVariable before (ts ++ us) = endsWithVariable (endsWithVariable before ts) us := by
  induction ts generalizing before with
  | nil => rfl
  | cons t ts ih => exact ih t.isVariable

/-- The scan for the end of the parameters goes on behind a list in which no word ends it. -/
theorem cutParameters_append
    {depth : Nat} (h : ∀ t ∈ outside depth ts, t.isAnyKw listEnd = false) (before : Bool)
    (rest : List Token) :
    cutParameters before depth (ts ++ rest) =
      carry ts (cutParameters (endsWithVariable before ts) (depthAfterAll depth ts) rest) := by
  induction ts generalizing depth before with
  | nil => rfl
  | cons t ts ih =>
    rw [outside] at h
    have hlater : ∀ u ∈ outside (depthAfter depth t) ts, u.isAnyKw listEnd = false := by
      split at h
      · exact fun u hu => h u (List.mem_cons_of_mem t hu)
      · exact h
    have hpass : ¬ (depth = 0 ∧ t.isAnyKw ["AS", "WITH", "FOR"] = true ∧ before = false) := by
      rintro ⟨rfl, hend, -⟩
      have hstay : t.isAnyKw listEnd = false := h t List.mem_cons_self
      rw [listEnd, hend] at hstay
      cases hstay
    rw [List.cons_append, cutParameters, if_neg hpass, ih hlater]
    rfl

/-- The part of a parameter that the scans for its end pass. -/
structure IsPart (ts : List Token) : Prop where
  balanced : isBalanced ts = true
  no_comma : .comma ∉ outside 0 ts
  no_end : Avoids listEnd ts

namespace IsPart

theorem nil : IsPart [] :=
  ⟨rfl, List.not_mem_nil, fun _ ht => absurd ht List.not_mem_nil⟩

theorem append (hts : IsPart ts) (hus : IsPart us) : IsPart (ts ++ us) where
  balanced := isBalanced_append hts.balanced hus.balanced
  no_comma := by
    rw [outside_append, closes_of_isBalanced hts.balanced, List.mem_append, not_or]
    exact ⟨hts.no_comma, hus.no_comma⟩
  no_end := hts.no_end.append (closes_of_isBalanced hts.balanced) hus.no_end

theorem single (hplain : t.isPlain = true) (hcomma : t ≠ .comma)
    (hend : t.isAnyKw listEnd = false) : IsPart [t] where
  balanced := isBalanced_plain hplain
  no_comma := by simpa [outside] using hcomma.symm
  no_end := by simpa [Avoids, outside] using hend

theorem group {inner : List Token} (h : isBalanced inner = true) : IsPart (parens inner) where
  balanced := isBalanced_parens h
  no_comma := by
    rw [outside_parens h]
    simp
  no_end := by
    unfold Avoids
    rw [outside_parens h]
    simp [isAnyKw]

theorem flatMap {α : Type} {tokens : α → List Token} {xs : List α}
    (h : ∀ x ∈ xs, IsPart (tokens x)) : IsPart (xs.flatMap tokens) := by
  induction xs with
  | nil => exact nil
  | cons x xs ih =>
    rw [List.forall_mem_cons] at h
    rw [List.flatMap_cons]
    exact h.1.append (ih h.2)

end IsPart

theorem WrittenType.isPart_tokens (type : WrittenType) : IsPart type.tokens := by
  have hpart : ∀ part ∈ type.name.first :: type.name.others, IsPart [.word part.1 part.2] :=
    fun part hpart => .single rfl (by simp) (type.no_word part hpart)
  rw [List.forall_mem_cons] at hpart
  have hothers : IsPart (type.name.others.flatMap fun part => [.period, .word part.1 part.2]) :=
    .flatMap fun part hmem => (IsPart.single rfl (by simp) rfl).append (hpart.2 part hmem)
  refine (hpart.1.append hothers).append ?_
  cases type.arguments with
  | none => exact .nil
  | some arguments => exact .group (isBalanced_arguments arguments)

theorem DefaultValue.isPart_tokens (value : DefaultValue) : IsPart value.tokens where
  balanced := value.balanced
  no_comma := value.no_comma
  no_end t ht := isAnyKw_eq_false_of_subset (value.no_word t ht) (by decide)

theorem isPart_flag (flag : Keyword flagWords) : IsPart [flag.1] :=
  .single (isPlain_of_isAnyKw flag.2) (ne_of_isAnyKw flag.2 rfl)
    (isAnyKw_eq_false_of_disjoint flag.2 (by decide))

theorem WrittenParameter.isPart_tail (p : WrittenParameter) : IsPart p.tail := by
  have hvalue : IsPart (p.value.elim [] (.equals :: ·.tokens)) := by
    cases p.value with
    | none => exact .nil
    | some value => exact (IsPart.single rfl (by simp) rfl).append value.isPart_tokens
  have hflags : IsPart (p.flags.map (·.1)) := by
    rw [List.map_eq_flatMap]
    exact .flatMap fun flag _ => isPart_flag flag
  exact p.type.isPart_tokens.append (hvalue.append hflags)

/-- The scan for the end of the parameters passes the list, whatever stands before and after it. -/
def Passes (ts : List Token) : Prop :=
  ∀ before rest, cutParameters before 0 (ts ++ rest) =
    carry ts (cutParameters (endsWithVariable before ts) 0 rest)

theorem passes_nil : Passes [] :=
  fun _ _ => rfl

theorem Passes.append (hts : Passes ts) (hus : Passes us) : Passes (ts ++ us) := by
  intro before rest
  rw [List.append_assoc, hts, hus, carry_append, endsWithVariable_append]

theorem IsPart.passes (h : IsPart ts) : Passes ts := by
  intro before rest
  rw [cutParameters_append h.no_end, closes_of_isBalanced h.balanced]

/-- The `AS` between a name and its type ends no parameters. -/
theorem passes_nameAs (name : String) (asWord : Option (Keyword ["AS"])) :
    Passes (.word ("@" ++ name) false :: (asWord.map (·.1)).toList) := by
  have hname : IsPart [.word ("@" ++ name) false] :=
    .single rfl (by simp) (isAnyKw_eq_false_of_isVariable (isVariable_at name) (by decide))
  cases asWord with
  | none => exact hname.passes
  | some word =>
    intro before rest
    have hword : cutParameters true 0 (word.1 :: rest) =
        carry [word.1] (cutParameters word.1.isVariable 0 rest) := by
      rw [cutParameters, if_neg (by simp), depthAfter_of_isAnyKw word.2]
      rfl
    have hscan := hname.passes before (word.1 :: rest)
    rw [endsWithVariable, isVariable_at, endsWithVariable, hword, ← carry_append] at hscan
    exact hscan

theorem WrittenParameter.passes_tokens (p : WrittenParameter) : Passes p.tokens :=
  (passes_nameAs p.name p.asWord).append p.isPart_tail.passes

theorem isBalanced_asWord (asWord : Option (Keyword ["AS"])) :
    isBalanced (asWord.map (·.1)).toList = true := by
  cases asWord with
  | none => rfl
  | some word => exact isBalanced_keyword word.2

theorem WrittenParameter.isBalanced_tokens (p : WrittenParameter) : isBalanced p.tokens = true := by
  have hrest : isBalanced ((p.asWord.map (·.1)).toList ++ p.tail) = true :=
    isBalanced_append (isBalanced_asWord p.asWord) p.isPart_tail.balanced
  exact hrest

theorem WrittenParameter.no_comma_tokens (p : WrittenParameter) : .comma ∉ outside 0 p.tokens := by
  have hasWord : .comma ∉ outside 0 (p.asWord.map (·.1)).toList := by
    cases p.asWord with
    | none => exact List.not_mem_nil
    | some word => simpa [outside] using (ne_of_isAnyKw word.2 rfl).symm
  have hrest : outside 0 p.tokens = .word ("@" ++ p.name) false ::
      (outside 0 (p.asWord.map (·.1)).toList ++ outside 0 p.tail) := by
    have hdepth : depthAfter 0 (.word ("@" ++ p.name) false) = 0 := rfl
    rw [tokens, outside, if_pos rfl, hdepth, outside_append,
      closes_of_isBalanced (isBalanced_asWord p.asWord)]
  rw [hrest, List.mem_cons, List.mem_append]
  rintro (hname | hmem | hmem)
  · cases hname
  · exact hasWord hmem
  · exact p.isPart_tail.no_comma hmem

theorem passes_commaSeparated (ps : List WrittenParameter) :
    Passes (commaSeparated (ps.map (·.tokens))) := by
  apply intercalate_induction passes_nil fun _ _ => Passes.append
  · exact fun before rest => rfl
  · intro part hpart
    obtain ⟨p, -, rfl⟩ := List.mem_map.mp hpart
    exact p.passes_tokens

theorem isBalanced_commaSeparated (ps : List WrittenParameter) :
    isBalanced (commaSeparated (ps.map (·.tokens))) = true := by
  apply intercalate_induction (P := fun ts => isBalanced ts = true) rfl fun _ _ => isBalanced_append
  · rfl
  · intro part hpart
    obtain ⟨p, -, rfl⟩ := List.mem_map.mp hpart
    exact p.isBalanced_tokens

theorem mapM_readParameter (ps : List WrittenParameter) :
    (ps.map (·.tokens)).mapM readParameter = .ok (ps.map (·.asRead)) := by
  induction ps with
  | nil => rfl
  | cons p ps ih =>
    rw [List.map_cons, List.mapM_cons, p.readParameter_tokens, ih]
    rfl

theorem readParameters_commaSeparated (ps : List WrittenParameter) :
    readParameters (commaSeparated (ps.map (·.tokens))) = .ok (ps.map (·.asRead)) := by
  have hsplit : splitCommas 0 (commaSeparated (ps.map (·.tokens))) = ps.map (·.tokens) := by
    apply splitCommas_intercalate
    intro part hpart
    obtain ⟨p, -, rfl⟩ := List.mem_map.mp hpart
    exact ⟨List.cons_ne_nil _ _, closes_of_isBalanced p.isBalanced_tokens, p.no_comma_tokens⟩
  have hfilter : (ps.map (·.tokens)).filter (fun part => !part.isEmpty) = ps.map (·.tokens) := by
    rw [List.filter_eq_self]
    intro part hpart
    obtain ⟨p, -, rfl⟩ := List.mem_map.mp hpart
    rfl
  rw [readParameters, hsplit, hfilter, mapM_readParameter]

theorem cutParameters_end (h : startsWithAnyKw listEnd rest = true) :
    cutParameters false 0 rest = ([], rest) := by
  cases rest with
  | nil => rfl
  | cons t ts => rw [cutParameters, if_pos ⟨rfl, h, rfl⟩]

theorem startsWithParen_of_startsWithAnyKw
    {keywords : List String} (h : startsWithAnyKw keywords ts = true) :
    startsWithParen ts = false := by
  cases ts with
  | nil => rfl
  | cons t ts =>
    cases t with
    | lparen => cases h
    | _ => rfl

theorem startsWithParen_commaSeparated
    (ps : List WrittenParameter) (h : startsWithParen rest = false) :
    startsWithParen (commaSeparated (ps.map (·.tokens)) ++ rest) = false := by
  match ps with
  | [] => exact h
  | [p] => rfl
  | p :: q :: ps => rfl

/-- Both layouts of the parameters are read up to what follows them, if no variable stands before it
that could be taken for the name of a parameter. -/
theorem parameterList_tokens
    {list : WrittenList} (hlist : list.endsInVariable = false)
    (h : startsWithAnyKw listEnd rest = true) :
    parameterList (list.tokens ++ rest) = .ok (list.parameters.map (·.asRead), rest) := by
  have hnext : startsWithParen rest = false := startsWithParen_of_startsWithAnyKw h
  cases list with
  | bare parameters =>
    have hbare : ∀ t us,
        commaSeparated (parameters.map (·.tokens)) ++ rest ≠ .lparen :: t :: us := by
      intro t us heq
      have hparen := startsWithParen_commaSeparated parameters hnext
      rw [heq] at hparen
      cases hparen
    have hvariable :
        endsWithVariable false (commaSeparated (parameters.map (·.tokens))) = false := by
      rw [endsWithVariable_false]
      exact hlist
    rw [WrittenList.tokens, parameterList_bare hbare, bareList, passes_commaSeparated, hvariable,
      cutParameters_end h, carry, List.append_nil, withRest, readParameters_commaSeparated]
    rfl
  | grouped first others =>
    obtain ⟨more, hmore⟩ : ∃ more, commaSeparated ((first :: others).map (·.tokens)) =
        .word ("@" ++ first.name) false :: more := by
      cases others with
      | nil => exact ⟨_, rfl⟩
      | cons second others => exact ⟨_, rfl⟩
    have hlist : (WrittenList.grouped first others).tokens ++ rest =
        .lparen :: (commaSeparated ((first :: others).map (·.tokens)) ++ .rparen :: rest) := by
      simp [WrittenList.tokens, parens]
    have hclose : closeParen? 0 (commaSeparated ((first :: others).map (·.tokens)) ++
        .rparen :: rest) = some (commaSeparated ((first :: others).map (·.tokens)), rest) :=
      closeParen?_of_balancedFrom (isBalanced_commaSeparated (first :: others)) rest
    have hgroup : parameterList (.lparen :: (commaSeparated ((first :: others).map (·.tokens)) ++
        .rparen :: rest)) = groupedList (commaSeparated ((first :: others).map (·.tokens)) ++
          .rparen :: rest) := by
      rw [hmore, List.cons_append, parameterList_group, if_pos (isVariable_at first.name)]
    rw [hlist, hgroup, groupedList, hclose]
    dsimp only
    rw [withRest, readParameters_commaSeparated]
    rfl

end SqlSnapshot.Header
