import Mathlib.Data.List.Forall2
import SqlSnapshot.Definition.Body
import SqlSnapshot.Definition.Header
import SqlSnapshot.Proofs.Text.LatinCase

/-!
# Spelling of tokens

Words that are no keywords may be written in brackets, and the case of Latin letters carries no
meaning.  Each token has a normal spelling, in lower case and with every word quoted that may be.
The readers of tokens commute with it, so that two lists with one normal spelling are read alike.
-/

namespace SqlSnapshot

open Text

/-- Words that the readers of headers and bodies test for one by one. -/
def singleKeywords : List String :=
  ["ALL", "ALTER", "APPLY", "AS", "AUTO", "CASE", "CREATE", "CROSS", "CURSOR", "DECLARE",
   "DEFAULT", "DELETE", "DISTINCT", "ELSE", "END", "EXCEPT", "EXEC", "EXECUTE", "FOR", "FROM",
   "FULL", "GROUP", "HASH", "INCLUDE_NULL_VALUES", "INNER", "INSERT", "INTERSECT", "INTO", "JOIN",
   "JSON", "LEFT", "LOOP", "MERGE", "ON", "OR", "OUT", "OUTER", "OUTPUT", "OVER", "PATH",
   "PERCENT", "PROC", "PROCEDURE", "READONLY", "REPLICATION", "RIGHT", "ROOT", "SELECT", "SET",
   "TIES", "TOP", "UNION", "UPDATE", "VALUES", "WITH", "WITHIN", "WITHOUT_ARRAY_WRAPPER"]

/-- The words that the readers of headers and bodies test for. -/
def keywords : List String :=
  Source.joinWords ++ Source.nonAliasWords ++ Select.listEnd ++ Select.fromEnd ++
    Select.setOperators ++ Select.notAlias ++ Select.notBeforeAlias ++ Select.valueWords ++
    Body.statementKeywords ++ singleKeywords

@[simp]
theorem mem_keywords :
    "ALL" ∈ keywords ∧ "ALTER" ∈ keywords ∧ "APPLY" ∈ keywords ∧ "AS" ∈ keywords ∧
    "AUTO" ∈ keywords ∧ "CASE" ∈ keywords ∧ "CREATE" ∈ keywords ∧ "CROSS" ∈ keywords ∧
    "CURSOR" ∈ keywords ∧ "DECLARE" ∈ keywords ∧ "DEFAULT" ∈ keywords ∧ "DELETE" ∈ keywords ∧
    "DISTINCT" ∈ keywords ∧ "ELSE" ∈ keywords ∧ "END" ∈ keywords ∧ "EXCEPT" ∈ keywords ∧
    "EXEC" ∈ keywords ∧ "EXECUTE" ∈ keywords ∧ "FOR" ∈ keywords ∧ "FROM" ∈ keywords ∧
    "FULL" ∈ keywords ∧ "GROUP" ∈ keywords ∧ "HASH" ∈ keywords ∧
    "INCLUDE_NULL_VALUES" ∈ keywords ∧ "INNER" ∈ keywords ∧ "INSERT" ∈ keywords ∧
    "INTERSECT" ∈ keywords ∧ "INTO" ∈ keywords ∧ "JOIN" ∈ keywords ∧ "JSON" ∈ keywords ∧
    "LEFT" ∈ keywords ∧ "LOOP" ∈ keywords ∧ "MERGE" ∈ keywords ∧ "ON" ∈ keywords ∧
    "OR" ∈ keywords ∧ "OUT" ∈ keywords ∧ "OUTER" ∈ keywords ∧ "OUTPUT" ∈ keywords ∧
    "OVER" ∈ keywords ∧ "PATH" ∈ keywords ∧ "PERCENT" ∈ keywords ∧ "PROC" ∈ keywords ∧
    "PROCEDURE" ∈ keywords ∧ "READONLY" ∈ keywords ∧ "REPLICATION" ∈ keywords ∧
    "RIGHT" ∈ keywords ∧ "ROOT" ∈ keywords ∧ "SELECT" ∈ keywords ∧ "SET" ∈ keywords ∧
    "TIES" ∈ keywords ∧ "TOP" ∈ keywords ∧ "UNION" ∈ keywords ∧ "UPDATE" ∈ keywords ∧
    "VALUES" ∈ keywords ∧ "WITH" ∈ keywords ∧ "WITHIN" ∈ keywords ∧
    "WITHOUT_ARRAY_WRAPPER" ∈ keywords := by
  have h : ∀ word ∈ singleKeywords, word ∈ keywords := fun word hword => by simp [keywords, hword]
  simpa [singleKeywords] using h

@[simp]
theorem subset_keywords :
    Source.joinWords ⊆ keywords ∧ Source.nonAliasWords ⊆ keywords ∧ Select.listEnd ⊆ keywords ∧
    Select.fromEnd ⊆ keywords ∧ Select.setOperators ⊆ keywords ∧ Select.notAlias ⊆ keywords ∧
    Select.notBeforeAlias ⊆ keywords ∧ Select.valueWords ⊆ keywords ∧
    Body.statementKeywords ⊆ keywords := by
  refine ⟨?_, ?_, ?_, ?_, ?_, ?_, ?_, ?_, ?_⟩ <;> intro word hword <;> simp [keywords, hword]

namespace Token

/-- A word that means the same in brackets: it is no keyword and no variable. -/
def isOrdinary (text : String) : Bool :=
  !keywords.contains (asciiUpper text) && !(text.toList.head? == some '@')

/-- The second token is the first one, but an unquoted word may have the case of its letters
changed, and an ordinary one may be put in brackets as well. -/
inductive Respelled : Token → Token → Prop where
  | same (t : Token) : Respelled t t
  | recased {text other : String} (hcase : asciiLower text = asciiLower other) :
      Respelled (.word text false) (.word other false)
  | bracketed {text other : String} (hordinary : isOrdinary text = true)
      (hcase : asciiLower text = asciiLower other) : Respelled (.word text false) (.word other true)

/-- The normal spelling of a token. -/
def normal : Token → Token
  | .word text quoted => .word (asciiLower text) (quoted || isOrdinary text)
  | .str value => .str (asciiLower value)
  | .num digits => .num (asciiLower digits)
  | t => t

theorem isOrdinary_asciiLower (text : String) : isOrdinary (asciiLower text) = isOrdinary text := by
  rw [isOrdinary, isOrdinary, asciiUpper_asciiLower, head?_asciiLower (by decide) (by decide)]

theorem isOrdinary_congr {text other : String} (h : asciiLower text = asciiLower other) :
    isOrdinary text = isOrdinary other := by
  rw [← isOrdinary_asciiLower text, h, isOrdinary_asciiLower]

theorem isAnyKw_asciiLower (text : String) (quoted : Bool) (tested : List String) :
    isAnyKw (.word (asciiLower text) quoted) tested = isAnyKw (.word text quoted) tested := by
  cases quoted <;> simp [isAnyKw]

/-- An ordinary word passes no test for keywords. -/
theorem isAnyKw_of_isOrdinary
    {text : String} {tested : List String} (h : tested ⊆ keywords)
    (hordinary : isOrdinary text = true) :
    isAnyKw (.word text false) tested = false := by
  have hfree : asciiUpper text ∉ keywords := by
    simp only [isOrdinary, Bool.and_eq_true, Bool.not_eq_true', List.contains_eq_mem,
      decide_eq_false_iff_not] at hordinary
    exact hordinary.1
  have htested : asciiUpper text ∉ tested := fun hmem => hfree (h hmem)
  simp [isAnyKw, htested]

theorem head?_of_isOrdinary {text : String} (hordinary : isOrdinary text = true) :
    (text.toList.head? == some '@') = false := by
  simp only [isOrdinary, Bool.and_eq_true, Bool.not_eq_true'] at hordinary
  exact hordinary.2

theorem normal_of_isOrdinary {text : String} (hordinary : isOrdinary text = true) :
    normal (.word text false) = .word (asciiLower text) true := by
  rw [normal, hordinary]
  rfl

theorem normal_of_not_isOrdinary {text : String} (hordinary : isOrdinary text = false) :
    normal (.word text false) = .word (asciiLower text) false := by
  rw [normal, hordinary]
  rfl

theorem Respelled.normal_eq {t u : Token} (h : Respelled t u) : t.normal = u.normal := by
  cases h with
  | same => rfl
  | recased hcase => rw [normal, normal, hcase, isOrdinary_congr hcase]
  | bracketed hordinary hcase => rw [normal, normal, hordinary, hcase]; rfl

theorem map_normal_eq {ts us : List Token} (h : List.Forall₂ Respelled ts us) :
    ts.map normal = us.map normal := by
  induction h with
  | nil => rfl
  | cons hhead _ ih => rw [List.map_cons, List.map_cons, hhead.normal_eq, ih]

/-! ## Tests of one token -/

section Tests

variable (t : Token)

@[simp] theorem normal_word (text : String) (quoted : Bool) :
    normal (.word text quoted) = .word (asciiLower text) (quoted || isOrdinary text) := rfl

@[simp] theorem normal_str (value : String) : normal (.str value) = .str (asciiLower value) := rfl

@[simp] theorem normal_num (digits : String) :
    normal (.num digits) = .num (asciiLower digits) := rfl

@[simp] theorem normal_lparen : normal .lparen = .lparen := rfl

@[simp] theorem normal_rparen : normal .rparen = .rparen := rfl

@[simp] theorem normal_comma : normal .comma = .comma := rfl

@[simp] theorem normal_period : normal .period = .period := rfl

@[simp] theorem normal_equals : normal .equals = .equals := rfl

@[simp] theorem normal_semicolon : normal .semicolon = .semicolon := rfl

@[simp] theorem normal_star : normal .star = .star := rfl

@[simp] theorem normal_other (text : String) : normal (.other text) = .other text := rfl

@[simp] theorem normal_eq_lparen : t.normal = .lparen ↔ t = .lparen := by cases t <;> simp [normal]

@[simp] theorem normal_eq_rparen : t.normal = .rparen ↔ t = .rparen := by cases t <;> simp [normal]

@[simp] theorem normal_eq_comma : t.normal = .comma ↔ t = .comma := by cases t <;> simp [normal]

@[simp] theorem normal_eq_period : t.normal = .period ↔ t = .period := by cases t <;> simp [normal]

@[simp] theorem normal_eq_equals : t.normal = .equals ↔ t = .equals := by cases t <;> simp [normal]

@[simp] theorem normal_eq_semicolon : t.normal = .semicolon ↔ t = .semicolon := by
  cases t <;> simp [normal]

@[simp]
theorem isAnyKw_normal {tested : List String} (h : tested ⊆ keywords) :
    t.normal.isAnyKw tested = t.isAnyKw tested := by
  cases t with
  | word text quoted =>
    cases quoted with
    | true => rfl
    | false =>
      cases hordinary : isOrdinary text with
      | true =>
        rw [isAnyKw_of_isOrdinary h hordinary, normal_of_isOrdinary hordinary]
        rfl
      | false => rw [normal_of_not_isOrdinary hordinary, isAnyKw_asciiLower]
  | _ => rfl

@[simp]
theorem isKw_normal {keyword : String} (h : keyword ∈ keywords) :
    t.normal.isKw keyword = t.isKw keyword :=
  isAnyKw_normal t (List.cons_subset.mpr ⟨h, List.nil_subset _⟩)

@[simp]
theorem isVariable_normal : t.normal.isVariable = t.isVariable := by
  cases t with
  | word text quoted =>
    cases quoted with
    | true => rfl
    | false =>
      cases hordinary : isOrdinary text with
      | true =>
        rw [normal_of_isOrdinary hordinary]
        exact (head?_of_isOrdinary hordinary).symm
      | false =>
        rw [normal_of_not_isOrdinary hordinary]
        exact head?_asciiLower (by decide) (by decide) text
  | _ => rfl

@[simp]
theorem isWord_normal : t.normal.isWord = t.isWord := by cases t <;> rfl

@[simp]
theorem depthAfter_normal (depth : Nat) : depthAfter depth t.normal = depthAfter depth t := by
  cases t <;> rfl

variable (ts : List Token)

@[simp]
theorem startsWithKw_normal {keyword : String} (h : keyword ∈ keywords) :
    startsWithKw keyword (ts.map normal) = startsWithKw keyword ts := by
  cases ts with
  | nil => rfl
  | cons t ts => exact isKw_normal t h

@[simp]
theorem startsWithAnyKw_normal {tested : List String} (h : tested ⊆ keywords) :
    startsWithAnyKw tested (ts.map normal) = startsWithAnyKw tested ts := by
  cases ts with
  | nil => rfl
  | cons t ts => exact isAnyKw_normal t h

@[simp]
theorem startsWithParen_normal : startsWithParen (ts.map normal) = startsWithParen ts := by
  cases ts with
  | nil => rfl
  | cons t ts => cases t <;> rfl

theorem dropKw_normal {keyword : String} (h : keyword ∈ keywords) (ts : List Token) :
    (if startsWithKw keyword (ts.map normal) then (ts.map normal).drop 1 else ts.map normal) =
      (if startsWithKw keyword ts then ts.drop 1 else ts).map normal := by
  rw [startsWithKw_normal ts h]
  split
  · exact List.map_drop.symm
  · rfl

end Tests

/-! ## Parentheses -/

/-- The normal spelling of two parts of a list. -/
def normalBoth : List Token × List Token → List Token × List Token :=
  Prod.map (List.map normal) (List.map normal)

@[simp]
theorem normalBoth_mk (front rest : List Token) :
    normalBoth (front, rest) = (front.map normal, rest.map normal) := rfl

@[simp]
theorem normalBoth_fst (parts : List Token × List Token) :
    (normalBoth parts).1 = parts.1.map normal := rfl

@[simp]
theorem normalBoth_snd (parts : List Token × List Token) :
    (normalBoth parts).2 = parts.2.map normal := rfl

theorem closeParen?_normal (depth : Nat) (ts : List Token) :
    closeParen? depth (ts.map normal) = (closeParen? depth ts).map normalBoth := by
  fun_induction closeParen? depth ts with
  | case1 => rfl
  | case2 ts => rfl
  | case3 ts depth ih => simp [closeParen?, ih, Function.comp_def]
  | case4 depth ts ih => simp [closeParen?, ih, Function.comp_def]
  | case5 depth t ts hr hl ih => cases t <;> simp_all [closeParen?, Function.comp_def, normal]

theorem splitCommas_normal (depth : Nat) (ts : List Token) :
    splitCommas depth (ts.map normal) = (splitCommas depth ts).map (List.map normal) := by
  induction ts generalizing depth with
  | nil => rfl
  | cons t ts ih =>
    have hfirst : ∀ parts : List (List Token),
        consFirst t.normal (parts.map (List.map normal)) =
          (consFirst t parts).map (List.map normal) := by
      rintro (_ | ⟨p, parts⟩) <;> rfl
    simp only [List.map_cons, splitCommas, normal_eq_comma, depthAfter_normal, ih, hfirst]
    split <;> rfl

theorem cutAtKw_normal
    {tested : List String} (h : tested ⊆ keywords) (depth : Nat) (ts : List Token) :
    cutAtKw tested depth (ts.map normal) = normalBoth (cutAtKw tested depth ts) := by
  induction ts generalizing depth with
  | nil => rfl
  | cons t ts ih =>
    simp only [List.map_cons, cutAtKw, isAnyKw_normal t h, depthAfter_normal, ih]
    split <;> rfl

theorem upToKw_normal {tested : List String} (h : tested ⊆ keywords) (ts : List Token) :
    upToKw tested (ts.map normal) = (upToKw tested ts).map normal := by
  rw [upToKw, cutAtKw_normal h]
  rfl

theorem fromKw_normal {tested : List String} (h : tested ⊆ keywords) (ts : List Token) :
    fromKw tested (ts.map normal) = (fromKw tested ts).map normal := by
  rw [fromKw, cutAtKw_normal h]
  rfl

theorem skipGroup?_normal (ts : List Token) :
    skipGroup? (ts.map normal) = (skipGroup? ts).map (List.map normal) := by
  cases ts with
  | nil => rfl
  | cons t ts =>
    cases t <;> simp [skipGroup?, closeParen?_normal, normal, Function.comp_def, normalBoth]

/-! ## Names and types -/

theorem readNameTail_normal (ts : List Token) :
    readNameTail (ts.map normal) =
      ((readNameTail ts).1.map asciiLower, (readNameTail ts).2.map normal) := by
  fun_induction readNameTail ts with
  | case1 text quoted ts parts rest hrest ih => simp [readNameTail, ih, hrest]
  | case2 ts hname =>
    match ts with
    | [] => rfl
    | [t] => cases t <;> rfl
    | t :: u :: ts =>
      cases t with
      | period => cases u <;> simp_all [readNameTail, normal]
      | _ => simp [readNameTail, normal]

/-- A name in lower case and the normal spelling of what follows it. -/
def normalName : List String × List Token → List String × List Token :=
  Prod.map (List.map asciiLower) (List.map normal)

theorem readName?_normal (ts : List Token) :
    readName? (ts.map normal) = (readName? ts).map normalName := by
  cases ts with
  | nil => rfl
  | cons t ts => cases t <;> simp [readName?, readNameTail_normal, normal, normalName]

theorem typeArgument_normal (t : Token) : typeArgument t.normal = asciiLower (typeArgument t) := by
  cases t <;> simp [typeArgument, normal] <;> rfl

/-- A type in lower case and the normal spelling of what follows it. -/
def normalType : String × List Token → String × List Token :=
  Prod.map asciiLower (List.map normal)

/-- The text of a type reference before its arguments. -/
def typeName (parts : List String) : String :=
  match parts with
  | [name] => lower name
  | _ => ".".intercalate parts

def typeWithArguments (parts : List String) (arguments : List Token) : String :=
  typeName parts ++ "(" ++ String.join (arguments.map typeArgument) ++ ")"

/-- The type whose name is read already. -/
def finishType? (name : List String × List Token) : Option (String × List Token) :=
  match name.2 with
  | .lparen :: rest =>
    (closeParen? 0 rest).map fun found => (typeWithArguments name.1 found.1, found.2)
  | rest => some (typeName name.1, rest)

theorem readType?_eq (ts : List Token) : readType? ts = (readName? ts).bind finishType? := by
  rw [readType?]
  congr 1
  funext ⟨parts, rest⟩
  cases rest with
  | nil => rfl
  | cons t rest =>
    cases t with
    | lparen =>
      show (closeParen? 0 rest).bind _ = (closeParen? 0 rest).map _
      rw [Option.map_eq_bind]
      rfl
    | _ => rfl

theorem typeName_normal (parts : List String) :
    typeName (parts.map asciiLower) = asciiLower (typeName parts) := by
  match parts with
  | [] => rfl
  | [name] => simp [typeName]
  | a :: b :: parts => exact (asciiLower_intercalate "." (a :: b :: parts)).symm

theorem typeWithArguments_normal (parts : List String) (arguments : List Token) :
    typeWithArguments (parts.map asciiLower) (arguments.map normal) =
      asciiLower (typeWithArguments parts arguments) := by
  have harguments : (arguments.map normal).map typeArgument =
      (arguments.map typeArgument).map asciiLower := by
    simp [typeArgument_normal]
  simp only [typeWithArguments, typeName_normal, harguments, asciiLower_append, asciiLower_join]
  rfl

theorem finishType?_normal (name : List String × List Token) :
    finishType? (normalName name) = (finishType? name).map normalType := by
  obtain ⟨parts, rest⟩ := name
  cases rest with
  | nil => simp [finishType?, normalName, normalType, typeName_normal]
  | cons t rest =>
    cases t with
    | lparen =>
      simp [finishType?, normalName, normalType, closeParen?_normal, typeWithArguments_normal,
        Function.comp_def]
    | _ => simp [finishType?, normalName, normalType, typeName_normal]

theorem readType?_normal (ts : List Token) :
    readType? (ts.map normal) = (readType? ts).map normalType := by
  rw [readType?_eq, readType?_eq, readName?_normal]
  cases readName? ts with
  | none => rfl
  | some name => exact finishType?_normal name

end Token

end SqlSnapshot
