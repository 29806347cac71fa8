import SqlSnapshot.Text.Case

/-!
# Tokens

The shapes that the analysis of a definition tells apart.  Keywords are unquoted words and compare
without regard to the case of Latin letters; a name in brackets or double quotes is never one.
-/

namespace SqlSnapshot

inductive Token where
  | word (text : String) (quoted : Bool)
  /-- A string literal, without its quotes. -/
  | str (value : String)
  | num (digits : String)
  | lparen
  | rparen
  | comma
  | period
  | equals
  | semicolon
  | star
  /-- An operator or a literal that the analysis does not look into. -/
  | other (text : String)
deriving DecidableEq, Repr, Inhabited

namespace Token

/-- One of the keywords, which are given in upper case. -/
def isAnyKw (t : Token) (keywords : List String) : Bool :=
  match t with
  | .word text false => keywords.contains (Text.asciiUpper text)
  | _ => false

def isKw (t : Token) (keyword : String) : Bool :=
  t.isAnyKw [keyword]

def word? : Token → Option String
  | .word text _ => some text
  | _ => none

def isWord : Token → Bool
  | .word _ _ => true
  | _ => false

/-- An unquoted name with a leading `@`. -/
def isVariable : Token → Bool
  | .word text false => text.toList.head? == some '@'
  | _ => false

end Token

def startsWithKw (keyword : String) : List Token → Bool
  | t :: _ => t.isKw keyword
  | [] => false

def startsWithAnyKw (keywords : List String) : List Token → Bool
  | t :: _ => t.isAnyKw keywords
  | [] => false

def startsWithParen : List Token → Bool
  | .lparen :: _ => true
  | _ => false

end SqlSnapshot
