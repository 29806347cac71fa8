/-!
# Parse errors

Why a definition cannot be read statement by statement.  A parse error is no error of a build: the
procedure is then searched for keywords.
-/

namespace SqlSnapshot

/-- What keeps a text from being cut into tokens. -/
inductive LexFault where
  | unterminatedString
  | unclosedName (close : Char)
  | unclosedComment
  | unexpectedUnderscore
  | unterminatedDollarString
  | unterminatedTaggedString
deriving DecidableEq, Repr, Inhabited

def LexFault.message : LexFault → String
  | .unterminatedString => "Unterminated string literal"
  | .unclosedName close => s!"Expected close delimiter '{close}' before EOF."
  | .unclosedComment => "Unexpected EOF while in a multi-line comment"
  | .unexpectedUnderscore => "Unexpected character '_'"
  | .unterminatedDollarString => "Unterminated dollar-quoted string"
  | .unterminatedTaggedString => "Unterminated dollar-quoted, expected $"

inductive ParseError where
  | lexical (fault : LexFault) (line column : Nat)
  | unbalancedParentheses
  | expectedCreate
  | expectedOrAlter
  | missingName
  | unterminatedParameters
  | expectedBody
  | expectedParameterName
  | missingParameterType (parameter : String)
  | emptySelectList
deriving DecidableEq, Repr, Inhabited

namespace ParseError

def reason : ParseError → String
  | .lexical fault _ _ => fault.message
  | .unbalancedParentheses => "unbalanced parentheses"
  | .expectedCreate => "expected CREATE PROCEDURE"
  | .expectedOrAlter => "expected OR ALTER"
  | .missingName => "missing procedure name"
  | .unterminatedParameters => "unterminated parameter list"
  | .expectedBody => "expected AS before procedure body"
  | .expectedParameterName => "expected parameter name"
  | .missingParameterType parameter => s!"missing type for parameter {parameter}"
  | .emptySelectList => "SELECT statement without a select list"

def message (e : ParseError) : String :=
  match e with
  | .lexical _ line column => s!"Parse error at line {line}, column {column}: {e.reason}"
  | _ => s!"Parse error: {e.reason}"

end ParseError

end SqlSnapshot
