import SqlSnapshot.Json.Decode
import SqlSnapshot.SortedDistinct
import SqlSnapshot.Text.Blank
import SqlSnapshot.Text.Case

/-!
# Object names

A `Descriptor` names a stored procedure by schema and name.  Two descriptors name the same
procedure when they agree up to case, character by character; `compare` orders them by the same
reading of the names.  `objectKey` is a second, textual identity: schema and name in lower case,
joined by a dot.
-/

namespace SqlSnapshot

structure Descriptor where
  schema : String
  name : String
deriving DecidableEq, Repr, Inhabited

def defaultSchema : String := "dbo"

/-- The key under which a catalog object is looked up. -/
def objectKey (schema name : String) : String :=
  Text.lower schema ++ "." ++ Text.lower name

/-- Order of two names by their characters in lower case. -/
def compareNames (a b : String) : Ordering :=
  compareOfLessAndEq (Text.caseKey a) (Text.caseKey b)

namespace Descriptor

def key (d : Descriptor) : String :=
  objectKey d.schema d.name

def display (d : Descriptor) : String :=
  d.schema ++ "." ++ d.name

def compare (a b : Descriptor) : Ordering :=
  (compareNames a.schema b.schema).then (compareNames a.name b.name)

def same (a b : Descriptor) : Bool :=
  a.compare b == .eq

def isBefore (a b : Descriptor) : Bool :=
  a.compare b == .lt

def isAtMost (a b : Descriptor) : Bool :=
  a.compare b != .gt

/-- The descriptors in increasing order, of each procedure the first. -/
def sortedDistinct (ds : List Descriptor) : List Descriptor :=
  sortedDistinctBy isAtMost same ds

/-- Keeps the first of the descriptors that name the same procedure, in their order. -/
def distinct (ds : List Descriptor) : List Descriptor :=
  ds.foldl (fun seen d => if seen.any (·.same d) then seen else seen ++ [d]) []

/-! ## Qualified names as text -/

/-- Cuts at the first dot outside square brackets. -/
def splitQualified? (depth : Nat) : List Char → Option (List Char × List Char)
  | [] => none
  | c :: cs =>
    if c = '.' ∧ depth = 0 then some ([], cs)
    else
      let depth := if c = '[' then depth + 1 else if c = ']' then depth - 1 else depth
      (splitQualified? depth cs).map fun (before, after) => (c :: before, after)

/-- The text between an opening bracket at its start and a closing one at its end. -/
def betweenBrackets? : List Char → Option (List Char)
  | '[' :: cs => if cs.getLast? = some ']' then some cs.dropLast else none
  | _ => none

def unbracket (cs : List Char) : String :=
  let trimmed := Text.trimBoth Text.isBlank cs
  String.ofList ((betweenBrackets? trimmed).getD trimmed)

/-- Reads `schema.name`; none if there is no schema. -/
def parseQualified? (s : String) : Option Descriptor :=
  (splitQualified? 0 (Text.trimBoth Text.isBlank s.toList)).map fun (schema, name) =>
    ⟨unbracket schema, unbracket name⟩

/-- Reads `schema.name`, or a name alone in the default schema. -/
def parse (s : String) : Descriptor :=
  (parseQualified? s).getD ⟨defaultSchema, unbracket s.toList⟩

def quotePart (s : String) : List Char :=
  '[' :: (s.toList.flatMap (fun c => if c = ']' then [']', ']'] else [c]) ++ [']'])

/-- The name in square brackets, where a closing bracket inside is written twice. -/
def quoted (d : Descriptor) : String :=
  String.ofList (quotePart d.schema ++ '.' :: quotePart d.name)

/-! ## Documents -/

def toJson (d : Descriptor) : Json :=
  .object (Json.field "schema" (.text d.schema) ++ Json.field "name" (.text d.name))

def ofJson? (j : Json) : Option Descriptor := do
  let r ← j.asRecord? ["schema", "name"]
  return ⟨← r.required "schema" Json.asText?, ← r.required "name" Json.asText?⟩

end Descriptor

end SqlSnapshot
