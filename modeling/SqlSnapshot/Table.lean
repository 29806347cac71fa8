import SqlSnapshot.Json.Decode
import SqlSnapshot.Text.Blank
import SqlSnapshot.Text.Case

/-!
# Tables

The columns of a table as the catalog describes them, the text of a column's type, and the length
that such a text gives.  Lengths are stored in bytes; for types with two bytes to the character they
are counted in characters here.
-/

namespace SqlSnapshot

/-- `maxLength` counts bytes and is -1 for `max`. -/
structure TableColumn where
  name : String
  typeName : String
  maxLength : Option Int
  precision : Option Nat
  scale : Option Nat
  isNullable : Bool
deriving DecidableEq, Repr, Inhabited

/-- The types that are written with a length, and whether a character takes two bytes. -/
def lengthTypes : List (String × Bool) :=
  [("nvarchar", true), ("nchar", true), ("varchar", false), ("char", false), ("varbinary", false),
   ("binary", false)]

/-- The decimal text of a length, or `max`. -/
def lengthText (length : Int) : String :=
  if length = -1 then "max" else toString length

namespace TableColumn

def baseType (c : TableColumn) : String :=
  Text.asciiLower c.typeName

/-- The declared length in characters, for types that have one. -/
def charLength (c : TableColumn) : Option Int := do
  let length ← c.maxLength
  let wide ← lengthTypes.lookup c.baseType
  return if wide && 0 < length then length / 2 else length

/-- The type as it is written in a definition. -/
def sqlTypeName (c : TableColumn) : String :=
  let base := c.baseType
  if (lengthTypes.lookup base).isSome then
    match c.charLength with
    | some length => s!"{base}({lengthText length})"
    | none => base
  else if base = "decimal" ∨ base = "numeric" then
    match c.precision, c.scale with
    | some precision, some scale => s!"{base}({precision},{scale})"
    | _, _ => base
  else if base = "datetime2" ∨ base = "datetimeoffset" ∨ base = "time" then
    match c.scale with
    | some scale => s!"{base}({scale})"
    | none => base
  else base

def toJson (c : TableColumn) : Json :=
  .object (Json.field "name" (.text c.name) ++ Json.field "typeName" (.text c.typeName) ++
    Json.fieldSome "maxLength" c.maxLength .int ++ Json.fieldSome "precision" c.precision .ofNat ++
    Json.fieldSome "scale" c.scale .ofNat ++ Json.field "isNullable" (.bool c.isNullable))

def ofJson? (j : Json) : Option TableColumn := do
  let r ← j.asRecord? ["name", "typeName", "maxLength", "precision", "scale", "isNullable"]
  return {
    name := ← r.required "name" Json.asText?
    typeName := ← r.required "typeName" Json.asText?
    maxLength := ← r.maybe "maxLength" Json.asInt32?
    precision := ← r.maybe "precision" (Json.asNatBelow? UInt8.size)
    scale := ← r.maybe "scale" (Json.asNatBelow? UInt8.size)
    isNullable := ← r.required "isNullable" Json.asBool? }

end TableColumn

/-! ## Lengths in type texts -/

/-- The value of decimal digits; none if there is another character or no digit at all. -/
def digitsValue? (cs : List Char) : Option Nat :=
  if cs.isEmpty then none
  else cs.foldlM (fun n c => if '0' ≤ c ∧ c ≤ '9' then some (n * 10 + (c.toNat - 48)) else none) 0

/-- An integer of 32 bits as text, with or without a sign. -/
def integerValue? (cs : List Char) : Option Int := do
  let n : Int ← match cs with
    | '-' :: ds => (digitsValue? ds).map fun n => -(n : Int)
    | '+' :: ds => (digitsValue? ds).map fun n => (n : Int)
    | ds => (digitsValue? ds).map fun n => (n : Int)
  if -2147483648 ≤ n ∧ n ≤ 2147483647 then some n else none

/-- The length that stands in a type text, for types that are written with one. -/
def typeLength? (sqlType : String) : Option Int := do
  let cs := sqlType.toList
  let before := cs.takeWhile (· != '(')
  let _ :: after := cs.dropWhile (· != '(') | none
  let _ ← lengthTypes.lookup (Text.asciiLower (String.ofList (Text.trimBoth Text.isBlank before)))
  let argument := Text.trimBoth Text.isBlank (Text.trimEnd (· == ')') after)
  if Text.sameAscii (String.ofList argument) "max" then some (-1) else integerValue? argument

example : typeLength? "nvarchar(50)" = some 50 ∧ typeLength? "varchar(max)" = some (-1) ∧
    typeLength? "decimal(18,2)" = none := by
  decide +kernel

structure Table where
  schema : String
  name : String
  columns : List TableColumn
deriving DecidableEq, Repr, Inhabited

namespace Table

/-- The first column of the given name. -/
def column? (columns : List TableColumn) (name : String) : Option TableColumn :=
  columns.find? fun c => Text.sameAscii c.name name

def toJson (t : Table) : Json :=
  .object (Json.field "schema" (.text t.schema) ++ Json.field "name" (.text t.name) ++
    Json.field "columns" (Json.ofList TableColumn.toJson t.columns))

def ofJson? (j : Json) : Option Table := do
  let r ← j.asRecord? ["schema", "name", "columns"]
  return {
    schema := ← r.required "schema" Json.asText?
    name := ← r.required "name" Json.asText?
    columns := ← r.required "columns" (Json.asList? TableColumn.ofJson?) }

end Table

end SqlSnapshot
