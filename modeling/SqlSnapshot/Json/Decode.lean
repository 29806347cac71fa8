import SqlSnapshot.Json.Basic

/-!
# Reading typed values

A record is written as an object or as the array of its fields in order.  In an object a known
field may stand once; other names are ignored.  A field that may be absent takes its default, and
`null` stands for the absent value of an optional field only.
-/

namespace SqlSnapshot.Json

def asBool? : Json → Option Bool
  | .bool b => some b
  | _ => none

def asText? : Json → Option String
  | .text s => some s
  | _ => none

/-- An integer between `lo` and `hi`. -/
def asIntIn? (lo hi : Int) : Json → Option Int
  | .int n => if lo ≤ n ∧ n ≤ hi then some n else none
  | _ => none

def asInt32? (j : Json) : Option Int :=
  j.asIntIn? (-2147483648) 2147483647

def asNatBelow? (bound : Nat) (j : Json) : Option Nat :=
  (j.asIntIn? 0 (bound - 1)).map Int.toNat

def asList? {α : Type} (item : Json → Option α) : Json → Option (List α)
  | .array items => items.mapM item
  | _ => none

/-- One of the listed names, as a text or as the only name of an object without a value. -/
def asChoice? {α : Type} (choices : List (String × α)) : Json → Option α
  | .text s => choices.lookup s
  | .object [(s, .null)] => choices.lookup s
  | _ => none

/-- The fields of a record by name. -/
abbrev Record := String → Option Json

def asRecord? (names : List String) : Json → Option Record
  | .object members =>
    let known := members.filter fun m => names.contains m.1
    if (known.map (·.1)).Nodup then some fun name => known.lookup name else none
  | .array items =>
    if items.length ≤ names.length then some fun name => (names.zip items).lookup name else none
  | _ => none

namespace Record

def required {α : Type} (r : Record) (name : String) (read : Json → Option α) : Option α :=
  r name >>= read

/-- A field that takes `dflt` when it is absent. -/
def withDefault {α : Type} (r : Record) (name : String) (dflt : α) (read : Json → Option α) :
    Option α :=
  match r name with
  | none => some dflt
  | some v => read v

/-- A field that may be absent or `null`. -/
def maybe {α : Type} (r : Record) (name : String) (read : Json → Option α) :
    Option (Option α) :=
  match r name with
  | none => some none
  | some .null => some none
  | some v => (read v).map some

end Record

/-! ## Writing members -/

def field (name : String) (value : Json) : List (String × Json) :=
  [(name, value)]

/-- A member that is left out when there is no value. -/
def fieldSome {α : Type} (name : String) (value : Option α) (write : α → Json) :
    List (String × Json) :=
  match value with
  | none => []
  | some v => [(name, write v)]

/-- A member that is left out when it is false. -/
def fieldTrue (name : String) (value : Bool) : List (String × Json) :=
  if value then [(name, .bool true)] else []

/-- A member that is left out when the list is empty. -/
def fieldItems {α : Type} (name : String) (values : List α) (write : α → Json) :
    List (String × Json) :=
  if values.isEmpty then [] else [(name, .array (values.map write))]

def ofNat (n : Nat) : Json := .int n

def ofList {α : Type} (write : α → Json) (values : List α) : Json :=
  .array (values.map write)

/-- `null` when there is no value. -/
def ofOption {α : Type} (write : α → Json) : Option α → Json
  | none => .null
  | some v => write v

end SqlSnapshot.Json
