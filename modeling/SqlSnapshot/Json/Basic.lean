/-!
# JSON values

The documents of this library are JSON texts.  An object is the list of its members in the order
in which they are written.  Numbers are integers: no field takes anything else, so a number with a
fraction or an exponent is kept only as `decimal`.
-/

namespace SqlSnapshot

inductive Json where
  | null
  | bool (value : Bool)
  | int (value : Int)
  /-- A number written with a fraction or an exponent, or as `-0`. -/
  | decimal
  | text (value : String)
  | array (items : List Json)
  | object (members : List (String × Json))
  /-- Grammatical text without a value: a string with half of a surrogate pair, a number too
  large to represent, or an object with such a string as a name. -/
  | unreadable
deriving Inhabited

namespace Json

/-- The deepest nesting of arrays and objects in a document. -/
def nestingLimit : Nat := 127

mutual

/-- No part of the value is unreadable. -/
def isReadable : Json → Bool
  | .unreadable => false
  | .array items => allReadable items
  | .object members => membersReadable members
  | _ => true

def allReadable : List Json → Bool
  | [] => true
  | v :: vs => v.isReadable && allReadable vs

def membersReadable : List (String × Json) → Bool
  | [] => true
  | (_, v) :: ms => v.isReadable && membersReadable ms

end

/-- Of several members of one name the last counts, in the place of the first. -/
def putMember (name : String) (value : Json) : List (String × Json) → List (String × Json)
  | [] => [(name, value)]
  | (k, v) :: ms => if k = name then (k, value) :: ms else (k, v) :: putMember name value ms

mutual

/-- The value in which every object has each name once. -/
def distinctNames : Json → Json
  | .array items => .array (distinctItems items)
  | .object members => .object (distinctMembers [] members)
  | v => v

def distinctItems : List Json → List Json
  | [] => []
  | v :: vs => v.distinctNames :: distinctItems vs

def distinctMembers (done : List (String × Json)) : List (String × Json) → List (String × Json)
  | [] => done
  | (k, v) :: ms => distinctMembers (putMember k v.distinctNames done) ms

end

def insertMember (m : String × Json) : List (String × Json) → List (String × Json)
  | [] => [m]
  | n :: ns => if m.1 < n.1 then m :: n :: ns else n :: insertMember m ns

mutual

/-- The value in which the members of every object stand in the order of their names. -/
def sortNames : Json → Json
  | .array items => .array (sortItems items)
  | .object members => .object (sortMembers members)
  | v => v

def sortItems : List Json → List Json
  | [] => []
  | v :: vs => v.sortNames :: sortItems vs

def sortMembers : List (String × Json) → List (String × Json)
  | [] => []
  | (k, v) :: ms => insertMember (k, v.sortNames) (sortMembers ms)

end

end Json

end SqlSnapshot
