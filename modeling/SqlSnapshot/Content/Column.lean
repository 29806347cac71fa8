import SqlSnapshot.Json.Decode

/-!
# Result columns

A result column is a tree: `ColumnFacts` is what is known of one column, and a column whose value
is a JSON document has the columns of the document below it.
-/

namespace SqlSnapshot

/-- The type of a value that is a JSON document. -/
def jsonPayloadType : String := "nvarchar(max)"

/-- How the value of a result column is produced. -/
inductive ExpressionKind where
  | columnRef
  | cast
  | functionCall
  | jsonQuery
  | aggregate
  | nestedJson
  /-- Literals, arithmetic, `CASE`, scalar sub-selects. -/
  | computed
deriving DecidableEq, Repr, Inhabited

namespace ExpressionKind

def name : ExpressionKind → String
  | .columnRef => "columnRef"
  | .cast => "cast"
  | .functionCall => "functionCall"
  | .jsonQuery => "jsonQuery"
  | .aggregate => "aggregate"
  | .nestedJson => "nestedJson"
  | .computed => "computed"

def all : List ExpressionKind :=
  [.columnRef, .cast, .functionCall, .jsonQuery, .aggregate, .nestedJson, .computed]

def ofJson? (j : Json) : Option ExpressionKind :=
  j.asChoice? (all.map fun k => (k.name, k))

end ExpressionKind

/-- `castTarget` is the target type of a cast as text, `maxLength` counts characters and is -1 for
`max`, and `forcedNullable` marks a column from the side of an outer join that may lack rows. -/
structure ColumnFacts where
  name : String := ""
  kind : ExpressionKind := .computed
  sourceSchema : Option String := none
  sourceTable : Option String := none
  sourceColumn : Option String := none
  sourceAlias : Option String := none
  castTarget : Option String := none
  sqlType : Option String := none
  maxLength : Option Int := none
  isNullable : Option Bool := none
  forcedNullable : Option Bool := none
  isNestedJson : Option Bool := none
  returnsJson : Option Bool := none
  returnsJsonArray : Option Bool := none
  isAggregate : Option Bool := none
  aggregateFunction : Option String := none
deriving DecidableEq, Repr, Inhabited

namespace ColumnFacts

def hasSourceBinding (f : ColumnFacts) : Bool :=
  f.sourceSchema.isSome && f.sourceTable.isSome && f.sourceColumn.isSome

def isJsonContainer (f : ColumnFacts) : Bool :=
  f.kind == .jsonQuery || f.kind == .nestedJson || f.isNestedJson == some true ||
    f.returnsJson == some true

def isCast (f : ColumnFacts) : Bool :=
  f.kind == .cast

end ColumnFacts

inductive Column where
  | node (facts : ColumnFacts) (children : List Column)
deriving Inhabited

namespace Column

def facts : Column → ColumnFacts
  | .node facts _ => facts

def children : Column → List Column
  | .node _ children => children

@[simp] theorem facts_node (f : ColumnFacts) (cs : List Column) : (node f cs).facts = f := rfl

@[simp] theorem children_node (f : ColumnFacts) (cs : List Column) :
    (node f cs).children = cs := rfl

def leaf (facts : ColumnFacts) : Column := .node facts []

/-- The column with its facts changed and its children kept. -/
def mapFacts (change : ColumnFacts → ColumnFacts) : Column → Column
  | .node facts children => .node (change facts) children

def named (c : Column) (name : String) : Column :=
  c.mapFacts fun f => { f with name }

mutual

def decEq : (a b : Column) → Decidable (a = b)
  | .node f cs, .node g ds =>
    if h : f = g then
      match decEqAll cs ds with
      | isTrue k => isTrue (by rw [h, k])
      | isFalse k => isFalse (by simp [k])
    else isFalse (by simp [h])

def decEqAll : (as bs : List Column) → Decidable (as = bs)
  | [], [] => isTrue rfl
  | [], _ :: _ => isFalse (by simp)
  | _ :: _, [] => isFalse (by simp)
  | a :: as, b :: bs =>
    match decEq a b, decEqAll as bs with
    | isTrue h, isTrue k => isTrue (by rw [h, k])
    | isFalse h, _ => isFalse (by simp [h])
    | _, isFalse k => isFalse (by simp [k])

end

instance : DecidableEq Column := decEq

mutual

/-- The facts of the column and of all below it, parent before children. -/
def walk : Column → List ColumnFacts
  | .node facts children => facts :: walkAll children

def walkAll : List Column → List ColumnFacts
  | [] => []
  | c :: cs => c.walk ++ walkAll cs

end

/-! ## Documents -/

def factFields (f : ColumnFacts) : List (String × Json) :=
  Json.field "name" (.text f.name) ++ Json.field "expressionKind" (.text f.kind.name) ++
  Json.fieldSome "sourceSchema" f.sourceSchema .text ++
  Json.fieldSome "sourceTable" f.sourceTable .text ++
  Json.fieldSome "sourceColumn" f.sourceColumn .text ++
  Json.fieldSome "sourceAlias" f.sourceAlias .text ++
  Json.fieldSome "castTargetType" f.castTarget .text ++
  Json.fieldSome "sqlTypeName" f.sqlType .text ++
  Json.fieldSome "maxLength" f.maxLength .int ++
  Json.fieldSome "isNullable" f.isNullable .bool ++
  Json.fieldSome "forcedNullable" f.forcedNullable .bool ++
  Json.fieldSome "isNestedJson" f.isNestedJson .bool ++
  Json.fieldSome "returnsJson" f.returnsJson .bool ++
  Json.fieldSome "returnsJsonArray" f.returnsJsonArray .bool ++
  Json.fieldSome "isAggregate" f.isAggregate .bool ++
  Json.fieldSome "aggregateFunction" f.aggregateFunction .text

mutual

def toJson : Column → Json
  | .node facts children =>
    match toJsonAll children with
    | [] => .object (factFields facts)
    | items => .object (factFields facts ++ Json.field "columns" (.array items))

def toJsonAll : List Column → List Json
  | [] => []
  | c :: cs => c.toJson :: toJsonAll cs

end

def fieldNames : List String :=
  ["name", "expressionKind", "sourceSchema", "sourceTable", "sourceColumn", "sourceAlias",
   "castTargetType", "sqlTypeName", "maxLength", "isNullable", "forcedNullable", "isNestedJson",
   "returnsJson", "returnsJsonArray", "isAggregate", "aggregateFunction", "columns"]

def readFacts? (r : Json.Record) : Option ColumnFacts := do
  return {
    name := ← r.required "name" Json.asText?
    kind := ← r.required "expressionKind" ExpressionKind.ofJson?
    sourceSchema := ← r.maybe "sourceSchema" Json.asText?
    sourceTable := ← r.maybe "sourceTable" Json.asText?
    sourceColumn := ← r.maybe "sourceColumn" Json.asText?
    sourceAlias := ← r.maybe "sourceAlias" Json.asText?
    castTarget := ← r.maybe "castTargetType" Json.asText?
    sqlType := ← r.maybe "sqlTypeName" Json.asText?
    maxLength := ← r.maybe "maxLength" Json.asInt32?
    isNullable := ← r.maybe "isNullable" Json.asBool?
    forcedNullable := ← r.maybe "forcedNullable" Json.asBool?
    isNestedJson := ← r.maybe "isNestedJson" Json.asBool?
    returnsJson := ← r.maybe "returnsJson" Json.asBool?
    returnsJsonArray := ← r.maybe "returnsJsonArray" Json.asBool?
    isAggregate := ← r.maybe "isAggregate" Json.asBool?
    aggregateFunction := ← r.maybe "aggregateFunction" Json.asText? }

/-- Reads a column whose tree is no deeper than `depth`. -/
def readWithin? : (depth : Nat) → Json → Option Column
  | 0, _ => none
  | depth + 1, j => do
    let r ← j.asRecord? fieldNames
    let facts ← readFacts? r
    let children ← r.withDefault "columns" [] (Json.asList? (readWithin? depth))
    return .node facts children

def ofJson? (j : Json) : Option Column :=
  readWithin? Json.nestingLimit j

end Column

end SqlSnapshot
