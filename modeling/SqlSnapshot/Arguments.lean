import SqlSnapshot.Options
import SqlSnapshot.Table
import SqlSnapshot.Text.Split

/-!
# Arguments

The arguments of the command line: options with a value, which may stand in the same argument or in
the next one, and switches.  A value in the next argument is looked at only when the argument after
it is read, so that an unknown argument there is complained about first.
-/

namespace SqlSnapshot

inductive OutputFormat where
  | table
  | json
deriving DecidableEq, Repr, Inhabited

namespace OutputFormat

def name : OutputFormat → String
  | .table => "Table"
  | .json => "Json"

def choices : List (String × OutputFormat) := [("table", .table), ("json", .json)]

end OutputFormat

structure Arguments where
  connection : Option String := none
  catalogFile : Option String := none
  project : Option String := none
  schemas : List String := []
  procedure : Option String := none
  noCache : Bool := false
  maxDop : Option Nat := none
  verbose : Bool := false
  format : Option OutputFormat := none
  quiet : Bool := false
deriving DecidableEq, Repr, Inhabited

/-- Why arguments are not taken, or what is asked for instead of a build. -/
inductive UsageError where
  | unknownArgument
  /-- A value is missing, or is none of those that are allowed. -/
  | invalidValue
  /-- A value that is no number. -/
  | valueValidation
  /-- An option is given twice. -/
  | argumentConflict
  /-- A switch has a value. -/
  | tooManyValues
  | displayHelp
  | displayVersion
deriving DecidableEq, Repr, Inhabited

namespace UsageError

def name : UsageError → String
  | .unknownArgument => "UnknownArgument"
  | .invalidValue => "InvalidValue"
  | .valueValidation => "ValueValidation"
  | .argumentConflict => "ArgumentConflict"
  | .tooManyValues => "TooManyValues"
  | .displayHelp => "DisplayHelp"
  | .displayVersion => "DisplayVersion"

end UsageError

namespace Arguments

/-- The options that take a value. -/
inductive Valued where
  | connection
  | catalogFile
  | project
  | schema
  | procedure
  | maxDop
  | format
deriving DecidableEq, Repr

inductive Switch where
  | noCache
  | verbose
  | quiet
  | help
  | version
deriving DecidableEq, Repr

abbrev Flag := Valued ⊕ Switch

def longFlags : List (String × Flag) :=
  [("connection", .inl .connection), ("catalog-file", .inl .catalogFile),
   ("project", .inl .project), ("schema", .inl .schema), ("procedure", .inl .procedure),
   ("max-dop", .inl .maxDop), ("format", .inl .format), ("no-cache", .inr .noCache),
   ("verbose", .inr .verbose), ("quiet", .inr .quiet), ("help", .inr .help),
   ("version", .inr .version)]

def shortFlags : List (Char × Flag) :=
  [('p', .inl .project), ('s', .inl .schema), ('f', .inl .format), ('v', .inr .verbose),
   ('q', .inr .quiet), ('h', .inr .help), ('V', .inr .version)]

/-- Sets an option that may be given once. -/
def once {α : Type} (old : Option α) (read : Except UsageError α) : Except UsageError (Option α) :=
  if old.isSome then .error .argumentConflict else read.map some

/-- A path has to have a name. -/
def readPath (value : String) : Except UsageError String :=
  if value.isEmpty then .error .invalidValue else .ok value

/-- A natural number of 64 bits; it may have a plus sign. -/
def readCount (value : String) : Except UsageError Nat :=
  let digits := match value.toList with
    | '+' :: ds => ds
    | ds => ds
  match digitsValue? digits with
  | some n => if n < UInt64.size then .ok n else .error .valueValidation
  | none => .error .valueValidation

def readFormat (value : String) : Except UsageError OutputFormat :=
  match OutputFormat.choices.lookup value with
  | some f => .ok f
  | none => .error .invalidValue

def setValue (a : Arguments) (o : Valued) (value : String) : Except UsageError Arguments :=
  match o with
  | .connection => return { a with connection := ← once a.connection (.ok value) }
  | .catalogFile => return { a with catalogFile := ← once a.catalogFile (readPath value) }
  | .project => return { a with project := ← once a.project (readPath value) }
  | .schema => return { a with schemas := a.schemas ++
      (Text.splitBy (· == ',') value.toList).map String.ofList }
  | .procedure => return { a with procedure := ← once a.procedure (.ok value) }
  | .maxDop => return { a with maxDop := ← once a.maxDop (readCount value) }
  | .format => return { a with format := ← once a.format (readFormat value) }

def turnOn (a : Arguments) : Switch → Except UsageError Arguments
  | .noCache => if a.noCache then .error .argumentConflict else .ok { a with noCache := true }
  | .verbose => if a.verbose then .error .argumentConflict else .ok { a with verbose := true }
  | .quiet => if a.quiet then .error .argumentConflict else .ok { a with quiet := true }
  | .help => .error .displayHelp
  | .version => .error .displayVersion

/-- An option that was read, with its value once that was read too. -/
abbrev Pending := Option (Valued × Option String)

/-- Takes over an option that was read. -/
def settle (a : Arguments) : Pending → Except UsageError Arguments
  | none => .ok a
  | some (_, none) => .error .invalidValue
  | some (o, some value) => a.setValue o value

/-- One flag, with the value that stands in the same argument. -/
def readFlag (a : Arguments) (pending : Pending) (flag : Flag) (attached : Option String) :
    Except UsageError (Arguments × Pending) := do
  match flag, attached with
  | .inr _, some _ => throw .tooManyValues
  | .inr s, none => return (← (← a.settle pending).turnOn s, none)
  | .inl o, some value => return (← (← a.settle pending).setValue o value, none)
  | .inl o, none => return (← a.settle pending, some (o, none))

/-- The characters of an argument with one dash: switches, and at the end an option. -/
def readShort (a : Arguments) (pending : Pending) :
    List Char → Except UsageError (Arguments × Pending)
  | [] => .ok (a, pending)
  | c :: cs =>
    match shortFlags.lookup c with
    | none => .error .unknownArgument
    | some (.inr s) => do
      let (a, pending) ← a.readFlag pending (.inr s) none
      a.readShort pending cs
    | some (.inl o) =>
      let attached := match cs with
        | [] => none
        | '=' :: value => some (String.ofList value)
        | value => some (String.ofList value)
      a.readFlag pending (.inl o) attached

/-- An argument with two dashes. -/
def readLong (a : Arguments) (pending : Pending) (cs : List Char) :
    Except UsageError (Arguments × Pending) :=
  let name := String.ofList (cs.takeWhile (· != '='))
  let attached := match cs.dropWhile (· != '=') with
    | _ :: value => some (String.ofList value)
    | [] => none
  match longFlags.lookup name with
  | none => .error .unknownArgument
  | some flag => a.readFlag pending flag attached

/-- An argument that is no flag: the value of the option before it, or nothing that is known. -/
def readPlain (a : Arguments) (pending : Pending) (value : String) :
    Except UsageError (Arguments × Pending) :=
  match pending with
  | some (o, none) => .ok (a, some (o, some value))
  | _ => .error .unknownArgument

/-- Reads all arguments; none may follow two dashes. -/
def readAll (a : Arguments) (pending : Pending) : List String → Except UsageError Arguments
  | [] => a.settle pending
  | arg :: args =>
    match arg.toList with
    | ['-', '-'] => if args.isEmpty then a.settle pending else .error .unknownArgument
    | '-' :: '-' :: cs => do
      let (a, pending) ← a.readLong pending cs
      a.readAll pending args
    | '-' :: c :: cs => do
      let (a, pending) ← a.readShort pending (c :: cs)
      a.readAll pending args
    | _ => do
      let (a, pending) ← a.readPlain pending arg
      a.readAll pending args

def parse (args : List String) : Except UsageError Arguments :=
  readAll {} none args

/-- The options of the build that is asked for.  Blank schemas and a blank filter do not count. -/
def options (a : Arguments) : Options where
  projectRoot := a.project.getD "."
  schemas := (a.schemas.map Text.trimBlank).filter (!·.isEmpty)
  procedures := (a.procedure.map Text.trimBlank).filter (!·.isEmpty)
  noCache := a.noCache
  parallelism := a.maxDop.getD 0
  verbose := a.verbose

def outputFormat (a : Arguments) : OutputFormat :=
  a.format.getD .table

end Arguments

end SqlSnapshot
