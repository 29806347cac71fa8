import SqlSnapshot.Catalog
import SqlSnapshot.Filter.Size
import SqlSnapshot.Options
import SqlSnapshot.Text.Split

/-!
# The filter of a build

A filter has a list of allowed schemas and a list of name patterns, each of which may be empty and
then allows everything.  A pattern with a schema looks at schema and name, any other at the name
alone.
-/

namespace SqlSnapshot

inductive NamePattern where
  | exact (wanted : Descriptor) (qualified : Bool)
  | glob (glob : Glob) (qualified : Bool)
deriving DecidableEq, Repr

namespace NamePattern

/-- A token with `*` or `?` is a glob, which counts only if it fits. -/
def ofToken? (token : List Char) : Option NamePattern :=
  let text := String.ofList token
  let qualified := (Descriptor.parseQualified? text).isSome
  if token.any fun c => c == '*' || c == '?' then
    let g := Glob.ofText token
    if g.fits then some (.glob g qualified) else none
  else some (.exact (Descriptor.parse text) qualified)

def accepts : NamePattern → Descriptor → Bool
  | .exact wanted true, d => wanted.same d
  | .exact wanted false, d => Text.sameAscii wanted.name d.name
  | .glob g true, d => g.accepts d.display
  | .glob g false, d => g.accepts d.name

/-- What an exact pattern names. -/
def wanted? : NamePattern → Option Descriptor
  | .exact wanted _ => some wanted
  | .glob _ _ => none

end NamePattern

structure NameFilter where
  schemas : List String
  patterns : List NamePattern
deriving DecidableEq, Repr

namespace NameFilter

/-- The schemas named in one entry of the list, in lower case and without brackets. -/
def schemasOf (entry : String) : List String :=
  ((Text.splitBy (fun c => c == ',' || c == ';') entry.toList).map fun piece =>
    Text.lower (String.ofList (Text.trimBoth (fun c => c == '[' || c == ']')
      (Text.trimBoth Text.isBlank piece)))).filter (!·.isEmpty)

/-- The tokens of a filter text stand between commas, semicolons and blanks. -/
def tokens (text : String) : List (List Char) :=
  Text.pieces (fun c => c == ',' || c == ';' || Text.isBlank c) text.toList

def ofOptions (o : Options) : NameFilter where
  schemas := o.schemas.flatMap schemasOf
  patterns := ((o.procedures.map tokens).getD []).filterMap NamePattern.ofToken?

def allowsSchema (f : NameFilter) (schema : String) : Bool :=
  f.schemas.isEmpty || f.schemas.any (Text.sameAscii · schema)

def allowsName (f : NameFilter) (d : Descriptor) : Bool :=
  f.patterns.isEmpty || f.patterns.any (·.accepts d)

def accepts (f : NameFilter) (d : Descriptor) : Bool :=
  f.allowsSchema d.schema && f.allowsName d

/-- What the exact patterns name that no procedure is. -/
def missing (f : NameFilter) (procedures : List Descriptor) : List Descriptor :=
  Descriptor.sortedDistinct (f.patterns.filterMap fun p =>
    p.wanted?.filter fun _ => !procedures.any p.accepts)

/-- The procedures that an exact pattern names, if all of them lie outside the allowed schemas. -/
def rejectedBy (f : NameFilter) (procedures : List Descriptor) (p : NamePattern) :
    List Descriptor :=
  let found := procedures.filter p.accepts
  if p.wanted?.isSome && found.all (fun d => !f.allowsSchema d.schema) then found else []

/-- The procedures that exact patterns name and the schemas do not allow. -/
def rejected (f : NameFilter) (procedures : List Descriptor) : List Descriptor :=
  Descriptor.sortedDistinct (f.patterns.flatMap (f.rejectedBy procedures))

end NameFilter

end SqlSnapshot
