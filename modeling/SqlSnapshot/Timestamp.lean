import SqlSnapshot.Text.Blank
import SqlSnapshot.Text.Case
import SqlSnapshot.Text.Numeral
import SqlSnapshot.Json.Basic

/-!
# Timestamps

A timestamp counts seconds from the start of 1970 in UTC, with a fraction in nanoseconds.  It is
read from RFC 3339 text with any offset, where blanks may stand around the parts, and written in
UTC with the shortest fraction of 0, 3, 6 or 9 digits that loses nothing.
-/

namespace SqlSnapshot

/-- `nanos` goes from 10⁹ on inside a leap second, whose `seconds` are those of the second
before it. -/
structure Timestamp where
  seconds : Int
  nanos : Nat
deriving DecidableEq, Repr, Inhabited

namespace Timestamp

def before (a b : Timestamp) : Bool :=
  a.seconds < b.seconds || (a.seconds == b.seconds && a.nanos < b.nanos)

/-! ## The calendar -/

/-- Days from the first of January 1970 to a day of the Gregorian calendar. -/
def dayNumber (year : Int) (month day : Nat) : Int :=
  let y := if month ≤ 2 then year - 1 else year
  let era := y / 400
  let yearOfEra := y - era * 400
  let monthFromMarch : Int := if 2 < month then month - 3 else month + 9
  let dayOfYear := (153 * monthFromMarch + 2) / 5 + day - 1
  let dayOfEra := yearOfEra * 365 + yearOfEra / 4 - yearOfEra / 100 + dayOfYear
  era * 146097 + dayOfEra - 719468

/-- Year, month and day of a day number. -/
def civilDate (days : Int) : Int × Nat × Nat :=
  let z := days + 719468
  let era := z / 146097
  let dayOfEra := z - era * 146097
  let yearOfEra := (dayOfEra - dayOfEra / 1460 + dayOfEra / 36524 - dayOfEra / 146096) / 365
  let dayOfYear := dayOfEra - (365 * yearOfEra + yearOfEra / 4 - yearOfEra / 100)
  let monthFromMarch := (5 * dayOfYear + 2) / 153
  let day := dayOfYear - (153 * monthFromMarch + 2) / 5 + 1
  let month := if monthFromMarch < 10 then monthFromMarch + 3 else monthFromMarch - 9
  let year := yearOfEra + era * 400 + (if month ≤ 2 then 1 else 0)
  (year, month.toNat, day.toNat)

def isLeapYear (year : Int) : Bool :=
  (year % 4 == 0 && year % 100 != 0) || year % 400 == 0

def daysInMonth (year : Int) (month : Nat) : Nat :=
  if month == 2 then (if isLeapYear year then 29 else 28)
  else if month == 4 || month == 6 || month == 9 || month == 11 then 30
  else 31

/-- The years that a date may have. -/
def firstYear : Int := -262143

def lastYear : Int := 262142

/-! ## Reading -/

def skipBlank (cs : List Char) : List Char :=
  Text.trimStart Text.isBlank cs

/-- Between one and `most` digits. -/
def readDigits? (most : Nat) (cs : List Char) : Option (Nat × List Char) :=
  let digits := (cs.take most).takeWhile Text.isDigit
  if digits.isEmpty then none
  else some (digits.foldl (fun n d => n * 10 + (d.toNat - 48)) 0, cs.drop digits.length)

/-- Two digits at most, after blanks. -/
def readPart? (cs : List Char) : Option (Nat × List Char) :=
  readDigits? 2 (skipBlank cs)

/-- Four digits at most, or any number of them after a sign. -/
def readYear? (cs : List Char) : Option (Int × List Char) :=
  match skipBlank cs with
  | '-' :: cs => (readDigits? cs.length cs).map fun (n, rest) => (-(n : Int), rest)
  | '+' :: cs => (readDigits? cs.length cs).map fun (n, rest) => ((n : Int), rest)
  | cs => (readDigits? 4 cs).map fun (n, rest) => ((n : Int), rest)

def readMark? (mark : Char) : List Char → Option (List Char)
  | c :: rest => if c = mark then some rest else none
  | [] => none

/-- The fraction of a second in nanoseconds; digits after the ninth do not count. -/
def readFraction? : List Char → Option (Nat × List Char)
  | '.' :: cs =>
    let digits := (cs.take 9).takeWhile Text.isDigit
    (readDigits? 9 cs).map fun (n, rest) =>
      (n * Nat.pow 10 (9 - digits.length), rest.dropWhile Text.isDigit)
  | cs => some (0, cs)

def readSeparator? : List Char → Option (List Char)
  | 'T' :: cs => some cs
  | 't' :: cs => some cs
  | ' ' :: cs => some cs
  | _ => none

/-- The ways in which date and time of day are written. -/
structure Layout where
  /-- Blanks may stand before the marks between the parts. -/
  blankBeforeMark : Bool
  separator : List Char → Option (List Char)
  fraction : List Char → Option (Nat × List Char)

namespace Layout

/-- With a free choice of separator and with fractions. -/
def relaxed : Layout := ⟨true, readSeparator?, readFraction?⟩

/-- With the separator `T` and with whole seconds. -/
def strict : Layout := ⟨false, readMark? 'T', fun cs => some (0, cs)⟩

def mark? (layout : Layout) (mark : Char) (cs : List Char) : Option (List Char) :=
  readMark? mark (if layout.blankBeforeMark then skipBlank cs else cs)

end Layout

/-- Date and time of day without an offset: the timestamp as if they were in UTC. -/
def readLocal? (layout : Layout) (cs : List Char) : Option (Timestamp × List Char) := do
  let (year, cs) ← readYear? cs
  let cs ← layout.mark? '-' cs
  let (month, cs) ← readPart? cs
  let cs ← layout.mark? '-' cs
  let (day, cs) ← readPart? cs
  let cs ← layout.separator cs
  let (hour, cs) ← readPart? cs
  let cs ← layout.mark? ':' cs
  let (minute, cs) ← readPart? cs
  let cs ← layout.mark? ':' cs
  let (second, cs) ← readPart? cs
  let (fraction, cs) ← layout.fraction cs
  let dateOk := firstYear ≤ year && year ≤ lastYear && 1 ≤ month && month ≤ 12 && 1 ≤ day &&
    day ≤ daysInMonth year month
  let timeOk := hour ≤ 23 && minute ≤ 59 && second ≤ 60
  if dateOk && timeOk then
    let leap := second == 60
    let secondOfDay : Nat := hour * 3600 + minute * 60 + (if leap then 59 else second)
    some (⟨dayNumber year month day * 86400 + secondOfDay,
      if leap then 1000000000 + fraction else fraction⟩, cs)
  else none

def readPair? : List Char → Option (Nat × List Char)
  | a :: b :: cs =>
    if Text.isDigit a && Text.isDigit b then some ((a.toNat - 48) * 10 + (b.toNat - 48), cs)
    else none
  | _ => none

/-- Seconds east of UTC: `Z`, `UTC`, or a sign with hours and minutes. -/
def readOffset? (cs : List Char) : Option (Int × List Char) :=
  match cs with
  | 'Z' :: rest => some (0, rest)
  | 'z' :: rest => some (0, rest)
  | _ =>
    if (cs.take 3).map Char.toUpper == ['U', 'T', 'C'] then some (0, cs.drop 3)
    else
      match cs with
      | sign :: rest =>
        if sign = '+' ∨ sign = '-' ∨ sign = '\u2212' then do
          let (hours, rest) ← readPair? rest
          let rest := rest.dropWhile fun c => c == ':' || Text.isBlank c
          let (minutes, rest) ← readPair? rest
          let seconds : Int := hours * 3600 + minutes * 60
          if minutes ≤ 59 then some (if sign = '+' then seconds else -seconds, rest) else none
        else none
      | [] => none

/-- An offset is less than a day. -/
def isOffset (seconds : Int) : Bool :=
  -86400 < seconds && seconds < 86400

def firstSecond : Int := dayNumber firstYear 1 1 * 86400

def lastSecond : Int := dayNumber lastYear 12 31 * 86400 + 86399

/-- The instant at which clocks `offset` seconds east of UTC show the given local time. -/
def atOffset? (local_ : Timestamp) (offset : Int) : Option Timestamp :=
  let seconds := local_.seconds - offset
  if firstSecond ≤ seconds && seconds ≤ lastSecond then some ⟨seconds, local_.nanos⟩ else none

def parse? (s : String) : Option Timestamp := do
  let (local_, cs) ← readLocal? .relaxed s.toList
  let (offset, cs) ← readOffset? (skipBlank cs)
  if (skipBlank cs).isEmpty && isOffset offset then local_.atOffset? offset else none

/-- A date and time of day without an offset, in whole seconds. -/
def parseLocal? (s : String) : Option Timestamp := do
  let (local_, cs) ← readLocal? .strict s.toList
  if cs.isEmpty then some local_ else none

/-! ## Writing -/

/-- Decimal digits, with zeros in front up to the given width. -/
def padded (width n : Nat) : List Char :=
  let digits := Nat.toDigits 10 n
  List.replicate (width - digits.length) '0' ++ digits

def writeYear (year : Int) : List Char :=
  if year < 0 then '-' :: padded 4 year.natAbs
  else if 9999 < year then '+' :: padded 4 year.natAbs
  else padded 4 year.natAbs

def writeFraction (nanos : Nat) : List Char :=
  if nanos == 0 then []
  else if nanos % 1000000 == 0 then '.' :: padded 3 (nanos / 1000000)
  else if nanos % 1000 == 0 then '.' :: padded 6 (nanos / 1000)
  else '.' :: padded 9 nanos

def write (t : Timestamp) : List Char :=
  let (year, month, day) := civilDate (t.seconds / 86400)
  let secondOfDay := (t.seconds % 86400).toNat
  let leap := 1000000000 ≤ t.nanos
  let second := secondOfDay % 60 + (if leap then 1 else 0)
  let nanos := if leap then t.nanos - 1000000000 else t.nanos
  writeYear year ++ '-' :: padded 2 month ++ '-' :: padded 2 day ++ 'T' ::
    padded 2 (secondOfDay / 3600) ++ ':' :: padded 2 (secondOfDay / 60 % 60) ++ ':' ::
    padded 2 second ++ writeFraction nanos ++ ['Z']

def render (t : Timestamp) : String :=
  String.ofList t.write

def toJson (t : Timestamp) : Json :=
  .text t.render

def ofJson? : Json → Option Timestamp
  | .text s => parse? s
  | _ => none

example : (parse? "2023-12-31T19:00:00.5-05:00").map render = some "2024-01-01T00:00:00.500Z" := by
  decide +kernel

example : parse? "2024 -03-01 14:30:00Z" = parseLocal? "2024- 3-01T14:30:00" ∧
    parseLocal? "2024-03-01T14:30:00.5" = none := by
  decide +kernel

example : parse? "2024-02-30T00:00:00Z" = none := by decide +kernel

end Timestamp

end SqlSnapshot
