import SqlSnapshot.Json.Basic

/-!
# Reading JSON

A reader takes the longest value at the front of a text and returns the rest, which is shorter:
`Shorter cs` holds that bound, and the loop over items and members ends by it.  Nesting is bounded
by `nestingLimit`.  `parse?` wants a whole document: one value with blanks around it.
-/

namespace SqlSnapshot.Json

/-- What is left of `cs` once at least one character has been read. -/
abbrev Shorter (cs : List Char) := { rest : List Char // rest.length < cs.length }

def isSpace (c : Char) : Bool :=
  c == ' ' || c == '\n' || c == '\t' || c == '\r'

def skipSpace (cs : List Char) : List Char :=
  cs.dropWhile isSpace

theorem length_dropWhile_le {α : Type} (p : α → Bool) (xs : List α) :
    (xs.dropWhile p).length ≤ xs.length :=
  (List.dropWhile_sublist p).length_le

theorem length_skipSpace_le (cs : List Char) : (skipSpace cs).length ≤ cs.length :=
  length_dropWhile_le isSpace cs

def hexValue? (c : Char) : Option Nat :=
  if '0' ≤ c ∧ c ≤ '9' then some (c.toNat - 48)
  else if 'a' ≤ c ∧ c ≤ 'f' then some (c.toNat - 87)
  else if 'A' ≤ c ∧ c ≤ 'F' then some (c.toNat - 55)
  else none

def hex4? (a b c d : Char) : Option Nat := do
  let a ← hexValue? a
  let b ← hexValue? b
  let c ← hexValue? c
  let d ← hexValue? d
  return ((a * 16 + b) * 16 + c) * 16 + d

def shortEscape? : Char → Option Nat
  | '\x22' => some 0x22
  | '\\' => some 0x5C
  | '/' => some 0x2F
  | 'b' => some 0x08
  | 'f' => some 0x0C
  | 'n' => some 0x0A
  | 'r' => some 0x0D
  | 't' => some 0x09
  | _ => none

/-- The code points of a string up to its closing quote; an escaped surrogate half is a code
point of its own here. -/
def readUnits : List Char → Option (List Nat × List Char)
  | [] => none
  | '\x22' :: rest => some ([], rest)
  | '\\' :: 'u' :: a :: b :: c :: d :: rest =>
    match hex4? a b c d, readUnits rest with
    | some unit, some (units, rest) => some (unit :: units, rest)
    | _, _ => none
  | '\\' :: c :: rest =>
    match shortEscape? c, readUnits rest with
    | some unit, some (units, rest) => some (unit :: units, rest)
    | _, _ => none
  | c :: rest =>
    if c.toNat < 0x20 || c == '\\' then none
    else
      match readUnits rest with
      | some (units, rest) => some (c.toNat :: units, rest)
      | none => none

theorem length_readUnits {cs : List Char} {units : List Nat} {rest : List Char}
    (h : readUnits cs = some (units, rest)) : rest.length < cs.length := by
  fun_induction readUnits cs generalizing units rest <;> simp_all <;> grind

def isHighHalf (unit : Nat) : Bool := 0xD800 ≤ unit && unit < 0xDC00

def isLowHalf (unit : Nat) : Bool := 0xDC00 ≤ unit && unit < 0xE000

/-- Joins the halves of surrogate pairs; a half that stands alone has no character. -/
def joinHalves? : List Nat → Option (List Char)
  | [] => some []
  | [unit] => if isHighHalf unit || isLowHalf unit then none else some [Char.ofNat unit]
  | high :: low :: rest =>
    if isHighHalf high then
      if isLowHalf low then
        (joinHalves? rest).map
          (Char.ofNat (0x10000 + (high - 0xD800) * 0x400 + (low - 0xDC00)) :: ·)
      else none
    else if isLowHalf high then none
    else (joinHalves? (low :: rest)).map (Char.ofNat high :: ·)

/-- A string after its opening quote; the inner `none` is a string without a value. -/
def readString (cs : List Char) : Option (Option String × Shorter cs) :=
  match h : readUnits cs with
  | none => none
  | some (units, rest) =>
    some ((joinHalves? units).map String.ofList, ⟨rest, length_readUnits h⟩)

def isNumberDigit (c : Char) : Bool :=
  '0' ≤ c && c ≤ '9'

def natOfDigits (ds : List Char) : Nat :=
  ds.foldl (fun n d => n * 10 + (d.toNat - 48)) 0

/-! ## The range of numbers

A number is computed in binary floating point with 53 significant bits: the digits that fit 64 bits,
rounded, times a rounded power of ten.  One that comes out infinite has no value; as both factors
are rounded, that may differ from what the exact number would give. -/

/-- The front of the digits whose value stays below 2⁶⁴, read on from `n`: the value, and the digits
after them, which do not count. -/
def fitDigits (n : Nat) : List Char → Nat × List Char
  | [] => (n, [])
  | d :: ds =>
    let next := n * 10 + (d.toNat - 48)
    if next < UInt64.size then fitDigits next ds else (n, d :: ds)

/-- The nearest number of at most 53 significant bits, the even one of two that are equally near. -/
def nearestDouble (n : Nat) : Nat :=
  let unit := 1 <<< (Nat.log2 n - 52)
  let part := n % unit
  let below := n / unit
  if unit < 2 * part || (2 * part == unit && below % 2 == 1) then (below + 1) * unit
  else below * unit

/-- The first number that rounds to infinity. -/
def overflowBound : Nat :=
  (1 <<< 1024) - (1 <<< 970)

/-- The largest power of ten that is a finite factor. -/
def largestPower : Nat := 308

/-- Whether `digits · 10 ^ exponent` is infinite. -/
def overflows (digits : Nat) (exponent : Int) : Bool :=
  if digits = 0 then false
  else
    match exponent with
    | .ofNat e =>
      largestPower < e || overflowBound ≤ nearestDouble digits * nearestDouble (Nat.pow 10 e)
    | .negSucc _ => false

/-- The exponent part, if there is one: its value and the rest. -/
def readExponent : List Char → Option (Option Int × List Char)
  | [] => some (none, [])
  | c :: cs =>
    if c == 'e' || c == 'E' then
      let (negative, ds) :=
        match cs with
        | '-' :: r => (true, r)
        | '+' :: r => (false, r)
        | r => (false, r)
      let digits := ds.takeWhile isNumberDigit
      if digits.isEmpty then none
      else
        let value : Int := natOfDigits digits
        some (some (if negative then -value else value), ds.dropWhile isNumberDigit)
    else some (none, c :: cs)

/-- The fraction part, if there is one: its digits and the rest. -/
def readFraction : List Char → Option (Option (List Char) × List Char)
  | '.' :: cs =>
    let digits := cs.takeWhile isNumberDigit
    if digits.isEmpty then none else some (some digits, cs.dropWhile isNumberDigit)
  | cs => some (none, cs)

/-- The parts of a number after its sign: integer digits, fraction and exponent. -/
def readNumberParts (cs : List Char) :
    Option (List Char × Option (List Char) × Option Int × List Char) := do
  let whole := cs.takeWhile isNumberDigit
  if whole.isEmpty || (whole.head? == some '0' && whole.length != 1) then none
  let (fraction, rest) ← readFraction (cs.dropWhile isNumberDigit)
  let (exponent, rest) ← readExponent rest
  return (whole, fraction, exponent, rest)

def numberValue (negative : Bool) (whole : List Char) (fraction : Option (List Char))
    (exponent : Option Int) : Json :=
  let places := fraction.getD []
  let (front, wholeLeft) := fitDigits 0 whole
  let (digits, placesLeft) := fitDigits front places
  let shift : Int := wholeLeft.length + placesLeft.length - places.length
  if overflows digits (exponent.getD 0 + shift) then .unreadable
  else if fraction.isSome || exponent.isSome then .decimal
  else
    let n := natOfDigits whole
    if negative then if n = 0 then .decimal else .int (-n) else .int n

def readNumber (cs : List Char) : Option (Json × Shorter cs) :=
  let (negative, body) :=
    match cs with
    | '-' :: r => (true, r)
    | r => (false, r)
  match readNumberParts body with
  | none => none
  | some (whole, fraction, exponent, rest) =>
    if h : rest.length < cs.length then
      some (numberValue negative whole fraction exponent, ⟨rest, h⟩)
    else none

def stripWord? : List Char → List Char → Option (List Char)
  | [], cs => some cs
  | w :: ws, c :: cs => if w = c then stripWord? ws cs else none
  | _ :: _, [] => none

theorem length_stripWord {w cs rest : List Char} (h : stripWord? w cs = some rest) :
    rest.length + w.length = cs.length := by
  fun_induction stripWord? w cs with
  | case1 cs =>
    cases h
    rfl
  | case2 w ws cs ih =>
    have hrest := ih h
    simp only [List.length_cons]
    omega
  | case3 => cases h
  | case4 => cases h

/-- The items of an array or the members of an object, after the opening bracket: `readOne` reads
one of them, with no blank before it, and `close` ends the list. -/
def readSeparated {α : Type} (readOne : (cs : List Char) → Option (α × Shorter cs)) (close : Char)
    (cs : List Char) : Option (List α × Shorter cs) :=
  match readOne (skipSpace cs) with
  | none => none
  | some (v, ⟨rest, hrest⟩) =>
    match hs : skipSpace rest with
    | [] => none
    | c :: rest' =>
      have hlt : rest'.length < cs.length := by
        have h1 := length_skipSpace_le rest
        have h2 := length_skipSpace_le cs
        rw [hs, List.length_cons] at h1
        omega
      if c == close then some ([v], ⟨rest', hlt⟩)
      else if c == ',' then
        match readSeparated readOne close rest' with
        | none => none
        | some (vs, ⟨rest'', h''⟩) => some (v :: vs, ⟨rest'', by omega⟩)
      else none
termination_by cs.length

/-- A list of items that may be empty, after the opening bracket. -/
def readEnclosed {α : Type} (readOne : (cs : List Char) → Option (α × Shorter cs)) (close : Char)
    (cs : List Char) : Option (List α × Shorter cs) :=
  match hs : skipSpace cs with
  | [] => none
  | c :: rest =>
    if c == close then
      some ([], ⟨rest, by
        have h := length_skipSpace_le cs
        rw [hs, List.length_cons] at h
        omega⟩)
    else readSeparated readOne close cs

/-- A member of an object: the name, a colon and the value. -/
def readMember (readOne : (cs : List Char) → Option (Json × Shorter cs)) (cs : List Char) :
    Option ((Option String × Json) × Shorter cs) :=
  match cs with
  | '\x22' :: cs' =>
    match readString cs' with
    | none => none
    | some (name, ⟨rest, hrest⟩) =>
      match hs : skipSpace rest with
      | ':' :: rest' =>
        match readOne (skipSpace rest') with
        | none => none
        | some (v, ⟨rest'', h''⟩) =>
          some ((name, v), ⟨rest'', by
            have h1 := length_skipSpace_le rest
            have h2 := length_skipSpace_le rest'
            rw [hs, List.length_cons] at h1
            simp only [List.length_cons]
            omega⟩)
      | _ => none
  | _ => none

/-- The object with the given members, unreadable if one of the names is. -/
def ofMembers (members : List (Option String × Json)) : Json :=
  match members.mapM fun m => m.1.map (·, m.2) with
  | some members => .object members
  | none => .unreadable

/-- A value whose text starts at the first character. -/
def readValue : (depth : Nat) → (cs : List Char) → Option (Json × Shorter cs)
  | depth, cs =>
    match cs with
    | [] => none
    | '\x22' :: rest =>
      match readString rest with
      | none => none
      | some (s, ⟨rest', h⟩) =>
        some ((s.map Json.text).getD .unreadable, ⟨rest', by simp only [List.length_cons]; omega⟩)
    | '[' :: rest =>
      match depth with
      | 0 => none
      | depth + 1 =>
        match readEnclosed (readValue depth) ']' rest with
        | none => none
        | some (items, ⟨rest', h⟩) =>
          some (.array items, ⟨rest', by simp only [List.length_cons]; omega⟩)
    | '\x7b' :: rest =>
      match depth with
      | 0 => none
      | depth + 1 =>
        match readEnclosed (readMember (readValue depth)) '\x7d' rest with
        | none => none
        | some (members, ⟨rest', h⟩) =>
          some (ofMembers members, ⟨rest', by simp only [List.length_cons]; omega⟩)
    | 'n' :: rest =>
      match h : stripWord? ['u', 'l', 'l'] rest with
      | none => none
      | some rest' =>
        some (.null, ⟨rest', by have := length_stripWord h; simp only [List.length_cons]; omega⟩)
    | 't' :: rest =>
      match h : stripWord? ['r', 'u', 'e'] rest with
      | none => none
      | some rest' =>
        some (.bool true,
          ⟨rest', by have := length_stripWord h; simp only [List.length_cons]; omega⟩)
    | 'f' :: rest =>
      match h : stripWord? ['a', 'l', 's', 'e'] rest with
      | none => none
      | some rest' =>
        some (.bool false,
          ⟨rest', by have := length_stripWord h; simp only [List.length_cons]; omega⟩)
    | c :: rest => readNumber (c :: rest)
termination_by structural depth => depth

def parse? (s : String) : Option Json :=
  match readValue nestingLimit (skipSpace s.toList) with
  | none => none
  | some (v, ⟨rest, _⟩) => if (skipSpace rest).isEmpty then some v else none

end SqlSnapshot.Json
