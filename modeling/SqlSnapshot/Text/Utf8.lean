/-!
# UTF-8

Reading bytes that may be no valid UTF-8: every longest piece that could start a character, and
every other byte that starts none, becomes one replacement character.
-/

namespace SqlSnapshot.Text

def replacement : Char := '\uFFFD'

/-- Number of bytes of a character after its first byte, and the range of the second byte. -/
def leadByte? (b : UInt8) : Option (Nat × UInt8 × UInt8) :=
  if 0xC2 ≤ b ∧ b ≤ 0xDF then some (1, 0x80, 0xBF)
  else if b = 0xE0 then some (2, 0xA0, 0xBF)
  else if b = 0xED then some (2, 0x80, 0x9F)
  else if 0xE1 ≤ b ∧ b ≤ 0xEF then some (2, 0x80, 0xBF)
  else if b = 0xF0 then some (3, 0x90, 0xBF)
  else if 0xF1 ≤ b ∧ b ≤ 0xF3 then some (3, 0x80, 0xBF)
  else if b = 0xF4 then some (3, 0x80, 0x8F)
  else none

/-- The bytes after the first that belong to its character, at most `most` of them. -/
def tailBytes (most : Nat) (lo hi : UInt8) : List UInt8 → List UInt8
  | [] => []
  | b :: bs =>
    match most with
    | 0 => []
    | most + 1 => if lo ≤ b ∧ b ≤ hi then b :: tailBytes most 0x80 0xBF bs else []

/-- The character whose first byte has the given value bits and whose other bytes follow. -/
def joinBits (first : Nat) (tail : List UInt8) : Char :=
  Char.ofNat (tail.foldl (fun n b => n * 64 + b.toNat % 64) first)

def decodeLossyBytes (bytes : List UInt8) : List Char :=
  match bytes with
  | [] => []
  | b :: bs =>
    if b < 0x80 then Char.ofNat b.toNat :: decodeLossyBytes bs
    else
      match leadByte? b with
      | none => replacement :: decodeLossyBytes bs
      | some (most, lo, hi) =>
        let tail := tailBytes most lo hi bs
        let c := if tail.length = most then joinBits (b.toNat % (64 >>> most)) tail else replacement
        c :: decodeLossyBytes (bs.drop tail.length)
termination_by bytes.length
decreasing_by all_goals simp only [List.length_cons, List.length_drop]; omega

/-- The text of the bytes, with replacement characters where they are no UTF-8. -/
def decodeLossy (bytes : ByteArray) : String :=
  String.ofList (decodeLossyBytes bytes.data.toList)

end SqlSnapshot.Text
