import SqlSnapshot.Filter.Glob

/-!
# The size of a glob

A glob is matched by an automaton that takes the bytes of a name from the last to the first.  Its
size is bounded, and a glob that needs a larger automaton does not count.

A state has `stateSize`.  A byte of a fixed character is one state.  A choice between byte sequences
has a state where it opens and one where it closes, a state for each byte range on the way, where
sequences that start alike share their states, and a branch for each sequence.
-/

namespace SqlSnapshot.Glob

def stateSize : Nat := 32

/-- What each byte range adds to a state that tells single bytes apart. -/
def rangeSize : Nat := 8

/-- What each branch adds to a state that opens a choice. -/
def branchSize : Nat := 4

/-- Ten mebibytes. -/
def sizeLimit : Nat := 10 * 1024 * 1024

/-- The bytes from a first to a last one. -/
abbrev ByteRange := UInt8 × UInt8

def continuation : ByteRange := (0x80, 0xBF)

/-- The bytes of all characters but the line feed. -/
def anyCharSequences : List (List ByteRange) :=
  [[(0x00, 0x09)], [(0x0B, 0x7F)], [(0xC2, 0xDF), continuation],
   [(0xE0, 0xE0), (0xA0, 0xBF), continuation], [(0xE1, 0xEC), continuation, continuation],
   [(0xED, 0xED), (0x80, 0x9F), continuation], [(0xEE, 0xEF), continuation, continuation],
   [(0xF0, 0xF0), (0x90, 0xBF), continuation, continuation],
   [(0xF1, 0xF3), continuation, continuation, continuation],
   [(0xF4, 0xF4), (0x80, 0x8F), continuation, continuation]]

/-- How far two sequences agree. -/
def agreement : List ByteRange → List ByteRange → Nat
  | a :: as, b :: bs => if a = b then agreement as bs + 1 else 0
  | _, _ => 0

/-- The states for sequences in increasing order, of which `before` precedes the first. -/
def sequenceStates (before : List ByteRange) : List (List ByteRange) → Nat
  | [] => 0
  | s :: ss => (s.length - agreement before s) + sequenceStates s ss

def choiceSize (sequences : List (List ByteRange)) : Nat :=
  (2 + sequenceStates [] sequences) * stateSize + sequences.length * branchSize

/-- The runs of adjacent code points among increasing ones; a run stays among code points whose
bytes differ in the last one only. -/
def runsOf (codes : List Nat) : List (Nat × Nat) :=
  codes.foldr (fun n runs =>
    match runs with
    | (first, last) :: rest =>
      if n + 1 = first ∧ first % 64 ≠ 0 then (n, last) :: rest else (n, n) :: (first, last) :: rest
    | [] => [(n, n)]) []

def sequenceOf (run : Nat × Nat) : List ByteRange :=
  (String.utf8EncodeChar (Char.ofNat run.1)).zip (String.utf8EncodeChar (Char.ofNat run.2))

/-- The size for a character up to case. -/
def charSize (c : Char) : Nat :=
  let codes := Text.foldClass c
  if codes.length = 1 then c.utf8Size * stateSize
  else if codes.all (· < 0x80) then 2 * stateSize + codes.length * rangeSize
  else choiceSize ((runsOf codes).map sequenceOf)

def anyCharSize : Nat :=
  choiceSize anyCharSequences

def partSize : GlobPart → Nat
  | .anything => stateSize + 2 * branchSize + anyCharSize
  | .anyChar => anyCharSize
  | .char c => charSize c

/-- The states of the automaton beside those of the parts: its entry, the two ends of the name, and
acceptance. -/
def frameSize : Nat := 4 * stateSize

def size (g : Glob) : Nat :=
  g.foldr (fun part n => partSize part + n) frameSize

def fits (g : Glob) : Bool :=
  g.size ≤ sizeLimit

example : size (ofText "Get?".toList) = frameSize + 3 * 80 + 1000 := by
  decide +kernel

example : charSize 'k' = 236 ∧ charSize 'é' = 168 ∧ charSize '1' = 32 := by
  decide +kernel

end SqlSnapshot.Glob
