/-!
# SHA-256

The digest of FIPS 180-4: the message is padded to whole blocks of 64 bytes, and every block is
worked into a state of eight words by 64 rounds.
-/

namespace SqlSnapshot.Sha256

/-- The eight working words. -/
structure State where
  a : UInt32
  b : UInt32
  c : UInt32
  d : UInt32
  e : UInt32
  f : UInt32
  g : UInt32
  h : UInt32
deriving DecidableEq, Repr, Inhabited

def start : State :=
  ⟨0x6a09e667, 0xbb67ae85, 0x3c6ef372, 0xa54ff53a, 0x510e527f, 0x9b05688c, 0x1f83d9ab, 0x5be0cd19⟩

def roundConstants : List UInt32 :=
  [0x428a2f98, 0x71374491, 0xb5c0fbcf, 0xe9b5dba5, 0x3956c25b, 0x59f111f1, 0x923f82a4, 0xab1c5ed5,
   0xd807aa98, 0x12835b01, 0x243185be, 0x550c7dc3, 0x72be5d74, 0x80deb1fe, 0x9bdc06a7, 0xc19bf174,
   0xe49b69c1, 0xefbe4786, 0x0fc19dc6, 0x240ca1cc, 0x2de92c6f, 0x4a7484aa, 0x5cb0a9dc, 0x76f988da,
   0x983e5152, 0xa831c66d, 0xb00327c8, 0xbf597fc7, 0xc6e00bf3, 0xd5a79147, 0x06ca6351, 0x14292967,
   0x27b70a85, 0x2e1b2138, 0x4d2c6dfc, 0x53380d13, 0x650a7354, 0x766a0abb, 0x81c2c92e, 0x92722c85,
   0xa2bfe8a1, 0xa81a664b, 0xc24b8b70, 0xc76c51a3, 0xd192e819, 0xd6990624, 0xf40e3585, 0x106aa070,
   0x19a4c116, 0x1e376c08, 0x2748774c, 0x34b0bcb5, 0x391c0cb3, 0x4ed8aa4a, 0x5b9cca4f, 0x682e6ff3,
   0x748f82ee, 0x78a5636f, 0x84c87814, 0x8cc70208, 0x90befffa, 0xa4506ceb, 0xbef9a3f7, 0xc67178f2]

example : roundConstants.length = 64 := rfl

def rotateRight (x n : UInt32) : UInt32 :=
  (x >>> n) ||| (x <<< (32 - n))

def step (s : State) (k w : UInt32) : State :=
  let s1 := rotateRight s.e 6 ^^^ rotateRight s.e 11 ^^^ rotateRight s.e 25
  let ch := (s.e &&& s.f) ^^^ (~~~s.e &&& s.g)
  let t1 := s.h + s1 + ch + k + w
  let s0 := rotateRight s.a 2 ^^^ rotateRight s.a 13 ^^^ rotateRight s.a 22
  let maj := (s.a &&& s.b) ^^^ (s.a &&& s.c) ^^^ (s.b &&& s.c)
  ⟨t1 + (s0 + maj), s.a, s.b, s.c, s.d + t1, s.e, s.f, s.g⟩

/-- The word of the schedule after the sixteen words of a window. -/
def nextWord (window : List UInt32) : UInt32 :=
  let w15 := window.getD 1 0
  let w2 := window.getD 14 0
  let s0 := rotateRight w15 7 ^^^ rotateRight w15 18 ^^^ (w15 >>> 3)
  let s1 := rotateRight w2 17 ^^^ rotateRight w2 19 ^^^ (w2 >>> 10)
  window.getD 0 0 + s0 + window.getD 9 0 + s1

/-- Every round takes the first word of the window, which then moves on by one. -/
def rounds (s : State) (window : List UInt32) : List UInt32 → State
  | [] => s
  | k :: ks => rounds (step s k (window.headD 0)) (window.tail ++ [nextWord window]) ks

def bigEndian (bytes : List UInt8) : UInt32 :=
  bytes.foldl (fun n b => (n <<< 8) ||| b.toUInt32) 0

/-- Words of four bytes, the greatest byte first. -/
def words : List UInt8 → List UInt32
  | a :: b :: c :: d :: rest => bigEndian [a, b, c, d] :: words rest
  | _ => []

def compress (s : State) (block : List UInt8) : State :=
  let t := rounds s (words block) roundConstants
  ⟨s.a + t.a, s.b + t.b, s.c + t.c, s.d + t.d, s.e + t.e, s.f + t.f, s.g + t.g, s.h + t.h⟩

/-- What stands after a message of `size` bytes: a one bit, zeros, and the count of bits. -/
def padding (size : Nat) : List UInt8 :=
  let zeros := (119 - size % 64) % 64
  0x80 :: (List.replicate zeros (0 : UInt8) ++
    (List.range 8).map fun i => UInt8.ofNat ((size * 8) >>> (8 * (7 - i))))

def compressAll (s : State) (blocks : Nat) (bytes : List UInt8) : State :=
  match blocks with
  | 0 => s
  | blocks + 1 => compressAll (compress s (bytes.take 64)) blocks (bytes.drop 64)

def hexDigit (n : Nat) : Char :=
  if n < 10 then Char.ofNat (n + 48) else Char.ofNat (n + 87)

def hexWord (w : UInt32) : List Char :=
  (List.range 8).map fun i => hexDigit ((w.toNat >>> (4 * (7 - i))) % 16)

/-- The digest as 64 lower-case hexadecimal digits. -/
def hex (message : ByteArray) : String :=
  let padded := message.data.toList ++ padding message.size
  let s := compressAll start (padded.length / 64) padded
  String.ofList ([s.a, s.b, s.c, s.d, s.e, s.f, s.g, s.h].flatMap hexWord)

example :
    hex "abc".toUTF8 = "ba7816bf8f01cfea414140de5dae2223b00361a396177a9cb410ff61f20015ad" := by
  decide +kernel

end SqlSnapshot.Sha256
