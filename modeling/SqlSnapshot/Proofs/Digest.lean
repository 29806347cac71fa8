import Mathlib.Tactic.Ring
import SqlSnapshot.Digest.Sha256

/-!
# Digests on natural numbers

The words of a digest are natural numbers below `2 ^ 32`.  On these, with the sixteen words of a
window packed into one number and every number computed before it is handed on, the digest of a
given message is a short computation, and it is the same digest.
-/

namespace SqlSnapshot.Sha256

/-- The working words as numbers. -/
structure Numbers where
  a : Nat
  b : Nat
  c : Nat
  d : Nat
  e : Nat
  f : Nat
  g : Nat
  h : Nat

def State.numbers (s : State) : Numbers :=
  ⟨s.a.toNat, s.b.toNat, s.c.toNat, s.d.toNat, s.e.toNat, s.f.toNat, s.g.toNat, s.h.toNat⟩

/-- The match forces the number, so that no sum is handed on and computed again. -/
def settle {α : Type} (n : Nat) (next : Nat → α) : α :=
  match n with
  | 0 => next 0
  | n + 1 => next (n + 1)

@[simp] theorem settle_eq {α : Type} (n : Nat) (next : Nat → α) : settle n next = next n := by
  cases n <;> rfl

namespace Numbers

def rotate (x n : Nat) : Nat :=
  x >>> n ||| x <<< (32 - n) % 2 ^ 32

def step (s : Numbers) (k w : Nat) : Numbers :=
  let s1 := rotate s.e 6 ^^^ rotate s.e 11 ^^^ rotate s.e 25
  let ch := (s.e &&& s.f) ^^^ ((2 ^ 32 - 1 - s.e) &&& s.g)
  let s0 := rotate s.a 2 ^^^ rotate s.a 13 ^^^ rotate s.a 22
  let maj := (s.a &&& s.b) ^^^ (s.a &&& s.c) ^^^ (s.b &&& s.c)
  settle (s.h + s1 + ch + k + w) fun t1 =>
  settle ((t1 + (s0 + maj)) % 2 ^ 32) fun a =>
  settle ((s.d + t1) % 2 ^ 32) fun e =>
    ⟨a, s.a, s.b, s.c, e, s.e, s.f, s.g⟩

/-- A list of words as one number, the first word lowest. -/
def packed (ws : List UInt32) : Nat :=
  ws.foldr (fun w n => w.toNat + n <<< 32) 0

def wordAt (window i : Nat) : Nat :=
  window >>> (32 * i) % 2 ^ 32

def nextWord (window : Nat) : Nat :=
  settle (wordAt window 1) fun w1 =>
  settle (wordAt window 14) fun w14 =>
    (wordAt window 0 + (rotate w1 7 ^^^ rotate w1 18 ^^^ w1 >>> 3) + wordAt window 9 +
      (rotate w14 17 ^^^ rotate w14 19 ^^^ w14 >>> 10)) % 2 ^ 32

def rounds (s : Numbers) (window : Nat) : List Nat → Numbers
  | [] => s
  | k :: ks =>
    settle (window >>> 32 + nextWord window <<< 480) fun later =>
      rounds (s.step k (wordAt window 0)) later ks

-- The elaborator would otherwise run the rounds when it unfolds what is built on them.
@[irreducible] def compress (s : Numbers) (block : List UInt8) : Numbers :=
  let t := rounds s (packed (words block)) (roundConstants.map (·.toNat))
  settle ((s.a + t.a) % 2 ^ 32) fun a =>
  settle ((s.b + t.b) % 2 ^ 32) fun b =>
  settle ((s.c + t.c) % 2 ^ 32) fun c =>
  settle ((s.d + t.d) % 2 ^ 32) fun d =>
  settle ((s.e + t.e) % 2 ^ 32) fun e =>
  settle ((s.f + t.f) % 2 ^ 32) fun f =>
  settle ((s.g + t.g) % 2 ^ 32) fun g =>
  settle ((s.h + t.h) % 2 ^ 32) fun h =>
    ⟨a, b, c, d, e, f, g, h⟩

def compressAll (s : Numbers) (blocks : Nat) (bytes : List UInt8) : Numbers :=
  match blocks with
  | 0 => s
  | blocks + 1 => compressAll (s.compress (bytes.take 64)) blocks (bytes.drop 64)

def hexWord (n : Nat) : List Char :=
  (List.range 8).map fun i => hexDigit ((n >>> (4 * (7 - i))) % 16)

/-! ## The same words -/

theorem toNat_rotateRight
    (x n : UInt32) (hpos : 0 < n.toNat) (hlt : n.toNat < 32) :
    (rotateRight x n).toNat = rotate x.toNat n.toNat := by
  have hrest : (32 - n).toNat = 32 - n.toNat := by
    rw [UInt32.toNat_sub_of_le]
    · rfl
    · rw [UInt32.le_iff_toNat_le]
      exact hlt.le
  rw [rotateRight, UInt32.toNat_or, UInt32.toNat_shiftRight, UInt32.toNat_shiftLeft, hrest,
    Nat.mod_eq_of_lt hlt, Nat.mod_eq_of_lt (by omega : 32 - n.toNat < 32), rotate]

theorem numbers_step (s : State) (k w : UInt32) :
    (Sha256.step s k w).numbers = s.numbers.step k.toNat w.toNat := by
  simp (disch := decide) only [Sha256.step, State.numbers, step, settle_eq, UInt32.toNat_add,
    UInt32.toNat_xor, UInt32.toNat_and, UInt32.toNat_not, toNat_rotateRight, UInt32.reduceToNat,
    Nat.mod_add_mod, Nat.add_mod_mod, Nat.reducePow, UInt32.size]

theorem packed_cons (w : UInt32) (ws : List UInt32) :
    packed (w :: ws) = w.toNat + packed ws * 2 ^ 32 := by
  rw [packed, List.foldr_cons, Nat.shiftLeft_eq, packed]

theorem packed_tail (ws : List UInt32) : packed ws.tail = packed ws >>> 32 := by
  cases ws with
  | nil => rfl
  | cons w ws =>
    rw [List.tail_cons, packed_cons, Nat.shiftRight_eq_div_pow,
      Nat.add_mul_div_right _ _ (by decide), Nat.div_eq_of_lt w.toNat_lt, Nat.zero_add]

theorem wordAt_packed (ws : List UInt32) (i : Nat) :
    wordAt (packed ws) i = (ws.getD i 0).toNat := by
  induction ws generalizing i with
  | nil => simp [packed, wordAt]
  | cons w ws ih =>
    cases i with
    | zero =>
      rw [wordAt, packed_cons, Nat.mul_zero, Nat.shiftRight_zero, Nat.add_mul_mod_self_right,
        Nat.mod_eq_of_lt w.toNat_lt, List.getD_cons_zero]
    | succ i =>
      have hplace : 32 * (i + 1) = 32 + 32 * i := by omega
      rw [wordAt, hplace, Nat.shiftRight_add, ← packed_tail, List.tail_cons, List.getD_cons_succ,
        ← ih i, wordAt]

theorem packed_append (ws : List UInt32) (w : UInt32) :
    packed (ws ++ [w]) = packed ws + w.toNat <<< (32 * ws.length) := by
  induction ws with
  | nil => simp [packed]
  | cons v ws ih =>
    rw [List.cons_append, packed_cons, packed_cons, ih, Nat.shiftLeft_eq, Nat.shiftLeft_eq,
      List.length_cons, Nat.mul_succ, Nat.pow_add]
    ring

theorem nextWord_packed (window : List UInt32) :
    nextWord (packed window) = (Sha256.nextWord window).toNat := by
  simp (disch := decide) only [Sha256.nextWord, nextWord, settle_eq, wordAt_packed,
    UInt32.toNat_add, UInt32.toNat_xor, toNat_rotateRight, UInt32.toNat_shiftRight,
    UInt32.reduceToNat, Nat.reduceMod, Nat.mod_add_mod]

theorem numbers_rounds (s : State) {window : List UInt32} (h : window.length = 16)
    (ks : List UInt32) :
    (Sha256.rounds s window ks).numbers =
      s.numbers.rounds (packed window) (ks.map (·.toNat)) := by
  induction ks generalizing s window with
  | nil => rfl
  | cons k ks ih =>
    have htail : window.tail.length = 15 := by simp [h]
    have hfirst : wordAt (packed window) 0 = (window.headD 0).toNat := by
      rw [wordAt_packed]
      cases window <;> rfl
    rw [Sha256.rounds, ih _ (by simp [h]), numbers_step, packed_append, htail, packed_tail,
      ← nextWord_packed, ← hfirst, List.map_cons, rounds, settle_eq]

theorem length_words (bytes : List UInt8) : (words bytes).length = bytes.length / 4 := by
  fun_induction words bytes with
  | case1 a b c d rest ih =>
    simp only [List.length_cons, ih]
    omega
  | case2 bytes h =>
    rcases bytes with _ | ⟨a, _ | ⟨b, _ | ⟨c, _ | ⟨d, rest⟩⟩⟩⟩
    · simp
    · simp
    · simp
    · simp
    · exact absurd rfl (h a b c d rest)

theorem numbers_compress (s : State) {block : List UInt8} (h : block.length = 64) :
    (Sha256.compress s block).numbers = s.numbers.compress block := by
  have hwords : (words block).length = 16 := by rw [length_words, h]
  unfold compress Sha256.compress
  rw [← numbers_rounds s hwords roundConstants]
  generalize Sha256.rounds s (words block) roundConstants = t
  simp only [settle_eq, State.numbers, UInt32.toNat_add]

theorem numbers_compressAll (s : State) {blocks : Nat} {bytes : List UInt8}
    (h : blocks * 64 ≤ bytes.length) :
    (Sha256.compressAll s blocks bytes).numbers = s.numbers.compressAll blocks bytes := by
  induction blocks generalizing s bytes with
  | zero => rfl
  | succ blocks ih =>
    have hblock : (bytes.take 64).length = 64 := by
      rw [List.length_take]
      omega
    have hrest : blocks * 64 ≤ (bytes.drop 64).length := by
      rw [List.length_drop]
      omega
    rw [Sha256.compressAll, compressAll, ih _ hrest, numbers_compress s hblock]

/-- The digest, computed on numbers. -/
def hex (message : List UInt8) : String :=
  let padded := message ++ padding message.length
  let s := compressAll start.numbers (padded.length / 64) padded
  String.ofList ([s.a, s.b, s.c, s.d, s.e, s.f, s.g, s.h].flatMap hexWord)

theorem hex_eq (message : ByteArray) : Sha256.hex message = hex message.data.toList := by
  rw [Sha256.hex, hex, Array.length_toList,
    ← numbers_compressAll start (Nat.div_mul_le_self _ 64)]
  exact rfl

theorem hex_ofList (cs : List Char) :
    Sha256.hex (String.ofList cs).toUTF8 = hex (cs.flatMap String.utf8EncodeChar) := by
  rw [hex_eq, String.toUTF8_eq_toByteArray, String.toByteArray_ofList, List.utf8Encode,
    List.toList_data_toByteArray]

end Numbers

end SqlSnapshot.Sha256
