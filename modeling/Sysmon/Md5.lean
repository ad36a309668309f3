import Mathlib.Data.UInt
import Sysmon.Lib.Absorb
import Sysmon.Radius

/-!
# The digest of a text

`md5.c` takes a text in as it comes and fills blocks of 64 bytes in the context. However the text is cut into calls of
`MD5Update`, the digest is that of its padded blocks, one after the other. That holds where a `UINT4` has the four bytes it
is named for. `md5.h` makes it an `unsigned long`, and where that has eight, a rotation brings in bits from above.
-/

namespace Sysmon.Md5

open Radius (Bytes Block store load zeros)
open Absorb

/-- `UINT4`, of `w` bits. -/
abbrev UInt4 (w : Nat) := BitVec w

/-- The four words of the state, in the places of one step. -/
structure Registers (w : Nat) where
  a : UInt4 w
  b : UInt4 w
  c : UInt4 w
  d : UInt4 w
  deriving DecidableEq, Repr

/-- `MD5_CTX`. -/
structure Md5Ctx (w : Nat) where
  state : Registers w
  count0 : UInt4 w
  count1 : UInt4 w
  buffer : Bytes
  deriving DecidableEq, Repr

/-! ### The transformation -/

section transform

variable {w : Nat}

def f (x y z : UInt4 w) : UInt4 w := (x &&& y) ||| (~~~x &&& z)

def g (x y z : UInt4 w) : UInt4 w := (x &&& z) ||| (y &&& ~~~z)

def h (x y z : UInt4 w) : UInt4 w := x ^^^ y ^^^ z

def i (x y z : UInt4 w) : UInt4 w := y ^^^ (x ||| ~~~z)

def rotateLeft (x : UInt4 w) (n : Nat) : UInt4 w := (x <<< n) ||| (x >>> (32 - n))

/-- `FF`, `GG`, `HH` and `II`, with the registers moved on for the next step. -/
def step (fn : UInt4 w → UInt4 w → UInt4 w → UInt4 w) (x : List (UInt4 w)) (r : Registers w) (k s ac : Nat) :
    Registers w :=
  let a := r.a + (fn r.b r.c r.d + x.getD k 0 + BitVec.ofNat w ac)
  let a := rotateLeft a s
  let a := a + r.b
  ⟨r.d, a, r.b, r.c⟩

/-- The word, the rotation and the constant of each step. -/
def round1 : List (Nat × Nat × Nat) :=
  [(0, 7, 0xd76aa478), (1, 12, 0xe8c7b756), (2, 17, 0x242070db), (3, 22, 0xc1bdceee), (4, 7, 0xf57c0faf), (5, 12, 0x4787c62a),
    (6, 17, 0xa8304613), (7, 22, 0xfd469501), (8, 7, 0x698098d8), (9, 12, 0x8b44f7af), (10, 17, 0xffff5bb1),
    (11, 22, 0x895cd7be), (12, 7, 0x6b901122), (13, 12, 0xfd987193), (14, 17, 0xa679438e), (15, 22, 0x49b40821)]

def round2 : List (Nat × Nat × Nat) :=
  [(1, 5, 0xf61e2562), (6, 9, 0xc040b340), (11, 14, 0x265e5a51), (0, 20, 0xe9b6c7aa), (5, 5, 0xd62f105d), (10, 9, 0x2441453),
    (15, 14, 0xd8a1e681), (4, 20, 0xe7d3fbc8), (9, 5, 0x21e1cde6), (14, 9, 0xc33707d6), (3, 14, 0xf4d50d87),
    (8, 20, 0x455a14ed), (13, 5, 0xa9e3e905), (2, 9, 0xfcefa3f8), (7, 14, 0x676f02d9), (12, 20, 0x8d2a4c8a)]

def round3 : List (Nat × Nat × Nat) :=
  [(5, 4, 0xfffa3942), (8, 11, 0x8771f681), (11, 16, 0x6d9d6122), (14, 23, 0xfde5380c), (1, 4, 0xa4beea44),
    (4, 11, 0x4bdecfa9), (7, 16, 0xf6bb4b60), (10, 23, 0xbebfbc70), (13, 4, 0x289b7ec6), (0, 11, 0xeaa127fa),
    (3, 16, 0xd4ef3085), (6, 23, 0x4881d05), (9, 4, 0xd9d4d039), (12, 11, 0xe6db99e5), (15, 16, 0x1fa27cf8),
    (2, 23, 0xc4ac5665)]

def round4 : List (Nat × Nat × Nat) :=
  [(0, 6, 0xf4292244), (7, 10, 0x432aff97), (14, 15, 0xab9423a7), (5, 21, 0xfc93a039), (12, 6, 0x655b59c3),
    (3, 10, 0x8f0ccc92), (10, 15, 0xffeff47d), (1, 21, 0x85845dd1), (8, 6, 0x6fa87e4f), (15, 10, 0xfe2ce6e0),
    (6, 15, 0xa3014314), (13, 21, 0x4e0811a1), (4, 6, 0xf7537e82), (11, 10, 0xbd3af235), (2, 15, 0x2ad7d2bb),
    (9, 21, 0xeb86d391)]

def doRound (fn : UInt4 w → UInt4 w → UInt4 w → UInt4 w) (x : List (UInt4 w)) (steps : List (Nat × Nat × Nat))
    (r : Registers w) : Registers w :=
  steps.foldl (fun r (k, s, ac) => step fn x r k s ac) r

/-- `Decode`: four bytes to a word, the lowest first. -/
def decode : Bytes → List (UInt4 w)
  | b0 :: b1 :: b2 :: b3 :: rest =>
      (BitVec.ofNat w b0.toNat ||| BitVec.ofNat w b1.toNat <<< 8 ||| BitVec.ofNat w b2.toNat <<< 16 |||
        BitVec.ofNat w b3.toNat <<< 24) :: decode rest
  | _ => []

/-- `Encode`, of one word. -/
def encodeWord (x : UInt4 w) : Bytes :=
  [UInt8.ofNat x.toNat, UInt8.ofNat (x >>> 8).toNat, UInt8.ofNat (x >>> 16).toNat, UInt8.ofNat (x >>> 24).toNat]

def encode (words : List (UInt4 w)) : Bytes := words.flatMap encodeWord

def md5Transform (state : Registers w) (block : Bytes) : Registers w :=
  let x := decode block
  let r := doRound i x round4 (doRound h x round3 (doRound g x round2 (doRound f x round1 state)))
  ⟨state.a + r.a, state.b + r.b, state.c + r.c, state.d + r.d⟩

end transform

/-! ### The context -/

section context

variable {w : Nat}

def initialState (w : Nat) : Registers w :=
  ⟨BitVec.ofNat w 0x67452301, BitVec.ofNat w 0xefcdab89, BitVec.ofNat w 0x98badcfe, BitVec.ofNat w 0x10325476⟩

/-- `MD5Init`. What is in the buffer is not read. -/
def md5Init (w : Nat) : Md5Ctx w := ⟨initialState w, 0, 0, zeros 64⟩

/-- The number of bytes in the buffer. -/
def Md5Ctx.index (ctx : Md5Ctx w) : Nat := ((ctx.count0 >>> 3) &&& BitVec.ofNat w 0x3F).toNat

/-- The loop of `MD5Update`: whole blocks of the input, from `i` on, for at most so many turns. -/
def transformBlocks (input : Bytes) (inputLen : UInt32) : Nat → UInt32 → Registers w → Option (UInt32 × Registers w)
  | 0, _, _ => none
  | fuel + 1, i, state =>
      if i + 63 < inputLen then
        (load input i.toNat 64).bind fun block => transformBlocks input inputLen fuel (i + 64) (md5Transform state block)
      else some (i, state)

/-- `MD5Update`. Nothing for a read past the end of the input or a write past the end of the buffer. -/
def md5Update (ctx : Md5Ctx w) (input : Bytes) (inputLen : UInt32) : Option (Md5Ctx w) := do
  let index := ctx.index
  let bits := BitVec.ofNat w inputLen.toNat <<< 3
  let count0 := ctx.count0 + bits
  let count1 := if count0 < bits then ctx.count1 + 1 else ctx.count1
  let count1 := count1 + BitVec.ofNat w inputLen.toNat >>> 29
  let partLen := 64 - index
  if partLen ≤ inputLen.toNat then
    let front ← load input 0 partLen
    let buffer ← store ctx.buffer index front
    let (i, state) ←
      transformBlocks input inputLen (inputLen.toNat + 1) (UInt32.ofNat partLen) (md5Transform ctx.state buffer)
    let rest ← load input i.toNat (inputLen.toNat - i.toNat)
    let buffer ← store buffer 0 rest
    return ⟨state, count0, count1, buffer⟩
  else
    let rest ← load input 0 inputLen.toNat
    let buffer ← store ctx.buffer index rest
    return ⟨ctx.state, count0, count1, buffer⟩

def padding : Bytes := 0x80 :: zeros 63

def digestOf (state : Registers w) : Bytes := encode [state.a, state.b, state.c, state.d]

/-- `MD5Final`. -/
def md5Final (ctx : Md5Ctx w) : Option Bytes := do
  let bits := encode [ctx.count0, ctx.count1]
  let index := ctx.index
  let padLen := if index < 56 then 56 - index else 120 - index
  let ctx ← md5Update ctx padding (UInt32.ofNat padLen)
  let ctx ← md5Update ctx bits 8
  return digestOf ctx.state

/-- `md5_calc`. -/
def md5Calc (w : Nat) (input : Bytes) (inlen : UInt32) : Option Bytes := (md5Update (md5Init w) input inlen).bind md5Final

end context

/-! ### What it is for -/

/-- The text with its padding: a bit, zeros, and the length in bits, so that there are whole blocks. -/
def padded (text : Bytes) : Bytes :=
  text ++ 0x80 :: zeros ((119 - text.length % 64) % 64) ++
    encode [BitVec.ofNat 32 (8 * text.length), BitVec.ofNat 32 (8 * text.length / 2 ^ 32)]

/-- The digest of a text. -/
def digest (text : Bytes) : Bytes := digestOf (whole 64 md5Transform (initialState 32) (padded text))

/-! ### Taking text in -/

section taking

variable {ctx : Md5Ctx 32} {text input : Bytes} {inputLen : UInt32}

/-- The context has taken in this text. -/
structure Taken (ctx : Md5Ctx 32) (text : Bytes) : Prop where
  state : ctx.state = whole 64 md5Transform (initialState 32) text
  count0 : ctx.count0.toNat = 8 * text.length % 2 ^ 32
  count1 : ctx.count1.toNat = 8 * text.length / 2 ^ 32 % 2 ^ 32
  size : ctx.buffer.length = 64
  rest : ctx.buffer.take (text.length % 64) = left 64 text

theorem taken_init : Taken (md5Init 32) [] where
  state := (whole_of_lt (by decide)).symm
  count0 := rfl
  count1 := rfl
  size := rfl
  rest := rfl

theorem Taken.index (h : Taken ctx text) : ctx.index = text.length % 64 := by
  have hmask : ∀ n : Nat, n &&& 0x3F = n % 64 := fun n => Nat.and_two_pow_sub_one_eq_mod n 6
  rw [Md5Ctx.index, BitVec.toNat_and, BitVec.toNat_ushiftRight, h.count0, Nat.shiftRight_eq_div_pow]
  rw [show (BitVec.ofNat 32 0x3F).toNat = 0x3F from rfl, hmask]
  omega

/-- The length in bits goes up, with the carry. -/
theorem Taken.counted (h : Taken ctx text) (n : Nat) (hn : n < 2 ^ 32) :
    let bits := BitVec.ofNat 32 n <<< 3
    let count1 := if ctx.count0 + bits < bits then ctx.count1 + 1 else ctx.count1
    (ctx.count0 + bits).toNat = 8 * (text.length + n) % 2 ^ 32 ∧
      (count1 + BitVec.ofNat 32 n >>> 29).toNat = 8 * (text.length + n) / 2 ^ 32 % 2 ^ 32 := by
  have h0 := h.count0
  have h1 := h.count1
  have hbits : (BitVec.ofNat 32 n <<< 3).toNat = 8 * n % 2 ^ 32 := by
    rw [BitVec.toNat_shiftLeft, BitVec.toNat_ofNat, Nat.shiftLeft_eq]
    omega
  have hhigh : (BitVec.ofNat 32 n >>> 29).toNat = n / 2 ^ 29 := by
    rw [BitVec.toNat_ushiftRight, BitVec.toNat_ofNat, Nat.shiftRight_eq_div_pow]
    omega
  dsimp only
  have hsum : (ctx.count0 + BitVec.ofNat 32 n <<< 3).toNat = (8 * text.length % 2 ^ 32 + 8 * n % 2 ^ 32) % 2 ^ 32 := by
    rw [BitVec.toNat_add, h0, hbits]
  refine ⟨by rw [hsum]; omega, ?_⟩
  rw [BitVec.toNat_add, hhigh]
  split
  next hcarry =>
    rw [BitVec.lt_def, hsum, hbits] at hcarry
    rw [BitVec.toNat_add, h1, show (1 : BitVec 32).toNat = 1 from rfl]
    omega
  next hcarry =>
    rw [BitVec.lt_def, hsum, hbits] at hcarry
    rw [h1]
    omega

/-- The loop takes in the whole blocks and stops at what is left. -/
theorem transformBlocks_eq {state : Registers 32} {i : UInt32} {fuel : Nat} (hinput : inputLen.toNat ≤ input.length)
    (hsmall : inputLen.toNat + 63 < 2 ^ 32) (hi : i.toNat ≤ inputLen.toNat) (hfuel : inputLen.toNat - i.toNat < fuel) :
    ∃ j, transformBlocks input inputLen fuel i state =
        some (j, whole 64 md5Transform state ((input.take inputLen.toNat).drop i.toNat)) ∧
      (input.take inputLen.toNat).drop j.toNat = left 64 ((input.take inputLen.toNat).drop i.toNat) ∧
      j.toNat ≤ inputLen.toNat := by
  induction fuel generalizing i state with
  | zero => exact absurd hfuel (Nat.not_lt_zero _)
  | succ fuel ih =>
      have hlen : ((input.take inputLen.toNat).drop i.toNat).length = inputLen.toNat - i.toNat := by
        rw [List.length_drop, List.length_take_of_le hinput]
      have hnext : (i + 63).toNat = i.toNat + 63 := by
        rw [UInt32.toNat_add, show (63 : UInt32).toNat = 63 from rfl]
        omega
      rw [transformBlocks]
      split
      next hmore =>
        rw [UInt32.lt_iff_toNat_lt, hnext] at hmore
        have hafter : (i + 64).toNat = i.toNat + 64 := by
          rw [UInt32.toNat_add, show (64 : UInt32).toNat = 64 from rfl]
          omega
        have hblock : load input i.toNat 64 = some (((input.take inputLen.toNat).drop i.toNat).take 64) := by
          rw [load, if_pos (by omega), List.drop_take, List.take_take, Nat.min_eq_left (by omega)]
        obtain ⟨j, hloop, hrest, hj⟩ := @ih
          (md5Transform state (((input.take inputLen.toNat).drop i.toNat).take 64)) (i + 64) (by omega) (by omega)
        rw [hblock, Option.bind_some]
        rw [hafter, ← List.drop_drop] at hloop hrest
        refine ⟨j, ?_, ?_, hj⟩
        · exact hloop.trans (congrArg (fun state => some (j, state)) (whole_step (by decide) (by omega)).symm)
        · exact hrest.trans (left_step (by decide) (by omega)).symm
      next hmore =>
        rw [UInt32.lt_iff_toNat_lt, hnext] at hmore
        exact ⟨i, by rw [whole_of_lt (by omega)], (left_of_lt (by omega)).symm, hi⟩

theorem load_in {bs : Bytes} {i n : Nat} (h : i + n ≤ bs.length) : load bs i n = some ((bs.drop i).take n) := if_pos h

theorem load_start {bs : Bytes} {n : Nat} (h : n ≤ bs.length) : load bs 0 n = some (bs.take n) := by
  rw [load_in (by omega), List.drop_zero]

theorem store_in {buf bs : Bytes} {i : Nat} (h : i + bs.length ≤ buf.length) :
    store buf i bs = some (buf.take i ++ bs ++ buf.drop (i + bs.length)) := if_pos h

/-- What is put behind the first bytes of the buffer. -/
theorem Taken.filled (h : Taken ctx text) {bs : Bytes} (hroom : text.length % 64 + bs.length ≤ 64) :
    store ctx.buffer (text.length % 64) bs =
      some (left 64 text ++ bs ++ ctx.buffer.drop (text.length % 64 + bs.length)) := by
  rw [store_in (by rw [h.size]; exact hroom), h.rest]

/-- A call takes in the bytes it is given. -/
theorem Taken.update (h : Taken ctx text) (hinput : inputLen.toNat ≤ input.length) (hsmall : inputLen.toNat + 63 < 2 ^ 32) :
    ∃ ctx', md5Update ctx input inputLen = some ctx' ∧ Taken ctx' (text ++ input.take inputLen.toNat) := by
  have hcounted := h.counted inputLen.toNat (by omega)
  have hlen : (input.take inputLen.toNat).length = inputLen.toNat := List.length_take_of_le hinput
  have htotal : (text ++ input.take inputLen.toNat).length = text.length + inputLen.toNat := by
    rw [List.length_append, hlen]
  have hindex : text.length % 64 < 64 := Nat.mod_lt _ (by decide)
  have hleft : (left 64 text).length = text.length % 64 := length_left text
  rw [md5Update, h.index]
  dsimp only at hcounted ⊢
  split
  next hfull =>
    -- the buffer is filled up, whole blocks of the input follow, and the rest goes to its beginning
    obtain ⟨front, hfront⟩ : ∃ front, front = input.take (64 - text.length % 64) := ⟨_, rfl⟩
    obtain ⟨rest, hrest⟩ : ∃ rest, rest = left 64 (text ++ input.take inputLen.toNat) := ⟨_, rfl⟩
    have hfrontLength : front.length = 64 - text.length % 64 := by
      rw [hfront, List.length_take_of_le (by omega)]
    have hrestLength : rest.length = (text.length + inputLen.toNat) % 64 := by rw [hrest, length_left, htotal]
    have hblock : (left 64 text ++ front).length = 64 := by
      rw [List.length_append, hleft, hfrontLength]
      omega
    have hload : load input 0 (64 - text.length % 64) = some front := by rw [load_start (by omega), hfront]
    have hstored : store ctx.buffer (text.length % 64) front = some (left 64 text ++ front) := by
      rw [h.filled (by omega), List.drop_of_length_le (by rw [h.size]; omega), List.append_nil]
    have hstart : (UInt32.ofNat (64 - text.length % 64)).toNat = 64 - text.length % 64 := by
      rw [UInt32.toNat_ofNat']
      omega
    obtain ⟨j, hloop, hover, hj⟩ := @transformBlocks_eq input inputLen (md5Transform ctx.state (left 64 text ++ front))
      (UInt32.ofNat (64 - text.length % 64)) (inputLen.toNat + 1) hinput hsmall (by omega) (by omega)
    rw [hstart] at hloop hover
    have hsplit : input.take inputLen.toNat = front ++ (input.take inputLen.toNat).drop (64 - text.length % 64) := by
      have hparts := List.take_append_drop (64 - text.length % 64) (input.take inputLen.toNat)
      rw [List.take_take, Nat.min_eq_left hfull, ← hfront] at hparts
      exact hparts.symm
    have hwhole : whole 64 md5Transform (md5Transform ctx.state (left 64 text ++ front))
        ((input.take inputLen.toNat).drop (64 - text.length % 64)) =
          whole 64 md5Transform (initialState 32) (text ++ input.take inputLen.toNat) := by
      rw [whole_append (by decide) _ text, hsplit, whole_fill (by decide) hblock, h.state, ← hsplit]
    have hleftOver : left 64 ((input.take inputLen.toNat).drop (64 - text.length % 64)) = rest := by
      rw [hrest, left_append (by decide) text, hsplit, left_fill (by decide) hblock, ← hsplit]
    rw [hwhole] at hloop
    rw [hleftOver] at hover
    have hoverLength := congrArg List.length hover
    rw [List.length_drop, hlen] at hoverLength
    have hload' : load input j.toNat (inputLen.toNat - j.toNat) = some rest := by
      rw [load_in (by omega), ← List.drop_take, hover]
    have hlast : store (left 64 text ++ front) 0 rest = some (rest ++ (left 64 text ++ front).drop rest.length) := by
      rw [store_in (by rw [hblock]; omega), List.take_zero, List.nil_append, Nat.zero_add]
    simp only [Option.bind_eq_bind, Option.bind_some, hload, hstored, hloop, hload', hlast]
    refine ⟨_, rfl, ⟨rfl, by rw [htotal]; exact hcounted.1, by rw [htotal]; exact hcounted.2, ?_, ?_⟩⟩
    · rw [List.length_append, List.length_drop, hblock]
      omega
    · rw [htotal, ← hrestLength, List.take_left, hrest]
  next hpart =>
    have hload : load input 0 inputLen.toNat = some (input.take inputLen.toNat) := load_start hinput
    have hstored := h.filled (show text.length % 64 + (input.take inputLen.toNat).length ≤ 64 by omega)
    have hshort : (left 64 text ++ input.take inputLen.toNat).length < 64 := by
      rw [List.length_append]
      omega
    simp only [Option.bind_eq_bind, Option.bind_some, hload, hstored]
    refine ⟨_, rfl, ⟨?_, by rw [htotal]; exact hcounted.1, by rw [htotal]; exact hcounted.2, ?_, ?_⟩⟩
    · rw [whole_append (by decide), whole_of_lt hshort]
      exact h.state
    · rw [List.length_append, List.length_append, List.length_drop, h.size]
      omega
    · rw [left_append (by decide), left_of_lt hshort]
      exact List.take_left' (by rw [htotal, List.length_append]; omega)

end taking

/-! ### The digest -/

theorem length_encode (a b : UInt4 32) : (encode [a, b]).length = 8 := rfl

theorem padding_take {n : Nat} (hpos : 0 < n) (h : n ≤ 64) : padding.take n = 0x80 :: zeros (n - 1) := by
  obtain ⟨n, rfl⟩ : ∃ k, n = k + 1 := ⟨n - 1, by omega⟩
  rw [padding, List.take_succ_cons, zeros, List.take_replicate, Nat.min_eq_left (by omega)]
  rfl

/-- The padding and the length make whole blocks of what has been taken in. -/
theorem Taken.final {ctx : Md5Ctx 32} {text : Bytes} (h : Taken ctx text) : md5Final ctx = some (digest text) := by
  have hmod : text.length % 64 < 64 := Nat.mod_lt _ (by decide)
  obtain ⟨padLen, hpadLen⟩ : ∃ n, n = if ctx.index < 56 then 56 - ctx.index else 120 - ctx.index := ⟨_, rfl⟩
  have hzeros : padLen = (119 - text.length % 64) % 64 + 1 := by
    rw [hpadLen, h.index]
    split <;> omega
  have hpad : (UInt32.ofNat padLen).toNat = padLen := by
    rw [UInt32.toNat_ofNat']
    omega
  have hbits : encode [ctx.count0, ctx.count1] =
      encode [BitVec.ofNat 32 (8 * text.length), BitVec.ofNat 32 (8 * text.length / 2 ^ 32)] := by
    have h0 : ctx.count0 = BitVec.ofNat 32 (8 * text.length) := BitVec.eq_of_toNat_eq (by rw [h.count0, BitVec.toNat_ofNat])
    have h1 : ctx.count1 = BitVec.ofNat 32 (8 * text.length / 2 ^ 32) :=
      BitVec.eq_of_toNat_eq (by rw [h.count1, BitVec.toNat_ofNat])
    rw [h0, h1]
  have hroom : padLen ≤ padding.length := by
    rw [show padding.length = 64 from rfl]
    omega
  obtain ⟨ctx₁, hfirst, htaken₁⟩ := @Taken.update ctx text padding (UInt32.ofNat padLen) h (by omega) (by omega)
  obtain ⟨ctx₂, hsecond, htaken₂⟩ := @Taken.update ctx₁ _ (encode [ctx.count0, ctx.count1]) 8 htaken₁
    (Nat.le_of_eq (length_encode _ _).symm) (by decide)
  have htext : text ++ padding.take (UInt32.ofNat padLen).toNat ++
      (encode [ctx.count0, ctx.count1]).take (8 : UInt32).toNat = padded text := by
    rw [hpad, padding_take (by omega) (by omega), show (8 : UInt32).toNat = 8 from rfl,
      List.take_of_length_le (Nat.le_of_eq (length_encode _ _)), hbits, padded, hzeros, Nat.add_sub_cancel]
  rw [htext] at htaken₂
  rw [md5Final, ← hpadLen]
  simp only [Option.bind_eq_bind, hfirst, Option.bind_some, hsecond]
  rw [htaken₂.state]
  rfl

/-- `MD5Update` for each piece of a text. -/
def updateAll (pieces : List Bytes) (ctx : Md5Ctx 32) : Option (Md5Ctx 32) :=
  pieces.foldlM (fun ctx piece => md5Update ctx piece (UInt32.ofNat piece.length)) ctx

theorem Taken.pieces {ctx : Md5Ctx 32} {text : Bytes} (h : Taken ctx text) {pieces : List Bytes}
    (hsmall : ∀ piece ∈ pieces, piece.length + 63 < 2 ^ 32) :
    ∃ ctx', updateAll pieces ctx = some ctx' ∧ Taken ctx' (text ++ pieces.flatten) := by
  induction pieces generalizing ctx text with
  | nil => exact ⟨ctx, rfl, by rwa [List.flatten_nil, List.append_nil]⟩
  | cons piece pieces ih =>
      have hpiece := hsmall piece List.mem_cons_self
      have hlen : (UInt32.ofNat piece.length).toNat = piece.length := by
        rw [UInt32.toNat_ofNat']
        omega
      obtain ⟨ctx₁, hupdate, htaken⟩ := @Taken.update ctx text piece (UInt32.ofNat piece.length) h (by omega) (by omega)
      rw [hlen, List.take_length] at htaken
      obtain ⟨ctx₂, hrest, htaken'⟩ := ih htaken fun p hp => hsmall p (List.mem_cons_of_mem _ hp)
      refine ⟨ctx₂, ?_, ?_⟩
      · rw [updateAll, List.foldlM_cons, hupdate]
        exact hrest
      · rwa [List.flatten_cons, ← List.append_assoc]

/-- The digest is that of the whole text, in however many pieces it came. -/
theorem md5Final_pieces {pieces : List Bytes} (hsmall : ∀ piece ∈ pieces, piece.length + 63 < 2 ^ 32) :
    (updateAll pieces (md5Init 32)).bind md5Final = some (digest pieces.flatten) := by
  obtain ⟨ctx, hupdates, htaken⟩ := taken_init.pieces hsmall
  rw [hupdates, Option.bind_some, htaken.final, List.nil_append]

theorem md5Final_pieces_two : (updateAll [[0x61], [0x62, 0x63]] (md5Init 32)).bind md5Final =
    some (digest [[0x61], [0x62, 0x63]].flatten) :=
  md5Final_pieces (by decide)

example : md5Calc 32 [0x61, 0x62, 0x63] 3 =
    some [0x90, 0x01, 0x50, 0x98, 0x3c, 0xd2, 0x4f, 0xb0, 0xd6, 0x96, 0x3f, 0x7d, 0x28, 0xe1, 0x7f, 0x72] := by decide +kernel

/-- Where an `unsigned long` has eight bytes, the digest of no text at all is another. -/
theorem md5Calc_sixtyFour : md5Calc 64 [] 0 ≠ md5Calc 32 [] 0 := by decide +kernel

end Sysmon.Md5
