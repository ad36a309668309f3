import Mathlib.Algebra.Order.Ring.Int
import Mathlib.Data.List.TakeWhile
import Mathlib.Data.UInt

/-!
# Text as the C library reads it

A string is the list of its characters before the terminating NUL. Here are the searches of
`string.h` in the form in which C programs use them, as what stands after or before the character
that was looked for, and the decimal conversions of `stdlib.h` and `stdio.h`: skipped white space,
an optional sign, the longest run of digits, and the nearest value of the type where the number does
not fit. What is printed with `%lu` or `%lld` reads back as itself.
-/

namespace CText

/-- `isspace` of the C locale. -/
def isspace (c : Char) : Bool :=
  c = ' ' || c = '\t' || c = '\n' || c = '\x0b' || c = '\x0c' || c = '\r'

/-- What holds of the characters of a text is decided along the text, not over all characters. -/
instance (priority := 1100) decidableForallMem {p : Char → Prop} [DecidablePred p] (s : List Char) :
    Decidable (∀ c, c ∈ s → p c) := List.decidableBAll p s

/-! ### Searches -/

/-- What follows the first `c`: `strchr` plus one. -/
def after (c : Char) (s : List Char) : Option (List Char) :=
  match s.dropWhile (· ≠ c) with
  | [] => none
  | _ :: rest => some rest

/-- What stands before the first `c`. -/
def upTo (c : Char) (s : List Char) : Option (List Char) :=
  if c ∈ s then some (s.takeWhile (· ≠ c)) else none

/-- What follows the last `c`: `strrchr` plus one. -/
def afterLast (c : Char) (s : List Char) : Option (List Char) :=
  (upTo c s.reverse).map List.reverse

/-- What stands between the first `left` and the next `right`. -/
def between (left right : Char) (s : List Char) : Option (List Char) :=
  (after left s).bind (upTo right)

theorem takeWhile_ne_append {c : Char} {s rest : List Char} (h : c ∉ s) :
    (s ++ c :: rest).takeWhile (· ≠ c) = s := by
  rw [List.takeWhile_append_of_pos]
  · simp
  · intro d hd
    simpa using fun heq : d = c => h (heq ▸ hd)

theorem dropWhile_ne_append {c : Char} {s rest : List Char} (h : c ∉ s) :
    (s ++ c :: rest).dropWhile (· ≠ c) = c :: rest := by
  rw [List.dropWhile_append_of_pos]
  · simp
  · intro d hd
    simpa using fun heq : d = c => h (heq ▸ hd)

theorem after_append {c : Char} {s rest : List Char} (h : c ∉ s) :
    after c (s ++ c :: rest) = some rest := by
  rw [after, dropWhile_ne_append h]

theorem after_append_of_not_mem {c : Char} {s : List Char} (h : c ∉ s) (rest : List Char) :
    after c (s ++ rest) = after c rest := by
  rw [after, after, List.dropWhile_append_of_pos]
  intro d hd
  simpa using fun heq : d = c => h (heq ▸ hd)

theorem upTo_append {c : Char} {s rest : List Char} (h : c ∉ s) :
    upTo c (s ++ c :: rest) = some s := by
  rw [upTo, if_pos (by simp), takeWhile_ne_append h]

/-! ### Numbers -/

def skipSpace (s : List Char) : List Char := s.dropWhile isspace

/-- The optional sign of a number, `true` for a minus, and what follows it. -/
def sign : List Char → Bool × List Char
  | '-' :: rest => (true, rest)
  | '+' :: rest => (false, rest)
  | s => (false, s)

/-- The value of the digits the text starts with, 0 where there are none. -/
def digits (s : List Char) : Nat := Nat.ofDigitChars 10 (s.takeWhile Char.isDigit) 0

/-- `strtoul`: a number that does not fit gives `ULONG_MAX`, a minus negates modulo 2 ^ 64. -/
def strtoul (s : List Char) : UInt64 :=
  let (negative, rest) := sign (skipSpace s)
  if 2 ^ 64 ≤ digits rest then 2 ^ 64 - 1
  else if negative then - UInt64.ofNat (digits rest)
  else UInt64.ofNat (digits rest)

/-- `strtol` and `strtoll`, 64 bits both: a number that does not fit gives the nearest that does. -/
def strtoll (s : List Char) : Int64 :=
  let (negative, rest) := sign (skipSpace s)
  let value : Int := if negative then - digits rest else digits rest
  Int64.ofInt (max (- 2 ^ 63) (min value (2 ^ 63 - 1)))

/-- `atol`. -/
def atol (s : List Char) : Int64 := strtoll s

/-- What `%u` and `%lu` print. -/
def showNat (n : Nat) : List Char := Nat.toDigits 10 n

/-- What `%lld` prints. -/
def showInt (i : Int) : List Char := if i < 0 then '-' :: showNat i.natAbs else showNat i.natAbs

theorem isDigit_of_mem_showNat {c : Char} {n : Nat} (h : c ∈ showNat n) : c.isDigit = true :=
  Nat.isDigit_of_mem_toDigits (by decide) (by decide) h

theorem not_mem_showNat {c : Char} (h : c.isDigit = false) (n : Nat) : c ∉ showNat n := by
  intro hmem
  rw [isDigit_of_mem_showNat hmem] at h
  exact absurd h (by decide)

theorem not_mem_showInt {c : Char} (h : c.isDigit = false) (hminus : c ≠ '-') (i : Int) :
    c ∉ showInt i := by
  rw [showInt]
  split
  · simp [hminus, not_mem_showNat h]
  · exact not_mem_showNat h _

theorem showNat_ne_nil (n : Nat) : showNat n ≠ [] := Nat.toDigits_ne_nil

theorem length_showNat_le (n : UInt64) : (showNat n.toNat).length ≤ 20 :=
  (Nat.length_toDigits_le_iff (by decide) (by decide)).mpr (Nat.lt_trans n.toNat_lt (by decide))

theorem takeWhile_isDigit_showNat {rest : List Char}
    (hrest : ∀ c ∈ rest.head?, c.isDigit = false) (n : Nat) :
    (showNat n ++ rest).takeWhile Char.isDigit = showNat n := by
  rw [List.takeWhile_append_of_pos fun c hc => isDigit_of_mem_showNat hc]
  cases rest with
  | nil => simp
  | cons c rest => simp [hrest c rfl]

theorem dropWhile_isDigit_showNat {rest : List Char}
    (hrest : ∀ c ∈ rest.head?, c.isDigit = false) (n : Nat) :
    (showNat n ++ rest).dropWhile Char.isDigit = rest := by
  rw [List.dropWhile_append_of_pos fun c hc => isDigit_of_mem_showNat hc]
  cases rest with
  | nil => rfl
  | cons c rest => simp [hrest c rfl]

theorem digits_append {n : Nat} {rest : List Char} (h : ∀ c ∈ rest.head?, c.isDigit = false) :
    digits (showNat n ++ rest) = n := by
  rw [digits, takeWhile_isDigit_showNat h, showNat]
  exact Nat.ofDigitChars_ten_toDigits

theorem isspace_eq_false_of_isDigit {c : Char} (h : c.isDigit = true) : isspace c = false := by
  by_contra hne
  simp only [isspace, Bool.not_eq_false, Bool.or_eq_true, decide_eq_true_eq] at hne
  obtain ((((rfl | rfl) | rfl) | rfl) | rfl) | rfl := hne <;> exact absurd h (by decide)

theorem skipSpace_cons {c : Char} (s : List Char) (h : isspace c = false) :
    skipSpace (c :: s) = c :: s := by
  simp [skipSpace, h]

theorem showNat_eq_cons (n : Nat) : ∃ c s, showNat n = c :: s ∧ c.isDigit = true := by
  cases hshow : showNat n with
  | nil => exact absurd hshow (showNat_ne_nil n)
  | cons c s => exact ⟨c, s, rfl, isDigit_of_mem_showNat (hshow ▸ List.mem_cons_self)⟩

theorem skipSpace_showNat (n : Nat) (rest : List Char) :
    skipSpace (showNat n ++ rest) = showNat n ++ rest := by
  obtain ⟨c, s, hshow, hdigit⟩ := showNat_eq_cons n
  rw [hshow, List.cons_append, skipSpace_cons _ (isspace_eq_false_of_isDigit hdigit)]

theorem sign_of_isDigit {c : Char} (s : List Char) (h : c.isDigit = true) :
    sign (c :: s) = (false, c :: s) := by
  rw [sign]
  · rintro rest ⟨rfl, -⟩
    exact absurd h (by decide)
  · rintro rest ⟨rfl, -⟩
    exact absurd h (by decide)

theorem sign_showNat (n : Nat) (rest : List Char) :
    sign (showNat n ++ rest) = (false, showNat n ++ rest) := by
  obtain ⟨c, s, hshow, hdigit⟩ := showNat_eq_cons n
  rw [hshow, List.cons_append, sign_of_isDigit _ hdigit]

theorem skipSpace_minus (s : List Char) : skipSpace ('-' :: s) = '-' :: s :=
  skipSpace_cons s (by decide)

/-- Where the text starts with a digit, the number is that of its digits, or the largest there is. -/
theorem toNat_strtoul_of_isDigit {c : Char} (s : List Char) (h : c.isDigit = true) :
    (strtoul (c :: s)).toNat = min (digits (c :: s)) (2 ^ 64 - 1) := by
  simp only [strtoul, skipSpace_cons s (isspace_eq_false_of_isDigit h), sign_of_isDigit s h,
    Bool.false_eq_true, if_false]
  split
  · have hmax : (2 ^ 64 - 1 : UInt64).toNat = 2 ^ 64 - 1 := by decide +kernel
    rw [hmax]
    omega
  · rw [UInt64.toNat_ofNat']
    omega

section readBack

variable {rest : List Char} (hrest : ∀ c ∈ rest.head?, c.isDigit = false)

include hrest

theorem strtoul_showNat (n : UInt64) : strtoul (showNat n.toNat ++ rest) = n := by
  have hlt : ¬ 2 ^ 64 ≤ n.toNat := by
    have := n.toNat_lt
    omega
  simp only [strtoul, skipSpace_showNat, sign_showNat, digits_append hrest, if_neg hlt, Bool.false_eq_true,
    if_false, UInt64.ofNat_toNat]

theorem strtoll_showInt (i : Int64) : strtoll (showInt i.toInt ++ rest) = i := by
  have hlow : - 2 ^ 63 ≤ i.toInt := i.le_toInt
  have hhigh : i.toInt < 2 ^ 63 := i.toInt_lt
  have hclamp : ∀ value : Int, value = i.toInt →
      Int64.ofInt (max (- 2 ^ 63) (min value (2 ^ 63 - 1))) = i := by
    intro value hvalue
    have hsame : max (- 2 ^ 63) (min value (2 ^ 63 - 1)) = i.toInt := by omega
    rw [hsame, Int64.ofInt_toInt]
  by_cases hneg : i.toInt < 0
  · simp only [showInt, if_pos hneg, List.cons_append, strtoll, skipSpace_minus, sign,
      digits_append hrest, if_true]
    exact hclamp _ (by omega)
  · simp only [showInt, if_neg hneg, strtoll, skipSpace_showNat, sign_showNat,
      digits_append hrest, Bool.false_eq_true, if_false]
    exact hclamp _ (by omega)

theorem strtoll_showNat (n : Nat) : (strtoll (showNat n ++ rest)).toInt = min (n : Int) (2 ^ 63 - 1) := by
  have hvalue : max (- 2 ^ 63) (min (n : Int) (2 ^ 63 - 1)) = min (n : Int) (2 ^ 63 - 1) := by omega
  simp only [strtoll, skipSpace_showNat, sign_showNat, digits_append hrest, Bool.false_eq_true,
    if_false, hvalue]
  exact Int64.toInt_ofInt_of_le (by omega) (by omega)

end readBack

theorem strtoul_showNat_self (n : UInt64) : strtoul (showNat n.toNat) = n := by
  have hnone : ∀ c ∈ ([] : List Char).head?, c.isDigit = false := by simp
  have hread := strtoul_showNat hnone n
  rwa [List.append_nil] at hread

theorem strtoll_showNat_clamped (n : Nat) : (strtoll (showNat n)).toInt = min (n : Int) (2 ^ 63 - 1) := by
  have hnone : ∀ c ∈ ([] : List Char).head?, c.isDigit = false := by simp
  have hread := strtoll_showNat hnone n
  rwa [List.append_nil] at hread

theorem strtoll_showNat_self {n : Nat} (h : n < 2 ^ 63) : (strtoll (showNat n)).toInt = n := by
  rw [strtoll_showNat_clamped]
  omega

/-- A conversion of `scanf`: white space is skipped, and at least one digit must come. What is given
back is the text of the number and what follows it. -/
def scanDecimal (s : List Char) : Option (List Char × List Char) :=
  let s := skipSpace s
  let rest := (sign s).2
  let found := rest.takeWhile Char.isDigit
  if found = [] then none
  else some (s.take (s.length - rest.length) ++ found, rest.dropWhile Char.isDigit)

section scan

variable {rest : List Char} (hrest : ∀ c ∈ rest.head?, c.isDigit = false)

include hrest

theorem scanDecimal_showNat_append (n : Nat) :
    scanDecimal (showNat n ++ rest) = some (showNat n, rest) := by
  simp only [scanDecimal, skipSpace_showNat, sign_showNat, takeWhile_isDigit_showNat hrest,
    dropWhile_isDigit_showNat hrest, showNat_ne_nil, if_false, Nat.sub_self, List.take_zero,
    List.nil_append]

theorem scanDecimal_showNat (n : Nat) :
    scanDecimal (' ' :: showNat n ++ rest) = some (showNat n, rest) := by
  have hskip : skipSpace (' ' :: showNat n ++ rest) = skipSpace (showNat n ++ rest) := by
    simp [skipSpace, isspace]
  have hscan := scanDecimal_showNat_append hrest n
  simp only [scanDecimal, hskip] at hscan ⊢
  exact hscan

theorem scanDecimal_showInt (i : Int) :
    scanDecimal (' ' :: showInt i ++ rest) = some (showInt i, rest) := by
  by_cases hneg : i < 0
  · rw [showInt, if_pos hneg]
    have hskip : skipSpace (' ' :: ('-' :: showNat i.natAbs) ++ rest) =
        '-' :: (showNat i.natAbs ++ rest) := by
      simp [skipSpace, isspace]
    have htake : ('-' :: (showNat i.natAbs ++ rest)).take
        (('-' :: (showNat i.natAbs ++ rest)).length - (showNat i.natAbs ++ rest).length) = ['-'] := by
      simp
    simp only [scanDecimal, hskip, sign, htake, takeWhile_isDigit_showNat hrest,
      dropWhile_isDigit_showNat hrest, showNat_ne_nil, if_false]
    rfl
  · rw [showInt, if_neg hneg]
    exact scanDecimal_showNat hrest i.natAbs

end scan

/-! ### Lines -/

/-- `fgets` into a buffer with room for `room` characters: through the next newline, or as far as
the room goes. -/
def fgets : Nat → List Char → List Char × List Char
  | 0, s => ([], s)
  | _ + 1, [] => ([], [])
  | room + 1, c :: s =>
      if c = '\n' then ([c], s)
      else (c :: (fgets room s).1, (fgets room s).2)

/-- All the lines of a file as `fgets` hands them out, one after another. -/
def fgetsAll (room : Nat) : Nat → List Char → List (List Char)
  | 0, _ => []
  | _ + 1, [] => []
  | fuel + 1, s => (fgets room s).1 :: fgetsAll room fuel (fgets room s).2

theorem fgets_line {line : List Char} {room : Nat} (rest : List Char) (hline : '\n' ∉ line)
    (hroom : line.length < room) :
    fgets room (line ++ '\n' :: rest) = (line ++ ['\n'], rest) := by
  induction line generalizing room with
  | nil =>
      obtain ⟨room, rfl⟩ : ∃ n, room = n + 1 := ⟨room - 1, by simp at hroom; omega⟩
      simp [fgets]
  | cons c line ih =>
      obtain ⟨room, rfl⟩ : ∃ n, room = n + 1 := ⟨room - 1, by simp at hroom; omega⟩
      have hc : c ≠ '\n' := fun heq => hline (heq ▸ List.mem_cons_self)
      have hrest : '\n' ∉ line := fun hmem => hline (List.mem_cons_of_mem c hmem)
      have hlen : line.length < room := by simp at hroom; omega
      simp [fgets, hc, ih hrest hlen]

/-- A line that leaves no room for its newline comes out without it. -/
theorem fgets_full {line : List Char} (rest : List Char) (hline : '\n' ∉ line) :
    fgets line.length (line ++ rest) = (line, rest) := by
  induction line with
  | nil => simp [fgets]
  | cons c line ih =>
      have hc : c ≠ '\n' := fun heq => hline (heq ▸ List.mem_cons_self)
      have hrest : '\n' ∉ line := fun hmem => hline (List.mem_cons_of_mem c hmem)
      simp [fgets, hc, ih hrest]

theorem fgetsAll_cons {room fuel : Nat} {s line rest : List Char} (hs : s ≠ [])
    (hread : fgets room s = (line, rest)) :
    fgetsAll room (fuel + 1) s = line :: fgetsAll room fuel rest := by
  cases s with
  | nil => exact absurd rfl hs
  | cons c s => rw [fgetsAll, hread]; simp

/-- A reader that takes a line with or without its newline, and gets nothing from a newline alone,
reads lines that fit the buffer one by one. -/
theorem fgetsAll_filterMap {α : Type*} {read : List Char → Option α} {room : Nat}
    {lines : List (List Char)} {fuel : Nat} (hroom : 0 < room)
    (hnewline : read ['\n'] = none) (hread : ∀ line ∈ lines, read (line ++ ['\n']) = read line)
    (hlines : ∀ line ∈ lines, '\n' ∉ line ∧ line.length ≤ room)
    (hfuel : (lines.flatMap (· ++ ['\n'])).length ≤ fuel) :
    (fgetsAll room fuel (lines.flatMap (· ++ ['\n']))).filterMap read = lines.filterMap read := by
  induction lines generalizing fuel with
  | nil => cases fuel <;> rfl
  | cons line lines ih =>
      obtain ⟨hline, hlen⟩ := hlines line List.mem_cons_self
      set tail := lines.flatMap (· ++ ['\n']) with htail
      have hcons : (line :: lines).flatMap (· ++ ['\n']) = line ++ '\n' :: tail := by simp [htail]
      rw [hcons] at hfuel ⊢
      simp only [List.length_append, List.length_cons] at hfuel
      have hrest : ∀ fuel, tail.length ≤ fuel →
          (fgetsAll room fuel tail).filterMap read = lines.filterMap read := by
        intro fuel hf
        exact ih (fun l hl => hread l (List.mem_cons_of_mem line hl))
          (fun l hl => hlines l (List.mem_cons_of_mem line hl)) hf
      obtain hlt | heq := Nat.lt_or_eq_of_le hlen
      · obtain ⟨fuel, rfl⟩ : ∃ n, fuel = n + 1 := ⟨fuel - 1, by omega⟩
        rw [fgetsAll_cons (by simp) (fgets_line tail hline hlt), List.filterMap_cons,
          List.filterMap_cons, hrest fuel (by omega), hread line List.mem_cons_self]
      · -- the newline did not fit, and is read as a line of its own
        obtain ⟨fuel, rfl⟩ : ∃ n, fuel = n + 2 := ⟨fuel - 2, by omega⟩
        have hfull : fgets room (line ++ '\n' :: tail) = (line, '\n' :: tail) := by
          rw [← heq]
          exact fgets_full _ hline
        have halone : fgets room ('\n' :: tail) = (['\n'], tail) :=
          fgets_line tail (List.not_mem_nil) hroom
        rw [fgetsAll_cons (by simp) hfull, fgetsAll_cons (by simp) halone, List.filterMap_cons,
          List.filterMap_cons, List.filterMap_cons, hnewline, hrest fuel (by omega)]

end CText
