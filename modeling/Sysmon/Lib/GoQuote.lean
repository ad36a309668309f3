import Sysmon.Lib.GoText

/-!
# Text between quotes

What `strconv.Quote`, and `%q`, make of a text of bytes. Which runes can be printed is a matter of a large table: it is
a parameter here, and no fact below depends on it.
-/

namespace GoText

/-- The number of a rune. -/
def codePoint : List UInt8 → Nat
  | [] => 0
  | [a] => a.toNat
  | [a, b] => a.toNat % 32 * 64 + b.toNat % 64
  | [a, b, c] => (a.toNat % 16 * 64 + b.toNat % 64) * 64 + c.toNat % 64
  | a :: b :: c :: d :: _ => ((a.toNat % 8 * 64 + b.toNat % 64) * 64 + c.toNat % 64) * 64 + d.toNat % 64

/-- The last hexadecimal digits of a number. -/
def hexDigits : Nat → Nat → List UInt8
  | 0, _ => []
  | width + 1, n => hexDigits width (n / 16) ++ [UInt8.ofNat (if n % 16 < 10 then 48 + n % 16 else 87 + n % 16)]

/-- The control characters with a letter of their own. -/
def letters : List (List UInt8 × UInt8) :=
  [([7], 97), ([8], 98), ([12], 102), ([10], 110), ([13], 114), ([9], 116), ([11], 118)]

/-- A rune as its number. -/
def numbered (r : Nat) : List UInt8 :=
  if r < 32 ∨ r = 127 then [92, 120] ++ hexDigits 2 r
  else if r < 0x10000 then [92, 117] ++ hexDigits 4 r
  else [92, 85] ++ hexDigits 8 r

variable (isPrint : List UInt8 → Bool)

/-- A rune between quotes. -/
def quoteRune (rune : List UInt8) : List UInt8 :=
  if rune = [34] ∨ rune = [92] then 92 :: rune
  else if isPrint rune then rune
  else match letters.find? fun row => row.1 = rune with
    | some row => [92, row.2]
    | none => numbered (codePoint rune)

/-- The runes of a text between quotes, with so many bytes of the current one still to be passed. A byte that belongs to
none is written as its number. -/
def quoteLoop : Nat → List UInt8 → List UInt8
  | _, [] => []
  | left + 1, _ :: s => quoteLoop left s
  | 0, b :: s =>
      match runeLength (b :: s) with
      | 0 => [92, 120] ++ hexDigits 2 b.toNat ++ quoteLoop 0 s
      | left + 1 => quoteRune isPrint ((b :: s).take (left + 1)) ++ quoteLoop left s

/-- `strconv.Quote`. -/
def quote (s : List UInt8) : List UInt8 := 34 :: quoteLoop isPrint 0 s ++ [34]

/-! ### What is not in it -/

theorem newline_not_mem_hexDigits (width n : Nat) : 10 ∉ hexDigits width n := by
  induction width generalizing n with
  | zero => exact List.not_mem_nil
  | succ width ih =>
      have hdigit : ∀ d < 16, (10 : UInt8) ≠ UInt8.ofNat (if d < 10 then 48 + d else 87 + d) := by decide
      rw [hexDigits, List.mem_append, List.mem_singleton, not_or]
      exact ⟨ih _, hdigit (n % 16) (Nat.mod_lt _ (by decide))⟩

theorem newline_not_mem_numbered (r : Nat) : 10 ∉ numbered r := by
  rw [numbered]
  split
  · simpa using newline_not_mem_hexDigits 2 r
  · split
    · simpa using newline_not_mem_hexDigits 4 r
    · simpa using newline_not_mem_hexDigits 8 r

theorem newline_not_mem_quoteRune {rune : List UInt8} (h : 10 ∉ rune) : 10 ∉ quoteRune isPrint rune := by
  have hletters : ∀ row ∈ letters, 10 ∉ [92, row.2] := by decide
  rw [quoteRune]
  split
  · rw [List.mem_cons, not_or]
    exact ⟨by decide, h⟩
  · split
    · exact h
    · split
      · rename_i row hrow
        exact hletters row (List.mem_of_find?_eq_some hrow)
      · exact newline_not_mem_numbered _

theorem newline_not_mem_quoteLoop (left : Nat) {s : List UInt8} (h : 10 ∉ s) : 10 ∉ quoteLoop isPrint left s := by
  induction s generalizing left with
  | nil => simp [quoteLoop]
  | cons b s ih =>
      have hs : 10 ∉ s := fun hmem => h (List.mem_cons_of_mem _ hmem)
      cases left with
      | succ left => exact ih left hs
      | zero =>
          rw [quoteLoop]
          split
          · rw [List.mem_append, not_or]
            exact ⟨by simpa using newline_not_mem_hexDigits 2 _, ih 0 hs⟩
          · rw [List.mem_append, not_or]
            exact ⟨newline_not_mem_quoteRune isPrint fun hmem => h (List.mem_of_mem_take hmem), ih _ hs⟩

/-- A text on one line is quoted on one line. -/
theorem newline_not_mem_quote {s : List UInt8} (h : 10 ∉ s) : 10 ∉ quote isPrint s := by
  have hloop := newline_not_mem_quoteLoop isPrint 0 h
  simp [quote, hloop]

end GoText
