import Mathlib.Data.List.Basic

/-!
# Taking a stream in block by block

A state takes in a stream in blocks of one size, and what is left of the stream is shorter than a block. A stream that
comes in parts gives the same state and the same rest as the whole, when the rest of each part goes in front of the next.
-/

namespace Absorb

variable {σ β : Type} (size : Nat) (compress : σ → List β → σ)

/-- So many blocks. -/
def absorb : Nat → σ → List β → σ
  | 0, s, _ => s
  | n + 1, s, m => absorb n (compress s (m.take size)) (m.drop size)

/-- All whole blocks. -/
def whole (s : σ) (m : List β) : σ := absorb size compress (m.length / size) s m

/-- What is left behind them. -/
def left (m : List β) : List β := m.drop (m.length / size * size)

variable {size compress} {n : Nat} {s : σ} {m a b : List β}

theorem length_left (m : List β) : (left size m).length = m.length % size := by
  rw [left, List.length_drop, Nat.mod_eq_sub_div_mul]

theorem whole_of_lt (h : m.length < size) : whole size compress s m = s := by
  rw [whole, Nat.div_eq_of_lt h, absorb]

theorem left_of_lt (h : m.length < size) : left size m = m := by
  rw [left, Nat.div_eq_of_lt h, Nat.zero_mul, List.drop_zero]

theorem whole_step (hsize : 0 < size) (h : size ≤ m.length) :
    whole size compress s m = whole size compress (compress s (m.take size)) (m.drop size) := by
  rw [whole, whole, List.length_drop, Nat.div_eq_sub_div hsize h, absorb]

theorem left_step (hsize : 0 < size) (h : size ≤ m.length) : left size m = left size (m.drop size) := by
  rw [left, left, List.length_drop, List.drop_drop, Nat.div_eq_sub_div hsize h, Nat.succ_mul, Nat.add_comm size]

/-- The first part is taken in, and what is left of it goes in front of the second. -/
theorem whole_append (hsize : 0 < size) (s : σ) (a b : List β) :
    whole size compress s (a ++ b) = whole size compress (whole size compress s a) (left size a ++ b) := by
  induction hlen : a.length using Nat.strongRecOn generalizing s a with
  | ind length ih =>
      subst hlen
      by_cases h : a.length < size
      · rw [whole_of_lt h, left_of_lt h]
      · have hle : size ≤ a.length := Nat.le_of_not_lt h
        have hless : (a.drop size).length < a.length := by
          rw [List.length_drop]
          omega
        rw [whole_step hsize (by rw [List.length_append]; omega), List.take_append_of_le_length hle,
          List.drop_append_of_le_length hle, ih _ hless _ _ rfl, ← whole_step hsize hle, ← left_step hsize hle]

theorem left_append (hsize : 0 < size) (a b : List β) : left size (a ++ b) = left size (left size a ++ b) := by
  induction hlen : a.length using Nat.strongRecOn generalizing a with
  | ind length ih =>
      subst hlen
      by_cases h : a.length < size
      · rw [left_of_lt h]
      · have hle : size ≤ a.length := Nat.le_of_not_lt h
        have hless : (a.drop size).length < a.length := by
          rw [List.length_drop]
          omega
        rw [left_step hsize (by rw [List.length_append]; omega), List.drop_append_of_le_length hle, ih _ hless _ rfl,
          ← left_step hsize hle]

/-- A block that is full with what is left. -/
theorem whole_fill (hsize : 0 < size) {front rest : List β} (h : (a ++ front).length = size) :
    whole size compress s (a ++ (front ++ rest)) = whole size compress (compress s (a ++ front)) rest := by
  have hle : size ≤ (a ++ (front ++ rest)).length := by
    rw [← List.append_assoc, List.length_append]
    omega
  rw [whole_step hsize hle, ← List.append_assoc, List.take_left' h, List.drop_left' h]

theorem left_fill (hsize : 0 < size) {front rest : List β} (h : (a ++ front).length = size) :
    left size (a ++ (front ++ rest)) = left size rest := by
  have hle : size ≤ (a ++ (front ++ rest)).length := by
    rw [← List.append_assoc, List.length_append]
    omega
  rw [left_step hsize hle, ← List.append_assoc, List.drop_left' h]

end Absorb
