import Mathlib.Data.List.Basic

/-!
# Hiding text block by block

A text is hidden in blocks of one size: each is combined with what a key makes of the hidden block in front of it, the first
with what it makes of a start block. Whoever has the key and the start block takes the text back out.
-/

namespace Feedback

variable {α : Type} (op : α → α → α) (size : Nat) (key : List α → List α)

def hide : Nat → List α → List α → List α
  | 0, _, _ => []
  | n + 1, before, text =>
      let block := List.zipWith op (text.take size) (key before)
      block ++ hide n block (text.drop size)

def unhide : Nat → List α → List α → List α
  | 0, _, _ => []
  | n + 1, before, hidden =>
      List.zipWith op (hidden.take size) (key before) ++ unhide n (hidden.take size) (hidden.drop size)

variable {op size key} {n : Nat} {before text : List α}

theorem length_block (hkey : ∀ before, (key before).length = size) (htext : size ≤ text.length) :
    (List.zipWith op (text.take size) (key before)).length = size := by
  rw [List.length_zipWith, List.length_take_of_le htext, hkey, Nat.min_self]

theorem length_hide (hkey : ∀ before, (key before).length = size) (htext : text.length = n * size) :
    (hide op size key n before text).length = n * size := by
  induction n generalizing before text with
  | zero => rw [Nat.zero_mul]; rfl
  | succ n ih =>
      rw [Nat.succ_mul] at htext ⊢
      rw [hide, List.length_append, length_block hkey (by omega), ih (by rw [List.length_drop]; omega), Nat.add_comm]

theorem zipWith_cancel (hop : ∀ a b, op (op a b) b = a) {left right : List α} (h : left.length = right.length) :
    List.zipWith op (List.zipWith op left right) right = left := by
  induction left generalizing right with
  | nil => rfl
  | cons a left ih =>
      cases right with
      | nil => exact nomatch h
      | cons b right =>
          rw [List.zipWith_cons_cons, List.zipWith_cons_cons, hop, ih (Nat.succ_inj.mp h)]

/-- What was hidden comes back. -/
theorem unhide_hide (hop : ∀ a b, op (op a b) b = a) (hkey : ∀ before, (key before).length = size)
    (htext : text.length = n * size) : unhide op size key n before (hide op size key n before text) = text := by
  induction n generalizing before text with
  | zero =>
      rw [Nat.zero_mul, List.length_eq_zero_iff] at htext
      rw [htext]
      rfl
  | succ n ih =>
      rw [Nat.succ_mul] at htext
      have hsize : size ≤ text.length := by omega
      have hblock : (List.zipWith op (text.take size) (key before)).length = size := length_block hkey hsize
      have hrest : (text.drop size).length = n * size := by
        rw [List.length_drop]
        omega
      have htake : (text.take size).length = (key before).length := by rw [List.length_take_of_le hsize, hkey]
      rw [hide, unhide, List.take_left' hblock, List.drop_left' hblock, zipWith_cancel hop htake, ih hrest,
        List.take_append_drop]

end Feedback
