import Mathlib.Algebra.Order.Ring.Int
import Mathlib.Data.List.Basic
import Mathlib.Logic.Function.Basic

/-!
# Ring buffers

A ring of `cap` places in which the newest item takes the place of the oldest. The slots are a
function on indices, read only below `cap`. After any number of items the ring holds the last `cap`
of them, each at the index of its number modulo `cap`, and counting back from the next free place
finds them newest first.
-/

structure RingBuffer (α : Type*) where
  slots : Nat → α
  next : Nat
  count : Nat

namespace RingBuffer

variable {α : Type*} (cap : Nat)

def empty (zero : α) : RingBuffer α := ⟨fun _ => zero, 0, 0⟩

def push (r : RingBuffer α) (a : α) : RingBuffer α where
  slots := Function.update r.slots r.next a
  next := (r.next + 1) % cap
  count := if r.count < cap then r.count + 1 else r.count

/-- The ring holds the last items of `l`. -/
structure Holds (l : List α) (r : RingBuffer α) : Prop where
  next : r.next = l.length % cap
  count : r.count = min l.length cap
  slot : ∀ k (h : k < l.length), l.length ≤ k + cap → r.slots (k % cap) = l.get ⟨k, h⟩

theorem holds_empty (zero : α) : Holds cap [] (empty zero) where
  next := (Nat.zero_mod cap).symm
  count := (Nat.zero_min cap).symm
  slot k h := absurd h (Nat.not_lt_zero k)

variable {cap} {l : List α} {r : RingBuffer α}

/-- Two items that are both held have different indices. -/
theorem mod_ne_mod {k n : Nat} (h : k < n) (h' : n < k + cap) : k % cap ≠ n % cap := by
  intro heq
  have hdvd : cap ∣ n - k := Nat.dvd_of_mod_eq_zero (Nat.sub_mod_eq_zero_of_mod_eq heq.symm)
  have hle := Nat.le_of_dvd (by omega) hdvd
  omega

theorem Holds.push (h : Holds cap l r) (a : α) : Holds cap (l ++ [a]) (r.push cap a) where
  next := by
    rw [List.length_append, List.length_singleton]
    change (r.next + 1) % cap = _
    rw [h.next, Nat.mod_add_mod]
  count := by
    rw [List.length_append, List.length_singleton]
    change (if r.count < cap then r.count + 1 else r.count) = _
    rw [h.count]
    split <;> omega
  slot k hk hnew := by
    rw [List.length_append, List.length_singleton] at hnew hk
    change Function.update r.slots r.next a (k % cap) = _
    by_cases hlast : k = l.length
    · subst hlast
      rw [h.next, Function.update_self]
      simp
    · have hold : k < l.length := by omega
      have hne : k % cap ≠ r.next := by
        rw [h.next]
        exact mod_ne_mod hold (by omega)
      rw [Function.update_of_ne hne, h.slot k hold (by omega)]
      simp [List.getElem_append_left hold]

/-- Counting back from the next free place. -/
theorem Holds.back (h : Holds cap l r) {age : Nat} (hage : age < r.count) :
    r.slots (((r.next : Int) - 1 - age) % cap).toNat =
      l.get ⟨l.length - 1 - age, by rw [h.count] at hage; omega⟩ := by
  have hage' := hage
  rw [h.count] at hage'
  have hindex : (((r.next : Int) - 1 - age) % cap).toNat = (l.length - 1 - age) % cap := by
    rw [h.next]
    have hcast : ((l.length % cap : Nat) : Int) = (l.length : Int) % cap := by push_cast; rfl
    have hmod : ((l.length : Int) % cap - 1 - age) % cap = ((l.length : Int) - 1 - age) % cap := by
      rw [Int.sub_sub, Int.sub_sub, Int.emod_sub_emod]
    have hback : ((l.length : Int) - 1 - age) = ((l.length - 1 - age : Nat) : Int) := by omega
    rw [hcast, hmod, hback]
    exact Int.toNat_natCast _
  rw [hindex]
  exact h.slot _ _ (by omega)

end RingBuffer
