import Mathlib.Control.Monad.Writer

/-!
# Computations that keep a log

A computation of `Writer (List ε)` logs events on its way to a result. `Keeps p m q` says of it that
every event it logs meets `p` and its result meets `q`. The rules are those of Hoare: a sequence is
taken apart at the result in the middle, and a loop over a list follows a fold that needs no log.
-/

namespace Logged

variable {ε α β ι : Type} {p : ε → Prop}

def result (m : Writer (List ε) α) : α := m.run.1

def log (m : Writer (List ε) α) : List ε := m.run.2

def Keeps (p : ε → Prop) (m : Writer (List ε) α) (q : α → Prop) : Prop :=
  (∀ e ∈ log m, p e) ∧ q (result m)

theorem Keeps.mono {m : Writer (List ε) α} {q r : α → Prop} (h : Keeps p m q)
    (himp : ∀ a, q a → r a) : Keeps p m r :=
  ⟨h.1, himp _ h.2⟩

theorem keeps_pure {a : α} {q : α → Prop} (h : q a) : Keeps p (pure a) q :=
  ⟨fun _ he => absurd he List.not_mem_nil, h⟩

theorem keeps_tell {e : ε} (h : p e) : Keeps p (tell [e]) fun _ => True := by
  refine ⟨fun e' he' => ?_, trivial⟩
  obtain rfl : e' = e := List.mem_singleton.mp he'
  exact h

theorem Keeps.bind {m : Writer (List ε) α} {f : α → Writer (List ε) β} {q : α → Prop} {r : β → Prop}
    (hm : Keeps p m q) (hf : ∀ a, q a → Keeps p (f a) r) : Keeps p (m >>= f) r := by
  obtain ⟨hlog, hresult⟩ := hf (result m) hm.2
  refine ⟨fun e he => ?_, hresult⟩
  rcases List.mem_append.mp (show e ∈ log m ++ log (f (result m)) from he) with hfirst | hsecond
  · exact hm.1 e hfirst
  · exact hlog e hsecond

theorem Keeps.map {m : Writer (List ε) α} {f : α → β} {q : β → Prop}
    (hm : Keeps p m fun a => q (f a)) : Keeps p (f <$> m) q := hm

theorem keeps_ite {c : Prop} [Decidable c] {m m' : Writer (List ε) α} {a a' : α}
    (hthen : c → Keeps p m (· = a)) (helse : ¬c → Keeps p m' (· = a')) :
    Keeps p (if c then m else m') (· = if c then a else a') := by
  split
  next h => exact hthen h
  next h => exact helse h

/-- A loop whose rounds each do what `g` does, does what the fold with `g` does. -/
theorem keeps_foldlM {f : β → ι → Writer (List ε) β} {g : β → ι → β} {l : List ι}
    (h : ∀ b, ∀ i ∈ l, Keeps p (f b i) (· = g b i)) (b : β) :
    Keeps p (l.foldlM f b) (· = l.foldl g b) := by
  induction l generalizing b with
  | nil => exact keeps_pure rfl
  | cons i l ih =>
      refine (h b i List.mem_cons_self).bind fun b' hb' => ?_
      rw [hb']
      exact ih (fun b j hj => h b j (List.mem_cons_of_mem i hj)) (g b i)

end Logged
