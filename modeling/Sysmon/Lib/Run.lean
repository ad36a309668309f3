import Mathlib.Data.List.Infix

/-!
# Runs of a step function

A system is a step function `step : σ → ε → σ`, a run is a list of events, and the states a run
passes through are the results of its prefixes. A property that a run keeps is one that holds after
every prefix. There are two rules: when one step keeps a property under a guard on the state before
it, a run whose steps all meet the guard keeps it (`always_of_guarded`), and when the guard is exact
for one step, so it is for a whole run (`always_iff_guarded`). A third rule compares two runs of the
same events: what they make of a cell that an event either overwrites or leaves alone is the same
exactly when it was the same before or some event has overwritten it (`exec_eq_iff_written`). A system
of threads has them in a list, in which a step sets one of them or puts a new one at the end.
-/

namespace Run

variable {σ ε : Type*} (step : σ → ε → σ)

/-- The state after a list of events. -/
def exec (s : σ) (es : List ε) : σ := es.foldl step s

@[simp] theorem exec_nil (s : σ) : exec step s [] = s := rfl

@[simp] theorem exec_cons (s : σ) (e : ε) (es : List ε) :
    exec step s (e :: es) = exec step (step s e) es := rfl

theorem exec_append (s : σ) (left right : List ε) :
    exec step s (left ++ right) = exec step (exec step s left) right := List.foldl_append

@[simp] theorem exec_concat (s : σ) (es : List ε) (e : ε) :
    exec step s (es ++ [e]) = step (exec step s es) e := by
  rw [exec_append]
  rfl

/-- The property holds in every state the run passes through. -/
def Always (P : σ → Prop) (s : σ) (es : List ε) : Prop := ∀ pre, pre <+: es → P (exec step s pre)

/-- Every step of the run meets the guard, in the state it is taken from. -/
def Guarded (guard : σ → ε → Prop) (s : σ) (es : List ε) : Prop :=
  ∀ pre e, pre ++ [e] <+: es → guard (exec step s pre) e

variable {step} {P : σ → Prop} {guard : σ → ε → Prop} {s : σ} {e : ε} {es : List ε}

theorem always_nil : Always step P s [] ↔ P s := by
  constructor
  · intro h
    exact h [] (List.nil_prefix)
  · intro h pre hpre
    rw [List.prefix_nil.mp hpre]
    exact h

theorem always_cons : Always step P s (e :: es) ↔ P s ∧ Always step P (step s e) es := by
  constructor
  · intro h
    refine ⟨h [] List.nil_prefix, fun pre hpre => ?_⟩
    exact h (e :: pre) (List.cons_prefix_cons.mpr ⟨rfl, hpre⟩)
  · rintro ⟨hs, htail⟩ pre hpre
    cases pre with
    | nil => exact hs
    | cons e' pre =>
        obtain ⟨rfl, hrest⟩ := List.cons_prefix_cons.mp hpre
        exact htail pre hrest

theorem guarded_nil : Guarded step guard s [] := by
  intro pre e hpre
  exact absurd (List.prefix_nil.mp hpre) (List.append_ne_nil_of_right_ne_nil _ (by simp))

theorem guarded_cons :
    Guarded step guard s (e :: es) ↔ guard s e ∧ Guarded step guard (step s e) es := by
  constructor
  · intro h
    refine ⟨h [] e (List.cons_prefix_cons.mpr ⟨rfl, List.nil_prefix⟩), fun pre e' hpre => ?_⟩
    exact h (e :: pre) e' (List.cons_prefix_cons.mpr ⟨rfl, hpre⟩)
  · rintro ⟨hs, htail⟩ pre e' hpre
    cases pre with
    | nil =>
        obtain ⟨rfl, -⟩ := List.cons_prefix_cons.mp hpre
        exact hs
    | cons e'' pre =>
        obtain ⟨rfl, hrest⟩ := List.cons_prefix_cons.mp hpre
        exact htail pre e' hrest

instance decidableGuarded [∀ s e, Decidable (guard s e)] :
    (s : σ) → (es : List ε) → Decidable (Guarded step guard s es)
  | _, [] => isTrue guarded_nil
  | s, e :: es =>
      have := decidableGuarded (step s e) es
      decidable_of_iff (guard s e ∧ Guarded step guard (step s e) es) guarded_cons.symm

theorem guarded_append {left right : List ε} : Guarded step guard s (left ++ right) ↔
    Guarded step guard s left ∧ Guarded step guard (exec step s left) right := by
  induction left generalizing s with
  | nil => simp [guarded_nil]
  | cons e left ih => rw [List.cons_append, guarded_cons, guarded_cons, ih, and_assoc, exec_cons]

theorem Always.exec_take (h : Always step P s es) (n : Nat) : P (exec step s (es.take n)) :=
  h _ (List.take_prefix n es)

/-- A step that keeps the property under the guard makes runs that keep it when all their steps
meet the guard. -/
theorem always_of_guarded (hstep : ∀ s e, P s → guard s e → P (step s e)) (hP : P s)
    (hguard : Guarded step guard s es) : Always step P s es := by
  induction es generalizing s with
  | nil => exact always_nil.mpr hP
  | cons e es ih =>
      obtain ⟨hfirst, hrest⟩ := guarded_cons.mp hguard
      exact always_cons.mpr ⟨hP, ih (hstep s e hP hfirst) hrest⟩

/-- A guard that no step of the run can miss. -/
theorem guarded_of_forall (h : ∀ e ∈ es, ∀ s, guard s e) : Guarded step guard s es := by
  intro pre e hpre
  exact h e (hpre.subset (by simp)) _

/-- A step that keeps the property exactly under the guard makes runs that keep it exactly when all
their steps meet the guard. The invariant `I` is what every step keeps without any guard. -/
theorem always_iff_guarded {I : σ → Prop} (hI : ∀ s e, I s → I (step s e))
    (hstep : ∀ s e, I s → P s → (P (step s e) ↔ guard s e)) (hs : I s) (hP : P s) :
    Always step P s es ↔ Guarded step guard s es := by
  induction es generalizing s with
  | nil => exact ⟨fun _ => guarded_nil, fun _ => always_nil.mpr hP⟩
  | cons e es ih =>
      rw [always_cons, guarded_cons]
      constructor
      · rintro ⟨-, hrun⟩
        have hnext : P (step s e) := by simpa using hrun [] List.nil_prefix
        exact ⟨(hstep s e hs hP).mp hnext, (ih (hI s e hs) hnext).mp hrun⟩
      · rintro ⟨hguard, hrun⟩
        have hnext : P (step s e) := (hstep s e hs hP).mpr hguard
        exact ⟨hP, (ih (hI s e hs) hnext).mpr hrun⟩

/-- Two guards that come to the same in the states a run can pass through. -/
theorem guarded_congr {guard' : σ → ε → Prop} {I : σ → Prop} (hI : ∀ s e, I s → I (step s e))
    (h : ∀ s e, I s → (guard s e ↔ guard' s e)) (hs : I s) :
    Guarded step guard s es ↔ Guarded step guard' s es := by
  induction es generalizing s with
  | nil => exact iff_of_true guarded_nil guarded_nil
  | cons e es ih => rw [guarded_cons, guarded_cons, h s e hs, ih (hI s e hs)]

/-! ### Cells -/

/-- Some event of the list overwrites the cell. -/
def Written {α : Type*} (write : ε → Option α) (es : List ε) : Prop := ∃ e ∈ es, (write e).isSome

/-- The cell holds what the last event that writes to it has written. -/
theorem exec_cell {α : Type*} {I : σ → Prop} {cell : σ → α} {write : ε → Option α}
    (hI : ∀ s e, I s → I (step s e)) (hcell : ∀ s e, I s → cell (step s e) = (write e).getD (cell s))
    {s : σ} (hs : I s) : cell (exec step s es) = (es.filterMap write).getLast?.getD (cell s) := by
  induction es generalizing s with
  | nil => rfl
  | cons e es ih =>
      rw [exec_cons, ih (hI s e hs), hcell s e hs, List.filterMap_cons]
      cases hwrite : write e with
      | none => rfl
      | some a =>
          rw [List.getLast?_cons]
          cases (es.filterMap write).getLast? <;> rfl

theorem exec_eq_iff_written {α : Type*} {I : σ → Prop} {cell : σ → α} {write : ε → Option α}
    (hI : ∀ s e, I s → I (step s e)) (hcell : ∀ s e, I s → cell (step s e) = (write e).getD (cell s))
    {left right : σ} (hleft : I left) (hright : I right) :
    cell (exec step left es) = cell (exec step right es) ↔
      Written write es ∨ cell left = cell right := by
  induction es generalizing left right with
  | nil => simp [Written]
  | cons e es ih =>
      rw [exec_cons, exec_cons, ih (hI left e hleft) (hI right e hright), hcell left e hleft,
        hcell right e hright]
      cases hwrite : write e with
      | none => simp [Written, hwrite]
      | some a => simp [Written, hwrite]

/-! ### Threads -/

variable {α : Type*} {threads : List α}

theorem getElem?_set_self' {t : Nat} {x y : α} (hget : threads[t]? = some x) :
    (threads.set t y)[t]? = some y := by
  obtain ⟨hlt, -⟩ := List.getElem?_eq_some_iff.mp hget
  rw [List.getElem?_set_self hlt]

theorem getElem?_of_set {t i : Nat} {x y : α}
    (hget : (threads.set t x)[i]? = some y) : i = t ∧ y = x ∨ i ≠ t ∧ threads[i]? = some y := by
  by_cases hit : i = t
  · subst hit
    rw [List.getElem?_set_self'] at hget
    obtain ⟨-, -, rfl⟩ := Option.map_eq_some_iff.mp hget
    exact Or.inl ⟨rfl, rfl⟩
  · rw [List.getElem?_set_ne (Ne.symm hit)] at hget
    exact Or.inr ⟨hit, hget⟩

/-- The thread that comes last is the new one. -/
theorem getElem?_of_append {i : Nat} {x y : α}
    (hget : (threads ++ [x])[i]? = some y) : threads[i]? = some y ∨ i = threads.length ∧ y = x := by
  rw [List.getElem?_append] at hget
  split at hget
  · exact Or.inl hget
  next hlt =>
    obtain ⟨hi, -⟩ := List.getElem?_eq_some_iff.mp hget
    have hlast : i = threads.length := by
      rw [List.length_singleton] at hi
      omega
    exact Or.inr ⟨hlast, List.mem_singleton.mp (List.mem_of_getElem? hget)⟩

end Run
