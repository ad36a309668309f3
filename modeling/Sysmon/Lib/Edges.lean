import Mathlib.Data.List.Basic

/-!
# Edges of a signal

A signal is seen at one moment after the other, and what is of interest is where it changes: an edge is the value
before and the one after. Not every moment is one at which an edge is taken down, but each is one at which the
signal is seen.
-/

namespace Edges

variable {α : Type} [DecidableEq α] {last : Option α} {left right seen : List (α × Bool)}

/-- The edges after the value that was seen last, at the moments that are marked. -/
def edgesFrom (last : Option α) : List (α × Bool) → List (α × α)
  | [] => []
  | (value, marked) :: seen =>
      (last.toList.filterMap fun old => if marked = true ∧ old ≠ value then some (old, value) else none) ++
        edgesFrom (some value) seen

def edges (seen : List (α × Bool)) : List (α × α) := edgesFrom none seen

/-- The value that was seen last. -/
def lastSeen (last : Option α) (seen : List (α × Bool)) : Option α := (seen.getLast?.map Prod.fst).or last

omit [DecidableEq α] in
theorem lastSeen_cons (last : Option α) (value : α) (marked : Bool) (seen : List (α × Bool)) :
    lastSeen last ((value, marked) :: seen) = lastSeen (some value) seen := by
  rw [lastSeen, lastSeen, List.getLast?_cons]
  cases seen.getLast? <;> rfl

omit [DecidableEq α] in
theorem lastSeen_append (last : Option α) (left right : List (α × Bool)) :
    lastSeen last (left ++ right) = lastSeen (lastSeen last left) right := by
  induction left generalizing last with
  | nil => rfl
  | cons first left ih => rw [List.cons_append, lastSeen_cons, ih, lastSeen_cons]

theorem edgesFrom_append (last : Option α) (left right : List (α × Bool)) :
    edgesFrom last (left ++ right) = edgesFrom last left ++ edgesFrom (lastSeen last left) right := by
  induction left generalizing last with
  | nil => rfl
  | cons first left ih => rw [List.cons_append, edgesFrom, edgesFrom, ih, List.append_assoc, lastSeen_cons]

/-- Where no moment is marked there is no edge. -/
theorem edgesFrom_unmarked (last : Option α) (values : List α) :
    edgesFrom last (values.map fun value => (value, false)) = [] := by
  induction values generalizing last with
  | nil => rfl
  | cons value values ih =>
      rw [List.map_cons, edgesFrom, ih]
      cases last <;> simp

/-- When all moments are marked, an edge begins where the one before it has ended. -/
theorem isChain_edgesFrom (value : α) (h : ∀ moment ∈ seen, moment.2 = true) :
    List.IsChain (fun edge next => edge.2 = next.1) ((value, value) :: edgesFrom (some value) seen) := by
  induction seen generalizing value with
  | nil => exact .singleton _
  | cons first seen ih =>
      obtain ⟨next, marked⟩ := first
      obtain rfl : marked = true := h _ List.mem_cons_self
      have hrest := ih next fun moment hmoment => h moment (List.mem_cons_of_mem _ hmoment)
      rw [edgesFrom]
      by_cases hsame : value = next
      · subst hsame
        simpa using hrest
      · have hfirst : ((some value).toList.filterMap fun old =>
            if true = true ∧ old ≠ next then some (old, next) else none) = [(value, next)] := by simp [hsame]
        rw [hfirst, List.singleton_append]
        refine List.isChain_cons_cons.mpr ⟨rfl, ?_⟩
        cases hedges : edgesFrom (some next) seen with
        | nil => exact .singleton _
        | cons edge edges =>
            rw [hedges] at hrest
            obtain ⟨hmeet, hedges⟩ := List.isChain_cons_cons.mp hrest
            exact List.isChain_cons_cons.mpr ⟨hmeet, hedges⟩

/-- Who knows the first value and has been told every edge knows the last value. -/
theorem last_edge (value : α) (h : ∀ moment ∈ seen, moment.2 = true) :
    ((edgesFrom (some value) seen).getLast?.map Prod.snd).getD value = (lastSeen (some value) seen).getD value := by
  induction seen generalizing value with
  | nil => rfl
  | cons first seen ih =>
      obtain ⟨next, marked⟩ := first
      obtain rfl : marked = true := h _ List.mem_cons_self
      have hrest := ih next fun moment hmoment => h moment (List.mem_cons_of_mem _ hmoment)
      rw [lastSeen_cons, edgesFrom]
      have hknown : ∀ other, (lastSeen (some next) seen).getD other = (lastSeen (some next) seen).getD next := by
        intro other
        rw [lastSeen]
        cases seen.getLast? <;> rfl
      rw [hknown value, ← hrest]
      by_cases hsame : value = next
      · subst hsame
        simp
      · simp only [Option.toList_some, List.filterMap_cons, hsame, ne_eq, not_false_eq_true, and_self, if_true,
          List.filterMap_nil, List.singleton_append, List.getLast?_cons]
        cases (edgesFrom (some next) seen).getLast? <;> rfl

end Edges
