import Mathlib.Data.Finset.Card
import Mathlib.Data.List.Nodup
import Mathlib.Logic.Relation

/-!
# Depth-first walks

A walk over a graph that may have cycles, with the nodes it has visited. A node is entered once, and only if
it may be; from there the walk goes on to its successors, one after the other. The recursion is given a depth,
and a depth above the number of nodes is enough. What a walk comes to is described by `Walked`, which composes
along a list of nodes.
-/

namespace DepthFirst

variable {α : Type*} (enters : α → Bool) (next : α → List α)

/-- From a node that is entered to one that may be. -/
def Edge (u w : α) : Prop := w ∈ next u ∧ enters w = true

/-- A walk that starts at `a` comes to `v`. -/
def Reaches (a v : α) : Prop := enters a = true ∧ Relation.ReflTransGen (Edge enters next) a v

/-- What a walk from some nodes, one after the other, makes of the nodes seen before. -/
structure Walked (starts seen out : List α) : Prop where
  grew : seen ⊆ out
  once : seen.Nodup → out.Nodup
  reached : ∀ v ∈ out, v ∈ seen ∨ ∃ a ∈ starts, Reaches enters next a v
  found : ∀ a ∈ starts, enters a = true → a ∈ out
  closed : ∀ v ∈ out, v ∉ seen → ∀ w, Edge enters next v w → w ∈ out

variable {enters next} {a : α} {starts rest seen mid out : List α}

theorem Walked.nil : Walked enters next [] seen seen where
  grew := List.Subset.refl seen
  once := id
  reached := fun _ hv => Or.inl hv
  found := fun _ ha => absurd ha List.not_mem_nil
  closed := fun _ hv hnew => absurd hv hnew

theorem Walked.cons (h : Walked enters next [a] seen mid) (h' : Walked enters next rest mid out) :
    Walked enters next (a :: rest) seen out where
  grew := List.Subset.trans h.grew h'.grew
  once := fun hseen => h'.once (h.once hseen)
  reached := by
    intro v hv
    obtain hmid | ⟨b, hb, hreach⟩ := h'.reached v hv
    · obtain hseen | ⟨b, hb, hreach⟩ := h.reached v hmid
      · exact Or.inl hseen
      · rw [List.mem_singleton.mp hb] at hreach
        exact Or.inr ⟨a, List.mem_cons_self, hreach⟩
    · exact Or.inr ⟨b, List.mem_cons_of_mem a hb, hreach⟩
  found := by
    intro b hb henters
    obtain rfl | hrest := List.mem_cons.mp hb
    · exact h'.grew (h.found b List.mem_cons_self henters)
    · exact h'.found b hrest henters
  closed := by
    intro v hv hnew w hedge
    by_cases hmid : v ∈ mid
    · exact h'.grew (h.closed v hmid hnew w hedge)
    · exact h'.closed v hv hmid w hedge

theorem Walked.skip (h : a ∈ seen ∨ enters a = false) : Walked enters next [a] seen seen where
  grew := List.Subset.refl seen
  once := id
  reached := fun _ hv => Or.inl hv
  found := by
    intro b hb henters
    rw [List.mem_singleton] at hb
    subst hb
    obtain hseen | hno := h
    · exact hseen
    · rw [hno] at henters
      exact absurd henters Bool.false_ne_true
  closed := fun _ hv hnew => absurd hv hnew

/-- A node that is entered, once the walk is back from its successors. -/
theorem Walked.enter (hnew : a ∉ seen) (henters : enters a = true) (h : Walked enters next (next a) (a :: seen) out) :
    Walked enters next [a] seen out where
  grew := fun _ hv => h.grew (List.mem_cons_of_mem a hv)
  once := fun hseen => h.once (List.nodup_cons.mpr ⟨hnew, hseen⟩)
  reached := by
    intro v hv
    obtain hbefore | ⟨b, hb, hstart, hpath⟩ := h.reached v hv
    · obtain rfl | hseen := List.mem_cons.mp hbefore
      · exact Or.inr ⟨v, List.mem_cons_self, henters, Relation.ReflTransGen.refl⟩
      · exact Or.inl hseen
    · exact Or.inr ⟨a, List.mem_cons_self, henters, Relation.ReflTransGen.head ⟨hb, hstart⟩ hpath⟩
  found := by
    intro b hb _
    rw [List.mem_singleton.mp hb]
    exact h.grew List.mem_cons_self
  closed := by
    intro v hv hfresh w hedge
    by_cases hva : v = a
    · subst hva
      exact h.found w hedge.1 hedge.2
    · exact h.closed v hv (fun hmem => (List.mem_cons.mp hmem).elim hva hfresh) w hedge

/-- A walk from one node, with nothing seen before, visits what it can come to. -/
theorem Walked.mem_iff {v : α} (h : Walked enters next [a] [] out) : v ∈ out ↔ Reaches enters next a v := by
  constructor
  · intro hv
    obtain hnil | ⟨b, hb, hreach⟩ := h.reached v hv
    · exact absurd hnil List.not_mem_nil
    · rwa [List.mem_singleton.mp hb] at hreach
  · rintro ⟨hstart, hpath⟩
    induction hpath with
    | refl => exact h.found a List.mem_cons_self hstart
    | tail _ hedge ih => exact h.closed _ ih List.not_mem_nil _ hedge

/-- What is visited are nodes, so there are no more of them than there are nodes. -/
theorem Walked.subset {nodes : List α} (hnext : ∀ u ∈ nodes, ∀ w ∈ next u, w ∈ nodes) (hnode : a ∈ nodes)
    (h : Walked enters next [a] [] out) : out ⊆ nodes := by
  intro v hv
  obtain ⟨-, hpath⟩ := h.mem_iff.mp hv
  induction hpath with
  | refl => exact hnode
  | tail hbefore hedge ih => exact hnext _ (ih (h.mem_iff.mpr ⟨(h.mem_iff.mp hv).1, hbefore⟩)) _ hedge.1

section visit

variable [DecidableEq α]

variable (enters next) in
/-- The nodes visited once the walk is back from `a`, the latest first. Nothing, if the depth is too small. -/
def visit : Nat → List α → α → Option (List α)
  | 0, _, _ => none
  | depth + 1, seen, a =>
      if a ∈ seen ∨ enters a = false then some seen else (next a).foldlM (visit depth) (a :: seen)

theorem walked_foldlM {depth : Nat}
    (ih : ∀ seen a out, visit enters next depth seen a = some out → Walked enters next [a] seen out)
    (h : starts.foldlM (visit enters next depth) seen = some out) : Walked enters next starts seen out := by
  induction starts generalizing seen with
  | nil =>
      rw [List.foldlM_nil, Option.pure_def, Option.some.injEq] at h
      subst h
      exact Walked.nil
  | cons a starts hstarts =>
      rw [List.foldlM_cons, Option.bind_eq_bind, Option.bind_eq_some_iff] at h
      obtain ⟨mid, hfirst, hrest⟩ := h
      exact (ih seen a mid hfirst).cons (hstarts hrest)

theorem walked_visit (depth : Nat) (seen : List α) (a : α) (out : List α)
    (h : visit enters next depth seen a = some out) : Walked enters next [a] seen out := by
  induction depth generalizing seen a out with
  | zero => cases h
  | succ depth ih =>
      rw [visit] at h
      split at h
      next hskip =>
        rw [Option.some.injEq] at h
        subst h
        exact Walked.skip hskip
      next hnew =>
        rw [not_or, Bool.not_eq_false] at hnew
        exact Walked.enter hnew.1 hnew.2 (walked_foldlM ih h)

/-! ### The depth that is enough -/

variable {nodes : List α}

/-- The nodes that are still to be visited. -/
def unseen (nodes seen : List α) : Finset α := nodes.toFinset \ seen.toFinset

theorem unseen_subset (h : seen ⊆ out) : unseen nodes out ⊆ unseen nodes seen :=
  Finset.sdiff_subset_sdiff (Finset.Subset.refl _) fun _ hv =>
    List.mem_toFinset.mpr (h (List.mem_toFinset.mp hv))

theorem card_unseen_cons (hnode : a ∈ nodes) (hnew : a ∉ seen) :
    (unseen nodes (a :: seen)).card < (unseen nodes seen).card := by
  apply Finset.card_lt_card
  refine (Finset.ssubset_iff_of_subset (unseen_subset (List.subset_cons_self a seen))).mpr ⟨a, ?_, ?_⟩
  · rw [unseen, Finset.mem_sdiff, List.mem_toFinset, List.mem_toFinset]
    exact ⟨hnode, hnew⟩
  · rw [unseen, Finset.mem_sdiff, List.mem_toFinset, List.mem_toFinset]
    exact fun h => h.2 List.mem_cons_self

/-- The recursion ends: it goes down only as often as there are nodes it has not seen. -/
theorem exists_visit (hnext : ∀ u ∈ nodes, ∀ w ∈ next u, w ∈ nodes) {depth : Nat} (hnode : a ∈ nodes)
    (hdepth : (unseen nodes seen).card < depth) : ∃ out, visit enters next depth seen a = some out := by
  induction depth generalizing seen a with
  | zero => exact absurd hdepth (Nat.not_lt_zero _)
  | succ depth ih =>
      rw [visit]
      split
      next => exact ⟨seen, rfl⟩
      next hnew =>
        rw [not_or] at hnew
        have hfewer : (unseen nodes (a :: seen)).card < depth := by
          have hcons := card_unseen_cons hnode hnew.1
          omega
        suffices hall : ∀ (starts : List α) (mid : List α), (∀ w ∈ starts, w ∈ nodes) →
            (unseen nodes mid).card < depth → ∃ out, starts.foldlM (visit enters next depth) mid = some out from
          hall (next a) (a :: seen) (hnext a hnode) hfewer
        intro starts
        induction starts with
        | nil => exact fun mid _ _ => ⟨mid, rfl⟩
        | cons b starts hstarts =>
            intro mid hnodes hmid
            obtain ⟨out, hout⟩ := ih (hnodes b List.mem_cons_self) hmid
            have hless : (unseen nodes out).card < depth :=
              lt_of_le_of_lt (Finset.card_le_card (unseen_subset (walked_visit depth mid b out hout).grew)) hmid
            rw [List.foldlM_cons, Option.bind_eq_bind, hout, Option.bind_some]
            exact hstarts out (fun w hw => hnodes w (List.mem_cons_of_mem b hw)) hless

/-- More depth makes no difference. -/
theorem visit_mono {depth depth' : Nat} (hle : depth ≤ depth') (h : visit enters next depth seen a = some out) :
    visit enters next depth' seen a = some out := by
  induction depth generalizing depth' seen a out with
  | zero => cases h
  | succ depth ih =>
      obtain ⟨more, rfl⟩ : ∃ more, depth' = more + 1 := ⟨depth' - 1, by omega⟩
      rw [visit] at h ⊢
      split
      next hskip => rwa [if_pos hskip] at h
      next hnew =>
        rw [if_neg hnew] at h
        generalize a :: seen = mid, next a = starts at h ⊢
        induction starts generalizing mid with
        | nil => exact h
        | cons b starts hstarts =>
            rw [List.foldlM_cons, Option.bind_eq_bind, Option.bind_eq_some_iff] at h
            obtain ⟨after, hfirst, hrest⟩ := h
            rw [List.foldlM_cons, ih (Nat.le_of_succ_le_succ hle) hfirst]
            exact hstarts after hrest

theorem card_unseen_le (nodes seen : List α) : (unseen nodes seen).card ≤ nodes.length :=
  (Finset.card_le_card Finset.sdiff_subset).trans (List.toFinset_card_le nodes)

end visit

end DepthFirst
