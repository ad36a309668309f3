import Mathlib.Data.List.AList
import Mathlib.Data.List.Induction

/-!
# Work in groups

Items that are sorted by a key into groups, the groups in the order in which their first items come, and then worked on
group by group. If the items of two groups do not get into each other's way, that is to work on the items one after the
other as they come. Within a group the order matters, and it is kept.
-/

namespace Grouped

variable {α κ σ : Type}

/-- The keys in the order in which they were first seen, and the items of each. -/
structure Groups (κ α : Type) where
  order : List κ
  members : AList fun _ : κ => List α

variable [DecidableEq κ]

namespace Groups

def empty : Groups κ α := ⟨[], ∅⟩

/-- The items of a key. -/
def get (groups : Groups κ α) (k : κ) : List α := (groups.members.lookup k).getD []

def add (groups : Groups κ α) (k : κ) (a : α) : Groups κ α where
  order := if k ∈ groups.members then groups.order else groups.order ++ [k]
  members := groups.members.insert k (groups.get k ++ [a])

/-- The items in their groups. One without a key is in none. -/
def of (key : α → Option κ) (items : List α) : Groups κ α :=
  items.foldl (fun groups a => (key a).elim groups (groups.add · a)) empty

/-- The groups one after the other, and in each the items as they came. -/
def work (step : σ → α → σ) (groups : Groups κ α) (s : σ) : σ :=
  groups.order.foldl (fun s k => (groups.get k).foldl step s) s

variable {groups : Groups κ α} {k k' : κ} {a : α}

theorem get_add : (groups.add k a).get k' = if k' = k then groups.get k ++ [a] else groups.get k' := by
  by_cases heq : k' = k
  · subst heq
    rw [if_pos rfl, get, add, AList.lookup_insert]
    rfl
  · rw [if_neg heq, get, add, AList.lookup_insert_ne heq, get]

/-- What the order says of the map: it has its keys, each once, and no group is empty. -/
structure Sound (groups : Groups κ α) : Prop where
  nodup : groups.order.Nodup
  mem : ∀ k, k ∈ groups.order ↔ k ∈ groups.members
  inhabited : ∀ k, k ∈ groups.members ↔ groups.get k ≠ []

theorem sound_empty : (empty : Groups κ α).Sound where
  nodup := List.nodup_nil
  mem := fun k => by simp [empty]
  inhabited := fun k => by simp [empty, get]

theorem Sound.add (h : groups.Sound) (k : κ) (a : α) : (groups.add k a).Sound where
  nodup := by
    show (if k ∈ groups.members then groups.order else groups.order ++ [k]).Nodup
    by_cases hmem : k ∈ groups.members
    · rw [if_pos hmem]
      exact h.nodup
    · rw [if_neg hmem]
      have hnew : k ∉ groups.order := fun hk => hmem ((h.mem k).mp hk)
      exact List.Nodup.append h.nodup (List.nodup_singleton k) (List.disjoint_singleton.mpr hnew)
  mem := fun k' => by
    show k' ∈ (if k ∈ groups.members then groups.order else groups.order ++ [k]) ↔
      k' ∈ groups.members.insert k (groups.get k ++ [a])
    rw [AList.mem_insert, ← h.mem k']
    by_cases hmem : k ∈ groups.members
    · rw [if_pos hmem, iff_or_self]
      rintro rfl
      exact (h.mem _).mpr hmem
    · rw [if_neg hmem, List.mem_append, List.mem_singleton, or_comm]
  inhabited := fun k' => by
    rw [get_add]
    show k' ∈ groups.members.insert k (groups.get k ++ [a]) ↔ _
    rw [AList.mem_insert]
    by_cases heq : k' = k
    · simp [heq]
    · rw [if_neg heq, ← h.inhabited k', or_iff_right heq]

/-- A further item. -/
theorem of_concat (key : α → Option κ) (items : List α) (a : α) :
    of key (items ++ [a]) = (key a).elim (of key items) ((of key items).add · a) := by
  rw [of, List.foldl_append]
  rfl

theorem sound_of (key : α → Option κ) (items : List α) : (of key items).Sound := by
  induction items using List.reverseRecOn with
  | nil => exact sound_empty
  | append_singleton items a ih =>
      rw [of_concat]
      cases key a with
      | none => exact ih
      | some k => exact ih.add k a

/-- A group is what has its key, as it came. -/
theorem get_of (key : α → Option κ) (items : List α) (k : κ) :
    (of key items).get k = items.filter fun a => decide (key a = some k) := by
  induction items using List.reverseRecOn with
  | nil => rfl
  | append_singleton items a ih =>
      rw [of_concat, List.filter_append, ← ih]
      cases hkey : key a with
      | none => simp [hkey]
      | some k' =>
          rw [Option.elim_some, get_add]
          by_cases heq : k = k'
          · subst heq
            simp [hkey]
          · simp [hkey, heq, Ne.symm heq]

/-- A key is in the order if an item has it. -/
theorem mem_order_of {key : α → Option κ} {items : List α} :
    k ∈ (of key items).order ↔ ∃ a ∈ items, key a = some k := by
  rw [(sound_of key items).mem, (sound_of key items).inhabited, get_of, ne_eq, List.filter_eq_nil_iff]
  simp

end Groups

/-! ### Steps that do not get into each other's way -/

variable {step : σ → α → σ} {items : List α}

/-- A step that can be swapped with all of a list can be taken after them. -/
theorem foldl_swap {a : α} (hswap : ∀ b ∈ items, ∀ s, step (step s a) b = step (step s b) a) (s : σ) :
    items.foldl step (step s a) = step (items.foldl step s) a := by
  induction items generalizing s with
  | nil => rfl
  | cons b items ih =>
      rw [List.foldl_cons, List.foldl_cons, hswap b List.mem_cons_self]
      exact ih (fun c hc => hswap c (List.mem_cons_of_mem _ hc)) _

/-- What passes a test is done first. -/
theorem foldl_filter_first (test : α → Bool)
    (hswap : ∀ a ∈ items, ∀ b ∈ items, test a = false → test b = true → ∀ s, step (step s a) b = step (step s b) a)
    (s : σ) :
    (items.filter fun a => !test a).foldl step ((items.filter test).foldl step s) = items.foldl step s := by
  induction items generalizing s with
  | nil => rfl
  | cons a items ih =>
      have hrest := ih fun b hb c hc => hswap b (List.mem_cons_of_mem _ hb) c (List.mem_cons_of_mem _ hc)
      cases htest : test a with
      | true =>
          rw [List.filter_cons_of_pos htest, List.filter_cons_of_neg (by simp [htest])]
          exact hrest (step s a)
      | false =>
          rw [List.filter_cons_of_neg (by simp [htest]), List.filter_cons_of_pos (by simp [htest]), List.foldl_cons,
            List.foldl_cons, ← hrest (step s a), foldl_swap fun b hb s =>
              hswap a List.mem_cons_self b (List.mem_cons_of_mem _ (List.mem_of_mem_filter hb)) htest
                (List.mem_filter.mp hb).2 s]

/-- Group by group, for keys that are each given once and that are those of all items. -/
theorem foldl_by_key {key : α → Option κ}
    (hswap : ∀ a ∈ items, ∀ b ∈ items, key a ≠ key b → ∀ s, step (step s a) b = step (step s b) a)
    {keys : List κ} (hnodup : keys.Nodup) (hall : ∀ a ∈ items, ∃ k ∈ keys, key a = some k) (s : σ) :
    keys.foldl (fun s k => (items.filter fun a => decide (key a = some k)).foldl step s) s = items.foldl step s := by
  induction keys generalizing items s with
  | nil =>
      have hnil : items = [] := List.eq_nil_iff_forall_not_mem.mpr fun a ha => by simpa using hall a ha
      rw [hnil]
      rfl
  | cons k keys ih =>
      have hk : k ∉ keys := (List.nodup_cons.mp hnodup).1
      rw [List.foldl_cons, ← foldl_filter_first (fun a => decide (key a = some k)) fun a ha b hb hak hbk =>
        hswap a ha b hb fun heq => by simp_all]
      -- the other groups are groups of what is left
      have hrest := @ih (items.filter fun a => !decide (key a = some k))
        (fun a ha b hb => hswap a (List.mem_of_mem_filter ha) b (List.mem_of_mem_filter hb))
        (List.nodup_cons.mp hnodup).2 (fun a ha => by
          obtain ⟨hmem, hne⟩ := List.mem_filter.mp ha
          obtain ⟨k', hk', hkey⟩ := hall a hmem
          obtain rfl | hk' := List.mem_cons.mp hk'
          · simp [hkey] at hne
          · exact ⟨k', hk', hkey⟩)
      rw [← hrest]
      refine List.foldl_ext _ _ _ fun s k' hk' => ?_
      have hne : k' ≠ k := fun heq => hk (heq ▸ hk')
      rw [List.filter_filter]
      congr 1
      refine List.filter_congr fun a _ => ?_
      by_cases hkey : key a = some k'
      · simp [hkey, hne]
      · simp [hkey]

/-- Work in groups is work in the order of the items, as far as they have keys. -/
theorem Groups.work_of {key : α → Option κ}
    (hswap : ∀ a ∈ items, ∀ b ∈ items, ∀ k k', key a = some k → key b = some k' → k ≠ k' →
      ∀ s, step (step s a) b = step (step s b) a) (s : σ) :
    (Groups.of key items).work step s = (items.filter fun a => (key a).isSome).foldl step s := by
  have hgroup : ∀ k, (Groups.of key items).get k =
      (items.filter fun a => (key a).isSome).filter fun a => decide (key a = some k) := by
    intro k
    rw [Groups.get_of, List.filter_filter]
    refine List.filter_congr fun a _ => ?_
    cases key a <;> simp
  rw [Groups.work]
  simp only [hgroup]
  refine foldl_by_key (fun a ha b hb hne => ?_) (Groups.sound_of key items).nodup (fun a ha => ?_) s
  · obtain ⟨hmem, hsome⟩ := List.mem_filter.mp ha
    obtain ⟨hmem', hsome'⟩ := List.mem_filter.mp hb
    obtain ⟨k, hk⟩ := Option.isSome_iff_exists.mp hsome
    obtain ⟨k', hk'⟩ := Option.isSome_iff_exists.mp hsome'
    exact hswap a hmem b hmem' k k' hk hk' fun heq => hne (by rw [hk, hk', heq])
  · obtain ⟨hmem, hsome⟩ := List.mem_filter.mp ha
    obtain ⟨k, hk⟩ := Option.isSome_iff_exists.mp hsome
    exact ⟨k, Groups.mem_order_of.mpr ⟨a, hmem, hk⟩, hk⟩

end Grouped
