import Mathlib.Data.List.AList
import Mathlib.Data.List.Nodup

/-!
# Chains of cells

Memory has cells at addresses, each with a value and the address of the next one. A chain is what is found by following
the addresses from a first one. Putting a cell in front of it, taking out the first cell and taking out the cell behind
another one are each one write, and what else there is in memory is of no concern to the chain. What can be reached are the
cells of the chain.
-/

namespace Chain

structure Cell (A α : Type) where
  value : α
  next : Option A
  deriving DecidableEq, Repr

section addresses

variable {A α : Type}

def addresses (cells : List (A × α)) : List A := cells.map Prod.fst

@[simp] theorem addresses_nil : addresses ([] : List (A × α)) = [] := rfl

@[simp] theorem addresses_cons (cell : A × α) (cells : List (A × α)) :
    addresses (cell :: cells) = cell.1 :: addresses cells := rfl

@[simp] theorem addresses_append (left right : List (A × α)) :
    addresses (left ++ right) = addresses left ++ addresses right := List.map_append

end addresses

variable {A α : Type} [DecidableEq A]

/-- The cells that are allocated. -/
abbrev Memory (A α : Type) [DecidableEq A] := AList fun _ : A => Cell A α

/-- What is asked of `malloc`: the address is not in use. -/
structure Allocator (A α : Type) [DecidableEq A] where
  pick : Memory A α → A
  fresh : ∀ mem, pick mem ∉ mem

/-- The address above those in use. -/
def Allocator.above (α : Type) : Allocator Nat α where
  pick mem := mem.keys.foldr max 0 + 1
  fresh mem hmem := by
    have hle : ∀ keys : List Nat, ∀ a ∈ keys, a ≤ keys.foldr max 0 := by
      intro keys
      induction keys with
      | nil => simp
      | cons key keys ih =>
          intro a ha
          obtain rfl | ha := List.mem_cons.mp ha
          · exact Nat.le_max_left _ _
          · exact Nat.le_trans (ih a ha) (Nat.le_max_right _ _)
    exact absurd (hle mem.keys _ (AList.mem_keys.mp hmem)) (Nat.not_succ_le_self _)

/-- From `head` on there are these cells and no others. -/
def Links (mem : Memory A α) : Option A → List (A × α) → Prop
  | head, [] => head = none
  | head, (a, v) :: rest => head = some a ∧ ∃ next, mem.lookup a = some ⟨v, next⟩ ∧ Links mem next rest

/-- The addresses that are reached from `head` on. -/
inductive Reaches (mem : Memory A α) : Option A → A → Prop
  | here (a : A) : Reaches mem (some a) a
  | next {a b : A} {cell : Cell A α} (read : mem.lookup a = some cell) (later : Reaches mem cell.next b) :
      Reaches mem (some a) b

variable {mem mem' : Memory A α} {head next : Option A} {cells kept rest : List (A × α)} {a b : A} {v w : α}

theorem Links.read (h : Links mem head ((a, v) :: rest)) : ∃ next, mem.lookup a = some ⟨v, next⟩ ∧ Links mem next rest :=
  h.2

/-- The head of a chain is the address of its first cell. -/
theorem Links.head_eq (h : Links mem head cells) : head = cells.head?.map Prod.fst := by
  cases cells with
  | nil => exact h
  | cons cell rest => exact h.1

/-- A chain is cut into the part in front of an address and the part from there on. -/
theorem links_append : Links mem head (kept ++ (a, v) :: rest) →
    ∃ next, mem.lookup a = some ⟨v, next⟩ ∧ Links mem next rest := by
  induction kept generalizing head with
  | nil => exact Links.read
  | cons cell kept ih =>
      intro h
      obtain ⟨-, next, -, hrest⟩ := h
      exact ih hrest

/-- A chain does not change with what is not in it. -/
theorem Links.frame (h : Links mem head cells) (hsame : ∀ c ∈ addresses cells, mem'.lookup c = mem.lookup c) :
    Links mem' head cells := by
  induction cells generalizing head with
  | nil => exact h
  | cons cell rest ih =>
      obtain ⟨hhead, next, hread, hrest⟩ := h
      have hcell := hsame cell.1 List.mem_cons_self
      exact ⟨hhead, next, hcell.trans hread, ih hrest fun c hc => hsame c (List.mem_cons_of_mem _ hc)⟩

theorem Links.insert_of_notMem (h : Links mem head cells) (ha : a ∉ addresses cells) (cell : Cell A α) :
    Links (mem.insert a cell) head cells :=
  h.frame fun _ hc => AList.lookup_insert_ne fun heq => ha (heq ▸ hc)

theorem Links.erase_of_notMem (h : Links mem head cells) (ha : a ∉ addresses cells) : Links (mem.erase a) head cells :=
  h.frame fun _ hc => AList.lookup_erase_ne fun heq => ha (heq ▸ hc)

/-- A new cell in front. -/
theorem Links.push (h : Links mem head cells) (ha : a ∉ addresses cells) (v : α) :
    Links (mem.insert a ⟨v, head⟩) (some a) ((a, v) :: cells) :=
  ⟨rfl, head, AList.lookup_insert mem, h.insert_of_notMem ha _⟩

/-- The first cell is taken out. -/
theorem Links.unlink_head (h : Links mem head ((a, v) :: rest)) (hread : mem.lookup a = some ⟨w, next⟩) :
    Links mem next rest := by
  obtain ⟨-, next', hread', hrest⟩ := h
  rw [hread'] at hread
  obtain ⟨-, rfl⟩ := Cell.mk.inj (Option.some.inj hread)
  exact hrest

/-- The cell behind `b` is taken out. -/
theorem Links.unlink (h : Links mem head (kept ++ (b, w) :: (a, v) :: rest))
    (hnodup : (addresses (kept ++ (b, w) :: (a, v) :: rest)).Nodup) (hread : mem.lookup a = some ⟨v, next⟩) :
    Links (mem.insert b ⟨w, next⟩) head (kept ++ (b, w) :: rest) := by
  induction kept generalizing head with
  | nil =>
      obtain ⟨hhead, next', -, hrest⟩ := h
      have hb : b ∉ addresses rest := fun hmem =>
        (List.nodup_cons.mp hnodup).1 (List.mem_cons_of_mem _ hmem)
      exact ⟨hhead, next, AList.lookup_insert mem, (hrest.unlink_head hread).insert_of_notMem hb _⟩
  | cons cell kept ih =>
      obtain ⟨hhead, next', hcell, hrest⟩ := h
      have hnot := List.nodup_cons.mp hnodup
      have hne : cell.1 ≠ b := by
        rintro rfl
        exact hnot.1 (by simp)
      exact ⟨hhead, next', (AList.lookup_insert_ne hne).trans hcell, ih hrest hnot.2⟩

/-- What is reached are the cells of the chain. -/
theorem Links.reaches_iff (h : Links mem head cells) : Reaches mem head b ↔ b ∈ addresses cells := by
  induction cells generalizing head with
  | nil =>
      obtain rfl : head = none := h
      exact ⟨nofun, fun hmem => absurd hmem List.not_mem_nil⟩
  | cons cell rest ih =>
      obtain ⟨rfl, next, hread, hrest⟩ := h
      rw [addresses_cons, List.mem_cons, ← ih hrest]
      constructor
      · intro hreach
        cases hreach with
        | here => exact Or.inl rfl
        | next read later =>
            rw [hread] at read
            obtain rfl := Option.some.inj read
            exact Or.inr later
      · rintro (rfl | hlater)
        · exact .here _
        · exact .next hread hlater

end Chain
