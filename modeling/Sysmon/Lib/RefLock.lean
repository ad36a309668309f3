import Mathlib.Data.Set.Basic
import Sysmon.Lib.Run

/-!
# A lock that is counted

A mutex that is made when somebody first asks for it and thrown away when the last one is through with
it. Its table has at most one mutex; who enters gets that one or a new one and is counted, waits until
nobody holds it, holds it, releases it, and leaves. Whoever is between entering and leaving has the mutex
of the table (`Fair.known`), so no two of them can hold a mutex at once (`Fair.exclusive`).
-/

namespace RefLock

structure Mutex where
  holder : Option Nat
  users : Nat
  deriving DecidableEq, Repr

structure Table where
  /-- The mutex there is, if there is one. -/
  current : Option Nat
  mutex : Nat → Mutex
  /-- The next mutex that is made. -/
  next : Nat

def Table.empty : Table := ⟨none, fun _ => ⟨none, 0⟩, 0⟩

/-- The mutex somebody gets. -/
def Table.entry (l : Table) : Nat := l.current.getD l.next

def Table.set (l : Table) (id : Nat) (m : Mutex) : Table :=
  { l with mutex := Function.update l.mutex id m }

/-- Somebody is counted, with a new mutex if there is none. -/
def Table.enter (l : Table) : Table :=
  match l.current with
  | some id => l.set id { l.mutex id with users := (l.mutex id).users + 1 }
  | none => { l.set l.next ⟨none, 1⟩ with current := some l.next, next := l.next + 1 }

def Table.acquire (l : Table) (id t : Nat) : Table := l.set id { l.mutex id with holder := some t }

def Table.release (l : Table) (id : Nat) : Table := l.set id { l.mutex id with holder := none }

/-- The last one throws the mutex away. -/
def Table.leave (l : Table) (id : Nat) : Table :=
  let users := (l.mutex id).users - 1
  let l' := l.set id { l.mutex id with users := users }
  if users = 0 then { l' with current := none } else l'

/-- What somebody has to do with a mutex. -/
inductive Stake where
  | out
  | waits (id : Nat)
  | holds (id : Nat)
  /-- Released, and still counted. -/
  | released (id : Nat)
  deriving DecidableEq, Repr

def Stake.mutex : Stake → Option Nat
  | .out => none
  | .waits id | .holds id | .released id => some id

def Stake.counted (stake : Stake) : Bool := stake.mutex.isSome

structure Fair (l : Table) (stakes : List Stake) : Prop where
  known : ∀ (t : Nat) (stake : Stake), stakes[t]? = some stake → ∀ id, stake.mutex = some id →
    l.current = some id
  counted : ∀ id, l.current = some id → (l.mutex id).users = stakes.countP Stake.counted
  held : ∀ (t id : Nat), stakes[t]? = some (.holds id) → (l.mutex id).holder = some t

variable {l : Table} {stakes : List Stake} {t t' id id' : Nat} {stake stake' : Stake}

theorem Table.set_mutex_self (l : Table) (id : Nat) (m : Mutex) : (l.set id m).mutex id = m :=
  Function.update_self ..

theorem countP_set (stake' : Stake) (hget : stakes[t]? = some stake) :
    (stakes.set t stake').countP Stake.counted + (if stake.counted then 1 else 0) =
      stakes.countP Stake.counted + if stake'.counted then 1 else 0 := by
  obtain ⟨hlt, rfl⟩ := List.getElem?_eq_some_iff.mp hget
  have hle : (if stakes[t].counted = true then 1 else 0) ≤ stakes.countP Stake.counted := by
    split
    next hcounted => exact List.countP_pos_iff.mpr ⟨_, List.getElem_mem hlt, hcounted⟩
    next => exact Nat.zero_le _
  rw [List.countP_set hlt]
  omega

theorem fair_nil : Fair Table.empty [] :=
  ⟨fun t stake h => absurd h (by simp), fun id h => absurd h (by simp [Table.empty]),
    fun t id h => absurd h (by simp)⟩

/-- Nobody can hold the mutex twice. -/
theorem Fair.exclusive (hf : Fair l stakes) (h : stakes[t]? = some (.holds id))
    (h' : stakes[t']? = some (.holds id')) : t = t' := by
  have hid : l.current = some id := hf.known t _ h id rfl
  obtain rfl := Option.some.inj (hid.symm.trans (hf.known t' _ h' id' rfl))
  exact Option.some.inj ((hf.held t id h).symm.trans (hf.held t' id h'))

/-- Who comes new has no stake. -/
theorem Fair.concat (hf : Fair l stakes) : Fair l (stakes ++ [.out]) := by
  have hold : ∀ (t : Nat) (stake : Stake) (id : Nat), (stakes ++ [Stake.out])[t]? = some stake → stake.mutex = some id →
      stakes[t]? = some stake := by
    intro t stake id hget hid
    rw [List.getElem?_append] at hget
    split at hget
    · exact hget
    · obtain rfl := List.mem_singleton.mp (List.mem_of_getElem? hget)
      exact absurd hid (by simp [Stake.mutex])
  refine ⟨fun t stake hget id hid => hf.known t stake (hold t stake id hget hid) id hid, fun id hid => ?_,
    fun t id hget => hf.held t id (hold t _ id hget rfl)⟩
  rw [hf.counted id hid, List.countP_append]
  rfl

/-- A step that leaves the table and the stakes as they are. -/
theorem Fair.keep (hf : Fair l stakes) (h : stakes[t]? = some stake) : Fair l (stakes.set t stake) := by
  obtain ⟨hlt, rfl⟩ := List.getElem?_eq_some_iff.mp h
  rw [List.set_getElem_self]
  exact hf

theorem Fair.enter (hf : Fair l stakes) (h : stakes[t]? = some .out) :
    Fair l.enter (stakes.set t (.waits l.entry)) := by
  have hcount := countP_set (.waits l.entry) h
  rw [if_neg (by decide), if_pos (by rfl), Nat.add_zero] at hcount
  cases hcurrent : l.current with
  | some id =>
      simp only [Table.enter, Table.entry, hcurrent, Option.getD_some] at hcount ⊢
      refine ⟨fun i stake hget id' hid' => ?_, fun id' hid' => ?_, fun i id' hget => ?_⟩
      · obtain ⟨-, rfl⟩ | ⟨-, hold⟩ := Run.getElem?_of_set hget
        · exact hid' ▸ hcurrent
        · exact hf.known i stake hold id' hid'
      · obtain rfl := Option.some.inj (hcurrent.symm.trans hid')
        rw [hcount, ← hf.counted id hcurrent, Table.set_mutex_self]
      · obtain ⟨-, heq⟩ | ⟨-, hold⟩ := Run.getElem?_of_set hget
        · exact absurd heq (by simp)
        · have hheld := hf.held i id' hold
          obtain rfl := Option.some.inj (hcurrent.symm.trans (hf.known i _ hold id' rfl))
          rw [Table.set_mutex_self]
          exact hheld
  | none =>
      simp only [Table.enter, Table.entry, hcurrent, Option.getD_none] at hcount ⊢
      -- without a mutex there is nobody to be counted
      have hout : ∀ (i : Nat) (stake : Stake), stakes[i]? = some stake → stake.mutex = none := by
        intro i stake hget
        by_contra hsome
        obtain ⟨id, hid⟩ := Option.ne_none_iff_exists'.mp hsome
        exact absurd (hcurrent.symm.trans (hf.known i stake hget id hid)) (by simp)
      have hzero : stakes.countP Stake.counted = 0 := by
        rw [List.countP_eq_zero]
        intro stake hmem
        obtain ⟨i, hlt, rfl⟩ := List.mem_iff_getElem.mp hmem
        simp [Stake.counted, hout i _ (List.getElem?_eq_getElem hlt)]
      refine ⟨fun i stake hget id' hid' => ?_, fun id' hid' => ?_, fun i id' hget => ?_⟩
      · obtain ⟨-, rfl⟩ | ⟨-, hold⟩ := Run.getElem?_of_set hget
        · exact hid'
        · exact absurd (hid'.symm.trans (hout i stake hold)) (by simp)
      · obtain rfl := Option.some.inj hid'
        rw [hcount, hzero, Table.set_mutex_self]
      · obtain ⟨-, heq⟩ | ⟨-, hold⟩ := Run.getElem?_of_set hget
        · exact absurd heq (by simp)
        · exact absurd (hout i _ hold) (by simp [Stake.mutex])

/-- What is counted, and the mutex of the table, are as before. -/
theorem Fair.turn (hf : Fair l stakes) (h : stakes[t]? = some stake) (hid : stake.mutex = some id)
    (hid' : stake'.mutex = some id) {m : Mutex} (husers : m.users = (l.mutex id).users)
    (hheld : ∀ i, (i = t ∧ stake' = .holds id ∨ i ≠ t ∧ stakes[i]? = some (.holds id)) → m.holder = some i) :
    Fair (l.set id m) (stakes.set t stake') := by
  have hcount := countP_set stake' h
  rw [if_pos (by simp [Stake.counted, hid]), if_pos (by simp [Stake.counted, hid'])] at hcount
  have hcurrent := hf.known t stake h id hid
  refine ⟨fun i other hget id' hother => ?_, fun id' hcurrent' => ?_, fun i id' hget => ?_⟩
  · obtain ⟨-, rfl⟩ | ⟨-, hold⟩ := Run.getElem?_of_set hget
    · obtain rfl := Option.some.inj (hid'.symm.trans hother)
      exact hcurrent
    · exact hf.known i other hold id' hother
  · obtain rfl := Option.some.inj (hcurrent.symm.trans hcurrent')
    rw [Table.set_mutex_self, husers, hf.counted id hcurrent]
    omega
  · obtain ⟨hit, heq⟩ | ⟨hne, hold⟩ := Run.getElem?_of_set hget
    · obtain rfl : id = id' := by
        rw [← heq] at hid'
        exact (Option.some.inj hid').symm
      rw [Table.set_mutex_self]
      exact hheld i (Or.inl ⟨hit, heq.symm⟩)
    · obtain rfl := Option.some.inj (hcurrent.symm.trans (hf.known i _ hold id' rfl))
      rw [Table.set_mutex_self]
      exact hheld i (Or.inr ⟨hne, hold⟩)

theorem Fair.acquire (hf : Fair l stakes) (h : stakes[t]? = some (.waits id))
    (hfree : (l.mutex id).holder = none) : Fair (l.acquire id t) (stakes.set t (.holds id)) := by
  refine hf.turn h rfl rfl rfl fun i hi => ?_
  obtain ⟨rfl, -⟩ | ⟨-, hold⟩ := hi
  · rfl
  · exact absurd (hfree.symm.trans (hf.held i id hold)) (by simp)

theorem Fair.release (hf : Fair l stakes) (h : stakes[t]? = some (.holds id)) :
    Fair (l.release id) (stakes.set t (.released id)) := by
  refine hf.turn h rfl rfl rfl fun i hi => ?_
  obtain ⟨-, heq⟩ | ⟨hne, hold⟩ := hi
  · exact absurd heq (by simp)
  · exact absurd (hf.exclusive hold h) hne

theorem Fair.leave (hf : Fair l stakes) (h : stakes[t]? = some (.released id)) :
    Fair (l.leave id) (stakes.set t .out) := by
  have hcount := countP_set .out h
  rw [if_pos (by rfl), if_neg (by decide), Nat.add_zero] at hcount
  have hcurrent := hf.known t _ h id rfl
  have husers := hf.counted id hcurrent
  have hkept : ∀ (i : Nat) (other : Stake) (id' : Nat), (stakes.set t .out)[i]? = some other → other.mutex = some id' →
      i ≠ t ∧ stakes[i]? = some other := by
    intro i other id' hget hid'
    obtain ⟨-, rfl⟩ | hold := Run.getElem?_of_set hget
    · exact absurd hid' (by simp [Stake.mutex])
    · exact hold
  have hheld : ∀ i id' : Nat, (stakes.set t .out)[i]? = some (.holds id') →
      ((l.set id { l.mutex id with users := (l.mutex id).users - 1 }).mutex id').holder = some i := by
    intro i id' hget
    have hold := (hkept i _ id' hget rfl).2
    have hheld := hf.held i id' hold
    obtain rfl := Option.some.inj (hcurrent.symm.trans (hf.known i _ hold id' rfl))
    rw [Table.set_mutex_self]
    exact hheld
  rw [Table.leave]
  dsimp only
  split
  next hlast =>
    -- who is left over would still be counted
    have hnone : ∀ other ∈ stakes.set t .out, ¬other.counted = true := by
      rw [← List.countP_eq_zero]
      omega
    refine ⟨fun i other hget id' hid' => ?_, fun id' hid' => absurd hid' (by simp), hheld⟩
    exact absurd (by simp [Stake.counted, hid']) (hnone other (List.mem_of_getElem? hget))
  next =>
    refine ⟨fun i other hget id' hid' => hf.known i other (hkept i other id' hget hid').2 id' hid',
      fun id' hid' => ?_, hheld⟩
    obtain rfl := Option.some.inj (hcurrent.symm.trans hid')
    rw [Table.set_mutex_self]
    dsimp only
    omega

/-- One operation of somebody on the table, or none. -/
inductive Op where
  | stay
  | enter
  | acquire (id : Nat)
  | release (id : Nat)
  | leave (id : Nat)
  deriving DecidableEq, Repr

def Table.apply (l : Table) (t : Nat) : Op → Table
  | .stay => l
  | .enter => l.enter
  | .acquire id => l.acquire id t
  | .release id => l.release id
  | .leave id => l.leave id

/-- What an operation makes of the stake of the one who does it. -/
inductive Move (l : Table) : Op → Stake → Stake → Prop where
  | stay (stake : Stake) : Move l .stay stake stake
  | enter : Move l .enter .out (.waits l.entry)
  | acquire (id : Nat) (hfree : (l.mutex id).holder = none) : Move l (.acquire id) (.waits id) (.holds id)
  | release (id : Nat) : Move l (.release id) (.holds id) (.released id)
  | leave (id : Nat) : Move l (.leave id) (.released id) .out

theorem Fair.move (hf : Fair l stakes) {op : Op} (h : stakes[t]? = some stake)
    (hmove : Move l op stake stake') : Fair (l.apply t op) (stakes.set t stake') := by
  cases hmove with
  | stay => exact hf.keep h
  | enter => exact hf.enter h
  | acquire id hfree => exact hf.acquire h hfree
  | release id => exact hf.release h
  | leave id => exact hf.leave h

end RefLock
