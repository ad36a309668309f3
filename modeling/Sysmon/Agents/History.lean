import Sysmon.Agents.Tokens

/-!
# The history

The store of `history.go`: `Append`, which writes a batch of events in one transaction and then prunes, and `prune`,
which drops the rows that are older than thirty days and those beyond the newest twenty thousand. Alerts are accepted by
an `Append`, and the poller hands what it has observed to one. What it does is said once, in `appended`: what was there,
but for the oldest rows, and behind that the new rows or nothing.
-/

namespace Sysmon.Alerts

open Agents (GoString)

/-- Nanoseconds since the year 1. -/
abbrev Instant := Nat

/-- The time is known by its second, which is what RFC 3339 prints of it. -/
structure HistoryEvent where
  id : Nat
  timestamp : Nat
  objectName : GoString
  site : GoString
  localName : GoString
  hostname : GoString
  description : GoString
  prevStatus : GoString
  newStatus : GoString
  prevDuration : Int
  deriving DecidableEq, Repr

structure HistoryStore where
  sequence : Nat
  /-- The bucket, in the order of its keys. -/
  rows : List HistoryEvent
  lastChange : GoString → Option Instant

def HistoryStore.empty : HistoryStore := ⟨0, [], fun _ => none⟩

def nanos : Nat := 1000000000

def historyRetention : Nat := 30 * 24 * 3600 * nanos

def historyMax : Nat := 20000

/-- The row is older than a row may be. -/
def Expired (now : Instant) (row : HistoryEvent) : Prop := row.timestamp * nanos + historyRetention < now

instance (now : Instant) (row : HistoryEvent) : Decidable (Expired now row) := inferInstanceAs (Decidable (_ < _))

/-- The loop of `prune`. -/
def pruneLoop (now : Instant) : Int → List HistoryEvent → List HistoryEvent
  | _, [] => []
  | excess, row :: rows =>
      if ¬Expired now row ∧ excess ≤ 0 then row :: rows else pruneLoop now (excess - 1) rows

def prune (h : HistoryStore) (now : Instant) (commits : Bool) : HistoryStore :=
  if commits then { h with rows := pruneLoop now (h.rows.length - historyMax) h.rows } else h

/-- What `Append` fills in before the transaction. `seconds` is `now.Sub(last).Seconds()`, cut to an integer. -/
def stamp (seconds : Instant → Instant → Int) (h : HistoryStore) (now : Instant) (ev : HistoryEvent) : HistoryEvent :=
  { ev with
    timestamp := now / nanos
    prevDuration := (h.lastChange ev.objectName).elim ev.prevDuration fun last => seconds last now }

/-- The rows get the next numbers of the sequence. -/
def number (sequence : Nat) (events : List HistoryEvent) : List HistoryEvent :=
  events.zipIdx.map fun p => { p.1 with id := sequence + p.2 + 1 }

/-- The rows that `Append` writes. -/
def newRows (seconds : Instant → Instant → Int) (h : HistoryStore) (events : List HistoryEvent) (now : Instant) :
    List HistoryEvent := number h.sequence (events.map (stamp seconds h now))

/-- The store after the transaction, before it is pruned, and the rows that were committed. -/
def appendTx (seconds : Instant → Instant → Int) (h : HistoryStore) (events : List HistoryEvent) (now : Instant)
    (commits : Bool) : HistoryStore × Option (List HistoryEvent) :=
  if commits then
    let rows := newRows seconds h events now
    ({ sequence := h.sequence + events.length
       rows := h.rows ++ rows
       lastChange := fun o => if events.any (·.objectName = o) then some now else h.lastChange o },
      some rows)
  else (h, none)

/-- `Append`: the rows that were committed, or none if it is an error. -/
def append (seconds : Instant → Instant → Int) (h : HistoryStore) (events : List HistoryEvent) (now : Instant)
    (commits prunes : Bool) : HistoryStore × Option (List HistoryEvent) :=
  if events = [] then (h, some [])
  else
    let (h', rows) := appendTx seconds h events now commits
    (prune h' now prunes, rows)

/-! ### What is kept -/

variable {now : Instant} {excess : Int} {row : HistoryEvent} {rows added : List HistoryEvent}

/-- Pruning drops rows at the old end. -/
theorem pruneLoop_suffix (now : Instant) (excess : Int) (rows : List HistoryEvent) :
    pruneLoop now excess rows <:+ rows := by
  induction rows generalizing excess with
  | nil => exact List.suffix_rfl
  | cons row rows ih =>
      rw [pruneLoop]
      split
      · exact List.suffix_rfl
      · exact (ih (excess - 1)).trans (List.suffix_cons row rows)

theorem prune_suffix (h : HistoryStore) (now : Instant) (commits : Bool) : (prune h now commits).rows <:+ h.rows := by
  cases commits with
  | false => exact List.suffix_rfl
  | true => exact pruneLoop_suffix now _ h.rows

/-- It stops at rows that are not old while there are not too many. -/
theorem pruneLoop_append (hfresh : ∀ row ∈ added, ¬Expired now row) (hroom : excess ≤ rows.length) :
    ∃ kept, kept <:+ rows ∧ pruneLoop now excess (rows ++ added) = kept ++ added := by
  induction rows generalizing excess with
  | nil =>
      refine ⟨[], List.suffix_rfl, ?_⟩
      cases added with
      | nil => rfl
      | cons row added => exact if_pos ⟨hfresh row List.mem_cons_self, by simpa using hroom⟩
  | cons row rows ih =>
      rw [List.cons_append, pruneLoop]
      split
      · exact ⟨row :: rows, List.suffix_rfl, rfl⟩
      · obtain ⟨kept, hsuffix, hpruned⟩ := @ih (excess - 1) (by simp at hroom; omega)
        exact ⟨kept, hsuffix.trans (List.suffix_cons row rows), hpruned⟩

/-- Nothing is dropped of a store whose oldest row is not old and that is not too full. -/
theorem pruneLoop_eq (hfresh : ∀ row ∈ rows.head?, ¬Expired now row) (hroom : excess ≤ 0) :
    pruneLoop now excess rows = rows := by
  cases rows with
  | nil => rfl
  | cons row rows => exact if_pos ⟨hfresh row rfl, hroom⟩

section append

variable (seconds : Instant → Instant → Int) (h : HistoryStore) (events : List HistoryEvent) (prunes : Bool)

theorem length_newRows (now : Instant) : (newRows seconds h events now).length = events.length := by
  rw [newRows, number, List.length_map, List.length_zipIdx, List.length_map]

/-- A row that has just been written is not old. -/
theorem not_expired_of_newRows {seconds : Instant → Instant → Int} {h : HistoryStore} {events : List HistoryEvent}
    (hrow : row ∈ newRows seconds h events now) : ¬Expired now row := by
  obtain ⟨p, hp, rfl⟩ := List.mem_map.mp hrow
  obtain ⟨ev, -, hev⟩ := List.mem_map.mp (List.fst_mem_of_mem_zipIdx hp)
  have hstamp : p.1.timestamp = now / nanos := by rw [← hev, stamp]
  have hsecond : now < now / nanos * nanos + nanos := Nat.lt_div_mul_add (by decide)
  have hretention : nanos ≤ historyRetention := by decide
  rw [Expired, Nat.not_lt]
  dsimp only
  rw [hstamp]
  exact hsecond.le.trans (Nat.add_le_add_left hretention _)

/-- An `Append` that is an error leaves what was there, but for the oldest rows. -/
theorem append_failed (now : Instant) : (append seconds h events now false prunes).1.rows <:+ h.rows := by
  rw [append]
  split
  · exact List.suffix_rfl
  · exact prune_suffix h now prunes

/-- One that is not puts the new rows behind that. -/
theorem append_suffix (now : Instant) :
    (append seconds h events now true prunes).1.rows <:+ h.rows ++ newRows seconds h events now := by
  rw [append]
  split
  next hnone =>
    subst hnone
    exact (List.append_nil h.rows).symm ▸ List.suffix_rfl
  · exact prune_suffix _ now prunes

/-- They are all kept, unless there are more than the history holds. -/
theorem append_rows (now : Instant) (hfew : events.length ≤ historyMax) : ∃ kept, kept <:+ h.rows ∧
    (append seconds h events now true prunes).1.rows = kept ++ newRows seconds h events now := by
  rw [append]
  split
  next hnone =>
    subst hnone
    exact ⟨h.rows, List.suffix_rfl, (List.append_nil _).symm⟩
  next =>
    cases prunes with
    | false => exact ⟨h.rows, List.suffix_rfl, rfl⟩
    | true =>
        refine pruneLoop_append (fun row hrow => not_expired_of_newRows hrow) ?_
        rw [List.length_append, length_newRows]
        omega

/-- A store with nothing old in it and with room keeps everything. -/
theorem append_all (hfresh : ∀ row ∈ h.rows.head?, ¬Expired now row)
    (hroom : h.rows.length + events.length ≤ historyMax) :
    (append seconds h events now true prunes).1.rows = h.rows ++ newRows seconds h events now := by
  rw [append]
  split
  next hnone =>
    subst hnone
    exact (List.append_nil _).symm
  next =>
    cases prunes with
    | false => rfl
    | true =>
        refine pruneLoop_eq (fun row hrow => ?_) ?_
        · rw [List.head?_append] at hrow
          cases hold : h.rows.head? with
          | some oldest =>
              rw [hold] at hrow
              exact hfresh row (hold ▸ hrow)
          | none =>
              rw [hold] at hrow
              exact not_expired_of_newRows (List.mem_of_mem_head? hrow)
        · rw [List.length_append, length_newRows]
          omega

end append

end Sysmon.Alerts
