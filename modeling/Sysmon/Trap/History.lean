import Mathlib.Algebra.Order.Ring.Int
import Mathlib.Data.List.Basic
import Mathlib.Data.Set.Card
import Mathlib.Data.UInt
import Mathlib.Order.Interval.Finset.Nat
import Sysmon.Lib.RingBuffer
import Sysmon.Trap.Decode

/-!
# The trap history

The ring of `trapdecode.c` in which the daemon keeps the traps it has caught, and the part of
`send_traps` that picks what a client gets. A trap gets the next sequence number when it is added.
The answer to `TRAPS N` walks the ring from the newest trap back and stops at the first that is not
newer than `N`; it ends with the current sequence number and that of the oldest trap still held.
-/

namespace Sysmon.Trap

/-! ### The ring -/

def trapHistoryMax : Nat := 128

/-- What `trap_history_add` is called with. -/
structure TrapArrival where
  source : List Char
  time : Int64
  bytes : Int32
  matched : List Char
  alertEnabled : Bool
  alertSent : Bool
  content : TrapContent
  deriving DecidableEq, Repr

/-- `struct trap_record`. -/
structure TrapRecord where
  seq : UInt64
  trap : TrapArrival
  deriving DecidableEq, Repr

/-- `trap_ring` with its counters. -/
structure TrapRing where
  ring : RingBuffer TrapRecord
  total : UInt64

/-- The texts are cut to the fields of the record. -/
def TrapArrival.kept (a : TrapArrival) : TrapArrival :=
  { a with source := snprintf 20 a.source, matched := snprintf 128 a.matched }

def trapHistoryAdd (h : TrapRing) (a : TrapArrival) : TrapRing where
  ring := h.ring.push trapHistoryMax { seq := h.total + 1, trap := a.kept }
  total := h.total + 1

/-- The record an unused place holds. -/
def noRecord : TrapRecord :=
  { seq := 0
    trap := { source := [], time := 0, bytes := 0, matched := [], alertEnabled := false
              alertSent := false, content := undecoded } }

def TrapRing.start : TrapRing := ⟨RingBuffer.empty noRecord, 0⟩

/-- The loop of `trap_history_get` that brings an index back into the ring. -/
def intoRing (idx : Int) : Int :=
  if idx < 0 then intoRing (idx + trapHistoryMax) else idx
termination_by (-idx).toNat
decreasing_by
  have : (trapHistoryMax : Int) = 128 := rfl
  omega

/-- Fetch by age: 0 is the most recent trap. -/
def trapHistoryGet (h : TrapRing) (age : Nat) : Option TrapRecord :=
  if h.ring.count ≤ age then none
  else some (h.ring.slots (intoRing ((h.ring.next : Int) - 1 - age)).toNat)

def trapHistoryOldestSeq (h : TrapRing) : UInt64 :=
  if h.ring.count = 0 then 0
  else
    match trapHistoryGet h (h.ring.count - 1) with
    | some oldest => oldest.seq
    | none => 0

/-! ### The answer -/

/-- The traps from the newest back, as the loop of `send_traps` meets them. -/
def trapHistory (h : TrapRing) : List TrapRecord :=
  (List.range h.ring.count).filterMap (trapHistoryGet h)

/-- What `TRAPS` answers: the traps that are sent, and the three numbers after `333`. -/
structure TrapsAnswer where
  records : List TrapRecord
  current : UInt64
  oldest : UInt64
  third : Nat

def sendTraps (h : TrapRing) (xml : Bool) (since : UInt64) : TrapsAnswer :=
  let records := (trapHistory h).takeWhile fun r => since < r.seq
  { records
    current := h.total
    oldest := trapHistoryOldestSeq h
    third := if xml then records.length else h.ring.count }

/-! ### What the ring holds -/

/-- The history after a sequence of traps. -/
def history (adds : List TrapArrival) : TrapRing := adds.foldl trapHistoryAdd TrapRing.start

def record (k : Nat) (a : TrapArrival) : TrapRecord := { seq := UInt64.ofNat (k + 1), trap := a.kept }

/-- All the records there ever were. -/
def numbered (adds : List TrapArrival) : List TrapRecord := adds.zipIdx.map fun p => record p.2 p.1

theorem length_numbered (adds : List TrapArrival) : (numbered adds).length = adds.length := by
  simp [numbered]

theorem numbered_append (adds : List TrapArrival) (a : TrapArrival) :
    numbered (adds ++ [a]) = numbered adds ++ [record adds.length a] := by
  simp [numbered, List.zipIdx_append]

theorem history_holds (adds : List TrapArrival) :
    (history adds).ring.Holds trapHistoryMax (numbered adds) ∧
      (history adds).total = UInt64.ofNat adds.length := by
  induction adds using List.reverseRecOn with
  | nil => exact ⟨RingBuffer.holds_empty _ _, rfl⟩
  | append_singleton adds a ih =>
      obtain ⟨hring, htotal⟩ := ih
      have hnext : history (adds ++ [a]) = trapHistoryAdd (history adds) a := by
        rw [history, List.foldl_append]
        rfl
      have hseq : (history adds).total + 1 = UInt64.ofNat (adds.length + 1) := by
        rw [htotal, UInt64.ofNat_add]
        rfl
      rw [hnext, numbered_append, List.length_append, List.length_singleton]
      refine ⟨?_, hseq⟩
      change RingBuffer.Holds _ _ ((history adds).ring.push trapHistoryMax
        { seq := (history adds).total + 1, trap := a.kept })
      rw [hseq]
      exact hring.push _

theorem intoRing_eq {idx : Int} (h : idx < trapHistoryMax) : intoRing idx = idx % trapHistoryMax := by
  have hmax : (trapHistoryMax : Int) = 128 := rfl
  fun_induction intoRing idx with
  | case1 idx hneg ih =>
      rw [ih (by omega)]
      exact Int.add_emod_right idx _
  | case2 idx hpos => exact (Int.emod_eq_of_lt (by omega) h).symm

theorem trapHistoryGet_history (adds : List TrapArrival) {age : Nat}
    (hage : age < min adds.length trapHistoryMax) :
    ∃ a, adds[adds.length - 1 - age]? = some a ∧
      trapHistoryGet (history adds) age = some (record (adds.length - 1 - age) a) := by
  obtain ⟨hring, -⟩ := history_holds adds
  have hcount := hring.count
  rw [length_numbered] at hcount
  have hnext : ((history adds).ring.next : Int) - 1 - age < trapHistoryMax := by
    have := Nat.mod_lt (numbered adds).length (show 0 < trapHistoryMax by decide)
    rw [← hring.next] at this
    omega
  have hlt : adds.length - 1 - age < adds.length := by omega
  refine ⟨adds[adds.length - 1 - age], List.getElem?_eq_getElem hlt, ?_⟩
  rw [trapHistoryGet, if_neg (by omega), intoRing_eq hnext, hring.back (by omega)]
  simp [numbered]

theorem trapHistoryGet_eq_none (adds : List TrapArrival) {age : Nat}
    (hage : min adds.length trapHistoryMax ≤ age) : trapHistoryGet (history adds) age = none := by
  have hcount := (history_holds adds).1.count
  rw [length_numbered] at hcount
  rw [trapHistoryGet, if_pos (by omega)]

/-! ### What a client learns -/

def Held (h : TrapRing) (r : TrapRecord) : Prop := ∃ age, trapHistoryGet h age = some r

/-- The sequence numbers between the one asked for and the current one whose traps are gone. -/
def missed (h : TrapRing) (since current : UInt64) : Set Nat :=
  { s | since.toNat < s ∧ s ≤ current.toNat ∧ ¬∃ r, Held h r ∧ r.seq.toNat = s }

/-- How many these are, from the numbers a client has. -/
def lost (since oldest : UInt64) : Nat := oldest.toNat - 1 - since.toNat

/-- The ring and the answers from it are right for the traps that were added. -/
structure RightFor (adds : List TrapArrival) (h : TrapRing) : Prop where
  count : h.ring.count = min adds.length trapHistoryMax
  /-- The entry at an age is the trap that many before the last, under its own number. -/
  entry : ∀ age < h.ring.count, ∃ r a, trapHistoryGet h age = some r ∧
    adds[adds.length - 1 - age]? = some a ∧ r.trap = a.kept ∧ r.seq.toNat = adds.length - age
  current : ∀ xml since, (sendTraps h xml since).current.toNat = adds.length
  records : ∀ xml since r, r ∈ (sendTraps h xml since).records ↔ Held h r ∧ since < r.seq
  once : ∀ xml since, ((sendTraps h xml since).records.map TrapRecord.seq).Nodup
  lost : ∀ xml since, (missed h since (sendTraps h xml since).current).ncard =
    lost since (sendTraps h xml since).oldest

theorem mem_trapHistory {h : TrapRing} {r : TrapRecord} : r ∈ trapHistory h ↔ Held h r := by
  rw [trapHistory, List.mem_filterMap]
  constructor
  · rintro ⟨age, -, hget⟩
    exact ⟨age, hget⟩
  · rintro ⟨age, hget⟩
    refine ⟨age, ?_, hget⟩
    rw [trapHistoryGet] at hget
    split at hget
    · exact nomatch hget
    · exact List.mem_range.mpr (by omega)

section history

variable {adds : List TrapArrival} (hlen : adds.length < 2 ^ 64)

include hlen

theorem seq_record {k : Nat} (hk : k < adds.length) (a : TrapArrival) :
    (record k a).seq.toNat = k + 1 := by
  change (UInt64.ofNat (k + 1)).toNat = k + 1
  rw [UInt64.toNat_ofNat']
  exact Nat.mod_eq_of_lt (by omega)

theorem seq_of_get {age : Nat} {r : TrapRecord} (h : trapHistoryGet (history adds) age = some r) :
    age < min adds.length trapHistoryMax ∧ r.seq.toNat = adds.length - age := by
  by_cases hage : age < min adds.length trapHistoryMax
  · obtain ⟨a, -, hrecord⟩ := trapHistoryGet_history adds hage
    rw [hrecord] at h
    obtain rfl := Option.some.inj h
    rw [seq_record hlen (by omega)]
    omega
  · rw [trapHistoryGet_eq_none adds (by omega)] at h
    exact nomatch h

theorem held_history {s : Nat} : (∃ r, Held (history adds) r ∧ r.seq.toNat = s) ↔
    adds.length - min adds.length trapHistoryMax < s ∧ s ≤ adds.length := by
  constructor
  · rintro ⟨r, ⟨age, hget⟩, rfl⟩
    obtain ⟨hage, hseq⟩ := seq_of_get hlen hget
    rw [hseq]
    omega
  · rintro ⟨hlow, hhigh⟩
    have hage : adds.length - s < min adds.length trapHistoryMax := by omega
    obtain ⟨a, -, hrecord⟩ := trapHistoryGet_history adds hage
    refine ⟨_, ⟨_, hrecord⟩, ?_⟩
    rw [seq_record hlen (by omega)]
    omega

theorem oldest_history : (trapHistoryOldestSeq (history adds)).toNat =
    if adds.length = 0 then 0 else adds.length - min adds.length trapHistoryMax + 1 := by
  have hmax : trapHistoryMax = 128 := rfl
  have hcount := (history_holds adds).1.count
  rw [length_numbered] at hcount
  rw [trapHistoryOldestSeq]
  by_cases hzero : adds.length = 0
  · rw [if_pos (by omega), if_pos hzero]
    rfl
  · obtain ⟨a, -, hrecord⟩ := trapHistoryGet_history adds
      (show (history adds).ring.count - 1 < min adds.length trapHistoryMax by omega)
    rw [if_neg (by omega), if_neg hzero, hrecord]
    dsimp only
    rw [seq_record hlen (by omega)]
    omega

/-- The newest trap comes first. -/
theorem trapHistory_pairwise : (trapHistory (history adds)).Pairwise fun r r' => r'.seq < r.seq := by
  rw [trapHistory, List.pairwise_filterMap]
  refine List.pairwise_lt_range.imp fun {i j} hij r hr r' hr' => ?_
  have hseq := seq_of_get hlen hr
  have hseq' := seq_of_get hlen hr'
  rw [UInt64.lt_iff_toNat_lt]
  omega

end history

/-- Where what follows is never sent once something was left out, stopping there leaves out the same
as passing over it. -/
theorem takeWhile_eq_filter {α : Type*} {p : α → Bool} {l : List α}
    (h : l.Pairwise fun a b => p b = true → p a = true) : l.takeWhile p = l.filter p := by
  induction l with
  | nil => rfl
  | cons a l ih =>
      obtain ⟨ha, hl⟩ := List.pairwise_cons.mp h
      by_cases hp : p a = true
      · rw [List.takeWhile_cons_of_pos hp, List.filter_cons_of_pos hp, ih hl]
      · have hrest : l.filter p = [] :=
          List.filter_eq_nil_iff.mpr fun b hb hpb => hp (ha b hb hpb)
        rw [List.takeWhile_cons_of_neg hp, List.filter_cons_of_neg hp, hrest]

theorem records_history {adds : List TrapArrival} (hlen : adds.length < 2 ^ 64) (xml : Bool)
    (since : UInt64) :
    (sendTraps (history adds) xml since).records =
      (trapHistory (history adds)).filter fun r => since < r.seq := by
  refine takeWhile_eq_filter ((trapHistory_pairwise hlen).imp fun {r r'} hlt h => ?_)
  have hnewer : since < r'.seq := by simpa using h
  simpa using UInt64.lt_trans hnewer hlt

theorem missed_history {adds : List TrapArrival} (hlen : adds.length < 2 ^ 64) (since : UInt64) :
    (missed (history adds) since (history adds).total).ncard =
      lost since (trapHistoryOldestSeq (history adds)) := by
  have htotal : (history adds).total.toNat = adds.length := by
    rw [(history_holds adds).2, UInt64.toNat_ofNat']
    exact Nat.mod_eq_of_lt hlen
  have hset : missed (history adds) since (history adds).total =
      ↑(Finset.Ioc since.toNat (adds.length - min adds.length trapHistoryMax)) := by
    ext s
    rw [missed, Set.mem_ofPred_eq, held_history hlen, htotal, Finset.coe_Ioc, Set.mem_Ioc]
    omega
  rw [hset, Set.ncard_coe_finset, Nat.card_Ioc, lost, oldest_history hlen]
  split <;> omega

/-- Ring and answers are right exactly for sequences of fewer than 2 ^ 64 traps. -/
theorem history_right_iff (adds : List TrapArrival) :
    RightFor adds (history adds) ↔ adds.length < 2 ^ 64 := by
  have hcount := (history_holds adds).1.count
  rw [length_numbered] at hcount
  constructor
  · intro hright
    rw [← hright.current true 0]
    exact UInt64.toNat_lt _
  · intro hlen
    refine ⟨hcount, fun age hage => ?_, fun xml since => ?_, fun xml since r => ?_,
      fun xml since => ?_, fun xml since => missed_history hlen since⟩
    · obtain ⟨a, hadd, hget⟩ := trapHistoryGet_history adds (hcount ▸ hage)
      exact ⟨_, a, hget, hadd, rfl, (seq_of_get hlen hget).2⟩
    · change (history adds).total.toNat = adds.length
      rw [(history_holds adds).2, UInt64.toNat_ofNat']
      exact Nat.mod_eq_of_lt hlen
    · rw [records_history hlen, List.mem_filter, mem_trapHistory, decide_eq_true_eq]
    · rw [records_history hlen, List.Nodup, List.pairwise_map]
      exact ((trapHistory_pairwise hlen).filter _).imp fun hlt heq =>
        absurd (heq ▸ hlt) (UInt64.lt_irrefl _)

/-- With the 2 ^ 64th trap the numbers start again from 0, and the newest trap looks like the oldest
there could be. -/
theorem history_wraps (a : TrapArrival) (adds : List TrapArrival) (h : adds.length + 1 = 2 ^ 64) :
    (history (adds ++ [a])).total = 0 ∧
      ∃ r, trapHistoryGet (history (adds ++ [a])) 0 = some r ∧ r.trap = a.kept ∧ r.seq = 0 := by
  have hlen : (adds ++ [a]).length = 2 ^ 64 := by rw [List.length_append, List.length_singleton, h]
  have hmax : trapHistoryMax = 128 := rfl
  have hzero : UInt64.ofNat (2 ^ 64) = 0 := by decide
  obtain ⟨b, hadd, hget⟩ := trapHistoryGet_history (adds ++ [a])
    (show 0 < min (adds ++ [a]).length trapHistoryMax by omega)
  refine ⟨by rw [(history_holds _).2, hlen, hzero], _, hget, ?_, ?_⟩
  · rw [hlen, show 2 ^ 64 - 1 - 0 = adds.length by omega, List.getElem?_append_right le_rfl,
      Nat.sub_self] at hadd
    rw [show b = a from (Option.some.inj hadd).symm]
    rfl
  · rw [hlen]
    exact hzero

theorem not_rightFor_of_wrap (a : TrapArrival) {adds : List TrapArrival}
    (h : adds.length + 1 = 2 ^ 64) : ¬RightFor (adds ++ [a]) (history (adds ++ [a])) := by
  intro hright
  have hcurrent := hright.current true 0
  have htotal : (sendTraps (history (adds ++ [a])) true 0).current = 0 := (history_wraps a adds h).1
  rw [htotal, List.length_append, List.length_singleton, h] at hcurrent
  exact absurd hcurrent (by decide)

/-- After 2 ^ 64 traps the newest is held and has the number 0. -/
theorem history_not_right_at_wrap :
    ¬RightFor (List.replicate (2 ^ 64 - 1) noRecord.trap ++ [noRecord.trap])
      (history (List.replicate (2 ^ 64 - 1) noRecord.trap ++ [noRecord.trap])) :=
  not_rightFor_of_wrap noRecord.trap (by rw [List.length_replicate]; omega)

end Sysmon.Trap
