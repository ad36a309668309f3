import Mathlib.Algebra.Order.Ring.Int
import Mathlib.Data.Finset.Prod
import Mathlib.Data.Int.Lemmas
import Mathlib.Data.UInt
import Sysmon.Lib.Run
import Sysmon.Monitoring.Reply
import Sysmon.Trap.Render

/-!
# Fetching the traps

The server asks each daemon for the traps that are newer than the last number it knows (`fetchTraps`),
reads the answer line by line, decodes the traps one at a time, and counts what the ring of the daemon
has overwritten. Between the answer and its storing the daemon may dial in again (`adoptAgent`), which
sets the cursor back. What is not modelled is how one trap is decoded: `unmarshal` is any function of
the text of its element.
-/

namespace Sysmon.Monitoring

open CText GoText Trap
open Srvclient (wire startTag endTag)

/-- What the server uses of a trap. -/
structure XmlTrap where
  seq : UInt64
  /-- In seconds. -/
  time : Int64
  deriving DecidableEq, Repr

/-! ### The answer -/

/-- The text since the last trap, and the traps. -/
structure Reading where
  block : List Char
  fresh : List XmlTrap
  deriving DecidableEq, Repr

def Reading.start : Reading := ⟨[], []⟩

section reading

variable (unmarshal : List Char → Option XmlTrap)

def Reading.line (r : Reading) (line : List Char) : Reading :=
  let block := (if trapStart <:+: line then [] else r.block) ++ line
  if trapEnd <:+: line then { block := [], fresh := r.fresh ++ (unmarshal block).toList }
  else { r with block := block }

/-- What is read of an answer, from what comes between its newlines: the traps, and the first two numbers
of the status. -/
def readTraps (pieces : List (List Char)) : Option (List XmlTrap × UInt64 × UInt64) :=
  (readReply (Reading.line unmarshal) Reading.start pieces).map fun got =>
    (got.1.fresh, parseSeqField got.2 1, parseSeqField got.2 2)

end reading

/-! ### The client -/

structure Client where
  trapSeq : UInt64
  trapsLost : Int64
  trapHistory : List XmlTrap
  deriving DecidableEq, Repr

def Client.start : Client := ⟨0, 0, []⟩

def trapsKept : Nat := 20000

/-- 31 days. -/
def trapMaxAge : Int64 := 31 * 24 * 3600

/-- How many traps aged out of the ring before they were asked for. -/
def missedBetween (since oldest : UInt64) : UInt64 :=
  if 0 < since ∧ since + 1 < oldest then oldest - since - 1 else 0

/-- An answer that has been read, to the request that went out with `since`. -/
structure Answer where
  since : UInt64
  fresh : List XmlTrap
  current : UInt64
  oldest : UInt64
  deriving DecidableEq, Repr

/-- With what the loop has read: the traps and the two numbers. -/
def Answer.read (since : UInt64) (got : List XmlTrap × UInt64 × UInt64) : Answer :=
  ⟨since, got.1, got.2.1, got.2.2⟩

def Client.store (c : Client) (a : Answer) (now : Int64) : Client :=
  let restarted := a.current < c.trapSeq
  let since := if restarted then 0 else a.since
  let history := if a.fresh ≠ [] then (a.fresh ++ c.trapHistory).take trapsKept else c.trapHistory
  { trapSeq := if restarted then 0 else if 0 < a.current then a.current else c.trapSeq
    trapsLost := c.trapsLost + (missedBetween since a.oldest).toInt64
    trapHistory := history.filter fun t => now - trapMaxAge ≤ t.time }

/-! ### Daemon and client -/

/-- A trap is known by the run of the daemon that caught it, and its number there. -/
abbrev TrapId := Nat × Nat

/-- An answer on its way into the store: the run that gave it, and what the daemons had recorded. -/
structure Pending where
  run : Nat
  answer : Answer
  recorded : Finset TrapId

def Pending.ids (p : Pending) : List TrapId := p.answer.fresh.map fun t => (p.run, t.seq.toNat)

structure TrapState where
  run : Nat
  /-- The traps of this run. -/
  adds : List TrapArrival
  client : Client
  pending : Option Pending
  /-- All the traps ever recorded. -/
  recorded : Finset TrapId
  /-- Those that were recorded when the last stored answer was given. -/
  due : Finset TrapId
  /-- What the polls have collected, which is what they have put into the history of the client. -/
  collected : List TrapId

def TrapState.start : TrapState where
  run := 0
  adds := []
  client := Client.start
  pending := none
  recorded := ∅
  due := ∅
  collected := []

inductive TrapEvent where
  | trap (arrival : TrapArrival)
  | restart
  | reconnect
  /-- The connection breaks after so many characters of the answer, if it has more. -/
  | answer (received : Nat)
  | store (now : Int64)
  deriving DecidableEq, Repr

/-- What the daemon sends to a client that has this cursor. -/
def sentTraps (authed : Bool) (s : TrapState) : List Char :=
  wire (sendTrapsXml authed (history s.adds) (parseSince (request s.client.trapSeq)))

section system

variable (unmarshal : List Char → Option XmlTrap) (authed : Bool)

/-- The answer as far as it is received. -/
def heard (s : TrapState) (received : Nat) : Option Answer :=
  (readTraps unmarshal (((sentTraps authed s).take received).splitOn '\n')).map
    (Answer.read s.client.trapSeq)

def trapStep (s : TrapState) : TrapEvent → TrapState
  | .trap arrival =>
      { s with
        adds := s.adds ++ [arrival]
        recorded := insert (s.run, s.adds.length + 1) s.recorded }
  | .restart => { s with run := s.run + 1, adds := [] }
  | .reconnect => { s with client := { s.client with trapSeq := 0 } }
  | .answer received =>
      if s.pending.isSome then s
      else { s with pending := (heard unmarshal authed s received).map fun a => ⟨s.run, a, s.recorded⟩ }
  | .store now =>
      match s.pending with
      | none => s
      | some p =>
          { s with
            client := s.client.store p.answer now
            pending := none
            due := p.recorded
            collected := s.collected ++ p.ids }

end system

/-- No trap is collected twice, and those that are due and were not collected are counted. -/
structure Accounted (s : TrapState) : Prop where
  once : s.collected.Nodup
  lost : Int64.ofNat (s.due \ s.collected.toFinset).card = s.client.trapsLost

/-! ### Reading an answer -/

section reading

variable {unmarshal : List Char → Option XmlTrap}

theorem line_quiet {text : List Char} (h : Quiet text) (r : Reading) :
    r.line unmarshal (sentLine text) = { r with block := r.block ++ sentLine text } := by
  have hstart : ¬trapStart <:+: sentLine text :=
    fun hin => h.noStart (infix_of_infix_sentLine (by decide) (by decide) (by decide) hin)
  have hend : ¬trapEnd <:+: sentLine text :=
    fun hin => h.noEnd (infix_of_infix_sentLine (by decide) (by decide) (by decide) hin)
  rw [Reading.line, if_neg hstart, if_neg hend]

theorem lines_quiet {lines : List (List Char)} (h : ∀ text ∈ lines, Quiet text) (r : Reading) :
    takeLines (Reading.line unmarshal) r lines = { r with block := r.block ++ wire lines } := by
  induction lines generalizing r with
  | nil => simp [wire_eq]
  | cons text lines ih =>
      rw [takeLines_cons, line_quiet (h text List.mem_cons_self), ih fun t ht => h t (List.mem_cons_of_mem _ ht)]
      simp [wire_eq]

/-- What was in the block before a trap does not matter. -/
theorem lines_trap (authed : Bool) (r : TrapRecord) (reading : Reading) :
    takeLines (Reading.line unmarshal) reading (trapLines authed r) =
      ⟨[], reading.fresh ++ (unmarshal (wire (trapLines authed r))).toList⟩ := by
  have hopen : ∀ reading : Reading, reading.line unmarshal (sentLine (openTag "Trap".toList)) =
      ⟨sentLine (openTag "Trap".toList), reading.fresh⟩ := by
    intro reading
    have hstart : trapStart <:+: sentLine (openTag "Trap".toList) := by decide
    have hend : ¬trapEnd <:+: sentLine (openTag "Trap".toList) := by decide
    rw [Reading.line, if_pos hstart, if_neg hend, List.nil_append]
  have hclose : ∀ reading : Reading, reading.line unmarshal (sentLine (closeTag "Trap".toList)) =
      ⟨[], reading.fresh ++ (unmarshal (reading.block ++ sentLine (closeTag "Trap".toList))).toList⟩ := by
    intro reading
    have hstart : ¬trapStart <:+: sentLine (closeTag "Trap".toList) := by decide
    have hend : trapEnd <:+: sentLine (closeTag "Trap".toList) := by decide
    rw [Reading.line, if_neg hstart, if_pos hend]
  rw [trapLines, List.cons_append, takeLines_cons, hopen, takeLines_append,
    lines_quiet (quiet_trapElements authed r), takeLines_cons, takeLines_nil, hclose]
  simp [wire_eq]

theorem lines_traps (authed : Bool) (records : List TrapRecord) (reading : Reading) :
    (takeLines (Reading.line unmarshal) reading (records.flatMap (trapLines authed))).fresh =
      reading.fresh ++ records.flatMap fun r => (unmarshal (wire (trapLines authed r))).toList := by
  induction records generalizing reading with
  | nil => simp
  | cons r records ih => rw [List.flatMap_cons, takeLines_append, lines_trap, ih, List.flatMap_cons,
      List.append_assoc]

theorem quiet_wrapper : Quiet (openTag "SysmonTraps".toList) ∧ Quiet (closeTag "SysmonTraps".toList) := by
  constructor <;> exact ⟨⟨by decide, ⟨_, rfl⟩⟩, by decide, by decide⟩

/-- The traps that can be decoded are read. -/
theorem lines_body (authed : Bool) (h : TrapRing) (since : UInt64) :
    (takeLines (Reading.line unmarshal) Reading.start (trapsBody authed h since)).fresh =
      (sendTraps h true since).records.flatMap fun r => (unmarshal (wire (trapLines authed r))).toList := by
  rw [trapsBody, List.cons_append, takeLines_cons, line_quiet quiet_wrapper.1, takeLines_append, takeLines_cons,
    takeLines_nil, line_quiet quiet_wrapper.2, lines_traps, Reading.start, List.nil_append]

theorem isLine_body (authed : Bool) (h : TrapRing) (since : UInt64) :
    ∀ text ∈ trapsBody authed h since, Srvclient.IsLine text := by
  intro text htext
  simp only [trapsBody, trapLines, List.cons_append, List.mem_cons, List.mem_append, List.mem_flatMap,
    List.not_mem_nil, or_false] at htext
  have htag : Srvclient.IsLine (openTag "Trap".toList) ∧ Srvclient.IsLine (closeTag "Trap".toList) := by
    constructor <;> exact ⟨by decide, ⟨_, rfl⟩⟩
  obtain rfl | ⟨r, -, rfl | hline | rfl⟩ | rfl := htext
  · exact quiet_wrapper.1.toIsLine
  · exact htag.1
  · exact (quiet_trapElements authed r text hline).toIsLine
  · exact htag.2
  · exact quiet_wrapper.2.toIsLine

theorem statusLine_eq (answer : TrapsAnswer) :
    ∃ third, '\n' ∉ third ∧ statusLine answer = statusText answer.current answer.oldest third := by
  have hcurrent := length_showNat_le answer.current
  have holdest := length_showNat_le answer.oldest
  have happend : ∀ third : List Char, statusText answer.current answer.oldest third =
      statusText answer.current answer.oldest [] ++ third := by
    intro third
    simp only [statusText, List.append_assoc, List.cons_append, List.nil_append]
  have hline : "333 ".toList ++ showNat answer.current.toNat ++ ' ' :: showNat answer.oldest.toNat ++ ' ' ::
      showNat answer.third = statusText answer.current answer.oldest [] ++ showNat answer.third :=
    (statusText_of_word (by decide) _ _ _).trans (happend _)
  have hlength : (statusText answer.current answer.oldest []).length ≤ 4095 := by
    simp only [statusText, List.length_append, List.length_cons, List.length_nil]
    change 3 + ((showNat answer.current.toNat).length + ((showNat answer.oldest.toNat).length + (0 + 1) + 1) + 1) ≤ 4095
    omega
  refine ⟨(showNat answer.third).take (4095 - (statusText answer.current answer.oldest []).length), fun hmem => ?_, ?_⟩
  · exact not_mem_showNat (by decide) _ (List.mem_of_mem_take hmem)
  · have hsize : Srvclient.largeTempbufSize - 1 = 4095 := rfl
    rw [statusLine, hline, snprintf, hsize, List.take_append, List.take_of_length_le hlength, ← happend]

/-- What is read of an answer that may break: nothing, when it does not get as far as the status. -/
theorem readTraps_broken (authed : Bool) (h : TrapRing) (since : UInt64) {k : Nat}
    (hk : k < (wire (trapsBody authed h since)).length + 3) :
    readTraps unmarshal (((wire (sendTrapsXml authed h since)).take k).splitOn '\n') = none := by
  obtain ⟨third, hthird, hstatus⟩ := statusLine_eq (sendTraps h true since)
  rw [readTraps, sendTrapsXml, hstatus, readReply_take (isLine_body authed h since) (newline_not_mem_statusText _ _ hthird)]
  split
  · rfl
  · rw [replyLine_short _ _ _ (by omega)]
    rfl

/-- Otherwise the traps, and the numbers that are left of the status. -/
theorem readTraps_take (unmarshal : List Char → Option XmlTrap) (authed : Bool) (h : TrapRing) (since : UInt64) :
    ∃ third, ∀ k, (wire (trapsBody authed h since)).length + 3 ≤ k →
      readTraps unmarshal (((wire (sendTrapsXml authed h since)).take k).splitOn '\n') =
        some ((sendTraps h true since).records.flatMap fun r => (unmarshal (wire (trapLines authed r))).toList,
          uintField ((sentLine (statusText h.total (trapHistoryOldestSeq h) third)).take
            (k - (wire (trapsBody authed h since)).length)) 1,
          uintField ((sentLine (statusText h.total (trapHistoryOldestSeq h) third)).take
            (k - (wire (trapsBody authed h since)).length)) 2) := by
  obtain ⟨third, hthird, hstatus⟩ : ∃ third, '\n' ∉ third ∧ statusLine (sendTraps h true since) =
      statusText h.total (trapHistoryOldestSeq h) third := statusLine_eq (sendTraps h true since)
  refine ⟨third, fun k hk => ?_⟩
  rw [readTraps, sendTrapsXml, hstatus, readReply_take (isLine_body authed h since) (newline_not_mem_statusText _ _ hthird),
    if_neg (by omega), replyLine_status _ _ _ (by omega), ReplyLine.ends, Option.map_some, parseSeqField_trimSpace,
    parseSeqField_trimSpace, lines_body]

end reading

/-! ### The condition -/

section condition

variable (unmarshal : List Char → Option XmlTrap) (authed : Bool)

/-- What an answer has before its status. -/
def bodyLength (s : TrapState) : Nat := (wire (trapsBody authed (history s.adds) s.client.trapSeq)).length

/-- The daemon has caught traps, its ring still holds those that the cursor does not cover, and the answer is
received as far as its numbers matter. -/
structure Followed (s : TrapState) (received : Nat) : Prop where
  number : s.adds.length < 2 ^ 64 - 1
  /-- The cursor stands where this run of the daemon was left. -/
  cursor : s.due.filter (fun id => id.1 = s.run) =
    (Finset.Icc 1 s.client.trapSeq.toNat).image fun seq => (s.run, seq)
  /-- A client without a cursor cannot tell that something is missing. -/
  ring : s.client.trapSeq = 0 → s.adds.length ≤ trapHistoryMax
  current : bodyLength authed s + 4 + (showNat s.adds.length).length ≤ received
  oldest : bodyLength authed s + 4 + (showNat s.adds.length).length + 1 +
      (showNat (trapHistoryOldestSeq (history s.adds)).toNat).length ≤ received ∨
    (trapHistoryOldestSeq (history s.adds)).toNat ≤ s.client.trapSeq.toNat + 1
  decoded : ∀ r ∈ (sendTraps (history s.adds) true s.client.trapSeq).records,
    (unmarshal (wire (trapLines authed r))).map XmlTrap.seq = some r.seq

/-- The answer breaks before its status, or it is followed and the runs before have nothing left. -/
def Harmless (s : TrapState) : TrapEvent → Prop
  | .answer received =>
      s.pending = none → received < bodyLength authed s + 3 ∨
        (∀ id ∈ s.recorded, id.1 < s.run → id ∈ s.due) ∧
          (s.adds = [] ∨ Followed unmarshal authed s received)
  | _ => True

end condition

/-! ### What an answer brings -/

/-- The answer accounts for what was recorded when it was given. -/
structure Pending.Right (s : TrapState) (p : Pending) : Prop where
  recorded : p.recorded ⊆ s.recorded
  due : s.due ⊆ p.recorded
  once : p.ids.Nodup
  fresh : ∀ id ∈ p.ids, id ∈ p.recorded ∧ id ∉ s.due
  lost : (p.recorded \ (s.due ∪ p.ids.toFinset)).card = (missedBetween p.answer.since p.answer.oldest).toNat
  /-- Where the daemon is taken for restarted there is nothing to count. -/
  restarted : p.answer.current < s.client.trapSeq → missedBetween p.answer.since p.answer.oldest = 0

/-- What holds of daemon and client in every run whose steps meet the condition. -/
structure TrapInv (s : TrapState) : Prop where
  runs : ∀ id ∈ s.recorded, id.1 ≤ s.run
  now : ∀ seq, (s.run, seq) ∈ s.recorded ↔ 1 ≤ seq ∧ seq ≤ s.adds.length
  due : s.due ⊆ s.recorded
  collected : ∀ id ∈ s.collected, id ∈ s.due
  accounted : Accounted s
  pending : ∀ p ∈ s.pending, p.Right s

theorem TrapInv.start : TrapInv TrapState.start where
  runs := fun _ h => absurd h (Finset.notMem_empty _)
  now := fun seq => ⟨fun h => absurd h (Finset.notMem_empty _), fun h => absurd h.1 (by have : seq ≤ 0 := h.2; omega)⟩
  due := Finset.Subset.refl _
  collected := fun _ h => absurd h List.not_mem_nil
  accounted := ⟨List.nodup_nil, rfl⟩
  pending := fun _ h => nomatch h

/-- Nothing is left to count where the numbers leave no gap. -/
theorem missedBetween_eq_zero {since oldest : UInt64} (hsince : since.toNat + 1 < 2 ^ 64)
    (h : oldest.toNat ≤ since.toNat + 1) : missedBetween since oldest = 0 := by
  rw [missedBetween, if_neg]
  rintro ⟨-, hgap⟩
  rw [UInt64.lt_iff_toNat_lt, UInt64.toNat_add] at hgap
  change (since.toNat + 1) % 2 ^ 64 < oldest.toNat at hgap
  omega

theorem missedBetween_zero (since : UInt64) : missedBetween since 0 = 0 := by
  rw [missedBetween, if_neg]
  rintro ⟨-, hgap⟩
  rw [UInt64.lt_iff_toNat_lt] at hgap
  exact absurd hgap (Nat.not_lt_zero _)

theorem zero_missedBetween (oldest : UInt64) : missedBetween 0 oldest = 0 := by
  rw [missedBetween, if_neg]
  rintro ⟨hpos, -⟩
  exact absurd hpos (UInt64.lt_irrefl 0)

theorem toNat_missedBetween {since oldest : UInt64} (hsince : since.toNat + 1 < 2 ^ 64) (hpos : 0 < since) :
    (missedBetween since oldest).toNat = lost since oldest := by
  have holdest := oldest.toNat_lt
  by_cases hgap : since.toNat + 1 < oldest.toNat
  · have hsucc : (since + 1).toNat = since.toNat + 1 := by
      rw [UInt64.toNat_add]
      exact Nat.mod_eq_of_lt hsince
    have hfirst : (oldest - since).toNat = oldest.toNat - since.toNat :=
      UInt64.toNat_sub_of_le _ _ (UInt64.le_iff_toNat_le.mpr (by omega))
    have hsecond : (oldest - since - 1).toNat = oldest.toNat - since.toNat - 1 := by
      rw [UInt64.toNat_sub_of_le _ _ (UInt64.le_iff_toNat_le.mpr (by rw [hfirst]; change 1 ≤ _; omega)), hfirst]
      rfl
    have hlt : since + 1 < oldest := UInt64.lt_iff_toNat_lt.mpr (by rw [hsucc]; exact hgap)
    rw [missedBetween, if_pos ⟨hpos, hlt⟩, hsecond, lost]
    omega
  · rw [missedBetween_eq_zero hsince (Nat.not_lt.mp hgap), lost]
    change 0 = _
    omega

section heard

variable {unmarshal : List Char → Option XmlTrap} {authed : Bool} {s : TrapState} {received : Nat}

theorem heard_broken (h : received < bodyLength authed s + 3) : heard unmarshal authed s received = none := by
  rw [heard, sentTraps, parseSince_request, readTraps_broken authed _ _ h]
  rfl

/-- What is left of the numbers decides what an answer says, once its status has come. -/
theorem heard_eq (unmarshal : List Char → Option XmlTrap) (authed : Bool) (s : TrapState) :
    ∃ third, ∀ received, bodyLength authed s + 3 ≤ received → heard unmarshal authed s received =
      some ⟨s.client.trapSeq, (sendTraps (history s.adds) true s.client.trapSeq).records.flatMap fun r =>
          (unmarshal (wire (trapLines authed r))).toList,
        uintField ((sentLine (statusText (history s.adds).total (trapHistoryOldestSeq (history s.adds)) third)).take
          (received - bodyLength authed s)) 1,
        uintField ((sentLine (statusText (history s.adds).total (trapHistoryOldestSeq (history s.adds)) third)).take
          (received - bodyLength authed s)) 2⟩ := by
  obtain ⟨third, hthird⟩ := readTraps_take unmarshal authed (history s.adds) s.client.trapSeq
  refine ⟨third, fun received hreceived => ?_⟩
  rw [heard, sentTraps, parseSince_request, hthird received hreceived, Option.map_some, Answer.read, bodyLength]

theorem records_nil (since : UInt64) : (sendTraps (history []) true since).records = [] := rfl

/-- A daemon without traps has no numbers to misread. -/
theorem heard_none (hadds : s.adds = []) (h : bodyLength authed s + 3 ≤ received) :
    heard unmarshal authed s received = some ⟨s.client.trapSeq, [], 0, 0⟩ := by
  obtain ⟨third, hheard⟩ := heard_eq unmarshal authed s
  obtain ⟨hcurrent, holdest⟩ := status_zero (history s.adds).total (trapHistoryOldestSeq (history s.adds)) third
    (by rw [hadds]; rfl) (by rw [hadds]; rfl) (show 3 ≤ received - bodyLength authed s by omega)
  rw [hheard received h, hcurrent, holdest, hadds, records_nil]
  rfl

theorem total_history (hlen : s.adds.length < 2 ^ 64) : (history s.adds).total.toNat = s.adds.length := by
  rw [(history_holds s.adds).2, UInt64.toNat_ofNat']
  exact Nat.mod_eq_of_lt hlen

theorem map_flatMap_toList {α β γ : Type*} {l : List α} {f : α → Option β} {g : β → γ} {g' : α → γ}
    (h : ∀ a ∈ l, (f a).map g = some (g' a)) : (l.flatMap fun a => (f a).toList).map g = l.map g' := by
  induction l with
  | nil => rfl
  | cons a l ih =>
      obtain ⟨b, hb, hg⟩ := Option.map_eq_some_iff.mp (h a List.mem_cons_self)
      rw [List.flatMap_cons, List.map_append, ih fun a' ha' => h a' (List.mem_cons_of_mem _ ha'), hb, List.map_cons,
        ← hg]
      rfl

theorem cursor_mem (h : Followed unmarshal authed s received) (seq : Nat) :
    (s.run, seq) ∈ s.due ↔ 1 ≤ seq ∧ seq ≤ s.client.trapSeq.toNat := by
  have hfilter : (s.run, seq) ∈ s.due.filter (fun id => id.1 = s.run) ↔ (s.run, seq) ∈ s.due := by simp
  rw [← hfilter, h.cursor]
  simp

theorem cursor_le (hinv : TrapInv s) (h : Followed unmarshal authed s received) :
    s.client.trapSeq.toNat ≤ s.adds.length := by
  by_cases hzero : s.client.trapSeq.toNat = 0
  · omega
  · have hlast := hinv.due ((cursor_mem h s.client.trapSeq.toNat).mpr ⟨by omega, le_rfl⟩)
    exact ((hinv.now _).mp hlast).2

/-- What the client reads is what the daemon has. -/
theorem heard_followed (hinv : TrapInv s) (h : Followed unmarshal authed s received) :
    ∃ fresh oldest, heard unmarshal authed s received =
        some ⟨s.client.trapSeq, fresh, (history s.adds).total, oldest⟩ ∧
      fresh.map XmlTrap.seq = (sendTraps (history s.adds) true s.client.trapSeq).records.map TrapRecord.seq ∧
      missedBetween s.client.trapSeq oldest =
        missedBetween s.client.trapSeq (trapHistoryOldestSeq (history s.adds)) := by
  have hnumber := h.number
  have htotal := total_history (s := s) (by omega)
  have hcurrent := h.current
  have hsince : s.client.trapSeq.toNat + 1 < 2 ^ 64 := by
    have := cursor_le hinv h
    omega
  have hlength : (showNat (history s.adds).total.toNat).length = (showNat s.adds.length).length := by rw [htotal]
  obtain ⟨third, hheard⟩ := heard_eq unmarshal authed s
  obtain ⟨hfirst, hle, hwhole⟩ := status_first (history s.adds).total (trapHistoryOldestSeq (history s.adds)) third
    (show 4 + _ ≤ received - bodyLength authed s by omega)
  have hstatus := hheard received (by omega)
  rw [hfirst] at hstatus
  refine ⟨_, _, hstatus, map_flatMap_toList h.decoded, ?_⟩
  obtain holdest | holdest := h.oldest
  · rw [hwhole (by omega)]
  · rw [missedBetween_eq_zero hsince (Nat.le_trans hle holdest), missedBetween_eq_zero hsince holdest]

end heard

section run

variable {unmarshal : List Char → Option XmlTrap} {authed : Bool} {s : TrapState} {received : Nat}

theorem settled_cases (hinv : TrapInv s) (hsettled : ∀ id ∈ s.recorded, id.1 < s.run → id ∈ s.due) {id : TrapId}
    (h : id ∈ s.recorded) (hdue : id ∉ s.due) : id.1 = s.run ∧ 1 ≤ id.2 ∧ id.2 ≤ s.adds.length := by
  have hrun : id.1 = s.run := by
    by_contra hne
    exact hdue (hsettled id h (Nat.lt_of_le_of_ne (hinv.runs id h) hne))
  refine ⟨hrun, (hinv.now id.2).mp ?_⟩
  rw [← hrun]
  exact h

theorem right_none (hinv : TrapInv s) (hsettled : ∀ id ∈ s.recorded, id.1 < s.run → id ∈ s.due)
    (hadds : s.adds = []) : Pending.Right s ⟨s.run, ⟨s.client.trapSeq, [], 0, 0⟩, s.recorded⟩ where
  recorded := Finset.Subset.refl _
  due := hinv.due
  once := List.nodup_nil
  fresh := fun _ h => absurd h List.not_mem_nil
  lost := by
    have hnone : s.recorded \ (s.due ∪ (Pending.ids ⟨s.run, ⟨s.client.trapSeq, [], 0, 0⟩, s.recorded⟩).toFinset) = ∅ := by
      refine Finset.eq_empty_of_forall_notMem fun id hid => ?_
      rw [Finset.mem_sdiff, Finset.mem_union, not_or] at hid
      obtain ⟨-, hlow, hhigh⟩ := settled_cases hinv hsettled hid.1 hid.2.1
      rw [hadds, List.length_nil] at hhigh
      omega
    rw [hnone, missedBetween_zero]
    rfl
  restarted := fun _ => missedBetween_zero _

theorem ids_eq (run : Nat) (a : Answer) (recorded : Finset TrapId) :
    Pending.ids ⟨run, a, recorded⟩ = (a.fresh.map XmlTrap.seq).map fun seq => (run, seq.toNat) := by
  rw [List.map_map]
  rfl

/-- The traps that come are those that are still held and are new. -/
theorem mem_ids (h : Followed unmarshal authed s received) {fresh : List XmlTrap}
    (hfresh : fresh.map XmlTrap.seq =
      (sendTraps (history s.adds) true s.client.trapSeq).records.map TrapRecord.seq) (current oldest : UInt64)
    (id : TrapId) : id ∈ Pending.ids ⟨s.run, ⟨s.client.trapSeq, fresh, current, oldest⟩, s.recorded⟩ ↔
      id.1 = s.run ∧ s.client.trapSeq.toNat < id.2 ∧ s.adds.length - min s.adds.length trapHistoryMax < id.2 ∧
        id.2 ≤ s.adds.length := by
  have hnumber := h.number
  have hright := (history_right_iff s.adds).mpr (by omega)
  rw [ids_eq, hfresh, List.map_map, List.mem_map]
  constructor
  · rintro ⟨r, hr, rfl⟩
    obtain ⟨hheld, hnew⟩ := (hright.records true _ r).mp hr
    exact ⟨rfl, UInt64.lt_iff_toNat_lt.mp hnew, (held_history (by omega)).mp ⟨r, hheld, rfl⟩⟩
  · rintro ⟨hrun, hnew, hheld⟩
    obtain ⟨r, hr, hseq⟩ := (held_history (by omega)).mpr hheld
    refine ⟨r, (hright.records true _ r).mpr ⟨hr, UInt64.lt_iff_toNat_lt.mpr (by rw [hseq]; exact hnew)⟩, ?_⟩
    exact Prod.ext hrun.symm hseq

theorem right_followed (hinv : TrapInv s) (hsettled : ∀ id ∈ s.recorded, id.1 < s.run → id ∈ s.due)
    (h : Followed unmarshal authed s received) {fresh : List XmlTrap}
    (hfresh : fresh.map XmlTrap.seq =
      (sendTraps (history s.adds) true s.client.trapSeq).records.map TrapRecord.seq) {oldest : UInt64}
    (holdest : missedBetween s.client.trapSeq oldest =
      missedBetween s.client.trapSeq (trapHistoryOldestSeq (history s.adds))) :
    Pending.Right s ⟨s.run, ⟨s.client.trapSeq, fresh, (history s.adds).total, oldest⟩, s.recorded⟩ := by
  have hnumber := h.number
  have hmax : trapHistoryMax = 128 := rfl
  have htotal := total_history (s := s) (by omega)
  have hle := cursor_le hinv h
  have hmem := mem_ids h hfresh (history s.adds).total oldest
  refine ⟨Finset.Subset.refl _, hinv.due, ?_, fun id hid => ?_, ?_, fun hlt => ?_⟩
  · have honce := ((history_right_iff s.adds).mpr (by omega)).once true s.client.trapSeq
    rw [← hfresh] at honce
    rw [ids_eq]
    exact honce.map fun _ _ heq => UInt64.toNat_inj.mp (Prod.ext_iff.mp heq).2
  · obtain ⟨hrun, hnew, hheld⟩ := (hmem id).mp hid
    have hid : id = (s.run, id.2) := Prod.ext hrun rfl
    rw [hid]
    refine ⟨(hinv.now _).mpr (by omega), fun hdue => ?_⟩
    have := (cursor_mem h _).mp hdue
    omega
  · -- what is neither due nor sent has been overwritten
    have hgone : s.recorded \ (s.due ∪
        (Pending.ids ⟨s.run, ⟨s.client.trapSeq, fresh, (history s.adds).total, oldest⟩, s.recorded⟩).toFinset) =
        (Finset.Ioc s.client.trapSeq.toNat (s.adds.length - min s.adds.length trapHistoryMax)).image
          fun seq => (s.run, seq) := by
      ext id
      rw [Finset.mem_sdiff, Finset.mem_union, not_or, List.mem_toFinset, hmem, Finset.mem_image]
      constructor
      · rintro ⟨hrecorded, hdue, hsent⟩
        obtain ⟨hrun, hlow, hhigh⟩ := settled_cases hinv hsettled hrecorded hdue
        have hid : id = (s.run, id.2) := Prod.ext hrun rfl
        rw [hid, cursor_mem h] at hdue
        exact ⟨id.2, Finset.mem_Ioc.mpr (by omega), hid.symm⟩
      · rintro ⟨seq, hseq, rfl⟩
        rw [Finset.mem_Ioc] at hseq
        rw [hinv.now, cursor_mem h]
        dsimp only
        omega
    have hlength : s.adds.length - min s.adds.length trapHistoryMax - s.client.trapSeq.toNat =
        (missedBetween s.client.trapSeq (trapHistoryOldestSeq (history s.adds))).toNat := by
      by_cases hzero : s.client.trapSeq = 0
      · have hring := h.ring hzero
        rw [hzero, zero_missedBetween]
        change _ = 0
        omega
      · have hpos : 0 < s.client.trapSeq := by
          rw [UInt64.lt_iff_toNat_lt]
          exact Nat.pos_of_ne_zero fun heq => hzero (UInt64.toNat_inj.mp heq)
        rw [toNat_missedBetween (by omega) hpos, lost, oldest_history (by omega)]
        split <;> omega
    rw [hgone, Finset.card_image_of_injective _ (Prod.mk_right_injective s.run), Nat.card_Ioc, holdest, hlength]
  · dsimp only at hlt
    rw [UInt64.lt_iff_toNat_lt, htotal] at hlt
    omega

end run

section run

variable {unmarshal : List Char → Option XmlTrap} {authed : Bool} {s : TrapState}

theorem trapsLost_store {p : Pending} (h : p.Right s) (now : Int64) : (s.client.store p.answer now).trapsLost =
    s.client.trapsLost + (missedBetween p.answer.since p.answer.oldest).toInt64 := by
  by_cases hrestarted : p.answer.current < s.client.trapSeq
  · change s.client.trapsLost + (missedBetween (if p.answer.current < s.client.trapSeq then 0 else p.answer.since)
      p.answer.oldest).toInt64 = _
    rw [if_pos hrestarted, zero_missedBetween, h.restarted hrestarted]
  · change s.client.trapsLost + (missedBetween (if p.answer.current < s.client.trapSeq then 0 else p.answer.since)
      p.answer.oldest).toInt64 = _
    rw [if_neg hrestarted]

/-- The traps that are stored and those that are counted make up what is newly due. -/
theorem accounted_store (hinv : TrapInv s) {p : Pending} (h : p.Right s) (now : Int64) :
    Accounted { s with
      client := s.client.store p.answer now, pending := none, due := p.recorded, collected := s.collected ++ p.ids } where
  once := List.Nodup.append hinv.accounted.once h.once fun id hcollected hid =>
    (h.fresh id hid).2 (hinv.collected id hcollected)
  lost := by
    have hsplit : p.recorded \ (s.collected ++ p.ids).toFinset =
        (s.due \ s.collected.toFinset) ∪ (p.recorded \ (s.due ∪ p.ids.toFinset)) := by
      ext id
      simp only [List.toFinset_append, Finset.mem_sdiff, Finset.mem_union, List.mem_toFinset, not_or]
      have hdue := @h.due id
      have hfresh := h.fresh id
      have hcollected := hinv.collected id
      tauto
    have hdisjoint : Disjoint (s.due \ s.collected.toFinset) (p.recorded \ (s.due ∪ p.ids.toFinset)) := by
      rw [Finset.disjoint_left]
      intro id hleft hright
      simp only [Finset.mem_sdiff, Finset.mem_union, not_or] at hleft hright
      exact hright.2.1 hleft.1
    dsimp only
    rw [trapsLost_store h, hsplit, Finset.card_union_of_disjoint hdisjoint, h.lost, Int64.ofNat_add,
      hinv.accounted.lost]
    congr 1
    rw [← UInt64.toInt64_ofNat', UInt64.ofNat_toNat]

/-- A request that nothing answers, and one that is answered. -/
theorem pending_answer {received : Nat} (hinv : TrapInv s) (hpending : s.pending = none)
    (hguard : Harmless unmarshal authed s (.answer received)) :
    ∀ p ∈ (heard unmarshal authed s received).map fun a => (⟨s.run, a, s.recorded⟩ : Pending), p.Right s := by
  intro p hp
  obtain ⟨a, ha, rfl⟩ := Option.mem_map.mp hp
  obtain hbroken | ⟨hsettled, hadds | hfollowed⟩ := hguard hpending
  · rw [heard_broken hbroken] at ha
    exact nomatch ha
  · by_cases hbroken : received < bodyLength authed s + 3
    · rw [heard_broken hbroken] at ha
      exact nomatch ha
    · rw [heard_none hadds (Nat.not_lt.mp hbroken)] at ha
      obtain rfl := Option.some.inj ha
      exact right_none hinv hsettled hadds
  · obtain ⟨fresh, oldest, hheard, hfresh, holdest⟩ := heard_followed hinv hfollowed
    rw [hheard] at ha
    obtain rfl := Option.some.inj ha
    exact right_followed hinv hsettled hfollowed hfresh holdest

theorem trapStep_inv (s : TrapState) (e : TrapEvent) (hinv : TrapInv s) (hguard : Harmless unmarshal authed s e) :
    TrapInv (trapStep unmarshal authed s e) := by
  cases e with
  | trap arrival =>
      refine ⟨fun id hid => ?_, fun seq => ?_, fun id hid => Finset.mem_insert_of_mem (hinv.due hid),
        hinv.collected, ⟨hinv.accounted.once, hinv.accounted.lost⟩, fun p hp => ?_⟩
      · obtain rfl | hid := Finset.mem_insert.mp hid
        · exact le_rfl
        · exact hinv.runs id hid
      · change (s.run, seq) ∈ insert (s.run, s.adds.length + 1) s.recorded ↔
          1 ≤ seq ∧ seq ≤ (s.adds ++ [arrival]).length
        rw [Finset.mem_insert, hinv.now, List.length_append, List.length_singleton, Prod.mk.injEq]
        omega
      · have hright := hinv.pending p hp
        exact ⟨hright.recorded.trans (Finset.subset_insert _ _), hright.due, hright.once, hright.fresh, hright.lost,
          hright.restarted⟩
  | restart =>
      refine ⟨fun id hid => Nat.le_succ_of_le (hinv.runs id hid), fun seq => ?_, hinv.due, hinv.collected,
        ⟨hinv.accounted.once, hinv.accounted.lost⟩, fun p hp => ?_⟩
      · constructor
        · intro hid
          exact absurd (hinv.runs _ hid) (Nat.not_succ_le_self _)
        · rintro ⟨hlow, hhigh⟩
          change seq ≤ 0 at hhigh
          omega
      · have hright := hinv.pending p hp
        exact ⟨hright.recorded, hright.due, hright.once, hright.fresh, hright.lost, hright.restarted⟩
  | reconnect =>
      refine ⟨hinv.runs, hinv.now, hinv.due, hinv.collected, ⟨hinv.accounted.once, hinv.accounted.lost⟩,
        fun p hp => ?_⟩
      have hright := hinv.pending p hp
      exact ⟨hright.recorded, hright.due, hright.once, hright.fresh, hright.lost,
        fun hlt => absurd (UInt64.lt_iff_toNat_lt.mp hlt) (Nat.not_lt_zero _)⟩
  | answer received =>
      rw [trapStep]
      cases hpending : s.pending with
      | some p =>
          rw [Option.isSome_some, if_pos rfl]
          exact hinv
      | none =>
          rw [Option.isSome_none, if_neg Bool.false_ne_true]
          refine ⟨hinv.runs, hinv.now, hinv.due, hinv.collected, ⟨hinv.accounted.once, hinv.accounted.lost⟩,
            fun p hp => ?_⟩
          have hright := pending_answer hinv hpending hguard p hp
          exact ⟨hright.recorded, hright.due, hright.once, hright.fresh, hright.lost, hright.restarted⟩
  | store now =>
      rw [trapStep]
      cases hpending : s.pending with
      | none => exact hinv
      | some p =>
          have hright := hinv.pending p hpending
          refine ⟨hinv.runs, hinv.now, hright.recorded, fun id hid => ?_, accounted_store hinv hright now,
            fun p hp => nomatch hp⟩
          obtain hid | hid := List.mem_append.mp hid
          · exact hright.due (hinv.collected id hid)
          · exact (hright.fresh id hid).1

/-- In a run whose answers are harmless no trap is collected twice, and every trap that was recorded before
the last answer was collected or is counted. -/
theorem traps_accounted (unmarshal : List Char → Option XmlTrap) (authed : Bool) (es : List TrapEvent)
    (h : Run.Guarded (trapStep unmarshal authed) (Harmless unmarshal authed) TrapState.start es) :
    Run.Always (trapStep unmarshal authed) Accounted TrapState.start es := by
  have hinv := Run.always_of_guarded (P := TrapInv) trapStep_inv TrapInv.start h
  exact fun pre hpre => (hinv pre hpre).accounted

end run

/-! ### What the client has of them -/

/-- The numbers of the traps that the client has. -/
def Client.numbers (c : Client) : List Nat := c.trapHistory.map fun t => t.seq.toNat

/-- No trap is dropped when an answer is stored: there is room for all, and none is too old. -/
def Fits (c : Client) (a : Answer) (now : Int64) : Prop :=
  (a.fresh ++ c.trapHistory).length ≤ trapsKept ∧ ∀ t ∈ a.fresh ++ c.trapHistory, now - trapMaxAge ≤ t.time

theorem trapHistory_store (c : Client) (a : Answer) (now : Int64) :
    (c.store a now).trapHistory.Sublist (a.fresh ++ c.trapHistory) := by
  refine List.filter_sublist.trans ?_
  split
  · exact List.take_sublist _ _
  · exact List.sublist_append_right _ _

theorem trapHistory_store_of_fits {c : Client} {a : Answer} {now : Int64} (h : Fits c a now) :
    (c.store a now).trapHistory = a.fresh ++ c.trapHistory := by
  obtain ⟨hroom, hnew⟩ := h
  have hhistory : (if a.fresh ≠ [] then (a.fresh ++ c.trapHistory).take trapsKept else c.trapHistory) =
      a.fresh ++ c.trapHistory := by
    split
    · exact List.take_of_length_le hroom
    · rename_i hnone
      rw [not_not.mp hnone, List.nil_append]
  rw [Client.store]
  dsimp only
  rw [hhistory, List.filter_eq_self]
  exact fun t ht => decide_eq_true (hnew t ht)

section collected

variable (unmarshal : List Char → Option XmlTrap) (authed : Bool)

/-- What is collected goes into the history of the client, which has nothing else; and it has all of it as long as
none is dropped. -/
theorem numbers_collected (es : List TrapEvent) :
    Run.Always (trapStep unmarshal authed) (fun s => s.client.numbers.Subperm (s.collected.map Prod.snd))
        TrapState.start es ∧
      (Run.Guarded (trapStep unmarshal authed)
          (fun s e => ∀ now, e = .store now → ∀ p, s.pending = some p → Fits s.client p.answer now) TrapState.start es →
        Run.Always (trapStep unmarshal authed) (fun s => s.client.numbers.Perm (s.collected.map Prod.snd))
          TrapState.start es) := by
  have hids : ∀ p : Pending, p.ids.map Prod.snd = p.answer.fresh.map fun t => t.seq.toNat := fun p => by
    rw [Pending.ids, List.map_map]
    rfl
  constructor
  · refine @Run.always_of_guarded _ _ _ _ (fun _ _ => True) _ _ (fun s e h _ => ?_) (List.Subperm.refl _) fun _ _ _ => trivial
    cases e with
    | store now =>
        rw [trapStep]
        cases s.pending with
        | none => exact h
        | some p =>
            dsimp only
            rw [List.map_append, hids]
            have hkept := ((trapHistory_store s.client p.answer now).map fun t => t.seq.toNat).subperm
            rw [List.map_append] at hkept
            exact (hkept.trans ((List.subperm_append_left _).mpr h)).trans List.perm_append_comm.subperm
    | answer received =>
        rw [trapStep]
        split <;> exact h
    | trap arrival | restart | reconnect => exact h
  · refine Run.always_of_guarded (fun s e h hfits => ?_) (List.Perm.refl _)
    cases e with
    | store now =>
        rw [trapStep]
        cases hpending : s.pending with
        | none => exact h
        | some p =>
            dsimp only
            rw [Client.numbers, trapHistory_store_of_fits (hfits now rfl p hpending), List.map_append, List.map_append,
              hids]
            exact (h.append_left _).trans List.perm_append_comm
    | answer received =>
        rw [trapStep]
        split <;> exact h
    | trap arrival | restart | reconnect => exact h

end collected

/-! ### Runs -/

/-- The number and the time, from the lines they have in the element of a trap. -/
def unmarshalLines (block : List Char) : Option XmlTrap :=
  let lines := block.splitOn '\n'
  some ⟨strtoul ((lines.getD 1 []).drop 9), strtoll ((lines.getD 3 []).drop 10)⟩

instance (unmarshal : List Char → Option XmlTrap) (authed : Bool) (s : TrapState) (received : Nat) :
    Decidable (Followed unmarshal authed s received) :=
  decidable_of_iff
    (s.adds.length < 2 ^ 64 - 1 ∧
      s.due.filter (fun id => id.1 = s.run) =
        (Finset.Icc 1 s.client.trapSeq.toNat).image (fun seq => (s.run, seq)) ∧
      (s.client.trapSeq = 0 → s.adds.length ≤ trapHistoryMax) ∧
      bodyLength authed s + 4 + (showNat s.adds.length).length ≤ received ∧
      (bodyLength authed s + 4 + (showNat s.adds.length).length + 1 +
          (showNat (trapHistoryOldestSeq (history s.adds)).toNat).length ≤ received ∨
        (trapHistoryOldestSeq (history s.adds)).toNat ≤ s.client.trapSeq.toNat + 1) ∧
      ∀ r ∈ (sendTraps (history s.adds) true s.client.trapSeq).records,
        (unmarshal (wire (trapLines authed r))).map XmlTrap.seq = some r.seq)
    ⟨fun ⟨number, cursor, ring, current, oldest, decoded⟩ => ⟨number, cursor, ring, current, oldest, decoded⟩,
      fun h => ⟨h.number, h.cursor, h.ring, h.current, h.oldest, h.decoded⟩⟩

instance (unmarshal : List Char → Option XmlTrap) (authed : Bool) (s : TrapState) :
    (e : TrapEvent) → Decidable (Harmless unmarshal authed s e)
  | .answer _ => inferInstanceAs (Decidable (s.pending = none → _))
  | .trap _ => isTrue trivial
  | .restart => isTrue trivial
  | .reconnect => isTrue trivial
  | .store _ => isTrue trivial


theorem traps_accounted_twoPolls : Run.Always (trapStep unmarshalLines true) Accounted TrapState.start
    [.trap noRecord.trap, .answer 9999, .store 0, .trap noRecord.trap, .answer 3, .answer 9999, .store 0] :=
  traps_accounted unmarshalLines true _ (by decide +kernel)

/-- A daemon that has caught as many traps since its restart as before keeps them for itself, and one that
dials in again hands over what it has handed over already. -/
theorem not_accounted_restart_reconnect :
    ¬Run.Always (trapStep unmarshalLines true) Accounted TrapState.start
        [.trap noRecord.trap, .answer 9999, .store 0, .restart, .trap noRecord.trap, .answer 9999, .store 0] ∧
      ¬Run.Always (trapStep unmarshalLines true) Accounted TrapState.start
        [.trap noRecord.trap, .answer 9999, .store 0, .reconnect, .answer 9999, .store 0] := by
  refine ⟨fun h => ?_, fun h => ?_⟩
  · have hlost := (h _ List.prefix_rfl).lost
    exact absurd hlost (by decide +kernel)
  · have honce := (h _ List.prefix_rfl).once
    exact absurd honce (by decide +kernel)

end Sysmon.Monitoring
