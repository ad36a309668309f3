import Mathlib.Data.Finset.Card
import Mathlib.Data.List.Nodup
import Mathlib.Data.UInt
import Mathlib.Order.Interval.Finset.Nat
import Sysmon.Lib.GoMap
import Sysmon.Lib.Run

/-!
# Counting echo replies

`handle_icmp_responses` and `rtt_match_and_record` of `icmp.c`, with the part of the three kinds of checks that
sends probes and ends. All of them share one socket; a reply goes to the first check in the queue that takes it.
A latency check knows by the sequence number which probe a reply answers. The other two go by identifier and
address alone, so they also count a second answer to one probe, and an answer to a probe that was never sent.

The round trip times are left out, and what becomes of the result when a probe cannot be sent. The probe is counted
before `sendto` is called, so where such a check goes on (the error is one `pinger_v4` does not know, or the probe was
the first of a latency check) it is one whose probe was lost on the way.
-/

namespace Sysmon.Icmp

inductive CheckType where
  | ping
  | pktloss
  | pingLatency
  deriving DecidableEq, Repr

/-- A check that is under way: what its object asks for, `struct pingdata`, and of `struct rtt_data` what only a
latency check uses, `answered`, `probes` and `rtt_count`. -/
structure Check where
  type : CheckType
  sendPings : Nat
  minPings : Nat
  rttSamples : Nat
  /-- What `rtt_interval_ms` gives, in microseconds. -/
  rttInterval : Nat
  ident : UInt16
  pingTarget : UInt32
  packetsent : Nat
  nreceived : Nat
  probes : Nat
  rttCount : Nat
  answered : Nat → Bool

/-- An echo reply as it was read from the socket. -/
structure Reply where
  echoId : UInt16
  echoSeq : UInt16
  source : UInt32
  deriving DecidableEq, Repr

def rttMaxSamples : Nat := 64

/-- `icmp_packet_delay`, and the time a latency check waits for stragglers, in microseconds. -/
def icmpPacketDelay : Nat := 1000000

def rttGrace : Nat := 1000000

/-! ### Sending -/

/-- `pinger_v4`: the probe carries `packetsent` as its sequence number, in 16 bits. -/
def pingerV4 (here : Check) : Check := { here with packetsent := here.packetsent + 1 }

/-- What `start_test_ping`, `start_test_pktloss` and `start_test_rtt` leave: the first probe is out. -/
def start (here : Check) : Check :=
  pingerV4 { here with
    packetsent := 0
    nreceived := 0
    probes := 1
    rttCount := 0
    answered := fun _ => false }

/-- How many probes a latency check sends. -/
def Check.want (here : Check) : Nat := max 1 (min here.rttSamples rttMaxSamples)

/-- `service_test_ping`, so long after the last probe. Nothing is left of a check that is done. -/
def serviceTestPing (elapsed : Nat) (here : Check) : Option Check :=
  if elapsed ≤ icmpPacketDelay then some here
  else if here.sendPings ≤ here.packetsent ∧ icmpPacketDelay * 2 ≤ elapsed then none
  else if here.nreceived < here.minPings then some (pingerV4 here)
  else none

/-- `service_test_pktloss`. -/
def serviceTestPktloss (elapsed : Nat) (here : Check) : Option Check :=
  if elapsed ≤ icmpPacketDelay then some here
  else if here.sendPings ≤ here.packetsent ∧ icmpPacketDelay * 2 ≤ elapsed then none
  else if here.packetsent < here.sendPings then some (pingerV4 here)
  else some here

/-- `service_test_rtt`. -/
def serviceTestRtt (elapsed : Nat) (here : Check) : Option Check :=
  if here.probes < here.want ∧ here.rttInterval ≤ elapsed then
    some (pingerV4 { here with probes := here.probes + 1 })
  else if here.want ≤ here.probes ∧ (here.want ≤ here.rttCount ∨ rttGrace ≤ elapsed) then none
  else some here

def service (elapsed : Nat) (here : Check) : Option Check :=
  match here.type with
  | .ping => serviceTestPing elapsed here
  | .pktloss => serviceTestPktloss elapsed here
  | .pingLatency => serviceTestRtt elapsed here

/-! ### Receiving -/

/-- The reply has the check's identifier, and comes from the address that is probed. -/
def owns (reply : Reply) (here : Check) : Bool := reply.echoId = here.ident && reply.source = here.pingTarget

/-- `nreceived++`. -/
def Check.received (here : Check) : Check := { here with nreceived := here.nreceived + 1 }

/-- The answer to one of the probes, which are numbered from one and kept from zero. -/
def Check.record (here : Check) (index : Nat) : Check :=
  { here.received with
    answered := Function.update here.answered index true
    rttCount := here.rttCount + 1 }

/-- `rtt_match_and_record`: the check with the reply recorded, nothing if it is not the check's. -/
def rttMatchAndRecord (reply : Reply) (here : Check) : Option Check :=
  let seq := reply.echoSeq.toNat
  if owns reply here = false then none
  else if seq = 0 ∨ here.probes < seq ∨ rttMaxSamples < seq then none
  else if here.answered (seq - 1) then some here
  else some (here.record (seq - 1))

/-- What the check makes of the reply. Nothing, if the walk over the queue goes on. -/
def receive (reply : Reply) (here : Check) : Option Check :=
  match here.type with
  | .pingLatency => rttMatchAndRecord reply here
  | .pktloss =>
      if owns reply here then
        some (if here.nreceived < here.packetsent then here.received else here)
      else none
  | .ping => if owns reply here then some here.received else none

/-- `handle_icmp_responses`, once a reply has been read. -/
def handleIcmpResponse (reply : Reply) : List Check → List Check
  | [] => []
  | here :: rest =>
      match receive reply here with
      | some counted => counted :: rest
      | none => here :: handleIcmpResponse reply rest

/-- The replies that a check has counted. -/
def Check.counted (here : Check) : Nat :=
  match here.type with
  | .pingLatency => here.rttCount
  | _ => here.nreceived

/-! ### Runs -/

/-- The checks in the queue, and for each identifier the probes that were answered since, whatever the daemon
makes of the answers. -/
structure Queue where
  checks : List Check
  answered : UInt16 → Finset Nat

inductive Event where
  | service (ident : UInt16) (elapsed : Nat)
  | reply (reply : Reply)

/-- The latest of the probes sent that carries this sequence number. -/
def probeOf (sent : Nat) (seq : UInt16) : Option Nat :=
  (List.range' 1 sent).reverse.find? fun probe => UInt16.ofNat probe = seq

/-- The probe of the check that the reply answers. -/
def answers (reply : Reply) (here : Check) : Option Nat :=
  if owns reply here then probeOf here.packetsent reply.echoSeq else none

/-- The probes of the check that were answered, after the reply. -/
def noted (reply : Reply) (here : Check) (before : Finset Nat) : Finset Nat :=
  (answers reply here).elim before fun probe => insert probe before

def Queue.step (s : Queue) : Event → Queue
  | .service ident elapsed =>
      { s with checks := s.checks.filterMap fun here => if here.ident = ident then service elapsed here else some here }
  | .reply reply =>
      { checks := handleIcmpResponse reply s.checks
        answered := fun ident =>
          (s.checks.find? fun here => here.ident = ident).elim (s.answered ident) fun here =>
            noted reply here (s.answered ident) }

/-- Checks that have just been started. -/
def Queue.started (checks : List Check) : Queue := ⟨checks.map start, fun _ => ∅⟩

/-- The probes that were sent and not answered. -/
def lost (s : Queue) (here : Check) : Finset Nat := Finset.Icc 1 here.packetsent \ s.answered here.ident

/-- What each check has counted are its own probes that were answered, and what it takes for lost are the others. -/
def Accounted (s : Queue) : Prop := ∀ here ∈ s.checks,
  here.counted = (s.answered here.ident).card ∧ (here.packetsent : Int) - here.counted = (lost s here).card

/-! ### Which probe a reply answers -/

theorem probeOf_eq_some {sent probe : Nat} {seq : UInt16} (h : probeOf sent seq = some probe) :
    probe ∈ Finset.Icc 1 sent ∧ UInt16.ofNat probe = seq := by
  rw [probeOf] at h
  have hmem := List.mem_of_find?_eq_some h
  have hcarries := List.find?_some h
  rw [List.mem_reverse, List.mem_range'_1] at hmem
  exact ⟨Finset.mem_Icc.mpr (by omega), of_decide_eq_true hcarries⟩

/-- While the sequence numbers have not come round, a probe is known by its number. -/
theorem probeOf_of_lt {sent : Nat} {seq : UInt16} (hsent : sent < 65536) :
    probeOf sent seq = if seq.toNat = 0 ∨ sent < seq.toNat then none else some seq.toNat := by
  have hnumber : ∀ probe ∈ Finset.Icc 1 sent, UInt16.ofNat probe = seq → probe = seq.toNat := by
    intro probe hprobe heq
    have hle := (Finset.mem_Icc.mp hprobe).2
    rw [← heq, UInt16.toNat_ofNat', Nat.mod_eq_of_lt (by omega)]
  cases hfound : probeOf sent seq with
  | some probe =>
      obtain ⟨hprobe, heq⟩ := probeOf_eq_some hfound
      obtain rfl := hnumber probe hprobe heq
      rw [Finset.mem_Icc] at hprobe
      rw [if_neg (by omega)]
  | none =>
      rw [if_pos]
      by_contra hno
      have hmem : seq.toNat ∈ (List.range' 1 sent).reverse := by
        rw [List.mem_reverse, List.mem_range'_1]
        omega
      exact absurd UInt16.ofNat_toNat (of_decide_eq_false (Bool.eq_false_iff.mpr (List.find?_eq_none.mp hfound _ hmem)))

/-- What a check keeps about its probes fits the probes that were answered. -/
structure Fits (here : Check) (answered : Finset Nat) : Prop where
  own : answered ⊆ Finset.Icc 1 here.packetsent
  probes : here.type = .pingLatency → here.probes = here.packetsent
  few : here.type = .pingLatency → here.packetsent ≤ rttMaxSamples
  count : here.type = .pingLatency → here.rttCount = answered.card
  table : here.type = .pingLatency → ∀ index, here.answered index = true ↔ index + 1 ∈ answered

theorem Fits.start (here : Check) : Fits (start here) ∅ where
  own := Finset.empty_subset _
  probes := fun _ => rfl
  few := by
    intro _
    change 0 + 1 ≤ 64
    omega
  count := fun _ => rfl
  table := fun _ index => by simp [Icmp.start, pingerV4]

theorem receive_ident {reply : Reply} {here after : Check} (h : receive reply here = some after) :
    owns reply here = true ∧ after.ident = here.ident := by
  rw [receive] at h
  cases htype : here.type with
  | ping =>
      simp only [htype, Option.ite_none_right_eq_some, Option.some.injEq] at h
      obtain ⟨howns, rfl⟩ := h
      exact ⟨howns, rfl⟩
  | pktloss =>
      simp only [htype, Option.ite_none_right_eq_some, Option.some.injEq] at h
      obtain ⟨howns, rfl⟩ := h
      refine ⟨howns, ?_⟩
      split <;> rfl
  | pingLatency =>
      simp only [htype, rttMatchAndRecord, Option.ite_none_left_eq_some] at h
      obtain ⟨howns, -, h⟩ := h
      rw [Bool.not_eq_false] at howns
      refine ⟨howns, ?_⟩
      split at h
      · rw [Option.some.inj h]
      · rw [← Option.some.inj h]
        rfl

theorem ident_of_owns {reply : Reply} {here : Check} (h : owns reply here = true) : here.ident = reply.echoId := by
  rw [owns, Bool.and_eq_true, decide_eq_true_eq] at h
  exact h.1.symm

/-- The check after the reply, which may have been another's. -/
def afterReply (reply : Reply) (here : Check) : Check := (receive reply here).getD here

theorem afterReply_of_not_owns {reply : Reply} {here : Check} (h : owns reply here = false) :
    afterReply reply here = here := by
  rw [afterReply]
  cases hreceive : receive reply here with
  | none => rfl
  | some after =>
      rw [(receive_ident hreceive).1] at h
      exact absurd h.symm Bool.false_ne_true

@[simp] theorem afterReply_ident (reply : Reply) (here : Check) : (afterReply reply here).ident = here.ident := by
  rw [afterReply]
  cases hreceive : receive reply here with
  | none => rfl
  | some after => exact (receive_ident hreceive).2

/-- Identifiers being distinct, no two checks are after the same reply. -/
theorem handleIcmpResponse_eq {reply : Reply} {checks : List Check} (hdistinct : (checks.map Check.ident).Nodup) :
    handleIcmpResponse reply checks = checks.map (afterReply reply) := by
  induction checks with
  | nil => rfl
  | cons here rest ih =>
      rw [List.map_cons, List.nodup_cons] at hdistinct
      rw [handleIcmpResponse, List.map_cons]
      cases hreceive : receive reply here with
      | none =>
          have hsame : afterReply reply here = here := by rw [afterReply, hreceive]; rfl
          rw [ih hdistinct.2, hsame]
      | some after =>
          have hafter : afterReply reply here = after := by rw [afterReply, hreceive]; rfl
          have hident := ident_of_owns (receive_ident hreceive).1
          have hothers : ∀ other ∈ rest, afterReply reply other = other := by
            intro other hother
            refine afterReply_of_not_owns (Bool.eq_false_iff.mpr fun howns => hdistinct.1 ?_)
            rw [hident, ← ident_of_owns howns]
            exact List.mem_map_of_mem hother
          rw [hafter, List.map_congr_left hothers, List.map_id']

section reply

variable {reply : Reply} {here : Check} {answered : Finset Nat}

/-- What a check can become with a reply. -/
theorem afterReply_cases (reply : Reply) (here : Check) : afterReply reply here = here ∨
    afterReply reply here = here.received ∨ ∃ index, afterReply reply here = here.record index := by
  rw [afterReply, receive]
  split
  · rw [rttMatchAndRecord]
    split
    · exact Or.inl rfl
    · split
      · exact Or.inl rfl
      · split
        · exact Or.inl rfl
        · exact Or.inr (Or.inr ⟨_, rfl⟩)
  · split
    · rw [Option.getD_some]
      split
      · exact Or.inr (Or.inl rfl)
      · exact Or.inl rfl
    · exact Or.inl rfl
  · split
    · exact Or.inr (Or.inl rfl)
    · exact Or.inl rfl

@[simp] theorem afterReply_packetsent (reply : Reply) (here : Check) :
    (afterReply reply here).packetsent = here.packetsent := by
  obtain h | h | ⟨_, h⟩ := afterReply_cases reply here <;> rw [h] <;> rfl

@[simp] theorem afterReply_type (reply : Reply) (here : Check) : (afterReply reply here).type = here.type := by
  obtain h | h | ⟨_, h⟩ := afterReply_cases reply here <;> rw [h] <;> rfl

theorem noted_of_not_owns (h : owns reply here = false) : noted reply here answered = answered := by
  rw [noted, answers, if_neg (Bool.eq_false_iff.mp h)]
  rfl

theorem noted_of_owns (h : owns reply here = true) :
    noted reply here answered = (probeOf here.packetsent reply.echoSeq).elim answered fun probe => insert probe answered := by
  rw [noted, answers, if_pos h]

theorem noted_subset (h : answered ⊆ Finset.Icc 1 here.packetsent) :
    noted reply here answered ⊆ Finset.Icc 1 here.packetsent := by
  rw [noted, answers]
  split
  · cases hprobe : probeOf here.packetsent reply.echoSeq with
    | none => exact h
    | some probe => exact Finset.insert_subset (probeOf_eq_some hprobe).1 h
  · exact h

/-- A latency check takes a reply for the probe it answers. -/
theorem latency_afterReply (htype : here.type = .pingLatency) (h : Fits here answered) (howns : owns reply here = true) :
    afterReply reply here = here ∧ noted reply here answered = answered ∨
      ∃ index, index + 1 ∉ answered ∧ noted reply here answered = insert (index + 1) answered ∧
        afterReply reply here = here.record index := by
  have hfew := h.few htype
  have hsmall : here.packetsent < 65536 := by
    rw [rttMaxSamples] at hfew
    omega
  have hmatch : receive reply here = rttMatchAndRecord reply here := by rw [receive, htype]
  rw [noted_of_owns howns, probeOf_of_lt hsmall, afterReply, hmatch, rttMatchAndRecord,
    if_neg (by rw [howns]; exact Bool.noConfusion)]
  by_cases hnone : reply.echoSeq.toNat = 0 ∨ here.packetsent < reply.echoSeq.toNat
  · left
    rw [if_pos (hnone.imp_right fun hlt => Or.inl (h.probes htype ▸ hlt)), if_pos hnone]
    exact ⟨rfl, rfl⟩
  · have hindex : reply.echoSeq.toNat - 1 + 1 = reply.echoSeq.toNat := by omega
    have htable := h.table htype (reply.echoSeq.toNat - 1)
    rw [hindex] at htable
    rw [if_neg hnone, if_neg (by rw [h.probes htype]; omega)]
    by_cases hagain : here.answered (reply.echoSeq.toNat - 1) = true
    · left
      rw [if_pos hagain]
      exact ⟨rfl, Finset.insert_eq_of_mem (htable.mp hagain)⟩
    · right
      refine ⟨reply.echoSeq.toNat - 1, ?_, ?_, ?_⟩
      · rw [hindex]
        exact fun hmem => hagain (htable.mpr hmem)
      · rw [hindex]
        rfl
      · rw [if_neg hagain]
        rfl

theorem Fits.afterReply (h : Fits here answered) :
    Fits (afterReply reply here) (noted reply here answered) := by
  by_cases howns : owns reply here = true
  · by_cases htype : here.type = .pingLatency
    · obtain ⟨hafter, hnoted⟩ | ⟨index, hnew, hnoted, hafter⟩ := latency_afterReply htype h howns
      · rw [hafter, hnoted]
        exact h
      · have hown : noted reply here answered ⊆ _ := noted_subset h.own
        rw [hnoted] at hown
        rw [hnoted, hafter]
        refine ⟨hown, h.probes, h.few, fun _ => ?_, fun _ other => ?_⟩
        · rw [Finset.card_insert_of_notMem hnew, ← h.count htype]
          rfl
        · change Function.update here.answered index true other = true ↔ _
          rw [Finset.mem_insert, Nat.add_right_cancel_iff]
          by_cases heq : other = index
          · rw [heq, Function.update_self]
            exact iff_of_true rfl (Or.inl rfl)
          · rw [Function.update_of_ne heq, h.table htype, or_iff_right heq]
    · have hother : (Icmp.afterReply reply here).type ≠ .pingLatency := by rwa [afterReply_type]
      refine ⟨?_, fun hno => absurd hno hother, fun hno => absurd hno hother, fun hno => absurd hno hother,
        fun hno => absurd hno hother⟩
      rw [afterReply_packetsent]
      exact noted_subset h.own
  · rw [Bool.not_eq_true] at howns
    rw [afterReply_of_not_owns howns, noted_of_not_owns howns]
    exact h

/-- The reply is no second answer, and answers a probe that was sent; or the check need not care: a latency check
tells, and a loss check has an answer to all its probes. -/
def Fair (reply : Reply) (here : Check) (answered : Finset Nat) : Prop :=
  owns reply here = true → here.type = .pingLatency ∨
    (∃ probe, probeOf here.packetsent reply.echoSeq = some probe ∧ probe ∉ answered) ∨
    (here.type = .pktloss ∧ answered.card = here.packetsent)

/-- One more is counted, and it is one more that was answered, exactly if the reply is no second answer. -/
theorem counted_noted_iff (howns : owns reply here = true) :
    answered.card + 1 = (noted reply here answered).card ↔
      ∃ probe, probeOf here.packetsent reply.echoSeq = some probe ∧ probe ∉ answered := by
  rw [noted_of_owns howns]
  cases hprobe : probeOf here.packetsent reply.echoSeq with
  | none => simp
  | some probe =>
      simp only [Option.elim_some, Option.some.injEq, exists_eq_left']
      by_cases hmem : probe ∈ answered
      · rw [Finset.insert_eq_of_mem hmem]
        simp [hmem]
      · rw [Finset.card_insert_of_notMem hmem]
        simp [hmem]

theorem counted_afterReply_iff (h : Fits here answered) (hcounted : here.counted = answered.card) :
    (afterReply reply here).counted = (noted reply here answered).card ↔ Fair reply here answered := by
  by_cases howns : owns reply here = true
  · rw [Fair, imp_iff_right howns]
    cases htype : here.type with
    | ping =>
        have hafter : (afterReply reply here).counted = answered.card + 1 := by
          simp only [Check.counted, htype] at hcounted
          simp only [Icmp.afterReply, receive, htype, howns, if_true, Option.getD_some, Check.counted, Check.received,
            hcounted]
        rw [hafter, counted_noted_iff howns]
        simp
    | pktloss =>
        simp only [Check.counted, htype] at hcounted
        have hreceive : afterReply reply here =
            if here.nreceived < here.packetsent then here.received else here := by
          simp only [Icmp.afterReply, receive, htype, howns, if_true, Option.getD_some]
        by_cases hroom : here.nreceived < here.packetsent
        · have hafter : (afterReply reply here).counted = answered.card + 1 := by
            rw [hreceive, if_pos hroom]
            simp only [Check.counted, Check.received, htype, hcounted]
          have hnotall : answered.card ≠ here.packetsent := by
            rw [← hcounted]
            exact Nat.ne_of_lt hroom
          rw [hafter, counted_noted_iff howns]
          simp [hnotall]
        · have hcard : answered.card ≤ here.packetsent := by
            have hle := Finset.card_le_card h.own
            rwa [Nat.card_Icc, Nat.add_sub_cancel] at hle
          have hall : answered.card = here.packetsent := by omega
          have hfull : answered = Finset.Icc 1 here.packetsent := by
            refine Finset.eq_of_subset_of_card_le h.own ?_
            rw [Nat.card_Icc, Nat.add_sub_cancel, hall]
          have hnoted : noted reply here answered = answered := by
            refine Finset.Subset.antisymm ?_ ?_
            · rw [hfull]
              exact noted_subset (Finset.Subset.refl _)
            · rw [noted_of_owns howns]
              cases probeOf here.packetsent reply.echoSeq with
              | none => exact Finset.Subset.refl _
              | some probe => exact Finset.subset_insert probe answered
          refine iff_of_true ?_ (Or.inr (Or.inr ⟨rfl, hall⟩))
          rw [hreceive, if_neg hroom, hnoted]
          simp only [Check.counted, htype, hcounted]
    | pingLatency =>
        refine iff_of_true ?_ (Or.inl rfl)
        have hlatency : (afterReply reply here).type = .pingLatency := by rw [afterReply_type, htype]
        rw [Check.counted, hlatency]
        exact h.afterReply.count hlatency
  · rw [Bool.not_eq_true] at howns
    rw [afterReply_of_not_owns howns, noted_of_not_owns howns]
    refine iff_of_true hcounted fun htrue => ?_
    rw [howns] at htrue
    exact absurd htrue Bool.false_ne_true

end reply

section run

variable {s : Queue} {here after : Check} {answered : Finset Nat} {elapsed : Nat}

/-- A probe goes out. -/
theorem Fits.pinger (h : Fits here answered) {sent : Check} (htype : sent.type = here.type)
    (hsent : sent.packetsent = here.packetsent + 1) (hcount : sent.rttCount = here.rttCount)
    (htable : sent.answered = here.answered)
    (hprobes : here.type = .pingLatency → sent.probes = here.probes + 1 ∧ here.probes < rttMaxSamples) :
    Fits sent answered := by
  refine ⟨?_, fun hlatency => ?_, fun hlatency => ?_, fun hlatency => ?_, fun hlatency => ?_⟩
  · rw [hsent]
    exact h.own.trans (Finset.Icc_subset_Icc_right (Nat.le_succ _))
  · rw [hsent, (hprobes (htype ▸ hlatency)).1, h.probes (htype ▸ hlatency)]
  · have hless := (hprobes (htype ▸ hlatency)).2
    rw [hsent]
    rw [h.probes (htype ▸ hlatency)] at hless
    exact hless
  · rw [hcount]
    exact h.count (htype ▸ hlatency)
  · rw [htable]
    exact h.table (htype ▸ hlatency)

/-- Servicing a check that goes on sends a probe or does nothing. -/
theorem service_cases (h : service elapsed here = some after) :
    after = here ∨ here.type ≠ .pingLatency ∧ after = pingerV4 here ∨
      here.probes < here.want ∧ after = pingerV4 { here with probes := here.probes + 1 } := by
  rw [service] at h
  split at h
  next htype =>
    simp only [serviceTestPing] at h
    split at h
    · exact Or.inl (Option.some.inj h).symm
    · split at h
      · cases h
      · split at h
        · exact Or.inr (Or.inl ⟨by rw [htype]; decide, (Option.some.inj h).symm⟩)
        · cases h
  next htype =>
    simp only [serviceTestPktloss] at h
    split at h
    · exact Or.inl (Option.some.inj h).symm
    · split at h
      · cases h
      · split at h
        · exact Or.inr (Or.inl ⟨by rw [htype]; decide, (Option.some.inj h).symm⟩)
        · exact Or.inl (Option.some.inj h).symm
  next =>
    simp only [serviceTestRtt] at h
    split at h
    next hdue => exact Or.inr (Or.inr ⟨hdue.1, (Option.some.inj h).symm⟩)
    · split at h
      · cases h
      · exact Or.inl (Option.some.inj h).symm

theorem service_spec (h : service elapsed here = some after) :
    after.ident = here.ident ∧ after.counted = here.counted ∧ ∀ answered, Fits here answered → Fits after answered := by
  obtain rfl | ⟨hother, rfl⟩ | ⟨hwant, rfl⟩ := service_cases h
  · exact ⟨rfl, rfl, fun _ hfits => hfits⟩
  · exact ⟨rfl, rfl, fun _ hfits => hfits.pinger rfl rfl rfl rfl fun hno => absurd hno hother⟩
  · refine ⟨rfl, rfl, fun _ hfits => hfits.pinger rfl rfl rfl rfl fun _ => ⟨rfl, ?_⟩⟩
    have hmax : here.want ≤ rttMaxSamples := max_le (by decide) (min_le_right _ _)
    exact lt_of_lt_of_le hwant hmax

/-- The checks of the queue are told apart by their identifiers, and each fits its answered probes. -/
structure Sound (s : Queue) : Prop where
  distinct : (s.checks.map Check.ident).Nodup
  fits : ∀ here ∈ s.checks, Fits here (s.answered here.ident)

theorem mem_serviced {ident : UInt16} (h : after ∈ (s.step (.service ident elapsed)).checks) :
    ∃ here ∈ s.checks, after = here ∨ service elapsed here = some after := by
  obtain ⟨here, hmem, hafter⟩ := List.mem_filterMap.mp h
  refine ⟨here, hmem, ?_⟩
  split at hafter
  · exact Or.inr hafter
  · exact Or.inl (Option.some.inj hafter).symm

/-- Checks that are done leave the queue, the others keep their places and identifiers. -/
theorem idents_sublist (s : Queue) (ident : UInt16) (elapsed : Nat) :
    List.Sublist ((s.step (.service ident elapsed)).checks.map Check.ident) (s.checks.map Check.ident) := by
  change List.Sublist ((s.checks.filterMap _).map Check.ident) _
  generalize s.checks = checks
  induction checks with
  | nil => exact List.Sublist.slnil
  | cons here rest ih =>
      rw [List.filterMap_cons, List.map_cons]
      split
      next => exact ih.cons _
      next after hafter =>
        have hsame : after.ident = here.ident := by
          split at hafter
          · exact (service_spec hafter).1
          · rw [Option.some.inj hafter]
        rw [List.map_cons, hsame]
        exact ih.cons_cons _

/-- The probes that were answered, for a check of the queue. -/
theorem answered_reply (h : Sound s) (hmem : here ∈ s.checks) (reply : Reply) :
    (s.step (.reply reply)).answered here.ident = noted reply here (s.answered here.ident) := by
  have hfind : (s.checks.find? fun other => other.ident = here.ident) = some here :=
    (GoMap.find?_key_iff h.distinct).mpr ⟨hmem, rfl⟩
  change (s.checks.find? fun other => other.ident = here.ident).elim _ _ = _
  rw [hfind]
  rfl

theorem checks_reply (h : Sound s) (reply : Reply) :
    (s.step (.reply reply)).checks = s.checks.map (afterReply reply) := handleIcmpResponse_eq h.distinct

theorem sound_step (s : Queue) (e : Event) (h : Sound s) : Sound (s.step e) := by
  cases e with
  | service ident elapsed =>
      refine ⟨?_, fun after hafter => ?_⟩
      · exact h.distinct.sublist (idents_sublist s ident elapsed)
      · obtain ⟨here, hmem, rfl | hservice⟩ := mem_serviced hafter
        · exact h.fits _ hmem
        · obtain ⟨hident, -, hfits⟩ := service_spec hservice
          rw [hident]
          exact hfits _ (h.fits here hmem)
  | reply reply =>
      refine ⟨?_, fun after hafter => ?_⟩
      · rw [checks_reply h, List.map_map]
        have hidents : Check.ident ∘ afterReply reply = Check.ident := funext (afterReply_ident reply)
        rw [hidents]
        exact h.distinct
      · rw [checks_reply h] at hafter
        obtain ⟨here, hmem, rfl⟩ := List.mem_map.mp hafter
        rw [afterReply_ident, answered_reply h hmem]
        exact (h.fits here hmem).afterReply

theorem accounted_iff (h : Sound s) :
    Accounted s ↔ ∀ here ∈ s.checks, here.counted = (s.answered here.ident).card := by
  refine ⟨fun haccounted here hmem => (haccounted here hmem).1, fun hcounted here hmem => ⟨hcounted here hmem, ?_⟩⟩
  have hown := (h.fits here hmem).own
  have hle := Finset.card_le_card hown
  rw [lost, hcounted here hmem, Finset.card_sdiff_of_subset hown]
  rw [Nat.card_Icc, Nat.add_sub_cancel] at hle ⊢
  omega

/-- The condition on the next reply: no ping or loss check takes it for another answer than it is. -/
def NoFalseAnswer (s : Queue) : Event → Prop
  | .service _ _ => True
  | .reply reply => ∀ here ∈ s.checks, Fair reply here (s.answered here.ident)

theorem accounted_step_iff (s : Queue) (e : Event) (h : Sound s) (haccounted : Accounted s) :
    Accounted (s.step e) ↔ NoFalseAnswer s e := by
  have hcounted := (accounted_iff h).mp haccounted
  rw [accounted_iff (sound_step s e h)]
  cases e with
  | service ident elapsed =>
      refine iff_of_true (fun after hafter => ?_) trivial
      obtain ⟨here, hmem, rfl | hservice⟩ := mem_serviced hafter
      · exact hcounted _ hmem
      · obtain ⟨hident, hsame, -⟩ := service_spec hservice
        rw [hident, hsame]
        exact hcounted here hmem
  | reply reply =>
      rw [checks_reply h, List.forall_mem_map]
      refine forall₂_congr fun here hmem => ?_
      rw [afterReply_ident, answered_reply h hmem]
      exact counted_afterReply_iff (h.fits here hmem) (hcounted here hmem)

end run

/-- Started together with distinct identifiers, the checks count exactly the probes that were answered, and lose
exactly the others, as long as no ping check is answered twice by one probe or by one it has not sent, nor a loss
check that has probes without an answer left. -/
theorem accounted_run_iff (checks : List Check) (hdistinct : (checks.map Check.ident).Nodup) (events : List Event) :
    Run.Always Queue.step Accounted (Queue.started checks) events ↔
      Run.Guarded Queue.step NoFalseAnswer (Queue.started checks) events := by
  have hsound : Sound (Queue.started checks) := by
    refine ⟨?_, fun here hmem => ?_⟩
    · have hidents : Check.ident ∘ start = Check.ident := rfl
      change ((checks.map start).map Check.ident).Nodup
      rwa [List.map_map, hidents]
    · obtain ⟨before, -, rfl⟩ := List.mem_map.mp hmem
      exact Fits.start before
  have hstart : Accounted (Queue.started checks) := by
    rw [accounted_iff hsound]
    intro here hmem
    obtain ⟨before, -, rfl⟩ := List.mem_map.mp hmem
    change (start before).counted = (∅ : Finset Nat).card
    rw [Check.counted]
    split <;> rfl
  exact Run.always_iff_guarded sound_step accounted_step_iff hsound hstart

/-- A loss check and a ping check, as they are about to be started. -/
def twoChecks : List Check :=
  [⟨.pktloss, 7, 1, 0, 100000, 3, 0x0a000001, 0, 0, 0, 0, fun _ => false⟩,
    ⟨.ping, 7, 1, 0, 100000, 5, 0x0a000002, 0, 0, 0, 0, fun _ => false⟩]

/-- The loss check sends a second probe, and each is answered once. -/
def answeredOnce : List Event :=
  [.service 3 1500000, .reply ⟨3, 1, 0x0a000001⟩, .reply ⟨5, 1, 0x0a000002⟩, .reply ⟨3, 2, 0x0a000001⟩]

theorem accounted_answeredOnce :
    Run.Always Queue.step Accounted (Queue.started twoChecks) answeredOnce ↔
      Run.Guarded Queue.step NoFalseAnswer (Queue.started twoChecks) answeredOnce :=
  accounted_run_iff twoChecks (by decide) answeredOnce

/-- The first probe is answered twice and the second never: no loss is seen. -/
theorem second_answer_counted : ¬Run.Always Queue.step Accounted (Queue.started twoChecks)
    [.service 3 1500000, .reply ⟨3, 1, 0x0a000001⟩, .reply ⟨3, 1, 0x0a000001⟩] := by
  intro h
  have hlast := h _ List.prefix_rfl
  rw [Accounted] at hlast
  exact absurd hlast (by decide)

end Sysmon.Icmp
