import Sysmon.Host
import Sysmon.Icmp

/-!
# What a ping check concludes

`start_test_ping` and `service_test_ping` of `icmp.c`, with the time of the last probe and the result. Whether the check
has waited long enough is asked before whether it has been answered, so answers that were counted are lost on a daemon
that comes late; and one that comes early sends another probe, however many there were. A daemon that has no ICMP socket
says of every host that it answers.
-/

namespace Sysmon.Ping

/-- `struct monitorent`, with the `struct pingdata` it refers to until that is freed. -/
structure Monitorent where
  data : Icmp.Check
  freed : Bool
  /-- In microseconds. -/
  lastsentat : Int
  retval : Int16

/-- What comes of sending a probe, with the helper where the socket refuses to. -/
inductive Sendto where
  | sent
  | netunrch
  | hostdown
  | helperFailed
  | unknown
  deriving DecidableEq, Repr

def Sendto.retval : Sendto → Option Int16
  | .sent | .unknown => none
  | .netunrch => some Result.netunrch
  | .hostdown => some Result.hostdown
  | .helperFailed => some Result.err

/-- `pinger_v4`. -/
def pingerV4 (now : Int) (sendto : Sendto) (here : Monitorent) : Monitorent where
  data := Icmp.pingerV4 here.data
  freed := here.freed
  lastsentat := if sendto = .sent then now else here.lastsentat
  retval := sendto.retval.getD here.retval

/-- What `start_test_ping` finds: whether the daemon has its ICMP socket (`glob_icmp_fd` is not -1), whether
`my_gethostbyname` knows the host, and what comes of the first probe. -/
structure Start where
  icmpFd : Bool
  resolves : Bool
  now : Int
  sendto : Sendto

/-- `start_test_ping`. -/
def startTestPing (check : Icmp.Check) (start : Start) : Monitorent :=
  let unsent := { check with packetsent := 0, nreceived := 0 }
  if !start.icmpFd then { data := unsent, freed := true, lastsentat := start.now, retval := Result.ok }
  else if !start.resolves then { data := unsent, freed := true, lastsentat := start.now, retval := Result.nodns }
  else
    { data := Icmp.start check
      freed := false
      lastsentat := start.now
      retval := start.sendto.retval.getD (-1) }

/-- `icmp_packet_delay`. -/
def icmpPacketDelay : Int := 1000000

/-- The end of `service_test_ping`. -/
def dequeueIfAnswered (here : Monitorent) : Monitorent :=
  if here.data.minPings ≤ here.data.nreceived then { here with retval := Result.ok, freed := true } else here

/-- `service_test_ping`. -/
def serviceTestPing (now : Int) (sendto : Sendto) (here : Monitorent) : Monitorent :=
  let elapsed := now - here.lastsentat
  if here.freed then here
  else if elapsed ≤ icmpPacketDelay then here
  else if here.data.sendPings ≤ here.data.packetsent ∧ icmpPacketDelay * 2 ≤ elapsed then
    { here with retval := Result.unpingable, freed := true }
  else if here.data.nreceived < here.data.minPings ∧ 1000000 ≤ elapsed then
    dequeueIfAnswered (pingerV4 now sendto here)
  else dequeueIfAnswered here

/-! ### Runs -/

inductive Event where
  | service (now : Int) (sendto : Sendto)
  | reply (reply : Icmp.Reply)

/-- A check that has a result is not serviced, and of one that was freed nothing is left to count. -/
def Monitorent.step (here : Monitorent) : Event → Monitorent
  | .service now sendto => if here.retval = -1 then serviceTestPing now sendto here else here
  | .reply reply => if here.freed then here else { here with data := Icmp.afterReply reply here.data }

/-- The result follows from the replies that were counted, and no probe is sent too many. -/
structure Follows (here : Monitorent) : Prop where
  unpingable : here.retval = Result.unpingable → here.data.nreceived < here.data.minPings
  ok : here.retval = Result.ok → here.data.minPings ≤ here.data.nreceived
  probes : here.data.packetsent ≤ here.data.sendPings

/-- Once all the probes are out the daemon gets round to the check before it gives up if there are replies enough, and
not before if there are not. -/
def InTime (here : Monitorent) : Event → Prop
  | .service now _ => here.retval = -1 → here.freed = false → icmpPacketDelay < now - here.lastsentat →
      here.data.packetsent < here.data.sendPings ∨
        if icmpPacketDelay * 2 ≤ now - here.lastsentat then here.data.nreceived < here.data.minPings
        else here.data.minPings ≤ here.data.nreceived
  | .reply _ => True

/-- A check with a verdict is freed. -/
def Freed (here : Monitorent) : Prop := here.retval = Result.unpingable ∨ here.retval = Result.ok → here.freed = true

/-! ### One step -/

variable {here : Monitorent} {now : Int} {sendto : Sendto}

/-- What sending a probe leaves of a result. -/
theorem sendto_retval (sendto : Sendto) {before : Int16} (h : before = -1) :
    sendto.retval.getD before ≠ Result.unpingable ∧ sendto.retval.getD before ≠ Result.ok := by
  rw [h]
  cases sendto <;> decide

/-- What a service call does to a check that is under way. -/
theorem serviceTestPing_cases (now : Int) (sendto : Sendto) (hfreed : here.freed = false) :
    (now - here.lastsentat ≤ icmpPacketDelay ∧ serviceTestPing now sendto here = here) ∨
    (icmpPacketDelay < now - here.lastsentat ∧
      ((here.data.sendPings ≤ here.data.packetsent ∧ icmpPacketDelay * 2 ≤ now - here.lastsentat ∧
          serviceTestPing now sendto here = { here with retval := Result.unpingable, freed := true }) ∨
        (¬(here.data.sendPings ≤ here.data.packetsent ∧ icmpPacketDelay * 2 ≤ now - here.lastsentat) ∧
          ((here.data.nreceived < here.data.minPings ∧ serviceTestPing now sendto here = pingerV4 now sendto here) ∨
            (here.data.minPings ≤ here.data.nreceived ∧
              serviceTestPing now sendto here = { here with retval := Result.ok, freed := true }))))) := by
  rw [serviceTestPing, hfreed, if_neg Bool.false_ne_true]
  by_cases hsoon : now - here.lastsentat ≤ icmpPacketDelay
  · exact Or.inl ⟨hsoon, if_pos hsoon⟩
  · refine Or.inr ⟨Int.not_le.mp hsoon, ?_⟩
    rw [if_neg hsoon]
    by_cases hout : here.data.sendPings ≤ here.data.packetsent ∧ icmpPacketDelay * 2 ≤ now - here.lastsentat
    · exact Or.inl ⟨hout.1, hout.2, if_pos hout⟩
    · refine Or.inr ⟨hout, ?_⟩
      rw [if_neg hout]
      by_cases hfew : here.data.nreceived < here.data.minPings
      · have hagain : here.data.nreceived < here.data.minPings ∧ 1000000 ≤ now - here.lastsentat :=
          ⟨hfew, (Int.not_le.mp hsoon).le⟩
        have hwaits : ¬(pingerV4 now sendto here).data.minPings ≤ (pingerV4 now sendto here).data.nreceived :=
          Nat.not_le.mpr hfew
        exact Or.inl ⟨hfew, by rw [if_pos hagain, dequeueIfAnswered, if_neg hwaits]⟩
      · have henough := Nat.not_lt.mp hfew
        exact Or.inr ⟨henough, by rw [if_neg fun h => hfew h.1, dequeueIfAnswered, if_pos henough]⟩

theorem freed_step (event : Event) (h : Freed here) : Freed (here.step event) := by
  cases event with
  | reply reply =>
      rw [Monitorent.step]
      split
      · exact h
      · exact h
  | service now sendto =>
      rw [Monitorent.step]
      split
      · rename_i hretval
        cases hfreed : here.freed with
        | true => rwa [serviceTestPing, hfreed, if_pos rfl]
        | false =>
            obtain ⟨-, heq⟩ | ⟨-, ⟨-, -, heq⟩ | ⟨-, ⟨-, heq⟩ | ⟨-, heq⟩⟩⟩ := serviceTestPing_cases now sendto hfreed
            · rwa [heq]
            · rw [heq]
              exact fun _ => rfl
            · rw [heq]
              intro hverdict
              obtain ⟨hunpingable, hok⟩ := sendto_retval sendto hretval
              exact (hverdict.elim hunpingable hok).elim
            · rw [heq]
              exact fun _ => rfl
      · exact h

/-- A reply leaves everything but the count. -/
theorem afterReply_data (reply : Icmp.Reply) (data : Icmp.Check) :
    (Icmp.afterReply reply data).minPings = data.minPings ∧ (Icmp.afterReply reply data).sendPings = data.sendPings := by
  obtain h | h | ⟨_, h⟩ := Icmp.afterReply_cases reply data <;> rw [h] <;> exact ⟨rfl, rfl⟩

/-- One step leaves the results right exactly if the daemon is in time. -/
theorem follows_step_iff (event : Event) (hfreed : Freed here) (h : Follows here) :
    Follows (here.step event) ↔ InTime here event := by
  cases event with
  | reply reply =>
      refine iff_of_true ?_ trivial
      rw [Monitorent.step]
      split
      · exact h
      · rename_i hopen
        obtain ⟨-, hsend⟩ := afterReply_data reply here.data
        refine ⟨fun hverdict => absurd (hfreed (Or.inl hverdict)) hopen,
          fun hverdict => absurd (hfreed (Or.inr hverdict)) hopen, ?_⟩
        dsimp only
        rw [hsend, Icmp.afterReply_packetsent]
        exact h.probes
  | service now sendto =>
      rw [Monitorent.step, InTime]
      by_cases hretval : here.retval = -1
      · rw [if_pos hretval]
        simp only [hretval, true_implies]
        cases hopen : here.freed with
        | true =>
            rw [serviceTestPing, hopen, if_pos rfl]
            simpa using h
        | false =>
            simp only [true_implies]
            obtain ⟨hsoon, heq⟩ | ⟨hlong, ⟨hall, hout, heq⟩ | ⟨hnot, ⟨hfew, heq⟩ | ⟨henough, heq⟩⟩⟩ :=
              serviceTestPing_cases now sendto hopen
            · rw [heq]
              exact iff_of_true h fun hlong => absurd hsoon (Int.not_le.mpr hlong)
            · rw [heq, if_pos hout]
              constructor
              · exact fun hafter _ => Or.inr (hafter.unpingable rfl)
              · intro hguard
                have hfew := (hguard hlong).resolve_left (Nat.not_lt.mpr hall)
                exact ⟨fun _ => hfew, fun hok => absurd (show Result.unpingable = Result.ok from hok) (by decide), h.probes⟩
            · rw [heq]
              obtain ⟨hunpingable, hok⟩ := sendto_retval sendto hretval
              constructor
              · exact fun hafter _ => Or.inl hafter.probes
              · intro hguard
                refine ⟨fun hverdict => absurd hverdict hunpingable, fun hverdict => absurd hverdict hok, ?_⟩
                obtain hmore | hlate := hguard hlong
                · exact hmore
                · split at hlate
                  · rename_i hout
                    exact Nat.not_le.mp fun hall => hnot ⟨hall, hout⟩
                  · exact absurd hfew (Nat.not_lt.mpr hlate)
            · rw [heq]
              refine iff_of_true ⟨fun hverdict => ?_, fun _ => henough, h.probes⟩ fun _ => ?_
              · exact absurd (show Result.ok = Result.unpingable from hverdict) (by decide)
              · by_cases hall : here.data.sendPings ≤ here.data.packetsent
                · rw [if_neg fun hout => hnot ⟨hall, hout⟩]
                  exact Or.inr henough
                · exact Or.inl (Nat.not_le.mp hall)
      · rw [if_neg hretval]
        exact iff_of_true h fun hopen => absurd hopen hretval

/-! ### A whole run -/

/-- A check can be started: without an ICMP socket the object asks for no reply, and with one it is sent a probe. -/
def CanStart (check : Icmp.Check) (start : Start) : Prop :=
  if start.icmpFd then start.resolves = true → 0 < check.sendPings else check.minPings = 0

theorem startTestPing_freed (check : Icmp.Check) (start : Start) : Freed (startTestPing check start) := by
  rw [startTestPing]
  split
  · exact fun _ => rfl
  · split
    · exact fun _ => rfl
    · obtain ⟨hunpingable, hok⟩ := sendto_retval start.sendto rfl
      exact fun hverdict => (hverdict.elim hunpingable hok).elim

theorem startTestPing_follows_iff (check : Icmp.Check) (start : Start) :
    Follows (startTestPing check start) ↔ CanStart check start := by
  rw [startTestPing, CanStart]
  cases start.icmpFd with
  | false =>
      constructor
      · exact fun h => Nat.le_zero.mp (h.ok rfl)
      · exact fun hnone => ⟨fun h => absurd (show Result.ok = Result.unpingable from h) (by decide),
          fun _ => Nat.le_zero.mpr hnone, Nat.zero_le _⟩
  | true =>
      cases start.resolves with
      | false =>
          refine iff_of_true ⟨fun h => ?_, fun h => ?_, Nat.zero_le _⟩ fun h => absurd h Bool.false_ne_true
          · exact absurd (show Result.nodns = Result.unpingable from h) (by decide)
          · exact absurd (show Result.nodns = Result.ok from h) (by decide)
      | true =>
          obtain ⟨hunpingable, hok⟩ := sendto_retval start.sendto rfl
          constructor
          · exact fun h _ => h.probes
          · exact fun hsome => ⟨fun h => absurd h hunpingable, fun h => absurd h hok, hsome rfl⟩

/-- In every state of a run the result follows from the replies exactly if the check can be started and the daemon is
in time at every call. -/
theorem follows_run_iff (check : Icmp.Check) (start : Start) (events : List Event) :
    Run.Always Monitorent.step Follows (startTestPing check start) events ↔
      CanStart check start ∧ Run.Guarded Monitorent.step InTime (startTestPing check start) events := by
  have hfreed := startTestPing_freed check start
  rw [← startTestPing_follows_iff check start]
  constructor
  · intro h
    have hstart := h [] List.nil_prefix
    exact ⟨hstart, (Run.always_iff_guarded (fun _ event => freed_step event)
      (fun _ event => follows_step_iff event) hfreed hstart).mp h⟩
  · rintro ⟨hstart, hguarded⟩
    exact (Run.always_iff_guarded (fun _ event => freed_step event)
      (fun _ event => follows_step_iff event) hfreed hstart).mpr hguarded

/-- What the counting of replies takes a call for is what it does when its probes can be sent. -/
theorem serviceTestPing_data (here : Monitorent) (elapsed : Nat) (hopen : here.freed = false) :
    Icmp.serviceTestPing elapsed here.data =
      let after := serviceTestPing (here.lastsentat + elapsed) .sent here
      if after.freed then none else some after.data := by
  have helapsed : here.lastsentat + (elapsed : Int) - here.lastsentat = elapsed := add_sub_cancel_left _ _
  have hdelay : icmpPacketDelay = (Icmp.icmpPacketDelay : Int) := rfl
  have hcases := serviceTestPing_cases (here.lastsentat + elapsed) .sent hopen
  rw [helapsed, hdelay] at hcases
  rw [Icmp.serviceTestPing]
  obtain ⟨hsoon, heq⟩ | ⟨hlong, ⟨hall, hout, heq⟩ | ⟨hnot, ⟨hfew, heq⟩ | ⟨henough, heq⟩⟩⟩ := hcases
  · rw [if_pos (Int.ofNat_le.mp hsoon), heq]
    simp [hopen]
  · rw [if_neg (by omega), if_pos ⟨hall, by omega⟩, heq]
    rfl
  · rw [if_neg (by omega), if_neg fun h => hnot ⟨h.1, by omega⟩, if_pos hfew, heq]
    simp [pingerV4, hopen]
  · rw [if_neg (by omega), if_neg fun h => hnot ⟨h.1, by omega⟩, if_neg (Nat.not_lt.mpr henough), heq]
    rfl

/-- An object as it is configured, with `MAX_TRIES` and `MIN_PING_RESP`. -/
def configured : Icmp.Check := ⟨.ping, 7, 1, 0, 0, 3, 0x0a000001, 0, 0, 0, 0, fun _ => false⟩

/-- Six more probes are sent, each a second and a half after the one before. -/
def sixProbes : List Event := (List.range 6).map fun i => .service ((i + 1) * 1500000) .sent

/-- A daemon with its socket, and a host that is known. -/
def started : Start := ⟨true, true, 0, .sent⟩

/-- The last probe is answered, and the daemon is busy for two seconds. And it sends an eighth if it is not. -/
theorem answered_unpingable :
    ¬(∀ check start events, CanStart check start →
        Run.Always Monitorent.step Follows (startTestPing check start) events) ∧
      (Run.exec Monitorent.step (startTestPing configured started)
        (sixProbes ++ [.reply ⟨3, 7, 0x0a000001⟩, .service 11000000 .sent])).retval = Result.unpingable ∧
      (Run.exec Monitorent.step (startTestPing configured started)
        (sixProbes ++ [.service 10500000 .sent])).data.packetsent = 8 := by
  refine ⟨fun h => ?_, by decide, by decide⟩
  have hlast := h configured started (sixProbes ++ [.reply ⟨3, 7, 0x0a000001⟩, .service 11000000 .sent])
    (by unfold CanStart; decide) _ List.prefix_rfl
  exact absurd (hlast.unpingable (by decide)) (by decide)

end Sysmon.Ping
