import Sysmon.TcpCheck
import Sysmon.Lib.Run

/-!
# Memory and sockets of the checks that talk to a server

An entry of the queue either holds memory and an open socket, or neither. This is so in every state of a run exactly if
every check that is started finds an address, and no reply is one its check cannot take: a first byte that is NUL where the
last byte is cut off, or an answer to a login that the loop over its lines does not come to the end of. `x500` and `sysmon`
also need a socket when they are started, and `sysmon` must not be stopped twice.
-/

namespace Sysmon.TcpCheck

open UdpCheck (wakeup_ne)

/-- Memory and an open socket, or neither. Nothing was used or given back twice. -/
structure Settled (here : Monitorent) : Prop where
  memory : here.monitordata = .null ∨ ∃ data, here.monitordata = .held data ∧ here.socket = .opened ∧ here.queued = true
  socket : here.monitordata = .null → here.socket ≠ .opened
  sound : here.fault = none

/-- A reply that the check can take in this state. -/
def Taken (fuel : Nat) (protocol : Protocol) (state : State) (reply : Reply) : Prop :=
  match protocol with
  | .smtp | .sysmon => state = .waitban ∨ state = .sentQuit → chopped reply ≠ none
  | .sshd => state = .waitban → chopped reply ≠ none
  | .imap => state = .sentAuth → ∀ bytes, reply = .text bytes → doover fuel (bufferOf bytes) ≠ none
  | _ => True

/-- What an event must be for an entry to stay in order. -/
def Proper (fuel : Nat) (protocol : Protocol) (here : Monitorent) (event : QueueEvent) : Prop :=
  here.queued = true → here.fault = none →
    match event with
    | .service call => here.retval = -1 →
        if here.started then
          ∀ data reply, here.monitordata = .held data → call.waiting.head? = some reply →
            Taken fuel protocol data.state reply
        else call.opening ≠ .nodns ∧ (call.opening = .noSocket → protocol.keepsReference = false)
    | .wakeup _ => protocol = .sysmon → here.socket ≠ .closed
    | _ => True

/-- What is so in every state of a run. -/
structure Consistent (here : Monitorent) : Prop where
  unstarted : here.started = false → here.monitordata = .null ∧ here.socket = .unopened
  held : ∀ data, here.monitordata = .held data → here.socket = .opened ∧ here.retval = -1 ∧ here.started = true

variable {fuel : Nat} {protocol : Protocol} {checkent : Checkent} {here : Monitorent} {call : Call} {data : Data}

/-! ### What a service call does -/

theorem repliedChopped_ok {answer : Reply → Text → Turn} :
    (∃ turn, repliedChopped call data answer = .ok turn) ↔
      ∀ reply, call.waiting.head? = some reply → chopped reply ≠ none := by
  rw [repliedChopped]
  cases call.waiting with
  | nil => exact iff_of_true ⟨_, rfl⟩ fun _ h => absurd h (by simp)
  | cons reply rest =>
      dsimp only [List.head?_cons]
      cases hchopped : chopped reply with
      | none =>
          refine iff_of_false (fun ⟨turn, h⟩ => ?_) fun h => h reply rfl hchopped
          cases h
      | some buffer =>
          refine iff_of_true ⟨_, rfl⟩ fun other h => ?_
          rw [← Option.some.inj h, hchopped]
          exact Option.some_ne_none buffer

theorem repliedChopped_cons {answer : Reply → Text → Turn} {reply : Reply} {rest : List Reply}
    (hwaiting : call.waiting = reply :: rest) :
    (∃ turn, repliedChopped call data answer = .ok turn) ↔ chopped reply ≠ none := by
  rw [repliedChopped_ok, hwaiting]
  simp

theorem serve_ok_smtp : (∃ turn, serviceTestSmtp call data = .ok turn) ↔
    ∀ reply, call.waiting.head? = some reply → Taken fuel .smtp data.state reply := by
  rw [serviceTestSmtp]
  cases hstate : data.state with
  | waitban => simpa [Taken] using repliedChopped_ok
  | sentQuit => simpa [Taken] using repliedChopped_ok
  | _ => simp [Taken]

theorem serve_ok_sshd : (∃ turn, serviceTestSshd call data = .ok turn) ↔
    ∀ reply, call.waiting.head? = some reply → Taken fuel .sshd data.state reply := by
  rw [serviceTestSshd]
  cases hstate : data.state with
  | waitban => simpa [Taken] using repliedChopped_ok
  | _ => simp [Taken]

theorem serve_ok_imap : (∃ turn, serviceTestImap fuel checkent call data = .ok turn) ↔
    ∀ reply, call.waiting.head? = some reply → Taken fuel .imap data.state reply := by
  rw [serviceTestImap]
  cases hstate : data.state with
  | sentAuth =>
      cases hwaiting : call.waiting with
      | nil => simp
      | cons reply rest =>
          cases reply with
          | text bytes =>
              cases hloop : doover fuel (bufferOf bytes) with
              | none => simp [Taken, hloop]
              | some buffer => simp [Taken, hloop]
          | _ => simp [Taken]
  | _ => simp [Taken]

theorem serve_ok_sysmon : (∃ turn, serviceCheckSysmon call data = .ok turn) ↔
    ∀ reply, call.waiting.head? = some reply → Taken fuel .sysmon data.state reply := by
  rw [serviceCheckSysmon]
  cases hstate : data.state with
  | waitban =>
      cases hwaiting : call.waiting with
      | nil => by_cases hlate : globtimeout ≤ call.now - data.start <;> simp [hlate]
      | cons reply rest =>
          cases reply with
          | text bytes => simpa [Taken] using repliedChopped_cons hwaiting
          | _ => simp [Taken, chopped]
  | sentQuit =>
      cases hwaiting : call.waiting with
      | nil => simp
      | cons reply rest =>
          cases reply with
          | text bytes => simpa [Taken] using repliedChopped_cons hwaiting
          | _ => simp [Taken, chopped]
  | _ => simp [Taken]

/-- A service call goes well exactly if the check can take the reply there is. -/
theorem serve_ok : (∃ turn, serve fuel protocol checkent call data = .ok turn) ↔
    ∀ reply, call.waiting.head? = some reply → Taken fuel protocol data.state reply := by
  cases protocol with
  | smtp => exact serve_ok_smtp
  | sshd => exact serve_ok_sshd
  | imap => exact serve_ok_imap
  | sysmon => exact serve_ok_sysmon
  | _ => exact iff_of_true ⟨_, rfl⟩ fun _ _ => trivial

theorem close_opened (h : here.socket = .opened) : here.close = { here with socket := .closed } := by
  rw [Monitorent.close, h]

/-- A turn leaves the check as it is, or ends it with its memory and its socket given back. -/
theorem took_cases (turn : Turn) (hopen : here.socket = .opened) :
    (turn.retval = none ∧
      here.took turn = { here with monitordata := .held turn.data, events := here.events ++ turn.events }) ∨
    ∃ retval, turn.retval = some retval ∧ here.took turn =
      { here with retval, monitordata := .null, socket := .closed, events := here.events ++ turn.events } := by
  rw [Monitorent.took]
  cases turn.retval with
  | none => exact Or.inl ⟨rfl, rfl⟩
  | some retval => exact Or.inr ⟨retval, rfl, close_opened hopen⟩

theorem serviceTest_dangling (hlocal : here.monitordata = .dangling) :
    serviceTest fuel protocol checkent call here = { here with fault := some .useAfterFree } := by
  simp only [serviceTest, hlocal]

theorem serviceTest_held (hheld : here.monitordata = .held data) :
    (∃ fault, serve fuel protocol checkent call data = .error fault ∧
      serviceTest fuel protocol checkent call here = { here with fault := some fault }) ∨
    ∃ turn, serve fuel protocol checkent call data = .ok turn ∧
      serviceTest fuel protocol checkent call here = here.took turn := by
  cases hserve : serve fuel protocol checkent call data with
  | error fault => exact Or.inl ⟨fault, rfl, by simp only [serviceTest, hheld, hserve]⟩
  | ok turn => exact Or.inr ⟨turn, rfl, by simp only [serviceTest, hheld, hserve]⟩

/-- How a start ends: early, without a connection, or with memory and a socket. -/
theorem startTest_cases (protocol : Protocol) (call : Call) (here : Monitorent) :
    (call.opening = .noSocket ∧
      startTest protocol call here = { here with retval := UdpCheck.shortOf here.lastcheck, monitordata := protocol.left }) ∨
    (call.opening = .nodns ∧ startTest protocol call here =
      { here with retval := Result.nodns, monitordata := protocol.left, socket := .opened }) ∨
    (call.opening ≠ .noSocket ∧ call.opening ≠ .nodns ∧
      ((∃ errno : UdpCheck.Errno, startTest protocol call here =
          { here with retval := errno.retval.getD here.retval, socket := .closed }) ∨
        ∃ data, data.state = .connect ∧
          startTest protocol call here = { here with monitordata := .held data, socket := .opened })) := by
  rw [startTest]
  cases hopening : call.opening with
  | noSocket => exact Or.inl ⟨rfl, rfl⟩
  | nodns => exact Or.inr (Or.inl ⟨rfl, rfl⟩)
  | refused errno =>
      refine Or.inr (Or.inr ⟨by simp, by simp, ?_⟩)
      by_cases hpop : protocol = .pop3
      · exact Or.inr ⟨⟨.connect, call.now, call.now, none, 0⟩, rfl, if_pos hpop⟩
      · exact Or.inl ⟨errno, if_neg hpop⟩
  | connected => exact Or.inr (Or.inr ⟨by simp, by simp, Or.inr ⟨_, rfl, rfl⟩⟩)

/-! ### What every run keeps -/

theorem stopTest_not_held (protocol : Protocol) (here : Monitorent) (data : Data) :
    (stopTest protocol here).monitordata ≠ .held data := by
  have hclose : ∀ entry : Monitorent, entry.close.monitordata = entry.monitordata := by
    intro entry
    rw [Monitorent.close]
    cases entry.socket <;> rfl
  rw [stopTest]
  cases hlocal : here.monitordata with
  | null =>
      dsimp only
      split
      · rw [hclose, hlocal]
        simp
      · rw [hlocal]
        simp
  | held other =>
      dsimp only
      rw [hclose]
      simp
  | dangling => simp

/-- A check that has not been started has nothing to stop. -/
theorem stopTest_unstarted (h : Consistent here) (hstarted : here.started = false) : stopTest protocol here = here := by
  obtain ⟨hlocal, hsocket⟩ := h.unstarted hstarted
  rw [stopTest, hlocal, Monitorent.close, hsocket]
  exact ite_self here

/-- Stopping touches the reference, the socket and the fault only. -/
theorem stopTest_frame (protocol : Protocol) (here : Monitorent) :
    (stopTest protocol here).started = here.started ∧ (stopTest protocol here).retval = here.retval ∧
      (stopTest protocol here).lastcheck = here.lastcheck ∧ (stopTest protocol here).events = here.events := by
  have hclose : ∀ entry : Monitorent, entry.close.started = entry.started ∧ entry.close.retval = entry.retval ∧
      entry.close.lastcheck = entry.lastcheck ∧ entry.close.events = entry.events := by
    intro entry
    rw [Monitorent.close]
    cases entry.socket <;> exact ⟨rfl, rfl, rfl, rfl⟩
  rw [stopTest]
  cases here.monitordata with
  | null =>
      dsimp only
      split
      · exact hclose here
      · exact ⟨rfl, rfl, rfl, rfl⟩
  | held other => exact hclose _
  | dangling => exact ⟨rfl, rfl, rfl, rfl⟩

/-- A check that was stopped holds nothing, whatever is set after it. -/
theorem consistent_stopTest (protocol : Protocol) (h : Consistent here) (retval : Int16) (queued : Bool) :
    Consistent { stopTest protocol here with retval, queued } where
  unstarted hstarted := by
    have hbefore : here.started = false := (stopTest_frame protocol here).1.symm.trans hstarted
    dsimp only
    rw [stopTest_unstarted h hbefore]
    exact h.unstarted hbefore
  held data hheld := absurd hheld (stopTest_not_held protocol here data)

theorem consistent_serviceThis (h : Consistent here) (hretval : here.retval = -1) :
    Consistent (serviceThis fuel protocol checkent call here) := by
  have hleft : ∀ data, protocol.left ≠ .held data := by
    intro data
    rw [Protocol.left]
    split <;> simp
  rw [serviceThis]
  cases hstarted : here.started with
  | false =>
      obtain ⟨hlocal, -⟩ := h.unstarted hstarted
      rw [if_neg Bool.false_ne_true]
      obtain ⟨-, heq⟩ | ⟨-, heq⟩ | ⟨-, -, ⟨errno, heq⟩ | ⟨data, -, heq⟩⟩ :=
        startTest_cases protocol call here <;> rw [heq]
      · exact ⟨by simp, fun data hheld => absurd hheld (hleft data)⟩
      · exact ⟨by simp, fun data hheld => absurd hheld (hleft data)⟩
      · exact ⟨by simp, fun data hheld => absurd (hlocal.symm.trans hheld) (by simp)⟩
      · exact ⟨by simp, fun _ _ => ⟨rfl, hretval, rfl⟩⟩
  | true =>
      rw [if_pos rfl]
      cases hlocal : here.monitordata with
      | null => rwa [serviceTest, hlocal]
      | dangling =>
          rw [serviceTest_dangling hlocal]
          exact ⟨h.unstarted, h.held⟩
      | held data =>
          have hopen := (h.held data hlocal).1
          obtain ⟨fault, -, heq⟩ | ⟨turn, -, heq⟩ := serviceTest_held hlocal <;> rw [heq]
          · exact ⟨h.unstarted, h.held⟩
          · obtain ⟨-, htook⟩ | ⟨retval, -, htook⟩ := took_cases turn hopen <;> rw [htook]
            · exact ⟨by simp [hstarted], fun _ _ => ⟨hopen, hretval, hstarted⟩⟩
            · exact ⟨by simp [hstarted], by simp⟩

theorem consistent_step (event : QueueEvent) (h : Consistent here) :
    Consistent (step fuel protocol checkent here event) := by
  unfold step
  split
  · cases event with
    | service call =>
        dsimp only
        split
        · rename_i hretval
          exact consistent_serviceThis h hretval
        · exact h
    | handle =>
        dsimp only
        split
        · exact h
        · exact ⟨h.unstarted, h.held⟩
    | wakeup permanently => exact consistent_stopTest protocol h _ _
    | cleanup =>
        dsimp only
        rw [fastCleanupCheck]
        split
        · split
          · exact ⟨h.unstarted, h.held⟩
          · exact consistent_stopTest protocol h _ _
        · rename_i hstarted
          obtain ⟨hlocal, hsocket⟩ := h.unstarted (Bool.eq_false_iff.mpr hstarted)
          exact ⟨fun _ => ⟨hlocal, hsocket⟩, fun data hheld => absurd (hlocal.symm.trans hheld) (by simp)⟩
  · exact h

/-! ### One step -/

theorem left_eq_null : protocol.left = .null ↔ protocol.keepsReference = false := by
  rw [Protocol.left]
  cases protocol.keepsReference <;> simp

/-- A start leaves the check in order exactly if it finds an address, and a socket where it has to. -/
theorem settled_startTest_iff (hconsistent : Consistent here) (h : Settled here) (hstarted : here.started = false)
    (hqueued : here.queued = true) :
    Settled { startTest protocol call here with started := true } ↔
      call.opening ≠ .nodns ∧ (call.opening = .noSocket → protocol.keepsReference = false) := by
  obtain ⟨hlocal, hsocket⟩ := hconsistent.unstarted hstarted
  have hleft : ∀ data, protocol.left ≠ .held data := by
    intro data
    rw [Protocol.left]
    split <;> simp
  obtain ⟨hopening, heq⟩ | ⟨hopening, heq⟩ | ⟨hsome, hdns, ⟨errno, heq⟩ | ⟨data, -, heq⟩⟩ :=
    startTest_cases protocol call here
    <;> rw [heq]
  · rw [hopening, ← left_eq_null]
    constructor
    · rintro ⟨hmemory, -, -⟩
      exact ⟨by simp, fun _ => hmemory.resolve_right fun ⟨data, hheld, _⟩ => hleft data hheld⟩
    · rintro ⟨-, hnull⟩
      exact ⟨Or.inl (hnull rfl), fun _ => by simp [hsocket], h.sound⟩
  · refine iff_of_false (fun hafter => ?_) fun hguard => hguard.1 hopening
    obtain hnull | ⟨data, hheld, -⟩ := hafter.memory
    · exact hafter.socket hnull rfl
    · exact hleft data hheld
  · exact iff_of_true ⟨Or.inl hlocal, fun _ => by simp, h.sound⟩ ⟨hdns, fun hno => absurd hno hsome⟩
  · exact iff_of_true ⟨Or.inr ⟨data, rfl, rfl, hqueued⟩, fun hnull => absurd hnull (by simp), h.sound⟩
      ⟨hdns, fun hno => absurd hno hsome⟩

/-- A service call leaves it in order exactly if the check can take the reply there is. -/
theorem settled_serviceTest_iff (h : Settled here) (hqueued : here.queued = true) :
    Settled (serviceTest fuel protocol checkent call here) ↔
      ∀ data reply, here.monitordata = .held data → call.waiting.head? = some reply →
        Taken fuel protocol data.state reply := by
  obtain hnull | ⟨data, hheld, hopen, -⟩ := h.memory
  · have hsame : serviceTest fuel protocol checkent call here = here := by rw [serviceTest, hnull]
    rw [hsame]
    exact iff_of_true h fun data _ hheld => absurd (hnull.symm.trans hheld) (by simp)
  · have hguard : (∀ data' reply, here.monitordata = .held data' → call.waiting.head? = some reply →
        Taken fuel protocol data'.state reply) ↔ ∃ turn, serve fuel protocol checkent call data = .ok turn := by
      rw [serve_ok, hheld]
      constructor
      · exact fun hall reply => hall data reply rfl
      · intro hall other reply hother
        rw [← Local.held.inj hother]
        exact hall reply
    rw [hguard]
    obtain ⟨fault, hserve, heq⟩ | ⟨turn, hserve, heq⟩ := serviceTest_held hheld <;> rw [heq, hserve]
    · refine iff_of_false (fun hafter => absurd hafter.sound (by simp)) fun ⟨turn, hturn⟩ => ?_
      cases hturn
    · refine iff_of_true ?_ ⟨turn, rfl⟩
      obtain ⟨-, htook⟩ | ⟨retval, -, htook⟩ := took_cases turn hopen <;> rw [htook]
      · exact ⟨Or.inr ⟨turn.data, rfl, hopen, hqueued⟩, fun hnull => absurd hnull (by simp), h.sound⟩
      · exact ⟨Or.inl rfl, fun _ => by simp, h.sound⟩

/-- Stopping leaves nothing, exactly if it is not a check that closes its socket a second time. -/
theorem settled_stopTest_iff (h : Settled here) (retval : Int16) (queued : Bool) :
    Settled { stopTest protocol here with retval, queued } ↔ (protocol = .sysmon → here.socket ≠ .closed) := by
  obtain hnull | ⟨data, hheld, hopen, -⟩ := h.memory
  · rw [stopTest, hnull]
    dsimp only
    by_cases hsysmon : protocol = .sysmon
    · rw [if_pos hsysmon, Monitorent.close]
      cases hsocket : here.socket with
      | unopened => exact iff_of_true ⟨Or.inl hnull, h.socket, h.sound⟩ fun _ => by simp
      | opened => exact absurd hsocket (h.socket hnull)
      | closed => exact iff_of_false (fun hafter => absurd hafter.sound (by simp)) fun hguard => hguard hsysmon rfl
    · rw [if_neg hsysmon]
      exact iff_of_true ⟨Or.inl hnull, h.socket, h.sound⟩ fun heq => absurd heq hsysmon
  · have hclosed : stopTest protocol here = { here with monitordata := .null, socket := .closed } := by
      rw [stopTest, hheld]
      exact close_opened hopen
    rw [hclosed]
    exact iff_of_true ⟨Or.inl rfl, fun _ => by simp, h.sound⟩ fun _ => by simp [hopen]

theorem settled_step_iff (event : QueueEvent) (hconsistent : Consistent here) (h : Settled here) :
    Settled (step fuel protocol checkent here event) ↔ Proper fuel protocol here event := by
  unfold step
  by_cases hqueued : here.queued = true ∧ here.fault = none
  · rw [if_pos hqueued]
    obtain ⟨hqueued, hsound⟩ := hqueued
    cases event with
    | service call =>
        simp only [Proper, hqueued, hsound, true_implies]
        by_cases hretval : here.retval = -1
        · rw [if_pos hretval, serviceThis]
          cases hstarted : here.started with
          | false => simpa [hretval] using settled_startTest_iff hconsistent h hstarted hqueued
          | true => simpa [hretval] using settled_serviceTest_iff h hqueued
        · rw [if_neg hretval]
          exact iff_of_true h fun hpending => absurd hpending hretval
    | handle =>
        refine iff_of_true ?_ fun _ _ => trivial
        dsimp only
        split
        · exact h
        · rename_i hretval
          refine ⟨?_, h.socket, h.sound⟩
          exact h.memory.imp_right fun ⟨data, hheld, _⟩ => absurd (hconsistent.held data hheld).2.1 hretval
    | wakeup permanently =>
        simp only [Proper, hqueued, hsound, true_implies]
        exact settled_stopTest_iff h _ _
    | cleanup =>
        refine iff_of_true ?_ fun _ _ => trivial
        dsimp only
        rw [fastCleanupCheck]
        split
        · split
          · rename_i hnull
            exact ⟨Or.inl hnull, h.socket, h.sound⟩
          · rename_i hlocal
            obtain ⟨data, -, hopen, -⟩ := h.memory.resolve_left hlocal
            exact (settled_stopTest_iff h _ _).mpr fun _ => by simp [hopen]
        · rename_i hstarted
          obtain ⟨hlocal, -⟩ := hconsistent.unstarted (Bool.eq_false_iff.mpr hstarted)
          exact ⟨Or.inl hlocal, h.socket, h.sound⟩
  · rw [if_neg hqueued]
    exact iff_of_true h fun hq hf => absurd ⟨hq, hf⟩ hqueued

/-! ### A whole run -/

/-- In every state of a run an entry holds memory and an open socket, or neither, exactly if every event is one the check
is made for. -/
theorem settled_run_iff_proper (fuel : Nat) (protocol : Protocol) (checkent : Checkent) (lastcheck : UInt32)
    (events : List QueueEvent) :
    Run.Always (step fuel protocol checkent) Settled (queueCheck lastcheck) events ↔
      Run.Guarded (step fuel protocol checkent) (Proper fuel protocol) (queueCheck lastcheck) events := by
  have hconsistent : Consistent (queueCheck lastcheck) :=
    ⟨fun _ => ⟨rfl, rfl⟩, fun _ hheld => absurd hheld (by simp [queueCheck])⟩
  have hsettled : Settled (queueCheck lastcheck) := ⟨Or.inl rfl, fun _ => by simp [queueCheck], rfl⟩
  exact Run.always_iff_guarded (fun _ event => consistent_step event) (fun _ event => settled_step_iff event)
    hconsistent hsettled

end Sysmon.TcpCheck
