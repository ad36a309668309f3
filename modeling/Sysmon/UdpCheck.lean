import Sysmon.Host
import Sysmon.Lib.Run

/-!
# What the DNS and RADIUS checks do with their memory

`start_check_`, `service_check_` and `stop_check_` of `dns.c` and `radius.c`, with what the queue does to an entry whose
check is one of them. Each frees its memory at five places. Two of them also clear the reference to it: the one where
the daemon has asked often enough, and the one where the check is stopped.
-/

namespace Sysmon.UdpCheck

/-- `struct dns_data` and `struct radius_data`, without the packet. -/
structure Data where
  sent : Nat
  lastsent : Int
  deriving DecidableEq, Repr

inductive Memory where
  | unallocated
  | held (data : Data)
  | released
  deriving DecidableEq, Repr

inductive Fault where
  | nullDereference
  | useAfterFree
  | doubleFree
  deriving DecidableEq, Repr

/-- `struct monitorent`. Whether the reference is `NULL` is one thing, and what has become of the memory another. -/
structure Monitorent where
  started : Bool
  retval : Int16
  monitordata : Bool
  memory : Memory
  lastcheck : UInt32
  queued : Bool
  fault : Option Fault
  deriving DecidableEq, Repr

/-- What `queue_check` makes. -/
def queueCheck (lastcheck : UInt32) : Monitorent := ⟨false, -1, false, .unallocated, lastcheck, true, none⟩

/-- What is left of a `lastcheck` in a `short`. -/
def shortOf (lastcheck : UInt32) : Int16 := lastcheck.toUInt16.toInt16

inductive Errno where
  | connrefused
  | intr
  | netunreach
  | hostdown
  | hostunreach
  | timedout
  | other
  deriving DecidableEq, Repr

def Errno.retval : Errno → Option Int16
  | .connrefused | .intr => some Result.connref
  | .netunreach => some Result.netunrch
  | .hostdown | .hostunreach => some Result.hostdown
  | .timedout => some Result.timedout
  | .other => none

/-! ### Starting -/

/-- How far a check comes when it is started. -/
inductive Opening where
  | nodns
  | noSocket
  | refused (errno : Errno)
  | connected
  deriving DecidableEq, Repr

/-- The start of both checks, with what the memory holds once the socket is connected. -/
def startCheck (data : Data) (opening : Opening) (here : Monitorent) : Monitorent :=
  match opening with
  | .nodns => { here with retval := Result.nodns }
  | .noSocket => { here with monitordata := true, memory := .released, retval := shortOf here.lastcheck }
  | .refused errno => { here with monitordata := true, memory := .released, retval := errno.retval.getD here.retval }
  | .connected => { here with monitordata := true, memory := .held data }

def startCheckDns : Opening → Monitorent → Monitorent := startCheck ⟨0, 0⟩

/-- The first packet is sent at once. -/
def startCheckRadius (now : Int) : Opening → Monitorent → Monitorent := startCheck ⟨1, now⟩

/-! ### Servicing -/

inductive Read where
  | error (errno : Errno)
  | datagram (bytes : List UInt8)
  deriving DecidableEq, Repr

/-- What a service call finds: how far the first one comes, the time, what there is to be read, and whether a packet can be
written. -/
structure Call where
  opening : Opening
  now : Int
  waiting : Option Read
  writes : Bool
  deriving DecidableEq, Repr

def dnsAnswer (_ : UInt8) : Option Int16 := some Result.ok

def radiusAnswer (code : UInt8) : Option Int16 :=
  if code = 2 then some Result.ok else if code = 3 then some Result.badAuth else none

def Read.retval (answer : UInt8 → Option Int16) (here : Monitorent) : Read → Int16
  | .error errno => errno.retval.getD (shortOf here.lastcheck)
  | .datagram [] => here.retval
  | .datagram (code :: _) => (answer code).getD here.retval

/-- Both service calls, where the memory can be read. -/
def serviceData (answer : UInt8 → Option Int16) (write : Data → Data) (call : Call) (data : Data) (here : Monitorent) :
    Monitorent :=
  if call.now - data.lastsent < 1 then here
  else if 10 < data.sent then { here with retval := Result.noresp, memory := .released, monitordata := false }
  else match call.waiting with
    | some read => { here with retval := read.retval answer here, memory := .released }
    | none => { here with memory := .held (write data) }

/-- What the reference leads to. -/
def Monitorent.localstruct (here : Monitorent) : Except Fault Data :=
  if here.monitordata then
    match here.memory with
    | .held data => .ok data
    | _ => .error .useAfterFree
  else .error .nullDereference

def dereferenced (serve : Data → Monitorent → Monitorent) (here : Monitorent) : Monitorent :=
  match here.localstruct with
  | .ok data => serve data here
  | .error fault => { here with fault := some fault }

/-- Only a packet that could be written counts. -/
def serviceCheckDns (call : Call) (here : Monitorent) : Monitorent :=
  if here.monitordata then
    dereferenced (serviceData dnsAnswer (fun data => if call.writes then ⟨data.sent + 1, call.now⟩ else data) call) here
  else here

def serviceCheckRadius (call : Call) (here : Monitorent) : Monitorent :=
  dereferenced (serviceData radiusAnswer (fun data => ⟨data.sent + 1, call.now⟩) call) here

/-! ### Stopping -/

def stopCheck (here : Monitorent) : Monitorent :=
  if here.monitordata then
    match here.memory with
    | .held _ => { here with memory := .released, monitordata := false }
    | _ => { here with fault := some .doubleFree }
  else here

def stopCheckDns : Monitorent → Monitorent := stopCheck

def stopCheckRadius : Monitorent → Monitorent := stopCheck

/-! ### The queue -/

inductive CheckType where
  | dns
  | radius
  deriving DecidableEq, Repr

def startThis (type : CheckType) (call : Call) : Monitorent → Monitorent :=
  match type with
  | .dns => startCheckDns call.opening
  | .radius => startCheckRadius call.now call.opening

def serviceStarted (type : CheckType) (call : Call) : Monitorent → Monitorent :=
  match type with
  | .dns => serviceCheckDns call
  | .radius => serviceCheckRadius call

def stopThis : CheckType → Monitorent → Monitorent
  | .dns => stopCheckDns
  | .radius => stopCheckRadius

/-- `service_this`. -/
def serviceThis (type : CheckType) (call : Call) (here : Monitorent) : Monitorent :=
  if here.started then serviceStarted type call here else { startThis type call here with started := true }

/-- What happens to an entry: `service_checks` and the select loop service it while it has no result, and
`service_checks` takes it out of the queue once it has one; `wakeup_checks` stops it when it is stale; and
`fast_cleanup_checks` clears the queue. -/
inductive Event where
  | service (call : Call)
  | handle
  | wakeup (permanently : Bool)
  | cleanup
  deriving DecidableEq, Repr

def fastCleanupCheck (type : CheckType) (here : Monitorent) : Monitorent :=
  if here.started then { (if here.monitordata then stopThis type here else here) with queued := false }
  else { here with retval := shortOf here.lastcheck, queued := false }

/-- Nothing follows a fault, and an entry that has left the queue is freed. -/
def step (type : CheckType) (here : Monitorent) (event : Event) : Monitorent :=
  if here.queued ∧ here.fault = none then
    match event with
    | .service call => if here.retval = -1 then serviceThis type call here else here
    | .handle => if here.retval = -1 then here else { here with queued := false }
    | .wakeup permanently =>
        { stopThis type here with retval := if permanently then Result.killed else Result.timedout }
    | .cleanup => fastCleanupCheck type here
  else here

/-- Memory that was released has left no reference to it and, on an entry of the queue, a final result. It was neither
used nor released again. -/
structure Settled (here : Monitorent) : Prop where
  released : here.memory = .released → here.monitordata = false ∧ (here.queued = true → here.retval ≠ -1)
  sound : here.fault = none

/-- The check gets its socket if it gets an address, and there is never anything to be read before the daemon has asked
often enough. -/
def Unanswered (here : Monitorent) : Event → Prop
  | .service call => here.queued → here.fault = none → here.retval = -1 →
      if here.started then
        ∀ data, here.memory = .held data → 1 ≤ call.now - data.lastsent → data.sent ≤ 10 → call.waiting = none
      else call.opening = .nodns ∨ call.opening = .connected
  | _ => True

/-! ### One step -/

variable {here : Monitorent} {type : CheckType} {call : Call} {data : Data}

/-- What is so in every state of a run. -/
structure Consistent (here : Monitorent) : Prop where
  unstarted : here.started = false → here.memory = .unallocated
  unallocated : here.memory = .unallocated → here.monitordata = false
  held : ∀ data, here.memory = .held data → here.monitordata = true
  pending : here.started = true → here.retval = -1 → here.memory ≠ .unallocated

theorem startThis_cases (type : CheckType) (call : Call) (here : Monitorent) :
    (call.opening = .nodns ∧ startThis type call here = { here with retval := Result.nodns }) ∨
    (call.opening ≠ .nodns ∧ call.opening ≠ .connected ∧
      ∃ retval, startThis type call here = { here with monitordata := true, memory := .released, retval }) ∨
    (call.opening = .connected ∧
      ∃ data, startThis type call here = { here with monitordata := true, memory := .held data }) := by
  obtain ⟨data, hstart⟩ : ∃ data, startThis type call here = startCheck data call.opening here := by
    cases type with
    | dns => exact ⟨_, rfl⟩
    | radius => exact ⟨_, rfl⟩
  rw [hstart]
  cases hopening : call.opening with
  | nodns => exact Or.inl ⟨rfl, rfl⟩
  | noSocket => exact Or.inr (Or.inl ⟨by simp, by simp, _, rfl⟩)
  | refused errno => exact Or.inr (Or.inl ⟨by simp, by simp, _, rfl⟩)
  | connected => exact Or.inr (Or.inr ⟨rfl, _, rfl⟩)

/-- What a service call does with memory that is there. -/
theorem serviceStarted_cases (type : CheckType) (call : Call) (hheld : here.memory = .held data)
    (href : here.monitordata = true) :
    (call.now - data.lastsent < 1 ∧ serviceStarted type call here = here) ∨
    (10 < data.sent ∧ serviceStarted type call here =
      { here with retval := Result.noresp, memory := .released, monitordata := false }) ∨
    (1 ≤ call.now - data.lastsent ∧ data.sent ≤ 10 ∧
      ((call.waiting ≠ none ∧ ∃ retval, serviceStarted type call here = { here with retval, memory := .released }) ∨
        (call.waiting = none ∧ ∃ after, serviceStarted type call here = { here with memory := .held after }))) := by
  obtain ⟨answer, write, hserve⟩ : ∃ answer write,
      serviceStarted type call here = serviceData answer write call data here := by
    have hlocal : here.localstruct = .ok data := by rw [Monitorent.localstruct, if_pos href, hheld]
    cases type with
    | dns => exact ⟨_, _, by rw [serviceStarted, serviceCheckDns, if_pos href, dereferenced, hlocal]⟩
    | radius => exact ⟨_, _, by rw [serviceStarted, serviceCheckRadius, dereferenced, hlocal]⟩
  rw [hserve, serviceData]
  by_cases hsoon : call.now - data.lastsent < 1
  · exact Or.inl ⟨hsoon, if_pos hsoon⟩
  · rw [if_neg hsoon]
    by_cases hlimit : 10 < data.sent
    · exact Or.inr (Or.inl ⟨hlimit, if_pos hlimit⟩)
    · rw [if_neg hlimit]
      refine Or.inr (Or.inr ⟨Int.not_lt.mp hsoon, Nat.not_lt.mp hlimit, ?_⟩)
      cases call.waiting with
      | some read => exact Or.inl ⟨by simp, _, rfl⟩
      | none => exact Or.inr ⟨rfl, _, rfl⟩

/-- Memory that is gone is not served. -/
theorem serviceStarted_released (type : CheckType) (call : Call) (hreleased : here.memory = .released) :
    ∃ fault, serviceStarted type call here = { here with fault } := by
  have hlocal : ∃ fault, here.localstruct = .error fault := by
    rw [Monitorent.localstruct, hreleased]
    split
    · exact ⟨_, rfl⟩
    · exact ⟨_, rfl⟩
  obtain ⟨fault, hlocal⟩ := hlocal
  cases type with
  | dns =>
      rw [serviceStarted, serviceCheckDns, dereferenced, hlocal]
      split
      · exact ⟨_, rfl⟩
      · exact ⟨here.fault, rfl⟩
  | radius => exact ⟨_, by rw [serviceStarted, serviceCheckRadius, dereferenced, hlocal]⟩

theorem stopThis_eq (type : CheckType) (here : Monitorent) : stopThis type here = stopCheck here := by
  cases type <;> rfl

/-- A check that is stopped has released its memory and cleared the reference, if it had any. -/
theorem stopThis_cases (type : CheckType) (hconsistent : Consistent here) :
    ((here.monitordata = false ∧ stopThis type here = here) ∨
      (∃ data, here.memory = .held data ∧
        stopThis type here = { here with memory := .released, monitordata := false })) ∨
    (here.memory = .released ∧ here.monitordata = true ∧
      stopThis type here = { here with fault := some .doubleFree }) := by
  rw [stopThis_eq, stopCheck]
  cases href : here.monitordata with
  | false => exact Or.inl (Or.inl ⟨rfl, if_neg Bool.false_ne_true⟩)
  | true =>
      rw [if_pos rfl]
      cases hmem : here.memory with
      | unallocated => exact absurd (href.symm.trans (hconsistent.unallocated hmem)) (by decide)
      | held data => exact Or.inl (Or.inr ⟨data, rfl, rfl⟩)
      | released => exact Or.inr ⟨rfl, rfl, rfl⟩

/-- A service call of a check that is under way, by what its memory is. -/
theorem serviceThis_consistent (type : CheckType) (call : Call) (h : Consistent here) (hretval : here.retval = -1) :
    Consistent (serviceThis type call here) := by
  rw [serviceThis]
  cases hstarted : here.started with
  | false =>
      have hnodns : Result.nodns ≠ -1 := by decide
      rw [if_neg Bool.false_ne_true]
      obtain ⟨-, heq⟩ | ⟨-, -, retval, heq⟩ | ⟨-, data, heq⟩ := startThis_cases type call here <;> rw [heq]
      · exact ⟨by simp, h.unallocated, h.held, fun _ hretval => absurd hretval hnodns⟩
      · exact ⟨by simp, by simp, by simp, by simp⟩
      · exact ⟨by simp, by simp, by simp, by simp⟩
  | true =>
      rw [if_pos rfl]
      cases hmem : here.memory with
      | unallocated => exact absurd hmem (h.pending hstarted hretval)
      | released =>
          obtain ⟨fault, heq⟩ := serviceStarted_released type call hmem
          rw [heq]
          exact ⟨h.unstarted, h.unallocated, h.held, h.pending⟩
      | held data =>
          have href := h.held data hmem
          obtain ⟨-, heq⟩ | ⟨-, heq⟩ | ⟨-, -, ⟨-, retval, heq⟩ | ⟨-, after, heq⟩⟩ := serviceStarted_cases type call hmem href
            <;> rw [heq]
          · exact h
          · exact ⟨by simp [hstarted], by simp, by simp, by simp⟩
          · exact ⟨by simp [hstarted], by simp, by simp, by simp⟩
          · exact ⟨by simp [hstarted], by simp, by simp [href], by simp⟩

theorem stopThis_consistent (type : CheckType) (h : Consistent here) : Consistent (stopThis type here) := by
  obtain (⟨-, heq⟩ | ⟨data, hmem, heq⟩) | ⟨-, -, heq⟩ := stopThis_cases type h <;> rw [heq]
  · exact h
  · exact ⟨fun hstarted => absurd (h.unstarted hstarted) (by simp [hmem]), by simp, by simp, by simp⟩
  · exact ⟨h.unstarted, h.unallocated, h.held, h.pending⟩

/-- A result that is set from outside is one that is final, or one of a check that was not started. -/
theorem Consistent.withRetval (h : Consistent here) {retval : Int16} {queued : Bool}
    (hretval : here.started = true → retval = -1 → here.retval = -1) :
    Consistent { here with retval, queued } :=
  ⟨h.unstarted, h.unallocated, h.held, fun hstarted heq => h.pending hstarted (hretval hstarted heq)⟩

theorem wakeup_ne (permanently : Bool) : (if permanently then Result.killed else Result.timedout) ≠ -1 := by
  cases permanently <;> decide

theorem consistent_step (type : CheckType) (event : Event) (h : Consistent here) : Consistent (step type here event) := by
  unfold step
  split
  · cases event with
    | service call =>
        dsimp only
        split
        · rename_i hretval
          exact serviceThis_consistent type call h hretval
        · exact h
    | handle =>
        dsimp only
        split
        · exact h
        · exact h.withRetval fun _ heq => heq
    | wakeup permanently =>
        exact (stopThis_consistent type h).withRetval fun _ heq => absurd heq (wakeup_ne permanently)
    | cleanup =>
        dsimp only
        rw [fastCleanupCheck]
        split
        · split
          · exact (stopThis_consistent type h).withRetval fun _ heq => heq
          · exact h.withRetval fun _ heq => heq
        · rename_i hstarted
          exact h.withRetval fun hstart => absurd hstart hstarted
  · exact h

/-- What stopping leaves of a check that was settled. -/
theorem stopThis_settled (type : CheckType) (hconsistent : Consistent here) (h : Settled here) :
    (stopThis type here).fault = none ∧
      ((stopThis type here).memory = .released → (stopThis type here).monitordata = false) := by
  obtain (⟨href, heq⟩ | ⟨data, -, heq⟩) | ⟨hmem, href, -⟩ := stopThis_cases type hconsistent
  · rw [heq]
    exact ⟨h.sound, fun _ => href⟩
  · rw [heq]
    exact ⟨h.sound, fun _ => rfl⟩
  · exact absurd ((h.released hmem).1.symm.trans href) (by decide)

/-- A service call leaves a check settled that was, exactly if it does not read and gets its socket. -/
theorem settled_serviceThis_iff (type : CheckType) (call : Call) (hconsistent : Consistent here) (h : Settled here)
    (hqueued : here.queued = true) (hretval : here.retval = -1) :
    Settled (serviceThis type call here) ↔
      if here.started then
        ∀ data, here.memory = .held data → 1 ≤ call.now - data.lastsent → data.sent ≤ 10 → call.waiting = none
      else call.opening = .nodns ∨ call.opening = .connected := by
  rw [serviceThis]
  cases hstarted : here.started with
  | false =>
      have hnone := hconsistent.unstarted hstarted
      rw [if_neg Bool.false_ne_true, if_neg Bool.false_ne_true]
      obtain ⟨hopening, heq⟩ | ⟨hnodns, hconnected, retval, heq⟩ | ⟨hopening, data, heq⟩ := startThis_cases type call here
        <;> rw [heq]
      · exact iff_of_true ⟨fun hreleased => absurd (hreleased.symm.trans hnone) (by decide), h.sound⟩ (Or.inl hopening)
      · refine iff_of_false (fun hafter => ?_) fun hopening => hopening.elim hnodns hconnected
        exact absurd (hafter.released rfl).1 (by simp)
      · exact iff_of_true ⟨fun hreleased => absurd hreleased (by simp), h.sound⟩ (Or.inr hopening)
  | true =>
      rw [if_pos rfl, if_pos rfl]
      cases hmem : here.memory with
      | unallocated => exact absurd hmem (hconsistent.pending hstarted hretval)
      | released => exact absurd hretval ((h.released hmem).2 hqueued)
      | held data =>
          simp only [Memory.held.injEq, forall_eq']
          have href := hconsistent.held data hmem
          obtain ⟨hsoon, heq⟩ | ⟨hlimit, heq⟩ | ⟨hlate, hfew, ⟨hread, retval, heq⟩ | ⟨hnothing, after, heq⟩⟩ :=
            serviceStarted_cases type call hmem href <;> rw [heq]
          · exact iff_of_true h fun hlate => absurd hsoon (Int.not_lt.mpr hlate)
          · have hnoresp : Result.noresp ≠ -1 := by decide
            exact iff_of_true ⟨fun _ => ⟨rfl, fun _ => hnoresp⟩, h.sound⟩ fun _ hfew => absurd hlimit (Nat.not_lt.mpr hfew)
          · refine iff_of_false (fun hafter => ?_) fun hguard => hread (hguard hlate hfew)
            exact absurd ((hafter.released rfl).1.symm.trans href) (by decide)
          · exact iff_of_true ⟨fun hreleased => absurd hreleased (by simp), h.sound⟩ fun _ _ => hnothing

theorem settled_step_iff (type : CheckType) (event : Event) (hconsistent : Consistent here) (h : Settled here) :
    Settled (step type here event) ↔ Unanswered here event := by
  unfold step
  by_cases hqueued : here.queued = true ∧ here.fault = none
  · rw [if_pos hqueued]
    obtain ⟨hqueued, hsound⟩ := hqueued
    obtain ⟨hsafe, hcleared⟩ := stopThis_settled type hconsistent h
    cases event with
    | service call =>
        simp only [Unanswered, hqueued, hsound, true_implies]
        by_cases hretval : here.retval = -1
        · rw [if_pos hretval, settled_serviceThis_iff type call hconsistent h hqueued hretval]
          exact ⟨fun hguard _ => hguard, fun hguard => hguard hretval⟩
        · rw [if_neg hretval]
          exact iff_of_true h fun hpending => absurd hpending hretval
    | handle =>
        refine iff_of_true ?_ trivial
        dsimp only
        split
        · exact h
        · exact ⟨fun hreleased => ⟨(h.released hreleased).1, fun hfalse => absurd hfalse Bool.false_ne_true⟩, h.sound⟩
    | wakeup permanently =>
        exact iff_of_true ⟨fun hreleased => ⟨hcleared hreleased, fun _ => wakeup_ne permanently⟩, hsafe⟩ trivial
    | cleanup =>
        refine iff_of_true ?_ trivial
        dsimp only
        rw [fastCleanupCheck]
        split
        · split
          · exact ⟨fun hreleased => ⟨hcleared hreleased, fun hfalse => absurd hfalse Bool.false_ne_true⟩, hsafe⟩
          · exact ⟨fun hreleased => ⟨(h.released hreleased).1, fun hfalse => absurd hfalse Bool.false_ne_true⟩, h.sound⟩
        · exact ⟨fun hreleased => ⟨(h.released hreleased).1, fun hfalse => absurd hfalse Bool.false_ne_true⟩, h.sound⟩
  · rw [if_neg hqueued]
    refine iff_of_true h ?_
    cases event with
    | service call => exact fun hq hf => absurd ⟨hq, hf⟩ hqueued
    | handle => trivial
    | wakeup permanently => trivial
    | cleanup => trivial

/-! ### A whole run -/

/-- In every state of a run the memory of a check is in order exactly if no service call reads anything, and the check
gets its socket. -/
theorem settled_run_iff (type : CheckType) (lastcheck : UInt32) (events : List Event) :
    Run.Always (step type) Settled (queueCheck lastcheck) events ↔
      Run.Guarded (step type) Unanswered (queueCheck lastcheck) events := by
  have hconsistent : Consistent (queueCheck lastcheck) :=
    ⟨fun _ => rfl, fun _ => rfl, fun _ hheld => absurd hheld (by simp [queueCheck]), fun h => absurd h (by simp [queueCheck])⟩
  have hsettled : Settled (queueCheck lastcheck) := ⟨fun hreleased => absurd hreleased (by simp [queueCheck]), rfl⟩
  exact Run.always_iff_guarded (fun _ event => consistent_step type event) (fun _ event => settled_step_iff type event)
    hconsistent hsettled

/-- A service call at a time, in a run in which everything else goes well. -/
def serviced (now : Int) (waiting : Option Read) : Event := .service ⟨.connected, now, waiting, true⟩

/-- An empty datagram leaves the DNS check without a result and without its memory, and so does an answer of a RADIUS
server that neither accepts nor rejects: the next call reads what was released. A check that has its answer is released
again when the queue is cleared. -/
theorem answers_fault :
    ¬(∀ type lastcheck events, Run.Always (step type) Settled (queueCheck lastcheck) events) ∧
      (Run.exec (step .dns) (queueCheck 0)
        [serviced 0 none, serviced 2 (some (.datagram [])), serviced 3 none]).fault = some .useAfterFree ∧
      (Run.exec (step .radius) (queueCheck 0)
        [serviced 0 none, serviced 2 (some (.datagram [11])), serviced 3 none]).fault = some .useAfterFree ∧
      (Run.exec (step .dns) (queueCheck 0)
        [serviced 0 none, serviced 2 (some (.datagram [0])), .cleanup]).fault = some .doubleFree := by
  refine ⟨fun h => ?_, by decide, by decide, by decide⟩
  have hlast := h .dns 0 [serviced 0 none, serviced 2 (some (.datagram [])), serviced 3 none] _ List.prefix_rfl
  exact absurd hlast.sound (by decide)

end Sysmon.UdpCheck
