import Sysmon.Check.Retval
import Sysmon.Parser.Blocks
import Sysmon.Reload

/-!
# The queue of checks

`queue_check`, `service_checks`, `wakeup_checks` and `fast_cleanup_checks` of `syswatch.c`, and the
reload between them. The queue is a list of entries that point at objects; an object knows by its
`queued` flag that an entry points at it, and `numqueued` counts the entries. What a check does on
the network is not looked into: every time it is serviced it is started, if it was not, and either
has a result afterwards or has none, as the environment says. What it notes in its object on the way
(times, last message ids) is not read here.
-/

open Sysmon.Parser

namespace Sysmon.Queue

open Sysmon.Reload

/-- `struct monitorent`. A `retval` of -1 means that there is no result yet. -/
structure Monitorent where
  checkent : Ref
  started : Bool
  retval : Int16
  wakeupCount : UInt32
  lastWakeupTime : Time
  deriving DecidableEq, Repr

/-- The daemon with its queue, the change counter and the notifications sent. -/
structure Monitor where
  daemon : Daemon
  queue : List Monitorent
  numqueued : Int
  globChangeSeq : UInt64
  notices : List Notice

def Monitor.setHeap (m : Monitor) (heap : Heap) : Monitor :=
  { m with daemon := { m.daemon with heap := heap } }

@[simp] theorem Monitor.setHeap_heap (m : Monitor) (heap : Heap) : (m.setHeap heap).daemon.heap = heap :=
  rfl

/-- Change the `struct hostinfo` behind a reference. -/
def updateData (heap : Heap) (r : Ref) (f : HostInfo → HostInfo) : Heap :=
  Function.update heap r ((heap r).map fun element => { element with data := f element.data })

/-! ### Queueing -/

def newEntry (r : Ref) : Monitorent where
  checkent := r
  started := false
  retval := -1
  wakeupCount := 0
  lastWakeupTime := 0

/-- A new entry resets the warning about long waits. -/
def markQueued (svc : HostInfo) : HostInfo := { svc with warnlog := false, queued := true }

/-- `queue_check`. What it makes of an object that has been freed is undefined; here, nothing. -/
def queueCheck (m : Monitor) (r : Ref) : Monitor :=
  match m.daemon.heap r with
  | none => m
  | some element =>
      if element.data.queued then m
      else
        { m.setHeap (updateData m.daemon.heap r markQueued) with
          queue := newEntry r :: m.queue
          numqueued := m.numqueued + 1 }

/-! ### Servicing -/

/-- What the world is like during one pass over the queue. -/
structure Pass where
  donotify : Bool
  now : Time
  /-- The result of a check that is serviced, -1 if there is still none. -/
  answer : Ref → Int16
  env : Ref → CheckEnv

def serviceThis (answer : Ref → Int16) (here : Monitorent) : Monitorent :=
  { here with started := true, retval := answer here.checkent }

/-- The object can be queued again. -/
def leaveQueue (now : Time) (svc : HostInfo) : HostInfo := { svc with queued := false, lchecktime := now }

/-- The result is handled, and the object leaves the queue. -/
def complete (pass : Pass) (m : Monitor) (here : Monitorent) : Monitor :=
  match m.daemon.heap here.checkent with
  | none => { m with numqueued := m.numqueued - 1 }
  | some element =>
      let w := handleRetval pass.donotify ⟨element.data, m.globChangeSeq, m.notices⟩
        ⟨here.retval, pass.now, pass.env here.checkent⟩
      let heap := updateData m.daemon.heap here.checkent fun _ => leaveQueue pass.now w.svc
      { m.setHeap heap with
        numqueued := m.numqueued - 1
        globChangeSeq := w.globChangeSeq
        notices := w.notices }

/-- `service_checks`: the rest of the queue, and what is left of it. -/
def serviceLoop (pass : Pass) : List Monitorent → Monitor → Monitor
  | [], m => { m with queue := [] }
  | here :: rest, m =>
      if here.retval = -1 then
        let m := serviceLoop pass rest m
        { m with queue := serviceThis pass.answer here :: m.queue }
      else serviceLoop pass rest (complete pass m here)

def serviceChecks (m : Monitor) (pass : Pass) : Monitor := serviceLoop pass m.queue m

/-- The select loop services a check whose descriptor is ready, if it has no result yet. -/
def serviceReady (m : Monitor) (answer : Ref → Int16) (ready : Ref → Bool) : Monitor :=
  { m with queue := m.queue.map fun here =>
      if ready here.checkent && here.retval = -1 then serviceThis answer here else here }

/-! ### Waking up -/

def defaultMaxWakeupRetries : UInt32 := 3

def maxRetries (heap : Heap) (r : Ref) : UInt32 :=
  let own := ((heap r).map fun element => element.data.maxWakeupRetries).getD 0
  if 0 < own then own else defaultMaxWakeupRetries

def dueAgain (now : Time) (svc : HostInfo) : HostInfo :=
  { svc with lchecktime := now - svc.queuetime.toInt64 }

/-- A check that has been in the queue too long: killed after so many attempts, timed out before. -/
def wakeUp (now : Time) (heap : Heap) (here : Monitorent) : Monitorent × Heap :=
  if maxRetries heap here.checkent ≤ here.wakeupCount then ({ here with retval := Result.killed }, heap)
  else
    ({ here with
        retval := Result.timedout
        wakeupCount := here.wakeupCount + 1
        lastWakeupTime := now },
      updateData heap here.checkent (dueAgain now))

def wakeIfStale (now : Time) (stale : Ref → Bool) (heap : Heap) (here : Monitorent) :
    Monitorent × Heap :=
  if stale here.checkent then wakeUp now heap here else (here, heap)

def wakeupLoop (now : Time) (stale : Ref → Bool) : List Monitorent → Heap → List Monitorent × Heap
  | [], heap => ([], heap)
  | here :: rest, heap =>
      let (woken, heap) := wakeIfStale now stale heap here
      let (rest, heap) := wakeupLoop now stale rest heap
      (woken :: rest, heap)

def wakeupChecks (m : Monitor) (now : Time) (stale : Ref → Bool) : Monitor :=
  let (queue, heap) := wakeupLoop now stale m.queue m.daemon.heap
  { m.setHeap heap with queue := queue }

/-! ### Reloading -/

def unqueue (svc : HostInfo) : HostInfo := { svc with queued := false }

/-- `fast_cleanup_checks`. A check that was started is stopped, and its object's flag stays. -/
def fastCleanupChecks (m : Monitor) : Monitor :=
  if m.numqueued = 0 then m
  else
    let heap := m.queue.foldl (fun heap here =>
      if here.started then heap else updateData heap here.checkent unqueue) m.daemon.heap
    { m.setHeap heap with queue := [], numqueued := m.numqueued - m.queue.length }

def reload (m : Monitor) (env : Env) (file : Option (List Token)) : Monitor :=
  let m := fastCleanupChecks m
  { m with daemon := m.daemon.sighup env file }

inductive Event where
  | queue (r : Ref)
  | service (pass : Pass)
  | ready (answer : Ref → Int16) (ready : Ref → Bool)
  | wakeup (now : Time) (stale : Ref → Bool)
  | reload (env : Env) (file : Option (List Token))

def Monitor.step (m : Monitor) : Event → Monitor
  | .queue r => queueCheck m r
  | .service pass => serviceChecks m pass
  | .ready answer ready => serviceReady m answer ready
  | .wakeup now stale => wakeupChecks m now stale
  | .reload env file => Queue.reload m env file

/-- A daemon that has just read its configuration. -/
def Monitor.boot (globals : Scratch) (env : Env) (tokens : List Token) : Monitor :=
  let (daemon, root) := loadconfig ⟨fun _ => none, 0, [], [], none, globals⟩ env (some tokens)
  { daemon := { daemon with currenthead := root }
    queue := []
    numqueued := 0
    globChangeSeq := 0
    notices := [] }

/-! ### The flags -/

/-- The `queued` flag behind a reference, if the object is there. -/
def queuedFlag (heap : Heap) (r : Ref) : Option Bool := (heap r).map fun element => element.data.queued

def refs (queue : List Monitorent) : List Ref := queue.map Monitorent.checkent

/-- The count, the entries and the flags agree. A reference to an object that has been freed is not
in the queue. -/
structure QueueOk (m : Monitor) : Prop where
  count : m.numqueued = m.queue.length
  once : (refs m.queue).Nodup
  flag : ∀ r, queuedFlag m.daemon.heap r = some true ↔ r ∈ refs m.queue

/-- Every object belongs to the tree that is being walked, and references are given out once. -/
structure Owned (d : Daemon) : Prop where
  tree : ∀ r, (d.heap r).isSome → r ∈ d.currenthead
  bound : ∀ r, d.next ≤ r → d.heap r = none

theorem queuedFlag_updateData {heap : Heap} {r r' : Ref} {f : HostInfo → HostInfo} :
    queuedFlag (updateData heap r f) r' =
      if r' = r then (heap r).map fun element => (f element.data).queued
      else queuedFlag heap r' := by
  rw [queuedFlag, updateData]
  split
  case isTrue heq =>
    subst heq
    rw [Function.update_self, Option.map_map]
    rfl
  case isFalse hne =>
    rw [Function.update_of_ne hne]
    rfl

/-- A change that leaves the flag alone. -/
theorem queuedFlag_updateData_of_eq {heap : Heap} {r r' : Ref} {f : HostInfo → HostInfo}
    (hf : ∀ svc, (f svc).queued = svc.queued) :
    queuedFlag (updateData heap r f) r' = queuedFlag heap r' := by
  rw [queuedFlag_updateData]
  split
  case isTrue heq =>
    subst heq
    simp only [hf]
    rfl
  case isFalse => rfl

theorem isSome_queuedFlag (heap : Heap) (r : Ref) : (queuedFlag heap r).isSome = (heap r).isSome := by
  rw [queuedFlag, Option.isSome_map]

/-- What keeps objects where they are keeps them owned. -/
theorem Owned.setHeap {d : Daemon} (h : Owned d) {heap : Heap}
    (hsome : ∀ r, (queuedFlag heap r).isSome = (queuedFlag d.heap r).isSome) :
    Owned { d with heap := heap } where
  tree := by
    intro r hr
    apply h.tree
    rwa [← isSome_queuedFlag, ← hsome, isSome_queuedFlag]
  bound := by
    intro r hr
    have hnone : (queuedFlag heap r).isSome = false := by
      rw [hsome, isSome_queuedFlag, h.bound r hr]
      rfl
    rw [isSome_queuedFlag] at hnone
    simpa using hnone

/-! ### What the operations do to the flags -/

/-- An operation on the queue leaves the tree alone, apart from what is in the objects. -/
structure SameTree (m m' : Monitor) : Prop where
  daemon : m'.daemon = { m.daemon with heap := m'.daemon.heap }
  some : ∀ r, (queuedFlag m'.daemon.heap r).isSome = (queuedFlag m.daemon.heap r).isSome

theorem SameTree.owned {m m' : Monitor} (h : SameTree m m') (howned : Owned m.daemon) :
    Owned m'.daemon := by
  rw [h.daemon]
  exact howned.setHeap h.some

variable {m : Monitor}

theorem queueCheck_spec (m : Monitor) (r : Ref) :
    queueCheck m r = m ∨
      queuedFlag m.daemon.heap r = some false ∧
        queueCheck m r =
          { m.setHeap (updateData m.daemon.heap r markQueued) with
            queue := newEntry r :: m.queue
            numqueued := m.numqueued + 1 } := by
  cases hheap : m.daemon.heap r with
  | none =>
      left
      simp only [queueCheck, hheap]
  | some element =>
      cases hqueued : element.data.queued with
      | true =>
          left
          simp only [queueCheck, hheap, hqueued, if_true]
      | false =>
          right
          refine ⟨by simp [queuedFlag, hheap, hqueued], ?_⟩
          simp only [queueCheck, hheap, hqueued, Bool.false_eq_true, if_false]

theorem sameTree_queueCheck (m : Monitor) (r : Ref) : SameTree m (queueCheck m r) := by
  obtain hsame | ⟨-, hdone⟩ := queueCheck_spec m r
  · rw [hsame]
    exact ⟨rfl, fun _ => rfl⟩
  · rw [hdone]
    refine ⟨rfl, fun r' => ?_⟩
    show (queuedFlag (updateData m.daemon.heap r markQueued) r').isSome = _
    rw [queuedFlag_updateData]
    split
    case isTrue heq =>
      subst heq
      rw [Option.isSome_map, isSome_queuedFlag]
    case isFalse => rfl

theorem queueOk_queueCheck (h : QueueOk m) (r : Ref) : QueueOk (queueCheck m r) := by
  obtain hsame | ⟨hfree, hdone⟩ := queueCheck_spec m r
  · rw [hsame]
    exact h
  · have hnew : r ∉ refs m.queue := by
      intro hmem
      rw [← h.flag, hfree] at hmem
      exact absurd hmem (by simp)
    rw [hdone]
    refine ⟨?_, ?_, fun r' => ?_⟩
    · show m.numqueued + 1 = ((newEntry r :: m.queue).length : Int)
      rw [List.length_cons, h.count]
      omega
    · show (r :: refs m.queue).Nodup
      exact List.nodup_cons.mpr ⟨hnew, h.once⟩
    · show queuedFlag (updateData m.daemon.heap r markQueued) r' = some true ↔ r' ∈ r :: refs m.queue
      rw [queuedFlag_updateData, List.mem_cons]
      by_cases heq : r' = r
      · subst heq
        rw [queuedFlag, Option.map_eq_some_iff] at hfree
        obtain ⟨element, hheap, -⟩ := hfree
        simp [hheap, markQueued]
      · rw [if_neg heq, h.flag]
        simp [heq]

/-- The flags after the objects of a list of references have left the queue. -/
def Cleared (left : List Ref) (heap heap' : Heap) : Prop :=
  ∀ r, queuedFlag heap' r =
    if r ∈ left then (queuedFlag heap r).map fun _ => false else queuedFlag heap r

theorem cleared_nil (heap : Heap) : Cleared [] heap heap := fun _ => (if_neg List.not_mem_nil).symm

theorem Cleared.cons {left : List Ref} {r : Ref} {heap heap' heap'' : Heap}
    (h : Cleared [r] heap heap') (h' : Cleared left heap' heap'') : Cleared (r :: left) heap heap'' := by
  intro r'
  rw [h', h]
  by_cases heq : r' = r
  · subst heq
    cases queuedFlag heap r' <;> simp
  · simp [heq]

theorem Cleared.isSome {left : List Ref} {heap heap' : Heap} (h : Cleared left heap heap') (r : Ref) :
    (queuedFlag heap' r).isSome = (queuedFlag heap r).isSome := by
  rw [h]
  split
  · rw [Option.isSome_map]
  · rfl

theorem Cleared.flag_iff {left : List Ref} {heap heap' : Heap} (h : Cleared left heap heap') (r : Ref) :
    queuedFlag heap' r = some true ↔ r ∉ left ∧ queuedFlag heap r = some true := by
  rw [h]
  split
  case isTrue hmem => simp [hmem]
  case isFalse hmem => simp [hmem]

theorem complete_spec (pass : Pass) (m : Monitor) (here : Monitorent) :
    (complete pass m here).numqueued = m.numqueued - 1 ∧
      (complete pass m here).daemon =
        { m.daemon with heap := (complete pass m here).daemon.heap } ∧
      Cleared [here.checkent] m.daemon.heap (complete pass m here).daemon.heap := by
  cases hheap : m.daemon.heap here.checkent with
  | none =>
      simp only [complete, hheap]
      refine ⟨trivial, trivial, fun r => ?_⟩
      split
      case isTrue hmem =>
        rw [List.mem_singleton.mp hmem, queuedFlag, hheap]
        rfl
      case isFalse => rfl
  | some element =>
      simp only [complete, hheap]
      refine ⟨trivial, rfl, fun r => ?_⟩
      rw [Monitor.setHeap_heap, queuedFlag_updateData]
      by_cases heq : r = here.checkent
      · subst heq
        simp [queuedFlag, hheap, leaveQueue]
      · simp [heq]

/-- The entries with a result, and those without. -/
def finished (queue : List Monitorent) : List Monitorent := queue.filter fun here => here.retval ≠ -1

def pending (queue : List Monitorent) : List Monitorent := queue.filter fun here => here.retval = -1

theorem serviceLoop_spec (pass : Pass) (todo : List Monitorent) (m : Monitor) :
    refs (serviceLoop pass todo m).queue = refs (pending todo) ∧
      (serviceLoop pass todo m).numqueued = m.numqueued - (finished todo).length ∧
      (serviceLoop pass todo m).daemon =
        { m.daemon with heap := (serviceLoop pass todo m).daemon.heap } ∧
      Cleared (refs (finished todo)) m.daemon.heap (serviceLoop pass todo m).daemon.heap := by
  induction todo generalizing m with
  | nil =>
      refine ⟨rfl, ?_, rfl, cleared_nil _⟩
      show m.numqueued = m.numqueued - 0
      omega
  | cons here rest ih =>
      by_cases hret : here.retval = -1
      · have hpending : pending (here :: rest) = here :: pending rest := by simp [pending, hret]
        have hfinished : finished (here :: rest) = finished rest := by simp [finished, hret]
        obtain ⟨hrefs, hcount, hdaemon, hcleared⟩ := ih m
        rw [serviceLoop, if_pos hret, hpending, hfinished]
        refine ⟨?_, hcount, hdaemon, hcleared⟩
        show here.checkent :: refs (serviceLoop pass rest m).queue = here.checkent :: refs (pending rest)
        rw [hrefs]
      · have hpending : pending (here :: rest) = pending rest := by simp [pending, hret]
        have hfinished : finished (here :: rest) = here :: finished rest := by simp [finished, hret]
        obtain ⟨hrefs, hcount, hdaemon, hcleared⟩ := ih (complete pass m here)
        obtain ⟨hone, hkept, hleft⟩ := complete_spec pass m here
        rw [serviceLoop, if_neg hret, hpending, hfinished]
        refine ⟨hrefs, ?_, ?_, hleft.cons hcleared⟩
        · rw [hcount, hone, List.length_cons]
          omega
        · rw [hdaemon, hkept]

theorem sameTree_serviceChecks (m : Monitor) (pass : Pass) : SameTree m (serviceChecks m pass) := by
  obtain ⟨-, -, hdaemon, hcleared⟩ := serviceLoop_spec pass m.queue m
  exact ⟨hdaemon, hcleared.isSome⟩

/-- An object has one entry, so it is on one side of a split of the queue or on the other. -/
theorem mem_refs_filter {queue : List Monitorent} {p : Monitorent → Bool} (hone : (refs queue).Nodup)
    (r : Ref) : r ∈ refs (queue.filter p) ↔ r ∉ refs (queue.filter fun here => !p here) ∧ r ∈ refs queue := by
  induction queue with
  | nil => simp [refs]
  | cons here rest ih =>
      obtain ⟨hnew, hrest⟩ := List.nodup_cons.mp hone
      have hsub : ∀ q : Monitorent → Bool, here.checkent ∉ refs (rest.filter q) := by
        intro q hmem
        obtain ⟨entry, hentry, heq⟩ := List.mem_map.mp hmem
        exact hnew (List.mem_map.mpr ⟨entry, List.mem_of_mem_filter hentry, heq⟩)
      have hcons : ∀ entries, refs (here :: entries) = here.checkent :: refs entries := fun _ => rfl
      by_cases heq : r = here.checkent
      · subst heq
        cases hp : p here <;> simp [hp, hcons, hsub]
      · cases hp : p here <;> simp [hp, hcons, heq, ih hrest]

theorem queueOk_serviceChecks (h : QueueOk m) (pass : Pass) : QueueOk (serviceChecks m pass) := by
  obtain ⟨hrefs, hcount, -, hcleared⟩ := serviceLoop_spec pass m.queue m
  have hlength : (serviceChecks m pass).queue.length = (pending m.queue).length := by
    have hmap := congrArg List.length hrefs
    simpa [refs, serviceChecks] using hmap
  have hsplit : m.queue.length = (pending m.queue).length + (finished m.queue).length := by
    simp only [pending, finished, ne_eq, decide_not]
    exact List.length_eq_length_filter_add _
  refine ⟨?_, ?_, fun r => ?_⟩
  · rw [hlength]
    show (serviceLoop pass m.queue m).numqueued = _
    rw [hcount, h.count, hsplit]
    omega
  · show (refs (serviceLoop pass m.queue m).queue).Nodup
    rw [hrefs]
    exact h.once.sublist (List.filter_sublist.map _)
  · show queuedFlag (serviceLoop pass m.queue m).daemon.heap r = some true ↔
      r ∈ refs (serviceLoop pass m.queue m).queue
    rw [hrefs, hcleared.flag_iff, h.flag]
    have hside := mem_refs_filter (p := fun here => decide (here.retval = -1)) h.once r
    rw [pending, hside]
    simp only [finished, ne_eq, decide_not]

theorem serviceReady_spec (m : Monitor) (answer : Ref → Int16) (ready : Ref → Bool) :
    refs (serviceReady m answer ready).queue = refs m.queue ∧
      (serviceReady m answer ready).queue.length = m.queue.length := by
  refine ⟨?_, List.length_map _⟩
  simp only [refs, serviceReady, List.map_map]
  refine List.map_congr_left fun here _ => ?_
  simp only [Function.comp_apply]
  split <;> rfl

theorem queueOk_serviceReady (h : QueueOk m) (answer : Ref → Int16) (ready : Ref → Bool) :
    QueueOk (serviceReady m answer ready) := by
  obtain ⟨hrefs, hlength⟩ := serviceReady_spec m answer ready
  refine ⟨?_, hrefs ▸ h.once, fun r => ?_⟩
  · rw [hlength]
    exact h.count
  · rw [hrefs]
    exact h.flag r

theorem wakeIfStale_spec (now : Time) (stale : Ref → Bool) (heap : Heap) (here : Monitorent) :
    (wakeIfStale now stale heap here).1.checkent = here.checkent ∧
      ∀ r, queuedFlag (wakeIfStale now stale heap here).2 r = queuedFlag heap r := by
  simp only [wakeIfStale, wakeUp]
  split
  · split
    · exact ⟨rfl, fun _ => rfl⟩
    · exact ⟨rfl, fun _ => queuedFlag_updateData_of_eq fun _ => rfl⟩
  · exact ⟨rfl, fun _ => rfl⟩

theorem wakeupLoop_spec (now : Time) (stale : Ref → Bool) (queue : List Monitorent) (heap : Heap) :
    refs (wakeupLoop now stale queue heap).1 = refs queue ∧
      ∀ r, queuedFlag (wakeupLoop now stale queue heap).2 r = queuedFlag heap r := by
  induction queue generalizing heap with
  | nil => exact ⟨rfl, fun _ => rfl⟩
  | cons here rest ih =>
      obtain ⟨hentry, hfirst⟩ := wakeIfStale_spec now stale heap here
      obtain ⟨hrefs, hflags⟩ := ih (wakeIfStale now stale heap here).2
      refine ⟨?_, fun r => (hflags r).trans (hfirst r)⟩
      show (wakeIfStale now stale heap here).1.checkent ::
        refs (wakeupLoop now stale rest (wakeIfStale now stale heap here).2).1 =
          here.checkent :: refs rest
      rw [hrefs, hentry]

theorem sameTree_wakeupChecks (m : Monitor) (now : Time) (stale : Ref → Bool) :
    SameTree m (wakeupChecks m now stale) :=
  ⟨rfl, fun r => congrArg Option.isSome ((wakeupLoop_spec now stale m.queue m.daemon.heap).2 r)⟩

theorem queueOk_wakeupChecks (h : QueueOk m) (now : Time) (stale : Ref → Bool) :
    QueueOk (wakeupChecks m now stale) := by
  obtain ⟨hrefs, hflags⟩ := wakeupLoop_spec now stale m.queue m.daemon.heap
  have hlength : (wakeupLoop now stale m.queue m.daemon.heap).1.length = m.queue.length := by
    have hmap := congrArg List.length hrefs
    simpa [refs] using hmap
  refine ⟨?_, hrefs ▸ h.once, fun r => ?_⟩
  · show m.numqueued = ((wakeupLoop now stale m.queue m.daemon.heap).1.length : Int)
    rw [hlength]
    exact h.count
  · show queuedFlag (wakeupLoop now stale m.queue m.daemon.heap).2 r = some true ↔
      r ∈ refs (wakeupLoop now stale m.queue m.daemon.heap).1
    rw [hrefs, hflags]
    exact h.flag r

/-! ### The cleanup before a reload -/

theorem cleared_unqueue (heap : Heap) (r : Ref) : Cleared [r] heap (updateData heap r unqueue) := by
  intro r'
  rw [queuedFlag_updateData]
  by_cases heq : r' = r
  · subst heq
    simp [queuedFlag, unqueue, Function.comp_def]
  · simp [heq]

theorem cleared_cleanup (queue : List Monitorent) (heap : Heap) :
    Cleared (refs (queue.filter fun here => !here.started)) heap
      (queue.foldl (fun heap here =>
        if here.started then heap else updateData heap here.checkent unqueue) heap) := by
  induction queue generalizing heap with
  | nil => exact cleared_nil heap
  | cons here rest ih =>
      cases hstarted : here.started with
      | true => simpa [hstarted] using ih heap
      | false => simpa [hstarted, refs] using (cleared_unqueue heap here.checkent).cons (ih _)

theorem sameTree_fastCleanupChecks (m : Monitor) : SameTree m (fastCleanupChecks m) := by
  by_cases hzero : m.numqueued = 0
  · rw [fastCleanupChecks, if_pos hzero]
    exact ⟨rfl, fun _ => rfl⟩
  · rw [fastCleanupChecks, if_neg hzero]
    exact ⟨rfl, (cleared_cleanup m.queue m.daemon.heap).isSome⟩

/-- The queue is gone, and the flags that are left are those of the checks that had been started. -/
theorem fastCleanupChecks_spec (h : QueueOk m) :
    (fastCleanupChecks m).queue = [] ∧ (fastCleanupChecks m).numqueued = 0 ∧
      ∀ r, queuedFlag (fastCleanupChecks m).daemon.heap r = some true ↔
        r ∈ refs (m.queue.filter Monitorent.started) := by
  by_cases hzero : m.numqueued = 0
  · have hempty : m.queue = [] := by
      have hcount := h.count
      rw [hzero] at hcount
      exact List.length_eq_zero_iff.mp (by omega)
    rw [fastCleanupChecks, if_pos hzero]
    refine ⟨hempty, hzero, fun r => ?_⟩
    rw [h.flag, hempty]
    rfl
  · rw [fastCleanupChecks, if_neg hzero]
    refine ⟨rfl, ?_, fun r => ?_⟩
    · show m.numqueued - m.queue.length = 0
      rw [h.count]
      omega
    · rw [mem_refs_filter h.once, ← h.flag]
      exact (cleared_cleanup m.queue m.daemon.heap).flag_iff r

/-! ### The reload itself -/

theorem queued_closes {env : Env} {s : Scratch} {element : Element}
    (h : closes env s = some element) : element.data.queued = false := by
  simp only [closes, built] at h
  repeat' split at h
  all_goals cases h
  rfl

/-- A new object is not in the queue. -/
theorem queued_yylex (env : Env) {s : Scratch} (tokens : List Token)
    (h : ∀ element ∈ s.head, element.data.queued = false) :
    ∀ element ∈ (yylex env s tokens).head, element.data.queued = false := by
  induction tokens generalizing s with
  | nil => exact h
  | cons token tokens ih =>
      rw [yylex, Run.exec_cons]
      refine ih fun element hmem => ?_
      rw [head_token, List.mem_append, Option.mem_toList] at hmem
      obtain hbuilt | hmem := hmem
      · split at hbuilt
        · exact queued_closes hbuilt
        · exact absurd hbuilt (by simp)
      · exact h element hmem

variable {d : Daemon} {env : Env} {file : Option (List Token)}

/-- After a file has been read: the old objects are where they were, and the new ones, which are
those `loadconfig` returns, are not queued. -/
theorem loadconfig_spec (howned : Owned d) (env : Env) (file : Option (List Token)) :
    (∀ r ∈ (loadconfig d env file).2,
        d.heap r = none ∧ queuedFlag (loadconfig d env file).1.heap r = some false) ∧
      (∀ r ∉ (loadconfig d env file).2, (loadconfig d env file).1.heap r = d.heap r) ∧
      ∀ r, (loadconfig d env file).1.next ≤ r →
        r ∉ (loadconfig d env file).2 ∧ d.heap r = none := by
  cases file with
  | none =>
      refine ⟨fun r hr => absurd hr List.not_mem_nil, fun r _ => rfl, fun r hr => ?_⟩
      exact ⟨List.not_mem_nil, howned.bound r hr⟩
  | some tokens =>
      set parsed := (yylex env d.scratch.fresh tokens).head with hparsed
      have hnew : ∀ element ∈ parsed, element.data.queued = false :=
        queued_yylex env tokens fun element hmem => absurd hmem List.not_mem_nil
      show (∀ r ∈ List.range' d.next parsed.length,
          d.heap r = none ∧ queuedFlag (allocate d.heap d.next parsed) r = some false) ∧
        (∀ r ∉ List.range' d.next parsed.length, allocate d.heap d.next parsed r = d.heap r) ∧
        ∀ r, d.next + parsed.length ≤ r → r ∉ List.range' d.next parsed.length ∧ d.heap r = none
      simp only [List.mem_range'_1]
      refine ⟨fun r hr => ⟨howned.bound r hr.1, ?_⟩, fun r hr => if_neg hr, fun r hr => ⟨?_, ?_⟩⟩
      · have hlt : r - d.next < parsed.length := by
          obtain ⟨hge, hlt⟩ := hr
          exact Nat.sub_lt_left_of_lt_add hge hlt
        rw [queuedFlag, allocate, if_pos hr, List.getElem?_eq_getElem hlt]
        exact congrArg some (hnew _ (List.getElem_mem hlt))
      · exact fun hmem => absurd hmem.2 (Nat.not_lt.mpr hr)
      · exact howned.bound r (Nat.le_trans (Nat.le_add_right _ _) hr)

/-- A rejected configuration leaves the objects and the tree as they were. -/
theorem sighup_rejected_spec (howned : Owned d)
    (hbad : (loadconfig d env file).1.scratch.badconfig = true) :
    (d.sighup env file).heap = d.heap ∧ Owned (d.sighup env file) := by
  obtain ⟨hnew, hkept, hbound⟩ := loadconfig_spec howned env file
  have hheap : (d.sighup env file).heap = d.heap := by
    rw [sighup_rejected hbad]
    funext r
    show freeTree _ _ r = _
    by_cases hmem : r ∈ (loadconfig d env file).2
    · rw [freeTree, if_pos hmem, (hnew r hmem).1]
    · rw [freeTree, if_neg hmem, hkept r hmem]
  refine ⟨hheap, fun r hr => ?_, fun r hr => ?_⟩
  · rw [hheap] at hr
    rw [sighup_rejected hbad]
    show r ∈ (loadconfig d env file).1.currenthead
    rw [currenthead_loadconfig]
    exact howned.tree r hr
  · rw [hheap]
    rw [sighup_rejected hbad] at hr
    exact (hbound r hr).2

/-- After an accepted one there are only new objects, and none of them is queued. -/
theorem sighup_accepted_spec (howned : Owned d)
    (hgood : (loadconfig d env file).1.scratch.badconfig = false) :
    (∀ r, queuedFlag (d.sighup env file).heap r ≠ some true) ∧ Owned (d.sighup env file) := by
  obtain ⟨hnew, hkept, hbound⟩ := loadconfig_spec howned env file
  have hflag : ∀ r, queuedFlag (d.sighup env file).heap r =
      if r ∈ d.currenthead then none else queuedFlag (loadconfig d env file).1.heap r := by
    intro r
    rw [sighup_accepted hgood]
    show queuedFlag (freeTree _ _) r = _
    rw [queuedFlag, freeTree]
    split
    · rfl
    · exact map_copyAlerts (fun _ _ => rfl) _ _ _ r
  -- an old object is in the old tree and gone, a new one is not queued
  have hcases : ∀ r, queuedFlag (d.sighup env file).heap r = none ∨
      r ∈ (loadconfig d env file).2 ∧ queuedFlag (d.sighup env file).heap r = some false := by
    intro r
    rw [hflag]
    by_cases htree : r ∈ d.currenthead
    · exact Or.inl (if_pos htree)
    · rw [if_neg htree]
      by_cases hmem : r ∈ (loadconfig d env file).2
      · exact Or.inr ⟨hmem, (hnew r hmem).2⟩
      · left
        rw [queuedFlag, hkept r hmem]
        cases hheap : d.heap r with
        | none => rfl
        | some element => exact absurd (howned.tree r (by simp [hheap])) htree
  refine ⟨fun r => ?_, fun r hr => ?_, fun r hr => ?_⟩
  · obtain hnone | ⟨-, hfalse⟩ := hcases r
    · rw [hnone]
      exact (Option.some_ne_none _).symm
    · rw [hfalse]
      exact fun heq => absurd heq (by simp)
  · rw [← isSome_queuedFlag] at hr
    obtain hnone | ⟨hmem, -⟩ := hcases r
    · rw [hnone] at hr
      exact absurd hr (by simp)
    · rw [sighup_accepted hgood]
      exact hmem
  · have hnot : r ∉ (loadconfig d env file).2 := by
      rw [sighup_accepted hgood] at hr
      exact (hbound r hr).1
    obtain hnone | ⟨hmem, -⟩ := hcases r
    · simpa [queuedFlag] using hnone
    · exact absurd hmem hnot

theorem badconfig_fastCleanupChecks (m : Monitor) :
    (fastCleanupChecks m).daemon.scratch.badconfig = m.daemon.scratch.badconfig := by
  rw [(sameTree_fastCleanupChecks m).daemon]

/-- The reload will be turned down: the file is objected to, or an earlier one was. -/
def turnedDown (m : Monitor) (file : Option (List Token)) : Bool :=
  m.daemon.scratch.badconfig || (file.getD []).any objectionable

theorem badconfig_reload (m : Monitor) (env : Env) (file : Option (List Token)) :
    (loadconfig (fastCleanupChecks m).daemon env file).1.scratch.badconfig = turnedDown m file := by
  rw [badconfig_loadconfig, badconfig_fastCleanupChecks, turnedDown]

theorem owned_reload (howned : Owned m.daemon) (env : Env) (file : Option (List Token)) :
    Owned (reload m env file).daemon := by
  have hclean : Owned (fastCleanupChecks m).daemon := (sameTree_fastCleanupChecks m).owned howned
  cases hdown : turnedDown m file with
  | true => exact (sighup_rejected_spec hclean ((badconfig_reload m env file).trans hdown)).2
  | false => exact (sighup_accepted_spec hclean ((badconfig_reload m env file).trans hdown)).2

/-- With the queue emptied, all is well if no flag is left. -/
theorem queueOk_reload_iff_flags (h : QueueOk m) (env : Env) (file : Option (List Token)) :
    QueueOk (reload m env file) ↔
      ∀ r, queuedFlag (reload m env file).daemon.heap r ≠ some true := by
  obtain ⟨hempty, hzero, -⟩ := fastCleanupChecks_spec h
  have hqueue : (reload m env file).queue = [] := hempty
  constructor
  · intro hok r hflag
    rw [hok.flag, hqueue] at hflag
    exact absurd hflag List.not_mem_nil
  · intro hflags
    refine ⟨?_, ?_, fun r => ⟨fun hflag => absurd hflag (hflags r), fun hmem => ?_⟩⟩
    · rw [hqueue]
      exact hzero
    · rw [hqueue]
      exact List.nodup_nil
    · rw [hqueue] at hmem
      exact absurd hmem List.not_mem_nil

theorem queueOk_reload_iff (howned : Owned m.daemon) (h : QueueOk m) (env : Env)
    (file : Option (List Token)) :
    QueueOk (reload m env file) ↔
      (turnedDown m file = true → ∀ here ∈ m.queue, here.started = false) := by
  have hclean : Owned (fastCleanupChecks m).daemon := (sameTree_fastCleanupChecks m).owned howned
  obtain ⟨-, -, hleft⟩ := fastCleanupChecks_spec h
  rw [queueOk_reload_iff_flags h]
  cases hdown : turnedDown m file with
  | false =>
      have haccepted := sighup_accepted_spec hclean ((badconfig_reload m env file).trans hdown)
      exact ⟨fun _ hfalse => absurd hfalse (by decide), fun _ => haccepted.1⟩
  | true =>
      obtain ⟨hheap, -⟩ := sighup_rejected_spec hclean ((badconfig_reload m env file).trans hdown)
      have hflag : ∀ r, queuedFlag (reload m env file).daemon.heap r = some true ↔
          r ∈ refs (m.queue.filter Monitorent.started) := by
        intro r
        show queuedFlag ((fastCleanupChecks m).daemon.sighup env file).heap r = some true ↔ _
        rw [hheap, hleft]
      simp only [ne_eq, hflag, refs, List.mem_map, List.mem_filter]
      constructor
      · intro hnone _ here hmem
        by_contra hstarted
        exact hnone here.checkent ⟨here, ⟨hmem, by simpa using hstarted⟩, rfl⟩
      · rintro hnone r ⟨here, ⟨hmem, hstarted⟩, -⟩
        rw [hnone trivial here hmem] at hstarted
        exact absurd hstarted (by decide)

/-! ### Runs -/

/-- An object that is there is in the queue after an attempt to queue it. -/
def Checkable (m : Monitor) : Prop := ∀ r, (m.daemon.heap r).isSome → r ∈ refs (queueCheck m r).queue

theorem checkable_of_queueOk (h : QueueOk m) : Checkable m := by
  intro r hlive
  obtain ⟨element, hheap⟩ := Option.isSome_iff_exists.mp hlive
  have hflag : queuedFlag m.daemon.heap r = some element.data.queued := by simp [queuedFlag, hheap]
  cases hqueued : element.data.queued with
  | true =>
      have hmem : r ∈ refs m.queue := by rw [← h.flag, hflag, hqueued]
      simpa [queueCheck, hheap, hqueued] using hmem
  | false => simp [queueCheck, hheap, hqueued, refs, newEntry]

/-- A reload that is turned down finds no check that has been started. -/
def stopsNothing (m : Monitor) : Event → Prop
  | .reload _ file => turnedDown m file = true → ∀ here ∈ m.queue, here.started = false
  | _ => True

theorem owned_step (m : Monitor) (event : Event) (howned : Owned m.daemon) :
    Owned (m.step event).daemon := by
  cases event with
  | queue r => exact (sameTree_queueCheck m r).owned howned
  | service pass => exact (sameTree_serviceChecks m pass).owned howned
  | ready answer ready => exact howned
  | wakeup now stale => exact (sameTree_wakeupChecks m now stale).owned howned
  | reload env file => exact owned_reload howned env file

theorem queueOk_step_iff (m : Monitor) (event : Event) (howned : Owned m.daemon) (h : QueueOk m) :
    QueueOk (m.step event) ↔ stopsNothing m event := by
  cases event with
  | queue r => exact iff_of_true (queueOk_queueCheck h r) trivial
  | service pass => exact iff_of_true (queueOk_serviceChecks h pass) trivial
  | ready answer ready => exact iff_of_true (queueOk_serviceReady h answer ready) trivial
  | wakeup now stale => exact iff_of_true (queueOk_wakeupChecks h now stale) trivial
  | reload env file => exact queueOk_reload_iff howned h env file

theorem boot_spec (globals : Scratch) (env : Env) (tokens : List Token) :
    Owned (Monitor.boot globals env tokens).daemon ∧ QueueOk (Monitor.boot globals env tokens) := by
  set unstarted : Daemon := ⟨fun _ => none, 0, [], [], none, globals⟩
  have howned : Owned unstarted := ⟨fun r hr => absurd hr (by simp [unstarted]), fun _ _ => rfl⟩
  obtain ⟨hnew, hkept, hbound⟩ := loadconfig_spec howned env (some tokens)
  have hold : ∀ r ∉ (loadconfig unstarted env (some tokens)).2,
      (loadconfig unstarted env (some tokens)).1.heap r = none := hkept
  refine ⟨⟨fun r hr => ?_, fun r hr => hold r (hbound r hr).1⟩, rfl, List.nodup_nil, fun r => ?_⟩
  · by_contra hmem
    have hnone : (Monitor.boot globals env tokens).daemon.heap r = none := hold r hmem
    rw [hnone] at hr
    exact absurd hr (by simp)
  · refine ⟨fun hflag => ?_, fun hmem => absurd hmem List.not_mem_nil⟩
    exfalso
    change queuedFlag (loadconfig unstarted env (some tokens)).1.heap r = some true at hflag
    by_cases hmem : r ∈ (loadconfig unstarted env (some tokens)).2
    · rw [(hnew r hmem).2] at hflag
      exact absurd hflag (by simp)
    · rw [queuedFlag, hold r hmem] at hflag
      exact absurd hflag (by simp)

/-- In a run of a daemon the count, the entries and the flags agree all the way, and every object can
be checked, exactly when no reload that is turned down stops a check. -/
theorem queueOk_always_iff (globals : Scratch) (env : Env) (tokens : List Token)
    (events : List Event) :
    Run.Always Monitor.step (fun m => QueueOk m ∧ Checkable m) (Monitor.boot globals env tokens) events ↔
      Run.Guarded Monitor.step stopsNothing (Monitor.boot globals env tokens) events := by
  have hprop : (fun m => QueueOk m ∧ Checkable m) = QueueOk :=
    funext fun m => propext (and_iff_left_of_imp checkable_of_queueOk)
  obtain ⟨howned, hok⟩ := boot_spec globals env tokens
  rw [hprop]
  exact Run.always_iff_guarded (I := fun m => Owned m.daemon) owned_step queueOk_step_iff howned hok

/-- A pass in which no check comes to a result. -/
def idlePass : Pass where
  donotify := false
  now := 0
  answer := fun _ => -1
  env := fun _ => ⟨⟨true, true, true, true, true, 0, []⟩, ⟨true, true, true, true, true, 0, []⟩⟩

/-- A check of the only host is started and a configuration is turned down. The host is watched as
before, its flag is up, the queue is empty, and the host cannot be queued again. -/
theorem rejected_reload_strands_check :
    ¬ Run.Always Monitor.step (fun m => QueueOk m ∧ Checkable m)
      (Monitor.boot Scratch.atStart resolving oneHost)
      [.queue 0, .service idlePass, .reload resolving (some badSitename)] := by
  intro h
  obtain ⟨-, hcheckable⟩ := h _ List.prefix_rfl
  exact absurd (hcheckable 0 (by decide)) (by decide)

end Sysmon.Queue
