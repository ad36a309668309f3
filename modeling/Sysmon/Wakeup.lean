import Sysmon.Schedule
import Sysmon.Sweep

/-!
# What becomes of stale checks

`wakeup_checks` of `syswatch.c` over whole runs of the daemon. It times a check out that does not come to a result, and
means to kill it when that has happened often enough; but the count is kept in the entry, and every attempt has an entry
of its own. It also means the object to be tried again at once, and sets a time that `service_checks` overwrites and the
queueing does not read.

What the runs have been through is carried along: how many attempts of an object in a row have been swept up, how often
that happened to the one in the queue, and when a time-out was handled that no queueing pass has followed yet.
-/

open Sysmon.Parser

namespace Sysmon.Wakeup

open Sysmon.Reload Sysmon.Queue Sysmon.Schedule

/-- A queueing pass, of which the objects are given that the walk gets to and the queue has room for. -/
def queueChecks (now : Time) (reached : List Ref) (m : Monitor) : Monitor :=
  (reached.filter (isDue m.daemon.heap now)).foldl queueCheck m

inductive Event where
  | queueChecks (now : Time) (reached : List Ref)
  | daemon (event : Queue.Event)

def advance (m : Monitor) : Event → Monitor
  | .queueChecks now reached => queueChecks now reached m
  | .daemon event => m.step event

structure Observed where
  monitor : Monitor
  /-- So many attempts were swept up before this one, in a row. -/
  attempts : Ref → Nat
  /-- So often has the sweep found the entry since it found it unfinished. -/
  sweeps : Ref → Nat
  timedOut : Ref → Option Time

/-- The sweep finds an entry of the object, which is unfinished or was when the sweep first found it. -/
def sweptUp (w : Observed) (stale : Ref → Bool) (r : Ref) : Bool :=
  stale r && w.monitor.queue.any fun here => here.checkent = r && (here.retval = -1 || 0 < w.sweeps r)

/-- The result that is handled is the time-out of a sweep. -/
def timesOut (w : Observed) (r : Ref) : Bool :=
  decide (0 < w.sweeps r) && (resultOf w.monitor.queue r == some Result.timedout)

def Observed.attemptsAfter (w : Observed) : Event → Ref → Nat
  | .daemon (.service _), r =>
      if r ∈ refs (finished w.monitor.queue) then if 0 < w.sweeps r then w.attempts r + 1 else 0 else w.attempts r
  | .daemon (.reload _ file), r =>
      if turnedDown w.monitor file ∧ r ∉ refs w.monitor.queue then w.attempts r else 0
  | _, r => w.attempts r

def Observed.sweepsAfter (w : Observed) : Event → Ref → Nat
  | .daemon (.wakeup _ stale), r => if sweptUp w stale r then w.sweeps r + 1 else w.sweeps r
  | .daemon (.service _), r => if r ∈ refs (finished w.monitor.queue) then 0 else w.sweeps r
  | .daemon (.reload _ _), _ => 0
  | _, r => w.sweeps r

def Observed.timedOutAfter (w : Observed) : Event → Ref → Option Time
  | .queueChecks _ _, _ => none
  | .daemon (.service pass), r =>
      if r ∈ refs (finished w.monitor.queue) then if timesOut w r then some pass.now else none else w.timedOut r
  | .daemon (.reload _ file), r => if turnedDown w.monitor file then w.timedOut r else none
  | _, r => w.timedOut r

def Observed.step (w : Observed) (event : Event) : Observed where
  monitor := advance w.monitor event
  attempts := w.attemptsAfter event
  sweeps := w.sweepsAfter event
  timedOut := w.timedOutAfter event

def Observed.boot (globals : Scratch) (env : Env) (tokens : List Token) : Observed where
  monitor := Monitor.boot globals env tokens
  attempts := fun _ => 0
  sweeps := fun _ => 0
  timedOut := fun _ => none

/-- When an object is to be queued, and how long it is to wait between two checks. -/
def times (heap : Heap) (r : Ref) : Option (Time × UInt64) :=
  (heap r).map fun element => (element.data.nextQueuetime, element.data.queuetime)

def limit (w : Observed) (r : Ref) : Nat := (maxRetries w.monitor.daemon.heap r).toNat

/-- The first attempts that are swept up end timed out, so many as the limit says, and the next one killed; and whatever
was timed out is due at the next queueing pass. -/
def Retried (w : Observed) : Event → Prop
  | .queueChecks now _ => ∀ r handled, w.timedOut r = some handled →
      ∀ next queuetime, times w.monitor.daemon.heap r = some (next, queuetime) → next ≤ now
  | .daemon (.service _) => ∀ here ∈ finished w.monitor.queue, 0 < w.sweeps here.checkent →
      (w.attempts here.checkent < limit w here.checkent → here.retval = Result.timedout) ∧
        (w.attempts here.checkent = limit w here.checkent → here.retval = Result.killed)
  | _ => True

/-- A queueing pass comes when an object that was timed out has waited its time. Before its result is handled the first
attempts are not swept up more often than the limit says, and the next one is. -/
def Patient (w : Observed) : Event → Prop
  | .queueChecks now _ => ∀ r handled, w.timedOut r = some handled →
      ∀ next queuetime, times w.monitor.daemon.heap r = some (next, queuetime) → handled + queuetime.toInt64 ≤ now
  | .daemon (.service _) => ∀ here ∈ finished w.monitor.queue, 0 < w.sweeps here.checkent →
      (w.attempts here.checkent < limit w here.checkent → w.sweeps here.checkent ≤ limit w here.checkent) ∧
        (w.attempts here.checkent = limit w here.checkent → limit w here.checkent < w.sweeps here.checkent)
  | _ => True

/-! ### The queueing pass -/

/-- The loop over the sorted array queues some of its objects, in their order. -/
theorem queueNext_sublist (maxqueued : Int) (warnlog : Bool) (now : Time) (queueList : List Ref) (s : Scheduler) :
    ∃ queued : List Ref, queued.Sublist queueList ∧
      (queueList.foldl (queueNext maxqueued warnlog now) s).monitor = queued.foldl queueCheck s.monitor := by
  induction queueList generalizing s with
  | nil => exact ⟨[], List.Sublist.refl _, rfl⟩
  | cons here rest ih =>
      obtain ⟨queued, hsub, hrest⟩ := ih (queueNext maxqueued warnlog now s here)
      by_cases hroom : s.monitor.numqueued ≤ maxqueued
      · have hmonitor : (queueNext maxqueued warnlog now s here).monitor = queueCheck s.monitor here := by
          rw [queueNext, if_pos hroom]
        exact ⟨here :: queued, hsub.cons_cons here, by rw [List.foldl_cons, hrest, hmonitor, List.foldl_cons]⟩
      · have hmonitor := @queueNext_of_full maxqueued warnlog now s hroom here
        exact ⟨queued, hsub.cons here, by rw [List.foldl_cons, hrest, hmonitor]⟩

/-- What `queue_checks_qsort_way` does to the queue is such a pass. -/
theorem queueChecksQsortWay_monitor (qsort : Qsort) (graph : Graph) (maxqueued : Int) (warnlog : Bool) (now : Time)
    (s : Scheduler) : ∃ reached after seconds,
      queueChecksQsortWay qsort graph maxqueued warnlog now s = some (after, seconds) ∧
        after.monitor = queueChecks now reached s.monitor := by
  cases hroot : graph.root with
  | none =>
      refine ⟨[], s, 60, ?_, rfl⟩
      rw [queueChecksQsortWay, hroot]
      rfl
  | some start =>
      obtain ⟨collected, hcollects, hwalk⟩ := walk_collects s.monitor.daemon.heap graph now
        (clearVisited graph.objects s.visit) fun _ => clearVisited_of_mem
      obtain ⟨visit', hvisit⟩ := hwalk (graph.objects.length + 1) (Nat.lt_succ_self _)
      have hwalked : walkGraph graph now s = some ⟨visit', collected⟩ := hvisit
      obtain ⟨reached, hsub, hmonitor⟩ := queueNext_sublist maxqueued warnlog now
        (qsort.sort (byQueuetime s.monitor.daemon.heap) collected) { s with visit := clearVisited graph.objects visit' }
      refine ⟨reached, _, 1, ?_, hmonitor.trans ?_⟩
      · rw [queueChecksQsortWay, hroot, hwalked]
        rfl
      · have hdue : ∀ here ∈ reached, isDue s.monitor.daemon.heap now here = true := by
          intro here hhere
          have hmem := (qsort.perm (byQueuetime s.monitor.daemon.heap) collected).mem_iff.mp (hsub.subset hhere)
          exact (due_iff.mp ((hcollects.exact here).mp hmem).2).2
        rw [queueChecks, List.filter_eq_self.mpr hdue]

/-! ### What a result does to the time of the next check -/

section nextQueuetime

variable (donotify : Bool) (now : Time) (retval : Int16) (env : PageEnv) (w : ObjState)

theorem nextQueuetime_pageSomeone (newstate : Int32) :
    (pageSomeone donotify env newstate w).svc.nextQueuetime = w.svc.nextQueuetime := by
  obtain ⟨_, _, _, _, h⟩ := pageSomeone_svc donotify env newstate w
  rw [h]

theorem nextQueuetime_pageDownIfDue :
    (pageDownIfDue donotify env w).svc.nextQueuetime = w.svc.nextQueuetime := by
  unfold pageDownIfDue
  split
  · exact nextQueuetime_pageSomeone donotify env w Contact.down
  · rfl

theorem nextQueuetime_cameUp : (cameUp donotify now retval env w).svc.nextQueuetime = w.svc.nextQueuetime := by
  unfold cameUp
  dsimp only
  split
  · split
    · exact nextQueuetime_pageSomeone donotify env _ Contact.up
    · rfl
  · rfl

theorem nextQueuetime_stillDown : (stillDown donotify retval env w).svc.nextQueuetime = w.svc.nextQueuetime := by
  unfold stillDown
  split
  · exact nextQueuetime_pageDownIfDue donotify env (countAgain w)
  · rfl

theorem nextQueuetime_stateChanged :
    (stateChanged donotify now retval env w).svc.nextQueuetime = w.svc.nextQueuetime := by
  unfold stateChanged
  split
  · split
    · exact nextQueuetime_pageDownIfDue donotify env (countFirst now retval w)
    · rfl
  · rfl

theorem nextQueuetime_cameOk : (cameOk donotify retval env w).svc.nextQueuetime = w.svc.nextQueuetime := by
  unfold cameOk objectChanged
  dsimp only
  split
  · split <;> split <;> simp [nextQueuetime_pageSomeone]
  · rfl

theorem nextQueuetime_noteResult :
    (noteResult now retval w).svc.nextQueuetime = now + w.svc.queuetime.toInt64 := by
  unfold noteResult objectChanged
  dsimp only
  split <;> rfl

/-- The next check is due `queuetime` seconds later. -/
theorem handleRetval_times (done : CheckDone) :
    (handleRetval donotify w done).svc.nextQueuetime = done.now + w.svc.queuetime.toInt64 ∧
      (handleRetval donotify w done).svc.queuetime = w.svc.queuetime := by
  constructor
  · rw [handleRetval, nextQueuetime_cameOk, nextQueuetime_stateChanged, nextQueuetime_stillDown, nextQueuetime_cameUp,
      nextQueuetime_noteResult]
  · exact congrArg PagePolicy.queuetime (handleRetval_policy donotify w done)

end nextQueuetime

/-! ### What the daemon does to the times and the limits -/

variable {heap : Heap} {m : Monitor} {r : Ref}

theorem times_updateData {f : HostInfo → HostInfo}
    (hf : ∀ svc, (f svc).nextQueuetime = svc.nextQueuetime ∧ (f svc).queuetime = svc.queuetime) (heap : Heap) (r r' : Ref) :
    times (updateData heap r f) r' = times heap r' := by
  rw [times, times, updateData]
  by_cases heq : r' = r
  · subst heq
    rw [Function.update_self, Option.map_map]
    simp only [Function.comp_def, hf]
  · rw [Function.update_of_ne heq]

/-- What an operation leaves of the times and the limits, where it is not the handling of a result. -/
structure Spares (heap heap' : Heap) : Prop where
  times : ∀ r, times heap' r = times heap r
  limits : ∀ r, maxRetries heap' r = maxRetries heap r

theorem Spares.rfl : Spares heap heap := ⟨fun _ => Eq.refl _, fun _ => Eq.refl _⟩

theorem Spares.trans {heap' heap'' : Heap} (h : Spares heap heap') (h' : Spares heap' heap'') : Spares heap heap'' :=
  ⟨fun r => (h'.times r).trans (h.times r), fun r => (h'.limits r).trans (h.limits r)⟩

theorem spares_updateData (f : HostInfo → HostInfo) (hf : ∀ svc, (f svc).nextQueuetime = svc.nextQueuetime ∧
    (f svc).queuetime = svc.queuetime ∧ (f svc).maxWakeupRetries = svc.maxWakeupRetries) (heap : Heap) (r : Ref) :
    Spares heap (updateData heap r f) :=
  ⟨fun r' => times_updateData (fun svc => ⟨(hf svc).1, (hf svc).2.1⟩) heap r r',
    fun r' => maxRetries_updateData (fun svc => (hf svc).2.2) heap r r'⟩

theorem spares_queueCheck (m : Monitor) (r : Ref) : Spares m.daemon.heap (queueCheck m r).daemon.heap := by
  obtain hsame | ⟨-, hdone⟩ := queueCheck_spec m r
  · rw [hsame]
    exact .rfl
  · rw [hdone]
    exact spares_updateData markQueued (fun _ => ⟨rfl, rfl, rfl⟩) m.daemon.heap r

theorem spares_wakeupLoop (now : Time) (stale : Ref → Bool) (queue : List Monitorent) (heap : Heap) :
    Spares heap (wakeupLoop now stale queue heap).2 := by
  induction queue generalizing heap with
  | nil => exact .rfl
  | cons here rest ih =>
      refine Spares.trans ?_ (ih (wakeIfStale now stale heap here).2)
      unfold wakeIfStale wakeUp
      split
      · split
        · exact .rfl
        · exact spares_updateData (dueAgain now) (fun _ => ⟨rfl, rfl, rfl⟩) heap here.checkent
      · exact .rfl

theorem spares_fastCleanupChecks (m : Monitor) : Spares m.daemon.heap (fastCleanupChecks m).daemon.heap := by
  unfold fastCleanupChecks
  split
  · exact .rfl
  · have hfold : ∀ (queue : List Monitorent) (heap : Heap), Spares heap (queue.foldl (fun heap here =>
        if here.started then heap else updateData heap here.checkent unqueue) heap) := by
      intro queue
      induction queue with
      | nil => exact fun _ => .rfl
      | cons here rest ih =>
          intro heap
          rw [List.foldl_cons]
          refine Spares.trans ?_ (ih _)
          split
          · exact .rfl
          · exact spares_updateData unqueue (fun _ => ⟨rfl, rfl, rfl⟩) heap here.checkent
    exact hfold m.queue m.daemon.heap

/-- The handled objects are due `queuetime` seconds later, and the others when they were. -/
theorem times_complete (pass : Pass) (entries : List Monitorent) (m : Monitor) {next : Time} {queuetime : UInt64}
    (h : times (entries.foldl (complete pass) m).daemon.heap r = some (next, queuetime)) :
    if r ∈ refs entries then next = pass.now + queuetime.toInt64 else times m.daemon.heap r = some (next, queuetime) := by
  induction entries generalizing m with
  | nil => exact h
  | cons here rest ih =>
      have hrest := ih (complete pass m here) h
      by_cases hlater : r ∈ refs rest
      · rw [if_pos hlater] at hrest
        have hmem : r ∈ refs (here :: rest) := List.mem_cons_of_mem here.checkent hlater
        rwa [if_pos hmem]
      · rw [if_neg hlater] at hrest
        by_cases heq : r = here.checkent
        · have hmem : r ∈ refs (here :: rest) := heq ▸ List.mem_cons_self
          rw [if_pos hmem]
          subst heq
          cases hheap : m.daemon.heap here.checkent with
          | none => simp [times, complete, hheap] at hrest
          | some element =>
              obtain ⟨hnext, hsame⟩ := handleRetval_times pass.donotify ⟨element.data, m.globChangeSeq, m.notices⟩
                ⟨here.retval, pass.now, pass.env here.checkent⟩
              simp only [times, complete, hheap, Monitor.setHeap_heap, updateData, Function.update_self, Option.map_some,
                Option.some.injEq, Prod.mk.injEq, leaveQueue, hnext, hsame] at hrest
              rw [← hrest.1, ← hrest.2]
        · have hnot : r ∉ refs (here :: rest) := fun hmem => (List.mem_cons.mp hmem).elim heq hlater
          rw [if_neg hnot, ← hrest, times, times, complete]
          split
          · rfl
          · rw [Monitor.setHeap_heap, updateData, Function.update_of_ne heq]

/-! ### What is so in every state of a run -/

/-- An unfinished entry has not been swept up, and what is in one that has been tells how often. -/
structure EntryOk (limit : UInt32) (sweeps : Nat) (here : Monitorent) : Prop where
  unfinished : here.retval = -1 → sweeps = 0 ∧ here.wakeupCount = 0
  retval : 0 < sweeps → here.retval = if sweeps ≤ limit.toNat then Result.timedout else Result.killed
  count : 0 < sweeps → here.wakeupCount.toNat = min sweeps limit.toNat

structure Observed.Ok (w : Observed) : Prop where
  owned : Owned w.monitor.daemon
  queued : Queued w.monitor
  absent : ∀ r ∉ refs w.monitor.queue, w.sweeps r = 0
  entries : ∀ here ∈ w.monitor.queue, EntryOk (maxRetries w.monitor.daemon.heap here.checkent) (w.sweeps here.checkent) here
  times : ∀ r handled, w.timedOut r = some handled → ∀ next queuetime,
    times w.monitor.daemon.heap r = some (next, queuetime) → next = handled + queuetime.toInt64

theorem maxRetries_pos (heap : Heap) (r : Ref) : 0 < (maxRetries heap r).toNat := by
  simp only [maxRetries]
  split
  · rename_i hpos
    exact hpos
  · decide

theorem timedout_ne : Result.timedout ≠ -1 ∧ Result.killed ≠ -1 := by decide

/-- An entry that the sweep finds, the first time or again. -/
theorem EntryOk.wakeUp {sweeps : Nat} {here : Monitorent} (h : EntryOk (maxRetries heap here.checkent) sweeps here)
    (now : Time) (hcounted : here.retval = -1 ∨ 0 < sweeps) :
    EntryOk (maxRetries heap here.checkent) (sweeps + 1) (wakeUp now heap here).1 := by
  have hpos := maxRetries_pos heap here.checkent
  have hcount : here.wakeupCount.toNat = min sweeps (maxRetries heap here.checkent).toNat := by
    obtain hret | hswept := hcounted
    · obtain ⟨hzero, hnone⟩ := h.unfinished hret
      rw [hzero, hnone]
      simp
    · exact h.count hswept
  rw [Queue.wakeUp]
  split
  · rename_i hmany
    have hmany : (maxRetries heap here.checkent).toNat ≤ here.wakeupCount.toNat := UInt32.le_iff_toNat_le.mp hmany
    have hover : ¬sweeps + 1 ≤ (maxRetries heap here.checkent).toNat := by omega
    refine ⟨fun hret => absurd hret timedout_ne.2, fun _ => (if_neg hover).symm, fun _ => ?_⟩
    show here.wakeupCount.toNat = _
    omega
  · rename_i hfew
    have hfew : ¬(maxRetries heap here.checkent).toNat ≤ here.wakeupCount.toNat :=
      fun h => hfew (UInt32.le_iff_toNat_le.mpr h)
    have hunder : sweeps + 1 ≤ (maxRetries heap here.checkent).toNat := by omega
    refine ⟨fun hret => absurd hret timedout_ne.1, fun _ => (if_pos hunder).symm, fun _ => ?_⟩
    have hsmall := (maxRetries heap here.checkent).toNat_lt
    show (here.wakeupCount + 1).toNat = _
    rw [UInt32.toNat_add, UInt32.toNat_one, Nat.mod_eq_of_lt (by omega)]
    omega

/-- An entry with a result of its own, which the sweep may replace. -/
theorem EntryOk.replaced {limit : UInt32} {there : Monitorent} (hret : there.retval ≠ -1) : EntryOk limit 0 there :=
  ⟨fun h => absurd h hret, fun h => absurd h (Nat.lt_irrefl 0), fun h => absurd h (Nat.lt_irrefl 0)⟩

variable {w : Observed}

theorem ok_queueCheck (h : w.Ok) (r : Ref) : Observed.Ok { w with monitor := queueCheck w.monitor r } := by
  have hspares := spares_queueCheck w.monitor r
  have howned := (sameTree_queueCheck w.monitor r).owned h.owned
  have hqueued := queued_queueCheck h.queued r
  obtain hsame | ⟨hfree, hdone⟩ := queueCheck_spec w.monitor r
  · rw [hsame]
    exact h
  · have hqueue : (queueCheck w.monitor r).queue = newEntry r :: w.monitor.queue := by rw [hdone]
    have hnew : w.sweeps r = 0 := by
      refine h.absent r fun hmem => ?_
      rw [h.queued.flagged r hmem] at hfree
      exact absurd hfree (by simp)
    refine ⟨howned, hqueued, fun r' hr' => h.absent r' fun hmem => hr' ?_, fun here hhere => ?_, ?_⟩
    · rw [hqueue]
      exact List.mem_cons_of_mem r hmem
    · rw [hspares.limits]
      rw [hqueue] at hhere
      obtain rfl | hold := List.mem_cons.mp hhere
      · show EntryOk _ (w.sweeps r) _
        rw [hnew]
        exact ⟨fun _ => ⟨rfl, rfl⟩, fun h => absurd h (Nat.lt_irrefl 0), fun h => absurd h (Nat.lt_irrefl 0)⟩
      · exact h.entries here hold
    · intro r' handled htimed next queuetime htimes
      exact h.times r' handled htimed next queuetime ((hspares.times r').symm.trans htimes)

theorem ok_queueChecks (h : w.Ok) (now : Time) (reached : List Ref) :
    Observed.Ok { w with monitor := queueChecks now reached w.monitor } := by
  have hfold : ∀ (todo : List Ref) (m : Monitor), Observed.Ok { w with monitor := m } →
      Observed.Ok { w with monitor := todo.foldl queueCheck m } := by
    intro todo
    induction todo with
    | nil => exact fun _ hm => hm
    | cons r todo ih => exact fun m hm => ih (queueCheck m r) (ok_queueCheck hm r)
  exact hfold _ w.monitor h

/-- The reference of an entry is the reference of its own only. -/
theorem mem_refs_finished (h : Queued w.monitor) {here : Monitorent} (hhere : here ∈ w.monitor.queue) :
    here.checkent ∈ refs (finished w.monitor.queue) ↔ here.retval ≠ -1 := by
  constructor
  · intro hmem
    obtain ⟨there, hthere, heq⟩ := List.mem_map.mp hmem
    obtain ⟨hqueue, hret⟩ := List.mem_filter.mp hthere
    rw [← eq_of_checkent h.once hqueue hhere heq]
    simpa using hret
  · exact fun hret => List.mem_map.mpr ⟨here, List.mem_filter.mpr ⟨hhere, by simpa using hret⟩, rfl⟩

theorem ok_serviceChecks (h : w.Ok) (pass : Pass) : (w.step (.daemon (.service pass))).Ok := by
  have hqueue : (serviceChecks w.monitor pass).queue = (pending w.monitor.queue).map (serviceThis pass.answer) := by
    rw [serviceChecks_eq]
  have hheap : (serviceChecks w.monitor pass).daemon.heap =
      ((finished w.monitor.queue).foldl (complete pass) w.monitor).daemon.heap := by
    rw [serviceChecks_eq]
  -- an entry that stays has no result, so it has not been swept up
  have hpending : ∀ here ∈ w.monitor.queue, here.retval = -1 →
      w.sweepsAfter (.daemon (.service pass)) here.checkent = 0 ∧ here.wakeupCount = 0 := by
    intro here hhere hret
    obtain ⟨hzero, hnone⟩ := (h.entries here hhere).unfinished hret
    refine ⟨?_, hnone⟩
    show (if here.checkent ∈ refs (finished w.monitor.queue) then 0 else w.sweeps here.checkent) = 0
    rw [hzero, ite_self]
  refine ⟨owned_step w.monitor (.service pass) h.owned, queued_serviceChecks h.queued pass, fun r hr => ?_,
    fun here hhere => ?_, ?_⟩
  · show (if r ∈ refs (finished w.monitor.queue) then 0 else w.sweeps r) = 0
    split
    · rfl
    · rename_i hnot
      refine h.absent r fun hmem => ?_
      obtain ⟨here, hhere, rfl⟩ := List.mem_map.mp hmem
      rw [mem_refs_finished h.queued hhere, not_not] at hnot
      refine hr (List.mem_map.mpr ⟨serviceThis pass.answer here, ?_, rfl⟩)
      show serviceThis pass.answer here ∈ (serviceChecks w.monitor pass).queue
      rw [hqueue]
      exact List.mem_map_of_mem (List.mem_filter.mpr ⟨hhere, by simpa using hnot⟩)
  · change here ∈ (serviceChecks w.monitor pass).queue at hhere
    rw [hqueue] at hhere
    obtain ⟨before, hbefore, rfl⟩ := List.mem_map.mp hhere
    obtain ⟨hold, hret⟩ := List.mem_filter.mp hbefore
    obtain ⟨hzero, hnone⟩ := hpending before hold (by simpa using hret)
    show EntryOk _ (w.sweepsAfter (.daemon (.service pass)) before.checkent) _
    rw [hzero]
    exact ⟨fun _ => ⟨rfl, hnone⟩, fun h => absurd h (Nat.lt_irrefl 0), fun h => absurd h (Nat.lt_irrefl 0)⟩
  · intro r handled htimed next queuetime htimes
    change times (serviceChecks w.monitor pass).daemon.heap r = _ at htimes
    rw [hheap] at htimes
    have hafter := times_complete pass (finished w.monitor.queue) w.monitor htimes
    change (if r ∈ refs (finished w.monitor.queue) then if timesOut w r then some pass.now else none
      else w.timedOut r) = some handled at htimed
    by_cases hmem : r ∈ refs (finished w.monitor.queue)
    · rw [if_pos hmem] at hafter htimed
      split at htimed
      · rw [hafter, ← Option.some.inj htimed]
      · exact absurd htimed (by simp)
    · rw [if_neg hmem] at hafter htimed
      exact h.times r handled htimed next queuetime hafter

theorem ok_serviceReady (h : w.Ok) (answer : Ref → Int16) (ready : Ref → Bool) :
    (w.step (.daemon (.ready answer ready))).Ok := by
  have hrefs := (serviceReady_spec w.monitor answer ready).1
  refine ⟨h.owned, queued_step w.monitor (.ready answer ready) h.queued, fun r hr => h.absent r ?_, fun here hhere => ?_,
    h.times⟩
  · rw [← hrefs]
    exact hr
  · obtain ⟨before, hbefore, rfl⟩ := List.mem_map.mp hhere
    have hold := h.entries before hbefore
    split
    · rename_i hserved
      have hret : before.retval = -1 := by simpa using (Bool.and_eq_true_iff.mp hserved).2
      obtain ⟨hzero, hnone⟩ := hold.unfinished hret
      show EntryOk _ (w.sweeps before.checkent) _
      rw [hzero]
      exact ⟨fun _ => ⟨rfl, hnone⟩, fun h => absurd h (Nat.lt_irrefl 0), fun h => absurd h (Nat.lt_irrefl 0)⟩
    · exact hold

/-- The sweep counts an entry that it finds and that has no result of its own. -/
theorem sweptUp_iff (h : Queued w.monitor) (stale : Ref → Bool) {here : Monitorent} (hhere : here ∈ w.monitor.queue) :
    sweptUp w stale here.checkent = true ↔
      stale here.checkent = true ∧ (here.retval = -1 ∨ 0 < w.sweeps here.checkent) := by
  rw [sweptUp, Bool.and_eq_true, List.any_eq_true]
  refine and_congr_right fun _ => ?_
  constructor
  · rintro ⟨there, hthere, hfound⟩
    simp only [Bool.and_eq_true, Bool.or_eq_true, decide_eq_true_eq] at hfound
    obtain ⟨heq, hfound⟩ := hfound
    rwa [eq_of_checkent h.once hthere hhere heq] at hfound
  · intro hfound
    exact ⟨here, hhere, by simpa using hfound⟩

theorem ok_wakeupChecks (h : w.Ok) (now : Time) (stale : Ref → Bool) : (w.step (.daemon (.wakeup now stale))).Ok := by
  have hqueue : (wakeupChecks w.monitor now stale).queue = w.monitor.queue.map (swept now stale w.monitor.daemon.heap) :=
    wakeupLoop_fst _ _ _ _
  have hspares : Spares w.monitor.daemon.heap (wakeupChecks w.monitor now stale).daemon.heap :=
    spares_wakeupLoop now stale w.monitor.queue w.monitor.daemon.heap
  have hrefs : refs (wakeupChecks w.monitor now stale).queue = refs w.monitor.queue :=
    (wakeupLoop_spec now stale w.monitor.queue w.monitor.daemon.heap).1
  refine ⟨owned_step w.monitor (.wakeup now stale) h.owned, queued_step w.monitor (.wakeup now stale) h.queued,
    fun r hr => ?_, fun here hhere => ?_, ?_⟩
  · have hnot : r ∉ refs w.monitor.queue := fun hmem => hr (hrefs ▸ hmem)
    show (if sweptUp w stale r then w.sweeps r + 1 else w.sweeps r) = 0
    have hnone : sweptUp w stale r = false := by
      rw [sweptUp, Bool.and_eq_false_iff, List.any_eq_false]
      refine Or.inr fun here hhere hfound => hnot (List.mem_map.mpr ⟨here, hhere, ?_⟩)
      simp only [Bool.and_eq_true, decide_eq_true_eq] at hfound
      exact hfound.1
    rw [hnone]
    exact h.absent r hnot
  · show EntryOk (maxRetries (wakeupChecks w.monitor now stale).daemon.heap here.checkent) _ here
    rw [hspares.limits]
    change here ∈ (wakeupChecks w.monitor now stale).queue at hhere
    rw [hqueue] at hhere
    obtain ⟨before, hbefore, rfl⟩ := List.mem_map.mp hhere
    have hold := h.entries before hbefore
    have href : (swept now stale w.monitor.daemon.heap before).checkent = before.checkent :=
      (wakeIfStale_spec now stale w.monitor.daemon.heap before).1
    have hcounted := sweptUp_iff h.queued stale hbefore
    rw [href]
    show EntryOk _ (if sweptUp w stale before.checkent then w.sweeps before.checkent + 1 else w.sweeps before.checkent) _
    cases hstale : stale before.checkent with
    | false =>
        have hsame : swept now stale w.monitor.daemon.heap before = before := by
          rw [swept, wakeIfStale, hstale, if_neg Bool.false_ne_true]
        rw [if_neg fun hfound => absurd (hstale.symm.trans (hcounted.mp hfound).1) (by decide), hsame]
        exact hold
    | true =>
        have hwoken : swept now stale w.monitor.daemon.heap before = (wakeUp now w.monitor.daemon.heap before).1 := by
          rw [swept, wakeIfStale, hstale, if_pos rfl]
        rw [hwoken]
        by_cases hfound : before.retval = -1 ∨ 0 < w.sweeps before.checkent
        · rw [if_pos (hcounted.mpr ⟨hstale, hfound⟩)]
          exact hold.wakeUp now hfound
        · have hzero : w.sweeps before.checkent = 0 := Nat.eq_zero_of_not_pos fun hpos => hfound (Or.inr hpos)
          rw [if_neg fun hmem => hfound (hcounted.mp hmem).2, hzero]
          refine EntryOk.replaced ?_
          rw [← hwoken, retval_swept, if_pos hstale]
          exact sweptRetval_ne _ _
  · intro r handled htimed next queuetime htimes
    exact h.times r handled htimed next queuetime ((hspares.times r).symm.trans htimes)

theorem ok_reload (h : w.Ok) (env : Env) (file : Option (List Token)) : (w.step (.daemon (.reload env file))).Ok := by
  have hempty := (queue_reload h.queued env file).1
  refine ⟨owned_reload h.owned env file, queued_reload h.queued env file, fun _ _ => rfl, fun here hhere => ?_, ?_⟩
  · change here ∈ (reload w.monitor env file).queue at hhere
    rw [hempty] at hhere
    exact absurd hhere List.not_mem_nil
  · intro r handled htimed next queuetime htimes
    change (if turnedDown w.monitor file then w.timedOut r else none) = some handled at htimed
    split at htimed
    · -- the objects are those from before the reload
      rename_i hdown
      have hclean := (sameTree_fastCleanupChecks w.monitor).owned h.owned
      have hheap := (sighup_rejected_spec hclean ((badconfig_reload w.monitor env file).trans hdown)).1
      change times ((fastCleanupChecks w.monitor).daemon.sighup env file).heap r = _ at htimes
      rw [hheap, (spares_fastCleanupChecks w.monitor).times] at htimes
      exact h.times r handled htimed next queuetime htimes
    · exact absurd htimed (by simp)

theorem ok_step (w : Observed) (event : Event) (h : w.Ok) : (w.step event).Ok := by
  cases event with
  | queueChecks now reached =>
      obtain ⟨howned, hqueued, habsent, hentries, -⟩ := ok_queueChecks h now reached
      exact ⟨howned, hqueued, habsent, hentries, fun r handled htimed => absurd htimed (Option.some_ne_none handled).symm⟩
  | daemon event =>
      cases event with
      | queue r => exact ok_queueCheck h r
      | service pass => exact ok_serviceChecks h pass
      | ready answer ready => exact ok_serviceReady h answer ready
      | wakeup now stale => exact ok_wakeupChecks h now stale
      | reload env file => exact ok_reload h env file

/-! ### Runs -/

/-- One step does what it should exactly if the run is patient with it. -/
theorem retried_iff_patient (w : Observed) (event : Event) (h : w.Ok) : Retried w event ↔ Patient w event := by
  cases event with
  | queueChecks now reached =>
      refine forall₂_congr fun r handled => forall_congr' fun htimed => forall₂_congr fun next queuetime =>
        forall_congr' fun htimes => ?_
      rw [h.times r handled htimed next queuetime htimes]
  | daemon event =>
      cases event with
      | service pass =>
          refine forall₂_congr fun here hhere => forall_congr' fun hswept => ?_
          have hretval := (h.entries here (List.mem_filter.mp hhere).1).retval hswept
          have hkinds : Result.timedout ≠ Result.killed := by decide
          change here.retval = if w.sweeps here.checkent ≤ limit w here.checkent then _ else _ at hretval
          refine and_congr (forall_congr' fun _ => ?_) (forall_congr' fun _ => ?_)
          · rw [hretval]
            split
            next hfew => exact iff_of_true rfl hfew
            next hmany => exact iff_of_false hkinds.symm hmany
          · rw [hretval]
            split
            next hfew => exact iff_of_false hkinds (Nat.not_lt.mpr hfew)
            next hmany => exact iff_of_true rfl (Nat.not_le.mp hmany)
      | queue r => exact Iff.rfl
      | ready answer ready => exact Iff.rfl
      | wakeup now stale => exact Iff.rfl
      | reload env file => exact Iff.rfl

theorem ok_boot (globals : Scratch) (env : Env) (tokens : List Token) : (Observed.boot globals env tokens).Ok where
  owned := (boot_spec globals env tokens).1
  queued := ⟨rfl, List.nodup_nil, fun _ hr => absurd hr List.not_mem_nil⟩
  absent := fun _ _ => rfl
  entries := fun _ hhere => absurd hhere List.not_mem_nil
  times := fun _ handled htimed => absurd htimed (Option.some_ne_none handled).symm

/-- In a run of the daemon stale checks are retried and then killed exactly if the queueing waits for the objects that
were timed out, and the sweep finds the attempts before the last as often as the limit says at most, and the last one
more often. -/
theorem retried_run_iff (globals : Scratch) (env : Env) (tokens : List Token) (events : List Event) :
    Run.Guarded Observed.step Retried (Observed.boot globals env tokens) events ↔
      Run.Guarded Observed.step Patient (Observed.boot globals env tokens) events :=
  Run.guarded_congr ok_step retried_iff_patient (ok_boot globals env tokens)

/-- An attempt: the object is queued, its check comes to nothing, the sweep finds it a minute later and the result is
handled. -/
def attempt (now : Time) : List Event :=
  [.queueChecks now [0], .daemon (.service { idlePass with now := now }), .daemon (.wakeup (now + 61) fun _ => true),
    .daemon (.service { idlePass with now := now + 61 })]

/-- The fourth attempt in a row, as far as the sweep. -/
def fourthSwept : List Event := attempt 100 ++ attempt 300 ++ attempt 500 ++ (attempt 700).take 3

def fourth : Observed := Run.exec Observed.step (Observed.boot Scratch.atStart resolving oneHost) fourthSwept

/-- The fourth attempt is timed out like the three before it, and a second after the first the object is not due. -/
theorem never_killed :
    ¬(∀ globals env tokens events, Run.Guarded Observed.step Retried (Observed.boot globals env tokens) events) ∧
      resultOf fourth.monitor.queue 0 = some Result.timedout ∧
      isDue (Run.exec Observed.step (Observed.boot Scratch.atStart resolving oneHost) (attempt 100)).monitor.daemon.heap
        162 0 = false := by
  refine ⟨fun h => ?_, by decide, by decide⟩
  have hlast : Retried fourth (.daemon (.service { idlePass with now := 761 })) :=
    h Scratch.atStart resolving oneHost (fourthSwept ++ [.daemon (.service { idlePass with now := 761 })]) fourthSwept _
      List.prefix_rfl
  have hkilled : ∀ here ∈ finished fourth.monitor.queue, fourth.attempts here.checkent = limit fourth here.checkent →
      0 < fourth.sweeps here.checkent → here.retval = Result.killed :=
    fun here hhere hcount hswept => (hlast here hhere hswept).2 hcount
  exact absurd hkilled (by decide)

end Sysmon.Wakeup
