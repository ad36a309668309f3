import Sysmon.Queue

/-!
# Results in the queue

A check that has come to a result keeps its entry until the next pass of `service_checks` hands the
result to `handle_retval`. Between two passes `wakeup_checks` may go over the queue. It asks how long
an entry has been there, and not whether it has a result, so what a check has found is replaced if the
entry is old enough by then.

The result an entry came to first is carried along as a history that the daemon does not have.
-/

open Sysmon.Parser

namespace Sysmon.Queue

open Sysmon.Reload

/-- The calls of `handle_retval` that the next pass over the queue makes. -/
def handed (queue : List Monitorent) : List (Ref × Int16) :=
  (finished queue).map fun here => (here.checkent, here.retval)

/-- A pass handles the entries that have a result, in the order of the queue, and services the rest. -/
theorem serviceChecks_eq (m : Monitor) (pass : Pass) :
    serviceChecks m pass =
      { (finished m.queue).foldl (complete pass) m with
        queue := (pending m.queue).map (serviceThis pass.answer) } := by
  have hloop : ∀ (todo : List Monitorent) (m : Monitor), serviceLoop pass todo m =
      { (finished todo).foldl (complete pass) m with
        queue := (pending todo).map (serviceThis pass.answer) } := by
    intro todo
    induction todo with
    | nil => exact fun _ => rfl
    | cons here rest ih =>
        intro m
        by_cases hret : here.retval = -1
        · have hpending : pending (here :: rest) = here :: pending rest := by simp [pending, hret]
          have hfinished : finished (here :: rest) = finished rest := by simp [finished, hret]
          rw [serviceLoop, if_pos hret, hpending, hfinished, ih m]
          rfl
        · have hpending : pending (here :: rest) = pending rest := by simp [pending, hret]
          have hfinished : finished (here :: rest) = here :: finished rest := by simp [finished, hret]
          rw [serviceLoop, if_neg hret, hpending, hfinished, ih (complete pass m here)]
          rfl
  exact hloop m.queue m

/-- The result in the entry of an object. -/
def resultOf (queue : List Monitorent) (r : Ref) : Option Int16 :=
  ((finished queue).find? fun here => here.checkent = r).map Monitorent.retval

/-- The daemon, and the first result each entry came to. -/
structure Watched where
  monitor : Monitor
  recorded : Ref → Option Int16

/-- A result is recorded when the entry has none on record, and forgotten with the entry. -/
def Watched.step (w : Watched) (event : Event) : Watched where
  monitor := w.monitor.step event
  recorded := fun r =>
    (resultOf (w.monitor.step event).queue r).map fun result => (w.recorded r).getD result

def Watched.boot (globals : Scratch) (env : Env) (tokens : List Token) : Watched :=
  ⟨Monitor.boot globals env tokens, fun _ => none⟩

/-- What `handle_retval` would get is what the checks came to. -/
def ResultsKept (w : Watched) : Prop := ∀ call ∈ handed w.monitor.queue, w.recorded call.1 = some call.2

/-- An old entry that the sweep finds has no result. It may also have been found late by the check
itself: timed out, or killed if it has been woken as often as it may be. -/
def sparesResults (m : Monitor) : Event → Prop
  | .wakeup _ stale => ∀ here ∈ m.queue, stale here.checkent = true →
      here.retval = -1 ∨
        here.retval = if maxRetries m.daemon.heap here.checkent ≤ here.wakeupCount then Result.killed
          else Result.timedout
  | _ => True

/-! ### One entry for an object -/

/-- The count is that of the entries, which belong to different objects, all of them flagged. Unlike
`QueueOk` this survives a reload that is turned down. -/
structure Queued (m : Monitor) : Prop where
  count : m.numqueued = m.queue.length
  once : (refs m.queue).Nodup
  flagged : ∀ r ∈ refs m.queue, queuedFlag m.daemon.heap r = some true

variable {m : Monitor} {queue : List Monitorent}

theorem queued_queueCheck (h : Queued m) (r : Ref) : Queued (queueCheck m r) := by
  obtain hsame | ⟨hfree, hdone⟩ := queueCheck_spec m r
  · rw [hsame]
    exact h
  · have hnew : r ∉ refs m.queue := by
      intro hmem
      rw [h.flagged r hmem] at hfree
      exact absurd hfree (by simp)
    rw [hdone]
    refine ⟨?_, List.nodup_cons.mpr ⟨hnew, h.once⟩, fun r' hr' => ?_⟩
    · show m.numqueued + 1 = ((newEntry r :: m.queue).length : Int)
      rw [List.length_cons, h.count]
      omega
    · show queuedFlag (updateData m.daemon.heap r markQueued) r' = some true
      rw [queuedFlag_updateData]
      rw [queuedFlag, Option.map_eq_some_iff] at hfree
      obtain ⟨element, hheap, -⟩ := hfree
      split
      · simp [hheap, markQueued]
      next hne => exact h.flagged r' ((List.mem_cons.mp hr').resolve_left hne)

theorem queued_serviceChecks (h : Queued m) (pass : Pass) : Queued (serviceChecks m pass) := by
  obtain ⟨hrefs, hcount, -, hcleared⟩ := serviceLoop_spec pass m.queue m
  change refs (serviceChecks m pass).queue = _ at hrefs
  change (serviceChecks m pass).numqueued = _ at hcount
  have hlength : (serviceChecks m pass).queue.length = (pending m.queue).length := by
    rw [serviceChecks_eq, List.length_map]
  have hsplit : m.queue.length = (pending m.queue).length + (finished m.queue).length := by
    simp only [pending, finished, ne_eq, decide_not]
    exact List.length_eq_length_filter_add _
  refine ⟨?_, ?_, fun r hr => ?_⟩
  · rw [hlength, hcount, h.count, hsplit]
    omega
  · rw [hrefs]
    exact h.once.sublist (List.filter_sublist.map _)
  · rw [hrefs] at hr
    have hside := (mem_refs_filter (p := fun here => decide (here.retval = -1)) h.once r).mp hr
    simp only [← decide_not] at hside
    exact (hcleared.flag_iff r).mpr ⟨hside.1, h.flagged r hside.2⟩

theorem queue_reload (h : Queued m) (env : Env) (file : Option (List Token)) :
    (reload m env file).queue = [] ∧ (reload m env file).numqueued = 0 := by
  show (fastCleanupChecks m).queue = [] ∧ (fastCleanupChecks m).numqueued = 0
  unfold fastCleanupChecks
  split
  next hzero =>
    have hcount := h.count
    rw [hzero] at hcount
    exact ⟨List.length_eq_zero_iff.mp (by omega), hzero⟩
  next => exact ⟨rfl, by rw [h.count]; exact Int.sub_self _⟩

theorem queued_reload (h : Queued m) (env : Env) (file : Option (List Token)) :
    Queued (reload m env file) := by
  obtain ⟨hqueue, hzero⟩ := queue_reload h env file
  refine ⟨?_, ?_, ?_⟩
  · rw [hqueue]
    exact hzero
  · rw [hqueue]
    exact List.nodup_nil
  · rw [hqueue]
    exact fun r hr => absurd hr List.not_mem_nil

theorem queued_step (m : Monitor) (event : Event) (h : Queued m) : Queued (m.step event) := by
  cases event with
  | queue r => exact queued_queueCheck h r
  | service pass => exact queued_serviceChecks h pass
  | ready answer ready =>
      obtain ⟨hrefs, hlength⟩ := serviceReady_spec m answer ready
      exact ⟨h.count.trans (by rw [← hlength]; rfl), hrefs ▸ h.once, fun r hr => h.flagged r (hrefs ▸ hr)⟩
  | wakeup now stale =>
      obtain ⟨hrefs, hflags⟩ := wakeupLoop_spec now stale m.queue m.daemon.heap
      have hlength := congrArg List.length hrefs
      rw [refs, refs, List.length_map, List.length_map] at hlength
      refine ⟨h.count.trans (congrArg Nat.cast hlength.symm), hrefs ▸ h.once, fun r hr => ?_⟩
      exact (hflags r).trans (h.flagged r (hrefs ▸ hr))
  | reload env file => exact queued_reload h env file

/-! ### Which results are there -/

theorem eq_of_checkent (hone : (refs queue).Nodup) {here there : Monitorent} (hhere : here ∈ queue)
    (hthere : there ∈ queue) (heq : here.checkent = there.checkent) : here = there :=
  List.inj_on_of_nodup_map hone hhere hthere heq

theorem resultOf_eq_some_iff (hone : (refs queue).Nodup) {r : Ref} {result : Int16} :
    resultOf queue r = some result ↔
      ∃ here ∈ queue, here.checkent = r ∧ here.retval = result ∧ result ≠ -1 := by
  rw [resultOf, Option.map_eq_some_iff]
  constructor
  · rintro ⟨here, hfind, rfl⟩
    have hmem := List.mem_of_find?_eq_some hfind
    have href := List.find?_some hfind
    rw [finished, List.mem_filter] at hmem
    exact ⟨here, hmem.1, by simpa using href, rfl, by simpa using hmem.2⟩
  · rintro ⟨here, hmem, rfl, rfl, hret⟩
    have hfinished : here ∈ finished queue := List.mem_filter.mpr ⟨hmem, by simpa using hret⟩
    cases hfind : (finished queue).find? fun there => there.checkent = here.checkent with
    | none =>
        have hnone := List.find?_eq_none.mp hfind here hfinished
        simp at hnone
    | some there =>
        have hthere := (List.mem_filter.mp (List.mem_of_find?_eq_some hfind)).1
        have href : there.checkent = here.checkent := by simpa using List.find?_some hfind
        exact ⟨there, rfl, by rw [eq_of_checkent hone hthere hmem href]⟩

theorem mem_handed_iff (hone : (refs queue).Nodup) {r : Ref} {result : Int16} :
    (r, result) ∈ handed queue ↔ resultOf queue r = some result := by
  rw [resultOf_eq_some_iff hone, handed, List.mem_map]
  constructor
  · rintro ⟨here, hmem, heq⟩
    obtain ⟨rfl, rfl⟩ := Prod.mk.inj heq
    rw [finished, List.mem_filter] at hmem
    exact ⟨here, hmem.1, rfl, rfl, by simpa using hmem.2⟩
  · rintro ⟨here, hmem, rfl, rfl, hret⟩
    exact ⟨here, List.mem_filter.mpr ⟨hmem, by simpa using hret⟩, rfl⟩

/-! ### What a step does to a result -/

/-- An object that has a result before the step and one after it has the same. -/
def Keeps (m : Monitor) (event : Event) : Prop :=
  ∀ r before after, resultOf m.queue r = some before →
    resultOf (m.step event).queue r = some after → after = before

/-- A step that makes entries out of entries, and leaves alone those that have a result. -/
theorem keeps_of_map {event : Event} (h : Queued m) {f : Monitorent → Monitorent}
    (hmap : ∀ there ∈ (m.step event).queue, there.retval = -1 ∨ ∃ here ∈ m.queue, there = f here)
    (hf : ∀ here, (f here).checkent = here.checkent)
    (hkept : ∀ here ∈ m.queue, here.retval ≠ -1 → f here ∈ (m.step event).queue →
      (f here).retval = here.retval) : Keeps m event := by
  intro r before after hbefore hafter
  obtain ⟨there, hthere, rfl, rfl, hret⟩ :=
    (resultOf_eq_some_iff (queued_step m event h).once).mp hafter
  obtain ⟨here, hhere, href, rfl, hfound⟩ := (resultOf_eq_some_iff h.once).mp hbefore
  obtain hnone | ⟨source, hsource, rfl⟩ := hmap there hthere
  · exact absurd hnone hret
  · rw [hf] at href
    obtain rfl := eq_of_checkent h.once hhere hsource href
    exact hkept here hhere hfound hthere

theorem keeps_queueCheck (h : Queued m) (r : Ref) : Keeps m (.queue r) := by
  refine keeps_of_map h (f := id) (fun there hthere => ?_) (fun _ => rfl) (fun _ _ _ _ => rfl)
  change there ∈ (queueCheck m r).queue at hthere
  obtain hsame | ⟨-, hdone⟩ := queueCheck_spec m r
  · rw [hsame] at hthere
    exact Or.inr ⟨there, hthere, rfl⟩
  · rw [hdone] at hthere
    obtain rfl | hold := List.mem_cons.mp hthere
    · exact Or.inl rfl
    · exact Or.inr ⟨there, hold, rfl⟩

/-- An entry that has a result is not in the queue after a pass. -/
theorem keeps_serviceChecks (h : Queued m) (pass : Pass) : Keeps m (.service pass) := by
  have hqueue : (m.step (.service pass)).queue = (pending m.queue).map (serviceThis pass.answer) := by
    show (serviceChecks m pass).queue = _
    rw [serviceChecks_eq]
  refine keeps_of_map h (f := serviceThis pass.answer) (fun there hthere => ?_) (fun _ => rfl)
    (fun here hhere hret hleft => ?_)
  · rw [hqueue, List.mem_map] at hthere
    obtain ⟨here, hhere, rfl⟩ := hthere
    exact Or.inr ⟨here, (List.mem_filter.mp hhere).1, rfl⟩
  · rw [hqueue, List.mem_map] at hleft
    obtain ⟨there, hthere, heq⟩ := hleft
    rw [pending, List.mem_filter] at hthere
    have href : (serviceThis pass.answer there).checkent = (serviceThis pass.answer here).checkent :=
      congrArg Monitorent.checkent heq
    obtain rfl := eq_of_checkent h.once hthere.1 hhere href
    exact absurd hthere.2 (by simpa using hret)

theorem keeps_serviceReady (h : Queued m) (answer : Ref → Int16) (ready : Ref → Bool) :
    Keeps m (.ready answer ready) := by
  refine keeps_of_map h (f := fun here =>
    if ready here.checkent && here.retval = -1 then serviceThis answer here else here)
    (fun there hthere => ?_) (fun here => by split <;> rfl) (fun here _ hret _ => by simp [hret])
  obtain ⟨here, hhere, rfl⟩ := List.mem_map.mp hthere
  exact Or.inr ⟨here, hhere, rfl⟩

theorem maxRetries_updateData {f : HostInfo → HostInfo}
    (hf : ∀ svc, (f svc).maxWakeupRetries = svc.maxWakeupRetries) (heap : Heap) (r r' : Ref) :
    maxRetries (updateData heap r f) r' = maxRetries heap r' := by
  rw [maxRetries, maxRetries, updateData]
  by_cases heq : r' = r
  · subst heq
    rw [Function.update_self, Option.map_map]
    simp only [Function.comp_def, hf]
  · rw [Function.update_of_ne heq]

/-- The sweep changes when an object is due, not how often it may be woken. -/
theorem maxRetries_wakeIfStale (now : Time) (stale : Ref → Bool) (heap : Heap) (here : Monitorent)
    (r : Ref) : maxRetries (wakeIfStale now stale heap here).2 r = maxRetries heap r := by
  unfold wakeIfStale wakeUp
  split
  · split
    · rfl
    · exact maxRetries_updateData (f := dueAgain now) (fun _ => rfl) heap here.checkent r
  · rfl

/-- One entry after the sweep. -/
def swept (now : Time) (stale : Ref → Bool) (heap : Heap) (here : Monitorent) : Monitorent :=
  (wakeIfStale now stale heap here).1

theorem swept_congr {heap heap' : Heap} (h : ∀ r, maxRetries heap' r = maxRetries heap r) (now : Time)
    (stale : Ref → Bool) (here : Monitorent) :
    swept now stale heap' here = swept now stale heap here := by
  unfold swept wakeIfStale wakeUp
  rw [h]
  split
  · split <;> rfl
  · rfl

/-- What the sweep makes of an old entry. -/
def sweptRetval (heap : Heap) (here : Monitorent) : Int16 :=
  if maxRetries heap here.checkent ≤ here.wakeupCount then Result.killed else Result.timedout

theorem retval_swept (now : Time) (stale : Ref → Bool) (heap : Heap) (here : Monitorent) :
    (swept now stale heap here).retval =
      if stale here.checkent then sweptRetval heap here else here.retval := by
  unfold swept wakeIfStale wakeUp sweptRetval
  split
  · split <;> rfl
  · rfl

theorem wakeupLoop_fst (now : Time) (stale : Ref → Bool) (queue : List Monitorent) (heap : Heap) :
    (wakeupLoop now stale queue heap).1 = queue.map (swept now stale heap) := by
  induction queue generalizing heap with
  | nil => rfl
  | cons here rest ih =>
      show swept now stale heap here :: (wakeupLoop now stale rest _).1 = _
      rw [ih, List.map_cons]
      congr 1
      refine List.map_congr_left fun there _ => ?_
      exact swept_congr (maxRetries_wakeIfStale now stale heap here) now stale there

theorem sweptRetval_ne (heap : Heap) (here : Monitorent) : sweptRetval heap here ≠ -1 := by
  unfold sweptRetval
  split <;> decide

theorem keeps_wakeupChecks_iff (h : Queued m) (now : Time) (stale : Ref → Bool) :
    Keeps m (.wakeup now stale) ↔ sparesResults m (.wakeup now stale) := by
  have hqueue : (m.step (.wakeup now stale)).queue =
      m.queue.map (swept now stale m.daemon.heap) := wakeupLoop_fst _ _ _ _
  have href : ∀ here, (swept now stale m.daemon.heap here).checkent = here.checkent :=
    fun here => (wakeIfStale_spec now stale m.daemon.heap here).1
  constructor
  · intro hkeeps here hhere hstale
    refine or_iff_not_imp_left.mpr fun hret => ?_
    have hbefore := (resultOf_eq_some_iff h.once).mpr ⟨here, hhere, rfl, rfl, hret⟩
    have hmem : swept now stale m.daemon.heap here ∈ (m.step (.wakeup now stale)).queue := by
      rw [hqueue]
      exact List.mem_map_of_mem hhere
    have hnew : (swept now stale m.daemon.heap here).retval = sweptRetval m.daemon.heap here := by
      rw [retval_swept, if_pos hstale]
    have hafter := (resultOf_eq_some_iff (queued_step m _ h).once).mpr
      ⟨_, hmem, href here, hnew, sweptRetval_ne m.daemon.heap here⟩
    exact (hkeeps _ _ _ hbefore hafter).symm
  · intro hspares
    refine keeps_of_map h (f := swept now stale m.daemon.heap) (fun there hthere => ?_) href
      (fun here hhere hret _ => ?_)
    · rw [hqueue, List.mem_map] at hthere
      obtain ⟨here, hhere, rfl⟩ := hthere
      exact Or.inr ⟨here, hhere, rfl⟩
    · rw [retval_swept]
      split
      next hstale => exact ((hspares here hhere hstale).resolve_left hret).symm
      next => rfl

theorem keeps_iff (h : Queued m) (event : Event) : Keeps m event ↔ sparesResults m event := by
  cases event with
  | queue r => exact iff_of_true (keeps_queueCheck h r) trivial
  | service pass => exact iff_of_true (keeps_serviceChecks h pass) trivial
  | ready answer ready => exact iff_of_true (keeps_serviceReady h answer ready) trivial
  | wakeup now stale => exact keeps_wakeupChecks_iff h now stale
  | reload env file =>
      refine iff_of_true (fun r before after _ hafter => ?_) trivial
      have hqueue : (m.step (.reload env file)).queue = [] := (queue_reload h env file).1
      rw [hqueue] at hafter
      exact absurd hafter (by simp [resultOf, finished])

/-! ### Runs -/

/-- The entries are in order, and nothing is on record for an object whose entry has no result. -/
structure Watched.Ok (w : Watched) : Prop where
  queued : Queued w.monitor
  none : ∀ r, resultOf w.monitor.queue r = none → w.recorded r = none

theorem ok_step (w : Watched) (event : Event) (h : w.Ok) : (w.step event).Ok := by
  refine ⟨queued_step w.monitor event h.queued, fun r hr => ?_⟩
  show (resultOf (w.monitor.step event).queue r).map _ = none
  change resultOf (w.monitor.step event).queue r = none at hr
  rw [hr]
  rfl

theorem resultsKept_iff {w : Watched} (h : Queued w.monitor) :
    ResultsKept w ↔ ∀ r result, resultOf w.monitor.queue r = some result → w.recorded r = some result := by
  constructor
  · exact fun hkept r result hr => hkept (r, result) ((mem_handed_iff h.once).mpr hr)
  · exact fun hkept call hcall => hkept call.1 call.2 ((mem_handed_iff h.once).mp hcall)

theorem resultsKept_step_iff (w : Watched) (event : Event) (h : w.Ok) (hkept : ResultsKept w) :
    ResultsKept (w.step event) ↔ sparesResults w.monitor event := by
  have hrecorded : w.recorded = resultOf w.monitor.queue := by
    funext r
    cases hr : resultOf w.monitor.queue r with
    | none => exact h.none r hr
    | some result => exact (resultsKept_iff h.queued).mp hkept r result hr
  rw [← keeps_iff h.queued, resultsKept_iff (queued_step w.monitor event h.queued)]
  have hnote : ∀ r after, resultOf (w.monitor.step event).queue r = some after →
      (w.step event).recorded r = some ((resultOf w.monitor.queue r).getD after) := by
    intro r after hafter
    show (resultOf (w.monitor.step event).queue r).map _ = _
    rw [hafter, ← hrecorded]
    rfl
  constructor
  · intro hnext r before after hbefore hafter
    have hsame := hnext r after hafter
    rw [hnote r after hafter, hbefore] at hsame
    exact (Option.some.inj hsame).symm
  · intro hkeeps r after hafter
    rw [hnote r after hafter]
    cases hbefore : resultOf w.monitor.queue r with
    | none => rfl
    | some before => exact congrArg some (hkeeps r before after hbefore hafter).symm

/-- In a run of the daemon `handle_retval` would get what the checks came to, at any time, exactly when
the sweep never finds an old entry that had come to another result than the one it gives. -/
theorem results_kept_iff (globals : Scratch) (env : Env) (tokens : List Token) (events : List Event) :
    Run.Always Watched.step ResultsKept (Watched.boot globals env tokens) events ↔
      Run.Guarded Watched.step (fun w => sparesResults w.monitor) (Watched.boot globals env tokens)
        events := by
  have hboot : (Watched.boot globals env tokens).Ok :=
    ⟨⟨rfl, List.nodup_nil, fun r hr => absurd hr List.not_mem_nil⟩, fun _ _ => rfl⟩
  exact Run.always_iff_guarded ok_step resultsKept_step_iff hboot
    fun call hcall => absurd hcall List.not_mem_nil

/-- A pass in which every check finds its host up. -/
def okPass : Pass := { idlePass with answer := fun _ => Result.ok }

/-- The only host has answered, and is reported as timed out: its entry was old when it was swept. -/
theorem sweep_replaces_result :
    ¬ Run.Always Watched.step ResultsKept (Watched.boot Scratch.atStart resolving oneHost)
      [.queue 0, .service okPass, .wakeup 61 (fun _ => true)] := by
  intro h
  have hkept := h _ List.prefix_rfl (0, Result.timedout) (by decide)
  exact absurd hkept (by decide)

end Sysmon.Queue
