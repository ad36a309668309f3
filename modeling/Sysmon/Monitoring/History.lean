import Sysmon.Agents.History
import Sysmon.Monitoring.Delta

/-!
# The history of the hosts

`storeSnapshotLocked` compares the status of every host with that in the snapshot before, and what has changed is handed
to `HistoryStore.Append`. A host that was not in the snapshot before has nothing to be compared with: the one that comes
back in another state than it left in does so without an event. And what an `Append` could not record is not handed to
another one.
-/

namespace Sysmon.Monitoring

open Fleet (ascii)
open Agents (GoString)
open Alerts (HistoryEvent HistoryStore)

/-- An event of the history, as it is handed over. -/
def eventOf (old : GoString) (h : HostStatus) : HistoryEvent where
  id := 0
  timestamp := 0
  objectName := h.objectName
  site := h.site
  localName := h.localName
  hostname := h.hostname
  description := h.description
  prevStatus := old
  newStatus := h.overallStatus
  prevDuration := 0

/-- The host that an event is of. -/
def eventKey (event : HistoryEvent) : GoString :=
  if event.objectName ≠ [] then event.objectName else event.hostname

def isOf (key : GoString) (event : HistoryEvent) : Bool := decide (eventKey event = key)

/-- The hosts of a snapshot by their keys. Of two with the same key the later one stays. -/
def previous (hosts : List HostStatus) : Map HostStatus := GoMap.insertAll hostKey hosts ∅

/-- What one host has to say. -/
def transition (prev : List HostStatus) (h : HostStatus) : Option HistoryEvent :=
  ((previous prev).lookup (hostKey h)).bind fun old =>
    if old.overallStatus ≠ h.overallStatus then some (eventOf old.overallStatus h) else none

/-- What `storeSnapshotLocked` returns. The first snapshot is the baseline. -/
def transitions (s : Service) (hosts : List HostStatus) : List HistoryEvent :=
  s.cachedStatus.elim [] fun prev => hosts.filterMap (transition prev)

/-! ### The service and its history -/

structure Recorder where
  service : Service
  store : HistoryStore

def Recorder.start : Recorder := ⟨Service.start, HistoryStore.empty⟩

/-- A snapshot that was fetched, with the time its changes are appended at and what the two transactions come to. Or the
clock that prunes the history. -/
inductive Tick where
  | snapshot (hosts : List HostStatus) (now : Alerts.Instant) (commits prunes : Bool)
  | pruneNow (now : Alerts.Instant) (commits : Bool)

def Tick.hosts : Tick → Option (List HostStatus)
  | .snapshot hosts _ _ _ => some hosts
  | .pruneNow _ _ => none

/-- The hosts of the last snapshot. -/
def lastHosts (first : List HostStatus) (ticks : List Tick) : List HostStatus :=
  (ticks.filterMap Tick.hosts).getLast?.getD first

/-- The end of `refreshSnapshot`: a snapshot is stored, and what has changed is recorded. An error is only logged. -/
def Recorder.step (seconds : Alerts.Instant → Alerts.Instant → Int) (recorder : Recorder) : Tick → Recorder
  | .snapshot hosts now commits prunes =>
      { service := storeSnapshot recorder.service hosts
        store := (Alerts.append seconds recorder.store (transitions recorder.service hosts) now commits prunes).1 }
  | .pruneNow now commits => { recorder with store := Alerts.prune recorder.store now commits }

/-- The rows that the history has of a host, in order. -/
def eventsOf (key : GoString) (store : HistoryStore) : List HistoryEvent := store.rows.filter (isOf key)

/-- The transaction that records a snapshot is committed. -/
def Tick.Records : Tick → Prop
  | .snapshot _ _ commits _ => commits = true
  | .pruneNow _ _ => True

/-- Nothing in the history is old, and there is room for what is to be recorded. -/
def Roomy (recorder : Recorder) : Tick → Prop
  | .snapshot hosts now _ _ => (∀ row ∈ recorder.store.rows.head?, ¬Alerts.Expired now row) ∧
      recorder.store.rows.length + (transitions recorder.service hosts).length ≤ Alerts.historyMax
  | .pruneNow now _ => (∀ row ∈ recorder.store.rows.head?, ¬Alerts.Expired now row) ∧
      recorder.store.rows.length ≤ Alerts.historyMax

/-! ### Replaying -/

/-- The status that events lead to, if each begins where the one before it has ended. -/
def replay (status : GoString) (events : List HistoryEvent) : Option GoString :=
  events.foldlM (fun status event => if event.prevStatus = status then some event.newStatus else none) status

def statusIn (hosts : List HostStatus) (key : GoString) : Option GoString :=
  (hosts.find? fun h => hostKey h = key).map HostStatus.overallStatus

/-- The snapshot lists the host, and no two hosts under one key. -/
structure Lists (key : GoString) (hosts : List HostStatus) : Prop where
  distinct : (hosts.map hostKey).Nodup
  present : key ∈ hosts.map hostKey

/-- The events recorded for a host of the last snapshot lead from the status it was first seen with to the one it has. -/
def Replays (seconds : Alerts.Instant → Alerts.Instant → Int) (ticks : List Tick) : Prop :=
  ∀ key now, statusIn (lastHosts [] ticks) key = some now →
    ∀ first, (ticks.filterMap Tick.hosts).findSome? (statusIn · key) = some first →
      replay first (eventsOf key (Run.exec (Recorder.step seconds) Recorder.start ticks).store) = some now

variable {key : GoString} {prev hosts : List HostStatus} {h : HostStatus}

theorem replay_append (status : GoString) (before after : List HistoryEvent) :
    replay status (before ++ after) = (replay status before).bind fun status => replay status after :=
  List.foldlM_append

theorem key_of (old : GoString) (h : HostStatus) : eventKey (eventOf old h) = hostKey h := rfl

theorem key_transition {event : HistoryEvent} (h' : transition prev h = some event) : eventKey event = hostKey h := by
  rw [transition, Option.bind_eq_some_iff] at h'
  obtain ⟨old, -, hevent⟩ := h'
  split at hevent
  · rw [← Option.some.inj hevent, key_of]
  · exact absurd hevent (by simp)

/-- Of the events of a snapshot none is of a host that is not in it. -/
theorem filter_transitions_of_not_mem (hnot : key ∉ hosts.map hostKey) :
    (hosts.filterMap (transition prev)).filter (isOf key) = [] := by
  rw [List.filter_eq_nil_iff]
  intro event hevent hkey
  obtain ⟨h, hmem, hstated⟩ := List.mem_filterMap.mp hevent
  have hsame : eventKey event = key := of_decide_eq_true hkey
  exact hnot (List.mem_map.mpr ⟨h, hmem, (key_transition hstated).symm.trans hsame⟩)

/-- And those of one host are what it has to say. -/
theorem filter_transitions (hdistinct : (hosts.map hostKey).Nodup) (hmem : h ∈ hosts) :
    (hosts.filterMap (transition prev)).filter (isOf (hostKey h)) = (transition prev h).toList := by
  induction hosts with
  | nil => exact absurd hmem List.not_mem_nil
  | cons first hosts ih =>
      obtain ⟨hnew, hrest⟩ := List.nodup_cons.mp hdistinct
      obtain rfl | hlater := List.mem_cons.mp hmem
      · cases hstated : transition prev h with
        | none => rw [List.filterMap_cons_none hstated, filter_transitions_of_not_mem hnew, Option.toList_none]
        | some event =>
            have hkey : isOf (hostKey h) event = true := decide_eq_true (key_transition hstated)
            rw [List.filterMap_cons_some hstated, List.filter_cons_of_pos hkey, filter_transitions_of_not_mem hnew,
              Option.toList_some]
      · have hother : hostKey first ≠ hostKey h := fun heq => hnew (heq ▸ List.mem_map_of_mem hlater)
        cases hstated : transition prev first with
        | none => rw [List.filterMap_cons_none hstated, ih hrest hlater]
        | some event =>
            have hkey : ¬isOf (hostKey h) event = true := fun hsame =>
              hother ((key_transition hstated).symm.trans (of_decide_eq_true hsame))
            rw [List.filterMap_cons_some hstated, List.filter_cons_of_neg hkey, ih hrest hlater]

theorem statusIn_eq_some (hlists : Lists key hosts) {status : GoString} :
    statusIn hosts key = some status ↔ ∃ h ∈ hosts, hostKey h = key ∧ h.overallStatus = status := by
  rw [statusIn, Option.map_eq_some_iff]
  refine exists_congr fun h => ?_
  rw [GoMap.find?_key_iff hlists.distinct, and_assoc]

/-- A host that was there before and is there now: what is recorded leads from the one status to the other. -/
theorem replay_transitions {s : Service} (hcached : s.cachedStatus = some prev) (hprev : Lists key prev)
    (hnow : Lists key hosts) {old new : GoString} (hold : statusIn prev key = some old)
    (hnew : statusIn hosts key = some new) :
    replay old ((transitions s hosts).filter (isOf key)) = some new := by
  obtain ⟨before, hbefore, hkey, rfl⟩ := (statusIn_eq_some hprev).mp hold
  obtain ⟨h, hmem, rfl, rfl⟩ := (statusIn_eq_some hnow).mp hnew
  have hlookup : (previous prev).lookup (hostKey h) = some before := by
    rw [← hkey]
    exact GoMap.lookup_insertAll_of_mem hprev.distinct hbefore
  rw [transitions, hcached, Option.elim_some, filter_transitions hnow.distinct hmem, transition, hlookup, Option.bind_some]
  by_cases hsame : before.overallStatus = h.overallStatus
  · rw [if_neg (not_not.mpr hsame), hsame]
    rfl
  · rw [if_pos hsame, Option.toList_some, replay, List.foldlM_cons]
    simp [eventOf]

/-- What a row says to a replay. -/
def told (event : HistoryEvent) : GoString × GoString × GoString := (eventKey event, event.prevStatus, event.newStatus)

/-- What `Append` fills in does not matter to a replay. -/
theorem map_told_newRows (seconds : Alerts.Instant → Alerts.Instant → Int) (store : HistoryStore)
    (events : List HistoryEvent) (now : Alerts.Instant) :
    (Alerts.newRows seconds store events now).map told = events.map told := by
  have hnumber : ∀ rows : List HistoryEvent, (Alerts.number store.sequence rows).map told = rows.map told := by
    intro rows
    rw [Alerts.number, List.map_map]
    exact (List.map_map (g := told) (f := Prod.fst)).symm.trans (congrArg _ (List.zipIdx_map_fst 0 rows))
  rw [Alerts.newRows, hnumber, List.map_map]
  rfl

theorem replay_congr {rows events : List HistoryEvent} (h : rows.map told = events.map told) (key status : GoString) :
    replay status (rows.filter (isOf key)) = replay status (events.filter (isOf key)) := by
  induction rows generalizing events status with
  | nil => rw [List.map_eq_nil_iff.mp h.symm]
  | cons row rows ih =>
      cases events with
      | nil => exact absurd h (List.cons_ne_nil _ _)
      | cons event events =>
          obtain ⟨hhead, htail⟩ := List.cons.inj h
          have hkey : eventKey row = eventKey event := congrArg Prod.fst hhead
          have hprev : row.prevStatus = event.prevStatus := congrArg (fun told => told.2.1) hhead
          have hnew : row.newStatus = event.newStatus := congrArg (fun told => told.2.2) hhead
          have hof : isOf key row = isOf key event := by rw [isOf, isOf, hkey]
          by_cases hmine : isOf key event = true
          · rw [List.filter_cons_of_pos (hof.trans hmine), List.filter_cons_of_pos hmine, replay, replay,
              List.foldlM_cons, List.foldlM_cons, hprev, hnew]
            split
            · exact ih htail event.newStatus
            · rfl
          · rw [List.filter_cons_of_neg (hof ▸ hmine), List.filter_cons_of_neg hmine]
            exact ih htail status

/-- What a step hands to the history. -/
def handed (recorder : Recorder) : Tick → List HistoryEvent
  | .snapshot hosts _ _ _ => transitions recorder.service hosts
  | .pruneNow _ _ => []

section run

variable (seconds : Alerts.Instant → Alerts.Instant → Int)

/-- A step puts that behind the rows that were there, of which the oldest may go. -/
theorem rows_step (recorder : Recorder) {tick : Tick} (hrecords : tick.Records) :
    ∃ rows, rows.map told = (handed recorder tick).map told ∧
      (recorder.step seconds tick).store.rows <:+ recorder.store.rows ++ rows ∧
      (Roomy recorder tick → (recorder.step seconds tick).store.rows = recorder.store.rows ++ rows) := by
  cases tick with
  | snapshot hosts now commits prunes =>
      have hcommits : commits = true := hrecords
      subst hcommits
      refine ⟨Alerts.newRows seconds recorder.store (transitions recorder.service hosts) now, map_told_newRows _ _ _ _,
        Alerts.append_suffix seconds recorder.store _ prunes now, fun hroomy => ?_⟩
      exact Alerts.append_all seconds recorder.store _ prunes hroomy.1 hroomy.2
  | pruneNow now commits =>
      refine ⟨[], rfl, ?_, fun hroomy => ?_⟩
      · rw [List.append_nil]
        exact Alerts.prune_suffix recorder.store now commits
      · rw [List.append_nil]
        cases commits with
        | false => rfl
        | true => exact Alerts.pruneLoop_eq hroomy.1 (by have hroom := hroomy.2; omega)

theorem eventsOf_step (recorder : Recorder) {tick : Tick} (hrecords : tick.Records) (key : GoString) :
    ∃ events, (∀ status, replay status events = replay status ((handed recorder tick).filter (isOf key))) ∧
      eventsOf key (recorder.step seconds tick).store <:+ eventsOf key recorder.store ++ events ∧
      (Roomy recorder tick →
        eventsOf key (recorder.step seconds tick).store = eventsOf key recorder.store ++ events) := by
  obtain ⟨rows, htold, hsuffix, hall⟩ := rows_step seconds recorder hrecords
  refine ⟨rows.filter (isOf key), replay_congr htold key, ?_, fun hroomy => ?_⟩
  · rw [eventsOf, eventsOf, ← List.filter_append]
    exact hsuffix.filter _
  · rw [eventsOf, eventsOf, hall hroomy, List.filter_append]

/-- The ticks after a snapshot that lists a host, while the snapshots go on listing it. -/
theorem replay_run {recorder : Recorder} {first : List HostStatus} {stay : List Tick}
    (hcached : recorder.service.cachedStatus = some first) (hfirst : Lists key first)
    (hstay : ∀ hosts ∈ stay.filterMap Tick.hosts, Lists key hosts) (hrecords : ∀ tick ∈ stay, tick.Records)
    {status now : GoString} (hstatus : statusIn first key = some status)
    (hnow : statusIn (lastHosts first stay) key = some now) :
    ∃ events, replay status events = some now ∧
      eventsOf key (Run.exec (Recorder.step seconds) recorder stay).store <:+ eventsOf key recorder.store ++ events ∧
      (Run.Guarded (Recorder.step seconds) Roomy recorder stay →
        eventsOf key (Run.exec (Recorder.step seconds) recorder stay).store = eventsOf key recorder.store ++ events) := by
  induction stay generalizing recorder first status with
  | nil =>
      refine ⟨[], hstatus.symm.trans hnow, ?_, fun _ => ?_⟩
      · rw [Run.exec_nil, List.append_nil]
      · rw [Run.exec_nil, List.append_nil]
  | cons tick stay ih =>
      obtain ⟨step, hstated, hstep, hstepAll⟩ := eventsOf_step seconds recorder (hrecords tick List.mem_cons_self) key
      -- what is left is a run from the next snapshot, which this tick leads to
      have close : ∀ next nextHosts, (recorder.step seconds tick).service.cachedStatus = some nextHosts →
          Lists key nextHosts → statusIn nextHosts key = some next → replay status step = some next →
          lastHosts first (tick :: stay) = lastHosts nextHosts stay →
          (∀ hosts ∈ stay.filterMap Tick.hosts, Lists key hosts) →
          ∃ events, replay status events = some now ∧
            eventsOf key (Run.exec (Recorder.step seconds) recorder (tick :: stay)).store <:+
              eventsOf key recorder.store ++ events ∧
            (Run.Guarded (Recorder.step seconds) Roomy recorder (tick :: stay) →
              eventsOf key (Run.exec (Recorder.step seconds) recorder (tick :: stay)).store =
                eventsOf key recorder.store ++ events) := by
        intro next nextHosts hcached' hnext hstatus' hreplay hlast hrest
        obtain ⟨events, hleads, hsuffix, hall⟩ := ih hcached' hnext hrest
          (fun later hlater => hrecords later (List.mem_cons_of_mem tick hlater)) hstatus' (hlast ▸ hnow)
        refine ⟨step ++ events, ?_, ?_, fun hroomy => ?_⟩
        · rw [replay_append, hreplay, Option.bind_some, hleads]
        · rw [Run.exec_cons, ← List.append_assoc]
          exact hsuffix.trans (List.suffix_append_self_iff.mpr hstep)
        · obtain ⟨hhere, hlater⟩ := Run.guarded_cons.mp hroomy
          rw [Run.exec_cons, hall hlater, hstepAll hhere, List.append_assoc]
      cases tick with
      | pruneNow pruned commits =>
          exact close status first hcached hfirst hstatus (hstated status) rfl hstay
      | snapshot hosts appended commits prunes =>
          have hlists := hstay hosts List.mem_cons_self
          obtain ⟨h, hmem, hkey⟩ := List.mem_map.mp hlists.present
          have hnext : statusIn hosts key = some h.overallStatus := (statusIn_eq_some hlists).mpr ⟨h, hmem, hkey, rfl⟩
          refine close h.overallStatus hosts rfl hlists hnext ?_ ?_ fun later hlater => ?_
          · rw [hstated]
            exact replay_transitions hcached hfirst hlists hstatus hnext
          · rw [lastHosts, lastHosts, List.filterMap_cons_some (show Tick.hosts _ = some hosts from rfl), List.getLast?_cons]
            rfl
          · exact hstay later (List.mem_cons_of_mem hosts hlater)

/-- From any snapshot on while a host is there without a gap and under a key of its own, and no transaction fails, the
events recorded since lead from the status it had then to the one it has now, each from where the one before has ended.
Of what the history held and of these events it has all but the oldest, and all of them while nothing is old and there
is room. -/
theorem history_replays (before stay : List Tick) (first : List HostStatus) (seenAt : Alerts.Instant)
    (commits prunes : Bool) (key : GoString)
    (hlists : ∀ hosts ∈ first :: stay.filterMap Tick.hosts, Lists key hosts)
    (hrecords : ∀ tick ∈ stay, tick.Records) (status now : GoString) (hstatus : statusIn first key = some status)
    (hnow : statusIn (lastHosts first stay) key = some now) :
    let seen := Run.exec (Recorder.step seconds) Recorder.start (before ++ [.snapshot first seenAt commits prunes])
    let latest := Run.exec (Recorder.step seconds) seen stay
    ∃ events, replay status events = some now ∧
      eventsOf key latest.store <:+ eventsOf key seen.store ++ events ∧
      (Run.Guarded (Recorder.step seconds) Roomy seen stay →
        eventsOf key latest.store = eventsOf key seen.store ++ events) := by
  refine replay_run seconds ?_ (hlists first List.mem_cons_self)
    (fun hosts hmem => hlists hosts (List.mem_cons_of_mem first hmem)) hrecords hstatus hnow
  rw [Run.exec_concat]
  rfl

end run

/-- The difference of two times in whole seconds. -/
def wholeSeconds (last now : Alerts.Instant) : Int := (now - last : Nat) / Alerts.nanos

/-- A host that goes into a warning and out of it again. -/
theorem history_replays_flap :
    let seen := Run.exec (Recorder.step wholeSeconds) Recorder.start
      ([] ++ [.snapshot [hostX (ascii "OK")] 0 true true])
    let latest := Run.exec (Recorder.step wholeSeconds) seen
      [.snapshot [hostX (ascii "WARNING")] 60 true true, .pruneNow 90 true, .snapshot [hostX (ascii "OK")] 120 true true]
    ∃ events, replay (ascii "OK") events = some (ascii "OK") ∧
      eventsOf (ascii "x") latest.store <:+ eventsOf (ascii "x") seen.store ++ events ∧
      (Run.Guarded (Recorder.step wholeSeconds) Roomy seen
          [.snapshot [hostX (ascii "WARNING")] 60 true true, .pruneNow 90 true,
            .snapshot [hostX (ascii "OK")] 120 true true] →
        eventsOf (ascii "x") latest.store = eventsOf (ascii "x") seen.store ++ events) :=
  history_replays wholeSeconds []
    [.snapshot [hostX (ascii "WARNING")] 60 true true, .pruneNow 90 true, .snapshot [hostX (ascii "OK")] 120 true true]
    [hostX (ascii "OK")] 0 true true (ascii "x")
    (fun hosts hmem => by
      have hlisted : hosts ∈ [[hostX (ascii "OK")], [hostX (ascii "WARNING")], [hostX (ascii "OK")]] := hmem
      simp only [List.mem_cons, List.not_mem_nil, or_false] at hlisted
      obtain rfl | rfl | rfl := hlisted
      all_goals exact ⟨by decide, by decide⟩)
    (fun tick hmem => by
      obtain rfl | rfl | rfl : tick = _ ∨ tick = _ ∨ tick = _ := by simpa using hmem
      all_goals first | exact rfl | exact trivial)
    (ascii "OK") (ascii "OK") (by decide) (by decide)

/-- A host leaves and comes back in another state; two hosts have one key, of which the later one is compared with; and
a change that could not be recorded is not recorded later. -/
theorem not_replays_returned :
    ¬Replays wholeSeconds [.snapshot [hostX (ascii "OK")] 0 true true, .snapshot [] 60 true true,
        .snapshot [hostX (ascii "WARNING")] 120 true true] ∧
      ¬Replays wholeSeconds [.snapshot [hostX (ascii "OK"), hostX (ascii "WARNING")] 0 true true,
        .snapshot [hostX (ascii "OK"), hostX (ascii "WARNING")] 60 true true] ∧
      ¬Replays wholeSeconds [.snapshot [hostX (ascii "OK")] 0 true true,
        .snapshot [hostX (ascii "WARNING")] 60 false true] := by
  refine ⟨fun h => ?_, fun h => ?_, fun h => ?_⟩
  · have hreplay := h (ascii "x") (ascii "WARNING") (by decide) (ascii "OK") (by decide)
    exact absurd hreplay (by decide)
  · have hreplay := h (ascii "x") (ascii "OK") (by decide) (ascii "OK") (by decide)
    exact absurd hreplay (by decide)
  · have hreplay := h (ascii "x") (ascii "WARNING") (by decide) (ascii "OK") (by decide)
    exact absurd hreplay (by decide)

end Sysmon.Monitoring
