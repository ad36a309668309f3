import Sysmon.Agents.Tokens
import Sysmon.Lib.Edges
import Sysmon.Lib.GoMap
import Sysmon.Lib.Run

/-!
# The watcher that pushes

Once a second the push service asks for the status of all hosts and tells the phones what has changed: a host
whose status is not the one it was seen with last, and the fleet when all of it has been dark for half a minute,
or is back. A poll is one event here. What it finds is written down whether push is enabled or not, and it is
sent only if it is.
-/

namespace Sysmon.Push

open Agents (GoString)
open Fleet (ascii)

/-! ### Hosts and polls -/

/-- What a poll reads of a host; the measured figures are left out. -/
structure HostStatus where
  objectName : GoString
  hostname : GoString
  description : GoString
  overallStatus : GoString
  acked : Bool
  /-- The type of its first check. -/
  checkType : GoString
  deriving DecidableEq, Repr

structure FleetStatus where
  hosts : List HostStatus
  sitesTotal : Nat
  sitesReachable : Nat
  deriving DecidableEq, Repr

/-- The name under which a host is watched. -/
def HostStatus.key (host : HostStatus) : GoString := if host.objectName = [] then host.hostname else host.objectName

/-- `strings.ToUpper`, of ASCII. -/
def toUpper (s : GoString) : GoString := s.map fun c => if 97 ≤ c && c ≤ 122 then c - 32 else c

/-! ### What is sent -/

/-- What becomes of the fleet. -/
inductive Coverage where
  | degraded (total : Nat)
  | restored (reachable total : Nat)
  deriving DecidableEq, Repr

/-- A call of `notifyAll`, with what it is called for. -/
inductive Send where
  | stateChange (host : HostStatus) (prevStatus : GoString) (badge : Nat)
  | coverage (change : Coverage) (badge : Nat)
  deriving DecidableEq, Repr

def Send.title : Send → GoString
  | .stateChange host _ _ =>
      let status := toUpper host.overallStatus
      if status = ascii "CRITICAL" ∨ status = ascii "WARNING" then host.hostname ++ ascii " DOWN"
      else if status = ascii "OK" then host.hostname ++ ascii " RECOVERED"
      else host.hostname ++ ascii " " ++ host.overallStatus
  | .coverage (.degraded _) _ => ascii "MONITORING DEGRADED"
  | .coverage (.restored _ _) _ => ascii "MONITORING RESTORED"

/-- It makes a sound. -/
def Send.critical : Send → Bool
  | .stateChange host _ _ => toUpper host.overallStatus = ascii "CRITICAL"
  | .coverage (.degraded _) _ => true
  | .coverage (.restored _ _) _ => false

/-- The newer of two with the same key takes the place of the older. -/
def Send.collapseKey : Send → GoString
  | .stateChange host _ _ => host.key
  | .coverage _ _ => ascii "fleet-coverage"

/-! ### A poll -/

/-- The status that each host was seen with last. -/
abbrev Statuses := AList fun _ : GoString => GoString

structure Watcher where
  prevHosts : Statuses
  fleetDarkSince : Option Int
  fleetDarkNotified : Bool

/-- Half a minute, in the nanoseconds times are counted in. -/
def fleetDarkDwell : Int := 30 * 1000000000

def fleetCoverageChange (s : Watcher) (total reachable : Nat) (now : Int) : Watcher × Option Coverage :=
  if 0 < total ∧ reachable = 0 then
    let since := s.fleetDarkSince.getD now
    if !s.fleetDarkNotified && since + fleetDarkDwell ≤ now then
      ({ s with fleetDarkSince := some since, fleetDarkNotified := true }, some (.degraded total))
    else ({ s with fleetDarkSince := some since }, none)
  else
    ({ s with fleetDarkSince := none, fleetDarkNotified := false },
      if s.fleetDarkNotified then some (.restored reachable total) else none)

/-- One host of the loop, with the changes that have been found. -/
def noteHost (initialSeed : Bool) (acc : Statuses × List (HostStatus × GoString)) (host : HostStatus) :
    Statuses × List (HostStatus × GoString) :=
  (acc.1.insert host.key host.overallStatus,
    match acc.1.lookup host.key with
    | none => acc.2
    | some prevStatus =>
        if initialSeed || prevStatus = host.overallStatus then acc.2 else acc.2 ++ [(host, prevStatus)])

/-- How many hosts are not OK and not acknowledged. -/
def badge (hosts : List HostStatus) : Nat :=
  hosts.countP fun host => toUpper host.overallStatus ≠ ascii "OK" && !host.acked

/-- One call of `pollAndNotify`. -/
structure Poll where
  initialSeed : Bool
  /-- Whether push is enabled when the poll comes to its sending. -/
  enabled : Bool
  now : Int
  /-- What `GetStatus` returns, if it is no error. -/
  status : Option FleetStatus
  deriving DecidableEq, Repr

def pollAndNotify (s : Watcher) (poll : Poll) : Watcher × List Send :=
  match poll.status with
  | none => (s, [])
  | some status =>
      let noted := status.hosts.foldl (noteHost poll.initialSeed) (s.prevHosts, [])
      let covered := fleetCoverageChange { s with prevHosts := noted.1 } status.sitesTotal status.sitesReachable poll.now
      let count := badge status.hosts
      (covered.1,
        if poll.enabled then
          noted.2.map (fun change => .stateChange change.1 change.2 count) ++ covered.2.toList.map (.coverage · count)
        else [])

/-- The watcher of a new service. -/
def Watcher.start : Watcher := ⟨∅, none, false⟩

/-- The watcher, and all that it has sent, the oldest first. -/
structure State where
  watcher : Watcher
  sent : List Send

def State.step (st : State) (poll : Poll) : State :=
  let polled := pollAndNotify st.watcher poll
  ⟨polled.1, st.sent ++ polled.2⟩

def State.start : State := ⟨.start, []⟩

/-! ### Hosts -/

variable {watcher : Watcher} {poll : Poll} {polls : List Poll} {key : GoString}

/-- What a list of hosts says of one of them, with whether a change of it is to be sent. -/
def seenOf (key : GoString) (marked : Bool) (hosts : List HostStatus) : List (GoString × Bool) :=
  (hosts.filter fun host => host.key = key).map fun host => (host.overallStatus, marked)

/-- What the polls say of a host. -/
def observed (key : GoString) (polls : List Poll) : List (GoString × Bool) :=
  polls.flatMap fun poll => poll.status.toList.flatMap fun status =>
    seenOf key (poll.enabled && !poll.initialSeed) status.hosts

/-- What the subscribers are told of a host, as the statuses before and after. -/
def told (key : GoString) (sent : List Send) : List (GoString × GoString) :=
  sent.filterMap fun
    | .stateChange host prevStatus _ => if host.key = key then some (prevStatus, host.overallStatus) else none
    | .coverage _ _ => none

/-- The changes of one host. -/
def changesOf (key : GoString) (changes : List (HostStatus × GoString)) : List (GoString × GoString) :=
  (changes.filter fun change => change.1.key = key).map fun change => (change.2, change.1.overallStatus)

theorem noteHost_self (initialSeed : Bool) (acc : Statuses × List (HostStatus × GoString)) (host : HostStatus) :
    (noteHost initialSeed acc host).1.lookup host.key = some host.overallStatus ∧
      changesOf host.key (noteHost initialSeed acc host).2 = changesOf host.key acc.2 ++
        Edges.edgesFrom (acc.1.lookup host.key) [(host.overallStatus, !initialSeed)] := by
  refine ⟨AList.lookup_insert _, ?_⟩
  rw [noteHost]
  dsimp only
  cases hlookup : acc.1.lookup host.key with
  | none => simp [Edges.edgesFrom]
  | some prevStatus =>
      dsimp only
      by_cases hquiet : (initialSeed || decide (prevStatus = host.overallStatus)) = true
      · rw [if_pos hquiet]
        have hnone : ¬((!initialSeed) = true ∧ prevStatus ≠ host.overallStatus) := by
          cases initialSeed <;> simp_all
        rw [Edges.edgesFrom, Option.toList_some, List.filterMap_cons, if_neg hnone]
        exact (List.append_nil _).symm
      · rw [if_neg hquiet]
        obtain ⟨hseed, hchanged⟩ : initialSeed = false ∧ prevStatus ≠ host.overallStatus := by
          cases initialSeed <;> simp_all
        simp [Edges.edgesFrom, changesOf, hseed, hchanged]

theorem noteHost_other {host : HostStatus} (initialSeed : Bool) (acc : Statuses × List (HostStatus × GoString))
    (hother : host.key ≠ key) : (noteHost initialSeed acc host).1.lookup key = acc.1.lookup key ∧
      changesOf key (noteHost initialSeed acc host).2 = changesOf key acc.2 := by
  refine ⟨AList.lookup_insert_ne (Ne.symm hother), ?_⟩
  rw [noteHost]
  dsimp only
  split
  · rfl
  · split
    · rfl
    · simp [changesOf, hother]

/-- The loop over the hosts, seen by one of them. -/
theorem foldl_noteHost (initialSeed : Bool) (hosts : List HostStatus) (acc : Statuses × List (HostStatus × GoString)) :
    (hosts.foldl (noteHost initialSeed) acc).1.lookup key =
        Edges.lastSeen (acc.1.lookup key) (seenOf key (!initialSeed) hosts) ∧
      changesOf key (hosts.foldl (noteHost initialSeed) acc).2 =
        changesOf key acc.2 ++ Edges.edgesFrom (acc.1.lookup key) (seenOf key (!initialSeed) hosts) := by
  induction hosts generalizing acc with
  | nil => exact ⟨rfl, (List.append_nil _).symm⟩
  | cons host hosts ih =>
      obtain ⟨hlookup, hchanges⟩ := ih (noteHost initialSeed acc host)
      rw [List.foldl_cons, hlookup, hchanges]
      by_cases hkey : host.key = key
      · subst hkey
        obtain ⟨hself, hnew⟩ := noteHost_self initialSeed acc host
        have hseen : seenOf host.key (!initialSeed) (host :: hosts) =
            (host.overallStatus, !initialSeed) :: seenOf host.key (!initialSeed) hosts := by simp [seenOf]
        rw [hself, hnew, hseen, Edges.lastSeen_cons]
        refine ⟨rfl, ?_⟩
        rw [List.append_assoc, ← List.singleton_append (l := seenOf _ _ _), Edges.edgesFrom_append]
        rfl
      · obtain ⟨hsame, hnone⟩ := noteHost_other initialSeed acc hkey
        have hseen : seenOf key (!initialSeed) (host :: hosts) = seenOf key (!initialSeed) hosts := by
          simp [seenOf, hkey]
        rw [hsame, hnone, hseen]
        exact ⟨rfl, rfl⟩

theorem told_append (key : GoString) (left right : List Send) : told key (left ++ right) = told key left ++ told key right :=
  List.filterMap_append

theorem told_changes (key : GoString) (changes : List (HostStatus × GoString)) (count : Nat) :
    told key (changes.map fun change => .stateChange change.1 change.2 count) = changesOf key changes := by
  induction changes with
  | nil => rfl
  | cons change changes ih =>
      have hcons : told key (.stateChange change.1 change.2 count ::
            changes.map fun change => .stateChange change.1 change.2 count) =
          (if change.1.key = key then some (change.2, change.1.overallStatus) else none).toList ++
            changesOf key changes := by
        rw [← ih, told, List.filterMap_cons]
        split <;> simp_all [told]
      rw [List.map_cons, hcons]
      by_cases hkey : change.1.key = key <;> simp [hkey, changesOf]

theorem told_coverage (key : GoString) (change : Option Coverage) (count : Nat) :
    told key (change.toList.map (.coverage · count)) = [] := by
  cases change <;> rfl

/-- The marks say nothing of what was seen last. -/
theorem lastSeen_seenOf (last : Option GoString) (marked marked' : Bool) (hosts : List HostStatus) :
    Edges.lastSeen last (seenOf key marked hosts) = Edges.lastSeen last (seenOf key marked' hosts) := by
  rw [Edges.lastSeen, Edges.lastSeen, ← List.getLast?_map, ← List.getLast?_map, seenOf, seenOf, List.map_map,
    List.map_map]
  rfl

theorem fleetCoverageChange_prevHosts (s : Watcher) (total reachable : Nat) (now : Int) :
    (fleetCoverageChange s total reachable now).1.prevHosts = s.prevHosts := by
  rw [fleetCoverageChange]
  split
  · dsimp only
    split <;> rfl
  · rfl

/-- One poll, seen by one host. -/
theorem pollAndNotify_host (watcher : Watcher) (poll : Poll) (key : GoString) :
    (pollAndNotify watcher poll).1.prevHosts.lookup key =
        Edges.lastSeen (watcher.prevHosts.lookup key) (observed key [poll]) ∧
      told key (pollAndNotify watcher poll).2 =
        Edges.edgesFrom (watcher.prevHosts.lookup key) (observed key [poll]) := by
  rw [observed, List.flatMap_singleton, pollAndNotify]
  cases hstatus : poll.status with
  | none => exact ⟨rfl, rfl⟩
  | some status =>
      obtain ⟨hlookup, hchanges⟩ := @foldl_noteHost key poll.initialSeed status.hosts (watcher.prevHosts, [])
      rw [Option.toList_some, List.flatMap_singleton]
      dsimp only
      rw [fleetCoverageChange_prevHosts]
      refine ⟨hlookup.trans (lastSeen_seenOf _ _ _ _), ?_⟩
      cases henabled : poll.enabled with
      | false =>
          have hseen : seenOf key (false && !poll.initialSeed) status.hosts =
              ((status.hosts.filter fun host => host.key = key).map HostStatus.overallStatus).map
                fun value => (value, false) := by
            rw [List.map_map]
            rfl
          rw [hseen, Edges.edgesFrom_unmarked]
          rfl
      | true =>
          rw [if_pos rfl, told_append, told_changes, told_coverage, List.append_nil, hchanges, Bool.true_and]
          rfl

theorem exec_host (st : State) (polls : List Poll) (key : GoString) :
    (Run.exec State.step st polls).watcher.prevHosts.lookup key =
        Edges.lastSeen (st.watcher.prevHosts.lookup key) (observed key polls) ∧
      told key (Run.exec State.step st polls).sent =
        told key st.sent ++ Edges.edgesFrom (st.watcher.prevHosts.lookup key) (observed key polls) := by
  induction polls generalizing st with
  | nil => exact ⟨rfl, (List.append_nil _).symm⟩
  | cons poll polls ih =>
      obtain ⟨hlookup, hsent⟩ := ih (st.step poll)
      obtain ⟨hfirst, hnew⟩ := pollAndNotify_host st.watcher poll key
      have hsplit : observed key (poll :: polls) = observed key [poll] ++ observed key polls := by
        rw [observed, observed, observed, List.flatMap_cons, List.flatMap_singleton]
      rw [Run.exec_cons, hlookup, hsent, hsplit, Edges.lastSeen_append, Edges.edgesFrom_append, ← List.append_assoc,
        ← hnew, ← told_append, ← hfirst]
      exact ⟨rfl, rfl⟩

/-- The subscribers are told each change that a poll finds while push is enabled, and nothing else. If it is
enabled from the second sight of a host on, each change goes on from the one before, and after the last of them
they know the status that the host was seen with last. -/
theorem hosts_run (polls : List Poll) (key : GoString) :
    told key (Run.exec State.step .start polls).sent = Edges.edges (observed key polls) ∧
      ∀ first rest, observed key polls = first :: rest → (∀ moment ∈ rest, moment.2 = true) →
        List.IsChain (fun change next => change.2 = next.1)
            ((first.1, first.1) :: told key (Run.exec State.step .start polls).sent) ∧
          some (((told key (Run.exec State.step .start polls).sent).getLast?.map Prod.snd).getD first.1) =
            (Run.exec State.step .start polls).watcher.prevHosts.lookup key := by
  obtain ⟨hlookup, hsent⟩ := exec_host .start polls key
  have htold : told key (Run.exec State.step .start polls).sent = Edges.edges (observed key polls) := hsent
  refine ⟨htold, fun first rest hobserved hmarked => ?_⟩
  have hedges : Edges.edges (first :: rest) = Edges.edgesFrom (some first.1) rest := rfl
  rw [htold, hlookup, hobserved, hedges, Edges.lastSeen_cons, Edges.last_edge first.1 hmarked]
  refine ⟨Edges.isChain_edgesFrom first.1 hmarked, ?_⟩
  rw [Edges.lastSeen]
  cases rest.getLast? <;> rfl

/-! ### The fleet -/

/-- What a poll says of the fleet. -/
structure FleetPoll where
  total : Nat
  reachable : Nat
  now : Int
  deriving DecidableEq, Repr

def FleetPoll.dark (p : FleetPoll) : Bool := 0 < p.total && p.reachable = 0

def Poll.fleet (poll : Poll) : Option FleetPoll :=
  poll.status.map fun status => ⟨status.sitesTotal, status.sitesReachable, poll.now⟩

variable {history : List FleetPoll} {p : FleetPoll}

/-- The last polls, the newest first, as long as they have found the fleet dark. -/
def stretch (history : List FleetPoll) : List FleetPoll := history.takeWhile FleetPoll.dark

/-- Some poll of the darkness was half a minute or more after the first of it. -/
def alarmed (history : List FleetPoll) : Bool :=
  (stretch history).getLast?.any fun first => (stretch history).any fun p => first.now + fleetDarkDwell ≤ p.now

/-- What is to be told after a poll, by what the polls before it have found. -/
def coverageChange (history : List FleetPoll) (p : FleetPoll) : Option Coverage :=
  if alarmed (p :: history) && !alarmed history then some (.degraded p.total)
  else if alarmed history && !alarmed (p :: history) then some (.restored p.reachable p.total)
  else none

/-- What the watcher remembers of the polls. -/
def Watcher.Remembers (watcher : Watcher) (history : List FleetPoll) : Prop :=
  watcher.fleetDarkSince = (stretch history).getLast?.map FleetPoll.now ∧ watcher.fleetDarkNotified = alarmed history

theorem stretch_of_dark (hdark : p.dark = true) : stretch (p :: history) = p :: stretch history :=
  List.takeWhile_cons_of_pos hdark

theorem stretch_of_not_dark (hdark : p.dark = false) : stretch (p :: history) = [] :=
  List.takeWhile_cons_of_neg (by simp [hdark])

theorem alarmed_of_not_dark (hdark : p.dark = false) : alarmed (p :: history) = false := by
  rw [alarmed, stretch_of_not_dark hdark]
  rfl

/-- A darkness that goes on is as long as from its first poll to this one. -/
theorem alarmed_of_dark (hdark : p.dark = true) : alarmed (p :: history) =
    (decide (((stretch history).getLast?.map FleetPoll.now).getD p.now + fleetDarkDwell ≤ p.now) || alarmed history) := by
  rw [alarmed, alarmed, stretch_of_dark hdark, List.getLast?_cons, Option.any_some, List.any_cons]
  cases hlast : (stretch history).getLast? with
  | none =>
      rw [List.getLast?_eq_none_iff.mp hlast]
      simp
  | some first => simp

theorem fleetCoverageChange_spec {watcher : Watcher} (h : watcher.Remembers history) (p : FleetPoll) :
    (fleetCoverageChange watcher p.total p.reachable p.now).1.Remembers (p :: history) ∧
      (fleetCoverageChange watcher p.total p.reachable p.now).2 = coverageChange history p := by
  obtain ⟨hsince, hnotified⟩ := h
  rw [fleetCoverageChange, coverageChange, Watcher.Remembers]
  by_cases hdark : p.dark = true
  · have hcond : 0 < p.total ∧ p.reachable = 0 := by simpa [FleetPoll.dark] using hdark
    have hlast : (stretch (p :: history)).getLast?.map FleetPoll.now =
        some (((stretch history).getLast?.map FleetPoll.now).getD p.now) := by
      rw [stretch_of_dark hdark, List.getLast?_cons]
      cases (stretch history).getLast? <;> rfl
    rw [if_pos hcond, hlast, alarmed_of_dark hdark, hsince, hnotified]
    generalize ((stretch history).getLast?.map FleetPoll.now).getD p.now = since
    dsimp only
    cases halarmed : alarmed history with
    | true => simp
    | false => by_cases hlong : since + fleetDarkDwell ≤ p.now <;> simp [hlong]
  · rw [Bool.not_eq_true] at hdark
    have hcond : ¬(0 < p.total ∧ p.reachable = 0) := by
      intro hboth
      rw [FleetPoll.dark, hboth.2] at hdark
      simp [hboth.1] at hdark
    rw [if_neg hcond, alarmed_of_not_dark hdark, stretch_of_not_dark hdark, hnotified]
    cases alarmed history <;> exact ⟨⟨rfl, rfl⟩, rfl⟩

/-- What is sent of the fleet. -/
def coverages (sent : List Send) : List Coverage :=
  sent.filterMap fun
    | .stateChange _ _ _ => none
    | .coverage change _ => some change

/-- What is to be sent of the fleet, after the polls in the history. -/
def expected (history : List FleetPoll) : List Poll → List Coverage
  | [] => []
  | poll :: polls =>
      match poll.fleet with
      | none => expected history polls
      | some p => (if poll.enabled then (coverageChange history p).toList else []) ++ expected (p :: history) polls

theorem coverages_append (left right : List Send) : coverages (left ++ right) = coverages left ++ coverages right :=
  List.filterMap_append

theorem Watcher.Remembers.prevHosts {watcher : Watcher} (h : watcher.Remembers history) (statuses : Statuses) :
    Watcher.Remembers { watcher with prevHosts := statuses } history := h

/-- One poll, seen by the fleet. -/
theorem pollAndNotify_fleet {watcher : Watcher} (h : watcher.Remembers history) (polls : List Poll) (poll : Poll) :
    ∃ history', (pollAndNotify watcher poll).1.Remembers history' ∧
      expected history (poll :: polls) = coverages (pollAndNotify watcher poll).2 ++ expected history' polls := by
  rw [expected, pollAndNotify, Poll.fleet]
  cases hstatus : poll.status with
  | none => exact ⟨history, h, rfl⟩
  | some status =>
      obtain ⟨hremembers, hchange⟩ := fleetCoverageChange_spec
        (h.prevHosts (status.hosts.foldl (noteHost poll.initialSeed) (watcher.prevHosts, [])).1)
        ⟨status.sitesTotal, status.sitesReachable, poll.now⟩
      refine ⟨_, hremembers, ?_⟩
      have hhosts : ∀ (changes : List (HostStatus × GoString)) (count : Nat),
          coverages (changes.map fun change => .stateChange change.1 change.2 count) = [] := by
        intro changes count
        refine List.filterMap_eq_nil_iff.mpr fun send hsend => ?_
        obtain ⟨change, -, rfl⟩ := List.mem_map.mp hsend
        rfl
      have hfleet : ∀ (change : Option Coverage) (count : Nat),
          coverages (change.toList.map (.coverage · count)) = change.toList := by
        intro change count
        cases change <;> rfl
      dsimp only at hchange
      rw [Option.map_some]
      dsimp only
      rw [hchange]
      cases poll.enabled with
      | false => rfl
      | true => rw [if_pos rfl, if_pos rfl, coverages_append, hhosts, hfleet, List.nil_append]

theorem exec_fleet {st : State} (h : st.watcher.Remembers history) (polls : List Poll) :
    coverages (Run.exec State.step st polls).sent = coverages st.sent ++ expected history polls := by
  induction polls generalizing st history with
  | nil => exact (List.append_nil _).symm
  | cons poll polls ih =>
      obtain ⟨history', hremembers, hexpected⟩ := pollAndNotify_fleet h polls poll
      have hrest := @ih history' (st.step poll) hremembers
      rw [Run.exec_cons, hrest, hexpected, ← List.append_assoc, ← coverages_append]
      rfl

def Coverage.isDegraded : Coverage → Bool
  | .degraded _ => true
  | .restored _ _ => false

/-- While push is enabled, what is told is told in turns. -/
theorem isChain_expected (henabled : ∀ poll ∈ polls, poll.enabled = true) :
    List.IsChain (· ≠ ·) (alarmed history :: (expected history polls).map Coverage.isDegraded) := by
  induction polls generalizing history with
  | nil => exact .singleton _
  | cons poll polls ih =>
      have hrest := fun history => @ih history fun poll hpoll => henabled poll (List.mem_cons_of_mem _ hpoll)
      rw [expected]
      cases poll.fleet with
      | none => exact hrest history
      | some p =>
          have hnext := hrest (p :: history)
          dsimp only
          rw [henabled poll List.mem_cons_self, if_pos rfl, coverageChange]
          cases hbefore : alarmed history <;> cases hafter : alarmed (p :: history)
          · rw [hafter] at hnext
            exact hnext
          · rw [hafter] at hnext
            exact List.isChain_cons_cons.mpr ⟨Bool.false_ne_true, hnext⟩
          · rw [hafter] at hnext
            exact List.isChain_cons_cons.mpr ⟨Bool.false_ne_true.symm, hnext⟩
          · rw [hafter] at hnext
            exact hnext

/-- What is told of the fleet is told when the alarm begins and when it ends, if push is enabled just then: it
begins with a darkness that has gone on for half a minute without a break, and ends with the first poll that does not
find it dark. While push is enabled all the time, the two are told in turns, and the beginning is told first. -/
theorem coverage_run (polls : List Poll) :
    coverages (Run.exec State.step .start polls).sent = expected [] polls ∧
      ((∀ poll ∈ polls, poll.enabled = true) → List.IsChain (· ≠ ·)
        (false :: (coverages (Run.exec State.step .start polls).sent).map Coverage.isDegraded)) := by
  have hsent : coverages (Run.exec State.step .start polls).sent = expected [] polls :=
    @exec_fleet [] .start ⟨rfl, rfl⟩ polls
  refine ⟨hsent, fun henabled => ?_⟩
  rw [hsent]
  exact @isChain_expected polls [] henabled

end Sysmon.Push
