import Mathlib.Algebra.BigOperators.Group.Finset.Piecewise
import Mathlib.Algebra.BigOperators.Group.List.Basic
import Mathlib.Algebra.Order.BigOperators.Group.List
import Mathlib.Algebra.Order.Group.Nat
import Sysmon.Monitoring.Delta

/-!
# The statistics of the fleet

Three places of `service.go` count hosts and checks: `accumulateHost` with the end of `fetchStatus` for a daemon that
answers, a loop of `fetchFleet` for one that does not, and `scopeSite` for what one site is shown. A daemon that answers is
not asked for its number of checks, and one that does not has them counted in another way than `scopeSite` does.

Counting is adding: each place is shown to add something up over the hosts, and what is compared is what it adds for one.
-/

namespace Sysmon.Monitoring

open Fleet (ascii)
open Agents (GoString)

/-- `models.Stats`. A map counts 0 where it has no entry. -/
@[ext]
structure Stats where
  totalHosts : Nat
  healthyHosts : Nat
  warningHosts : Nat
  criticalHosts : Nat
  totalChecks : Nat
  checksByType : GoString → Nat
  checksByStatus : GoString → Nat

namespace Stats

instance : Zero Stats := ⟨⟨0, 0, 0, 0, 0, fun _ => 0, fun _ => 0⟩⟩

/-- Counter by counter. -/
def add (left right : Stats) : Stats where
  totalHosts := left.totalHosts + right.totalHosts
  healthyHosts := left.healthyHosts + right.healthyHosts
  warningHosts := left.warningHosts + right.warningHosts
  criticalHosts := left.criticalHosts + right.criticalHosts
  totalChecks := left.totalChecks + right.totalChecks
  checksByType := fun k => left.checksByType k + right.checksByType k
  checksByStatus := fun k => left.checksByStatus k + right.checksByStatus k

instance : Add Stats := ⟨add⟩

theorem add_def (left right : Stats) : left + right = left.add right := rfl

theorem zero_def : (0 : Stats) = ⟨0, 0, 0, 0, 0, fun _ => 0, fun _ => 0⟩ := rfl

instance : AddCommMonoid Stats where
  add_assoc := fun a b c => by
    simp only [add_def, add, Nat.add_assoc]
  zero_add := fun a => by
    simp only [add_def, zero_def, add, Nat.zero_add]
  add_zero := fun a => by
    simp only [add_def, zero_def, add, Nat.add_zero]
  add_comm := fun a b => by
    simp only [add_def, add, Nat.add_comm]
  nsmul := nsmulRec

end Stats

/-- One more of a kind. -/
def bump (counts : GoString → Nat) (k : GoString) : GoString → Nat := Function.update counts k (counts k + 1)

/-! ### A daemon that answers -/

/-- What `hostFromXML` makes of an object: a host with one check. -/
structure Reported where
  host : HostStatus
  check : CheckResult
  one : host.checks = [check]

/-- The statistics of a run, with its own counters for what is up and what is down. -/
structure Accumulated where
  statistics : Stats
  hosts : List HostStatus
  hostsUp : Nat
  hostsDown : Nat

def accumulateHost (status : Accumulated) (host : HostStatus) (checkType : GoString) : Accumulated :=
  let statistics := status.statistics
  let statistics := if host.overallStatus = ascii "WARNING" then
    { statistics with warningHosts := statistics.warningHosts + 1 } else statistics
  let statistics := if checkType ≠ [] then
    { statistics with checksByType := bump statistics.checksByType checkType } else statistics
  { statistics := { statistics with checksByStatus := bump statistics.checksByStatus host.overallStatus }
    hosts := status.hosts ++ [host]
    hostsUp := if host.overallStatus ≠ ascii "WARNING" ∧ host.overallStatus ≠ ascii "CRITICAL" then status.hostsUp + 1
      else status.hostsUp
    hostsDown := if host.overallStatus = ascii "CRITICAL" then status.hostsDown + 1 else status.hostsDown }

def urgency (h : HostStatus) : Nat := HostOrder.urgency (ascii "CRITICAL") (ascii "WARNING") h.overallStatus

def sortHostsByUrgency (hosts : List HostStatus) : List HostStatus :=
  HostOrder.sortHostsByUrgency urgency (fun h => h.hostname) hosts

/-- `models.SysmonStatus`, as far as this is about it. -/
structure SysmonStatus where
  statistics : Stats
  hosts : List HostStatus

/-- The end of `fetchStatus`, for the objects the daemon listed. One that it will not show when asked for is passed over. -/
def fetchStatus (objectNames : List (Option Reported)) : SysmonStatus :=
  let run := (objectNames.filterMap id).foldl (fun status reported =>
    accumulateHost status reported.host reported.check.type) ⟨0, [], 0, 0⟩
  { statistics := { run.statistics with
      totalHosts := objectNames.length
      healthyHosts := run.hostsUp
      criticalHosts := run.hostsDown }
    hosts := sortHostsByUrgency run.hosts }

/-! ### The fleet -/

/-- A daemon in one poll: what it said last, and what it lists now, if it answers. -/
structure PolledDaemon where
  lastHosts : List HostStatus
  answer : Option (List (Option Reported))

def PolledDaemon.staleHosts (d : PolledDaemon) : List HostStatus := d.lastHosts.map fun h => { h with stale := true }

def addAnswer (merged : SysmonStatus) (status : SysmonStatus) : SysmonStatus where
  statistics := merged.statistics + status.statistics
  hosts := merged.hosts ++ status.hosts

/-- A host of a daemon that does not answer. -/
def addStale (merged : SysmonStatus) (h : HostStatus) : SysmonStatus :=
  let statistics := merged.statistics
  let statistics := { statistics with
    totalHosts := statistics.totalHosts + 1
    totalChecks := statistics.totalChecks + h.checks.length
    checksByType := h.checks.foldl (fun counts (c : CheckResult) => bump counts c.type) statistics.checksByType
    checksByStatus := bump statistics.checksByStatus h.overallStatus }
  { statistics :=
      if h.overallStatus = ascii "WARNING" then { statistics with warningHosts := statistics.warningHosts + 1 }
      else if h.overallStatus = ascii "CRITICAL" then { statistics with criticalHosts := statistics.criticalHosts + 1 }
      else { statistics with healthyHosts := statistics.healthyHosts + 1 }
    hosts := merged.hosts ++ [h] }

def fetchFleet (fleet : List PolledDaemon) : SysmonStatus :=
  let merged := (fleet.filterMap fun d => d.answer.map fetchStatus).foldl addAnswer ⟨0, []⟩
  let merged := ((fleet.filter fun d => d.answer.isNone).flatMap PolledDaemon.staleHosts).foldl addStale merged
  { merged with hosts := sortHostsByUrgency merged.hosts }

/-! ### One site -/

/-- A host in `scopeSite`. -/
def countHost (statistics : Stats) (h : HostStatus) : Stats :=
  let statistics := { statistics with totalHosts := statistics.totalHosts + 1 }
  let statistics :=
    if h.overallStatus = ascii "CRITICAL" then { statistics with criticalHosts := statistics.criticalHosts + 1 }
    else if h.overallStatus = ascii "WARNING" then { statistics with warningHosts := statistics.warningHosts + 1 }
    else { statistics with healthyHosts := statistics.healthyHosts + 1 }
  let statistics := { statistics with checksByStatus := bump statistics.checksByStatus h.overallStatus }
  match h.checks with
  | [] => statistics
  | first :: _ =>
      if first.type ≠ [] then { statistics with checksByType := bump statistics.checksByType first.type } else statistics

/-- The statistics of `scopeSite`. -/
def siteStats (hosts : List HostStatus) (site : GoString) : Stats :=
  { (scopeSite site hosts).foldl countHost 0 with totalChecks := (scopeSite site hosts).length }

/-- The sites that have hosts. -/
def sites (hosts : List HostStatus) : Finset GoString := (hosts.map HostStatus.site).toFinset

/-- The statistics of the fleet are those of its sites together. -/
def SumOfSites (status : SysmonStatus) : Prop :=
  status.statistics = ∑ site ∈ sites status.hosts, siteStats status.hosts site

/-- Nobody who answers lists an object, and a host that is kept has one check, with a type. -/
def OneCheckEach (fleet : List PolledDaemon) : Prop :=
  (∀ d ∈ fleet, ∀ listed, d.answer = some listed → listed = []) ∧
    ∀ d ∈ fleet, d.answer = none → ∀ h ∈ d.lastHosts, ∃ check, h.checks = [check] ∧ check.type ≠ []

/-! ### What each place adds for a host -/

/-- One host of its status. -/
def ofStatus (h : HostStatus) : Stats where
  totalHosts := 0
  healthyHosts := if h.overallStatus ≠ ascii "WARNING" ∧ h.overallStatus ≠ ascii "CRITICAL" then 1 else 0
  warningHosts := if h.overallStatus = ascii "WARNING" then 1 else 0
  criticalHosts := if h.overallStatus = ascii "CRITICAL" then 1 else 0
  totalChecks := 0
  checksByType := fun _ => 0
  checksByStatus := fun k => if k = h.overallStatus then 1 else 0

def ofTotals (hosts checks : Nat) : Stats := ⟨hosts, 0, 0, 0, checks, fun _ => 0, fun _ => 0⟩

def ofTypes (counts : GoString → Nat) : Stats := ⟨0, 0, 0, 0, 0, counts, fun _ => 0⟩

/-- A check that is counted only if it has a type. -/
def typed (type : GoString) : GoString → Nat := fun k => if k = type ∧ type ≠ [] then 1 else 0

def answerGain (reported : Reported) : Stats := ofStatus reported.host + ofTypes (typed reported.check.type)

def staleGain (h : HostStatus) : Stats :=
  ofStatus h + ofTotals 1 h.checks.length + ofTypes fun k => h.checks.countP fun c => c.type = k

def siteGain (h : HostStatus) : Stats :=
  ofStatus h + ofTotals 1 1 + ofTypes (typed ((h.checks.head?.map CheckResult.type).getD []))

theorem bump_apply (counts : GoString → Nat) (name k : GoString) :
    bump counts name k = counts k + if k = name then 1 else 0 := by
  rw [bump, Function.update_apply]
  by_cases heq : k = name
  · rw [if_pos heq, if_pos heq, heq]
  · rw [if_neg heq, if_neg heq, Nat.add_zero]

theorem warning_ne_critical : ascii "WARNING" ≠ ascii "CRITICAL" := by decide

/-- The two statuses that are not healthy exclude one another. -/
theorem status_cases (h : HostStatus) :
    (h.overallStatus = ascii "WARNING" ∧ h.overallStatus ≠ ascii "CRITICAL") ∨
      (h.overallStatus ≠ ascii "WARNING" ∧ h.overallStatus = ascii "CRITICAL") ∨
      (h.overallStatus ≠ ascii "WARNING" ∧ h.overallStatus ≠ ascii "CRITICAL") := by
  by_cases hwarning : h.overallStatus = ascii "WARNING"
  · exact Or.inl ⟨hwarning, hwarning ▸ warning_ne_critical⟩
  · by_cases hcritical : h.overallStatus = ascii "CRITICAL"
    · exact Or.inr (Or.inl ⟨hwarning, hcritical⟩)
    · exact Or.inr (Or.inr ⟨hwarning, hcritical⟩)

/-- The statistics of a run, once its own counters have been put in. -/
def Accumulated.total (status : Accumulated) : Stats :=
  { status.statistics with healthyHosts := status.hostsUp, criticalHosts := status.hostsDown }

theorem total_accumulateHost (status : Accumulated) (h : HostStatus) (type : GoString) :
    (accumulateHost status h type).total = status.total + (ofStatus h + ofTypes (typed type)) := by
  obtain ⟨hwarning, hcritical⟩ | ⟨hwarning, hcritical⟩ | ⟨hwarning, hcritical⟩ := status_cases h <;>
    by_cases htype : type = [] <;>
    ext <;>
    simp [accumulateHost, Accumulated.total, Stats.add_def, Stats.add, ofStatus, ofTypes, typed, bump_apply, hwarning,
      hcritical, htype, warning_ne_critical, warning_ne_critical.symm]

theorem foldl_bump (checks : List CheckResult) (counts : GoString → Nat) (k : GoString) :
    checks.foldl (fun counts (c : CheckResult) => bump counts c.type) counts k =
      counts k + checks.countP fun c => c.type = k := by
  induction checks generalizing counts with
  | nil => rfl
  | cons c checks ih =>
      rw [List.foldl_cons, ih, bump_apply, List.countP_cons]
      by_cases heq : c.type = k
      · simp [heq, Nat.add_assoc, Nat.add_comm 1]
      · simp [heq, Ne.symm heq]

theorem statistics_addStale (merged : SysmonStatus) (h : HostStatus) :
    (addStale merged h).statistics = merged.statistics + staleGain h := by
  obtain ⟨hwarning, hcritical⟩ | ⟨hwarning, hcritical⟩ | ⟨hwarning, hcritical⟩ := status_cases h <;>
    ext <;>
    simp [addStale, staleGain, Stats.add_def, Stats.add, ofStatus, ofTotals, ofTypes, bump_apply, foldl_bump, hwarning,
      hcritical, warning_ne_critical, warning_ne_critical.symm]

/-- With the number of hosts for that of checks, as it is filled in afterwards. -/
theorem countHost_eq (statistics : Stats) (h : HostStatus) (count : Nat) :
    { countHost statistics h with totalChecks := count + 1 } =
      { statistics with totalChecks := count } + siteGain h := by
  obtain ⟨hwarning, hcritical⟩ | ⟨hwarning, hcritical⟩ | ⟨hwarning, hcritical⟩ := status_cases h <;>
    cases hchecks : h.checks with
    | nil =>
        ext <;>
        simp [countHost, siteGain, Stats.add_def, Stats.add, ofStatus, ofTotals, ofTypes, typed, bump_apply, hwarning,
          hcritical, hchecks, warning_ne_critical, warning_ne_critical.symm]
    | cons first rest =>
        by_cases htype : first.type = [] <;>
        ext <;>
        simp [countHost, siteGain, Stats.add_def, Stats.add, ofStatus, ofTotals, ofTypes, typed, bump_apply, hwarning,
          hcritical, hchecks, htype, warning_ne_critical, warning_ne_critical.symm]

/-! ### Sums -/

section sums

variable {α : Type} {gain : α → Stats}

theorem foldl_eq_sum {β : Type} {step : β → α → β} (value : β → Stats)
    (hstep : ∀ state a, value (step state a) = value state + gain a) (items : List α) (state : β) :
    value (items.foldl step state) = value state + (items.map gain).sum := by
  induction items generalizing state with
  | nil => exact (add_zero _).symm
  | cons a items ih => rw [List.foldl_cons, ih, hstep, List.map_cons, List.sum_cons, add_assoc]

theorem foldl_eq_append {β : Type} {step : β → α → β} (hosts : β → List HostStatus) {shown : α → List HostStatus}
    (hstep : ∀ state a, hosts (step state a) = hosts state ++ shown a) (items : List α) (state : β) :
    hosts (items.foldl step state) = hosts state ++ items.flatMap shown := by
  induction items generalizing state with
  | nil => exact (List.append_nil _).symm
  | cons a items ih => rw [List.foldl_cons, ih, hstep, List.flatMap_cons, List.append_assoc]

/-- What is added up site by site is what is added up over all the hosts. -/
theorem sum_sites (gain : HostStatus → Stats) (hosts : List HostStatus) :
    ∑ site ∈ sites hosts, ((scopeSite site hosts).map gain).sum = (hosts.map gain).sum := by
  have hcover : ∀ (all : Finset GoString) (hosts : List HostStatus), (∀ h ∈ hosts, h.site ∈ all) →
      ∑ site ∈ all, ((scopeSite site hosts).map gain).sum = (hosts.map gain).sum := by
    intro all hosts
    induction hosts with
    | nil => exact fun _ => Finset.sum_const_zero
    | cons h hosts ih =>
        intro hall
        have hsplit : ∀ site ∈ all, ((scopeSite site (h :: hosts)).map gain).sum =
            (if h.site = site then gain h else 0) + ((scopeSite site hosts).map gain).sum := by
          intro site _
          by_cases hsite : h.site = site <;> simp [scopeSite, hsite]
        rw [Finset.sum_congr rfl hsplit, Finset.sum_add_distrib, Finset.sum_ite_eq, if_pos (hall h List.mem_cons_self),
          ih fun other hother => hall other (List.mem_cons_of_mem h hother), List.map_cons, List.sum_cons]
  exact hcover (sites hosts) hosts fun h hmem => List.mem_toFinset.mpr (List.mem_map_of_mem hmem)

theorem siteStats_eq (hosts : List HostStatus) (site : GoString) :
    siteStats hosts site = ((scopeSite site hosts).map siteGain).sum := by
  have hfold : ∀ (scope : List HostStatus) (statistics : Stats) (count : Nat),
      { scope.foldl countHost statistics with totalChecks := count + scope.length } =
        { statistics with totalChecks := count } + (scope.map siteGain).sum := by
    intro scope
    induction scope with
    | nil => exact fun statistics count => (add_zero _).symm
    | cons h scope ih =>
        intro statistics count
        rw [List.foldl_cons, List.length_cons, ← Nat.add_assoc, Nat.add_right_comm, ih, countHost_eq, List.map_cons,
          List.sum_cons, add_assoc]
  have hstart := hfold (scopeSite site hosts) 0 0
  rw [Nat.zero_add] at hstart
  exact hstart.trans (zero_add _)

end sums

/-- One counter of a sum. -/
def hostsOf : Stats →+ Nat := ⟨⟨Stats.totalHosts, rfl⟩, fun _ _ => rfl⟩

def checksOf : Stats →+ Nat := ⟨⟨Stats.totalChecks, rfl⟩, fun _ _ => rfl⟩

def typesOf (k : GoString) : Stats →+ Nat := ⟨⟨fun s => s.checksByType k, rfl⟩, fun _ _ => rfl⟩

theorem siteGain_reported (reported : Reported) : siteGain reported.host = ofTotals 1 1 + answerGain reported := by
  rw [siteGain, reported.one, answerGain, add_comm (ofStatus reported.host) (ofTotals 1 1), add_assoc]
  rfl

/-! ### A poll -/

variable {fleet : List PolledDaemon}

/-- The objects that the daemon shows. -/
def reportedIn (listed : List (Option Reported)) : List Reported := listed.filterMap id

theorem fetchStatus_statistics (listed : List (Option Reported)) :
    (fetchStatus listed).statistics = ofTotals listed.length 0 + ((reportedIn listed).map answerGain).sum := by
  have hstep : ∀ (status : Accumulated) (reported : Reported),
      (accumulateHost status reported.host reported.check.type).total = status.total + answerGain reported :=
    fun status reported => total_accumulateHost status reported.host reported.check.type
  have hrun := foldl_eq_sum Accumulated.total hstep (reportedIn listed) ⟨0, [], 0, 0⟩
  have hnone : hostsOf ((reportedIn listed).map answerGain).sum = 0 := by
    rw [map_list_sum, List.map_map]
    exact List.sum_eq_zero fun n hn => by
      obtain ⟨reported, -, rfl⟩ := List.mem_map.mp hn
      rfl
  have hstart : (Accumulated.total ⟨0, [], 0, 0⟩ : Stats) = 0 := rfl
  rw [hstart, zero_add] at hrun
  have hfill : ∀ stats : Stats, hostsOf stats = 0 →
      { stats with totalHosts := listed.length } = ofTotals listed.length 0 + stats := by
    intro stats hzero
    have hzero : stats.totalHosts = 0 := hzero
    ext <;> simp [Stats.add_def, Stats.add, ofTotals, hzero]
  rw [← hfill _ hnone, ← hrun]
  rfl

theorem fetchStatus_hosts (listed : List (Option Reported)) :
    (fetchStatus listed).hosts.Perm ((reportedIn listed).map Reported.host) := by
  have hstep : ∀ (status : Accumulated) (reported : Reported),
      (accumulateHost status reported.host reported.check.type).hosts = status.hosts ++ [reported.host] := fun _ _ => rfl
  have hrun := foldl_eq_append Accumulated.hosts hstep (reportedIn listed) ⟨0, [], 0, 0⟩
  rw [List.nil_append, ← List.map_eq_flatMap] at hrun
  refine (HostOrder.sortHostsByUrgency_perm _ _ _).trans ?_
  rw [← hrun]
  exact List.Perm.refl _

/-- What the daemons that answer list. -/
def answered (fleet : List PolledDaemon) : List (List (Option Reported)) := fleet.filterMap PolledDaemon.answer

/-- The hosts that are kept of those that do not. -/
def kept (fleet : List PolledDaemon) : List HostStatus :=
  (fleet.filter fun d => d.answer.isNone).flatMap PolledDaemon.staleHosts

theorem fetchFleet_statistics (fleet : List PolledDaemon) : (fetchFleet fleet).statistics =
    ofTotals ((answered fleet).map List.length).sum 0 + (((answered fleet).flatMap reportedIn).map answerGain).sum +
      ((kept fleet).map staleGain).sum := by
  have hanswers : ∀ lists : List (List (Option Reported)), (lists.map fun listed => (fetchStatus listed).statistics).sum =
      ofTotals (lists.map List.length).sum 0 + ((lists.flatMap reportedIn).map answerGain).sum := by
    intro lists
    induction lists with
    | nil => rfl
    | cons listed lists ih =>
        have hlength : ∀ m n : Nat, ofTotals (m + n) 0 = ofTotals m 0 + ofTotals n 0 := fun _ _ => rfl
        rw [List.map_cons, List.sum_cons, ih, fetchStatus_statistics, List.map_cons, List.sum_cons, hlength,
          List.flatMap_cons, List.map_append, List.sum_append, add_add_add_comm]
  have hmerged : (fleet.filterMap fun d => d.answer.map fetchStatus) = (answered fleet).map fetchStatus := by
    rw [answered, List.map_filterMap]
  have hstale := foldl_eq_sum SysmonStatus.statistics statistics_addStale (kept fleet)
    (((answered fleet).map fetchStatus).foldl addAnswer ⟨0, []⟩)
  have hstep : ∀ merged status, (addAnswer merged status).statistics = merged.statistics + status.statistics :=
    fun _ _ => rfl
  have hmerge := foldl_eq_sum SysmonStatus.statistics hstep ((answered fleet).map fetchStatus) ⟨0, []⟩
  rw [hmerge, List.map_map, zero_add] at hstale
  rw [← hanswers, fetchFleet, hmerged]
  exact hstale

theorem fetchFleet_hosts (fleet : List PolledDaemon) :
    (fetchFleet fleet).hosts.Perm (((answered fleet).flatMap reportedIn).map Reported.host ++ kept fleet) := by
  have hmerged : (fleet.filterMap fun d => d.answer.map fetchStatus) = (answered fleet).map fetchStatus := by
    rw [answered, List.map_filterMap]
  have hadd : ∀ merged h, (addStale merged h).hosts = merged.hosts ++ [h] := fun _ _ => rfl
  have hstep : ∀ merged status, (addAnswer merged status).hosts = merged.hosts ++ status.hosts := fun _ _ => rfl
  have hstale := foldl_eq_append SysmonStatus.hosts hadd (kept fleet)
    (((answered fleet).map fetchStatus).foldl addAnswer ⟨0, []⟩)
  have hmerge := foldl_eq_append SysmonStatus.hosts hstep ((answered fleet).map fetchStatus) ⟨0, []⟩
  rw [hmerge, List.nil_append, List.flatMap_singleton'] at hstale
  refine (HostOrder.sortHostsByUrgency_perm _ _ _).trans ?_
  rw [hmerged]
  refine (List.Perm.of_eq hstale).trans (List.Perm.append_right _ ?_)
  rw [List.flatMap_map, List.map_flatMap]
  exact List.Perm.flatMap_left _ fun listed _ => fetchStatus_hosts listed

/-- What the sites come to. -/
theorem sum_siteStats (fleet : List PolledDaemon) :
    ∑ site ∈ sites (fetchFleet fleet).hosts, siteStats (fetchFleet fleet).hosts site =
      ofTotals ((answered fleet).flatMap reportedIn).length ((answered fleet).flatMap reportedIn).length +
        (((answered fleet).flatMap reportedIn).map answerGain).sum + ((kept fleet).map siteGain).sum := by
  have hreported : ∀ reports : List Reported, ((reports.map Reported.host).map siteGain).sum =
      ofTotals reports.length reports.length + (reports.map answerGain).sum := by
    intro reports
    induction reports with
    | nil => rfl
    | cons reported reports ih =>
        have hone : ∀ n : Nat, ofTotals (n + 1) (n + 1) = ofTotals 1 1 + ofTotals n n := fun n => by
          ext <;> simp [Stats.add_def, Stats.add, ofTotals, Nat.add_comm]
        rw [List.map_cons, List.map_cons, List.sum_cons, ih, siteGain_reported, List.length_cons, hone reports.length,
          List.map_cons, List.sum_cons, add_add_add_comm]
  calc ∑ site ∈ sites (fetchFleet fleet).hosts, siteStats (fetchFleet fleet).hosts site
      = ∑ site ∈ sites (fetchFleet fleet).hosts, ((scopeSite site (fetchFleet fleet).hosts).map siteGain).sum :=
        Finset.sum_congr rfl fun site _ => siteStats_eq _ site
    _ = ((fetchFleet fleet).hosts.map siteGain).sum := sum_sites siteGain _
    _ = ((((answered fleet).flatMap reportedIn).map Reported.host ++ kept fleet).map siteGain).sum :=
        ((fetchFleet_hosts fleet).map siteGain).sum_eq
    _ = _ := by rw [List.map_append, List.sum_append, hreported]

/-! ### Where the two agree -/

/-- Sums that are the same, of terms of which one is at most the other, are the same term by term. -/
theorem eq_of_sum_eq {α : Type} {left right : α → Nat} {items : List α} (hle : ∀ a ∈ items, left a ≤ right a)
    (hsum : (items.map right).sum ≤ (items.map left).sum) : ∀ a ∈ items, left a = right a := by
  induction items with
  | nil => exact fun a ha => absurd ha List.not_mem_nil
  | cons first items ih =>
      have hfirst := hle first List.mem_cons_self
      have hrest : (items.map left).sum ≤ (items.map right).sum :=
        List.sum_le_sum fun a ha => hle a (List.mem_cons_of_mem first ha)
      rw [List.map_cons, List.map_cons, List.sum_cons, List.sum_cons] at hsum
      intro a ha
      obtain rfl | ha := List.mem_cons.mp ha
      · omega
      · exact ih (fun a ha => hle a (List.mem_cons_of_mem first ha)) (by omega) a ha

/-- The types of the checks of a host are counted as that of its first one only if it has no more than that, and that has
a type. -/
theorem checks_of_counts {h : HostStatus}
    (hcounts : ∀ k, typesOf k (siteGain h) = typesOf k (staleGain h)) :
    h.checks = [] ∨ ∃ check, h.checks = [check] ∧ check.type ≠ [] := by
  have hcount : ∀ k, typed ((h.checks.head?.map CheckResult.type).getD []) k = h.checks.countP fun c => c.type = k := by
    intro k
    have hsame : 0 + 0 + typed ((h.checks.head?.map CheckResult.type).getD []) k =
        0 + 0 + h.checks.countP (fun c => c.type = k) := hcounts k
    simpa using hsame
  cases hchecks : h.checks with
  | nil => exact Or.inl rfl
  | cons first rest =>
      rw [hchecks] at hcount
      have hcount : ∀ k, typed first.type k = (first :: rest).countP fun c => c.type = k := hcount
      have hfirst := hcount first.type
      simp only [typed, true_and, List.countP_cons, decide_true, if_true] at hfirst
      have htype : first.type ≠ [] := by
        by_contra hnone
        rw [if_neg (not_not.mpr hnone)] at hfirst
        omega
      rw [if_pos htype] at hfirst
      refine Or.inr ⟨first, ?_, htype⟩
      cases rest with
      | nil => rfl
      | cons second rest =>
          exfalso
          have hsecond := hcount second.type
          simp only [typed, List.countP_cons, decide_true, if_true] at hsecond hfirst
          by_cases hsame : second.type = first.type
          · simp [hsame] at hfirst
          · have hnot : ¬(second.type = first.type ∧ first.type ≠ []) := fun h => hsame h.1
            rw [if_neg hnot] at hsecond
            omega

theorem mem_answered {listed : List (Option Reported)} :
    listed ∈ answered fleet ↔ ∃ d ∈ fleet, d.answer = some listed := List.mem_filterMap

theorem mem_kept {h : HostStatus} :
    h ∈ kept fleet ↔ ∃ d ∈ fleet, d.answer = none ∧ ∃ last ∈ d.lastHosts, { last with stale := true } = h := by
  simp only [kept, List.mem_flatMap, List.mem_filter, Option.isNone_iff_eq_none, PolledDaemon.staleHosts, List.mem_map,
    and_assoc]

theorem siteGain_le_staleGain (h : HostStatus) (k : GoString) :
    typesOf k (siteGain h) ≤ typesOf k (staleGain h) := by
  show 0 + 0 + typed ((h.checks.head?.map CheckResult.type).getD []) k ≤ 0 + 0 + h.checks.countP fun c => c.type = k
  rw [Nat.zero_add, Nat.zero_add]
  cases h.checks with
  | nil => simp [typed]
  | cons first rest =>
      rw [List.head?_cons, Option.map_some, Option.getD_some, typed, List.countP_cons]
      split
      next hk => simp [hk.1]
      next => exact Nat.zero_le _

/-- The statistics of a fleet are those of its sites exactly if nobody who answers lists an object, and every host that is
kept has one check, with a type. -/
theorem sumOfSites_iff (fleet : List PolledDaemon) : SumOfSites (fetchFleet fleet) ↔ OneCheckEach fleet := by
  rw [SumOfSites, fetchFleet_statistics, sum_siteStats]
  constructor
  · intro heq
    have hcounter : ∀ counter : Stats →+ Nat,
        counter (ofTotals ((answered fleet).map List.length).sum 0) + ((kept fleet).map fun h => counter (staleGain h)).sum =
          counter (ofTotals ((answered fleet).flatMap reportedIn).length ((answered fleet).flatMap reportedIn).length) +
            ((kept fleet).map fun h => counter (siteGain h)).sum := by
      intro counter
      have happ := congrArg counter heq
      simp only [map_add, map_list_sum, List.map_map] at happ
      simp only [Function.comp_def] at happ
      omega
    have hkept : ∀ h ∈ kept fleet, h.checks = [] ∨ ∃ check, h.checks = [check] ∧ check.type ≠ [] := by
      intro h hmem
      refine checks_of_counts fun k => eq_of_sum_eq (fun h _ => siteGain_le_staleGain h k) ?_ h hmem
      have htypes := hcounter (typesOf k)
      change 0 + _ = 0 + _ at htypes
      omega
    -- so the hosts that are kept have a check each at most, and as many as there are hosts
    have hfew : ∀ h ∈ kept fleet, checksOf (staleGain h) ≤ checksOf (siteGain h) := by
      intro h hmem
      show 0 + h.checks.length + 0 ≤ 0 + 1 + 0
      obtain hnone | ⟨check, hone, -⟩ := hkept h hmem
      · rw [hnone]
        exact Nat.zero_le _
      · rw [hone]
        exact Nat.le_refl _
    have hchecks := hcounter checksOf
    change 0 + _ = ((answered fleet).flatMap reportedIn).length + _ at hchecks
    have heach := eq_of_sum_eq hfew (by omega)
    rw [List.map_congr_left heach] at hchecks
    have hhosts := hcounter hostsOf
    change ((answered fleet).map List.length).sum + ((kept fleet).map fun h => hostsOf (siteGain h)).sum =
      ((answered fleet).flatMap reportedIn).length + _ at hhosts
    have hempty : ((answered fleet).map List.length).sum = 0 := by omega
    refine ⟨fun d hd listed hanswer => ?_, fun d hd hdark last hlast => ?_⟩
    · have hmem := List.mem_map_of_mem (f := List.length) (mem_answered.mpr ⟨d, hd, hanswer⟩)
      exact List.eq_nil_of_length_eq_zero (List.sum_eq_zero_iff.mp hempty _ hmem)
    · have hmem := mem_kept.mpr ⟨d, hd, hdark, last, hlast, rfl⟩
      have hone := heach _ hmem
      have hlength : 0 + last.checks.length + 0 = 0 + 1 + 0 := hone
      obtain hnone | hsingle := hkept _ hmem
      · have hnone : last.checks = [] := hnone
        rw [hnone] at hlength
        exact absurd hlength (by decide)
      · exact hsingle
  · rintro ⟨hanswers, hkept⟩
    have hnothing : ∀ listed ∈ answered fleet, listed = [] := by
      intro listed hmem
      obtain ⟨d, hd, hanswer⟩ := mem_answered.mp hmem
      exact hanswers d hd listed hanswer
    have hlength : ((answered fleet).map List.length).sum = 0 :=
      List.sum_eq_zero fun n hn => by
        obtain ⟨listed, hmem, rfl⟩ := List.mem_map.mp hn
        rw [hnothing listed hmem]
        rfl
    have hshown : (answered fleet).flatMap reportedIn = [] := by
      rw [List.flatMap_eq_nil_iff]
      intro listed hmem
      rw [hnothing listed hmem]
      rfl
    have hgains : ∀ h ∈ kept fleet, staleGain h = siteGain h := by
      intro h hmem
      obtain ⟨d, hd, hdark, last, hlast, rfl⟩ := mem_kept.mp hmem
      obtain ⟨check, hone, htype⟩ := hkept d hd hdark last hlast
      have hcount : (fun k => [check].countP fun c => c.type = k) = typed check.type := by
        funext k
        rw [List.countP_singleton, typed]
        by_cases hk : check.type = k
        · rw [if_pos (decide_eq_true hk), if_pos ⟨hk.symm, htype⟩]
        · rw [if_neg fun h => hk (of_decide_eq_true h), if_neg fun h => hk h.1.symm]
      simp only [staleGain, siteGain, hone, hcount]
      rfl
    rw [hlength, hshown, List.map_congr_left hgains]
    rfl

/-- The host of one object that answers, and a host with two checks of a daemon that does not. -/
def oneObject : PolledDaemon where
  lastHosts := []
  answer := some [some ⟨{ hostX (ascii "OK") with checks := [⟨ascii "ping", 0, ascii "OK", []⟩] },
    ⟨ascii "ping", 0, ascii "OK", []⟩, rfl⟩]

def twoChecks : PolledDaemon where
  lastHosts := [{ hostX (ascii "OK") with
    site := ascii "b", checks := [⟨ascii "ping", 0, ascii "OK", []⟩, ⟨ascii "tcp", 80, ascii "OK", []⟩] }]
  answer := none

/-- A daemon with one host has a check that is not counted; and where it does not answer, two for one. -/
theorem not_sumOfSites_oneObject :
    ¬(∀ fleet, SumOfSites (fetchFleet fleet)) ∧ (fetchFleet [oneObject]).statistics.totalChecks = 0 ∧
      (siteStats (fetchFleet [oneObject]).hosts (ascii "local")).totalChecks = 1 ∧
      (fetchFleet [twoChecks]).statistics.totalChecks = 2 ∧
      (siteStats (fetchFleet [twoChecks]).hosts (ascii "b")).totalChecks = 1 := by
  have hone := List.perm_singleton.mp (fetchFleet_hosts [oneObject])
  have htwo := List.perm_singleton.mp (fetchFleet_hosts [twoChecks])
  refine ⟨fun h => ?_, by decide, ?_, by decide, ?_⟩
  · have hsum := congrArg Stats.totalChecks ((h [oneObject]).trans (sum_siteStats [oneObject]))
    exact absurd hsum (by decide)
  · rw [hone]
    decide
  · rw [htwo]
    decide

end Sysmon.Monitoring
