import Mathlib.Algebra.Order.Ring.Int
import Mathlib.Data.List.GetD
import Mathlib.Data.UInt
import Sysmon.Agents.Tokens
import Sysmon.HostOrder
import Sysmon.Lib.GoMap
import Sysmon.Lib.Run

/-!
# Snapshots and deltas

Each poll of the fleet is stored as a snapshot, and `storeSnapshotLocked` counts a revision when a host
has changed, comes or goes. A client asks for what has changed since a revision (`GetDelta`), and is
given all of it when the server cannot tell. Hosts are told apart by their keys, and compared by a hash
of what can be seen of their state.
-/

namespace Sysmon.Monitoring

open Fleet (ascii)
open Agents (GoString)

/-! ### Hosts -/

structure CheckResult where
  type : GoString
  port : Int
  status : GoString
  statusMessage : GoString
  deriving DecidableEq, Repr

/-- The times are known by the two decimals that are printed. -/
structure RttStats where
  min : GoString
  avg : GoString
  max : GoString
  jitter : GoString
  replies : Int
  probes : Int
  deriving DecidableEq, Repr

/-- What ticks without a change of state. -/
structure Counters where
  downCount : Int
  upCount : Int
  totalDown : Int
  totalChecked : Int
  timeUp : Int
  timeFailed : Int
  deriving DecidableEq, Repr, Inhabited

structure HostStatus where
  objectName : GoString
  site : GoString
  localName : GoString
  hostname : GoString
  overallStatus : GoString
  statusColor : GoString
  contact : GoString
  paused : Bool
  description : GoString
  ipv4Address : GoString
  stale : Bool
  acked : Bool
  notes : GoString
  /-- In seconds. -/
  lastChangeTime : Option Int
  checks : List CheckResult
  rtt : Option RttStats
  /-- Sent and received. -/
  packetLoss : Option (Int × Int)
  /-- The uptime and the last response. -/
  snmp : Option (Int × Int)
  counters : Counters
  deriving DecidableEq, Repr

def hostKey (h : HostStatus) : GoString := if h.objectName ≠ [] then h.objectName else h.hostname

/-- What the signature covers. -/
def HostStatus.covered (h : HostStatus) : HostStatus := { h with site := [], localName := [], counters := default }

def decimal (n : Int) : GoString := (CText.showInt n).map fun c => UInt8.ofNat c.toNat

def showBool (b : Bool) : GoString := if b then ascii "true" else ascii "false"

/-- The text that is hashed. -/
def signatureText (h : HostStatus) : GoString :=
  [0].intercalate [h.objectName, h.hostname, h.overallStatus, h.statusColor, h.contact,
      showBool h.paused, h.description, h.ipv4Address, showBool h.stale, showBool h.acked] ++
    [3] ++ h.notes ++
    h.lastChangeTime.elim [] (fun unix => [0] ++ decimal unix) ++
    h.checks.flatMap (fun c => [1] ++ [0].intercalate [c.type, decimal c.port, c.status, c.statusMessage]) ++
    h.rtt.elim [] (fun r =>
      [2] ++ [0].intercalate [r.min, r.avg, r.max, r.jitter, decimal r.replies, decimal r.probes]) ++
    h.packetLoss.elim [] (fun p => [3] ++ decimal p.1 ++ [0] ++ decimal p.2) ++
    h.snmp.elim [] (fun p => [4] ++ decimal p.1 ++ [0] ++ decimal p.2)

/-- `fnv.New64a`. -/
def fnv64a (bytes : List UInt8) : UInt64 :=
  bytes.foldl (fun hash b => (hash ^^^ b.toUInt64) * 1099511628211) 14695981039346656037

def hostSignature (h : HostStatus) : UInt64 := fnv64a (signatureText h)

/-- `SplitQualified`: the site of a key and the name there. -/
def splitQualified (name : GoString) : GoString × GoString := HostOrder.splitQualified 58 name

/-- `scopeSite`, as far as the hosts are concerned. -/
def scopeSite (site : GoString) (hosts : List HostStatus) : List HostStatus :=
  hosts.filter fun h => h.site = site

/-! ### The service -/

abbrev Map (α : Type) := AList fun _ : GoString => α

structure Service where
  cachedStatus : Option (List HostStatus)
  rev : Int
  hostSig : Map UInt64
  hostRev : Map Int
  removedAt : Map Int
  minDeltaRev : Int

def Service.start : Service where
  cachedStatus := none
  rev := 0
  hostSig := ∅
  hostRev := ∅
  removedAt := ∅
  minDeltaRev := 0

def Service.hosts (s : Service) : List HostStatus := s.cachedStatus.getD []

/-- `newSig`. -/
def signatures (hosts : List HostStatus) : Map UInt64 :=
  hosts.foldl (fun m h => m.insert (hostKey h) (hostSignature h)) ∅

def maxRemovedTracked : Nat := 256

/-- `pruneRemovedLocked`. -/
def pruneRemoved (s : Service) : Service :=
  let revs := (s.removedAt.entries.map Sigma.snd).mergeSort fun a b => decide (a ≤ b)
  if revs.length ≤ maxRemovedTracked then s
  else
    let cutoff := revs.getD (revs.length - maxRemovedTracked) 0
    { s with
      removedAt := GoMap.keep (fun r => cutoff ≤ r) s.removedAt
      minDeltaRev := max s.minDeltaRev cutoff }

/-- The names that the snapshot does not have any more. -/
def removedNames (s : Service) (hosts : List HostStatus) : List GoString :=
  s.hostSig.keys.filter fun name => name ∉ signatures hosts

/-- The names whose signature is another one, or new. -/
def changedNames (s : Service) (hosts : List HostStatus) : List GoString :=
  (signatures hosts).keys.filter fun name => s.hostSig.lookup name ≠ (signatures hosts).lookup name

/-- What `storeSnapshotLocked` looks at. -/
def isChanged (s : Service) (hosts : List HostStatus) : Bool :=
  hosts.any (fun h => s.hostSig.lookup (hostKey h) ≠ some (hostSignature h)) || removedNames s hosts ≠ []

/-- A revision is counted, before the removal log is pruned. -/
def countRevision (s : Service) (hosts : List HostStatus) : Service :=
  { s with
    rev := s.rev + 1
    hostRev := GoMap.eraseAll (removedNames s hosts)
      (GoMap.setAll (changedNames s hosts) (s.rev + 1) s.hostRev)
    removedAt := GoMap.setAll (removedNames s hosts) (s.rev + 1)
      (GoMap.eraseAll (signatures hosts).keys s.removedAt)
    hostSig := signatures hosts }

/-- `storeSnapshotLocked`, with what it does to the removal log. -/
def storeWith (prune : Service → Service) (s : Service) (hosts : List HostStatus) : Service :=
  { if isChanged s hosts then prune (countRevision s hosts) else s with cachedStatus := some hosts }

def storeSnapshot : Service → List HostStatus → Service := storeWith pruneRemoved

structure StatusDelta where
  rev : Int
  full : Bool
  changed : List HostStatus
  removed : List GoString
  deriving DecidableEq, Repr

/-- The hosts that a filter lets through, all of them if there is none. -/
def inScope (site : GoString) (hosts : List HostStatus) : List HostStatus :=
  if site ≠ [] then scopeSite site hosts else hosts

/-- `GetDelta`. -/
def getDelta (s : Service) (since : Int) (site : GoString) : StatusDelta :=
  match s.cachedStatus with
  | none => { rev := s.rev, full := true, changed := [], removed := [] }
  | some cur =>
      if since ≤ 0 ∨ since < s.minDeltaRev ∨ s.rev < since then
        { rev := s.rev, full := true, changed := inScope site cur, removed := [] }
      else if since = s.rev then { rev := s.rev, full := false, changed := [], removed := [] }
      else
        { rev := s.rev
          full := false
          changed := (inScope site cur).filter fun h => since < (s.hostRev.lookup (hostKey h)).getD 0
          removed := (s.removedAt.entries.filter fun e =>
            since < e.2 && (site = [] || (splitQualified e.1).1 = site)).map Sigma.fst }

/-! ### A client -/

attribute [local instance] Agents.decidableMemStrings

/-- Replaces the list, or takes in what has changed and leaves out what is gone. -/
def applyDelta (list : List HostStatus) (d : StatusDelta) : List HostStatus :=
  if d.full then d.changed
  else ((list.filter fun h => hostKey h ∉ d.changed.map hostKey) ++ d.changed).filter fun h =>
    hostKey h ∉ d.removed

structure State where
  service : Service
  list : List HostStatus
  since : Int

inductive Event where
  | store (hosts : List HostStatus)
  | poll
  deriving DecidableEq, Repr

/-- The service and one client, whose filter is the site. -/
def State.step (site : GoString) (st : State) : Event → State
  | .store hosts => { st with service := storeSnapshot st.service hosts }
  | .poll =>
      let d := getDelta st.service st.since site
      { st with list := applyDelta st.list d, since := d.rev }

def State.start : State := ⟨Service.start, [], 0⟩

/-- The client has what the current snapshot has in its scope. -/
def Synced (site : GoString) (st : State) : Prop :=
  (st.list.map HostStatus.covered).Perm ((inScope site st.service.hosts).map HostStatus.covered)

/-! ### What a snapshot does -/

variable {s : Service} {hosts : List HostStatus} {site : GoString} {st : State}

theorem lookup_signatures_of_not_mem {m : Map UInt64} {key : GoString} (h : key ∉ hosts.map hostKey) :
    (hosts.foldl (fun m h => m.insert (hostKey h) (hostSignature h)) m).lookup key = m.lookup key := by
  induction hosts generalizing m with
  | nil => rfl
  | cons first hosts ih =>
      rw [List.map_cons, List.mem_cons, not_or] at h
      rw [List.foldl_cons, ih h.2, AList.lookup_insert_ne h.1]

theorem lookup_signatures {h : HostStatus} (hdistinct : (hosts.map hostKey).Nodup) (hmem : h ∈ hosts) :
    (signatures hosts).lookup (hostKey h) = some (hostSignature h) := by
  rw [signatures]
  generalize (∅ : Map UInt64) = m
  induction hosts generalizing m with
  | nil => exact absurd hmem List.not_mem_nil
  | cons first hosts ih =>
      obtain ⟨hfirst, hrest⟩ := List.nodup_cons.mp hdistinct
      rw [List.foldl_cons]
      obtain rfl | hmem := List.mem_cons.mp hmem
      · rw [lookup_signatures_of_not_mem hfirst, AList.lookup_insert]
      · exact ih hrest hmem _

theorem mem_signatures {key : GoString} : key ∈ signatures hosts ↔ key ∈ hosts.map hostKey := by
  have hfold : ∀ m : Map UInt64,
      key ∈ hosts.foldl (fun m h => m.insert (hostKey h) (hostSignature h)) m ↔
        key ∈ hosts.map hostKey ∨ key ∈ m := by
    induction hosts with
    | nil => simp
    | cons first hosts ih =>
        intro m
        rw [List.foldl_cons, ih, AList.mem_insert, List.map_cons, List.mem_cons]
        tauto
  rw [signatures, hfold, or_iff_left (AList.notMem_empty key)]

theorem mem_removedNames {key : GoString} :
    key ∈ removedNames s hosts ↔ key ∈ s.hostSig ∧ key ∉ hosts.map hostKey := by
  rw [removedNames, List.mem_filter, ← AList.mem_keys, decide_eq_true_eq, mem_signatures]

theorem mem_changedNames {key : GoString} : key ∈ changedNames s hosts ↔
    key ∈ hosts.map hostKey ∧ s.hostSig.lookup key ≠ (signatures hosts).lookup key := by
  rw [changedNames, List.mem_filter, ← AList.mem_keys, decide_eq_true_eq, mem_signatures]

/-- No revision is counted: nobody has changed, and nobody comes or goes. -/
theorem isChanged_eq_false : isChanged s hosts = false ↔
    (∀ h ∈ hosts, s.hostSig.lookup (hostKey h) = some (hostSignature h)) ∧
      ∀ key ∈ s.hostSig, key ∈ hosts.map hostKey := by
  rw [isChanged, Bool.or_eq_false_iff, List.any_eq_false, decide_eq_false_iff_not, not_not,
    List.eq_nil_iff_forall_not_mem]
  refine and_congr (by simp) ?_
  constructor
  · intro hnone key hkey
    by_contra hnot
    exact hnone key (mem_removedNames.mpr ⟨hkey, hnot⟩)
  · intro hall key hkey
    obtain ⟨hsig, hnot⟩ := mem_removedNames.mp hkey
    exact hnot (hall key hsig)

/-- What the service knows of the hosts it holds and of those that are gone. -/
structure Service.Valid (s : Service) : Prop where
  sigs : ∀ key, key ∈ s.hostSig ↔ key ∈ s.hosts.map hostKey
  apart : ∀ key ∈ s.removedAt, key ∉ s.hostSig
  removed_le : ∀ key r, s.removedAt.lookup key = some r → r ≤ s.rev
  floor_le : s.minDeltaRev ≤ s.rev

theorem lookup_countRevision_removedAt (key : GoString) :
    (countRevision s hosts).removedAt.lookup key =
      if key ∈ removedNames s hosts then some (s.rev + 1)
      else if key ∈ hosts.map hostKey then none else s.removedAt.lookup key := by
  simp only [countRevision, GoMap.lookup_setAll, GoMap.lookup_eraseAll, ← AList.mem_keys, mem_signatures]

theorem lookup_countRevision_hostRev {key : GoString} (hkey : key ∈ hosts.map hostKey) :
    (countRevision s hosts).hostRev.lookup key =
      if key ∈ changedNames s hosts then some (s.rev + 1) else s.hostRev.lookup key := by
  have hnot : key ∉ removedNames s hosts := fun h => (mem_removedNames.mp h).2 hkey
  simp only [countRevision, GoMap.lookup_eraseAll, GoMap.lookup_setAll, if_neg hnot]
  by_cases hchanged : key ∈ changedNames s hosts
  · rw [if_pos hchanged, if_pos hchanged]
  · rw [if_neg hchanged, if_neg hchanged]

theorem Service.Valid.countRevision (hs : s.Valid) :
    ({ Monitoring.countRevision s hosts with cachedStatus := some hosts }).Valid := by
  have hlookup : ∀ key r, (Monitoring.countRevision s hosts).removedAt.lookup key = some r →
      key ∉ hosts.map hostKey ∧ r ≤ s.rev + 1 := by
    intro key r hr
    rw [lookup_countRevision_removedAt] at hr
    split at hr
    next hremoved =>
      obtain rfl := Option.some.inj hr
      exact ⟨(mem_removedNames.mp hremoved).2, le_refl _⟩
    next =>
      split at hr
      · exact absurd hr (by simp)
      next hnot => exact ⟨hnot, le_trans (hs.removed_le key r hr) (by omega)⟩
  refine ⟨fun key => mem_signatures, fun key hkey hsig => ?_, fun key r hr => (hlookup key r hr).2, ?_⟩
  · obtain ⟨r, hr⟩ := GoMap.mem_iff_lookup.mp hkey
    exact (hlookup key r hr).1 (mem_signatures.mp hsig)
  · exact le_trans hs.floor_le (by simp [Monitoring.countRevision])

/-- What the pruning leaves: the entries from some revision on, to which the floor is raised. -/
theorem pruneRemoved_cases (s : Service) : pruneRemoved s = s ∨
    ∃ cutoff, (∃ key, s.removedAt.lookup key = some cutoff) ∧
      pruneRemoved s = { s with
        removedAt := GoMap.keep (fun r => cutoff ≤ r) s.removedAt
        minDeltaRev := max s.minDeltaRev cutoff } := by
  rw [pruneRemoved]
  dsimp only
  split
  next => exact Or.inl rfl
  next hlong =>
    refine Or.inr ⟨_, ?_, rfl⟩
    have hget : ∀ (revs : List Int) (n : Nat), n < revs.length → revs.getD n 0 ∈ revs := by
      intro revs n hlt
      rw [List.getD_eq_getElem _ _ hlt]
      exact List.getElem_mem hlt
    have hmax : 0 < maxRemovedTracked := by decide
    have hmem := hget _ _ (Nat.sub_lt (Nat.zero_lt_of_lt (Nat.not_le.mp hlong)) hmax)
    obtain ⟨e, hentry, heq⟩ := List.mem_map.mp ((List.mergeSort_perm _ _).mem_iff.mp hmem)
    exact ⟨e.1, heq ▸ GoMap.mem_entries_iff.mp hentry⟩

theorem Service.Valid.prune (hs : s.Valid) : (pruneRemoved s).Valid := by
  obtain heq | ⟨cutoff, ⟨key, hkey⟩, heq⟩ := pruneRemoved_cases s
  · rw [heq]
    exact hs
  · rw [heq]
    have hkept : ∀ key r, (GoMap.keep (fun r => decide (cutoff ≤ r)) s.removedAt).lookup key = some r →
        s.removedAt.lookup key = some r := by
      intro key r hr
      rw [GoMap.lookup_keep] at hr
      exact (Option.filter_eq_some_iff.mp hr).1
    refine ⟨hs.sigs, fun key hkey => ?_, fun key r hr => hs.removed_le key r (hkept key r hr), ?_⟩
    · obtain ⟨r, hr⟩ := GoMap.mem_iff_lookup.mp hkey
      exact hs.apart key (GoMap.mem_iff_lookup.mpr ⟨r, hkept key r hr⟩)
    · exact max_le hs.floor_le (hs.removed_le key cutoff hkey)

theorem Service.Valid.store (hs : s.Valid) {prune : Service → Service}
    (hprune : ∀ s' : Service, s'.Valid → (prune s').Valid)
    (hcached : ∀ s' c, { prune s' with cachedStatus := c } = prune { s' with cachedStatus := c }) :
    (storeWith prune s hosts).Valid := by
  rw [storeWith]
  split
  next =>
    rw [hcached]
    exact hprune _ hs.countRevision
  next hsame =>
    obtain ⟨hsigs, hkeys⟩ := isChanged_eq_false.mp (eq_false_of_ne_true hsame)
    refine ⟨fun key => ⟨hkeys key, fun hkey => ?_⟩, hs.apart, hs.removed_le, hs.floor_le⟩
    obtain ⟨h, hmem, rfl⟩ := List.mem_map.mp hkey
    exact GoMap.mem_iff_lookup.mpr ⟨_, hsigs h hmem⟩

theorem pruneRemoved_cached (s : Service) (c : Option (List HostStatus)) :
    { pruneRemoved s with cachedStatus := c } = pruneRemoved { s with cachedStatus := c } := by
  simp only [pruneRemoved]
  split <;> rfl

theorem Service.Valid.storeSnapshot (hs : s.Valid) : (Monitoring.storeSnapshot s hosts).Valid :=
  hs.store (fun _ hs' => hs'.prune) pruneRemoved_cached

theorem valid_start : Service.start.Valid := by
  refine ⟨fun key => ?_, fun key hkey => ?_, fun key r hr => ?_, le_refl _⟩
  · simp [Service.start, Service.hosts]
  · exact absurd hkey (AList.notMem_empty key)
  · exact absurd hr (by simp [Service.start])

/-! ### What a client gets -/

theorem hosts_of_cached {cur : List HostStatus} (h : s.cachedStatus = some cur) : s.hosts = cur := by
  rw [Service.hosts, h]
  rfl

theorem mem_inScope {h : HostStatus} : h ∈ inScope site hosts ↔ h ∈ hosts ∧ (site ≠ [] → h.site = site) := by
  rw [inScope, scopeSite]
  by_cases hsite : site = []
  · simp [hsite]
  · simp [hsite, List.mem_filter]

theorem inScope_sublist (site : GoString) (hosts : List HostStatus) :
    (inScope site hosts).Sublist hosts := by
  rw [inScope, scopeSite]
  split
  · exact List.filter_sublist
  · exact List.Sublist.refl hosts

/-- The ways of an answer: all there is, nothing, or what has changed since. -/
theorem getDelta_cases (s : Service) (since : Int) (site : GoString) :
    (getDelta s since site).rev = s.rev ∧
      ((getDelta s since site).full = true ∧
          (getDelta s since site).changed = inScope site s.hosts ∧ (getDelta s since site).removed = [] ∨
        (getDelta s since site).full = false ∧ 0 < since ∧ s.minDeltaRev ≤ since ∧ since ≤ s.rev ∧
          (∀ h, h ∈ (getDelta s since site).changed ↔ since ≠ s.rev ∧ h ∈ inScope site s.hosts ∧
            since < (s.hostRev.lookup (hostKey h)).getD 0) ∧
          ((getDelta s since site).changed).Sublist s.hosts ∧
          ∀ name, name ∈ (getDelta s since site).removed ↔ since ≠ s.rev ∧
            (∃ r, s.removedAt.lookup name = some r ∧ since < r) ∧
              (site = [] ∨ (splitQualified name).1 = site)) := by
  rw [getDelta]
  split
  next hnone =>
    have hhosts : s.hosts = [] := by
      rw [Service.hosts, hnone]
      rfl
    refine ⟨rfl, Or.inl ⟨rfl, ?_, rfl⟩⟩
    rw [hhosts]
    exact (List.sublist_nil.mp (inScope_sublist site [])).symm
  next cur hcached =>
    rw [hosts_of_cached hcached]
    split
    next => exact ⟨rfl, Or.inl ⟨rfl, rfl, rfl⟩⟩
    next hin =>
      rw [not_or, not_or, not_le, not_lt, not_lt] at hin
      obtain ⟨hpos, hfloor, hle⟩ := hin
      split
      next heq => exact ⟨rfl, Or.inr ⟨rfl, hpos, hfloor, hle, by simp [heq], by simp, by simp [heq]⟩⟩
      next hne =>
        refine ⟨rfl, Or.inr ⟨rfl, hpos, hfloor, hle, fun h => ?_, ?_, fun name => ?_⟩⟩
        · simp [List.mem_filter, hne]
        · exact List.filter_sublist.trans (inScope_sublist site cur)
        · simp only [List.mem_map, List.mem_filter]
          constructor
          · rintro ⟨⟨key, r⟩, ⟨hentry, htest⟩, rfl⟩
            rw [Bool.and_eq_true, decide_eq_true_eq, Bool.or_eq_true, decide_eq_true_eq,
              decide_eq_true_eq] at htest
            exact ⟨hne, ⟨r, GoMap.mem_entries_iff.mp hentry, htest.1⟩, htest.2⟩
          · rintro ⟨-, ⟨r, hr, hlt⟩, howner⟩
            refine ⟨⟨name, r⟩, ⟨GoMap.mem_entries_iff.mpr hr, ?_⟩, rfl⟩
            rw [Bool.and_eq_true, decide_eq_true_eq, Bool.or_eq_true, decide_eq_true_eq,
              decide_eq_true_eq]
            exact ⟨hlt, howner⟩

/-- No host is reported both as changed and as gone. -/
theorem Service.Valid.disjoint (hs : s.Valid) (since : Int) (site : GoString) :
    ∀ h ∈ (getDelta s since site).changed, hostKey h ∉ (getDelta s since site).removed := by
  intro h hchanged hremoved
  obtain ⟨-, ⟨-, -, hnone⟩ | ⟨-, -, -, -, -, hsub, hgone⟩⟩ := getDelta_cases s since site
  · rw [hnone] at hremoved
    exact absurd hremoved List.not_mem_nil
  · obtain ⟨-, ⟨r, hr, -⟩, -⟩ := (hgone _).mp hremoved
    have hsig := (hs.sigs _).mpr (List.mem_map_of_mem (hsub.subset hchanged))
    exact hs.apart _ (GoMap.mem_iff_lookup.mpr ⟨r, hr⟩) hsig

/-! ### Pruning -/

/-- The one service has pruned its removal log, the other never has. -/
structure Pruned (s whole : Service) : Prop where
  cachedStatus : s.cachedStatus = whole.cachedStatus
  rev : s.rev = whole.rev
  hostSig : s.hostSig = whole.hostSig
  hostRev : s.hostRev = whole.hostRev
  floor : whole.minDeltaRev = 0
  removedAt : ∀ key r, s.minDeltaRev ≤ r → (s.removedAt.lookup key = some r ↔
    whole.removedAt.lookup key = some r)

/-- The removals that are still known can be told from those that are not. -/
theorem Pruned.countRevision {whole : Service} (hp : Pruned s whole) (hosts : List HostStatus) :
    Pruned (Monitoring.countRevision s hosts) (Monitoring.countRevision whole hosts) := by
  have hremoved : removedNames s hosts = removedNames whole hosts := by
    rw [removedNames, removedNames, hp.hostSig]
  have hchanged : changedNames s hosts = changedNames whole hosts := by
    rw [changedNames, changedNames, hp.hostSig]
  refine ⟨hp.cachedStatus, congrArg (· + 1) hp.rev, rfl, ?_, hp.floor, fun key r hle => ?_⟩
  · simp only [Monitoring.countRevision, hremoved, hchanged, hp.rev, hp.hostRev]
  · rw [lookup_countRevision_removedAt, lookup_countRevision_removedAt, hremoved, hp.rev]
    split
    · rfl
    · split
      · rfl
      · exact hp.removedAt key r hle

theorem Pruned.prune {whole : Service} (hp : Pruned s whole) : Pruned (pruneRemoved s) whole := by
  obtain heq | ⟨cutoff, -, heq⟩ := pruneRemoved_cases s
  · rw [heq]
    exact hp
  · rw [heq]
    refine ⟨hp.cachedStatus, hp.rev, hp.hostSig, hp.hostRev, hp.floor, fun key r hle => ?_⟩
    obtain ⟨hfloor, hcut⟩ := max_le_iff.mp hle
    rw [GoMap.lookup_keep, Option.filter_eq_some_iff, hp.removedAt key r hfloor]
    simp [hcut]

theorem Pruned.store {whole : Service} (hp : Pruned s whole) (hosts : List HostStatus) :
    Pruned (storeSnapshot s hosts) (storeWith id whole hosts) := by
  have hsame : isChanged s hosts = isChanged whole hosts := by
    rw [isChanged, isChanged, hp.hostSig, removedNames, removedNames, hp.hostSig]
  rw [storeSnapshot, storeWith, storeWith, hsame]
  split
  · obtain ⟨-, hrev, hsig, hhost, hfloor, hremoved⟩ := (hp.countRevision hosts).prune
    exact ⟨rfl, hrev, hsig, hhost, hfloor, hremoved⟩
  · exact ⟨rfl, hp.rev, hp.hostSig, hp.hostRev, hp.floor, hp.removedAt⟩

/-- The answers are the same, but for the order in which names are listed. -/
def SameAnswer (d d' : StatusDelta) : Prop :=
  d.rev = d'.rev ∧ d.full = d'.full ∧ d.changed = d'.changed ∧ ∀ name, name ∈ d.removed ↔ name ∈ d'.removed

/-- Pruning only ever makes an answer a full one. -/
theorem Pruned.answer {whole : Service} (hp : Pruned s whole) (since : Int) (site : GoString) :
    (getDelta s since site).full = true ∨ SameAnswer (getDelta s since site) (getDelta whole since site) := by
  obtain ⟨hrev, ⟨hfull, -⟩ | ⟨hfull, hpos, hfloor, hle, hchanged, -, hgone⟩⟩ := getDelta_cases s since site
  · exact Or.inl hfull
  · right
    obtain ⟨hrev', hwhole⟩ := getDelta_cases whole since site
    rw [getDelta] at hfull
    split at hfull
    next => exact absurd hfull (by simp)
    next cur hcached =>
      have hin : ¬(since ≤ 0 ∨ since < whole.minDeltaRev ∨ s.rev < since) := by
        rw [hp.floor]
        omega
      have hout : ¬(since ≤ 0 ∨ since < s.minDeltaRev ∨ s.rev < since) := by omega
      refine ⟨hrev.trans (hp.rev.trans hrev'.symm), ?_, ?_, fun name => ?_⟩
      · simp only [getDelta, hcached, ← hp.cachedStatus, ← hp.rev, if_neg hin, if_neg hout]
        split <;> rfl
      · simp only [getDelta, hcached, ← hp.cachedStatus, ← hp.rev, if_neg hin, if_neg hout,
          hp.hostRev]
        split <;> rfl
      · have hfull' : (getDelta whole since site).full = false := by
          simp only [getDelta, ← hp.cachedStatus, hcached, ← hp.rev, if_neg hin]
          split <;> rfl
        obtain ⟨htrue, -⟩ | ⟨-, -, -, -, -, -, hgone'⟩ := hwhole
        · exact absurd (hfull'.symm.trans htrue) (by simp)
        · rw [hgone, hgone', hp.rev]
          refine and_congr Iff.rfl (and_congr (exists_congr fun r => ?_) Iff.rfl)
          constructor
          · rintro ⟨hr, hlt⟩
            exact ⟨(hp.removedAt name r (by omega)).mp hr, hlt⟩
          · rintro ⟨hr, hlt⟩
            exact ⟨(hp.removedAt name r (by omega)).mpr hr, hlt⟩

/-! ### What a client holds -/

/-- The hosts of all the snapshots: no two of one key have one signature and differ in what it covers,
and where there is a filter, a key belongs to one site. -/
structure Tame (site : GoString) (H : HostStatus → Prop) : Prop where
  collisions : ∀ h h', H h → H h' → hostKey h = hostKey h' → hostSignature h = hostSignature h' →
    h.covered = h'.covered
  sites : site ≠ [] → ∀ h h', H h → H h' → hostKey h = hostKey h' → h.site = h'.site

/-- The keys of a snapshot are different, and the key of a host in scope that is gone names the site
of the filter. -/
def Clean (site : GoString) (st : State) : Event → Prop
  | .store hosts => (hosts.map hostKey).Nodup ∧
      ∀ h ∈ inScope site st.service.hosts, hostKey h ∉ hosts.map hostKey →
        site = [] ∨ (splitQualified (hostKey h)).1 = site
  | .poll => True

/-- The client has every host of its scope that has not changed since its revision, and what it has
that is gone will be reported. -/
structure Follows (site : GoString) (H : HostStatus → Prop) (st : State) : Prop where
  valid : st.service.Valid
  hosts : ∀ h ∈ st.service.hosts, H h
  list : ∀ h ∈ st.list, H h ∧ (site ≠ [] → h.site = site)
  distinct : (st.service.hosts.map hostKey).Nodup
  keys : (st.list.map hostKey).Nodup
  known : st.since ≤ st.service.rev
  exact : ∀ h ∈ st.service.hosts, st.service.hostSig.lookup (hostKey h) = some (hostSignature h)
  stamped : ∀ h ∈ st.service.hosts, ∃ r, st.service.hostRev.lookup (hostKey h) = some r ∧ r ≤ st.service.rev
  held : ∀ h ∈ inScope site st.service.hosts, ∀ r, st.service.hostRev.lookup (hostKey h) = some r →
    r ≤ st.since → ∃ h' ∈ st.list, hostKey h' = hostKey h ∧ h'.covered = h.covered
  gone : ∀ h ∈ st.list, hostKey h ∉ st.service.hosts.map hostKey → st.since < st.service.minDeltaRev ∨
    (∃ r, st.service.removedAt.lookup (hostKey h) = some r ∧ st.since < r) ∧
      (site = [] ∨ (splitQualified (hostKey h)).1 = site)

variable {H : HostStatus → Prop}

/-- A host whose signature is known was in the snapshot before, and looked the same. -/
theorem Follows.before (hf : Follows site H st) (ht : Tame site H) {h : HostStatus} (hH : H h)
    (hsig : st.service.hostSig.lookup (hostKey h) = some (hostSignature h)) :
    ∃ h' ∈ st.service.hosts, hostKey h' = hostKey h ∧ h'.covered = h.covered ∧
      (site ≠ [] → h'.site = h.site) := by
  have hkey := (hf.valid.sigs _).mp (GoMap.mem_iff_lookup.mpr ⟨_, hsig⟩)
  obtain ⟨h', hmem, hsame⟩ := List.mem_map.mp hkey
  have hexact := hf.exact h' hmem
  rw [hsame, hsig] at hexact
  have hH' := hf.hosts h' hmem
  exact ⟨h', hmem, hsame, ht.collisions h' h hH' hH hsame (Option.some.inj hexact).symm,
    fun hsite => ht.sites hsite h' h hH' hH hsame⟩

/-- A host that has not changed is still held. -/
theorem Follows.still_held (hf : Follows site H st) (ht : Tame site H) {h : HostStatus} (hH : H h)
    (hscope : site ≠ [] → h.site = site)
    (hsig : st.service.hostSig.lookup (hostKey h) = some (hostSignature h)) {r : Int}
    (hr : st.service.hostRev.lookup (hostKey h) = some r) (hle : r ≤ st.since) :
    ∃ h' ∈ st.list, hostKey h' = hostKey h ∧ h'.covered = h.covered := by
  obtain ⟨old, hold, hkey, hcovered, hsite⟩ := hf.before ht hH hsig
  have hin : old ∈ inScope site st.service.hosts :=
    mem_inScope.mpr ⟨hold, fun hne => (hsite hne).trans (hscope hne)⟩
  obtain ⟨h', hmem, hkey', hcovered'⟩ := hf.held old hin r (hkey ▸ hr) hle
  exact ⟨h', hmem, hkey'.trans hkey, hcovered'.trans hcovered⟩

theorem Follows.count (hf : Follows site H st) (ht : Tame site H) (hnew : ∀ h ∈ hosts, H h)
    (hclean : Clean site st (.store hosts)) :
    Follows site H { st with service := { countRevision st.service hosts with cachedStatus := some hosts } } := by
  obtain ⟨hdistinct, howner⟩ := hclean
  -- a host that is not counted as changed has the signature that was known
  have hsame : ∀ h ∈ hosts, hostKey h ∉ changedNames st.service hosts →
      st.service.hostSig.lookup (hostKey h) = some (hostSignature h) := by
    intro h hmem hnot
    rw [← lookup_signatures hdistinct hmem]
    by_contra hne
    exact hnot (mem_changedNames.mpr ⟨List.mem_map_of_mem hmem, hne⟩)
  refine ⟨hf.valid.countRevision, hnew, hf.list, hdistinct, hf.keys, ?_, fun h hmem => ?_, fun h hmem => ?_,
    fun h hmem r hr hle => ?_, fun h hmem hnot => ?_⟩
  · exact le_trans hf.known (by simp [countRevision])
  · exact lookup_signatures hdistinct hmem
  · have hmem' : h ∈ hosts := hmem
    dsimp only
    rw [lookup_countRevision_hostRev (List.mem_map_of_mem hmem')]
    split
    · exact ⟨_, rfl, le_refl _⟩
    next hnot =>
      obtain ⟨old, hold, hkey, -⟩ := hf.before ht (hnew h hmem') (hsame h hmem' hnot)
      obtain ⟨r, hr, hle⟩ := hf.stamped old hold
      exact ⟨r, hkey ▸ hr, le_trans hle (by simp [countRevision])⟩
  · obtain ⟨hmem', hscope⟩ := mem_inScope.mp hmem
    have hmem'' : h ∈ hosts := hmem'
    dsimp only at hr hle ⊢
    rw [lookup_countRevision_hostRev (List.mem_map_of_mem hmem'')] at hr
    split at hr
    next =>
      have hlate := hf.known
      rw [← Option.some.inj hr] at hle
      omega
    next hnot => exact hf.still_held ht (hnew h hmem'') hscope (hsame h hmem'' hnot) hr hle
  · have hnot' : hostKey h ∉ hosts.map hostKey := hnot
    dsimp only
    rw [lookup_countRevision_removedAt, if_neg hnot']
    by_cases hold : hostKey h ∈ st.service.hosts.map hostKey
    · have hremoved : hostKey h ∈ removedNames st.service hosts :=
        mem_removedNames.mpr ⟨(hf.valid.sigs _).mpr hold, hnot'⟩
      obtain ⟨old, holdmem, hkey⟩ := List.mem_map.mp hold
      obtain ⟨hH, hscope⟩ := hf.list h hmem
      have hin : old ∈ inScope site st.service.hosts := by
        refine mem_inScope.mpr ⟨holdmem, fun hne => ?_⟩
        exact (ht.sites hne old h (hf.hosts old holdmem) hH hkey).trans (hscope hne)
      refine Or.inr ⟨⟨_, if_pos hremoved, ?_⟩, ?_⟩
      · have := hf.known
        omega
      · rw [← hkey]
        exact howner old hin (hkey.symm ▸ hnot')
    · rw [if_neg fun hremoved => hold ((hf.valid.sigs _).mp (mem_removedNames.mp hremoved).1)]
      exact hf.gone h hmem hold

theorem Follows.prune (hf : Follows site H st) :
    Follows site H { st with service := pruneRemoved st.service } := by
  have hvalid := hf.valid.prune
  obtain heq | ⟨cutoff, -, heq⟩ := pruneRemoved_cases st.service
  · rw [heq]
    exact hf
  · rw [heq] at hvalid ⊢
    refine ⟨hvalid, hf.hosts, hf.list, hf.distinct, hf.keys, hf.known, hf.exact, hf.stamped, hf.held,
      fun h hmem hnot => ?_⟩
    dsimp only
    obtain hfloor | ⟨⟨r, hr, hlt⟩, howner⟩ := hf.gone h hmem hnot
    · exact Or.inl (lt_of_lt_of_le hfloor (le_max_left _ _))
    · by_cases hcut : cutoff ≤ r
      · refine Or.inr ⟨⟨r, ?_, hlt⟩, howner⟩
        rw [GoMap.lookup_keep, hr, Option.filter_some, if_pos (decide_eq_true hcut)]
      · exact Or.inl (lt_of_lt_of_le (lt_trans hlt (not_le.mp hcut)) (le_max_right _ _))

theorem Follows.store (hf : Follows site H st) (ht : Tame site H) (hnew : ∀ h ∈ hosts, H h)
    (hclean : Clean site st (.store hosts)) : Follows site H (st.step site (.store hosts)) := by
  rw [State.step, storeSnapshot, storeWith]
  split
  next =>
    rw [pruneRemoved_cached]
    exact (hf.count ht hnew hclean).prune
  next hunchanged =>
    obtain ⟨hsigs, hkeys⟩ := isChanged_eq_false.mp (eq_false_of_ne_true hunchanged)
    refine ⟨?_, hnew, hf.list, hclean.1, hf.keys, hf.known, hsigs, fun h hmem => ?_,
      fun h hmem r hr hle => ?_, fun h hmem hnot => ?_⟩
    · refine ⟨fun key => ⟨hkeys key, fun hkey => ?_⟩, hf.valid.apart, hf.valid.removed_le, hf.valid.floor_le⟩
      obtain ⟨h, hmem, rfl⟩ := List.mem_map.mp hkey
      exact GoMap.mem_iff_lookup.mpr ⟨_, hsigs h hmem⟩
    · obtain ⟨old, hold, hkey, -⟩ := hf.before ht (hnew h hmem) (hsigs h hmem)
      obtain ⟨r, hr, hle⟩ := hf.stamped old hold
      exact ⟨r, hkey ▸ hr, hle⟩
    · obtain ⟨hmem', hscope⟩ := mem_inScope.mp hmem
      exact hf.still_held ht (hnew h hmem') hscope (hsigs h hmem') hr hle
    · exact hf.gone h hmem fun hold => hnot (hkeys _ ((hf.valid.sigs _).mpr hold))

/-- A host of the list after a poll that is not a full one: it was held or has changed, and is not gone. -/
theorem mem_applyDelta {d : StatusDelta} (hdelta : d.full = false) {list : List HostStatus} {h : HostStatus} :
    h ∈ applyDelta list d ↔
      (h ∈ list ∧ hostKey h ∉ d.changed.map hostKey ∨ h ∈ d.changed) ∧ hostKey h ∉ d.removed := by
  rw [applyDelta, if_neg (by simp [hdelta]), List.mem_filter, List.mem_append, List.mem_filter,
    decide_eq_true_eq, decide_eq_true_eq]

theorem nodup_applyDelta {d : StatusDelta} (hdelta : d.full = false) {list : List HostStatus}
    (hlist : (list.map hostKey).Nodup) (hchanged : (d.changed.map hostKey).Nodup) :
    ((applyDelta list d).map hostKey).Nodup := by
  rw [applyDelta, if_neg (by simp [hdelta])]
  refine (List.filter_sublist.map hostKey).nodup ?_
  rw [List.map_append, List.nodup_append]
  refine ⟨(List.filter_sublist.map hostKey).nodup hlist, hchanged, ?_⟩
  rintro key hkept key' hkey' rfl
  obtain ⟨h, hmem, rfl⟩ := List.mem_map.mp hkept
  exact of_decide_eq_true (List.mem_filter.mp hmem).2 hkey'

/-- What is gone from the snapshot has been taken from the list by the poll. -/
theorem Follows.reported (hf : Follows site H st) {h : HostStatus} (hmem : h ∈ st.list)
    (hnot : hostKey h ∉ st.service.hosts.map hostKey) (hfloor : st.service.minDeltaRev ≤ st.since) :
    st.since ≠ st.service.rev ∧ (∃ r, st.service.removedAt.lookup (hostKey h) = some r ∧ st.since < r) ∧
      (site = [] ∨ (splitQualified (hostKey h)).1 = site) := by
  obtain hlow | ⟨⟨r, hr, hlt⟩, howner⟩ := hf.gone h hmem hnot
  · exact absurd hfloor (not_le.mpr hlow)
  · refine ⟨fun heq => ?_, ⟨r, hr, hlt⟩, howner⟩
    have hle := hf.valid.removed_le _ r hr
    omega

theorem Follows.poll (hf : Follows site H st) : Follows site H (st.step site .poll) := by
  have hdisjoint := hf.valid.disjoint st.since site
  obtain ⟨hrev, ⟨hfull, hall, -⟩ | ⟨hdelta, -, hfloor, -, hchanged, hsub, hgone⟩⟩ :=
    getDelta_cases st.service st.since site
  · rw [State.step, hrev, applyDelta, if_pos hfull, hall]
    have hsublist := inScope_sublist site st.service.hosts
    refine ⟨hf.valid, hf.hosts, fun h hmem => ?_, hf.distinct, (hsublist.map hostKey).nodup hf.distinct,
      le_refl _, hf.exact, hf.stamped, fun h hmem _ _ _ => ⟨h, hmem, rfl, rfl⟩, fun h hmem hnot => ?_⟩
    · exact ⟨hf.hosts h (hsublist.subset hmem), (mem_inScope.mp hmem).2⟩
    · exact absurd (List.mem_map_of_mem (hsublist.subset hmem)) hnot
  · rw [State.step, hrev]
    refine ⟨hf.valid, hf.hosts, fun h hmem => ?_, hf.distinct,
      nodup_applyDelta hdelta hf.keys ((hsub.map hostKey).nodup hf.distinct), le_refl _, hf.exact,
      hf.stamped, fun h hmem r hr _ => ?_, fun h hmem hnot => ?_⟩
    · obtain ⟨⟨hlist, -⟩ | hnew, -⟩ := (mem_applyDelta hdelta).mp hmem
      · exact hf.list h hlist
      · obtain ⟨hhosts, hscope⟩ := mem_inScope.mp ((hchanged h).mp hnew).2.1
        exact ⟨hf.hosts h hhosts, hscope⟩
    · dsimp only at hmem hr ⊢
      have hkept : hostKey h ∉ (getDelta st.service st.since site).removed := by
        intro hremoved
        obtain ⟨-, ⟨_, hr', -⟩, -⟩ := (hgone _).mp hremoved
        exact hf.valid.apart _ (GoMap.mem_iff_lookup.mpr ⟨_, hr'⟩)
          ((hf.valid.sigs _).mpr (List.mem_map_of_mem (mem_inScope.mp hmem).1))
      by_cases hle : r ≤ st.since
      · obtain ⟨h', hheld, hkey, hcovered⟩ := hf.held h hmem r hr hle
        refine ⟨h', (mem_applyDelta hdelta).mpr ⟨Or.inl ⟨hheld, fun hnew => ?_⟩, hkey.symm ▸ hkept⟩, hkey, hcovered⟩
        obtain ⟨other, hother, hsame⟩ := List.mem_map.mp hnew
        have hlate := ((hchanged other).mp hother).2.2
        rw [hsame, hkey, hr, Option.getD_some] at hlate
        exact absurd hle (not_le.mpr hlate)
      · obtain ⟨r', hr', hcur⟩ := hf.stamped h (mem_inScope.mp hmem).1
        obtain rfl := Option.some.inj (hr.symm.trans hr')
        have hnew : h ∈ (getDelta st.service st.since site).changed := by
          refine (hchanged h).mpr ⟨fun heq => hle (heq ▸ hcur), hmem, ?_⟩
          rw [hr, Option.getD_some]
          exact not_le.mp hle
        exact ⟨h, (mem_applyDelta hdelta).mpr ⟨Or.inr hnew, hkept⟩, rfl, rfl⟩
    · obtain ⟨⟨hlist, -⟩ | hnew, hkept⟩ := (mem_applyDelta hdelta).mp hmem
      · exact absurd ((hgone _).mpr (hf.reported hlist hnot hfloor)) hkept
      · exact absurd (List.mem_map_of_mem (hsub.subset hnew)) hnot

theorem Follows.start (site : GoString) (H : HostStatus → Prop) : Follows site H State.start := by
  refine ⟨valid_start, ?_, ?_, List.nodup_nil, List.nodup_nil, le_refl _, ?_, ?_, ?_, ?_⟩
  all_goals
    intro h hmem
    simp [State.start, Service.start, Service.hosts, inScope, scopeSite] at hmem

theorem nodup_covered {list : List HostStatus} (h : (list.map hostKey).Nodup) :
    (list.map HostStatus.covered).Nodup := by
  refine List.Nodup.of_map hostKey ?_
  rw [List.map_map]
  exact h

/-- At the current revision the client has what there is. -/
theorem Follows.synced (hf : Follows site H st) (ht : Tame site H) (hcurrent : st.since = st.service.rev) :
    Synced site st := by
  have hsublist := inScope_sublist site st.service.hosts
  have hscope := nodup_covered ((hsublist.map hostKey).nodup hf.distinct)
  have hheld : ∀ h ∈ inScope site st.service.hosts,
      ∃ h' ∈ st.list, hostKey h' = hostKey h ∧ h'.covered = h.covered := by
    intro h hmem
    obtain ⟨r, hr, hle⟩ := hf.stamped h (mem_inScope.mp hmem).1
    exact hf.held h hmem r hr (hcurrent ▸ hle)
  refine (List.perm_ext_iff_of_nodup (nodup_covered hf.keys) hscope).mpr fun c => ?_
  simp only [List.mem_map]
  constructor
  · rintro ⟨h, hmem, rfl⟩
    by_cases hold : hostKey h ∈ st.service.hosts.map hostKey
    · obtain ⟨cur, hcur, hkey⟩ := List.mem_map.mp hold
      obtain ⟨hH, hsite⟩ := hf.list h hmem
      have hin : cur ∈ inScope site st.service.hosts :=
        mem_inScope.mpr ⟨hcur, fun hne => (ht.sites hne cur h (hf.hosts cur hcur) hH hkey).trans (hsite hne)⟩
      obtain ⟨h', hmem', hkey', hcovered⟩ := hheld cur hin
      obtain rfl := List.inj_on_of_nodup_map hf.keys hmem' hmem (hkey'.trans hkey)
      exact ⟨cur, hin, hcovered.symm⟩
    · exact absurd hcurrent (hf.reported hmem hold (hcurrent ▸ hf.valid.floor_le)).1
  · rintro ⟨h, hmem, rfl⟩
    obtain ⟨h', hmem', -, hcovered⟩ := hheld h hmem
    exact ⟨h', hmem', hcovered⟩

/-! ### Whole runs -/

/-- A host of some snapshot of the run. -/
def Seen (events : List Event) (h : HostStatus) : Prop := ∃ hosts, Event.store hosts ∈ events ∧ h ∈ hosts

def Service.grow (s : Service) : Event → Service
  | .store hosts => storeWith id s hosts
  | .poll => s

/-- The service as it would be if its removal log were never pruned. -/
def unpruned (events : List Event) : Service := Run.exec Service.grow Service.start events

theorem valid_exec (site : GoString) (events : List Event) :
    (Run.exec (State.step site) State.start events).service.Valid ∧
      Pruned (Run.exec (State.step site) State.start events).service (unpruned events) := by
  induction events using List.reverseRecOn with
  | nil => exact ⟨valid_start, rfl, rfl, rfl, rfl, rfl, fun _ _ _ => Iff.rfl⟩
  | append_singleton events event ih =>
      rw [unpruned, Run.exec_concat, Run.exec_concat, ← unpruned]
      cases event with
      | store hosts => exact ⟨ih.1.storeSnapshot, ih.2.store hosts⟩
      | poll => exact ih

/-- In a run of clean steps the client never falls behind its revision. -/
theorem follows_exec {events : List Event} (ht : Tame site (Seen events))
    (hclean : Run.Guarded (State.step site) (Clean site) State.start events) :
    Run.Always (State.step site) (Follows site (Seen events)) State.start events := by
  have hstep : ∀ st event, Follows site (Seen events) st →
      (event ∈ events ∧ Clean site st event) → Follows site (Seen events) (st.step site event) := by
    rintro st event hf ⟨hmem, hevent⟩
    cases event with
    | store hosts => exact hf.store ht (fun h hh => ⟨hosts, hmem, hh⟩) hevent
    | poll => exact hf.poll
  refine Run.always_of_guarded hstep (Follows.start site _) fun pre event hpre => ⟨?_, hclean pre event hpre⟩
  exact hpre.subset (by simp)

/-- After a poll the client has what the snapshot has in its scope; no answer has a host both changed and
gone, and pruning makes an answer a full one or leaves it as it is. -/
theorem getDelta_converges (site : GoString) (events : List Event) :
    (Tame site (Seen events) → Run.Guarded (State.step site) (Clean site) State.start events →
      ∀ pre, pre ++ [.poll] <+: events → Synced site (Run.exec (State.step site) State.start (pre ++ [.poll]))) ∧
    ∀ pre, pre <+: events → ∀ since scope,
      let d := getDelta (Run.exec (State.step site) State.start pre).service since scope
      (∀ h ∈ d.changed, hostKey h ∉ d.removed) ∧
        (d.full = true ∨ SameAnswer d (getDelta (unpruned pre) since scope)) := by
  constructor
  · intro ht hclean pre hpre
    refine (follows_exec ht hclean _ hpre).synced ht ?_
    rw [Run.exec_concat, State.step]
    exact (getDelta_cases _ _ _).1
  · intro pre _ since scope
    obtain ⟨hvalid, hpruned⟩ := valid_exec site pre
    exact ⟨hvalid.disjoint since scope, hpruned.answer since scope⟩

section Example

/-- A host named `x` of the local site. -/
def hostX (status : GoString) : HostStatus where
  objectName := ascii "x"
  site := ascii "local"
  localName := ascii "x"
  hostname := ascii "x"
  overallStatus := status
  statusColor := []
  contact := []
  paused := false
  description := []
  ipv4Address := []
  stale := false
  acked := false
  notes := []
  lastChangeTime := none
  checks := []
  rtt := none
  packetLoss := none
  snmp := none
  counters := default

/-- A host that changes and goes, as a client without a filter sees it. -/
def hostLeaves : List Event :=
  [.store [hostX (ascii "OK")], .poll, .store [hostX (ascii "WARNING")], .store [], .poll]

theorem getDelta_converges_hostLeaves :
    Synced [] (Run.exec (State.step []) State.start hostLeaves) := by
  have hseen : ∀ h, Seen hostLeaves h → h = hostX (ascii "OK") ∨ h = hostX (ascii "WARNING") := by
    rintro h ⟨hosts, hstored, hmem⟩
    simp only [hostLeaves, List.mem_cons, Event.store.injEq, reduceCtorEq, List.not_mem_nil, or_false,
      false_or] at hstored
    obtain rfl | rfl | rfl := hstored
    · exact Or.inl (List.mem_singleton.mp hmem)
    · exact Or.inr (List.mem_singleton.mp hmem)
    · exact absurd hmem List.not_mem_nil
  have hsigs : hostSignature (hostX (ascii "OK")) ≠ hostSignature (hostX (ascii "WARNING")) := by
    decide
  have htame : Tame [] (Seen hostLeaves) := by
    refine ⟨fun h h' hh hh' _ hsig => ?_, fun hne => absurd rfl hne⟩
    obtain rfl | rfl := hseen h hh
    all_goals obtain rfl | rfl := hseen h' hh'
    · rfl
    · exact absurd hsig hsigs
    · exact absurd hsig.symm hsigs
    · rfl
  have hclean : Run.Guarded (State.step []) (Clean []) State.start hostLeaves := by
    refine Run.guarded_of_forall fun event hmem st => ?_
    cases event with
    | store hosts =>
        refine ⟨?_, fun _ _ _ => Or.inl rfl⟩
        simp only [hostLeaves, List.mem_cons, Event.store.injEq, reduceCtorEq, List.not_mem_nil,
          or_false, false_or] at hmem
        obtain rfl | rfl | rfl := hmem
        · exact List.nodup_singleton _
        · exact List.nodup_singleton _
        · exact List.nodup_nil
    | poll => trivial
  exact (getDelta_converges [] hostLeaves).1 htame hclean
    [.store [hostX (ascii "OK")], .poll, .store [hostX (ascii "WARNING")], .store []] List.prefix_rfl

/-- The key of a local host names no site, so one that is gone is not reported to a client of the local
site. -/
theorem not_synced_local :
    ¬∀ (site : GoString) (events : List Event), Tame site (Seen events) →
      (∀ hosts, .store hosts ∈ events → (hosts.map hostKey).Nodup) →
      ∀ pre, pre ++ [.poll] <+: events →
        Synced site (Run.exec (State.step site) State.start (pre ++ [.poll])) := by
  intro hall
  have hseen : ∀ h, Seen [.store [hostX []], .poll, .store [], .poll] h → h = hostX [] := by
    rintro h ⟨hosts, hstored, hmem⟩
    simp only [List.mem_cons, Event.store.injEq, reduceCtorEq, List.not_mem_nil, or_false,
      false_or] at hstored
    obtain rfl | rfl := hstored
    · exact List.mem_singleton.mp hmem
    · exact absurd hmem List.not_mem_nil
  have hsynced := hall (ascii "local") [.store [hostX []], .poll, .store [], .poll] ?_ ?_
    [.store [hostX []], .poll, .store []] List.prefix_rfl
  · have hlists : (Run.exec (State.step (ascii "local")) State.start
        [.store [hostX []], .poll, .store [], .poll]).list.length = 1 ∧
      (Run.exec (State.step (ascii "local")) State.start
        [.store [hostX []], .poll, .store [], .poll]).service.hosts = [] := by decide +kernel
    have hlength := hsynced.length_eq
    rw [List.length_map, List.length_map] at hlength
    have hnone := (inScope_sublist (ascii "local") []).length_le
    rw [show [Event.store [hostX []], .poll, .store []] ++ [.poll] =
      [.store [hostX []], .poll, .store [], .poll] from rfl, hlists.1, hlists.2] at hlength
    rw [← hlength] at hnone
    exact absurd hnone (by decide)
  · refine ⟨fun h h' hh hh' _ _ => ?_, fun _ h h' hh hh' _ => ?_⟩
    · rw [hseen h hh, hseen h' hh']
    · rw [hseen h hh, hseen h' hh']
  · intro hosts hstored
    simp only [List.mem_cons, Event.store.injEq, reduceCtorEq, List.not_mem_nil, or_false,
      false_or] at hstored
    obtain rfl | rfl := hstored
    · exact List.nodup_singleton _
    · exact List.nodup_nil

end Example

/-! ### Two runs of the server -/

/-- A run of the server, by the snapshots it has stored. -/
def stored (history : List (List HostStatus)) : Service := history.foldl storeSnapshot Service.start

/-- How many of the snapshots have something new. -/
def changes (s : Service) : List (List HostStatus) → Nat
  | [] => 0
  | hosts :: rest => (isChanged s hosts).toNat + changes (storeSnapshot s hosts) rest

theorem rev_storeSnapshot (s : Service) (hosts : List HostStatus) :
    (storeSnapshot s hosts).rev = s.rev + (isChanged s hosts).toNat := by
  rw [storeSnapshot, storeWith]
  split
  next hchanged =>
    have hrev : (pruneRemoved (countRevision s hosts)).rev = s.rev + 1 := by
      obtain heq | ⟨cutoff, -, heq⟩ := pruneRemoved_cases (countRevision s hosts)
      · rw [heq]
        rfl
      · rw [heq]
        rfl
    rw [hchanged]
    exact hrev
  next hsame =>
    rw [eq_false_of_ne_true hsame]
    exact (add_zero s.rev).symm

theorem rev_foldl (s : Service) (history : List (List HostStatus)) :
    (history.foldl storeSnapshot s).rev = s.rev + changes s history := by
  induction history generalizing s with
  | nil => exact (add_zero s.rev).symm
  | cons hosts history ih =>
      rw [List.foldl_cons, ih, rev_storeSnapshot, changes, Nat.cast_add, add_assoc]

theorem rev_stored (history : List (List HostStatus)) :
    (stored history).rev = changes Service.start history := by
  rw [stored, rev_foldl]
  exact zero_add _

theorem cached_stored (history : List (List HostStatus)) :
    (stored history).cachedStatus = none ↔ history = [] := by
  induction history using List.reverseRecOn with
  | nil => exact ⟨fun _ => rfl, fun _ => rfl⟩
  | append_singleton history hosts _ =>
      rw [stored, List.foldl_concat]
      constructor
      · intro hnone
        exact absurd hnone (by simp [storeSnapshot, storeWith])
      · intro hnil
        exact absurd hnil (List.append_ne_nil_of_right_ne_nil _ (by simp))

/-- A revision of one run is known for a foreign one by another run exactly when that has stored nothing
yet, has counted fewer revisions or has raised its floor above it, or when it was the first of all. -/
theorem full_iff_foreign (old new : List (List HostStatus)) (site : GoString) :
    (getDelta (stored new) (stored old).rev site).full = true ↔
      new = [] ∨ changes Service.start old = 0 ∨
        changes Service.start new < changes Service.start old ∨
        (changes Service.start old : Int) < (stored new).minDeltaRev := by
  rw [← cached_stored, rev_stored, getDelta, rev_stored]
  cases (stored new).cachedStatus with
  | none => simp
  | some cur =>
      dsimp only
      split
      next hforeign =>
        simp only [reduceCtorEq, false_or, true_iff]
        omega
      next hknown =>
        have hfull : ∀ d d' : StatusDelta, d.full = false → d'.full = false →
            ((if (changes Service.start old : Int) = changes Service.start new then d else d').full = true ↔
              False) := by
          intro d d' hd hd'
          split
          · simp [hd]
          · simp [hd']
        rw [hfull _ _ rfl rfl]
        simp only [reduceCtorEq, false_or, false_iff]
        omega

/-- After a restart the first revision is taken for that of the run before. -/
theorem not_full_after_restart :
    ¬∀ (old new : List (List HostStatus)) (site : GoString),
      (getDelta (stored new) (stored old).rev site).full = true := by
  intro hall
  have hknown : (getDelta (stored [[hostX (ascii "WARNING")]]) (stored [[hostX (ascii "OK")]]).rev []).full =
      false := by decide +kernel
  exact absurd ((hall [[hostX (ascii "OK")]] [[hostX (ascii "WARNING")]] []).symm.trans hknown) (by decide)

end Sysmon.Monitoring
