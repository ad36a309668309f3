import Mathlib.Data.List.Nodup
import Sysmon.Queue

/-!
# What a reload keeps

At an accepted reload the objects are made anew from the configuration, and what each has come to since it
was first loaded is carried over from the old object with the same name, address, type and port. Around
that, the main loop first stops the checks that are in the queue (`fast_cleanup_checks`) and at the end
stamps all objects as changed (`update_count`).
-/

open Sysmon.Parser

namespace Sysmon.Queue

open Sysmon.Reload

/-- What an object has come to. -/
structure RuntimeState where
  lastcheck : UInt32
  downct : UInt64
  upct : UInt64
  contacted : Bool
  lastcontacted : Time
  deathtime : Time
  lchecktime : Time
  lastUp : Time
  lastRecovery : Time
  totalchecked : UInt64
  totaldown : UInt64
  acked : Bool
  notes : Option CStr
  lastmsgid : Option CStr
  uniqueId : Option CStr
  /-- Also the last SNMP value. -/
  systemUptime : UInt64
  lastSnmpResptime : Time
  rttLastMin : UInt64
  rttLastAvg : UInt64
  rttLastMax : UInt64
  rttLastJitter : UInt64
  rttLastReplies : UInt32
  rttLastProbes : UInt32
  pktlossLastSent : UInt32
  pktlossLastRecv : UInt32
  deriving DecidableEq, Repr

/-- A new object has not come to anything. -/
def RuntimeState.initial (uniqueId : Option CStr) : RuntimeState where
  lastcheck := 0
  downct := 0
  upct := 0
  contacted := false
  lastcontacted := 0
  deathtime := 0
  lchecktime := 0
  lastUp := 0
  lastRecovery := 0
  totalchecked := 0
  totaldown := 0
  acked := false
  notes := none
  lastmsgid := none
  uniqueId := uniqueId
  systemUptime := 0
  lastSnmpResptime := 0
  rttLastMin := 0
  rttLastAvg := 0
  rttLastMax := 0
  rttLastJitter := 0
  rttLastReplies := 0
  rttLastProbes := 0
  pktlossLastSent := 0
  pktlossLastRecv := 0

def runtime (d : HostInfo) : RuntimeState where
  lastcheck := d.lastcheck
  downct := d.downct
  upct := d.upct
  contacted := d.contacted
  lastcontacted := d.lastcontacted
  deathtime := d.deathtime
  lchecktime := d.lchecktime
  lastUp := d.lastUp
  lastRecovery := d.lastRecovery
  totalchecked := d.totalchecked
  totaldown := d.totaldown
  acked := d.acked
  notes := d.notes
  lastmsgid := d.lastmsgid
  uniqueId := d.uniqueId
  systemUptime := d.systemUptime
  lastSnmpResptime := d.lastSnmpResptime
  rttLastMin := d.rttLastMin
  rttLastAvg := d.rttLastAvg
  rttLastMax := d.rttLastMax
  rttLastJitter := d.rttLastJitter
  rttLastReplies := d.rttLastReplies
  rttLastProbes := d.rttLastProbes
  pktlossLastSent := d.pktlossLastSent
  pktlossLastRecv := d.pktlossLastRecv

/-- The object with this state, and all else as it was. -/
def withRuntime (d : HostInfo) (s : RuntimeState) : HostInfo :=
  { d with
    lastcheck := s.lastcheck
    downct := s.downct
    upct := s.upct
    contacted := s.contacted
    lastcontacted := s.lastcontacted
    deathtime := s.deathtime
    lchecktime := s.lchecktime
    lastUp := s.lastUp
    lastRecovery := s.lastRecovery
    totalchecked := s.totalchecked
    totaldown := s.totaldown
    acked := s.acked
    notes := s.notes
    lastmsgid := s.lastmsgid
    uniqueId := s.uniqueId
    systemUptime := s.systemUptime
    lastSnmpResptime := s.lastSnmpResptime
    rttLastMin := s.rttLastMin
    rttLastAvg := s.rttLastAvg
    rttLastMax := s.rttLastMax
    rttLastJitter := s.rttLastJitter
    rttLastReplies := s.rttLastReplies
    rttLastProbes := s.rttLastProbes
    pktlossLastSent := s.pktlossLastSent
    pktlossLastRecv := s.pktlossLastRecv }

/-! ### The main loop -/

def stamp (seq : UInt64) (svc : HostInfo) : HostInfo := { svc with changeSeq := seq }

/-- `update_count`, with the objects of the tree. -/
def updateCount : Heap → UInt64 → List Ref → Heap × UInt64
  | heap, seq, [] => (heap, seq)
  | heap, seq, r :: rest => updateCount (updateData heap r (stamp (seq + 1))) (seq + 1) rest

/-- What the main loop does after a SIGHUP. -/
def handleSighup (m : Monitor) (env : Env) (file : Option (List Token)) : Monitor :=
  let m := reload m env file
  let (heap, seq) := updateCount m.daemon.heap m.globChangeSeq m.daemon.currenthead
  { m.setHeap heap with globChangeSeq := seq }

/-- The objects a file describes. -/
def parsedObjects (d : Daemon) (env : Env) : Option (List Token) → List Element
  | none => []
  | some tokens => (yylex env d.scratch.fresh tokens).head

/-! ### What is claimed of a reload -/

/-- The objects of the tree are there, and references are given out once. -/
structure Running (d : Daemon) : Prop where
  live : ∀ r ∈ d.currenthead, (d.heap r).isSome
  bound : ∀ r, d.next ≤ r → d.heap r = none

/-- The names of a list of objects. -/
def names (heap : Heap) (refs : List Ref) : List (Option CStr) := refs.map fun r => (heap r).map Element.uniqueName

/-- The old object that a new one takes over from. -/
def Predecessor (d : Daemon) (new old : Element) : Prop :=
  ∃ r ∈ d.currenthead, d.heap r = some old ∧ identity old = identity new

/-- The new tree is what was parsed; an object with a predecessor has its state, any other is in its initial
state, and all else is as parsed, but for the stamp. -/
structure StateKept (before after : Daemon) (parsed : List Element) : Prop where
  tree : after.currenthead = List.range' before.next parsed.length
  matched : ∀ i new, parsed[i]? = some new → ∀ old, Predecessor before new old →
    ∃ seq, after.heap (before.next + i) = some { new with data := stamp seq (withRuntime new.data (runtime old.data)) }
  fresh : ∀ i new, parsed[i]? = some new → (¬∃ old, Predecessor before new old) →
    runtime new.data = RuntimeState.initial new.data.uniqueId ∧
      ∃ seq, after.heap (before.next + i) = some { new with data := stamp seq new.data }

/-! ### What the parser makes -/

theorem runtime_closes {env : Env} {s : Scratch} {element : Element} (h : closes env s = some element) :
    runtime element.data = RuntimeState.initial element.data.uniqueId := by
  simp only [closes, built] at h
  repeat' split at h
  all_goals cases h
  rfl

/-- A new object is in its initial state. -/
theorem runtime_yylex (env : Env) {s : Scratch} (tokens : List Token)
    (h : ∀ element ∈ s.head, runtime element.data = RuntimeState.initial element.data.uniqueId) :
    ∀ element ∈ (yylex env s tokens).head, runtime element.data = RuntimeState.initial element.data.uniqueId := by
  induction tokens generalizing s with
  | nil => exact h
  | cons token tokens ih =>
      rw [yylex, Run.exec_cons]
      refine ih fun element hmem => ?_
      rw [head_token, List.mem_append, Option.mem_toList] at hmem
      obtain hbuilt | hmem := hmem
      · split at hbuilt
        · exact runtime_closes hbuilt
        · exact absurd hbuilt (by simp)
      · exact h element hmem

theorem runtime_parsedObjects (d : Daemon) (env : Env) (file : Option (List Token)) :
    ∀ element ∈ parsedObjects d env file, runtime element.data = RuntimeState.initial element.data.uniqueId := by
  cases file with
  | none => exact fun _ h => absurd h List.not_mem_nil
  | some tokens => exact runtime_yylex env tokens fun _ h => absurd h List.not_mem_nil

/-- What `hard_copy` keeps of a new object does not matter for one that is in its initial state. -/
theorem hardCopy_eq (old : HostInfo) {new : HostInfo} (h : runtime new = RuntimeState.initial new.uniqueId) :
    hardCopy old new = withRuntime new (runtime old) := by
  have hnotes : new.notes = none := congrArg RuntimeState.notes h
  have hmsgid : new.lastmsgid = none := congrArg RuntimeState.lastmsgid h
  rw [hardCopy, hnotes, hmsgid, Option.or_none, Option.or_none]
  rfl

/-! ### Copying -/

section copy

variable {heap : Heap} {new : List Ref} {r : Ref} {e : Element}

theorem name_of_identity {left right : Element} (h : identity left = identity right) :
    left.uniqueName = right.uniqueName := congrArg Prod.fst h

theorem findMatch_of_not_mem (heap : Heap) (matchme : Element) (h : r ∉ new) : findMatch heap matchme new r = heap r := by
  rw [findMatch]
  cases hfind : new.find? fun r => (heap r).any fun new => identity new = identity matchme with
  | none => rfl
  | some found =>
      have hne : r ≠ found := fun heq => h (heq ▸ List.mem_of_find?_eq_some hfind)
      exact Function.update_of_ne hne _ _

/-- With distinct names the object that is found is the one. -/
theorem findMatch_of_mem (matchme : Element) (hnames : (names heap new).Nodup) (hr : r ∈ new) (he : heap r = some e) :
    findMatch heap matchme new r = if identity e = identity matchme then some (copyInto matchme e) else some e := by
  rw [findMatch]
  cases hfind : new.find? fun r => (heap r).any fun new => identity new = identity matchme with
  | none =>
      have hno := List.find?_eq_none.mp hfind r hr
      rw [he] at hno
      rw [if_neg fun heq => hno (by simp [heq])]
      exact he
  | some found =>
      have hmem := List.mem_of_find?_eq_some hfind
      have hany := List.find?_some hfind
      obtain ⟨other, hother, hsame⟩ := (Option.any_eq_true _ _).mp hany
      have hsame : identity other = identity matchme := of_decide_eq_true hsame
      by_cases heq : identity e = identity matchme
      · have hname : (heap found).map Element.uniqueName = (heap r).map Element.uniqueName := by
          rw [hother, he]
          exact congrArg some (name_of_identity (hsame.trans heq.symm))
        have hfound : found = r := List.inj_on_of_nodup_map hnames hmem hr hname
        rw [hfound, if_pos heq]
        exact (Function.update_self _ _ _).trans (congrArg (Option.map (copyInto matchme)) he)
      · have hne : r ≠ found := by
          rintro rfl
          rw [he] at hother
          obtain rfl := Option.some.inj hother
          exact heq hsame
        rw [if_neg heq]
        exact (Function.update_of_ne hne _ _).trans he

theorem names_findMatch (heap : Heap) (matchme : Element) (new refs : List Ref) :
    names (findMatch heap matchme new) refs = names heap refs :=
  List.map_congr_left fun r _ => map_findMatch (fun _ _ => rfl) heap matchme new r

/-- Copying goes on with the rest of the old objects. -/
theorem copyAlerts_cons (heap : Heap) (first : Ref) (old new : List Ref) :
    copyAlerts heap (first :: old) new =
      copyAlerts ((heap first).elim heap fun matchme => findMatch heap matchme new) old new := rfl

/-- An object that no old one matches is left as it is. -/
theorem copyAlerts_fresh {old : List Ref} (hnames : (names heap new).Nodup) (hother : ∀ o ∈ old, o ∉ new) (hr : r ∈ new)
    (he : heap r = some e) (hno : ∀ o ∈ old, ∀ matchme, heap o = some matchme → identity matchme ≠ identity e) :
    copyAlerts heap old new r = some e := by
  induction old generalizing heap with
  | nil => exact he
  | cons first old ih =>
      rw [copyAlerts_cons]
      cases hfirst : heap first with
      | none =>
          exact ih hnames (fun o ho => hother o (List.mem_cons_of_mem _ ho)) he
            fun o ho => hno o (List.mem_cons_of_mem _ ho)
      | some matchme =>
          refine ih ?_ (fun o ho => hother o (List.mem_cons_of_mem _ ho)) ?_ fun o ho other hheap => ?_
          · rw [Option.elim_some, names_findMatch]
            exact hnames
          · rw [Option.elim_some, findMatch_of_mem matchme hnames hr he,
              if_neg (hno first List.mem_cons_self matchme hfirst).symm]
          · rw [Option.elim_some, findMatch_of_not_mem heap matchme (hother o (List.mem_cons_of_mem _ ho))] at hheap
            exact hno o (List.mem_cons_of_mem _ ho) other hheap

/-- With distinct names on both sides an object takes over from the one old object that matches it. -/
theorem copyAlerts_matched {old : List Ref} {o : Ref} {matchme : Element} (hnames : (names heap new).Nodup)
    (hold : (names heap old).Nodup) (hother : ∀ o ∈ old, o ∉ new) (hr : r ∈ new) (he : heap r = some e) (ho : o ∈ old)
    (hheap : heap o = some matchme) (hsame : identity matchme = identity e) :
    copyAlerts heap old new r = some (copyInto matchme e) := by
  induction old generalizing heap with
  | nil => exact absurd ho List.not_mem_nil
  | cons first old ih =>
      obtain ⟨hnew, hrest⟩ := List.nodup_cons.mp hold
      have hother' : ∀ o ∈ old, o ∉ new := fun o ho => hother o (List.mem_cons_of_mem _ ho)
      rw [copyAlerts_cons]
      obtain rfl | ho := List.mem_cons.mp ho
      · rw [hheap, Option.elim_some]
        refine copyAlerts_fresh (by rw [names_findMatch]; exact hnames) hother' hr ?_ fun o' ho' other hother'' => ?_
        · rw [findMatch_of_mem matchme hnames hr he, if_pos hsame.symm]
        · rw [findMatch_of_not_mem heap matchme (hother' o' ho')] at hother''
          intro heq
          refine hnew (List.mem_map.mpr ⟨o', ho', ?_⟩)
          dsimp only
          rw [hother'', hheap]
          exact congrArg some (name_of_identity (heq.trans hsame.symm))
      · cases hfirst : heap first with
        | none => exact ih hnames hrest hother' he ho hheap
        | some other =>
            have hdiffers : identity e ≠ identity other := by
              intro heq
              refine hnew (List.mem_map.mpr ⟨o, ho, ?_⟩)
              dsimp only
              rw [hheap, hfirst]
              exact congrArg some (name_of_identity (hsame.trans heq))
            refine ih ?_ ?_ hother' ?_ ho ?_
            · rw [Option.elim_some, names_findMatch]
              exact hnames
            · rw [Option.elim_some, names_findMatch]
              exact hrest
            · rw [Option.elim_some, findMatch_of_mem other hnames hr he, if_neg hdiffers]
            · rw [Option.elim_some, findMatch_of_not_mem heap other (hother' o ho)]
              exact hheap

end copy

/-! ### The whole reload -/

section sighup

variable {d : Daemon} {env : Env} {file : Option (List Token)}

theorem loadconfig_eq (d : Daemon) (env : Env) (file : Option (List Token)) :
    (loadconfig d env file).2 = List.range' d.next (parsedObjects d env file).length ∧
      (loadconfig d env file).1.heap = allocate d.heap d.next (parsedObjects d env file) := by
  cases file with
  | none =>
      refine ⟨rfl, funext fun r => ?_⟩
      have hno : ¬(d.next ≤ r ∧ r < d.next + (parsedObjects d env none).length) :=
        fun h => absurd h.1 (Nat.not_le.mpr h.2)
      exact (if_neg hno).symm
  | some tokens => exact ⟨rfl, rfl⟩

theorem allocate_old (heap : Heap) {next : Ref} (elements : List Element) {r : Ref} (h : r < next) :
    allocate heap next elements r = heap r := if_neg fun hnew => absurd hnew.1 (Nat.not_le.mpr h)

theorem allocate_new (heap : Heap) (next : Ref) {elements : List Element} {i : Nat} {e : Element}
    (h : elements[i]? = some e) : allocate heap next elements (next + i) = some e := by
  have hi : i < elements.length := (List.getElem?_eq_some_iff.mp h).1
  rw [allocate, if_pos ⟨Nat.le_add_right _ _, Nat.add_lt_add_left hi _⟩, Nat.add_sub_cancel_left, h]

theorem lt_next (hrunning : Running d) {r : Ref} (hr : r ∈ d.currenthead) : r < d.next := by
  by_contra hge
  have hlive := hrunning.live r hr
  rw [hrunning.bound r (Nat.not_lt.mp hge)] at hlive
  exact absurd hlive (by decide)

/-- Names in the new tree are those that were parsed. -/
theorem names_allocate (heap : Heap) (next : Ref) (elements : List Element) :
    names (allocate heap next elements) (List.range' next elements.length) =
      elements.map fun e => some e.uniqueName := by
  have hmap := congrArg (List.map (Option.map Element.uniqueName)) (map_allocate heap next elements)
  rw [List.map_map, List.map_map] at hmap
  exact hmap

theorem names_allocate_old (hrunning : Running d) (elements : List Element) :
    names (allocate d.heap d.next elements) d.currenthead = names d.heap d.currenthead :=
  List.map_congr_left fun _ hr => by rw [allocate_old d.heap elements (lt_next hrunning hr)]

/-- The objects after `sync_after_sighup`. -/
theorem sighup_objects (hrunning : Running d) (hold : (names d.heap d.currenthead).Nodup)
    (hnew : ((parsedObjects d env file).map Element.uniqueName).Nodup)
    (haccepted : (loadconfig d env file).1.scratch.badconfig = false) {i : Nat} {new : Element}
    (hget : (parsedObjects d env file)[i]? = some new) :
    (∀ old, Predecessor d new old → (d.sighup env file).heap (d.next + i) = some (copyInto old new)) ∧
      ((¬∃ old, Predecessor d new old) → (d.sighup env file).heap (d.next + i) = some new) := by
  obtain ⟨hrange, hheap⟩ := loadconfig_eq d env file
  set parsed := parsedObjects d env file with hparsed
  have hi : i < parsed.length := (List.getElem?_eq_some_iff.mp hget).1
  have hmem : d.next + i ∈ List.range' d.next parsed.length :=
    List.mem_range'_1.mpr ⟨Nat.le_add_right _ _, Nat.add_lt_add_left hi _⟩
  have hkept : d.next + i ∉ d.currenthead := fun h => absurd (lt_next hrunning h) (Nat.not_lt.mpr (Nat.le_add_right _ _))
  have hafter : (d.sighup env file).heap (d.next + i) =
      copyAlerts (allocate d.heap d.next parsed) d.currenthead (List.range' d.next parsed.length) (d.next + i) := by
    rw [sighup_accepted haccepted, hheap, hrange]
    exact if_neg hkept
  have hnames : (names (allocate d.heap d.next parsed) (List.range' d.next parsed.length)).Nodup := by
    have hsome : (parsed.map fun e => some e.uniqueName).Nodup := by
      have hinj := hnew.map (Option.some_injective CStr)
      rw [List.map_map] at hinj
      exact hinj
    rw [names_allocate]
    exact hsome
  have hother : ∀ o ∈ d.currenthead, o ∉ List.range' d.next parsed.length :=
    fun o ho h => absurd (lt_next hrunning ho) (Nat.not_lt.mpr (List.mem_range'_1.mp h).1)
  have hlookup := allocate_new d.heap d.next hget
  rw [hafter]
  constructor
  · rintro old ⟨r, hr, hr', hsame⟩
    refine copyAlerts_matched hnames ?_ hother hmem hlookup hr ?_ hsame
    · rw [names_allocate_old hrunning]
      exact hold
    · rw [allocate_old d.heap parsed (lt_next hrunning hr)]
      exact hr'
  · intro hno
    refine copyAlerts_fresh hnames hother hmem hlookup fun o ho matchme hheap' heq => hno ⟨matchme, o, ho, ?_, heq⟩
    rw [allocate_old d.heap parsed (lt_next hrunning ho)] at hheap'
    exact hheap'

end sighup

/-! ### Before and after it -/

/-- What a change of an object leaves alone. -/
theorem map_updateData {α : Type} {view : Element → α} {f : HostInfo → HostInfo}
    (hview : ∀ e : Element, view { e with data := f e.data } = view e) (heap : Heap) (r r' : Ref) :
    (updateData heap r f r').map view = (heap r').map view := by
  rw [updateData]
  by_cases heq : r' = r
  · subst heq
    rw [Function.update_self, Option.map_map]
    exact congrArg (fun g => (heap r').map g) (funext hview)
  · rw [Function.update_of_ne heq]

theorem map_fastCleanupChecks {α : Type} {view : Element → α}
    (hview : ∀ e : Element, view { e with data := unqueue e.data } = view e) (m : Monitor) (r : Ref) :
    ((fastCleanupChecks m).daemon.heap r).map view = (m.daemon.heap r).map view := by
  rw [fastCleanupChecks]
  split
  · rfl
  · change (m.queue.foldl _ m.daemon.heap r).map view = _
    generalize m.daemon.heap = heap
    induction m.queue generalizing heap with
    | nil => rfl
    | cons here queue ih =>
        rw [List.foldl_cons, ih]
        split
        · rfl
        · exact map_updateData hview heap here.checkent r

theorem updateCount_stamps (heap : Heap) (seq : UInt64) (refs : List Ref) {r : Ref} {e : Element}
    (h : heap r = some e) (hr : r ∈ refs) :
    ∃ seq', (updateCount heap seq refs).1 r = some { e with data := stamp seq' e.data } := by
  have hkept : ∀ (refs : List Ref) (heap : Heap) (seq seq' : UInt64),
      heap r = some { e with data := stamp seq' e.data } →
      ∃ seq', (updateCount heap seq refs).1 r = some { e with data := stamp seq' e.data } := by
    intro refs
    induction refs with
    | nil => exact fun heap seq seq' h => ⟨seq', h⟩
    | cons first refs ih =>
        intro heap seq seq' h
        rw [updateCount]
        by_cases heq : r = first
        · refine ih _ _ (seq + 1) ?_
          rw [updateData, heq, Function.update_self, ← heq, h]
          rfl
        · refine ih _ _ seq' ?_
          rw [updateData, Function.update_of_ne heq]
          exact h
  induction refs generalizing heap seq with
  | nil => exact absurd hr List.not_mem_nil
  | cons first refs ih =>
      rw [updateCount]
      by_cases heq : r = first
      · refine hkept refs _ _ (seq + 1) ?_
        rw [updateData, heq, Function.update_self, ← heq, h]
        rfl
      · refine ih _ _ ?_ ((List.mem_cons.mp hr).resolve_left heq)
        rw [updateData, Function.update_of_ne heq]
        exact h

/-! #### What the cleanup leaves -/

section cleanup

variable (m : Monitor)

theorem fields_fastCleanupChecks :
    (fastCleanupChecks m).daemon.currenthead = m.daemon.currenthead ∧
      (fastCleanupChecks m).daemon.next = m.daemon.next ∧ (fastCleanupChecks m).daemon.scratch = m.daemon.scratch := by
  have hdaemon := (sameTree_fastCleanupChecks m).daemon
  refine ⟨?_, ?_, ?_⟩ <;> rw [hdaemon]

theorem isSome_fastCleanupChecks (r : Ref) :
    ((fastCleanupChecks m).daemon.heap r).isSome = (m.daemon.heap r).isSome := by
  have hmap := congrArg Option.isSome (@map_fastCleanupChecks Unit (fun _ => ()) (fun _ => rfl) m r)
  rw [Option.isSome_map, Option.isSome_map] at hmap
  exact hmap

theorem running_fastCleanupChecks (h : Running m.daemon) : Running (fastCleanupChecks m).daemon := by
  obtain ⟨hhead, hnext, -⟩ := fields_fastCleanupChecks m
  refine ⟨fun r hr => ?_, fun r hr => ?_⟩
  · rw [isSome_fastCleanupChecks]
    exact h.live r (hhead ▸ hr)
  · have hnone := isSome_fastCleanupChecks m r
    rw [h.bound r (hnext ▸ hr)] at hnone
    exact Option.isNone_iff_eq_none.mp (by simpa using hnone)

theorem parsedObjects_fastCleanupChecks (env : Env) (file : Option (List Token)) :
    parsedObjects (fastCleanupChecks m).daemon env file = parsedObjects m.daemon env file := by
  cases file with
  | none => rfl
  | some tokens => rw [parsedObjects, parsedObjects, (fields_fastCleanupChecks m).2.2]

theorem names_fastCleanupChecks : names (fastCleanupChecks m).daemon.heap (fastCleanupChecks m).daemon.currenthead =
    names m.daemon.heap m.daemon.currenthead := by
  rw [(fields_fastCleanupChecks m).1]
  exact List.map_congr_left fun r _ => map_fastCleanupChecks (fun _ => rfl) m r

theorem view_fastCleanupChecks (r : Ref) :
    ((fastCleanupChecks m).daemon.heap r).map (fun e => (identity e, runtime e.data)) =
      (m.daemon.heap r).map fun e => (identity e, runtime e.data) := map_fastCleanupChecks (fun _ => rfl) m r

variable {m} {new : Element}

/-- An object's predecessor has come to the same. -/
theorem predecessor_fastCleanupChecks {old : Element} (h : Predecessor m.daemon new old) :
    ∃ old', Predecessor (fastCleanupChecks m).daemon new old' ∧ runtime old'.data = runtime old.data := by
  obtain ⟨r, hr, hheap, hsame⟩ := h
  have hview := view_fastCleanupChecks m r
  rw [hheap, Option.map_some, Option.map_eq_some_iff] at hview
  obtain ⟨old', hheap', heq⟩ := hview
  obtain ⟨hidentity, hruntime⟩ := Prod.mk.inj heq
  exact ⟨old', ⟨r, (fields_fastCleanupChecks m).1 ▸ hr, hheap', hidentity.trans hsame⟩, hruntime⟩

theorem predecessor_of_fastCleanupChecks {old' : Element} (h : Predecessor (fastCleanupChecks m).daemon new old') :
    ∃ old, Predecessor m.daemon new old := by
  obtain ⟨r, hr, hheap', hsame⟩ := h
  have hview := (view_fastCleanupChecks m r).symm
  rw [hheap', Option.map_some, Option.map_eq_some_iff] at hview
  obtain ⟨old, hheap, heq⟩ := hview
  exact ⟨old, r, (fields_fastCleanupChecks m).1 ▸ hr, hheap, (Prod.mk.inj heq).1.trans hsame⟩

end cleanup

/-- An accepted reload of a configuration with distinct names, over one with distinct names, keeps the state of
the objects that are still there and changes nothing of what was parsed besides. -/
theorem reload_keeps_state (m : Monitor) (env : Env) (file : Option (List Token)) (hrunning : Running m.daemon)
    (hold : (names m.daemon.heap m.daemon.currenthead).Nodup)
    (hnew : ((parsedObjects m.daemon env file).map Element.uniqueName).Nodup)
    (haccepted : (loadconfig m.daemon env file).1.scratch.badconfig = false) :
    StateKept m.daemon (handleSighup m env file).daemon (parsedObjects m.daemon env file) := by
  obtain ⟨-, hnext, hscratch⟩ := fields_fastCleanupChecks m
  have haccepted' : (loadconfig (fastCleanupChecks m).daemon env file).1.scratch.badconfig = false := by
    rw [badconfig_loadconfig, hscratch, ← badconfig_loadconfig m.daemon]
    exact haccepted
  rw [← parsedObjects_fastCleanupChecks] at hnew
  rw [← names_fastCleanupChecks] at hold
  have htree : (handleSighup m env file).daemon.currenthead =
      List.range' m.daemon.next (parsedObjects m.daemon env file).length := by
    change ((fastCleanupChecks m).daemon.sighup env file).currenthead = _
    rw [sighup_accepted haccepted', ← parsedObjects_fastCleanupChecks, ← hnext]
    exact (loadconfig_eq _ env file).1
  have hstamps : ∀ i new e, (parsedObjects m.daemon env file)[i]? = some new →
      ((fastCleanupChecks m).daemon.sighup env file).heap ((fastCleanupChecks m).daemon.next + i) = some e →
      ∃ seq, (handleSighup m env file).daemon.heap (m.daemon.next + i) = some { e with data := stamp seq e.data } := by
    intro i new e hget he
    have hi := (List.getElem?_eq_some_iff.mp hget).1
    refine updateCount_stamps _ _ _ (by rw [← hnext]; exact he) ?_
    change m.daemon.next + i ∈ (handleSighup m env file).daemon.currenthead
    rw [htree]
    exact List.mem_range'_1.mpr ⟨Nat.le_add_right _ _, Nat.add_lt_add_left hi _⟩
  refine ⟨htree, fun i new hget old hmatch => ?_, fun i new hget hno => ?_⟩
  · obtain ⟨old', hmatch', hruntime⟩ := predecessor_fastCleanupChecks hmatch
    have hinitial := runtime_parsedObjects m.daemon env file new (List.mem_of_getElem? hget)
    obtain ⟨hcopied, -⟩ := sighup_objects (running_fastCleanupChecks m hrunning) hold hnew haccepted'
      (by rw [parsedObjects_fastCleanupChecks]; exact hget)
    obtain ⟨seq, hseq⟩ := hstamps i new _ hget (hcopied old' hmatch')
    refine ⟨seq, ?_⟩
    rw [hseq, copyInto, hardCopy_eq _ hinitial, hruntime]
  · refine ⟨runtime_parsedObjects m.daemon env file new (List.mem_of_getElem? hget), ?_⟩
    obtain ⟨-, hfresh⟩ := sighup_objects (running_fastCleanupChecks m hrunning) hold hnew haccepted'
      (by rw [parsedObjects_fastCleanupChecks]; exact hget)
    refine hstamps i new _ hget (hfresh ?_)
    rintro ⟨old', hmatch'⟩
    exact hno (predecessor_of_fastCleanupChecks hmatch')

/-- A pass in which a check comes back with a refused connection. -/
def refusedPass : Pass := { idlePass with now := 100, answer := fun _ => Result.connref }

/-- The only host has been found to be down. -/
def hostDown : Monitor :=
  Run.exec Monitor.step (Monitor.boot Scratch.atStart resolving oneHost)
    [.queue 0, .service refusedPass, .service refusedPass]

theorem running_hostDown : Running hostDown.daemon where
  live := by decide
  bound := by
    have howned := owned_step _ (.service refusedPass) (owned_step _ (.service refusedPass)
      (owned_step _ (.queue 0) (boot_spec Scratch.atStart resolving oneHost).1))
    exact howned.bound

theorem reload_keeps_state_hostDown :
    StateKept hostDown.daemon (handleSighup hostDown resolving (some oneHost)).daemon
        (parsedObjects hostDown.daemon resolving (some oneHost)) ∧
      ((handleSighup hostDown resolving (some oneHost)).daemon.heap 1).map (fun e => e.data.lastcheck) = some 1 :=
  ⟨reload_keeps_state hostDown resolving (some oneHost) running_hostDown (by decide) (by decide)
    (by decide), by decide⟩

end Sysmon.Queue
