import Mathlib.Data.List.Nodup
import Mathlib.Data.UInt
import Sysmon.Check.Events
import Sysmon.Parser.Object

/-!
# What a client has to hear of

Every object carries the value that `glob_change_seq` had when the object last changed in a way that a
client would notice (`object_changed`), and a client asks for what is above the number it knows. So each
path that writes what a client is shown has to count. The paths are the four of a check, the two that only
measure, the three commands of a client, and a load, which stamps all objects (`update_count`). One of them
does not count: the walk that finds that a name resolves again.
-/

namespace Sysmon.Srvclient

/-- What a client is shown of an object's state: `lastcheck`, `contacted`, `acked` and the notes. -/
def seen (d : HostInfo) : UInt32 × Bool × Bool × Option CStr := (d.lastcheck, d.contacted, d.acked, d.notes)

/-! ### One object -/

/-- What an rtt check leaves: with replies the figures, without any only that there were none. -/
structure RttFigures where
  min : UInt64
  avg : UInt64
  max : UInt64
  jitter : UInt64
  count : UInt32
  probes : UInt32
  deriving DecidableEq, Repr

/-- What `rtt_finish` does to the object. -/
def rttFinish (rtt : RttFigures) (w : ObjState) : ObjState :=
  let svc := if 0 < rtt.count then
      { w.svc with
        rttLastMin := rtt.min, rttLastAvg := rtt.avg, rttLastMax := rtt.max, rttLastJitter := rtt.jitter
        rttLastReplies := rtt.count, rttLastProbes := rtt.probes }
    else { w.svc with rttLastReplies := 0, rttLastProbes := rtt.probes }
  objectChanged { w with svc := svc }

/-- What the end of a cycle of packet loss does to the object. -/
def pktlossCycle (sent rcvd : UInt32) (w : ObjState) : ObjState :=
  objectChanged { w with svc := { w.svc with pktlossLastSent := sent, pktlossLastRecv := rcvd } }

def doAck (w : ObjState) : ObjState := objectChanged { w with svc := { w.svc with acked := true } }

def doUnack (w : ObjState) : ObjState := objectChanged { w with svc := { w.svc with acked := false } }

def doUpd (note : CStr) (w : ObjState) : ObjState := objectChanged { w with svc := { w.svc with notes := some note } }

inductive Change where
  | happened (event : Event)
  | rtt (figures : RttFigures)
  | pktloss (sent rcvd : UInt32)
  | ack
  | unack
  | upd (note : CStr)
  deriving DecidableEq, Repr

def change (donotify : Bool) (w : ObjState) : Change → ObjState
  | .happened event => happen donotify w event
  | .rtt figures => rttFinish figures w
  | .pktloss sent rcvd => pktlossCycle sent rcvd w
  | .ack => doAck w
  | .unack => doUnack w
  | .upd note => doUpd note w

/-! ### Counting -/

section stamped

variable {α : Type} {view : HostInfo → α} {j k : Nat} {w w' w'' : ObjState}

/-- Either nothing was counted and the view of the object is the same, or something was, at most so many
times, and the object carries the last number. -/
inductive Stamped (view : HostInfo → α) (k : Nat) (w w' : ObjState) : Prop
  | kept (glob : w'.globChangeSeq = w.globChangeSeq) (seq : w'.svc.changeSeq = w.svc.changeSeq)
      (same : view w'.svc = view w.svc)
  | stamped (times : Nat) (pos : 0 < times) (le : times ≤ k)
      (glob : w'.globChangeSeq = w.globChangeSeq + UInt64.ofNat times) (seq : w'.svc.changeSeq = w'.globChangeSeq)

/-- Only the counting. -/
abbrev Counts (k : Nat) (w w' : ObjState) : Prop := Stamped (fun _ => ()) k w w'

theorem Stamped.rfl : Stamped view 0 w w := .kept (Eq.refl _) (Eq.refl _) (Eq.refl _)

theorem Stamped.counts (h : Stamped view k w w') : Counts k w w' := by
  cases h with
  | kept glob seq _ => exact .kept glob seq (Eq.refl _)
  | stamped times pos le glob seq => exact .stamped times pos le glob seq

theorem Stamped.mono (h : Stamped view j w w') (hle : j ≤ k) : Stamped view k w w' := by
  cases h with
  | kept glob seq same => exact .kept glob seq same
  | stamped times pos le glob seq => exact .stamped times pos (Nat.le_trans le hle) glob seq

/-- What has been counted stays counted. -/
theorem Counts.after (pos : 0 < j) (glob : w'.globChangeSeq = w.globChangeSeq + UInt64.ofNat j)
    (seq : w'.svc.changeSeq = w'.globChangeSeq) (h : Counts k w' w'') : Stamped view (j + k) w w'' := by
  cases h with
  | kept glob' seq' _ =>
      exact .stamped j pos (Nat.le_add_right j k) (glob'.trans glob) (seq'.trans (seq.trans glob'.symm))
  | stamped times _ le glob' seq' =>
      refine .stamped (j + times) (Nat.add_pos_left pos times) (Nat.add_le_add_left le j) ?_ seq'
      rw [glob', glob, UInt64.ofNat_add, UInt64.add_assoc]

theorem Stamped.trans (h : Stamped view j w w') (h' : Stamped view k w' w'') : Stamped view (j + k) w w'' := by
  cases h with
  | kept glob seq same =>
      cases h' with
      | kept glob' seq' same' => exact .kept (glob'.trans glob) (seq'.trans seq) (same'.trans same)
      | stamped times pos le glob' seq' =>
          exact .stamped times pos (Nat.le_trans le (Nat.le_add_left k j)) (by rw [glob', glob]) seq'
  | stamped times pos le glob seq => exact (Counts.after pos glob seq h'.counts).mono (Nat.add_le_add_right le k)

theorem stamped_objectChanged (view : HostInfo → α) (w : ObjState) (svc : HostInfo) :
    Stamped view 1 w (objectChanged { w with svc := svc }) :=
  .stamped 1 Nat.one_pos (Nat.le_refl 1) (Eq.refl _) (Eq.refl _)

end stamped

section paths

variable {α : Type} {view : HostInfo → α} (donotify : Bool) (env : PageEnv) (w : ObjState)

theorem stamped_pageSomeone (newstate : Int32) : Stamped seen 1 w (pageSomeone donotify env newstate w) := by
  have hkept : Stamped seen 1 w w := Stamped.rfl.mono (Nat.zero_le 1)
  have hstamped : ∀ (svc : HostInfo) (notices : List Notice), svc.changeSeq = w.globChangeSeq + 1 →
      Stamped seen 1 w ⟨svc, w.globChangeSeq + 1, notices⟩ :=
    fun _ _ hseq => .stamped 1 Nat.one_pos (Nat.le_refl 1) rfl hseq
  rw [pageSomeone]
  split
  · exact hstamped _ _ rfl
  · split
    · exact hstamped _ _ rfl
    · split
      · split
        · exact hkept
        · dsimp only
          split <;> exact hstamped _ _ rfl
      · exact hkept

theorem stamped_pageDownIfDue : Stamped seen 1 w (pageDownIfDue donotify env w) := by
  rw [pageDownIfDue]
  split
  · exact stamped_pageSomeone donotify env w Contact.down
  · exact Stamped.rfl.mono (Nat.zero_le 1)

theorem counts_cameUp (now : Time) (retval : Int16) : Counts 1 w (cameUp donotify now retval env w) := by
  unfold cameUp
  dsimp only
  split
  · split
    · obtain ⟨glob, seq, -⟩ | ⟨times, pos, le, glob, seq⟩ := stamped_pageSomeone donotify env
        { w with svc := { w.svc with lastcheck := asLastcheck retval } } Contact.up
      · exact .kept glob seq rfl
      · exact .stamped times pos le glob seq
    · exact .kept rfl rfl rfl
  · exact .kept rfl rfl rfl

theorem stamped_stillDown (retval : Int16) : Stamped seen 1 w (stillDown donotify retval env w) := by
  rw [stillDown]
  split
  · have hcount : Stamped seen 0 w (countAgain w) := .kept rfl rfl rfl
    exact hcount.trans (stamped_pageDownIfDue donotify env (countAgain w))
  · exact Stamped.rfl.mono (Nat.zero_le 1)

theorem counts_stateChanged (now : Time) (retval : Int16) : Counts 1 w (stateChanged donotify now retval env w) := by
  rw [stateChanged]
  split
  · split
    · have hcount : Counts 0 w (countFirst now retval w) := .kept rfl rfl rfl
      exact hcount.trans (stamped_pageDownIfDue donotify env (countFirst now retval w)).counts
    · exact .kept rfl rfl rfl
  · exact .kept rfl rfl rfl

theorem stamped_cameOk (retval : Int16) : Stamped seen 2 w (cameOk donotify retval env w) := by
  rw [cameOk]
  split
  · have hcount : Stamped seen 0 w { w with svc := { w.svc with upct := w.svc.upct + 1, downct := 0 } } :=
      .kept rfl rfl rfl
    have hpage : ∀ v : ObjState, Stamped seen 1 v
        (if v.svc.maxDown ≤ v.svc.upct ∧ v.svc.contacted = false ∧ v.svc.contactWhen = Contact.up then
          pageSomeone donotify env Contact.up v else v) := by
      intro v
      split
      · exact stamped_pageSomeone donotify env v Contact.up
      · exact Stamped.rfl.mono (Nat.zero_le 1)
    have hack : ∀ v : ObjState, Stamped seen 1 v
        (if v.svc.acked then objectChanged { v with svc := { v.svc with acked := false } } else v) := by
      intro v
      split
      · exact stamped_objectChanged seen v _
      · exact Stamped.rfl.mono (Nat.zero_le 1)
    have hend := hcount.trans ((hack _).trans (hpage _))
    exact hend
  · exact Stamped.rfl.mono (Nat.zero_le 2)

end paths

/-- A check that comes back counts whatever a client would notice of it. -/
theorem stamped_handleRetval (donotify : Bool) (w : ObjState) (done : CheckDone) :
    Stamped seen 6 w (handleRetval donotify w done) := by
  rw [handleRetval]
  by_cases hsame : asLastcheck done.retval = w.svc.lastcheck
  · -- no block but the counters and the pages does anything
    have hnote : noteResult done.now done.retval w = { w with svc := { w.svc with
        totalchecked := w.svc.totalchecked + 1, nextQueuetime := done.now + w.svc.queuetime.toInt64 } } :=
      if_neg fun hne => hne hsame
    have hnoted : Stamped seen 0 w (noteResult done.now done.retval w) := by
      rw [hnote]
      exact .kept rfl rfl rfl
    have hup : cameUp donotify done.now done.retval done.env.first (noteResult done.now done.retval w) =
        noteResult done.now done.retval w := by
      refine if_neg ?_
      rintro ⟨hok, -, hne⟩
      rw [noteResult_lastcheck, ← hsame, hok] at hne
      exact hne asLastcheck_ok
    have hlast : (stillDown donotify done.retval done.env.first (noteResult done.now done.retval w)).svc.lastcheck =
        asLastcheck done.retval := by
      rw [stillDown]
      split
      · rw [pageDownIfDue_lastcheck, countAgain, noteResult_lastcheck]
        exact hsame.symm
      · exact (noteResult_lastcheck _ _ _).trans hsame.symm
    have hstate : ∀ v : ObjState, v.svc.lastcheck = asLastcheck done.retval →
        stateChanged donotify done.now done.retval done.env.first v = v :=
      fun v hv => if_neg fun hne => hne hv.symm
    rw [hup, hstate _ hlast]
    have hrest := hnoted.trans ((stamped_stillDown donotify done.env.first _ done.retval).trans
      (stamped_cameOk donotify done.env.second _ done.retval))
    exact hrest.mono (by decide)
  · have hglob : (noteResult done.now done.retval w).globChangeSeq = w.globChangeSeq + UInt64.ofNat 1 ∧
        (noteResult done.now done.retval w).svc.changeSeq = (noteResult done.now done.retval w).globChangeSeq := by
      have hnote : noteResult done.now done.retval w = objectChanged { w with svc := { w.svc with
          totalchecked := w.svc.totalchecked + 1, nextQueuetime := done.now + w.svc.queuetime.toInt64 } } :=
        if_pos hsame
      rw [hnote]
      exact ⟨rfl, rfl⟩
    have hrest := (counts_cameUp donotify done.env.first (noteResult done.now done.retval w) done.now done.retval).trans
      ((stamped_stillDown donotify done.env.first _ done.retval).counts.trans
        ((counts_stateChanged donotify done.env.first _ done.now done.retval).trans
          (stamped_cameOk donotify done.env.second _ done.retval).counts))
    exact Counts.after Nat.one_pos hglob.1 hglob.2 hrest

/-- The walk found a name that resolves again, and puts the object back to OK. -/
def Change.Forgets (w : ObjState) : Change → Prop
  | .happened (.rewalk _ _ rightNow resolves) => ClearsNodns rightNow resolves w
  | _ => False

instance (w : ObjState) (c : Change) : Decidable (c.Forgets w) := by
  unfold Change.Forgets
  split <;> infer_instance

/-- Every path but that one counts. -/
theorem stamped_change (donotify : Bool) {w : ObjState} {c : Change} (h : ¬c.Forgets w) :
    Stamped seen 6 w (change donotify w c) := by
  have hone : 1 ≤ 6 := by decide
  cases c with
  | happened event =>
      cases event with
      | check done => exact stamped_handleRetval donotify w done
      | rewalk warnlog down rightNow resolves =>
          obtain ⟨warned, heq⟩ := periodicRewalk_eq warnlog down rightNow resolves w
          have hno : ¬ClearsNodns rightNow resolves w := h
          rw [change, happen, heq, if_neg hno]
          exact .kept rfl rfl rfl
      | repage pageinterval env now =>
          rw [change, happen, periodicPage]
          generalize (if w.svc.pageinterval = -1 then pageinterval else w.svc.pageinterval) = interval
          split
          · exact (stamped_pageSomeone donotify env w Contact.down).mono hone
          · exact Stamped.rfl.mono (Nat.zero_le 6)
      | trap pagemsg env =>
          rw [change, happen, sendTrapAlert]
          obtain ⟨glob, seq, same⟩ | ⟨times, pos, le, glob, seq⟩ := stamped_pageSomeone donotify env
            { w with svc := { w.svc with message := some pagemsg } } Contact.snmpTrap
          · exact .kept glob seq same
          · exact .stamped times pos (Nat.le_trans le hone) glob seq
  | rtt figures =>
      exact (stamped_objectChanged seen w _).mono hone
  | pktloss sent rcvd => exact (stamped_objectChanged seen w _).mono hone
  | ack => exact (stamped_objectChanged seen w _).mono hone
  | unack => exact (stamped_objectChanged seen w _).mono hone
  | upd note => exact (stamped_objectChanged seen w _).mono hone

/-! ### All objects -/

/-- The list of the main loop, and the counter. -/
structure Daemon where
  objects : List Element
  globChangeSeq : UInt64
  deriving DecidableEq, Repr

/-- What a configuration is loaded into: objects with names of their own. -/
structure Tree where
  objects : List Element
  distinct : (objects.map Element.uniqueName).Nodup

/-- `update_count`: all objects are stamped. -/
def updateCount : UInt64 → List Element → Daemon
  | seq, [] => ⟨[], seq⟩
  | seq, obj :: rest =>
      let w := objectChanged ⟨obj.data, seq, []⟩
      let d := updateCount w.globChangeSeq rest
      { d with objects := { obj with data := w.svc } :: d.objects }

/-- Something happens to one object. -/
def Daemon.touch (donotify : Bool) (d : Daemon) (i : Nat) (c : Change) : Daemon :=
  match d.objects[i]? with
  | none => d
  | some obj =>
      let w := change donotify ⟨obj.data, d.globChangeSeq, []⟩ c
      { objects := d.objects.set i { obj with data := w.svc }, globChangeSeq := w.globChangeSeq }

/-- An event in the life of a daemon: something happens to one object, or a reload, whose objects may come
from anywhere. -/
inductive DaemonEvent where
  | touch (i : Nat) (c : Change)
  | reload (tree : Tree)

def Daemon.step (donotify : Bool) (d : Daemon) : DaemonEvent → Daemon
  | .touch i c => d.touch donotify i c
  | .reload tree => updateCount d.globChangeSeq tree.objects

/-- A start of the daemon. -/
def Daemon.boot (tree : Tree) : Daemon := updateCount 0 tree.objects

/-- The counter has room, and the object does not change behind its back. -/
def DaemonEvent.Counted (d : Daemon) : DaemonEvent → Prop
  | .touch i c =>
      d.globChangeSeq.toNat + 6 < 2 ^ 64 ∧ ∀ obj ∈ d.objects[i]?, ¬c.Forgets ⟨obj.data, d.globChangeSeq, []⟩
  | .reload tree => d.globChangeSeq.toNat + tree.objects.length < 2 ^ 64

/-- Names are distinct, and all objects are stamped with what has been counted. -/
structure Daemon.Stamps (d : Daemon) : Prop where
  distinct : (d.objects.map Element.uniqueName).Nodup
  room : d.objects.length < 2 ^ 64
  seq : ∀ obj ∈ d.objects, 0 < obj.data.changeSeq ∧ obj.data.changeSeq ≤ d.globChangeSeq

theorem names_updateCount (seq : UInt64) (objects : List Element) :
    (updateCount seq objects).objects.map Element.uniqueName = objects.map Element.uniqueName := by
  induction objects generalizing seq with
  | nil => rfl
  | cons obj rest ih => rw [updateCount, List.map_cons, List.map_cons, ih]

/-- All stamps are new. -/
theorem stamps_updateCount {seq : UInt64} {objects : List Element} (hroom : seq.toNat + objects.length < 2 ^ 64) :
    (updateCount seq objects).globChangeSeq.toNat = seq.toNat + objects.length ∧
      ∀ obj ∈ (updateCount seq objects).objects,
        seq < obj.data.changeSeq ∧ obj.data.changeSeq ≤ (updateCount seq objects).globChangeSeq := by
  induction objects generalizing seq with
  | nil => exact ⟨rfl, fun _ h => absurd h List.not_mem_nil⟩
  | cons obj rest ih =>
      rw [List.length_cons] at hroom
      have hnext : (seq + 1).toNat = seq.toNat + 1 := by
        rw [UInt64.toNat_add]
        exact Nat.mod_eq_of_lt (show seq.toNat + 1 < 2 ^ 64 by omega)
      obtain ⟨hglob, hrest⟩ := @ih (seq + 1) (by omega)
      have hmore : seq < seq + 1 := by
        rw [UInt64.lt_iff_toNat_lt]
        omega
      have hlast : (updateCount seq (obj :: rest)).globChangeSeq = (updateCount (seq + 1) rest).globChangeSeq := rfl
      rw [hlast]
      refine ⟨by rw [hglob, hnext, List.length_cons]; omega, fun other hother => ?_⟩
      obtain rfl | hother := List.mem_cons.mp hother
      · refine ⟨hmore, UInt64.le_iff_toNat_le.mpr ?_⟩
        change (seq + 1).toNat ≤ _
        omega
      · exact ⟨UInt64.lt_trans hmore (hrest other hother).1, (hrest other hother).2⟩

theorem stamps_boot {tree : Tree} (h : tree.objects.length < 2 ^ 64) : (Daemon.boot tree).Stamps where
  distinct := by
    rw [Daemon.boot, names_updateCount]
    exact tree.distinct
  room := by
    have hlength := congrArg List.length (names_updateCount 0 tree.objects)
    rw [List.length_map, List.length_map] at hlength
    rw [Daemon.boot, hlength]
    exact h
  seq := (stamps_updateCount (by change 0 + _ < _; omega)).2

section step

variable {donotify : Bool} {d : Daemon} {e : DaemonEvent}

/-- An object after an event is one from before, with what was shown of it and its stamp, or it has been
stamped anew. -/
theorem step_objects (hcounted : e.Counted d) {obj : Element} (hobj : obj ∈ (d.step donotify e).objects) :
    (∃ old ∈ d.objects, old.uniqueName = obj.uniqueName ∧ seen old.data = seen obj.data ∧
      old.data.changeSeq = obj.data.changeSeq) ∨
    d.globChangeSeq < obj.data.changeSeq ∧ obj.data.changeSeq ≤ (d.step donotify e).globChangeSeq := by
  cases e with
  | touch i c =>
      obtain ⟨hroom, hforgets⟩ := hcounted
      rw [Daemon.step, Daemon.touch] at hobj ⊢
      cases hget : d.objects[i]? with
      | none =>
          rw [hget] at hobj
          exact Or.inl ⟨obj, hobj, rfl, rfl, rfl⟩
      | some old =>
          rw [hget] at hobj
          obtain hobj | rfl := List.mem_or_eq_of_mem_set hobj
          · exact Or.inl ⟨obj, hobj, rfl, rfl, rfl⟩
          · obtain ⟨-, seq, same⟩ | ⟨times, pos, le, glob, seq⟩ := stamped_change donotify (hforgets old hget)
            · exact Or.inl ⟨old, List.mem_of_getElem? hget, rfl, same.symm, seq.symm⟩
            · refine Or.inr ⟨?_, UInt64.le_of_eq seq⟩
              dsimp only
              rw [seq, glob, UInt64.lt_iff_toNat_lt, UInt64.toNat_add, UInt64.toNat_ofNat']
              dsimp only
              omega
  | reload tree => exact Or.inr ((stamps_updateCount hcounted).2 obj hobj)

/-- The counter does not go back. -/
theorem step_glob (hcounted : e.Counted d) : d.globChangeSeq ≤ (d.step donotify e).globChangeSeq := by
  rw [UInt64.le_iff_toNat_le]
  cases e with
  | touch i c =>
      obtain ⟨hroom, hforgets⟩ := hcounted
      rw [Daemon.step, Daemon.touch]
      cases hget : d.objects[i]? with
      | none => exact Nat.le_refl _
      | some old =>
          dsimp only
          obtain ⟨glob, -, -⟩ | ⟨times, pos, le, glob, -⟩ := stamped_change donotify (hforgets old hget)
          · rw [glob]
          · rw [glob, UInt64.toNat_add, UInt64.toNat_ofNat']
            dsimp only
            omega
  | reload tree =>
      rw [Daemon.step, (stamps_updateCount hcounted).1]
      exact Nat.le_add_right _ _

theorem step_stamps (hd : d.Stamps) (hcounted : e.Counted d) : (d.step donotify e).Stamps where
  distinct := by
    cases e with
    | touch i c =>
        rw [Daemon.step, Daemon.touch]
        cases hget : d.objects[i]? with
        | none => exact hd.distinct
        | some old =>
            obtain ⟨hi, rfl⟩ := List.getElem?_eq_some_iff.mp hget
            dsimp only
            rw [List.map_set]
            have hsame : (d.objects.map Element.uniqueName).set i d.objects[i].uniqueName =
                d.objects.map Element.uniqueName := by
              rw [← List.getElem_map Element.uniqueName (h := by rw [List.length_map]; exact hi), List.set_getElem_self]
            rw [hsame]
            exact hd.distinct
    | reload tree =>
        rw [Daemon.step, names_updateCount]
        exact tree.distinct
  room := by
    cases e with
    | touch i c =>
        rw [Daemon.step, Daemon.touch]
        cases hget : d.objects[i]? with
        | none => exact hd.room
        | some old =>
            dsimp only
            rw [List.length_set]
            exact hd.room
    | reload tree =>
        have hlength := congrArg List.length (names_updateCount d.globChangeSeq tree.objects)
        rw [List.length_map, List.length_map] at hlength
        rw [Daemon.step, hlength]
        exact Nat.lt_of_le_of_lt (Nat.le_add_left _ _) hcounted
  seq := by
    intro obj hobj
    obtain ⟨old, hold, -, -, hseq⟩ | ⟨hnew, hle⟩ := step_objects hcounted hobj
    · rw [← hseq]
      exact ⟨(hd.seq old hold).1, UInt64.le_trans (hd.seq old hold).2 (step_glob hcounted)⟩
    · exact ⟨UInt64.lt_of_le_of_lt UInt64.zero_le hnew, hle⟩

end step

end Sysmon.Srvclient
