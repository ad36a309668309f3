import Sysmon.Check.Paging

/-!
# Everything that happens to an object

Four paths of the daemon write `lastcheck` or `contacted`: a check that comes back
(`handle_retval`), the walk that looks for names that resolve again (`periodic_rewalk`), the walk
that pages again about what is still down (`walk_periodic_page_checks`), and a trap that pages
(`send_trap_alert`). Each is given here as what it does to the object it has reached, and an event
is one of the four. Two properties of runs are settled: that `contacted` never outlives the outage
it belongs to, and that `deathtime` is the time the outage began. Both fail, and at the same place:
`periodic_rewalk` puts `lastcheck` back to OK without an OK check behind it.
-/

namespace Sysmon

section paths

variable (donotify : Bool)

/-- Say once that the object has been late by more than three intervals. The sum is of
`unsigned long`, so the comparison is too. -/
def warnIfLate (warnlog down : Bool) (rightNow : Time) (w : ObjState) : ObjState :=
  if 3 * w.svc.queuetime + w.svc.nextQueuetime.toUInt64 < rightNow.toUInt64 ∧ warnlog = true ∧
      w.svc.nextQueuetime ≠ 0 ∧ down = false ∧ w.svc.warnlog = false then
    { w with svc := { w.svc with warnlog := true } }
  else w

/-- `resolves` is what `my_gethostbyname` answers for the object's host name. -/
def redoDns (resolves : Bool) (w : ObjState) : ObjState :=
  if w.svc.lastcheck = asLastcheck Result.nodns ∧ resolves = true then
    { w with svc := { w.svc with lastcheck := 0 } }
  else w

/-- The body of the loop of `periodic_rewalk`. -/
def periodicRewalk (warnlog down : Bool) (rightNow : Time) (resolves : Bool) (w : ObjState) :
    ObjState :=
  if w.svc.nextQueuetime < rightNow then redoDns resolves (warnIfLate warnlog down rightNow w)
  else w

/-- What `walk_periodic_page_checks` does at the object it visits. -/
def periodicPage (pageinterval : Int32) (env : PageEnv) (now : Time) (w : ObjState) : ObjState :=
  let effectivePageinterval :=
    if w.svc.pageinterval = -1 then pageinterval else w.svc.pageinterval
  if (effectivePageinterval * 60).toInt64 < now - w.svc.lastcontacted ∧ w.svc.contacted = true then
    pageSomeone donotify env Contact.down w
  else w

/-- The description is swapped for the trap's text while the page goes out, and put back. -/
def sendTrapAlert (pagemsg : CStr) (env : PageEnv) (w : ObjState) : ObjState :=
  let savedMessage := w.svc.message
  let w := { w with svc := { w.svc with message := some pagemsg } }
  let w := pageSomeone donotify env Contact.snmpTrap w
  { w with svc := { w.svc with message := savedMessage } }

end paths

inductive Event where
  | check (done : CheckDone)
  | rewalk (warnlog down : Bool) (rightNow : Time) (resolves : Bool)
  | repage (pageinterval : Int32) (env : PageEnv) (now : Time)
  | trap (pagemsg : CStr) (env : PageEnv)
  deriving DecidableEq, Repr

def happen (donotify : Bool) (w : ObjState) : Event → ObjState
  | .check done => handleRetval donotify w done
  | .rewalk warnlog down rightNow resolves => periodicRewalk warnlog down rightNow resolves w
  | .repage pageinterval env now => periodicPage donotify pageinterval env now w
  | .trap pagemsg env => sendTrapAlert donotify pagemsg env w

/-! ### What each path writes -/

/-- The rewalk has reached the object, found it without an address, and the name resolves again. -/
def ClearsNodns (rightNow : Time) (resolves : Bool) (w : ObjState) : Prop :=
  w.svc.nextQueuetime < rightNow ∧ w.svc.lastcheck = asLastcheck Result.nodns ∧ resolves = true

instance (rightNow : Time) (resolves : Bool) (w : ObjState) :
    Decidable (ClearsNodns rightNow resolves w) := inferInstanceAs (Decidable (_ ∧ _ ∧ _))

theorem warnIfLate_frame (warnlog down : Bool) (rightNow : Time) (w : ObjState) :
    ∃ warned, warnIfLate warnlog down rightNow w =
      { w with svc := { w.svc with warnlog := warned } } := by
  rw [warnIfLate]
  split
  · exact ⟨true, rfl⟩
  · exact ⟨w.svc.warnlog, rfl⟩

theorem periodicRewalk_eq (warnlog down : Bool) (rightNow : Time) (resolves : Bool)
    (w : ObjState) : ∃ warned, periodicRewalk warnlog down rightNow resolves w =
      { w with svc := { w.svc with
          warnlog := warned
          lastcheck := if ClearsNodns rightNow resolves w then 0 else w.svc.lastcheck } } := by
  by_cases hdue : w.svc.nextQueuetime < rightNow
  · obtain ⟨warned, hwarn⟩ := warnIfLate_frame warnlog down rightNow w
    rw [periodicRewalk, if_pos hdue, hwarn]
    refine ⟨warned, ?_⟩
    by_cases hclear : w.svc.lastcheck = asLastcheck Result.nodns ∧ resolves = true
    · rw [redoDns, if_pos hclear, if_pos ⟨hdue, hclear⟩]
    · rw [redoDns, if_neg hclear, if_neg fun h => hclear h.2]
  · have hno : ¬ ClearsNodns rightNow resolves w := fun h => hdue h.1
    rw [periodicRewalk, if_neg hdue, if_neg hno]
    exact ⟨w.svc.warnlog, rfl⟩

/-- Whom a page marks as contacted, and when. -/
theorem pageSomeone_contacted_iff (donotify : Bool) (env : PageEnv) (newstate : Int32)
    (w : ObjState) : (pageSomeone donotify env newstate w).svc.contacted = true ↔
      w.svc.contacted = true ∨ w.svc.hasContact = false ∨
        donotify = true ∧ w.svc.wants newstate = true ∧
          (w.svc.command.isSome = true ∨ env.pwuid = true) := by
  simp only [pageSomeone, objectChanged]
  cases w.svc.command <;> cases w.svc.hasContact <;> cases donotify <;>
    cases w.svc.wants newstate <;> cases env.pwuid <;> cases env.popen <;> simp

/-- A page keeps the outage and its clock, and never takes the flag down. -/
theorem periodicPage_frame (donotify : Bool) (pageinterval : Int32) (env : PageEnv) (now : Time)
    (w : ObjState) :
    (periodicPage donotify pageinterval env now w).svc.lastcheck = w.svc.lastcheck ∧
      (periodicPage donotify pageinterval env now w).svc.deathtime = w.svc.deathtime ∧
      (periodicPage donotify pageinterval env now w).svc.contacted = w.svc.contacted ∧
      (periodicPage donotify pageinterval env now w).svc.policy = w.svc.policy := by
  simp only [periodicPage]
  generalize (if w.svc.pageinterval = -1 then pageinterval else w.svc.pageinterval) = interval
  split
  case isTrue h =>
    refine ⟨by simp, by simp, ?_, by simp⟩
    rw [h.2, pageSomeone_contacted_iff]
    exact Or.inl h.2
  case isFalse => exact ⟨rfl, rfl, rfl, rfl⟩

theorem sendTrapAlert_frame (donotify : Bool) (pagemsg : CStr) (env : PageEnv) (w : ObjState) :
    (sendTrapAlert donotify pagemsg env w).svc.lastcheck = w.svc.lastcheck ∧
      (sendTrapAlert donotify pagemsg env w).svc.deathtime = w.svc.deathtime ∧
      (sendTrapAlert donotify pagemsg env w).svc.message = w.svc.message ∧
      (sendTrapAlert donotify pagemsg env w).svc.policy = w.svc.policy := by
  refine ⟨by simp [sendTrapAlert], by simp [sendTrapAlert], rfl, ?_⟩
  rw [sendTrapAlert]
  exact pageSomeone_policy donotify env Contact.snmpTrap
    { w with svc := { w.svc with message := some pagemsg } }

theorem sendTrapAlert_contacted_iff (donotify : Bool) (pagemsg : CStr) (env : PageEnv)
    (w : ObjState) : (sendTrapAlert donotify pagemsg env w).svc.contacted = true ↔
      w.svc.contacted = true ∨ w.svc.hasContact = false ∨
        donotify = true ∧ w.svc.wants Contact.snmpTrap = true ∧
          (w.svc.command.isSome = true ∨ env.pwuid = true) :=
  pageSomeone_contacted_iff donotify env Contact.snmpTrap
    { w with svc := { w.svc with message := some pagemsg } }

theorem happen_policy (donotify : Bool) (w : ObjState) (e : Event) :
    (happen donotify w e).svc.policy = w.svc.policy := by
  cases e with
  | check done => exact handleRetval_policy donotify w done
  | rewalk warnlog down rightNow resolves =>
      obtain ⟨warned, h⟩ := periodicRewalk_eq warnlog down rightNow resolves w
      rw [happen, h]
      rfl
  | repage pageinterval env now => exact (periodicPage_frame donotify pageinterval env now w).2.2.2
  | trap pagemsg env => exact (sendTrapAlert_frame donotify pagemsg env w).2.2.2

theorem happen_wants {donotify : Bool} {w : ObjState} (newstate : Int32) (e : Event) :
    (happen donotify w e).svc.wants newstate = w.svc.wants newstate := by
  rw [HostInfo.wants_eq, HostInfo.wants_eq, happen_policy]

/-! ### The flag and the outage -/

/-- A new outage is paged as one of an object nobody has been told about: the DOWN notification goes
out exactly where a page is due and can be handed over. -/
def NewOutagePaged (donotify : Bool) (w : ObjState) : Prop :=
  donotify = true → w.svc.hasContact = true → w.svc.lastcheck = 0 →
    ∀ outage : List CheckDone, (∀ done ∈ outage, done.retval ≠ Result.ok) →
      (DownSent w (handleAll donotify w outage) ↔
        settled w.svc (pagesDue w.svc.maxDown outage.reverse) = some .sent)

theorem FlagInOutage.newOutagePaged {donotify : Bool} {w : ObjState} (h : FlagInOutage w)
    (hwants : w.svc.wants Contact.down = true) : NewOutagePaged donotify w := by
  intro hnotify _ hzero outage hbad
  subst hnotify
  have hclear : w.svc.contacted = false := by
    by_contra hne
    exact h (eq_true_of_ne_false hne) hzero
  exact (inOutage_handleAll hwants ⟨hzero, hclear⟩ hbad).downSent_iff

/-- What an event must not find, so as not to leave the flag behind: the rewalk an object that has
been paged about and has an address again, a trap an object that is up and that the page marks. -/
def FlagGuard (donotify : Bool) (w : ObjState) : Event → Prop
  | .check _ => True
  | .rewalk _ _ rightNow resolves => ¬ (ClearsNodns rightNow resolves w ∧ w.svc.contacted = true)
  | .repage _ _ _ => True
  | .trap _ env => w.svc.lastcheck ≠ 0 ∨ w.svc.hasContact = true ∧
      ¬ (donotify = true ∧ w.svc.wants Contact.snmpTrap = true ∧
        (w.svc.command.isSome = true ∨ env.pwuid = true))

theorem flagInOutage_happen_iff {donotify : Bool} {w : ObjState}
    (hwants : w.svc.wants Contact.down = true) (h : FlagInOutage w) (e : Event) :
    FlagInOutage (happen donotify w e) ↔ FlagGuard donotify w e := by
  cases e with
  | check done =>
      have hkept : FlagInOutage (handleRetval donotify w done) :=
        handleRetval_flagInOutage (contactWhen_ne_up hwants) h done
      exact ⟨fun _ => trivial, fun _ => hkept⟩
  | rewalk warnlog down rightNow resolves =>
      obtain ⟨warned, heq⟩ := periodicRewalk_eq warnlog down rightNow resolves w
      rw [happen, heq]
      by_cases hclear : ClearsNodns rightNow resolves w
      · simp [FlagInOutage, FlagGuard, hclear]
      · simp only [FlagInOutage, FlagGuard, hclear, false_and, if_false, not_false_eq_true, iff_true]
        exact h
  | repage pageinterval env now =>
      obtain ⟨hlast, -, hcontacted, -⟩ := periodicPage_frame donotify pageinterval env now w
      have hkept : FlagInOutage (periodicPage donotify pageinterval env now w) := by
        rw [FlagInOutage, hlast, hcontacted]
        exact h
      exact ⟨fun _ => trivial, fun _ => hkept⟩
  | trap pagemsg env =>
      have hlast := (sendTrapAlert_frame donotify pagemsg env w).1
      rw [happen, FlagInOutage, sendTrapAlert_contacted_iff, hlast, FlagGuard]
      constructor
      · intro hmark
        by_cases hzero : w.svc.lastcheck = 0
        · refine Or.inr ⟨?_, fun hpages => hmark (Or.inr (Or.inr hpages)) hzero⟩
          by_contra hnobody
          exact hmark (Or.inr (Or.inl (eq_false_of_ne_true hnobody))) hzero
        · exact Or.inl hzero
      · intro hguard hmark
        obtain hdown | ⟨hcontact, hquiet⟩ := hguard
        · exact hdown
        · obtain hold | hnobody | hpages := hmark
          · exact h hold
          · rw [hcontact] at hnobody
            exact absurd hnobody (by decide)
          · exact absurd hpages hquiet

/-- In a run, `contacted` stays inside the outage it was set in, and every new outage is paged, if
and only if no rewalk clears an object that has been paged about and no trap marks one that is
up. -/
theorem flagInOutage_always_iff {donotify : Bool} {w : ObjState} {events : List Event}
    (hwants : w.svc.wants Contact.down = true) (hstart : FlagInOutage w) :
    Run.Always (happen donotify) (fun s => FlagInOutage s ∧ NewOutagePaged donotify s) w events ↔
      Run.Guarded (happen donotify) (FlagGuard donotify) w events := by
  apply Run.always_iff_guarded (I := fun s => s.svc.wants Contact.down = true)
  · intro s e hs
    rw [happen_wants]
    exact hs
  · intro s e hs h
    rw [← flagInOutage_happen_iff hs h.1 e]
    constructor
    · exact fun hnext => hnext.1
    · intro hnext
      refine ⟨hnext, hnext.newOutagePaged ?_⟩
      rw [happen_wants]
      exact hs
  · exact hwants
  · exact ⟨hstart, hstart.newOutagePaged hwants⟩

/-- The theorem at an object that fails, is paged about again, and recovers. -/
theorem flagInOutage_always_recovery :
    Run.Always (happen true) (fun s => FlagInOutage s ∧ NewOutagePaged true s) (freshObject 1)
      [.check (healthyCheck Result.connref 100), .repage 10 .healthy 900,
        .check (healthyCheck Result.ok 960)] := by
  refine (flagInOutage_always_iff (by decide) (by unfold FlagInOutage; decide)).mpr ?_
  simp only [Run.guarded_cons, FlagGuard, Run.guarded_nil, and_self]

/-- A name that stops resolving is paged about; when it resolves again the rewalk calls the object
up with the flag still standing, and the outage that follows pages nobody. -/
theorem rewalk_leaves_contacted :
    ¬ Run.Always (happen true) (fun s => FlagInOutage s ∧ NewOutagePaged true s) (freshObject 1)
        [.check (healthyCheck Result.nodns 100), .rewalk false false 200 true] ∧
      ¬ DownSent
        (Run.exec (happen true) (freshObject 1)
          [.check (healthyCheck Result.nodns 100), .rewalk false false 200 true])
        (Run.exec (happen true) (freshObject 1)
          [.check (healthyCheck Result.nodns 100), .rewalk false false 200 true,
            .check (healthyCheck Result.connref 300)]) := by
  refine ⟨fun h => ?_, by decide⟩
  have hflag := (h _ (List.prefix_refl _)).1
  revert hflag
  unfold FlagInOutage
  decide

/-! ### The outage clock -/

/-- An object with the time its outage began, as the results alone tell it: the first result that is
not OK starts an outage, and only an OK result ends it. -/
structure Watched where
  obj : ObjState
  outageStart : Option Time
  deriving DecidableEq, Repr

def noteStart (outageStart : Option Time) : Event → Option Time
  | .check done =>
      if done.retval = Result.ok then none else some (outageStart.getD done.now)
  | _ => outageStart

def Watched.happen (donotify : Bool) (s : Watched) (e : Event) : Watched where
  obj := Sysmon.happen donotify s.obj e
  outageStart := noteStart s.outageStart e

def ClockRight (s : Watched) : Prop :=
  s.obj.svc.lastcheck ≠ 0 → s.outageStart = some s.obj.svc.deathtime

/-- Where a failure leaves the clock right. The outage it belongs to must still be on record, or
have begun this very second; and a clock that reads 0 is taken for one that was never set. -/
def ClockGuard (s : Watched) : Event → Prop
  | .check done => done.retval ≠ Result.ok →
      (s.obj.svc.lastcheck = 0 → s.outageStart = none ∨ s.outageStart = some done.now) ∧
      (s.obj.svc.lastcheck ≠ 0 → s.obj.svc.lastcheck ≠ asLastcheck done.retval →
        s.obj.svc.deathtime = 0 → done.now = 0)
  | _ => True

instance (s : Watched) : (e : Event) → Decidable (ClockGuard s e)
  | .check _ => inferInstanceAs (Decidable (_ → _ ∧ _))
  | .rewalk .. => inferInstanceAs (Decidable True)
  | .repage .. => inferInstanceAs (Decidable True)
  | .trap .. => inferInstanceAs (Decidable True)

/-- What a failure makes of `deathtime`. -/
theorem handleRetval_deathtime {donotify : Bool} {w : ObjState} {done : CheckDone}
    (hbad : done.retval ≠ Result.ok) :
    (handleRetval donotify w done).svc.deathtime =
      if w.svc.lastcheck ≠ asLastcheck done.retval ∧ (w.svc.lastcheck = 0 ∨ w.svc.deathtime = 0)
      then done.now else w.svc.deathtime := by
  by_cases hsame : w.svc.lastcheck = asLastcheck done.retval
  · rw [handleRetval_same hbad hsame, pageDownIfDue_deathtime, if_neg fun h => h.1 hsame]
    simp [countAgain]
  · rw [handleRetval_changed hbad hsame, pageDownIfDue_deathtime]
    simp [countFirst, hsame]

theorem clockRight_happen_iff {donotify : Bool} {s : Watched} (h : ClockRight s) (e : Event) :
    ClockRight (s.happen donotify e) ↔ ClockGuard s e := by
  cases e with
  | check done =>
      have hlast : (s.happen donotify (.check done)).obj.svc.lastcheck = asLastcheck done.retval :=
        handleRetval_lastcheck donotify s.obj done
      by_cases hok : done.retval = Result.ok
      · refine ⟨fun _ hbad => absurd hok hbad, fun _ hdown => ?_⟩
        rw [hlast, hok, asLastcheck_ok] at hdown
        exact absurd rfl hdown
      · have hkind : asLastcheck done.retval ≠ 0 := fun hzero => hok (asLastcheck_eq_zero.mp hzero)
        have hdeath : (s.happen donotify (.check done)).obj.svc.deathtime = _ :=
          handleRetval_deathtime (w := s.obj) hok
        have hnote : (s.happen donotify (.check done)).outageStart =
            some (s.outageStart.getD done.now) := if_neg hok
        rw [ClockRight, hlast, hdeath, hnote, ClockGuard]
        by_cases hzero : s.obj.svc.lastcheck = 0
        · -- falling from OK stamps the clock, whether or not an outage was going on
          have hne : s.obj.svc.lastcheck ≠ asLastcheck done.retval := hzero ▸ Ne.symm hkind
          rw [if_pos ⟨hne, Or.inl hzero⟩]
          cases hstart : s.outageStart with
          | none => simp [hzero]
          | some began => simp [hzero, hok, hkind]
        · rw [h hzero, Option.getD_some, Option.some_inj]
          by_cases hstamp : s.obj.svc.lastcheck ≠ asLastcheck done.retval ∧ s.obj.svc.deathtime = 0
          · rw [if_pos ⟨hstamp.1, Or.inr hstamp.2⟩, hstamp.2]
            simp only [hzero, hok, hkind, hstamp.1, ne_eq, not_false_eq_true, forall_const,
              false_imp_iff, true_and]
            exact eq_comm
          · rw [if_neg fun hor => hstamp ⟨hor.1, hor.2.resolve_left hzero⟩]
            refine ⟨fun _ _ => ⟨fun hup => absurd hup hzero, fun _ hne hnever => ?_⟩, fun _ _ => rfl⟩
            exact absurd ⟨hne, hnever⟩ hstamp
  | rewalk warnlog down rightNow resolves =>
      obtain ⟨warned, heq⟩ := periodicRewalk_eq warnlog down rightNow resolves s.obj
      have hkept : ClockRight (s.happen donotify (.rewalk warnlog down rightNow resolves)) := by
        simp only [ClockRight, Watched.happen, Sysmon.happen, heq, noteStart]
        split
        · exact fun hdown => absurd rfl hdown
        · exact h
      exact ⟨fun _ => trivial, fun _ => hkept⟩
  | repage pageinterval env now =>
      obtain ⟨hlast, hdeath, -, -⟩ := periodicPage_frame donotify pageinterval env now s.obj
      have hkept : ClockRight (s.happen donotify (.repage pageinterval env now)) := by
        simp only [ClockRight, Watched.happen, Sysmon.happen, hlast, hdeath, noteStart]
        exact h
      exact ⟨fun _ => trivial, fun _ => hkept⟩
  | trap pagemsg env =>
      obtain ⟨hlast, hdeath, -, -⟩ := sendTrapAlert_frame donotify pagemsg env s.obj
      have hkept : ClockRight (s.happen donotify (.trap pagemsg env)) := by
        simp only [ClockRight, Watched.happen, Sysmon.happen, hlast, hdeath, noteStart]
        exact h
      exact ⟨fun _ => trivial, fun _ => hkept⟩

/-- In a run from an object that is up, `deathtime` is the time the outage began if and only if no
failure comes while the outage it belongs to has been taken off the record. -/
theorem clockRight_always_iff {donotify : Bool} {w : ObjState} {events : List Event}
    (hup : w.svc.lastcheck = 0) :
    Run.Always (Watched.happen donotify) ClockRight ⟨w, none⟩ events ↔
      Run.Guarded (Watched.happen donotify) ClockGuard ⟨w, none⟩ events := by
  apply Run.always_iff_guarded (I := fun _ => True)
  · exact fun _ _ _ => trivial
  · exact fun s e _ h => clockRight_happen_iff h e
  · trivial
  · exact fun hdown => absurd hup hdown

/-- The theorem at an outage of two kinds that ends and is followed by another. -/
theorem clockRight_always_two_outages :
    Run.Always (Watched.happen true) ClockRight ⟨freshObject 3, none⟩
      [.check (healthyCheck Result.connref 100), .check (healthyCheck Result.timedout 160),
        .trap [] .healthy, .check (healthyCheck Result.ok 220),
        .check (healthyCheck Result.nodns 280)] := by
  refine (clockRight_always_iff rfl).mpr ?_
  simp only [Run.guarded_cons, Run.guarded_nil]
  decide

/-- A name that does not resolve at 100, resolves at 200, and a connection refused at 300, with no
OK result in between: the clock says 300. -/
theorem rewalk_restarts_clock :
    ¬ Run.Always (Watched.happen true) ClockRight ⟨freshObject 3, none⟩
      [.check (healthyCheck Result.nodns 100), .rewalk false false 200 true,
        .check (healthyCheck Result.connref 300)] := by
  intro h
  have hclock := h _ (List.prefix_refl _)
  revert hclock
  unfold ClockRight
  decide

end Sysmon
