import Sysmon.Page

/-!
# A check comes back

`handle_retval` of `syswatch.c`. The function is one straight line of five blocks over the object;
here each block is a definition of its own and `handleRetval` runs them in the source's order. The
rest of the development reaches the function through three lemmas, one for each way a result can
meet the object: an OK result, a failure of the kind already on record, and any other failure.
-/

namespace Sysmon

/-- What the system answers while one result is handled. Only a recovery can page twice. -/
structure CheckEnv where
  first : PageEnv
  second : PageEnv
  deriving DecidableEq, Repr

/-- A finished check: `retval`, the time it is handled at, and the system around it. -/
structure CheckDone where
  retval : Int16
  now : Time
  env : CheckEnv
  deriving DecidableEq, Repr

section blocks

variable (donotify : Bool) (now : Time) (retval : Int16) (env : PageEnv) (w : ObjState)

/-- Count the check, schedule the next one, and note a changed state for the clients. -/
def noteResult : ObjState :=
  let w := { w with
    svc := { w.svc with
      totalchecked := w.svc.totalchecked + 1
      nextQueuetime := now + w.svc.queuetime.toInt64 } }
  if asLastcheck retval ≠ w.svc.lastcheck then objectChanged w else w

/-- Check to see if the service came up. -/
def cameUp : ObjState :=
  if retval = Result.ok ∧ w.svc.contacted = true ∧ w.svc.lastcheck ≠ 0 then
    let w := { w with svc := { w.svc with lastcheck := asLastcheck retval } }
    let w := if donotify && w.svc.wants Contact.up then pageSomeone donotify env Contact.up w else w
    { w with svc := { w.svc with lastUp := now, lastRecovery := now, contacted := false } }
  else w

/-- It has failed often enough and nobody has been told: page. -/
def pageDownIfDue : ObjState :=
  if w.svc.maxDown ≤ w.svc.downct ∧ w.svc.contacted = false ∧ w.svc.wants Contact.down = true then
    pageSomeone donotify env Contact.down w
  else w

/-- One more failure in the same row. -/
def countAgain : ObjState :=
  { w with svc := { w.svc with downct := w.svc.downct + 1, totaldown := w.svc.totaldown + 1 } }

/-- The service is down, and its state is the same as last time. -/
def stillDown : ObjState :=
  if retval ≠ Result.ok ∧ w.svc.lastcheck = asLastcheck retval then
    pageDownIfDue donotify env (countAgain w)
  else w

/-- The first failure of a row. Falling from OK starts an outage; changing from one failure kind to
another is the same outage and keeps its `deathtime`, unless that reads 0, which means "not set". -/
def countFirst : ObjState :=
  { w with svc := { w.svc with
      upct := 0
      lastcheck := asLastcheck retval
      downct := 1
      totaldown := w.svc.totaldown + 1
      deathtime := if w.svc.lastcheck = 0 ∨ w.svc.deathtime = 0 then now else w.svc.deathtime } }

/-- The state changed. -/
def stateChanged : ObjState :=
  if asLastcheck retval ≠ w.svc.lastcheck then
    if retval ≠ Result.ok then pageDownIfDue donotify env (countFirst now retval w)
    else { w with svc := { w.svc with upct := 0, lastcheck := asLastcheck retval, downct := 0 } }
  else w

/-- If we came up, clear the counters, end the ack, and maybe tell someone. -/
def cameOk : ObjState :=
  if retval = Result.ok then
    let w := { w with svc := { w.svc with upct := w.svc.upct + 1, downct := 0 } }
    let w := if w.svc.acked then objectChanged { w with svc := { w.svc with acked := false } } else w
    if w.svc.maxDown ≤ w.svc.upct ∧ w.svc.contacted = false ∧ w.svc.contactWhen = Contact.up then
      pageSomeone donotify env Contact.up w
    else w
  else w

end blocks

def handleRetval (donotify : Bool) (w : ObjState) (done : CheckDone) : ObjState :=
  let w := noteResult done.now done.retval w
  let w := cameUp donotify done.now done.retval done.env.first w
  let w := stillDown donotify done.retval done.env.first w
  let w := stateChanged donotify done.now done.retval done.env.first w
  cameOk donotify done.retval done.env.second w

/-! ### The settings a result leaves alone -/

/-- What the configuration says about paging for an object. No check changes it. -/
structure PagePolicy where
  maxDown : UInt64
  contactWhen : Int32
  contact : Option CStr
  command : Option CStr
  queuetime : UInt64
  deriving DecidableEq, Repr

def HostInfo.policy (svc : HostInfo) : PagePolicy where
  maxDown := svc.maxDown
  contactWhen := svc.contactWhen
  contact := svc.contact
  command := svc.command
  queuetime := svc.queuetime

theorem HostInfo.wants_eq (svc : HostInfo) (newstate : Int32) :
    svc.wants newstate = (svc.policy.contactWhen &&& newstate != 0) := rfl

theorem HostInfo.handover_congr {left right : HostInfo} (h : left.policy = right.policy)
    (env : PageEnv) : env.handover left = env.handover right := by
  have hcommand : left.command = right.command := congrArg PagePolicy.command h
  have hcontact : left.hasContact = right.hasContact := by
    have hsame : left.contact = right.contact := congrArg PagePolicy.contact h
    rw [HostInfo.hasContact, HostInfo.hasContact, hsame]
  rw [PageEnv.handover, PageEnv.handover, PageEnv.spawns, PageEnv.spawns, hcommand, hcontact]

@[simp] theorem pageSomeone_policy (donotify : Bool) (env : PageEnv) (newstate : Int32)
    (w : ObjState) : (pageSomeone donotify env newstate w).svc.policy = w.svc.policy := by
  obtain ⟨_, _, _, _, h⟩ := pageSomeone_svc donotify env newstate w
  rw [h]
  rfl

theorem noteResult_policy (now : Time) (retval : Int16) (w : ObjState) :
    (noteResult now retval w).svc.policy = w.svc.policy := by
  unfold noteResult
  dsimp only
  split <;> rfl

theorem countAgain_policy (w : ObjState) : (countAgain w).svc.policy = w.svc.policy := rfl

theorem countFirst_policy (now : Time) (retval : Int16) (w : ObjState) :
    (countFirst now retval w).svc.policy = w.svc.policy := rfl

theorem countAgain_told (w : ObjState) :
    (countAgain w).notices = w.notices ∧ (countAgain w).svc.contacted = w.svc.contacted := ⟨rfl, rfl⟩

theorem countFirst_told (now : Time) (retval : Int16) (w : ObjState) :
    (countFirst now retval w).notices = w.notices ∧ (countFirst now retval w).svc.contacted = w.svc.contacted :=
  ⟨rfl, rfl⟩

theorem cameUp_policy (donotify : Bool) (now : Time) (retval : Int16) (env : PageEnv)
    (w : ObjState) : (cameUp donotify now retval env w).svc.policy = w.svc.policy := by
  unfold cameUp
  dsimp only
  split
  · split
    · exact pageSomeone_policy donotify env Contact.up _
    · rfl
  · rfl

theorem pageDownIfDue_policy (donotify : Bool) (env : PageEnv) (w : ObjState) :
    (pageDownIfDue donotify env w).svc.policy = w.svc.policy := by
  unfold pageDownIfDue
  split
  · exact pageSomeone_policy donotify env Contact.down w
  · rfl

theorem stillDown_policy (donotify : Bool) (retval : Int16) (env : PageEnv) (w : ObjState) :
    (stillDown donotify retval env w).svc.policy = w.svc.policy := by
  unfold stillDown
  split
  · exact pageDownIfDue_policy donotify env _
  · rfl

theorem stateChanged_policy (donotify : Bool) (now : Time) (retval : Int16) (env : PageEnv)
    (w : ObjState) : (stateChanged donotify now retval env w).svc.policy = w.svc.policy := by
  unfold stateChanged
  split
  · split
    · exact pageDownIfDue_policy donotify env _
    · rfl
  · rfl

theorem cameOk_policy (donotify : Bool) (retval : Int16) (env : PageEnv) (w : ObjState) :
    (cameOk donotify retval env w).svc.policy = w.svc.policy := by
  unfold cameOk
  dsimp only
  split
  · split <;> split <;> first | exact pageSomeone_policy donotify env Contact.up _ | rfl
  · rfl

@[simp] theorem handleRetval_policy (donotify : Bool) (w : ObjState) (done : CheckDone) :
    (handleRetval donotify w done).svc.policy = w.svc.policy := by
  unfold handleRetval
  rw [cameOk_policy, stateChanged_policy, stillDown_policy, cameUp_policy, noteResult_policy]

/-! ### The five blocks, on what an outage is made of -/

section noteResult

variable (now : Time) (retval : Int16) (w : ObjState)

@[simp] theorem noteResult_lastcheck : (noteResult now retval w).svc.lastcheck = w.svc.lastcheck := by
  simp only [noteResult, objectChanged]
  split <;> rfl

@[simp] theorem noteResult_downct : (noteResult now retval w).svc.downct = w.svc.downct := by
  simp only [noteResult, objectChanged]
  split <;> rfl

@[simp] theorem noteResult_contacted : (noteResult now retval w).svc.contacted = w.svc.contacted := by
  simp only [noteResult, objectChanged]
  split <;> rfl

@[simp] theorem noteResult_deathtime : (noteResult now retval w).svc.deathtime = w.svc.deathtime := by
  simp only [noteResult, objectChanged]
  split <;> rfl

@[simp] theorem noteResult_notices : (noteResult now retval w).notices = w.notices := by
  simp only [noteResult, objectChanged]
  split <;> rfl

end noteResult

theorem cameUp_of_ne_ok {donotify : Bool} {now : Time} {retval : Int16} {env : PageEnv}
    {w : ObjState} (h : retval ≠ Result.ok) : cameUp donotify now retval env w = w := by
  rw [cameUp, if_neg fun hup => h hup.1]

theorem cameOk_of_ne_ok {donotify : Bool} {retval : Int16} {env : PageEnv} {w : ObjState}
    (h : retval ≠ Result.ok) : cameOk donotify retval env w = w := by
  rw [cameOk, if_neg h]

@[simp] theorem cameOk_lastcheck (donotify : Bool) (retval : Int16) (env : PageEnv) (w : ObjState) :
    (cameOk donotify retval env w).svc.lastcheck = w.svc.lastcheck := by
  unfold cameOk objectChanged
  dsimp only
  split
  · split <;> split <;> simp
  · rfl

@[simp] theorem cameOk_deathtime (donotify : Bool) (retval : Int16) (env : PageEnv) (w : ObjState) :
    (cameOk donotify retval env w).svc.deathtime = w.svc.deathtime := by
  unfold cameOk objectChanged
  dsimp only
  split
  · split <;> split <;> simp
  · rfl

theorem stillDown_of_ok {donotify : Bool} {env : PageEnv} {w : ObjState} :
    stillDown donotify Result.ok env w = w := by
  rw [stillDown, if_neg fun hdown => hdown.1 rfl]

/-! ### The three ways a result meets an object -/

@[simp] theorem pageDownIfDue_lastcheck (donotify : Bool) (env : PageEnv) (w : ObjState) :
    (pageDownIfDue donotify env w).svc.lastcheck = w.svc.lastcheck := by
  unfold pageDownIfDue
  split
  · exact pageSomeone_lastcheck donotify env Contact.down w
  · rfl

@[simp] theorem pageDownIfDue_downct (donotify : Bool) (env : PageEnv) (w : ObjState) :
    (pageDownIfDue donotify env w).svc.downct = w.svc.downct := by
  unfold pageDownIfDue
  split
  · exact pageSomeone_downct donotify env Contact.down w
  · rfl

@[simp] theorem pageDownIfDue_deathtime (donotify : Bool) (env : PageEnv) (w : ObjState) :
    (pageDownIfDue donotify env w).svc.deathtime = w.svc.deathtime := by
  unfold pageDownIfDue
  split
  · exact pageSomeone_deathtime donotify env Contact.down w
  · rfl

/-- A failure of the kind on record: one more in the same row. -/
theorem handleRetval_same {donotify : Bool} {w : ObjState} {done : CheckDone}
    (hbad : done.retval ≠ Result.ok) (hsame : w.svc.lastcheck = asLastcheck done.retval) :
    handleRetval donotify w done =
      pageDownIfDue donotify done.env.first (countAgain (noteResult done.now done.retval w)) := by
  have hdown : stillDown donotify done.retval done.env.first (noteResult done.now done.retval w) =
      pageDownIfDue donotify done.env.first (countAgain (noteResult done.now done.retval w)) := by
    rw [stillDown, if_pos ⟨hbad, by simpa using hsame⟩]
  have hlast : (countAgain (noteResult done.now done.retval w)).svc.lastcheck =
      asLastcheck done.retval := by
    simp [countAgain, hsame]
  simp only [handleRetval]
  rw [cameUp_of_ne_ok hbad, hdown, cameOk_of_ne_ok hbad, stateChanged,
    if_neg (by rw [pageDownIfDue_lastcheck, hlast]; exact not_not_intro rfl)]

/-- Any other failure: a new row of one, on the outage clock that is running if one is. -/
theorem handleRetval_changed {donotify : Bool} {w : ObjState} {done : CheckDone}
    (hbad : done.retval ≠ Result.ok) (hdiff : w.svc.lastcheck ≠ asLastcheck done.retval) :
    handleRetval donotify w done =
      pageDownIfDue donotify done.env.first
        (countFirst done.now done.retval (noteResult done.now done.retval w)) := by
  have hdown : stillDown donotify done.retval done.env.first (noteResult done.now done.retval w) =
      noteResult done.now done.retval w := by
    rw [stillDown, if_neg fun h => hdiff (by simpa using h.2)]
  simp only [handleRetval]
  rw [cameUp_of_ne_ok hbad, hdown, cameOk_of_ne_ok hbad, stateChanged,
    if_pos (by simpa using Ne.symm hdiff), if_pos hbad]

/-- What an OK result leaves behind. -/
structure AfterOk (w w' : ObjState) : Prop where
  lastcheck : w'.svc.lastcheck = 0
  deathtime : w'.svc.deathtime = w.svc.deathtime
  contacted : w.svc.contactWhen ≠ Contact.up →
    w'.svc.contacted = (w.svc.contacted && w.svc.lastcheck == 0)
  notices : w.svc.contactWhen ≠ Contact.up →
    ∃ added, w'.notices = w.notices ++ added ∧ ∀ n ∈ added, n.newstate = Contact.up

theorem cameUp_afterOk (donotify : Bool) (now : Time) (env : PageEnv) (w : ObjState) :
    (cameUp donotify now Result.ok env w).svc.contacted =
        (w.svc.contacted && w.svc.lastcheck == 0) ∧
      (cameUp donotify now Result.ok env w).svc.deathtime = w.svc.deathtime ∧
      ∃ added, (cameUp donotify now Result.ok env w).notices = w.notices ++ added ∧
        ∀ n ∈ added, n.newstate = Contact.up := by
  by_cases hup : w.svc.contacted = true ∧ w.svc.lastcheck ≠ 0
  · rw [cameUp, if_pos ⟨rfl, hup⟩]
    refine ⟨by simp [hup.2], ?_, ?_⟩
    · dsimp only
      split <;> simp
    · dsimp only
      split
      · exact pageSomeone_notices_append donotify env Contact.up _
      · exact ⟨[], (List.append_nil _).symm, by simp⟩
  · rw [cameUp, if_neg fun h => hup h.2]
    refine ⟨?_, rfl, [], (List.append_nil _).symm, by simp⟩
    rcases Bool.eq_false_or_eq_true w.svc.contacted with hc | hc
    · have hzero : w.svc.lastcheck = 0 := by
        by_contra hne
        exact hup ⟨hc, hne⟩
      simp [hc, hzero]
    · simp [hc]

/-- Once an OK result has been taken in, the rest of the function only counts. -/
theorem stateChanged_ok (donotify : Bool) (now : Time) (env : PageEnv) (w : ObjState) :
    (stateChanged donotify now Result.ok env w).svc.lastcheck = 0 ∧
      (stateChanged donotify now Result.ok env w).svc.contacted = w.svc.contacted ∧
      (stateChanged donotify now Result.ok env w).svc.deathtime = w.svc.deathtime ∧
      (stateChanged donotify now Result.ok env w).notices = w.notices := by
  by_cases hchanged : asLastcheck Result.ok ≠ w.svc.lastcheck
  · rw [stateChanged, if_pos hchanged]
    simp
  · rw [stateChanged, if_neg hchanged]
    have hzero : w.svc.lastcheck = 0 := by simpa using (not_not.mp hchanged).symm
    exact ⟨hzero, rfl, rfl, rfl⟩

theorem cameOk_ok (donotify : Bool) (env : PageEnv) {w : ObjState}
    (hwhen : w.svc.contactWhen ≠ Contact.up) :
    (cameOk donotify Result.ok env w).svc.contacted = w.svc.contacted ∧
      (cameOk donotify Result.ok env w).notices = w.notices := by
  rw [cameOk, if_pos rfl]
  simp only [objectChanged]
  by_cases hacked : w.svc.acked = true <;> simp [hacked, hwhen]

theorem handleRetval_ok {donotify : Bool} {w : ObjState} {done : CheckDone}
    (hok : done.retval = Result.ok) : AfterOk w (handleRetval donotify w done) := by
  simp only [handleRetval, hok]
  rw [stillDown_of_ok]
  set note := noteResult done.now Result.ok w
  set up := cameUp donotify done.now Result.ok done.env.first note
  set changed := stateChanged donotify done.now Result.ok done.env.first up
  obtain ⟨hupContacted, hupDeath, added, hadded, hstate⟩ :=
    cameUp_afterOk donotify done.now done.env.first note
  obtain ⟨hlast, hcontacted, hdeath, hnotices⟩ :=
    stateChanged_ok donotify done.now done.env.first up
  have hwhen : changed.svc.contactWhen = w.svc.contactWhen := by
    have hpolicy : changed.svc.policy = w.svc.policy := by
      simp only [changed, up, note]
      rw [stateChanged_policy, cameUp_policy, noteResult_policy]
    exact congrArg PagePolicy.contactWhen hpolicy
  exact {
    lastcheck := by rw [cameOk_lastcheck, hlast]
    deathtime := by rw [cameOk_deathtime, hdeath, hupDeath]; simp [note]
    contacted := fun hne => by
      rw [(cameOk_ok donotify done.env.second (hwhen ▸ hne)).1, hcontacted, hupContacted]
      simp [note]
    notices := fun hne => ⟨added, by
      rw [(cameOk_ok donotify done.env.second (hwhen ▸ hne)).2, hnotices, hadded]
      simp [note], hstate⟩ }

/-- Whatever the result is, it is what the object then has on record. -/
theorem handleRetval_lastcheck (donotify : Bool) (w : ObjState) (done : CheckDone) :
    (handleRetval donotify w done).svc.lastcheck = asLastcheck done.retval := by
  by_cases hok : done.retval = Result.ok
  · rw [(handleRetval_ok hok).lastcheck, hok, asLastcheck_ok]
  · by_cases hsame : w.svc.lastcheck = asLastcheck done.retval
    · rw [handleRetval_same hok hsame, pageDownIfDue_lastcheck]
      simpa [countAgain] using hsame
    · rw [handleRetval_changed hok hsame, pageDownIfDue_lastcheck]
      rfl

end Sysmon
