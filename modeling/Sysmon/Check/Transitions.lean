import Sysmon.Check.Paging

/-!
# One page for each transition

An outage is to be told at most once, and so is the recovery from it. The first holds, since a page sets
`contacted` and no failure takes it down. The second does not: an object that only wants to hear of
recoveries (`contact_when` is UP alone) is told in the branch for recoveries, which takes `contacted` down,
and again in the last branch of `handle_retval`, which is there for such objects, as soon as `max_down`
checks in a row were OK.
-/

namespace Sysmon

/-- A page that is asked for goes out: it is wanted, and the system does its part. -/
def sends (donotify : Bool) (env : PageEnv) (newstate : Int32) (svc : HostInfo) : Bool :=
  donotify && svc.wants newstate && env.handover svc = .sent

/-- The notification, if there is one. -/
def noticeIf (told : Bool) (newstate : Int32) (svc : HostInfo) : List Notice :=
  if told then [svc.notice newstate] else []

theorem pageSomeone_notices_eq (donotify : Bool) (env : PageEnv) (newstate : Int32) (w : ObjState) :
    (pageSomeone donotify env newstate w).notices =
      w.notices ++ noticeIf (sends donotify env newstate w.svc) newstate w.svc := by
  by_cases hasked : (donotify && w.svc.wants newstate) = true
  · obtain ⟨rfl, hwants⟩ := Bool.and_eq_true_iff.mp hasked
    rw [pageSomeone_notices hwants, sends, hwants, noticeIf]
    simp only [Bool.and_self, Bool.true_and, decide_eq_true_eq]
  · have hno := eq_false_of_ne_true hasked
    rw [pageSomeone_unwanted hno, sends, hno]
    exact (List.append_nil _).symm

theorem pageSomeone_contacted_of_sends {donotify : Bool} {env : PageEnv} {newstate : Int32} {w : ObjState}
    (h : sends donotify env newstate w.svc = true) : (pageSomeone donotify env newstate w).svc.contacted = true := by
  rw [sends, Bool.and_eq_true, Bool.and_eq_true, decide_eq_true_eq] at h
  obtain ⟨⟨rfl, hwants⟩, hsent⟩ := h
  rw [pageSomeone_contacted hwants, hsent]
  exact Bool.or_true _

theorem sends_congr {left right : HostInfo} (h : left.policy = right.policy) (donotify : Bool) (env : PageEnv)
    (newstate : Int32) : sends donotify env newstate left = sends donotify env newstate right := by
  rw [sends, sends, HostInfo.wants_eq, HostInfo.wants_eq, h, HostInfo.handover_congr h]

theorem noticeIf_congr {left right : HostInfo} (h : left.policy = right.policy) (told : Bool) (newstate : Int32) :
    noticeIf told newstate left = noticeIf told newstate right := by
  have hcommand : left.command = right.command := congrArg PagePolicy.command h
  rw [noticeIf, noticeIf, HostInfo.notice, HostInfo.notice, hcommand]

/-! ### What one result tells -/

/-- The branch for recoveries tells. -/
def tellsRecovery (donotify : Bool) (w : ObjState) (done : CheckDone) : Bool :=
  w.svc.contacted && w.svc.lastcheck != 0 && sends donotify done.env.first Contact.up w.svc

/-- What `upct` is when the last branch looks at it. -/
def upctThen (svc : HostInfo) : UInt64 := (if svc.contacted = false ∧ svc.lastcheck ≠ 0 then 0 else svc.upct) + 1

/-- The last branch is taken, by an object that wants to hear of recoveries only. -/
def lastBranch (svc : HostInfo) : Bool :=
  !(svc.contacted && svc.lastcheck == 0) && svc.contactWhen = Contact.up && svc.maxDown ≤ upctThen svc

/-- The last branch tells. -/
def tellsAgain (donotify : Bool) (w : ObjState) (done : CheckDone) : Bool :=
  lastBranch w.svc && sends donotify done.env.second Contact.up w.svc

theorem cameUp_notices (donotify : Bool) (now : Time) (done : CheckDone) (w : ObjState) :
    (cameUp donotify now Result.ok done.env.first w).notices =
      w.notices ++ noticeIf (tellsRecovery donotify w done) Contact.up w.svc := by
  by_cases hup : w.svc.contacted = true ∧ w.svc.lastcheck ≠ 0
  · have htells : tellsRecovery donotify w done = sends donotify done.env.first Contact.up w.svc := by
      rw [tellsRecovery, hup.1, bne_iff_ne.mpr hup.2]
      rfl
    rw [cameUp, if_pos ⟨rfl, hup⟩, htells]
    dsimp only
    split
    · exact pageSomeone_notices_eq donotify done.env.first Contact.up _
    next hno =>
      have hsilent : sends donotify done.env.first Contact.up w.svc = false := by
        have hno : (donotify && w.svc.wants Contact.up) = false := Bool.eq_false_iff.mpr hno
        rw [sends, hno, Bool.false_and]
      rw [hsilent]
      exact (List.append_nil _).symm
  · have htells : tellsRecovery donotify w done = false := by
      by_contra htrue
      have htrue := eq_true_of_ne_false htrue
      rw [tellsRecovery, Bool.and_eq_true, Bool.and_eq_true, bne_iff_ne] at htrue
      exact hup htrue.1
    rw [cameUp, if_neg fun h => hup h.2, htells]
    exact (List.append_nil _).symm

/-- What the last branch looks at. -/
theorem beforeLast (donotify : Bool) (now : Time) (done : CheckDone) (w : ObjState) :
    (stateChanged donotify now Result.ok done.env.first (cameUp donotify now Result.ok done.env.first w)).svc.upct + 1 =
      upctThen w.svc := by
  have hpaged : ∀ v : ObjState, (pageSomeone donotify done.env.first Contact.up v).svc.upct = v.svc.upct := by
    intro v
    obtain ⟨_, _, _, _, h⟩ := pageSomeone_svc donotify done.env.first Contact.up v
    rw [h]
  by_cases hup : w.svc.contacted = true ∧ w.svc.lastcheck ≠ 0
  · have hkept : ¬(w.svc.contacted = false ∧ w.svc.lastcheck ≠ 0) := by simp [hup.1]
    have hcame : (cameUp donotify now Result.ok done.env.first w).svc.upct = w.svc.upct ∧
        (cameUp donotify now Result.ok done.env.first w).svc.lastcheck = 0 := by
      rw [cameUp, if_pos ⟨rfl, hup⟩]
      dsimp only
      split
      · exact ⟨hpaged _, pageSomeone_lastcheck donotify done.env.first Contact.up _⟩
      · exact ⟨rfl, rfl⟩
    rw [stateChanged, if_neg (by rw [hcame.2]; decide), hcame.1, upctThen, if_neg hkept]
  · rw [cameUp, if_neg fun h => hup h.2, upctThen, stateChanged]
    by_cases hzero : w.svc.lastcheck = 0
    · rw [if_neg (by rw [hzero]; decide), if_neg fun h => h.2 hzero]
    · have hclear : w.svc.contacted = false := eq_false_of_ne_true fun h => hup ⟨h, hzero⟩
      rw [if_pos (by rw [asLastcheck_ok]; exact Ne.symm hzero), if_neg (not_not_intro rfl), if_pos ⟨hclear, hzero⟩]

/-- The last branch, behind the counters and the ack. -/
theorem cameOk_eq (donotify : Bool) (env : PageEnv) (w : ObjState) :
    ∃ acked : ObjState, acked.notices = w.notices ∧ acked.svc.policy = w.svc.policy ∧
      acked.svc.contacted = w.svc.contacted ∧ acked.svc.upct = w.svc.upct + 1 ∧
      cameOk donotify Result.ok env w =
        if w.svc.maxDown ≤ w.svc.upct + 1 ∧ w.svc.contacted = false ∧ w.svc.contactWhen = Contact.up then
          pageSomeone donotify env Contact.up acked else acked := by
  by_cases hacked : w.svc.acked = true
  · refine ⟨objectChanged { w with svc := { w.svc with upct := w.svc.upct + 1, downct := 0, acked := false } },
      rfl, rfl, rfl, rfl, ?_⟩
    simp only [cameOk, objectChanged, hacked, if_true]
  · refine ⟨{ w with svc := { w.svc with upct := w.svc.upct + 1, downct := 0 } }, rfl, rfl, rfl, rfl, ?_⟩
    simp only [cameOk, hacked, if_true, if_false, Bool.false_eq_true]

/-- An OK result, up to the page of the last branch. -/
theorem handleRetval_ok_eq {donotify : Bool} {w : ObjState} {done : CheckDone} (hok : done.retval = Result.ok) :
    ∃ acked : ObjState,
      acked.notices = w.notices ++ noticeIf (tellsRecovery donotify w done) Contact.up w.svc ∧
      acked.svc.policy = w.svc.policy ∧ acked.svc.contacted = (w.svc.contacted && w.svc.lastcheck == 0) ∧
      acked.svc.upct = upctThen w.svc ∧
      handleRetval donotify w done =
        if lastBranch w.svc = true then pageSomeone donotify done.env.second Contact.up acked else acked := by
  simp only [handleRetval, hok]
  rw [stillDown_of_ok]
  set note := noteResult done.now Result.ok w with hnote
  set up := cameUp donotify done.now Result.ok done.env.first note with hup
  set changed := stateChanged donotify done.now Result.ok done.env.first up with hchanged
  have hpolicy : changed.svc.policy = w.svc.policy := by
    rw [hchanged, stateChanged_policy, hup, cameUp_policy, hnote, noteResult_policy]
  have hrecovery : tellsRecovery donotify note done = tellsRecovery donotify w done := by
    rw [tellsRecovery, tellsRecovery, hnote, noteResult_contacted, noteResult_lastcheck,
      sends_congr (noteResult_policy done.now Result.ok w)]
  have hnotices : changed.notices = w.notices ++ noticeIf (tellsRecovery donotify w done) Contact.up w.svc := by
    rw [hchanged, (stateChanged_ok donotify done.now done.env.first up).2.2.2, hup, cameUp_notices, hrecovery, hnote,
      noteResult_notices, noticeIf_congr (noteResult_policy done.now Result.ok w)]
  have hcontacted : changed.svc.contacted = (w.svc.contacted && w.svc.lastcheck == 0) := by
    rw [hchanged, (stateChanged_ok donotify done.now done.env.first up).2.1, hup,
      (cameUp_afterOk donotify done.now done.env.first note).1, hnote, noteResult_contacted, noteResult_lastcheck]
  have hupct : changed.svc.upct + 1 = upctThen w.svc := by
    have hsame : note.svc.upct = w.svc.upct := by
      rw [hnote]
      simp only [noteResult, objectChanged]
      split <;> rfl
    rw [hchanged, hup, beforeLast, upctThen, upctThen, hsame, hnote, noteResult_contacted, noteResult_lastcheck]
  have hlast : (changed.svc.maxDown ≤ changed.svc.upct + 1 ∧ changed.svc.contacted = false ∧
      changed.svc.contactWhen = Contact.up) ↔ lastBranch w.svc = true := by
    have hmax : changed.svc.maxDown = w.svc.maxDown := congrArg PagePolicy.maxDown hpolicy
    have hwhen : changed.svc.contactWhen = w.svc.contactWhen := congrArg PagePolicy.contactWhen hpolicy
    rw [hupct, hmax, hwhen, hcontacted, lastBranch, Bool.and_eq_true, Bool.and_eq_true, decide_eq_true_eq,
      decide_eq_true_eq, Bool.not_eq_true']
    tauto
  obtain ⟨acked, hsaid, hkept, hflag, hcount, hbranch⟩ := cameOk_eq donotify done.env.second changed
  refine ⟨acked, hsaid.trans hnotices, hkept.trans hpolicy, hflag.trans hcontacted, hcount.trans hupct, ?_⟩
  simp only [hbranch, hlast]

/-- An OK result tells at most twice. -/
theorem handleRetval_ok_notices {donotify : Bool} {w : ObjState} {done : CheckDone} (hok : done.retval = Result.ok) :
    (handleRetval donotify w done).notices = w.notices ++
      (noticeIf (tellsRecovery donotify w done) Contact.up w.svc ++
        noticeIf (tellsAgain donotify w done) Contact.up w.svc) := by
  obtain ⟨acked, hnotices, hpolicy, -, -, hbranch⟩ := @handleRetval_ok_eq donotify w done hok
  rw [hbranch, tellsAgain]
  split
  next hlast =>
    rw [pageSomeone_notices_eq, hnotices, sends_congr hpolicy, noticeIf_congr hpolicy, hlast, Bool.true_and,
      List.append_assoc]
  next hno =>
    rw [hnotices, eq_false_of_ne_true hno, Bool.false_and]
    exact (congrArg _ (List.append_nil _)).symm

/-- What an OK result counts. -/
theorem handleRetval_ok_upct {donotify : Bool} {w : ObjState} {done : CheckDone} (hok : done.retval = Result.ok) :
    (handleRetval donotify w done).svc.upct = upctThen w.svc := by
  obtain ⟨acked, -, -, -, hupct, hbranch⟩ := @handleRetval_ok_eq donotify w done hok
  rw [hbranch]
  split
  · obtain ⟨_, _, _, _, h⟩ := pageSomeone_svc donotify done.env.second Contact.up acked
    rw [h]
    exact hupct
  · exact hupct

/-- A failure tells at most once, and only while nobody has been told. -/
theorem handleRetval_bad_notices {donotify : Bool} {w : ObjState} {done : CheckDone} (hbad : done.retval ≠ Result.ok) :
    ∃ told : Bool, (handleRetval donotify w done).notices = w.notices ++ noticeIf told Contact.down w.svc ∧
      (told = true → w.svc.contacted = false) ∧
      (told = true ∨ w.svc.contacted = true → (handleRetval donotify w done).svc.contacted = true) := by
  have hpage : ∀ counted : ObjState, counted.notices = w.notices → counted.svc.contacted = w.svc.contacted →
      counted.svc.policy = w.svc.policy →
      ∃ told : Bool, (pageDownIfDue donotify done.env.first counted).notices =
          w.notices ++ noticeIf told Contact.down w.svc ∧
        (told = true → w.svc.contacted = false) ∧
        (told = true ∨ w.svc.contacted = true →
          (pageDownIfDue donotify done.env.first counted).svc.contacted = true) := by
    intro counted hnotices hcontacted hpolicy
    rw [pageDownIfDue]
    split
    next hdue =>
      have hclear : w.svc.contacted = false := hcontacted.symm.trans hdue.2.1
      refine ⟨sends donotify done.env.first Contact.down counted.svc, ?_, fun _ => hclear, fun htold => ?_⟩
      · rw [pageSomeone_notices_eq, hnotices, noticeIf_congr hpolicy]
      · obtain htold | htrue := htold
        · exact pageSomeone_contacted_of_sends htold
        · rw [hclear] at htrue
          exact absurd htrue Bool.false_ne_true
    next =>
      refine ⟨false, ?_, fun h => absurd h Bool.false_ne_true, fun htold => ?_⟩
      · rw [hnotices]
        exact (List.append_nil _).symm
      · rw [hcontacted]
        exact htold.resolve_left Bool.false_ne_true
  by_cases hsame : w.svc.lastcheck = asLastcheck done.retval
  · rw [handleRetval_same hbad hsame]
    have hcounted := countAgain_told (noteResult done.now done.retval w)
    exact hpage _ (hcounted.1.trans (noteResult_notices _ _ _)) (hcounted.2.trans (noteResult_contacted _ _ _))
      ((countAgain_policy _).trans (noteResult_policy _ _ _))
  · rw [handleRetval_changed hbad hsame]
    have hcounted := countFirst_told done.now done.retval (noteResult done.now done.retval w)
    exact hpage _ (hcounted.1.trans (noteResult_notices _ _ _)) (hcounted.2.trans (noteResult_contacted _ _ _))
      ((countFirst_policy _ _ _).trans (noteResult_policy _ _ _))

/-! ### Counting what is told -/

/-- How many notifications for a state have gone out between two states of an object. -/
def toldOf (newstate : Int32) (before after : ObjState) : Nat :=
  (after.notices.drop before.notices.length).countP fun notice => notice.newstate = newstate

/-- An object, with how often it has been told that this outage has begun, and that the last one is over. -/
structure Told where
  w : ObjState
  downs : Nat
  ups : Nat

def Told.start (w : ObjState) : Told := ⟨w, 0, 0⟩

/-- A failure ends the time after a recovery, and an OK result the outage. -/
def Told.step (donotify : Bool) (s : Told) (done : CheckDone) : Told :=
  let w := handleRetval donotify s.w done
  { w := w
    downs := (if done.retval = Result.ok then 0 else s.downs) + toldOf Contact.down s.w w
    ups := (if done.retval = Result.ok then s.ups else 0) + toldOf Contact.up s.w w }

/-- Each transition is told at most once. -/
def OncePerTransition (s : Told) : Prop := s.downs ≤ 1 ∧ s.ups ≤ 1

/-- The last branch of an OK result does not tell of a recovery that has been told. -/
def NotAgain (donotify : Bool) (s : Told) (done : CheckDone) : Prop :=
  done.retval = Result.ok → tellsAgain donotify s.w done = true →
    s.ups = 0 ∧ tellsRecovery donotify s.w done = false

/-- What holds whatever comes: a page of this outage shows in `contacted`, and an outage is no time after a
recovery. -/
structure Told.Kept (s : Told) : Prop where
  once : s.downs ≤ 1
  contacted : 0 < s.downs → s.w.svc.contacted = true
  outage : s.w.svc.lastcheck ≠ 0 → s.ups = 0

theorem toldOf_append {newstate : Int32} {before after : ObjState} {more : List Notice}
    (h : after.notices = before.notices ++ more) :
    toldOf newstate before after = more.countP fun notice => notice.newstate = newstate := by
  rw [toldOf, h, List.drop_left]

theorem countP_noticeIf (told : Bool) (newstate wanted : Int32) (svc : HostInfo) :
    ((noticeIf told newstate svc).countP fun notice => notice.newstate = wanted) =
      if told = true ∧ newstate = wanted then 1 else 0 := by
  cases told with
  | false => rfl
  | true => simp [noticeIf, List.countP_cons]

section step

variable {donotify : Bool} {s : Told} {done : CheckDone}

/-- An OK result. -/
theorem step_ok (hok : done.retval = Result.ok) : (s.step donotify done).downs = 0 ∧
    (s.step donotify done).ups = s.ups + ((if tellsRecovery donotify s.w done = true then 1 else 0) +
      if tellsAgain donotify s.w done = true then 1 else 0) := by
  have hdown : Contact.up ≠ Contact.down := by decide
  have hnotices : (handleRetval donotify s.w done).notices = _ := handleRetval_ok_notices hok
  constructor
  · change (if done.retval = Result.ok then 0 else s.downs) + toldOf Contact.down s.w _ = 0
    rw [if_pos hok, toldOf_append hnotices, List.countP_append, countP_noticeIf, countP_noticeIf, if_neg fun h => hdown h.2,
      if_neg fun h => hdown h.2]
  · change (if done.retval = Result.ok then s.ups else 0) + toldOf Contact.up s.w _ = _
    rw [if_pos hok, toldOf_append hnotices, List.countP_append, countP_noticeIf, countP_noticeIf]
    simp only [and_true]

/-- A failure. -/
theorem step_bad (hbad : done.retval ≠ Result.ok) : (s.step donotify done).ups = 0 ∧
    ∃ told : Bool, (s.step donotify done).downs = s.downs + (if told = true then 1 else 0) ∧
      (told = true → s.w.svc.contacted = false) ∧
      (told = true ∨ s.w.svc.contacted = true → (s.step donotify done).w.svc.contacted = true) := by
  have hup : Contact.down ≠ Contact.up := by decide
  obtain ⟨told, hnotices, hclear, hcontacted⟩ := @handleRetval_bad_notices donotify s.w done hbad
  refine ⟨?_, told, ?_, hclear, hcontacted⟩
  · change (if done.retval = Result.ok then s.ups else 0) + toldOf Contact.up s.w _ = 0
    rw [if_neg hbad, toldOf_append hnotices, countP_noticeIf, if_neg fun h => hup h.2]
  · change (if done.retval = Result.ok then 0 else s.downs) + toldOf Contact.down s.w _ = _
    rw [if_neg hbad, toldOf_append hnotices, countP_noticeIf]
    simp only [and_true]

theorem kept_step (s : Told) (done : CheckDone) (h : s.Kept) : (s.step donotify done).Kept := by
  have hlast : (s.step donotify done).w.svc.lastcheck = asLastcheck done.retval := handleRetval_lastcheck donotify s.w done
  by_cases hok : done.retval = Result.ok
  · have hdowns : (s.step donotify done).downs = 0 := (step_ok hok).1
    refine ⟨by omega, fun hpos => by omega, fun hne => ?_⟩
    rw [hlast, hok] at hne
    exact absurd asLastcheck_ok hne
  · obtain ⟨hups, told, hdowns, hclear, hcontacted⟩ := step_bad hok
    have honce := h.once
    refine ⟨?_, fun hpos => hcontacted ?_, fun _ => hups⟩
    · rw [hdowns]
      split
      next htold =>
        have hnone : ¬0 < s.downs := fun hpos => by
          have hset := h.contacted hpos
          rw [hclear htold] at hset
          exact Bool.false_ne_true hset
        omega
      next => omega
    · by_cases htold : told = true
      · exact Or.inl htold
      · rw [hdowns, if_neg htold] at hpos
        exact Or.inr (h.contacted hpos)

theorem once_step_iff (s : Told) (done : CheckDone) (hkept : s.Kept) (h : OncePerTransition s) :
    OncePerTransition (s.step donotify done) ↔ NotAgain donotify s done := by
  have honce : (s.step donotify done).downs ≤ 1 := (kept_step s done hkept).once
  by_cases hok : done.retval = Result.ok
  · obtain ⟨-, hups⟩ := step_ok hok
    have hfirst : tellsRecovery donotify s.w done = true → s.ups = 0 := by
      intro htells
      rw [tellsRecovery, Bool.and_eq_true, Bool.and_eq_true, bne_iff_ne] at htells
      exact hkept.outage htells.1.2
    have hle := h.2
    rw [OncePerTransition, hups, NotAgain, and_iff_right honce]
    constructor
    · intro hone _ hagain
      rw [if_pos hagain] at hone
      refine ⟨by omega, eq_false_of_ne_true fun hrecovery => ?_⟩
      rw [if_pos hrecovery] at hone
      omega
    · intro hguard
      by_cases hagain : tellsAgain donotify s.w done = true
      · obtain ⟨hzero, hsilent⟩ := hguard hok hagain
        rw [hzero, hsilent, hagain]
        decide
      · rw [if_neg hagain]
        by_cases hrecovery : tellsRecovery donotify s.w done = true
        · rw [if_pos hrecovery, hfirst hrecovery]
        · rw [if_neg hrecovery]
          exact hle
  · obtain ⟨hups, -⟩ := step_bad hok
    refine iff_of_true ⟨honce, ?_⟩ fun hno => absurd hno hok
    rw [hups]
    exact Nat.zero_le 1

end step

theorem always_iff_notAgain (donotify : Bool) (w : ObjState) (results : List CheckDone) :
    Run.Always (Told.step donotify) OncePerTransition (Told.start w) results ↔
      Run.Guarded (Told.step donotify) (NotAgain donotify) (Told.start w) results := by
  apply Run.always_iff_guarded (I := Told.Kept)
  · exact kept_step
  · exact once_step_iff
  · exact ⟨Nat.zero_le 1, fun h => absurd h (Nat.lt_irrefl 0), fun _ => rfl⟩
  · exact ⟨Nat.zero_le 1, Nat.zero_le 1⟩

/-! ### A row of OK results -/

/-- The branch for recoveries tells an object that wants to hear of nothing else. -/
def ReportsUp (donotify : Bool) (w : ObjState) (done : CheckDone) : Prop :=
  donotify = true ∧ w.svc.contactWhen = Contact.up ∧ w.svc.contacted = true ∧ w.svc.lastcheck ≠ 0 ∧
    done.env.first.handover w.svc = .sent

/-- The results of a row of OKs with which the last branch is due, where `upct` stands as given before it. -/
def recoveriesDue (maxDown upct : UInt64) : List CheckDone → List CheckDone
  | [] => []
  | done :: rest => (if maxDown ≤ upct + 1 then [done] else []) ++ recoveriesDue maxDown (upct + 1) rest

/-- What became of the page of the last branch in a row of OKs. -/
def settledAgain (svc : HostInfo) (row : List CheckDone) : Option Handover :=
  outcome svc ((recoveriesDue svc.maxDown svc.upct row).map fun done => done.env.second)

theorem recoveriesDue_concat (maxDown upct : UInt64) (row : List CheckDone) (done : CheckDone) :
    recoveriesDue maxDown upct (row ++ [done]) = recoveriesDue maxDown upct row ++
      if maxDown ≤ upct + UInt64.ofNat (row.length + 1) then [done] else [] := by
  induction row generalizing upct with
  | nil => exact (List.append_nil _).trans (List.nil_append _).symm
  | cons first row ih =>
      have hsum : upct + 1 + UInt64.ofNat (row.length + 1) = upct + UInt64.ofNat ((first :: row).length + 1) := by
        rw [List.length_cons, UInt64.ofNat_add (row.length + 1), UInt64.add_assoc,
          UInt64.add_comm 1]
        rfl
      rw [List.cons_append, recoveriesDue, ih, hsum, recoveriesDue, List.append_assoc]

/-- What the next result of a row of OKs finds, of a row that began with the object down and its contact told. -/
structure OnRow (start w : ObjState) (row : List CheckDone) : Prop where
  policy : w.svc.policy = start.svc.policy
  upct : upctThen w.svc = start.svc.upct + UInt64.ofNat (row.length + 1)
  contacted : (w.svc.contacted && w.svc.lastcheck == 0) = (settledAgain start.svc row).isSome

theorem onRow_start {start : ObjState} (hcontacted : start.svc.contacted = true) (hdown : start.svc.lastcheck ≠ 0) :
    OnRow start start [] := by
  refine ⟨rfl, ?_, ?_⟩
  · rw [upctThen, if_neg fun h => by simp [hcontacted] at h]
    rfl
  · rw [beq_eq_false_iff_ne.mpr hdown, Bool.and_false]
    rfl

section row

variable {start w : ObjState} {row : List CheckDone} (hwhen : start.svc.contactWhen = Contact.up) (h : OnRow start w row)

include hwhen h

theorem OnRow.lastBranch_iff : lastBranch w.svc = true ↔ settledAgain start.svc row = none ∧
    start.svc.maxDown ≤ start.svc.upct + UInt64.ofNat (row.length + 1) := by
  have hmax : w.svc.maxDown = start.svc.maxDown := congrArg PagePolicy.maxDown h.policy
  have hup : w.svc.contactWhen = Contact.up := (congrArg PagePolicy.contactWhen h.policy).trans hwhen
  rw [lastBranch, h.contacted, h.upct, hmax, hup, Bool.and_eq_true, Bool.and_eq_true, Bool.not_eq_true',
    decide_eq_true_eq, decide_eq_true_eq, ← Option.not_isSome_iff_eq_none, Bool.not_eq_true, and_assoc,
    and_iff_right (rfl : Contact.up = Contact.up)]

/-- The page of the last branch with one more result, against what became of it before. -/
theorem OnRow.settledAgain_concat (done : CheckDone) : settledAgain start.svc (row ++ [done]) =
    if lastBranch w.svc = true then outcome start.svc [done.env.second] else settledAgain start.svc row := by
  have hbranch := h.lastBranch_iff hwhen
  rw [settledAgain, recoveriesDue_concat, List.map_append, outcome_append, ← settledAgain]
  by_cases hdue : start.svc.maxDown ≤ start.svc.upct + UInt64.ofNat (row.length + 1)
  · rw [if_pos hdue]
    cases hsettled : settledAgain start.svc row with
    | none => rw [if_pos (hbranch.mpr ⟨hsettled, hdue⟩)]; rfl
    | some outcome => rw [if_neg fun htaken => by simp [hsettled] at hbranch; simp [hbranch] at htaken]; rfl
  · rw [if_neg hdue, if_neg fun htaken => hdue (hbranch.mp htaken).2]
    exact Option.or_none

theorem OnRow.step {done : CheckDone} (hok : done.retval = Result.ok) :
    OnRow start (handleRetval true w done) (row ++ [done]) := by
  have hlast : (handleRetval true w done).svc.lastcheck = 0 := (handleRetval_ok hok).lastcheck
  refine ⟨(handleRetval_policy true w done).trans h.policy, ?_, ?_⟩
  · rw [upctThen, if_neg fun hdown => hdown.2 hlast, handleRetval_ok_upct hok, h.upct, List.length_append,
      UInt64.ofNat_add (row.length + [done].length), UInt64.add_assoc]
    rfl
  · obtain ⟨acked, -, hpolicy, hflag, -, heq⟩ := @handleRetval_ok_eq true w done hok
    rw [h.settledAgain_concat hwhen, hlast, beq_self_eq_true, Bool.and_true, heq]
    split
    next htaken =>
      have hwants : acked.svc.wants Contact.up = true := by
        rw [HostInfo.wants_eq, hpolicy, h.policy, ← HostInfo.wants_eq, HostInfo.wants, hwhen]
        decide
      have hnone := ((h.lastBranch_iff hwhen).mp htaken).1
      rw [pageSomeone_contacted hwants, hflag, h.contacted, hnone,
        HostInfo.handover_congr (hpolicy.trans h.policy)]
      cases houtcome : done.env.second.handover start.svc <;> simp [outcome, houtcome]
    next => exact hflag.trans h.contacted

/-- The last branch tells with the result that settles its page. -/
theorem OnRow.tellsAgain_iff (done : CheckDone) : tellsAgain true w done = true ↔
    settledAgain start.svc row ≠ some .sent ∧ settledAgain start.svc (row ++ [done]) = some .sent := by
  have hwants : w.svc.wants Contact.up = true := by
    rw [HostInfo.wants_eq, h.policy, ← HostInfo.wants_eq, HostInfo.wants, hwhen]
    decide
  rw [tellsAgain, sends, hwants, HostInfo.handover_congr h.policy, Bool.and_eq_true, Bool.true_and, Bool.true_and,
    decide_eq_true_eq, h.settledAgain_concat hwhen]
  by_cases htaken : lastBranch w.svc = true
  · rw [if_pos htaken, ((h.lastBranch_iff hwhen).mp htaken).1]
    cases houtcome : done.env.second.handover start.svc <;> simp [outcome, houtcome, htaken]
  · rw [if_neg htaken]
    exact iff_of_false (fun hboth => htaken hboth.1) fun hboth => hboth.1 hboth.2

end row

theorem told_w (donotify : Bool) (w : ObjState) (results : List CheckDone) :
    (Run.exec (Told.step donotify) (Told.start w) results).w = handleAll donotify w results := by
  induction results using List.reverseRecOn with
  | nil => rfl
  | append_singleton results done ih =>
      rw [Run.exec_concat, handleAll_concat, ← ih]
      rfl

/-- A row of OKs from a state that begins one. -/
theorem onRow_handleAll {donotify : Bool} {start : ObjState} {first : CheckDone} (hreports : ReportsUp donotify start first)
    {row : List CheckDone} (hok : ∀ done ∈ row, done.retval = Result.ok) :
    OnRow start (handleAll donotify start row) row := by
  obtain ⟨rfl, hwhen, hcontacted, hdown, -⟩ := hreports
  induction row using List.reverseRecOn with
  | nil => exact onRow_start hcontacted hdown
  | append_singleton row done ih =>
      rw [handleAll_concat]
      exact (ih fun d hd => hok d (List.mem_append_left _ hd)).step hwhen (hok done (by simp))

theorem reportsUp_iff {donotify : Bool} {w : ObjState} {done : CheckDone} (hwhen : w.svc.contactWhen = Contact.up) :
    ReportsUp donotify w done ↔ tellsRecovery donotify w done = true := by
  have hwants : w.svc.wants Contact.up = true := by
    rw [HostInfo.wants, hwhen]
    decide
  rw [ReportsUp, tellsRecovery, sends, hwants, Bool.and_true, Bool.and_eq_true, Bool.and_eq_true, Bool.and_eq_true,
    decide_eq_true_eq, bne_iff_ne]
  tauto

/-- The run is in a row of OKs of which the first has told of the recovery. -/
def Recovering (donotify : Bool) (w : ObjState) (results : List CheckDone) : Prop :=
  ∃ before first row, results = before ++ first :: row ∧ (∀ done ∈ first :: row, done.retval = Result.ok) ∧
    ReportsUp donotify (handleAll donotify w before) first

/-- In a row that has been reported the recovery has been told. -/
theorem ups_of_reportsUp {donotify : Bool} {w : ObjState} {before row : List CheckDone} {first : CheckDone}
    (hreports : ReportsUp donotify (handleAll donotify w before) first)
    (hok : ∀ done ∈ first :: row, done.retval = Result.ok) :
    0 < (Run.exec (Told.step donotify) (Told.start w) (before ++ first :: row)).ups := by
  induction row using List.reverseRecOn with
  | nil =>
      have hups := (@step_ok donotify (Run.exec (Told.step donotify) (Told.start w) before) first
        (hok first (by simp))).2
      have htells := (reportsUp_iff hreports.2.1).mp hreports
      rw [Run.exec_concat, hups, told_w, if_pos htells]
      omega
  | append_singleton row done ih =>
      have hrow := ih fun d hd => hok d (List.cons_append ▸ List.mem_append_left [done] hd)
      have hups := (@step_ok donotify (Run.exec (Told.step donotify) (Told.start w) (before ++ first :: row)) done
        (hok done (by simp))).2
      rw [← List.cons_append, ← List.append_assoc, Run.exec_concat, hups]
      omega

/-- Where an object that wants to hear of recoveries only has been told of one, its row has been reported, or the last
branch has told and is closed for the rest of the row. -/
theorem recovering_of_ups {donotify : Bool} {w : ObjState} (hwhen : w.svc.contactWhen = Contact.up)
    (results : List CheckDone) (h : 0 < (Run.exec (Told.step donotify) (Told.start w) results).ups) :
    Recovering donotify w results ∨ (handleAll donotify w results).svc.contacted = true ∧
      (handleAll donotify w results).svc.lastcheck = 0 := by
  induction results using List.reverseRecOn with
  | nil => exact absurd h (Nat.lt_irrefl 0)
  | append_singleton results done ih =>
      set s := Run.exec (Told.step donotify) (Told.start w) results with hs
      have hw : s.w = handleAll donotify w results := told_w donotify w results
      have hwhen' : s.w.svc.contactWhen = Contact.up := by rw [hw, handleAll_contactWhen, hwhen]
      rw [Run.exec_concat, ← hs] at h
      by_cases hok : done.retval = Result.ok
      · have hzero : (handleRetval donotify s.w done).svc.lastcheck = 0 := (handleRetval_ok hok).lastcheck
        rw [(step_ok hok).2] at h
        rw [handleAll_concat, ← hw]
        by_cases hrecovery : tellsRecovery donotify s.w done = true
        · refine Or.inl ⟨results, done, [], rfl, by simpa using hok, ?_⟩
          rw [← hw]
          exact (reportsUp_iff hwhen').mpr hrecovery
        · rw [if_neg hrecovery] at h
          obtain ⟨acked, -, hpolicy, hflag, -, heq⟩ := @handleRetval_ok_eq donotify s.w done hok
          by_cases hagain : tellsAgain donotify s.w done = true
          · refine Or.inr ⟨?_, hzero⟩
            rw [tellsAgain, Bool.and_eq_true] at hagain
            rw [heq, if_pos hagain.1]
            exact pageSomeone_contacted_of_sends ((sends_congr hpolicy _ _ _).trans hagain.2)
          · rw [if_neg hagain] at h
            obtain ⟨before, first, row, rfl, hrow, hreports⟩ | ⟨hcontacted, hdown⟩ := ih (by omega)
            · refine Or.inl ⟨before, first, row ++ [done], by simp, fun d hd => ?_, hreports⟩
              rw [← List.cons_append, List.mem_append, List.mem_singleton] at hd
              obtain hold | rfl := hd
              · exact hrow d hold
              · exact hok
            · refine Or.inr ⟨?_, hzero⟩
              rw [← hw] at hcontacted hdown
              have hclosed : lastBranch s.w.svc = false := by rw [lastBranch, hcontacted, hdown]; rfl
              rw [heq, hclosed, if_neg Bool.false_ne_true, hflag, hcontacted, hdown]
              rfl
      · rw [(step_bad hok).1] at h
        exact absurd h (Nat.lt_irrefl 0)

theorem settledAgain_nil (svc : HostInfo) : settledAgain svc [] = none := rfl

/-- The page of a row goes out with one of its results. -/
theorem exists_settles {svc : HostInfo} {row : List CheckDone} (h : settledAgain svc row = some .sent) :
    ∃ init last rest, row = init ++ last :: rest ∧ settledAgain svc init ≠ some .sent ∧
      settledAgain svc (init ++ [last]) = some .sent := by
  induction row using List.reverseRecOn with
  | nil => exact absurd h (by simp [settledAgain_nil])
  | append_singleton row done ih =>
      by_cases hearlier : settledAgain svc row = some .sent
      · obtain ⟨init, last, rest, rfl, hno, hsent⟩ := ih hearlier
        exact ⟨init, last, rest ++ [done], by simp, hno, hsent⟩
      · exact ⟨row, done, [], rfl, hearlier, h⟩

/-- In a run each outage and each recovery is told at most once, exactly if no object that wants to hear of recoveries
only is told of one in the branch for recoveries and then, in the same row of OK results, comes to the last branch
with a page that is handed over. -/
theorem once_per_transition_iff (donotify : Bool) (w : ObjState) (results : List CheckDone) :
    Run.Always (Told.step donotify) OncePerTransition (Told.start w) results ↔
      ∀ before first row, before ++ first :: row <+: results → (∀ done ∈ first :: row, done.retval = Result.ok) →
        ReportsUp donotify (handleAll donotify w before) first →
          settledAgain (handleAll donotify w before).svc (first :: row) ≠ some .sent := by
  rw [always_iff_notAgain]
  constructor
  · intro hguard before first row hprefix hok hreports hsent
    have hnotify := hreports.1
    subst hnotify
    obtain ⟨init, last, rest, hsplit, hno, hsettles⟩ := exists_settles hsent
    have hmem : ∀ done ∈ init ++ [last], done ∈ first :: row := by
      intro done hdone
      rw [hsplit, List.append_cons]
      exact List.mem_append_left rest hdone
    have hrow := @onRow_handleAll _ _ _ hreports init fun done hdone => hok done (hmem done (by simp [hdone]))
    have hagain := (hrow.tellsAgain_iff hreports.2.1 last).mpr ⟨hno, hsettles⟩
    have hreach : (before ++ init) ++ [last] <+: results := by
      refine List.IsPrefix.trans ?_ hprefix
      rw [hsplit, List.append_assoc]
      exact (List.prefix_append_right_inj before).mpr
        ((List.prefix_append_right_inj init).mpr (List.cons_prefix_cons.mpr ⟨rfl, List.nil_prefix⟩))
    obtain ⟨hups, hsilent⟩ := hguard (before ++ init) last hreach (hok last (hmem last (by simp)))
      (by rw [told_w, handleAll_append]; exact hagain)
    cases init with
    | nil =>
        obtain ⟨rfl, -⟩ := List.cons.inj hsplit
        have htells := (reportsUp_iff hreports.2.1).mp hreports
        rw [List.append_nil, told_w, htells] at hsilent
        exact Bool.false_ne_true hsilent.symm
    | cons second init =>
        obtain ⟨rfl, -⟩ := List.cons.inj hsplit
        have htold := @ups_of_reportsUp _ _ _ init _ hreports fun done hdone =>
          hok done (hmem done (List.mem_append_left [last] hdone))
        omega
  · intro hrows before done hprefix hok hagain
    rw [told_w] at hagain ⊢
    have htaken : lastBranch (handleAll donotify w before).svc = true := (Bool.and_eq_true_iff.mp hagain).1
    have hwhen : (handleAll donotify w before).svc.contactWhen = Contact.up := by
      rw [lastBranch, Bool.and_eq_true, Bool.and_eq_true, decide_eq_true_eq] at htaken
      exact htaken.1.2
    have hnotify : donotify = true := by
      rw [tellsAgain, sends, Bool.and_eq_true, Bool.and_eq_true, Bool.and_eq_true] at hagain
      exact hagain.2.1.1
    subst hnotify
    -- a row that has been reported, with this result as its last
    have hclosed : ∀ before' first row, before' ++ first :: row <+: results →
        (∀ d ∈ first :: row, d.retval = Result.ok) → ReportsUp true (handleAll true w before') first →
          ∀ init, first :: row = init ++ [done] → before = before' ++ init → False := by
      intro before' first row hreach hall hreports init hsplit hbefore
      have hrow := @onRow_handleAll _ _ _ hreports init fun d hd => hall d (hsplit ▸ List.mem_append_left _ hd)
      rw [hbefore, handleAll_append] at hagain
      refine hrows before' first row hreach hall hreports ?_
      rw [hsplit]
      exact ((hrow.tellsAgain_iff hreports.2.1 done).mp hagain).2
    refine ⟨Nat.eq_zero_of_not_pos fun htold => ?_, eq_false_of_ne_true fun hrecovery => ?_⟩
    · rw [handleAll_contactWhen] at hwhen
      obtain ⟨before', first, row, rfl, hall, hreports⟩ | ⟨hcontacted, hdown⟩ := recovering_of_ups hwhen before htold
      · refine hclosed before' first (row ++ [done]) (by simpa using hprefix) (fun d hd => ?_) hreports (first :: row)
          rfl rfl
        rw [← List.cons_append, List.mem_append, List.mem_singleton] at hd
        obtain hold | rfl := hd
        · exact hall d hold
        · exact hok
      · rw [lastBranch, hcontacted, hdown] at htaken
        exact Bool.false_ne_true htaken
    · exact hclosed before done [] hprefix (by simpa using hok) ((reportsUp_iff hwhen).mpr hrecovery) [] rfl
        (List.append_nil _).symm

/-- An object that only wants to hear of recoveries, and is told of each with the first OK result after it. -/
def upOnly : ObjState := { freshObject 1 with svc := { (freshObject 1).svc with contactWhen := Contact.up } }

/-- It comes up, fails, and comes up again: that it has is told twice, in one call. -/
theorem recovery_told_twice : ¬Run.Always (Told.step true) OncePerTransition (Told.start upOnly)
    [healthyCheck Result.ok 100, healthyCheck Result.connref 160, healthyCheck Result.ok 220] := by
  intro h
  have hups := (h _ List.prefix_rfl).2
  exact absurd hups (by decide)

end Sysmon
