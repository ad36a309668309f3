import Sysmon.Check.Retval
import Sysmon.Lib.Run

/-!
# When an outage is paged

An outage is a row of results that are not OK. `handle_retval` counts failures in `downct`, and
starts the count again at every change of the failure kind, so what decides whether somebody is told
is not how long the outage has lasted but whether one kind of failure came `max_down` times in a
row inside it. This module says so exactly: the notification has gone out if and only if such a row
came and the page it led to could be handed over.
-/

namespace Sysmon

/-- The daemon takes in results one after another. -/
def handleAll (donotify : Bool) (w : ObjState) (results : List CheckDone) : ObjState :=
  Run.exec (handleRetval donotify) w results

theorem handleAll_concat (donotify : Bool) (w : ObjState) (results : List CheckDone)
    (done : CheckDone) : handleAll donotify w (results ++ [done]) =
      handleRetval donotify (handleAll donotify w results) done := Run.exec_concat _ _ _ _

theorem handleAll_append (donotify : Bool) (w : ObjState) (before after : List CheckDone) :
    handleAll donotify w (before ++ after) =
      handleAll donotify (handleAll donotify w before) after := Run.exec_append _ _ _ _

/-- The object is up and nobody is on record as told otherwise. -/
def Up (w : ObjState) : Prop := w.svc.lastcheck = 0 ∧ w.svc.contacted = false

/-- A DOWN notification left the daemon between two states of an object. -/
def DownSent (before after : ObjState) : Prop :=
  ∃ notice ∈ after.notices.drop before.notices.length, notice.newstate = Contact.down

instance (before after : ObjState) : Decidable (DownSent before after) :=
  inferInstanceAs (Decidable (∃ notice ∈ _, _))

/-- Results that are the start of the whole history or come right after an OK result, so that an
outage may begin after them. -/
def EndsOk (results : List CheckDone) : Prop :=
  ∀ last ∈ results.getLast?, last.retval = Result.ok

/-- The outage is paged: after `max_down` or more consecutive failures a DOWN notification has been
sent for it. -/
def OutagePaged (donotify : Bool) (w : ObjState) (before outage : List CheckDone) : Prop :=
  w.svc.maxDown.toNat ≤ outage.length →
    DownSent (handleAll donotify w before) (handleAll donotify w (before ++ outage))

/-! ### Rows of one failure kind

Results are read newest first here, as `downct` grows at the newest end. -/

/-- How many results of the newest kind came in a row. -/
def rowLength : List CheckDone → Nat
  | [] => 0
  | [_] => 1
  | newest :: prior :: older =>
      if newest.retval = prior.retval then rowLength (prior :: older) + 1 else 1

/-- The results at which a page is due: the row has reached `max_down`, counted as `downct` counts. -/
def pagesDue (maxDown : UInt64) : List CheckDone → List CheckDone
  | [] => []
  | newest :: older =>
      pagesDue maxDown older ++
        if maxDown ≤ UInt64.ofNat (rowLength (newest :: older)) then [newest] else []

/-- What becomes of a page that is asked for until somebody is on record as contacted: the first one
that is not refused settles it. -/
def outcome (svc : HostInfo) (pages : List PageEnv) : Option Handover :=
  (pages.map fun env => env.handover svc).find? (· ≠ .refused)

/-- What became of the page of an outage. -/
def settled (svc : HostInfo) (due : List CheckDone) : Option Handover :=
  outcome svc (due.map fun done => done.env.first)

theorem outcome_append (svc : HostInfo) (pages more : List PageEnv) :
    outcome svc (pages ++ more) = (outcome svc pages).or (outcome svc more) := by
  rw [outcome, List.map_append, List.find?_append]
  rfl

theorem settled_append (svc : HostInfo) (due more : List CheckDone) :
    settled svc (due ++ more) = (settled svc due).or (settled svc more) := by
  rw [settled, List.map_append, outcome_append]
  rfl

/-- What the object looks like inside an outage of the given results, newest first. -/
structure InOutage (start w : ObjState) (results : List CheckDone) : Prop where
  policy : w.svc.policy = start.svc.policy
  lastcheck : ∀ newest ∈ results.head?, w.svc.lastcheck = asLastcheck newest.retval
  fresh : results = [] → w.svc.lastcheck = 0
  downct : results ≠ [] → w.svc.downct = UInt64.ofNat (rowLength results)
  contacted : w.svc.contacted = (settled start.svc (pagesDue start.svc.maxDown results)).isSome
  notices : w.notices = start.notices ++
    if settled start.svc (pagesDue start.svc.maxDown results) = some .sent then
      [start.svc.notice Contact.down] else []

section step

variable {start : ObjState} (hwants : start.svc.wants Contact.down = true)

include hwants

/-- The page at the end of a result, against the pages that were due before it. -/
theorem pageDownIfDue_settled {w : ObjState} (done : CheckDone) {due : List CheckDone}
    (hpolicy : w.svc.policy = start.svc.policy)
    (hcontacted : w.svc.contacted = (settled start.svc due).isSome)
    (hnotices : w.notices = start.notices ++
      if settled start.svc due = some .sent then [start.svc.notice Contact.down] else []) :
    let due' := due ++ if start.svc.maxDown ≤ w.svc.downct then [done] else []
    (pageDownIfDue true done.env.first w).svc.contacted = (settled start.svc due').isSome ∧
      (pageDownIfDue true done.env.first w).notices = start.notices ++
        if settled start.svc due' = some .sent then [start.svc.notice Contact.down] else [] := by
  have hmax : w.svc.maxDown = start.svc.maxDown := congrArg PagePolicy.maxDown hpolicy
  have hcommand : w.svc.command = start.svc.command := congrArg PagePolicy.command hpolicy
  have hwants' : w.svc.wants Contact.down = true := by
    rw [HostInfo.wants_eq, hpolicy]
    exact hwants
  have hnotice : w.svc.notice Contact.down = start.svc.notice Contact.down := by
    simp only [HostInfo.notice, hcommand]
  have hhandover := HostInfo.handover_congr hpolicy done.env.first
  dsimp only
  by_cases hdue : start.svc.maxDown ≤ w.svc.downct
  · rw [if_pos hdue, settled_append]
    cases hsettled : settled start.svc due with
    | some outcome =>
        -- somebody is on record as contacted, so this result pages nobody
        have hno : w.svc.contacted ≠ false := by simp [hcontacted, hsettled]
        rw [pageDownIfDue, if_neg fun h => hno h.2.1, hcontacted, hnotices, hsettled]
        simp
    | none =>
        have hyes : w.svc.contacted = false := by simp [hcontacted, hsettled]
        rw [pageDownIfDue, if_pos ⟨hmax ▸ hdue, hyes, hwants'⟩,
          pageSomeone_contacted hwants', pageSomeone_notices hwants', hyes,
          hnotices, hsettled, hhandover, hnotice]
        cases houtcome : done.env.first.handover start.svc <;> simp [settled, outcome, houtcome]
  · rw [if_neg hdue, List.append_nil, pageDownIfDue, if_neg fun h => hdue (hmax ▸ h.1)]
    exact ⟨hcontacted, hnotices⟩

/-- One more failure of the outage. -/
theorem InOutage.step {w : ObjState} {results : List CheckDone} {done : CheckDone}
    (h : InOutage start w results) (hbad : done.retval ≠ Result.ok) :
    InOutage start (handleRetval true w done) (done :: results) := by
  have hkind : asLastcheck done.retval ≠ 0 := fun hzero => hbad (asLastcheck_eq_zero.mp hzero)
  -- what is left once the counters stand: one page, against the pages due before
  have close : ∀ counted : ObjState,
      handleRetval true w done = pageDownIfDue true done.env.first counted →
      counted.svc.policy = w.svc.policy →
      counted.svc.lastcheck = asLastcheck done.retval →
      counted.svc.contacted = w.svc.contacted → counted.notices = w.notices →
      counted.svc.downct = UInt64.ofNat (rowLength (done :: results)) →
      InOutage start (handleRetval true w done) (done :: results) := by
    intro counted heq hpolicy hlast hcontacted hnotices hdownct
    obtain ⟨hcontacted', hnotices'⟩ := pageDownIfDue_settled hwants done
      (hpolicy.trans h.policy) (hcontacted.trans h.contacted) (hnotices.trans h.notices)
    rw [hdownct] at hcontacted' hnotices'
    rw [heq]
    exact {
      policy := by rw [pageDownIfDue_policy, hpolicy, h.policy]
      lastcheck := by
        intro newest hnewest
        cases hnewest
        rw [pageDownIfDue_lastcheck, hlast]
      fresh := fun hnil => absurd hnil (List.cons_ne_nil _ _)
      downct := fun _ => by rw [pageDownIfDue_downct, hdownct]
      contacted := hcontacted'
      notices := hnotices' }
  by_cases hsame : w.svc.lastcheck = asLastcheck done.retval
  · cases results with
    | nil => exact absurd (hsame.symm.trans (h.fresh rfl)) hkind
    | cons prior older =>
        have hprior : done.retval = prior.retval :=
          asLastcheck_injective (hsame.symm.trans (h.lastcheck prior rfl))
        refine close _ (handleRetval_same hbad hsame)
          ((countAgain_policy _).trans (noteResult_policy _ _ _)) (by simpa [countAgain] using hsame) (by simp [countAgain]) (by simp [countAgain]) ?_
        rw [rowLength, if_pos hprior, UInt64.ofNat_add, ← h.downct (List.cons_ne_nil _ _)]
        simp [countAgain]
  · refine close _ (handleRetval_changed hbad hsame)
      ((countFirst_policy _ _ _).trans (noteResult_policy _ _ _)) rfl (by simp [countFirst]) (by simp [countFirst]) ?_
    have hrow : rowLength (done :: results) = 1 := by
      cases results with
      | nil => rfl
      | cons prior older =>
          have hprior : done.retval ≠ prior.retval := by
            intro heq
            exact hsame (heq ▸ h.lastcheck prior rfl)
          rw [rowLength, if_neg hprior]
    rw [hrow]
    rfl

/-- A whole outage, in the order its results came. -/
theorem inOutage_handleAll (hstart : Up start) {outage : List CheckDone}
    (hbad : ∀ done ∈ outage, done.retval ≠ Result.ok) :
    InOutage start (handleAll true start outage) outage.reverse := by
  induction outage using List.reverseRecOn with
  | nil =>
      exact {
        policy := rfl
        lastcheck := by simp
        fresh := fun _ => hstart.1
        downct := fun h => absurd rfl h
        contacted := hstart.2
        notices := by simp [handleAll, settled, outcome, pagesDue] }
  | append_singleton outage done ih =>
      have hinit := ih fun d hd => hbad d (List.mem_append_left _ hd)
      have hstep := hinit.step hwants (hbad done (by simp))
      rw [List.reverse_concat, handleAll_concat]
      exact hstep

end step

/-! ### Where an outage starts -/

/-- The flag the paging code keeps belongs to an outage that is going on. -/
def FlagInOutage (w : ObjState) : Prop := w.svc.contacted = true → w.svc.lastcheck ≠ 0

theorem handleRetval_flagInOutage {donotify : Bool} {w : ObjState}
    (hwhen : w.svc.contactWhen ≠ Contact.up) (h : FlagInOutage w) (done : CheckDone) :
    FlagInOutage (handleRetval donotify w done) := by
  intro hcontacted
  by_cases hok : done.retval = Result.ok
  · -- an OK result takes the flag down, since it was only up inside an outage
    rw [(handleRetval_ok hok).contacted hwhen, Bool.and_eq_true, beq_iff_eq] at hcontacted
    exact absurd hcontacted.2 (h hcontacted.1)
  · rw [handleRetval_lastcheck]
    exact fun hzero => hok (asLastcheck_eq_zero.mp hzero)

theorem handleAll_policy (donotify : Bool) (w : ObjState) (results : List CheckDone) :
    (handleAll donotify w results).svc.policy = w.svc.policy := by
  induction results generalizing w with
  | nil => rfl
  | cons done results ih =>
      have hrest := ih (handleRetval donotify w done)
      rw [handleRetval_policy] at hrest
      exact hrest

theorem handleAll_contactWhen (donotify : Bool) (w : ObjState) (results : List CheckDone) :
    (handleAll donotify w results).svc.contactWhen = w.svc.contactWhen :=
  congrArg PagePolicy.contactWhen (handleAll_policy donotify w results)

theorem handleAll_flagInOutage {donotify : Bool} {w : ObjState}
    (hwhen : w.svc.contactWhen ≠ Contact.up) (h : FlagInOutage w) (results : List CheckDone) :
    FlagInOutage (handleAll donotify w results) := by
  induction results using List.reverseRecOn with
  | nil => exact h
  | append_singleton results done ih =>
      rw [handleAll_concat]
      refine handleRetval_flagInOutage ?_ ih done
      rw [handleAll_contactWhen]
      exact hwhen

/-- An OK result leaves the object up, whatever came before it. -/
theorem up_of_endsOk {donotify : Bool} {w : ObjState} (hwhen : w.svc.contactWhen ≠ Contact.up)
    (hup : Up w) {results : List CheckDone} (hends : EndsOk results) :
    Up (handleAll donotify w results) := by
  induction results using List.reverseRecOn with
  | nil => exact hup
  | append_singleton results done _ =>
      have hok : done.retval = Result.ok := hends done (by simp)
      have hflag : FlagInOutage (handleAll donotify w results) :=
        handleAll_flagInOutage hwhen (fun hcontacted => by simp [hup.2] at hcontacted) results
      rw [handleAll_concat]
      have hafter : AfterOk (handleAll donotify w results)
          (handleRetval donotify (handleAll donotify w results) done) := handleRetval_ok hok
      refine ⟨hafter.lastcheck, ?_⟩
      rw [hafter.contacted (by rwa [handleAll_contactWhen])]
      by_cases hcontacted : (handleAll donotify w results).svc.contacted = true
      · simp [hflag hcontacted]
      · simp [hcontacted]

/-- A DOWN notification inside an outage is exactly a page of it that was handed over. -/
theorem InOutage.downSent_iff {start w : ObjState} {results : List CheckDone}
    (h : InOutage start w results) :
    DownSent start w ↔ settled start.svc (pagesDue start.svc.maxDown results) = some .sent := by
  rw [DownSent, h.notices, List.drop_left]
  by_cases hsent : settled start.svc (pagesDue start.svc.maxDown results) = some .sent
  · simp [hsent]
  · simp [hsent]

theorem outcome_congr {left right : HostInfo} (h : left.policy = right.policy) (pages : List PageEnv) :
    outcome left pages = outcome right pages := by
  have hsame : (fun env : PageEnv => env.handover left) = fun env => env.handover right := by
    funext env
    exact HostInfo.handover_congr h env
  rw [outcome, outcome, hsame]

theorem settled_congr {left right : HostInfo} (h : left.policy = right.policy)
    (due : List CheckDone) : settled left due = settled right due := outcome_congr h _

theorem contactWhen_ne_up {svc : HostInfo} (hwants : svc.wants Contact.down = true) :
    svc.contactWhen ≠ Contact.up := by
  intro hup
  rw [HostInfo.wants, hup] at hwants
  exact absurd hwants (by decide)

/-- An outage is paged exactly when it is still shorter than `max_down`, or when one kind of failure
came `max_down` times in a row in it and the page that was then due could be handed over. -/
theorem outagePaged_iff {w : ObjState} {before outage : List CheckDone} (hup : Up w)
    (hwants : w.svc.wants Contact.down = true) (hends : EndsOk before)
    (hbad : ∀ done ∈ outage, done.retval ≠ Result.ok) :
    OutagePaged true w before outage ↔
      outage.length < w.svc.maxDown.toNat ∨
        settled w.svc (pagesDue w.svc.maxDown outage.reverse) = some .sent := by
  set start := handleAll true w before with hstart
  have hpolicy : start.svc.policy = w.svc.policy := handleAll_policy true w before
  have hmax : start.svc.maxDown = w.svc.maxDown := congrArg PagePolicy.maxDown hpolicy
  have hwants' : start.svc.wants Contact.down = true := by
    rw [HostInfo.wants_eq, hpolicy]
    exact hwants
  have hrun : InOutage start (handleAll true start outage) outage.reverse :=
    inOutage_handleAll hwants' (up_of_endsOk (contactWhen_ne_up hwants) hup hends) hbad
  have hsent := hrun.downSent_iff
  rw [hmax, settled_congr hpolicy] at hsent
  rw [OutagePaged, handleAll_append, ← hstart, hsent]
  constructor
  · intro h
    by_cases hlong : w.svc.maxDown.toNat ≤ outage.length
    · exact Or.inr (h hlong)
    · exact Or.inl (by omega)
  · rintro (hshort | hpaged) hlong
    · omega
    · exact hpaged

/-! ### An object on a line that fails in two ways -/

/-- A system on which every page goes out. -/
def PageEnv.healthy : PageEnv where
  fork := true
  pwuid := true
  popen := true
  popenCommand := true
  system := true
  clock := 0
  msgid := []

/-- An object that has just been configured, with somebody to contact both ways. -/
def freshObject (maxDown : UInt64) : ObjState where
  svc := { HostInfo.zeroed with
    contact := some ['n', 'o', 'c'], contactWhen := Contact.down ||| Contact.up, maxDown := maxDown }
  globChangeSeq := 0
  notices := []

def healthyCheck (retval : Int16) (now : Time) : CheckDone where
  retval := retval
  now := now
  env := ⟨.healthy, .healthy⟩

/-- Two failures of one kind page; the theorem at an outage of one kind, after a failure and its
recovery. -/
theorem outagePaged_one_kind :
    OutagePaged true (freshObject 2)
      [healthyCheck Result.connref 100, healthyCheck Result.ok 160]
      [healthyCheck Result.timedout 220, healthyCheck Result.timedout 280] := by
  refine (outagePaged_iff (w := freshObject 2) (by unfold Up; decide) (by decide)
    (by unfold EndsOk; decide) (by decide)).mpr (Or.inr (by decide))

/-- Two failures of two kinds do not, on a system where nothing else goes wrong: the refused
connection has been forgotten when the time-out comes. -/
theorem outage_of_two_kinds_not_paged :
    Up (freshObject 2) ∧ (freshObject 2).svc.hasContact = true ∧
      (freshObject 2).svc.wants Contact.down = true ∧ EndsOk [] ∧
      ¬ OutagePaged true (freshObject 2) []
        [healthyCheck Result.connref 100, healthyCheck Result.timedout 160] := by
  unfold Up EndsOk OutagePaged
  decide

end Sysmon
