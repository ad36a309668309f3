import Sysmon.Host

/-!
# Telling somebody

`page_someone` and `run_command_and_mail_output` of `page.c`, with `object_changed` of `lib.c`. What
the functions ask of the system comes in as `PageEnv`, so that every way a page can fail to go out is
there: the child of a spawn command that could not be forked, the passwd entry that is not found, the
pipe from the command or to sendmail that does not open. What reached a contact goes out as a
`Notice`.
-/

namespace Sysmon

/-- What the system answers while one page goes out. -/
structure PageEnv where
  /-- `fork()` made the child that runs the spawn command. -/
  fork : Bool
  /-- `getpwuid()` found the daemon's own entry. -/
  pwuid : Bool
  /-- `popen()` opened the pipe to sendmail. -/
  popen : Bool
  /-- `popen()` opened the pipe from the spawn command. -/
  popenCommand : Bool
  /-- `system()` ran the spawn command, where nobody is there to mail its output to. -/
  system : Bool
  /-- What `time()` says. -/
  clock : Time
  /-- What `gen_msgid()` draws. -/
  msgid : CStr
  deriving DecidableEq, Repr

/-- A notification that left the daemon, with the `newstate` it was sent for. -/
inductive Notice where
  | spawned (newstate : Int32)
  | mailed (newstate : Int32)
  deriving DecidableEq, Repr

def Notice.newstate : Notice → Int32
  | .spawned newstate => newstate
  | .mailed newstate => newstate

/-- An object, the global change counter, and the notifications sent so far, oldest first. -/
structure ObjState where
  svc : HostInfo
  globChangeSeq : UInt64
  notices : List Notice
  deriving DecidableEq, Repr

def objectChanged (w : ObjState) : ObjState :=
  { w with
    svc := { w.svc with changeSeq := w.globChangeSeq + 1 }
    globChangeSeq := w.globChangeSeq + 1 }

/-- The object wants to be contacted about `newstate`: `svc->contact_when & newstate`. -/
def HostInfo.wants (svc : HostInfo) (newstate : Int32) : Bool := svc.contactWhen &&& newstate != 0

/-- `run_command_and_mail_output`, as what its child sends. -/
def runCommandAndMailOutput (env : PageEnv) (svc : HostInfo) (newstate : Int32) : List Notice :=
  if !env.fork then []
  -- the child returns into a daemon of its own, and nobody hears of this page
  else if !env.pwuid then []
  else if !svc.hasContact then if env.system then [.spawned newstate] else []
  -- the child goes on with a `FILE *` that is `NULL` and dies before anything has left its buffers
  else if !env.popenCommand || !env.popen then []
  else [.spawned newstate]

def pageSomeone (donotify : Bool) (env : PageEnv) (newstate : Int32) (w : ObjState) : ObjState :=
  if w.svc.command.isSome && donotify && w.svc.wants newstate then
    -- the parent goes on at once, whatever becomes of the child
    let w := { w with notices := w.notices ++ runCommandAndMailOutput env w.svc newstate }
    objectChanged { w with svc := { w.svc with lastcontacted := env.clock, contacted := true } }
  else if !w.svc.hasContact then
    objectChanged { w with svc := { w.svc with contacted := true } }
  else if donotify && w.svc.wants newstate then
    if !env.pwuid then w
    else
      let w := objectChanged
        { w with svc := { w.svc with lastcontacted := env.clock, contacted := true } }
      if !env.popen then w
      else
        { w with
          svc := { w.svc with lastmsgid := some env.msgid }
          notices := w.notices ++ [.mailed newstate] }
  else w

/-! ### What paging can change -/

/-- A page writes four fields of the object and nothing else. -/
theorem pageSomeone_svc (donotify : Bool) (env : PageEnv) (newstate : Int32) (w : ObjState) :
    ∃ changeSeq lastcontacted contacted lastmsgid,
      (pageSomeone donotify env newstate w).svc =
        { w.svc with
          changeSeq := changeSeq, lastcontacted := lastcontacted, contacted := contacted,
          lastmsgid := lastmsgid } := by
  unfold pageSomeone objectChanged
  repeat' split
  all_goals exact ⟨_, _, _, _, rfl⟩

section frame

variable (donotify : Bool) (env : PageEnv) (newstate : Int32) (w : ObjState)

@[simp] theorem pageSomeone_lastcheck :
    (pageSomeone donotify env newstate w).svc.lastcheck = w.svc.lastcheck := by
  obtain ⟨_, _, _, _, h⟩ := pageSomeone_svc donotify env newstate w
  rw [h]

@[simp] theorem pageSomeone_downct :
    (pageSomeone donotify env newstate w).svc.downct = w.svc.downct := by
  obtain ⟨_, _, _, _, h⟩ := pageSomeone_svc donotify env newstate w
  rw [h]

@[simp] theorem pageSomeone_deathtime :
    (pageSomeone donotify env newstate w).svc.deathtime = w.svc.deathtime := by
  obtain ⟨_, _, _, _, h⟩ := pageSomeone_svc donotify env newstate w
  rw [h]

end frame

/-! ### What becomes of a page that is wanted -/

/-- What handing a page over comes to. -/
inductive Handover where
  /-- The notification is on its way. -/
  | sent
  /-- The object is marked as contacted, and nothing was sent. -/
  | lost
  /-- Nothing happened at all, and the next failure will try again. -/
  | refused
  deriving DecidableEq, Repr

/-- The spawn command runs, and its output is on its way to the contact if there is one. -/
def PageEnv.spawns (env : PageEnv) (svc : HostInfo) : Bool :=
  env.fork && env.pwuid && if svc.hasContact then env.popenCommand && env.popen else env.system

theorem runCommandAndMailOutput_eq (env : PageEnv) (svc : HostInfo) (newstate : Int32) :
    runCommandAndMailOutput env svc newstate = if env.spawns svc then [.spawned newstate] else [] := by
  unfold runCommandAndMailOutput PageEnv.spawns
  cases env.fork <;> cases env.pwuid <;> cases svc.hasContact <;> cases env.popenCommand <;>
    cases env.popen <;> simp

/-- The outcome of a page about an object that wants to hear of it. -/
def PageEnv.handover (env : PageEnv) (svc : HostInfo) : Handover :=
  if svc.command.isSome then
    if env.spawns svc then .sent else .lost
  else if !svc.hasContact then .lost
  else if !env.pwuid then .refused
  else if env.popen then .sent else .lost

/-- The notification an object sends: from the spawn command where it has one, else by mail. -/
def HostInfo.notice (svc : HostInfo) (newstate : Int32) : Notice :=
  if svc.command.isSome then .spawned newstate else .mailed newstate

@[simp] theorem HostInfo.notice_newstate (svc : HostInfo) (newstate : Int32) :
    (svc.notice newstate).newstate = newstate := by
  unfold HostInfo.notice
  split <;> rfl

theorem pageSomeone_contacted {env : PageEnv} {newstate : Int32} {w : ObjState}
    (hwants : w.svc.wants newstate = true) :
    (pageSomeone true env newstate w).svc.contacted =
      (w.svc.contacted || env.handover w.svc != .refused) := by
  unfold pageSomeone PageEnv.handover objectChanged
  simp only [hwants]
  cases w.svc.command with
  | some command => cases env.spawns w.svc <;> simp
  | none => cases w.svc.hasContact <;> cases env.pwuid <;> cases env.popen <;> simp

theorem pageSomeone_notices {env : PageEnv} {newstate : Int32} {w : ObjState}
    (hwants : w.svc.wants newstate = true) :
    (pageSomeone true env newstate w).notices =
      w.notices ++ if env.handover w.svc = .sent then [w.svc.notice newstate] else [] := by
  unfold pageSomeone PageEnv.handover HostInfo.notice objectChanged
  simp only [hwants, runCommandAndMailOutput_eq]
  cases w.svc.command with
  | some command => cases env.spawns w.svc <;> simp
  | none => cases w.svc.hasContact <;> cases env.pwuid <;> cases env.popen <;> simp

/-- A page that nobody wants sends nothing. -/
theorem pageSomeone_unwanted {donotify : Bool} {env : PageEnv} {newstate : Int32} {w : ObjState}
    (h : (donotify && w.svc.wants newstate) = false) :
    (pageSomeone donotify env newstate w).notices = w.notices := by
  unfold pageSomeone objectChanged
  revert h
  cases w.svc.command <;> cases donotify <;> cases w.svc.wants newstate <;> cases w.svc.hasContact <;>
    simp

/-- Who is told by a page. -/
theorem pageSomeone_tells_iff (donotify : Bool) (env : PageEnv) (newstate : Int32) (w : ObjState) :
    (pageSomeone donotify env newstate w).notices ≠ w.notices ↔
      donotify = true ∧ w.svc.wants newstate = true ∧ env.handover w.svc = .sent := by
  by_cases hasked : (donotify && w.svc.wants newstate) = true
  · obtain ⟨rfl, hwants⟩ := Bool.and_eq_true_iff.mp hasked
    rw [pageSomeone_notices hwants, hwants]
    by_cases hsent : env.handover w.svc = .sent <;> simp [hsent]
  · rw [pageSomeone_unwanted (eq_false_of_ne_true hasked)]
    exact iff_of_false (not_not_intro rfl) fun h => hasked (Bool.and_eq_true_iff.mpr ⟨h.1, h.2.1⟩)

/-- A page only ever adds notifications for the state it was called for. -/
theorem pageSomeone_notices_append (donotify : Bool) (env : PageEnv) (newstate : Int32)
    (w : ObjState) : ∃ added, (pageSomeone donotify env newstate w).notices = w.notices ++ added ∧
      ∀ notice ∈ added, notice.newstate = newstate := by
  unfold pageSomeone objectChanged
  split
  · refine ⟨runCommandAndMailOutput env w.svc newstate, rfl, fun notice hmem => ?_⟩
    rw [runCommandAndMailOutput_eq] at hmem
    split at hmem
    · rw [List.mem_singleton.mp hmem]
      rfl
    · exact absurd hmem (List.not_mem_nil)
  · split
    · exact ⟨[], (List.append_nil _).symm, by simp⟩
    · split
      · split
        · exact ⟨[], (List.append_nil _).symm, by simp⟩
        · split
          · exact ⟨[], (List.append_nil _).symm, by simp⟩
          · refine ⟨[.mailed newstate], rfl, fun notice hmem => ?_⟩
            rw [List.mem_singleton.mp hmem]
            rfl
      · exact ⟨[], (List.append_nil _).symm, by simp⟩

end Sysmon
