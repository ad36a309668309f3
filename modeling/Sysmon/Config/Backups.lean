import Sysmon.Config.Versions

/-!
# Backups

Every call that writes first copies the main file to a backup that is named after the second. Within a second a
backup is written over, and an included file is in none of them. In a run in which neither comes up, every call can be
undone from a backup it has left, and no backup is lost.
-/

namespace Sysmon.Config

open GoBytes Run

/-- A second, as it is written in the name of a backup. -/
def Stamp := { s : CStr // ∀ c ∈ s, c.isDigit || c = '-' }

theorem safeName_backupName (stamp : Stamp) : safeName (backupName stamp.1) = true := by
  have hslash : '/' ∉ stamp.1 := fun h => absurd (stamp.2 _ h) (by decide)
  have hdot : '.' ∉ stamp.1 := fun h => absurd (stamp.2 _ h) (by decide)
  have hname : "sysmon-".toList ++ stamp.1 ++ ".conf".toList ≠ [] := by simp
  have hnoslash : '/' ∉ "sysmon-".toList ++ stamp.1 ++ ".conf".toList := by
    simp only [List.mem_append, hslash, or_false]
    decide
  have hnodots : ¬"..".toList <:+: "sysmon-".toList ++ stamp.1 ++ ".conf".toList := by
    intro h
    have hcount := h.sublist.count_le '.'
    rw [List.count_append, List.count_append, List.count_eq_zero_of_not_mem hdot] at hcount
    exact absurd hcount (by decide)
  exact decide_eq_true ⟨hname, hnoslash, hnodots⟩

section Backups

variable {V : Type} [DecidableEq V] (sha : CStr → V) (configPath : CStr)

/-- A call, in some second. -/
abbrev Timed (V : Type) := Stamp × Call V

def timedStep (st : State) (timed : Timed V) : State := (timed.2.run sha configPath timed.1.1 st).2

/-- Restoring the backup now, in any second, gives back the configuration there was. -/
def GivesBack (was now : State) (name : CStr) : Prop :=
  ∀ stamp : Stamp, ((Call.restoreBackup name).run sha configPath stamp.1 now).1.succeeded = true ∧
    Unchanged configPath was ((Call.restoreBackup name).run sha configPath stamp.1 now).2

/-- What a call owes: if it succeeds, a backup from which it can be undone, and the backups there are. -/
structure Undoable (was : State) (timed : Timed V) : Prop where
  undo : (timed.2.run sha configPath timed.1.1 was).1.succeeded = true →
    ∃ name, GivesBack sha configPath was (timedStep sha configPath was timed) name
  kept : ∀ name content, was.backups name = some content →
    (timedStep sha configPath was timed).backups name = some content

/-- The calls that are refused before anything is written. -/
def Refused (was : State) : Call V → Prop
  | .updateConfig update => ¬Accepted sha configPath was update.version ∨ validate update.hosts = false
  | .updateRawConfig content version => ¬Accepted sha configPath was version ∨ ∀ hosts, parse content ≠ .ok hosts
  | .restoreBackup filename => safeName filename = false ∨
      ∀ content, was.backups filename = some content → ∀ hosts, parse content ≠ .ok hosts

/-- The hosts of an update leave the objects of included files as they are. -/
def LeavesIncludes (configPath : CStr) (was : State) : Call V → Prop
  | .updateConfig update => ∀ doc, loadDocument was.disk configPath = some doc →
      doc.WantedAsIs (· ≠ configPath) update.hosts
  | _ => True

/-- A backup of this second, if there is one, has in it what is there; the main file is one that can be read back; and
no object of an included file is to change. -/
structure Recoverable (configPath : CStr) (was : State) (timed : Timed V) : Prop where
  fresh : ∀ held, was.backups (backupName timed.1.1) = some held → was.disk configPath = some held
  parses : ∀ content, was.disk configPath = some content → ∃ hosts, parse content = .ok hosts
  includes : LeavesIncludes configPath was timed.2

/-- When a call can be undone, or has nothing to undo. -/
def Careful (was : State) (timed : Timed V) : Prop :=
  Refused sha configPath was timed.2 ∨ Recoverable configPath was timed

variable {sha configPath} {st st' : State} {stamp : CStr} {timed : Timed V}

/-- A call that is refused has written nothing. -/
theorem run_of_refused (stamp : CStr) {call : Call V} (h : Refused sha configPath st call) :
    (call.run sha configPath stamp st).2 = st ∧ (call.run sha configPath stamp st).1.succeeded = false := by
  cases call with
  | updateConfig update =>
      rw [Call.run_updateConfig]
      by_cases haccepted : Accepted sha configPath st update.version
      · obtain hrefused | hinvalid := h
        · exact absurd haccepted hrefused
        · rw [updateConfig_of_accepted haccepted, hinvalid]
          exact ⟨rfl, rfl⟩
      · exact updateConfig_of_refused haccepted
  | updateRawConfig content version =>
      rw [Call.run_updateRawConfig]
      unfold updateRawConfig
      cases hcurrent : getCurrentVersion sha configPath st.disk with
      | none => exact ⟨rfl, rfl⟩
      | some current =>
          dsimp only
          split
          · exact ⟨rfl, rfl⟩
          · rename_i heq
            obtain hrefused | hbroken := h
            · exact absurd (hcurrent.trans (congrArg some (not_not.mp heq).symm)) hrefused
            · cases hparse : parse content with
              | error failure => exact ⟨rfl, rfl⟩
              | ok hosts => exact absurd hparse (hbroken hosts)
  | restoreBackup filename =>
      rw [Call.run_restoreBackup]
      unfold restoreBackup
      obtain hescapes | hbroken := h
      · rw [hescapes]
        exact ⟨rfl, rfl⟩
      · split
        · cases hheld : st.backups filename with
          | none => exact ⟨rfl, rfl⟩
          | some content =>
              dsimp only
              cases hparse : parse content with
              | error failure => exact ⟨rfl, rfl⟩
              | ok hosts => exact absurd hparse (hbroken content hheld hosts)
        · exact ⟨rfl, rfl⟩

theorem State.backup_eq_some (h : st.backup configPath stamp = some st') :
    ∃ content, st.disk configPath = some content ∧
      st' = { st with backups := st.backups.set (backupName stamp) content } := by
  obtain ⟨content, hcontent, rfl⟩ := Option.map_eq_some_iff.mp h
  exact ⟨content, hcontent, rfl⟩

/-- What a call that has not failed at once does: it backs the main file up, and of the files it writes at most that
one. -/
structure BackedUp (configPath stamp : CStr) (st : State) (result : Answer V × State) : Prop where
  backup : ∃ content, st.disk configPath = some content ∧
    result.2.backups = st.backups.set (backupName stamp) content
  main : result.1.succeeded = true → (result.2.disk configPath).isSome = true
  frame : ∀ path, path ≠ configPath → result.2.disk path = st.disk path

omit [DecidableEq V] in
theorem overwrite_cases (content : CStr) (answer : Answer V) :
    ((st.overwrite configPath stamp content answer).2 = st ∧
      (st.overwrite configPath stamp content answer).1.succeeded = false) ∨
    BackedUp configPath stamp st (st.overwrite configPath stamp content answer) := by
  unfold State.overwrite
  cases hbackup : st.backup configPath stamp with
  | none => exact Or.inl ⟨rfl, rfl⟩
  | some backed =>
      obtain ⟨current, hcurrent, rfl⟩ := State.backup_eq_some hbackup
      refine Or.inr ⟨⟨current, hcurrent, rfl⟩, fun _ => ?_, fun path hpath => if_neg hpath⟩
      simp [Files.set]

omit [DecidableEq V] in
theorem succeeded_answerOf_snapshot {result : Except Failure (Snapshot V)}
    (h : (answerOf Answer.snapshot result).succeeded = true) : ∃ s, result = .ok s := by
  cases result with
  | error failure => contradiction
  | ok s => exact ⟨s, rfl⟩

omit [DecidableEq V] in
theorem disk_of_getConfigUnlocked {disk : Files} {s : Snapshot V} (h : getConfigUnlocked sha configPath disk = .ok s) :
    (disk configPath).isSome = true := by
  cases hdisk : disk configPath with
  | none =>
      rw [getConfigUnlocked, hdisk] at h
      contradiction
  | some content => rfl

variable (sha st) in
omit [DecidableEq V] in
/-- The edit of the objects writes to no file but the main one. -/
theorem splice_frame {hosts : List Host}
    (hleaves : ∀ doc, loadDocument st.disk configPath = some doc → doc.WantedAsIs (· ≠ configPath) hosts) :
    (st.splice sha configPath hosts).2.backups = st.backups ∧
      ((st.splice sha configPath hosts).1.succeeded = true →
        ((st.splice sha configPath hosts).2.disk configPath).isSome = true) ∧
      ∀ path, path ≠ configPath → (st.splice sha configPath hosts).2.disk path = st.disk path := by
  unfold State.splice
  cases hload : loadDocument st.disk configPath with
  | none => exact ⟨rfl, fun h => absurd h Bool.false_ne_true, fun _ _ => rfl⟩
  | some doc =>
      dsimp only
      cases happly : doc.apply hosts with
      | error failure => exact ⟨rfl, fun h => absurd h Bool.false_ne_true, fun _ _ => rfl⟩
      | ok applied =>
          obtain ⟨hmainPath, hdirty⟩ := loadDocument_fresh hload
          have hkeeps := Document.Keeps.apply (hleaves doc hload) (not_not_intro hmainPath) happly
          refine ⟨rfl, fun hsucceeded => ?_, fun path hpath => hkeeps.save hpath (by rw [hdirty]) st.disk⟩
          obtain ⟨s, hs⟩ := succeeded_answerOf_snapshot hsucceeded
          exact disk_of_getConfigUnlocked hs

variable (sha) in
theorem run_cases (stamp : CStr) (call : Call V) (hleaves : LeavesIncludes configPath st call) :
    ((call.run sha configPath stamp st).2 = st ∧ (call.run sha configPath stamp st).1.succeeded = false) ∨
      BackedUp configPath stamp st (call.run sha configPath stamp st) := by
  cases call with
  | updateConfig update =>
      rw [Call.run_updateConfig]
      by_cases haccepted : Accepted sha configPath st update.version
      · rw [updateConfig_of_accepted haccepted]
        split
        · cases hbackup : st.backup configPath stamp with
          | none => exact Or.inl ⟨rfl, rfl⟩
          | some backed =>
              obtain ⟨current, hcurrent, rfl⟩ := State.backup_eq_some hbackup
              obtain ⟨hbackups, hmain, hframe⟩ := splice_frame sha
                { st with backups := st.backups.set (backupName stamp) current } hleaves
              exact Or.inr ⟨⟨current, hcurrent, hbackups⟩, hmain, hframe⟩
        · exact Or.inl ⟨rfl, rfl⟩
      · exact Or.inl (updateConfig_of_refused haccepted)
  | updateRawConfig content version =>
      rw [Call.run_updateRawConfig]
      unfold updateRawConfig
      cases getCurrentVersion sha configPath st.disk with
      | none => exact Or.inl ⟨rfl, rfl⟩
      | some current =>
          dsimp only
          split
          · exact Or.inl ⟨rfl, rfl⟩
          · cases parse content with
            | error failure => exact Or.inl ⟨rfl, rfl⟩
            | ok hosts => exact overwrite_cases content _
  | restoreBackup filename =>
      rw [Call.run_restoreBackup]
      unfold restoreBackup
      split
      · cases st.backups filename with
        | none => exact Or.inl ⟨rfl, rfl⟩
        | some content =>
            dsimp only
            cases parse content with
            | error failure => exact Or.inl ⟨rfl, rfl⟩
            | ok hosts => exact overwrite_cases content _
      · exact Or.inl ⟨rfl, rfl⟩

/-- A backup that can be read back is what restoring writes. -/
theorem run_restoreBackup {name content current : CStr} {hosts : List Host} (hname : safeName name = true)
    (hbackup : st.backups name = some content) (hparse : parse content = .ok hosts)
    (hmain : st.disk configPath = some current) (stamp : CStr) :
    (Call.restoreBackup name).run sha configPath stamp st =
      (.done, ⟨st.disk.set configPath content, st.backups.set (backupName stamp) current⟩) := by
  rw [Call.run_restoreBackup]
  unfold restoreBackup State.overwrite State.backup
  rw [if_pos hname, hbackup]
  dsimp only
  rw [hparse, hmain]
  rfl

theorem Recoverable.undoable (h : Recoverable configPath st timed) : Undoable sha configPath st timed := by
  obtain ⟨stamp, call⟩ := timed
  constructor
  · intro hsucceeded
    obtain ⟨-, hfailed⟩ | hdone := run_cases sha stamp.1 call h.includes
    · exact absurd (hsucceeded.symm.trans hfailed) (by decide)
    · obtain ⟨content, hcontent, hbackups⟩ := hdone.backup
      obtain ⟨hosts, hparse⟩ := h.parses content hcontent
      obtain ⟨current, hcurrent⟩ := Option.isSome_iff_exists.mp (hdone.main hsucceeded)
      have hbackup : (timedStep sha configPath st (stamp, call)).backups (backupName stamp.1) = some content := by
        rw [timedStep, hbackups]
        exact if_pos rfl
      refine ⟨backupName stamp.1, fun other => ?_⟩
      rw [run_restoreBackup (safeName_backupName stamp) hbackup hparse hcurrent]
      refine ⟨rfl, fun path _ => ?_⟩
      by_cases hpath : path = configPath
      · subst hpath
        exact (if_pos rfl).trans hcontent.symm
      · exact (if_neg hpath).trans (hdone.frame path hpath)
  · intro name content hheld
    obtain ⟨hsame, -⟩ | hdone := run_cases sha stamp.1 call h.includes
    · rw [timedStep, hsame]
      exact hheld
    · obtain ⟨current, hcurrent, hbackups⟩ := hdone.backup
      rw [timedStep, hbackups]
      by_cases hname : name = backupName stamp.1
      · subst hname
        exact (if_pos rfl).trans (hcurrent.symm.trans (h.fresh content hheld))
      · exact (if_neg hname).trans hheld

theorem Careful.undoable (h : Careful sha configPath st timed) : Undoable sha configPath st timed := by
  obtain hrefused | hrecoverable := h
  · obtain ⟨hsame, hfailed⟩ := run_of_refused timed.1.1 hrefused
    refine ⟨fun hsucceeded => absurd (hsucceeded.symm.trans hfailed) (by decide), fun name content hheld => ?_⟩
    rw [timedStep, hsame]
    exact hheld
  · exact hrecoverable.undoable

/-- No backup is lost in a run whose calls can be undone. -/
theorem backups_kept {calls : List (Timed V)} (h : Guarded (timedStep sha configPath) (Undoable sha configPath) st calls)
    {name content : CStr} (hheld : st.backups name = some content) :
    (exec (timedStep sha configPath) st calls).backups name = some content :=
  always_of_guarded (P := fun now => now.backups name = some content) (fun _ _ hnow hundoable => hundoable.kept _ _ hnow)
    hheld h calls (List.prefix_refl calls)

/-- In a run of careful calls each can be undone from a backup that it leaves, and the backups there are at any time
are there at the end. -/
theorem careful_run_undoable {calls : List (Timed V)}
    (h : Guarded (timedStep sha configPath) (Careful sha configPath) st calls) :
    Guarded (timedStep sha configPath) (Undoable sha configPath) st calls ∧
      ∀ pre post, pre ++ post = calls → ∀ name content,
        (exec (timedStep sha configPath) st pre).backups name = some content →
        (exec (timedStep sha configPath) st calls).backups name = some content := by
  have hundoable : Guarded (timedStep sha configPath) (Undoable sha configPath) st calls :=
    fun pre timed hpre => (h pre timed hpre).undoable
  refine ⟨hundoable, ?_⟩
  rintro pre post rfl name content hheld
  rw [exec_append]
  exact backups_kept (guarded_append.mp hundoable).2 hheld

end Backups

/-! ### In one second -/

def noon : Stamp := ⟨"20240101-120000".toList, by decide⟩

/-- The text of one object. -/
def objectText (name : String) : CStr := ("object " ++ name ++ " \x7b\n\x7d;\n").toList

def oneObject : State := ⟨fun path => if path = "/main".toList then some (objectText "a") else none, fun _ => none⟩

def firstWrite : Timed CStr := (noon, .updateRawConfig (objectText "b") (objectText "a"))

def secondWrite : Timed CStr := (noon, .updateRawConfig (objectText "c") (objectText "b"))

/-- Two seconds later the configuration is written again, and then the first backup is restored. -/
def laterCalls : List (Timed CStr) :=
  [firstWrite, (⟨"20240101-120001".toList, by decide⟩, .updateRawConfig (objectText "c") (objectText "b")),
    (⟨"20240101-120002".toList, by decide⟩, .restoreBackup (backupName noon.1))]

theorem careful_laterCalls :
    Guarded (timedStep id "/main".toList) (Undoable id "/main".toList) oneObject laterCalls ∧
      ∀ pre post, pre ++ post = laterCalls → ∀ name content,
        (exec (timedStep id "/main".toList) oneObject pre).backups name = some content →
        (exec (timedStep id "/main".toList) oneObject laterCalls).backups name = some content := by
  apply careful_run_undoable
  have hcareful : ∀ (st : State) (timed : Timed CStr) (name : String), st.disk "/main".toList = some (objectText name) →
      st.backups (backupName timed.1.1) = none → (∃ hosts, parse (objectText name) = .ok hosts) →
      LeavesIncludes "/main".toList st timed.2 → Careful id "/main".toList st timed := by
    intro st timed name hdisk hfresh hparses hleaves
    refine Or.inr ⟨fun held hheld => ?_, fun content hcontent => ?_, hleaves⟩
    · cases hfresh.symm.trans hheld
    · exact Option.some.inj (hdisk.symm.trans hcontent) ▸ hparses
  refine guarded_cons.mpr ⟨hcareful _ _ "a" (by decide) (by decide) ⟨[newHost ['a']], by decide⟩
    trivial, guarded_cons.mpr ⟨hcareful _ _ "b" (by decide) (by decide)
      ⟨[newHost ['b']], by decide⟩ trivial, guarded_cons.mpr ⟨hcareful _ _ "c" (by decide)
        (by decide) ⟨[newHost ['c']], by decide⟩ trivial, guarded_nil⟩⟩⟩

/-- The second backup takes the place of the first. -/
theorem backup_written_over :
    ¬∀ (sha : CStr → CStr) (configPath : CStr) (st : State) (calls : List (Timed CStr)),
      Guarded (timedStep sha configPath) (Undoable sha configPath) st calls := by
  intro h
  have hsecond := h id "/main".toList oneObject [firstWrite, secondWrite] [firstWrite] secondWrite (List.prefix_refl _)
  have hlost := hsecond.kept (backupName noon.1) (objectText "a") (by decide)
  exact absurd hlost (by decide)

end Sysmon.Config
