import Sysmon.ConfGen.Apply

/-!
# Crashes

A generation that a link names must be there in full, whatever the machine did to the daemon in the
middle of an operation. `passed` is the record of the deliveries `validate_config` has passed, kept
beside the daemon; a directory is whole when it is one of them, file for file, with its order file.
The invariant is kept by every single call of every operation, as long as no delivery reuses a
number that a link names: there the old copy is taken away from under the link.
-/

namespace Sysmon.ConfGen

variable {seedName : CStr} {d : Daemon} {g : UInt64} {files : List File} {env : ApplyEnv}

/-! ### A staged delivery is whole -/

def dirOf (files : List File) : Dir := files ++ [orderOf files]

theorem exec_appends {s : Store} {dir : Dir} {name done data : CStr}
    (hname : name ∉ dir.map File.name) (hdir : s.gens g = some (dir ++ [⟨name, done⟩])) :
    (s.exec (data.map (.append g name))).gens g = some (dir ++ [⟨name, done ++ data⟩]) := by
  induction data generalizing s done with
  | nil => simpa using hdir
  | cons byte data ih =>
      have hother : dir.map (fun f => if f.name = name then { f with data := f.data ++ [byte] } else f)
          = dir := by
        conv_rhs => rw [← List.map_id dir]
        refine List.map_congr_left fun f hf => ?_
        rw [if_neg fun heq => hname (List.mem_map.mpr ⟨f, hf, heq⟩)]
        rfl
      have hstep : (s.step (.append g name byte)).gens g =
          some (dir ++ [⟨name, done ++ [byte]⟩]) := by
        simp [Store.step, Store.updateDir, hdir, appendIn, hother]
      rw [List.map_cons, Store.exec_cons, ih hstep]
      simp

theorem exec_writeWhole {s : Store} {dir : Dir} {file : File} (hdir : s.gens g = some dir)
    (hname : file.name ∉ dir.map File.name) :
    (s.exec (writeWholeOps g file none)).gens g = some (dir ++ [file]) := by
  have hcreate : (s.step (.create g file.name)).gens g = some (dir ++ [⟨file.name, []⟩]) := by
    simp [Store.step, Store.updateDir, hdir, createIn, hname]
  simpa [writeWholeOps] using exec_appends hname hcreate

theorem exec_writeFiles {s : Store} {dir : Dir} {write : Nat → Option Nat} {i : Nat}
    (hdir : s.gens g = some dir) (hwrite : ∀ j < files.length, write (i + j) = none)
    (hnames : ((dir ++ files).map File.name).Nodup) :
    (s.exec (writeFilesOps g write i files)).gens g = some (dir ++ files) := by
  induction files generalizing s dir i with
  | nil => simpa [writeFilesOps] using hdir
  | cons file files ih =>
      have hfirst : write i = none := hwrite 0 (by simp)
      have hname : file.name ∉ dir.map File.name := by
        rw [List.map_append, List.nodup_append] at hnames
        intro hmem
        exact hnames.2.2 _ hmem _ (by simp) rfl
      rw [writeFilesOps, hfirst, Store.exec_append, ih (exec_writeWhole hdir hname)]
      · simp
      · intro j hj
        have hnext := hwrite (j + 1) (by simpa using hj)
        rwa [← Nat.add_assoc, Nat.add_right_comm] at hnext
      · simpa using hnames

theorem nameError_none {earlier : List File} (h : nameError earlier files = none)
    (hnodup : (earlier.map File.name).Nodup) :
    ((earlier ++ files).map File.name).Nodup ∧ ∀ f ∈ files, flatName f.name = true := by
  induction files generalizing earlier with
  | nil => exact ⟨by simpa using hnodup, by simp⟩
  | cons file files ih =>
      rw [nameError] at h
      split at h
      · exact absurd h (by simp)
      · split at h
        · exact absurd h (by simp)
        · rename_i hflat hfresh
          have hnext : ((earlier ++ [file]).map File.name).Nodup := by
            rw [List.map_append, List.nodup_append]
            refine ⟨hnodup, by simp, ?_⟩
            intro a ha b hb heq
            rw [List.map_singleton, List.mem_singleton] at hb
            exact hfresh (hb ▸ heq ▸ ha)
          obtain ⟨hall, hplain⟩ := ih h hnext
          refine ⟨by simpa using hall, ?_⟩
          intro f hf
          obtain rfl | hmem := List.mem_cons.mp hf
          · simpa using hflat
          · exact hplain f hmem

theorem refusal_none (h : refusal seedName d g files = none) :
    (files.map File.name).Nodup ∧ ∀ f ∈ files, flatName f.name = true := by
  cases hname : nameError [] files with
  | none => simpa using nameError_none hname (by simp)
  | some err =>
      simp only [refusal, hname] at h
      repeat' split at h
      all_goals exact absurd h (by simp)

/-- A plain name does not begin with a dot, so no delivery can name the order file. -/
theorem orderFile_not_mem (h : ∀ f ∈ files, flatName f.name = true) :
    orderFile ∉ files.map File.name := by
  intro hmem
  obtain ⟨f, hf, hname⟩ := List.mem_map.mp hmem
  have hflat := h f hf
  rw [hname] at hflat
  exact absurd hflat (by decide)

theorem stageError_none (h : stageError env files = none) :
    env.mkdir = true ∧ (List.range files.length).any (fun i => (env.write i).isSome) = false ∧
      env.order = none ∧ env.verdict = true := by
  rw [stageError] at h
  by_cases hmkdir : env.mkdir = true
  · by_cases hwrite : (List.range files.length).any (fun i => (env.write i).isSome) = true
    · simp [hmkdir, hwrite] at h
    · cases horder : env.order with
      | some k => simp [hmkdir, hwrite, horder] at h
      | none =>
          refine ⟨hmkdir, eq_false_of_ne_true hwrite, rfl, ?_⟩
          simpa [hmkdir, hwrite, horder] using h
  · simp [hmkdir] at h

/-- Once it has passed, the directory of a delivery holds its files and the order they come in. -/
theorem exec_stagedOps (hr : refusal seedName d g files = none) (hs : stageError env files = none) :
    (d.disk.exec (stagedOps d g files env)).gens g = some (dirOf files) := by
  obtain ⟨hmkdir, hwrite, horder, -⟩ := stageError_none hs
  obtain ⟨hnodup, hflat⟩ := refusal_none hr
  have hnone : ∀ j < files.length, env.write (0 + j) = none := by
    simpa using hwrite
  have hmade : ((d.disk.exec (removeGenDirOps d.disk g)).step (.mkdir g)).gens g = some [] := by
    simp [Store.step]
  have hfiles := exec_writeFiles hmade hnone (by simpa using hnodup)
  have hnew : (orderOf files).name ∉ ([] ++ files).map File.name := by
    simpa [orderOf] using orderFile_not_mem hflat
  have horderFile := exec_writeWhole hfiles hnew
  simpa [stagedOps, stageOps, hmkdir, hwrite, horder, Store.exec_append, dirOf] using horderFile

/-! ### One call at a time -/

/-- Every generation a link names is a delivery that passed, and is there whole. -/
def Whole (passed : List (UInt64 × List File)) (s : Store) : Prop :=
  ∀ link gen, s.link link = some gen →
    ∃ files, s.gens gen = some (dirOf files) ∧ (gen, files) ∈ passed

/-- What a call must not do: work in a directory that a link names, or move a link onto a generation
that is not whole. -/
def Careful (passed : List (UInt64 × List File)) (s : Store) (op : FsOp) : Prop :=
  (∀ gen, op.gen = some gen → ∀ link, s.link link ≠ some gen) ∧
    ∀ link gen, op = .renameNew link → s.linkNew link = some gen →
      ∃ files, s.gens gen = some (dirOf files) ∧ (gen, files) ∈ passed

variable {passed : List (UInt64 × List File)}

theorem Whole.mono {more : List (UInt64 × List File)} {s : Store} (h : Whole passed s) :
    Whole (passed ++ more) s := by
  intro link gen hlink
  obtain ⟨files, hgens, hmem⟩ := h link gen hlink
  exact ⟨files, hgens, List.mem_append_left _ hmem⟩

theorem whole_step (s : Store) (op : FsOp) (h : Whole passed s) (hop : Careful passed s op) :
    Whole passed (s.step op) := by
  intro link gen hlink
  cases op with
  | renameNew l =>
      by_cases heq : link = l
      · subst heq
        exact hop.2 link gen rfl (by simpa [Store.step] using hlink)
      · exact h link gen (by simpa [Store.step, Function.update_of_ne heq] using hlink)
  | unlinkLink l =>
      by_cases heq : link = l
      · subst heq
        simp [Store.step] at hlink
      · exact h link gen (by simpa [Store.step, Function.update_of_ne heq] using hlink)
  | unlinkFile c _ | rmdir c | mkdir c | create c _ | append c _ _ =>
      have hold : s.link link = some gen := hlink
      have hne : gen ≠ c := fun heq => hop.1 c rfl link (heq ▸ hold)
      obtain ⟨files, hgens, hmem⟩ := h link gen hold
      refine ⟨files, ?_, hmem⟩
      rw [Store.step_gens (by simpa [FsOp.gen] using Ne.symm hne)]
      exact hgens
  | _ => exact h link gen hlink

/-- A run of calls is careful when each of its calls is, where it is made. -/
def CarefulRun (passed : List (UInt64 × List File)) (s : Store) (ops : List FsOp) : Prop :=
  Run.Guarded Store.step (Careful passed) s ops

theorem CarefulRun.whole_take {s : Store} {ops : List FsOp} (h : CarefulRun passed s ops)
    (hs : Whole passed s) (k : Nat) : Whole passed (s.exec (ops.take k)) :=
  (Run.always_of_guarded whole_step hs h).exec_take k

theorem CarefulRun.append {s : Store} {left right : List FsOp} (hleft : CarefulRun passed s left)
    (hright : CarefulRun passed (s.exec left) right) : CarefulRun passed s (left ++ right) :=
  Run.guarded_append.mpr ⟨hleft, hright⟩

/-- Calls in a directory that no link names are careful. -/
theorem carefulRun_of_gen {s : Store} {ops : List FsOp} (hops : ∀ op ∈ ops, op.gen = some g)
    (hfresh : ∀ link, s.link link ≠ some g) : CarefulRun passed s ops := by
  intro pre op hpre
  have hmem : ∀ o ∈ pre ++ [op], o.gen = some g := fun o ho => hops o (hpre.subset ho)
  have hlink : (s.exec pre).link = s.link :=
    (exec_of_gen fun o ho => hmem o (List.mem_append_left _ ho)).1
  have hgen : op.gen = some g := hmem op (by simp)
  refine ⟨fun gen heq link => ?_, fun link gen heq _ => ?_⟩
  · have hsame : gen = g := Option.some.inj (heq.symm.trans hgen)
    show (s.exec pre).link link ≠ some gen
    rw [hlink, hsame]
    exact hfresh link
  · rw [heq] at hgen
    exact absurd hgen (by simp [FsOp.gen])

theorem carefulRun_pointLink (env : LinkEnv) (link : Link) {s : Store} {gen : UInt64}
    (hgens : s.gens gen = some (dirOf files)) (hmem : (gen, files) ∈ passed) :
    CarefulRun passed s (pointLinkOps env link gen) := by
  have hquiet : ∀ (s : Store) (op : FsOp), op.gen = none → (∀ l, op ≠ .renameNew l) →
      Careful passed s op := by
    intro s op hgen hname
    refine ⟨fun c heq => ?_, fun l _ heq => absurd heq (hname l)⟩
    rw [hgen] at heq
    exact absurd heq (by simp)
  rw [CarefulRun, pointLinkOps]
  split
  · exact Run.guarded_cons.mpr ⟨hquiet _ _ rfl (by simp), Run.guarded_nil⟩
  · have htail : ∀ last, Careful passed ((s.step (.unlinkNew link)).step (.symlinkNew link gen)) last →
        Run.Guarded Store.step (Careful passed) s [.unlinkNew link, .symlinkNew link gen, last] := by
      intro last hlast
      exact Run.guarded_cons.mpr ⟨hquiet _ _ rfl (by simp), Run.guarded_cons.mpr
        ⟨hquiet _ _ rfl (by simp), Run.guarded_cons.mpr ⟨hlast, Run.guarded_nil⟩⟩⟩
    split
    · exact htail _ (hquiet _ _ rfl (by simp))
    · apply htail
      refine ⟨fun c heq => absurd heq (by simp [FsOp.gen]), fun l c heq hnew => ?_⟩
      obtain rfl : link = l := by simpa using heq
      have hsame : gen = c := by simpa [Store.step] using hnew
      subst hsame
      exact ⟨files, hgens, hmem⟩

theorem carefulRun_quiet {s : Store} {ops : List FsOp}
    (hops : ∀ op ∈ ops, op.gen = none ∧ op.writes = none) : CarefulRun passed s ops := by
  apply Run.guarded_of_forall
  intro op hop s
  obtain ⟨hgen, hwrites⟩ := hops op hop
  refine ⟨fun gen heq => ?_, fun link gen heq => ?_⟩
  · rw [hgen] at heq
    exact absurd heq (by simp)
  · rw [heq] at hwrites
    exact absurd hwrites (by simp [FsOp.writes])

theorem carefulRun_prune (s : Store) (readdir : List UInt64) :
    CarefulRun passed s (pruneOps s readdir) := by
  intro pre op hpre
  have hmem : ∀ o ∈ pre ++ [op], o ∈ pruneOps s readdir := fun o ho => hpre.subset ho
  have hlink : ∀ link, (Run.exec Store.step s pre).link link = s.link link := by
    intro link
    apply Store.exec_link
    intro o ho
    rw [writes_pruneOps (hmem o (List.mem_append_left _ ho))]
    exact (Option.some_ne_none _).symm
  refine ⟨fun gen heq link hnamed => ?_, fun link gen heq _ => ?_⟩
  · rw [hlink link] at hnamed
    exact gen_pruneOps (hmem op (by simp)) hnamed heq
  · have hwrites := writes_pruneOps (hmem op (by simp))
    rw [heq] at hwrites
    exact absurd hwrites (by simp [FsOp.writes])

/-! ### One operation -/

/-- The running number is what `current` names. -/
def Linked (d : Daemon) : Prop := 0 < d.running → d.disk.link .current = some d.running

/-- No delivery carries a number that a link names. -/
def FreshNumber (d : Daemon) : Op → Prop
  | .apply g _ _ => ∀ link, d.disk.link link ≠ some g
  | _ => True

/-- What `validate_config` has passed when the operation has made `calls` of its calls. -/
def Op.newlyPassed (seedName : CStr) (d : Daemon) (calls : Nat) : Op → List (UInt64 × List File)
  | .apply g files env =>
      match (ConfGen.apply seedName d g files env).validated with
      | some n => if n ≤ calls then [(g, files)] else []
      | none => []
  | _ => []

theorem previousLink_ne (hlinked : Linked d) (hfresh : ∀ link, d.disk.link link ≠ some g)
    (link : Link) : previousLink d env link ≠ some g := by
  rw [previousLink]
  split
  case isTrue hwritten =>
    cases link with
    | current => exact hfresh .current
    | previous =>
        rw [Function.update_self]
        exact fun heq => hfresh .current (heq ▸ hlinked hwritten.1)
  case isFalse => exact hfresh link

/-- The calls of a delivery that passed, once it has passed. -/
theorem carefulRun_staged (hr : refusal seedName d g files = none)
    (hs : stageError env files = none) (hwhole : Whole passed d.disk) (hlinked : Linked d)
    (hfresh : ∀ link, d.disk.link link ≠ some g) (hmem : (g, files) ∈ passed) :
    CarefulRun passed d.disk (apply seedName d g files env).ops := by
  set mainname := if d.mainname = [] then seedName else d.mainname with hmainname
  set staged := stagedOps d g files env with hstaged
  have hgens : (d.disk.exec staged).gens g = some (dirOf files) := exec_stagedOps hr hs
  obtain ⟨hlink, hrest⟩ : (d.disk.exec staged).link = d.disk.link ∧
      ∀ c, c ≠ g → (d.disk.exec staged).gens c = d.disk.gens c :=
    exec_of_gen fun op => gen_stagedOps
  have hfirst : CarefulRun passed d.disk staged := carefulRun_of_gen (fun op => gen_stagedOps) hfresh
  -- the generation that was running is what `current` names, so it is whole and not `g`
  have hprevious : CarefulRun passed (d.disk.exec staged) (swapOps env d mainname) := by
    apply CarefulRun.append
    · by_cases hrunning : 0 < d.running
      · rw [if_pos hrunning]
        have hcurrent := hlinked hrunning
        obtain ⟨old, hold, hpassed⟩ := hwhole .current d.running hcurrent
        have hne : d.running ≠ g := fun heq => hfresh .current (heq ▸ hcurrent)
        exact carefulRun_pointLink env.previous .previous ((hrest _ hne).trans hold) hpassed
      · rw [if_neg hrunning]
        exact Run.guarded_nil
    · exact carefulRun_quiet fun op => saveMainnameOps_frame
  have hswapGens : ((d.disk.exec staged).exec (swapOps env d mainname)).gens g =
      some (dirOf files) := by
    rw [Store.exec_gens fun op hop => by rw [gen_swapOps hop]; exact (Option.some_ne_none _).symm]
    exact hgens
  have hswapped : CarefulRun passed d.disk (swappedOps seedName d g files env) :=
    hfirst.append (hprevious.append (carefulRun_pointLink env.current .current hswapGens hmem))
  rw [apply_staged hr hs]
  split
  · exact hswapped.append (carefulRun_prune _ _)
  · rename_i hok
    refine hswapped.append (carefulRun_of_gen (fun op => gen_removeGenDirOps) fun link => ?_)
    rw [(exec_swappedOps seedName d g files env).1, if_neg hok]
    exact previousLink_ne hlinked hfresh link

/-- A delivery that does not pass only ever works in its own directory. -/
theorem gen_of_not_validated {op : FsOp} (h : (apply seedName d g files env).validated = none)
    (hop : op ∈ (apply seedName d g files env).ops) : op.gen = some g := by
  cases hr : refusal seedName d g files with
  | some err =>
      rw [(apply_refused hr env).1] at hop
      exact absurd hop List.not_mem_nil
  | none =>
      cases hs : stageError env files with
      | some err => exact (apply_stageFailed_ops hr hs).2.2.2.1 op hop
      | none =>
          rw [apply_staged hr hs] at h
          split at h <;> exact absurd h (by simp)

theorem validated_some {n : Nat} (h : (apply seedName d g files env).validated = some n) :
    refusal seedName d g files = none ∧ stageError env files = none ∧
      n = (stagedOps d g files env).length := by
  cases hr : refusal seedName d g files with
  | some err =>
      rw [apply, hr] at h
      cases err <;> exact absurd h (by simp)
  | none =>
      cases hs : stageError env files with
      | some err =>
          rw [(apply_stageFailed_ops hr hs).2.2.1] at h
          exact absurd h (by simp)
      | none =>
          refine ⟨rfl, rfl, ?_⟩
          rw [apply_staged hr hs] at h
          split at h <;> exact (Option.some.inj h).symm

/-- Before a delivery has passed, all its calls are in its own directory. -/
theorem gen_of_take_staged {n k : Nat} {op : FsOp}
    (h : (apply seedName d g files env).validated = some n) (hk : k < n)
    (hop : op ∈ (apply seedName d g files env).ops.take k) : op.gen = some g := by
  obtain ⟨hr, hs, hn⟩ := validated_some h
  have hops : ∃ rest, (apply seedName d g files env).ops = stagedOps d g files env ++ rest := by
    rw [apply_staged hr hs]
    split
    · exact ⟨_, List.append_assoc _ _ _⟩
    · exact ⟨_, List.append_assoc _ _ _⟩
  obtain ⟨rest, hrest⟩ := hops
  rw [hrest, List.take_append_of_le_length (by omega)] at hop
  exact gen_stagedOps (List.mem_of_mem_take hop)

theorem carefulRun_rollback (hwhole : Whole passed d.disk) (hlinked : Linked d) (env : RollbackEnv) :
    CarefulRun passed d.disk (rollback d env).ops := by
  rw [rollback]
  split
  · exact Run.guarded_nil
  · rename_i hheld
    obtain ⟨prev, hprev⟩ : ∃ prev, d.disk.link .previous = some prev := by
      cases hlink : d.disk.link .previous with
      | none => exact absurd (Or.inl (by simp [Store.linkedGeneration, hlink])) hheld
      | some prev => exact ⟨prev, rfl⟩
    have hnumber : d.disk.linkedGeneration .previous = prev := by
      simp [Store.linkedGeneration, hprev]
    obtain ⟨files, hgens, hmem⟩ := hwhole .previous prev hprev
    have hcurrent : CarefulRun passed d.disk (pointLinkOps env.current .current prev) :=
      carefulRun_pointLink env.current .current hgens hmem
    rw [hnumber]
    split
    · exact Run.guarded_nil
    · split
      · exact hcurrent
      · refine hcurrent.append ?_
        by_cases hrunning : 0 < d.running
        · obtain ⟨old, hold, hpassed⟩ := hwhole .current d.running (hlinked hrunning)
          rw [if_pos hrunning]
          have hkept : (d.disk.exec (pointLinkOps env.current .current prev)).gens d.running =
              some (dirOf old) := by
            rw [Store.exec_gens fun op hop => by rw [gen_pointLinkOps hop]; exact (Option.some_ne_none _).symm]
            exact hold
          exact carefulRun_pointLink env.previous .previous hkept hpassed
        · rw [if_neg hrunning]
          exact Run.guarded_nil

theorem carefulRun_revert (d : Daemon) (env : RevertEnv) :
    CarefulRun passed d.disk (revert d env).ops := by
  have hunlink : CarefulRun passed d.disk [.unlinkLink .current] := by
    refine Run.guarded_cons.mpr ⟨⟨fun gen heq => ?_, fun link gen heq => ?_⟩, Run.guarded_nil⟩
    · exact absurd heq (by simp [FsOp.gen])
    · exact absurd heq (by simp)
  rw [revert]
  repeat' split
  all_goals first | exact Run.guarded_nil | exact hunlink

/-- Whatever the operation and wherever it is cut off, the links name whole generations. -/
theorem whole_take (seedName : CStr) (hwhole : Whole passed d.disk) (hlinked : Linked d) {op : Op}
    (hfresh : FreshNumber d op) (k : Nat) :
    Whole (passed ++ op.newlyPassed seedName d k)
      (d.disk.exec ((op.outcome seedName d).ops.take k)) := by
  cases op with
  | apply g files env =>
      cases hval : (apply seedName d g files env).validated with
      | none =>
          have hrun : CarefulRun passed d.disk (apply seedName d g files env).ops :=
            carefulRun_of_gen (fun op => gen_of_not_validated hval) hfresh
          exact (hrun.whole_take hwhole k).mono
      | some n =>
          by_cases hk : n ≤ k
          · obtain ⟨hr, hs, -⟩ := validated_some hval
            have hnew : Op.newlyPassed seedName d k (.apply g files env) = [(g, files)] := by
              simp [Op.newlyPassed, hval, hk]
            rw [hnew]
            exact (carefulRun_staged hr hs hwhole.mono hlinked hfresh (by simp)).whole_take
              hwhole.mono k
          · have hrun : CarefulRun passed d.disk ((apply seedName d g files env).ops.take k) :=
              carefulRun_of_gen (fun op => gen_of_take_staged hval (by omega)) hfresh
            have htake := hrun.whole_take hwhole k
            rw [List.take_take, Nat.min_self] at htake
            exact htake.mono
  | rollback env => exact ((carefulRun_rollback hwhole hlinked env).whole_take hwhole k).mono
  | revert env => exact ((carefulRun_revert d env).whole_take hwhole k).mono
  | prune readdir =>
      exact ((carefulRun_prune d.disk readdir).whole_take hwhole k).mono

/-! ### The running number -/

theorem link_of_activeGeneration {disk : Store} {mainname : CStr}
    (h : 0 < activeGeneration disk mainname) :
    disk.link .current = some (activeGeneration disk mainname) := by
  rw [activeGeneration] at h ⊢
  cases hlink : disk.link .current with
  | none => simp [hlink] at h
  | some gen =>
      simp only [hlink] at h ⊢
      split at h
      · rw [if_pos ‹_›]
      · exact absurd h (by decide)

theorem linked_reload (d : Daemon) : Linked (d.reload seedName) := link_of_activeGeneration

theorem linked_apply (h : Linked d) : Linked ((apply seedName d g files env).done d) := by
  cases hr : refusal seedName d g files with
  | some err =>
      obtain ⟨hops, hrunning, -⟩ := apply_refused hr env
      rw [Linked, Outcome.done, hops, hrunning]
      exact h
  | none =>
      cases hs : stageError env files with
      | some err =>
          obtain ⟨-, hrunning, -, hgen, -⟩ := apply_stageFailed_ops hr hs
          have hlink := (exec_of_gen (s := d.disk) hgen).1
          rw [Linked, Outcome.done, hrunning]
          dsimp only
          rw [hlink]
          exact h
      | none =>
          by_cases hok : env.current.ok = true
          · intro _
            rw [apply_staged hr hs, if_pos hok, Outcome.done]
            dsimp only
            rw [Store.exec_append, Store.exec_link fun op hop => by
              rw [writes_pruneOps hop]; exact (Option.some_ne_none _).symm, (exec_swappedOps seedName d g files env).1,
              if_pos hok, Function.update_self]
          · obtain ⟨hrunning, hlink, -⟩ := apply_pointFailed hr hs (eq_false_of_ne_true hok)
            rw [Linked, hrunning, hlink, previousLink_current]
            exact h

theorem linked_rollback (h : Linked d) (env : RollbackEnv) : Linked ((rollback d env).done d) := by
  rw [rollback]
  split
  · exact h
  · split
    · exact h
    · split
      · rename_i hok
        intro hrunning
        show (d.disk.exec _).link .current = _
        rw [exec_pointLinkOps, if_neg (by simpa using hok)]
        exact h hrunning
      · rename_i hok
        intro _
        show (d.disk.exec _).link .current = _
        rw [Store.exec_append]
        have hkept : ∀ s : Store, (s.exec (if 0 < d.running then
            pointLinkOps env.previous .previous d.running else [])).link .current =
            s.link .current := by
          intro s
          split
          · rw [exec_pointLinkOps]
            split <;> rfl
          · rfl
        rw [hkept, exec_pointLinkOps, if_pos (by simpa using hok), Function.update_self]
        rfl

theorem linked_step (h : Linked d) (e : Event) : Linked (d.step seedName e) := by
  cases e with
  | crash op calls => exact linked_reload _
  | reload => exact linked_reload d
  | op op =>
      cases op with
      | apply g files env => exact linked_apply h
      | rollback env => exact linked_rollback h env
      | revert env =>
          show Linked ((revert d env).done d)
          rw [revert]
          repeat' split
          all_goals first | exact h | exact fun hrunning => absurd hrunning (UInt64.lt_irrefl 0)
      | prune readdir =>
          intro hrunning
          show (d.disk.exec (pruneOps d.disk readdir)).link .current = _
          rw [Store.exec_link fun op hop => by rw [writes_pruneOps hop]; exact (Option.some_ne_none _).symm]
          exact h hrunning

/-! ### Whole runs -/

/-- The daemon, with the deliveries that have passed so far. -/
structure Recorded where
  daemon : Daemon
  passed : List (UInt64 × List File)

def Recorded.step (seedName : CStr) (r : Recorded) (e : Event) : Recorded where
  daemon := r.daemon.step seedName e
  passed := r.passed ++
    match e with
    | .op op => op.newlyPassed seedName r.daemon (op.outcome seedName r.daemon).ops.length
    | .crash op calls => op.newlyPassed seedName r.daemon calls
    | .reload => []

/-- The delivery a step makes, if it makes one, carries a number that no link names. -/
def NewNumber (r : Recorded) : Event → Prop
  | .op op | .crash op _ => FreshNumber r.daemon op
  | .reload => True

/-- The active configuration is a validated one: what `current` names is there, whole, and has
passed; so the daemon loads that or the seed; and pruning, cut off anywhere, takes nothing that a
link names. -/
structure Validated (r : Recorded) : Prop where
  current : ∀ gen, r.daemon.disk.link .current = some gen →
    ∃ files, r.daemon.disk.gens gen = some (dirOf files) ∧ (gen, files) ∈ r.passed
  active : activeGeneration r.daemon.disk r.daemon.mainname = 0 ∨
    ∃ files, r.daemon.disk.gens (activeGeneration r.daemon.disk r.daemon.mainname) =
        some (dirOf files) ∧
      (activeGeneration r.daemon.disk r.daemon.mainname, files) ∈ r.passed
  prune : ∀ readdir calls link gen, r.daemon.disk.link link = some gen →
    (r.daemon.disk.exec ((pruneOps r.daemon.disk readdir).take calls)).gens gen =
      r.daemon.disk.gens gen

theorem Whole.validated {r : Recorded} (h : Whole r.passed r.daemon.disk) : Validated r where
  current := h .current
  active := by
    by_cases hzero : activeGeneration r.daemon.disk r.daemon.mainname = 0
    · exact Or.inl hzero
    · have hlink := link_of_activeGeneration (UInt64.pos_iff_ne_zero.mpr hzero)
      exact Or.inr (h .current _ hlink)
  prune := by
    intro readdir calls link gen hlink
    apply Store.exec_gens
    intro op hop
    exact gen_pruneOps (List.mem_of_mem_take hop) hlink

theorem whole_recorded_step (r : Recorded) (e : Event)
    (h : Whole r.passed r.daemon.disk ∧ Linked r.daemon) (hnew : NewNumber r e) :
    Whole (r.step seedName e).passed (r.step seedName e).daemon.disk ∧
      Linked (r.step seedName e).daemon := by
  refine ⟨?_, linked_step h.2 e⟩
  cases e with
  | op op =>
      have hall := whole_take seedName h.1 h.2 hnew
        (op.outcome seedName r.daemon).ops.length
      rwa [List.take_length] at hall
  | crash op calls => exact whole_take seedName h.1 h.2 hnew calls
  | reload => exact h.1.mono

/-- In every run from a box that was never managed, whose deliveries all carry numbers that no link
names, the active configuration is a validated one in every state, crashes included. -/
theorem validated_always {mainname : CStr} {events : List Event}
    (hnew : Run.Guarded (Recorded.step seedName) NewNumber ⟨⟨emptyStore, 0, mainname⟩, []⟩ events) :
    Run.Always (Recorded.step seedName) Validated ⟨⟨emptyStore, 0, mainname⟩, []⟩ events := by
  have hstart : Whole [] emptyStore ∧ Linked ⟨emptyStore, 0, mainname⟩ := by
    refine ⟨fun link gen hlink => ?_, fun hrunning => ?_⟩
    · exact absurd hlink (by simp [emptyStore])
    · exact absurd hrunning (UInt64.lt_irrefl 0)
  have hwhole := Run.always_of_guarded (P := fun r : Recorded => Whole r.passed r.daemon.disk ∧
    Linked r.daemon) whole_recorded_step hstart hnew
  intro pre hpre
  exact (hwhole pre hpre).1.validated

def delivery (g : UInt64) (byte : Char) : Op := .apply g [⟨entryName, [byte]⟩] healthyApply

/-- Two deliveries, a third that dies in the middle of a file, and a rollback. -/
theorem validated_always_crash :
    Run.Always (Recorded.step entryName) Validated ⟨⟨emptyStore, 0, entryName⟩, []⟩
      [.op (delivery 1 'a'), .op (delivery 2 'b'), .crash (delivery 3 'c') 2,
        .op (.rollback ⟨true, ⟨true, true⟩, ⟨true, true⟩⟩)] := by
  apply validated_always
  simp only [Run.guarded_cons, Run.guarded_nil, NewNumber, FreshNumber, delivery, and_true]
  refine ⟨?_, ?_, ?_⟩ <;> intro link <;> cases link <;> decide

/-- The running number is sent again and the machine dies after the old copy is gone: the daemon
comes up with `current` naming a directory that is not there. -/
theorem redelivery_crash_dangles :
    ¬ Run.Always (Recorded.step entryName) Validated ⟨⟨emptyStore, 0, entryName⟩, []⟩
      [.op (delivery 1 'a'), .crash (delivery 1 'b') 3] := by
  intro h
  obtain ⟨files, hgens, -⟩ := (h _ (List.prefix_refl _)).current 1 (by decide)
  have hgone : (Run.exec (Recorded.step entryName) ⟨⟨emptyStore, 0, entryName⟩, []⟩
      [.op (delivery 1 'a'), .crash (delivery 1 'b') 3]).daemon.disk.gens 1 = none := by decide
  rw [hgone] at hgens
  exact absurd hgens (by simp)

end Sysmon.ConfGen
