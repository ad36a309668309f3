import Sysmon.ConfGen.Ops

/-!
# A delivery

What one `confgen_apply` leaves on disk, for each of its four ways out: refused before anything is
touched, failed while it was being staged, failed at the last link, or done. The last part says when
a delivery that failed has really cost nothing.
-/

namespace Sysmon.ConfGen

variable {seedName : CStr} {d : Daemon} {g : UInt64} {files : List File} {env : ApplyEnv}

/-! ### Staging works in one directory -/

theorem gen_writeFilesOps {write : Nat → Option Nat} {i : Nat} {op : FsOp}
    (h : op ∈ writeFilesOps g write i files) : op.gen = some g := by
  induction files generalizing i with
  | nil => exact absurd h List.not_mem_nil
  | cons file files ih =>
      rw [writeFilesOps] at h
      split at h
      · obtain hmem | hmem := List.mem_append.mp h
        · exact gen_writeWholeOps hmem
        · exact ih hmem
      · exact gen_writeWholeOps h

theorem gen_stageOps {op : FsOp} (h : op ∈ stageOps env g files) : op.gen = some g := by
  simp only [stageOps] at h
  split at h
  · exact absurd h List.not_mem_nil
  · simp only [List.cons_append, List.mem_cons, List.mem_append] at h
    obtain rfl | hmem | hmem := h
    · rfl
    · exact gen_writeFilesOps hmem
    · split at hmem
      · exact absurd hmem List.not_mem_nil
      · exact gen_writeWholeOps hmem

/-- The calls up to the validation: the old copy goes, the new one comes. -/
def stagedOps (d : Daemon) (g : UInt64) (files : List File) (env : ApplyEnv) : List FsOp :=
  removeGenDirOps d.disk g ++ stageOps env g files

theorem gen_stagedOps {op : FsOp} (h : op ∈ stagedOps d g files env) : op.gen = some g := by
  obtain hmem | hmem := List.mem_append.mp h
  · exact gen_removeGenDirOps hmem
  · exact gen_stageOps hmem

/-- Calls that work in one generation directory leave the links and the other generations. -/
theorem exec_of_gen {s : Store} {ops : List FsOp} (h : ∀ op ∈ ops, op.gen = some g) :
    (s.exec ops).link = s.link ∧ ∀ c, c ≠ g → (s.exec ops).gens c = s.gens c := by
  constructor
  · funext link
    apply Store.exec_link
    intro op hop
    rw [writes_of_gen (h op hop)]
    exact (Option.some_ne_none _).symm
  · intro c hc
    apply Store.exec_gens
    intro op hop heq
    rw [h op hop] at heq
    exact hc (Option.some.inj heq).symm

/-! ### The four ways out -/

theorem apply_refused {err : OpError} (h : refusal seedName d g files = some err) (env : ApplyEnv) :
    (apply seedName d g files env).ops = [] ∧ (apply seedName d g files env).running = d.running ∧
      (apply seedName d g files env).error ≠ none := by
  rw [apply, h]
  cases err <;> exact ⟨rfl, rfl, by simp⟩

theorem mkdir_of_cannotCreate (h : stageError env files = some .cannotCreate) :
    env.mkdir = false := by
  by_contra hmkdir
  simp only [stageError, eq_true_of_ne_false hmkdir, Bool.not_true, Bool.false_eq_true, if_false] at h
  repeat' split at h
  all_goals exact absurd h (by simp)

/-- What a delivery that fails while it is staged leaves of the calls it made. -/
theorem apply_stageFailed_ops {err : OpError} (hr : refusal seedName d g files = none)
    (hs : stageError env files = some err) :
    (apply seedName d g files env).error = some err ∧
      (apply seedName d g files env).running = d.running ∧
      (apply seedName d g files env).validated = none ∧
      (∀ op ∈ (apply seedName d g files env).ops, op.gen = some g) ∧
      (d.disk.exec (apply seedName d g files env).ops).gens g = none := by
  by_cases hcreate : err = .cannotCreate
  · subst hcreate
    have hops : (apply seedName d g files env).ops = removeGenDirOps d.disk g := by
      simp only [apply, hr, hs, stageOps, mkdir_of_cannotCreate hs]
      simp
    rw [hops]
    refine ⟨by simp only [apply, hr, hs], by simp only [apply, hr, hs],
      by simp only [apply, hr, hs], fun op => gen_removeGenDirOps, exec_removeGenDirOps d.disk g⟩
  · have happly : apply seedName d g files env = ⟨stagedOps d g files env ++
        removeGenDirOps (d.disk.exec (stagedOps d g files env)) g, d.running,
        if d.mainname = [] then seedName else d.mainname, some err, none⟩ := by
      cases err <;> first | exact absurd rfl hcreate | simp only [apply, hr, hs, stagedOps]
    rw [happly]
    refine ⟨rfl, rfl, rfl, ?_, ?_⟩
    · intro op hop
      obtain hmem | hmem := List.mem_append.mp hop
      · exact gen_stagedOps hmem
      · exact gen_removeGenDirOps hmem
    · rw [Store.exec_append]
      exact exec_removeGenDirOps _ g

/-- `previous` once the swap has begun: the generation that was running, if there was one and the
link could be written. -/
def previousLink (d : Daemon) (env : ApplyEnv) : Link → Option UInt64 :=
  if 0 < d.running ∧ env.previous.ok = true then
    Function.update d.disk.link .previous (some d.running)
  else d.disk.link

theorem previousLink_current (d : Daemon) (env : ApplyEnv) :
    previousLink d env .current = d.disk.link .current := by
  rw [previousLink]
  split <;> rfl

theorem gen_swapOps {mainname : CStr} {op : FsOp} (h : op ∈ swapOps env d mainname) :
    op.gen = none := by
  obtain hmem | hmem := List.mem_append.mp h
  · split at hmem
    · exact gen_pointLinkOps hmem
    · exact absurd hmem List.not_mem_nil
  · exact (saveMainnameOps_frame hmem).1

theorem exec_swapOps_link {s : Store} {mainname : CStr} (hlink : s.link = d.disk.link) :
    (s.exec (swapOps env d mainname)).link = previousLink d env := by
  have hmain : ∀ s : Store, (s.exec (saveMainnameOps env.main mainname)).link = s.link := by
    intro s
    funext link
    apply Store.exec_link
    intro op hop
    rw [(saveMainnameOps_frame hop).2]
    exact (Option.some_ne_none _).symm
  rw [swapOps, Store.exec_append, hmain, previousLink]
  by_cases hrunning : 0 < d.running
  · rw [if_pos hrunning, exec_pointLinkOps, hlink]
    simp [hrunning]
  · rw [if_neg hrunning, Store.exec_nil, hlink, if_neg fun h => hrunning h.1]

/-- The calls up to the last link. -/
def swappedOps (seedName : CStr) (d : Daemon) (g : UInt64) (files : List File) (env : ApplyEnv) :
    List FsOp :=
  stagedOps d g files env ++
    (swapOps env d (if d.mainname = [] then seedName else d.mainname) ++
      pointLinkOps env.current .current g)

theorem exec_swappedOps (seedName : CStr) (d : Daemon) (g : UInt64) (files : List File)
    (env : ApplyEnv) :
    (d.disk.exec (swappedOps seedName d g files env)).link =
        (if env.current.ok then Function.update (previousLink d env) .current (some g)
          else previousLink d env) ∧
      (d.disk.exec (swappedOps seedName d g files env)).gens =
        (d.disk.exec (stagedOps d g files env)).gens := by
  set mainname := if d.mainname = [] then seedName else d.mainname
  have hstaged : (d.disk.exec (stagedOps d g files env)).link = d.disk.link :=
    (exec_of_gen fun op => gen_stagedOps).1
  constructor
  · rw [swappedOps, Store.exec_append, Store.exec_append, exec_pointLinkOps,
      exec_swapOps_link hstaged]
  · rw [swappedOps, Store.exec_append]
    funext c
    apply Store.exec_gens
    intro op hop
    have hnone : op.gen = none := by
      obtain hmem | hmem := List.mem_append.mp hop
      · exact gen_swapOps hmem
      · exact gen_pointLinkOps hmem
    rw [hnone]
    exact (Option.some_ne_none _).symm

/-- The delivery is staged and passed; what it comes to is decided by the last link. -/
theorem apply_staged (hr : refusal seedName d g files = none) (hs : stageError env files = none) :
    apply seedName d g files env =
      if env.current.ok then
        ⟨swappedOps seedName d g files env ++
            pruneOps (d.disk.exec (swappedOps seedName d g files env)) env.readdir, g,
          if d.mainname = [] then seedName else d.mainname, none,
          some (stagedOps d g files env).length⟩
      else
        ⟨swappedOps seedName d g files env ++
            removeGenDirOps (d.disk.exec (swappedOps seedName d g files env)) g, d.running,
          if d.mainname = [] then seedName else d.mainname, some .cannotPoint,
          some (stagedOps d g files env).length⟩ := by
  simp only [apply, hr, hs, swappedOps, stagedOps]

theorem apply_pointFailed (hr : refusal seedName d g files = none)
    (hs : stageError env files = none) (hok : env.current.ok = false) :
    ((apply seedName d g files env).done d).running = d.running ∧
      ((apply seedName d g files env).done d).disk.link = previousLink d env ∧
      ((apply seedName d g files env).done d).disk.gens g = none ∧
      ∀ c, c ≠ g → ((apply seedName d g files env).done d).disk.gens c = d.disk.gens c := by
  obtain ⟨hlink, hgens⟩ := exec_swappedOps seedName d g files env
  set swapped := swappedOps seedName d g files env with hswapped
  obtain ⟨hlink', hrest'⟩ := exec_of_gen (g := g) (s := d.disk.exec swapped)
    fun op => gen_removeGenDirOps
  have hdone : (apply seedName d g files env).done d =
      ⟨(d.disk.exec swapped).exec (removeGenDirOps (d.disk.exec swapped) g), d.running,
        if d.mainname = [] then seedName else d.mainname⟩ := by
    rw [apply_staged hr hs, hok, if_neg (by decide), Outcome.done, ← hswapped, Store.exec_append]
  rw [hdone]
  refine ⟨rfl, ?_, exec_removeGenDirOps _ g, fun c hc => ?_⟩
  · rw [hlink', hlink, hok, if_neg (by decide)]
  · rw [hrest' c hc, hgens]
    exact (exec_of_gen fun op => gen_stagedOps).2 c hc

/-! ### When a failed delivery costs nothing -/

/-- The links, what the generations they name hold, and the running number are as they were. -/
structure Unchanged (before after : Daemon) : Prop where
  links : ∀ link, after.disk.link link = before.disk.link link
  contents : ∀ link gen, before.disk.link link = some gen →
    after.disk.gens gen = before.disk.gens gen
  running : after.running = before.running

/-- The delivery is refused at once; or the number it carries is not one a link names on disk, and
the swap either is not reached or has no new `previous` to write. -/
def CostsNothing (seedName : CStr) (d : Daemon) (g : UInt64) (files : List File) (env : ApplyEnv) :
    Prop :=
  refusal seedName d g files ≠ none ∨
    (∀ link, d.disk.link link = some g → d.disk.gens g = none) ∧
      (stageError env files ≠ none ∨ d.running = 0 ∨ env.previous.ok = false ∨
        d.disk.link .previous = some d.running)

/-- A disk on which one generation directory is gone and all others are as before. -/
theorem contents_iff {s s' : Store} (hnone : s'.gens g = none)
    (hrest : ∀ c, c ≠ g → s'.gens c = s.gens c) :
    (∀ link gen, s.link link = some gen → s'.gens gen = s.gens gen) ↔
      ∀ link, s.link link = some g → s.gens g = none := by
  constructor
  · intro h link hlink
    rw [← h link g hlink, hnone]
  · intro h link gen hlink
    by_cases heq : gen = g
    · subst heq
      rw [hnone, h link hlink]
    · exact hrest gen heq

theorem previousLink_eq_iff (d : Daemon) (env : ApplyEnv) :
    (∀ link, previousLink d env link = d.disk.link link) ↔
      d.running = 0 ∨ env.previous.ok = false ∨ d.disk.link .previous = some d.running := by
  by_cases hwritten : 0 < d.running ∧ env.previous.ok = true
  · have hne : d.running ≠ 0 := by
      intro hzero
      rw [hzero] at hwritten
      exact absurd hwritten.1 (by decide)
    rw [previousLink, if_pos hwritten]
    simp only [hne, hwritten.2, false_or, Bool.true_eq_false]
    constructor
    · intro h
      simpa using (h .previous).symm
    · intro h link
      cases link with
      | current => rfl
      | previous => simpa using h.symm
  · simp only [previousLink, if_neg hwritten, implies_true, true_iff]
    by_cases hzero : d.running = 0
    · exact Or.inl hzero
    · have hpos : 0 < d.running := UInt64.pos_iff_ne_zero.mpr hzero
      exact Or.inr (Or.inl (eq_false_of_ne_true fun hok => hwritten ⟨hpos, hok⟩))

theorem unchanged_done_iff (herror : (apply seedName d g files env).error ≠ none) :
    Unchanged d ((apply seedName d g files env).done d) ↔ CostsNothing seedName d g files env := by
  cases hr : refusal seedName d g files with
  | some err =>
      obtain ⟨hops, hrunning, -⟩ := apply_refused hr env
      have hsame : (apply seedName d g files env).done d =
          ⟨d.disk, d.running, (apply seedName d g files env).mainname⟩ := by
        rw [Outcome.done, hops, hrunning, Store.exec_nil]
      rw [hsame]
      refine ⟨fun _ => Or.inl (by simp [hr]), fun _ => ?_⟩
      exact { links := fun _ => rfl, contents := fun _ _ _ => rfl, running := rfl }
  | none =>
      cases hs : stageError env files with
      | some err =>
          obtain ⟨-, hrunning, -, hgen, hgone⟩ := apply_stageFailed_ops hr hs
          obtain ⟨hlink, hrest⟩ := exec_of_gen (s := d.disk) hgen
          have hcontents := contents_iff (s := d.disk) hgone hrest
          constructor
          · intro h
            exact Or.inr ⟨hcontents.mp h.contents, Or.inl (by simp [hs])⟩
          · intro h
            have hnames : ∀ link, d.disk.link link = some g → d.disk.gens g = none :=
              (h.resolve_left fun hne => hne hr).1
            exact {
              links := fun link => congrFun hlink link
              contents := hcontents.mpr hnames
              running := hrunning }
      | none =>
          have hok : env.current.ok = false := by
            by_contra hok
            rw [apply_staged hr hs, if_pos (eq_true_of_ne_false hok)] at herror
            exact herror rfl
          obtain ⟨hrunning, hlink, hgone, hrest⟩ := apply_pointFailed hr hs hok
          have hcontents := contents_iff (s := d.disk) hgone hrest
          have hlinks := previousLink_eq_iff d env
          rw [← hlink] at hlinks
          constructor
          · intro h
            exact Or.inr ⟨hcontents.mp h.contents, Or.inr (hlinks.mp h.links)⟩
          · intro h
            obtain ⟨hnames, hswap⟩ := h.resolve_left fun hne => hne hr
            exact {
              links := hlinks.mpr (hswap.resolve_left fun hne => hne hs)
              contents := hcontents.mpr hnames
              running := hrunning }

/-- A delivery that failed has changed nothing exactly when it could not cost anything. -/
theorem unchanged_iff (herror : (apply seedName d g files env).error ≠ none) :
    Unchanged d ((apply seedName d g files env).done d) ↔ CostsNothing seedName d g files env :=
  unchanged_done_iff herror

/-! ### A box that runs generation 1 and is sent it again -/

def entryName : CStr := "sysmon.conf".toList

def runningOne : Daemon where
  disk := { emptyStore with
    gens := Function.update (fun _ => none) 1 (some [⟨entryName, ['a']⟩, orderOf [⟨entryName, ['a']⟩]])
    link := Function.update (fun _ => none) .current (some 1) }
  running := 1
  mainname := entryName

def healthyApply : ApplyEnv where
  mkdir := true
  write := fun _ => none
  order := none
  verdict := true
  previous := ⟨true, true⟩
  main := ⟨true, none, true⟩
  current := ⟨true, true⟩
  readdir := []

/-- A rejected delivery of a new number costs nothing. -/
theorem unchanged_new_number :
    Unchanged runningOne ((apply entryName runningOne 2 [⟨entryName, ['b']⟩]
      { healthyApply with verdict := false }).done runningOne) := by
  refine (unchanged_iff (by decide)).mpr (Or.inr ⟨fun link hlink => ?_, Or.inl (by decide)⟩)
  cases link <;> exact absurd hlink (by decide)

/-- A rejected delivery of the running number takes the running configuration's files with it. -/
theorem redelivery_removes_running :
    (apply entryName runningOne 1 [⟨entryName, ['b']⟩]
        { healthyApply with verdict := false }).error = some .rejected ∧
      ¬ Unchanged runningOne ((apply entryName runningOne 1 [⟨entryName, ['b']⟩]
        { healthyApply with verdict := false }).done runningOne) := by
  refine ⟨by decide, fun h => ?_⟩
  have hsame := h.contents .current 1 rfl
  revert hsame
  decide

end Sysmon.ConfGen
