import Sysmon.ConfGen.Crash

/-!
# Undoing a delivery

`previous` is one slot. A delivery puts the running generation there, if one was running and the
link could be written; a rollback goes to whatever is in it. This module says when the two fit
together, for every state the daemon can get into: a redelivery of the running number leaves
`previous` and `current` the same, and a delivery on top of the seed leaves in the slot whatever an
earlier life of the box put there.
-/

namespace Sysmon.ConfGen

variable {seedName : CStr} {d : Daemon} {g : UInt64} {files : List File} {env : ApplyEnv}

/-- The files of a generation directory, without the order file the daemon adds. -/
def deliveredFiles (dir : Option Dir) : List File := (dir.getD []).filter fun f => f.name ≠ orderFile

/-- The contents of the configuration `confgen_active_config` chooses, under the entry name the
daemon holds. -/
def activeFiles (seed : List File) (disk : Store) (mainname : CStr) : List File :=
  if activeGeneration disk mainname = 0 then seed
  else deliveredFiles (disk.gens (activeGeneration disk mainname))

def HasEntry (disk : Store) (mainname : CStr) (gen : UInt64) : Prop :=
  mainname ∈ ((disk.gens gen).getD []).map File.name

theorem activeGeneration_of_link {disk : Store} {mainname : CStr} {gen : UInt64}
    (hlink : disk.link .current = some gen) (hgen : gen ≠ 0) (hentry : HasEntry disk mainname gen) :
    activeGeneration disk mainname = gen := by
  rw [activeGeneration, hlink]
  exact if_pos ⟨hgen, hentry⟩

/-! ### What a daemon always knows -/

/-- The running number is what `current` names, and the entry name is known if the seed has one. -/
structure Settled (seedName : CStr) (d : Daemon) : Prop where
  linked : Linked d
  named : d.mainname = [] → seedName = []

theorem settled_reload (d : Daemon) : Settled seedName (d.reload seedName) where
  linked := linked_reload d
  named := by
    intro hnil
    have hread : readMainname seedName d.disk d.mainname = [] := hnil
    simp only [readMainname] at hread
    split at hread
    case isTrue hflat =>
      rw [hread] at hflat
      exact absurd hflat (by decide)
    case isFalse => exact hread

theorem mainname_outcome (seedName : CStr) (d : Daemon) (op : Op) :
    (op.outcome seedName d).mainname = d.mainname ∨
      d.mainname = [] ∧ (op.outcome seedName d).mainname = seedName := by
  cases op with
  | apply g files env =>
      by_cases hnil : d.mainname = []
      · simp only [Op.outcome, apply, if_pos hnil]
        repeat' split
        all_goals first | exact Or.inr ⟨hnil, rfl⟩ | exact Or.inl rfl
      · simp only [Op.outcome, apply, if_neg hnil]
        repeat' split
        all_goals exact Or.inl rfl
  | rollback env =>
      simp only [Op.outcome, rollback]
      repeat' split
      all_goals exact Or.inl rfl
  | revert env =>
      simp only [Op.outcome, revert]
      repeat' split
      all_goals exact Or.inl rfl
  | prune readdir => exact Or.inl rfl

theorem settled_step (d : Daemon) (e : Event) (h : Settled seedName d) :
    Settled seedName (d.step seedName e) := by
  cases e with
  | op op =>
      refine ⟨linked_step h.linked (.op op), fun hnil => ?_⟩
      obtain hsame | ⟨-, hseed⟩ := mainname_outcome seedName d op
      · exact h.named (hsame.symm.trans hnil)
      · exact hseed.symm.trans hnil
  | crash op calls => exact settled_reload _
  | reload => exact settled_reload d

theorem settled_exec (seedName : CStr) (events : List Event) :
    Settled seedName
      (Run.exec (Daemon.step seedName) (Daemon.restart seedName emptyStore) events) := by
  have hguard : Run.Guarded (Daemon.step seedName) (fun _ _ => True)
      (Daemon.restart seedName emptyStore) events := Run.guarded_of_forall fun _ _ _ => trivial
  exact Run.always_of_guarded (fun d e h _ => settled_step d e h)
    (settled_reload ⟨emptyStore, 0, []⟩) hguard events (List.prefix_refl _)

/-! ### A delivery that went through -/

theorem apply_ok (h : (apply seedName d g files env).error = none) :
    refusal seedName d g files = none ∧ stageError env files = none ∧ env.current.ok = true := by
  cases hr : refusal seedName d g files with
  | some err => exact absurd h (apply_refused hr env).2.2
  | none =>
      cases hs : stageError env files with
      | some err =>
          rw [(apply_stageFailed_ops hr hs).1] at h
          exact absurd h (by simp)
      | none =>
          refine ⟨rfl, rfl, ?_⟩
          by_contra hok
          rw [apply_staged hr hs, if_neg hok] at h
          exact absurd h (by simp)

/-- The file the daemon reads was delivered, so it has a name. -/
theorem mainname_ne_nil (hsettled : Settled seedName d) (hr : refusal seedName d g files = none) :
    d.mainname ≠ [] := by
  intro hnil
  have hdelivered : seedName ∈ files.map File.name := by
    by_contra hmissing
    simp only [refusal, if_pos hnil, if_neg hmissing] at hr
    repeat' split at hr
    all_goals exact absurd hr (by simp)
  obtain ⟨f, hf, hname⟩ := List.mem_map.mp hdelivered
  have hflat := (refusal_none hr).2 f hf
  rw [hname, hsettled.named hnil] at hflat
  exact absurd hflat (by decide)

/-- What the daemon is left with: the links, and the generation `previous` names. -/
theorem done_apply (hsettled : Settled seedName d)
    (h : (apply seedName d g files env).error = none) :
    ((apply seedName d g files env).done d).running = g ∧
      ((apply seedName d g files env).done d).mainname = d.mainname ∧
      ((apply seedName d g files env).done d).disk.link .previous = previousLink d env .previous ∧
      ∀ prev, previousLink d env .previous = some prev → prev ≠ g →
        ((apply seedName d g files env).done d).disk.gens prev = d.disk.gens prev := by
  obtain ⟨hr, hs, hok⟩ := apply_ok h
  obtain ⟨hlink, hgens⟩ := exec_swappedOps seedName d g files env
  rw [apply_staged hr hs, if_pos hok, if_neg (mainname_ne_nil hsettled hr), Outcome.done]
  set swapped := d.disk.exec (swappedOps seedName d g files env) with hswapped
  have hprevious : swapped.link .previous = previousLink d env .previous := by
    rw [hlink, if_pos hok]
    rfl
  refine ⟨rfl, rfl, ?_, fun prev hprev hne => ?_⟩
  · dsimp only
    rw [Store.exec_append, ← hswapped, ← hprevious]
    apply Store.exec_link
    intro op hop
    rw [writes_pruneOps hop]
    exact (Option.some_ne_none _).symm
  · dsimp only
    rw [Store.exec_append, ← hswapped]
    rw [Store.exec_gens fun op hop => gen_pruneOps hop (hprevious.trans hprev), hgens]
    exact (exec_of_gen fun op => gen_stagedOps).2 prev hne

theorem refusal_none_main (hr : refusal seedName d g files = none) :
    g ≠ 0 ∧ (if d.mainname = [] then seedName else d.mainname) ∈ files.map File.name := by
  simp only [refusal] at hr
  generalize (if d.mainname = [] then seedName else d.mainname) = mainname at hr ⊢
  split at hr
  · exact absurd hr (by simp)
  · split at hr
    · exact absurd hr (by simp)
    next hne =>
      split at hr
      · exact absurd hr (by simp)
      · split at hr
        next hmem => exact ⟨hne, hmem⟩
        next => exact absurd hr (by simp)

/-! ### Rolling back -/

theorem rollback_noPrevious_iff (d : Daemon) (env : RollbackEnv) :
    (rollback d env).error = some .noPrevious ↔
      d.disk.linkedGeneration .previous = 0 ∨ d.disk.linkedGeneration .previous = d.running := by
  simp only [rollback]
  split
  case isTrue hheld => exact ⟨fun _ => hheld, fun _ => rfl⟩
  case isFalse hheld =>
    refine ⟨fun h => ?_, fun h => absurd h hheld⟩
    split at h
    · exact absurd h (by simp)
    · split at h <;> exact absurd h (by simp)

/-- A rollback goes through when `previous` names another generation with its entry file in place,
that still parses and can be linked. -/
theorem rollback_ok_iff (d : Daemon) (env : RollbackEnv) :
    (rollback d env).error = none ↔
      d.disk.linkedGeneration .previous ≠ 0 ∧ d.disk.linkedGeneration .previous ≠ d.running ∧
        HasEntry d.disk d.mainname (d.disk.linkedGeneration .previous) ∧
        env.verdict = true ∧ env.current.ok = true := by
  simp only [rollback]
  split
  case isTrue hheld =>
    refine ⟨fun h => absurd h (by simp), fun h => ?_⟩
    exact hheld.elim (fun hzero => absurd hzero h.1) fun hsame => absurd hsame h.2.1
  case isFalse hheld =>
    rw [not_or] at hheld
    split
    case isTrue hinvalid =>
      refine ⟨fun h => absurd h (by simp), fun h => ?_⟩
      have hentry := h.2.2.1
      rw [HasEntry] at hentry
      simp [validateConfig, hentry, h.2.2.2.1] at hinvalid
    case isFalse hvalid =>
      have hpassed : HasEntry d.disk d.mainname (d.disk.linkedGeneration .previous) ∧
          env.verdict = true := by
        simpa [validateConfig, HasEntry] using hvalid
      split
      case isTrue hok =>
        refine ⟨fun h => absurd h (by simp), fun h => ?_⟩
        rw [h.2.2.2.2] at hok
        exact absurd hok (by decide)
      case isFalse hok =>
        exact ⟨fun _ => ⟨hheld.1, hheld.2, hpassed.1, hpassed.2, by simpa using hok⟩, fun _ => rfl⟩

/-- What a rollback that went through leaves: the generation that was `previous` runs, and no directory
has changed. -/
theorem done_rollback {d : Daemon} {env : RollbackEnv} (h : (rollback d env).error = none) :
    ((rollback d env).done d).running = d.disk.linkedGeneration .previous ∧
      ((rollback d env).done d).mainname = d.mainname ∧
      ((rollback d env).done d).disk.gens = d.disk.gens := by
  obtain ⟨hne, hother, hentry, hverdict, hok⟩ := (rollback_ok_iff d env).mp h
  have hvalid : validateConfig d.disk (d.disk.linkedGeneration .previous) d.mainname env.verdict =
      true := by
    rw [HasEntry] at hentry
    simp [validateConfig, hentry, hverdict]
  have hrollback : rollback d env =
      ⟨pointLinkOps env.current .current (d.disk.linkedGeneration .previous) ++
        (if 0 < d.running then pointLinkOps env.previous .previous d.running else []),
        d.disk.linkedGeneration .previous, d.mainname, none, none⟩ := by
    simp [rollback, hne, hother, hvalid, hok]
  rw [hrollback, Outcome.done]
  refine ⟨rfl, rfl, ?_⟩
  funext c
  apply Store.exec_gens
  intro op hop
  have hnone : op.gen = none := by
    obtain hmem | hmem := List.mem_append.mp hop
    · exact gen_pointLinkOps hmem
    · split at hmem
      · exact gen_pointLinkOps hmem
      · exact absurd hmem List.not_mem_nil
  rw [hnone]
  exact (Option.some_ne_none _).symm

theorem running_rollback_failed {d : Daemon} {env : RollbackEnv} (h : (rollback d env).error ≠ none) :
    ((rollback d env).done d).running = d.running := by
  simp only [rollback] at h ⊢
  split
  · rfl
  · split
    · rfl
    · split
      · rfl
      next hheld hvalid hok =>
        rw [if_neg hheld, if_neg hvalid, if_neg hok] at h
        exact absurd rfl h

/-- After it, the generation that was `previous` is the active one. -/
theorem activeFiles_rollback {seed : List File} {d : Daemon} {env : RollbackEnv} (hlinked : Linked d)
    (h : (rollback d env).error = none) :
    activeFiles seed ((rollback d env).done d).disk ((rollback d env).done d).mainname =
      deliveredFiles (d.disk.gens (d.disk.linkedGeneration .previous)) := by
  obtain ⟨hne, -, hentry, -, -⟩ := (rollback_ok_iff d env).mp h
  obtain ⟨hrunning, hname, hgens⟩ := done_rollback h
  have hcurrent : ((rollback d env).done d).disk.link .current =
      some (d.disk.linkedGeneration .previous) := by
    have hlink := linked_rollback hlinked env
    rw [Linked, hrunning] at hlink
    exact hlink (UInt64.pos_iff_ne_zero.mpr hne)
  have hhas : HasEntry ((rollback d env).done d).disk d.mainname
      (d.disk.linkedGeneration .previous) := by
    rw [HasEntry, hgens]
    exact hentry
  have hactive := activeGeneration_of_link hcurrent hne hhas
  rw [activeFiles, hname, hactive, if_neg hne, hgens]

/-! ### When it undoes the delivery -/

/-- A rollback right after the delivery: on offer if a generation was running, and if it goes
through, the configuration is what it was. -/
structure Undone (seed : List File) (before after : Daemon) : Prop where
  available : 0 < before.running → ∀ env, (rollback after env).error ≠ some .noPrevious
  contents : ∀ env, (rollback after env).error = none →
    activeFiles seed ((rollback after env).done after).disk ((rollback after env).done after).mainname =
      activeFiles seed before.disk before.mainname

/-- The delivery writes `previous`, and it is not a redelivery; or it leaves `previous` as it is, and
there is nothing there to go back to and nothing that should be, or what is there cannot be read or
is, file for file, the configuration that was active. -/
def Undoable (seed : List File) (d : Daemon) (g : UInt64) (env : ApplyEnv) : Prop :=
  if 0 < d.running ∧ env.previous.ok = true then d.running ≠ g
  else
    let prev := d.disk.linkedGeneration .previous
    if prev = 0 ∨ prev = g then d.running = 0
    else HasEntry d.disk d.mainname prev →
      deliveredFiles (d.disk.gens prev) = activeFiles seed d.disk d.mainname

/-- Seen from the state before the delivery: `prev` is what `previous` will name. -/
theorem undone_iff {seed : List File} {after : Daemon} {prev : UInt64} (hlinked : Linked after)
    (hrunning : after.running = g) (hname : after.mainname = d.mainname)
    (hprev : after.disk.linkedGeneration .previous = prev)
    (hgens : prev ≠ 0 → prev ≠ g → after.disk.gens prev = d.disk.gens prev) :
    Undone seed d after ↔
      if prev = 0 ∨ prev = g then d.running = 0
      else HasEntry d.disk d.mainname prev →
        deliveredFiles (d.disk.gens prev) = activeFiles seed d.disk d.mainname := by
  have hentry : prev ≠ 0 → prev ≠ g →
      (HasEntry after.disk after.mainname prev ↔ HasEntry d.disk d.mainname prev) := by
    intro hne hother
    rw [HasEntry, HasEntry, hgens hne hother, hname]
  by_cases hheld : prev = 0 ∨ prev = g
  · rw [if_pos hheld]
    have hrefused : ∀ env, (rollback after env).error = some .noPrevious := by
      intro env
      rw [rollback_noPrevious_iff, hprev, hrunning]
      exact hheld
    constructor
    · intro h
      by_contra hne
      exact h.available (UInt64.pos_iff_ne_zero.mpr hne) ⟨true, ⟨true, true⟩, ⟨true, true⟩⟩
        (hrefused _)
    · intro hzero
      refine ⟨fun hpos => ?_, fun env hok => ?_⟩
      · rw [hzero] at hpos
        exact absurd hpos (UInt64.lt_irrefl 0)
      · rw [hrefused env] at hok
        exact absurd hok (by simp)
  · rw [if_neg hheld]
    rw [not_or] at hheld
    obtain ⟨hne, hother⟩ := hheld
    constructor
    · intro h hhas
      have hok : (rollback after ⟨true, ⟨true, true⟩, ⟨true, true⟩⟩).error = none := by
        rw [rollback_ok_iff, hprev, hrunning]
        exact ⟨hne, hother, (hentry hne hother).mpr hhas, rfl, rfl⟩
      have hcontents := h.contents _ hok
      rwa [activeFiles_rollback hlinked hok, hprev, hgens hne hother] at hcontents
    · intro h
      refine ⟨fun _ env hrefused => ?_, fun env hok => ?_⟩
      · rw [rollback_noPrevious_iff, hprev, hrunning] at hrefused
        exact hrefused.elim hne hother
      · have hhas := ((rollback_ok_iff after env).mp hok).2.2.1
        rw [hprev] at hhas
        rw [activeFiles_rollback hlinked hok, hprev, hgens hne hother]
        exact h ((hentry hne hother).mp hhas)

/-- The generation that runs is the active one as soon as its entry file is there. -/
theorem activeFiles_running {seed : List File} (hlinked : Linked d) (hpos : 0 < d.running)
    (hentry : HasEntry d.disk d.mainname d.running) :
    activeFiles seed d.disk d.mainname = deliveredFiles (d.disk.gens d.running) := by
  have hne : d.running ≠ 0 := UInt64.pos_iff_ne_zero.mp hpos
  rw [activeFiles, activeGeneration_of_link (hlinked hpos) hne hentry, if_neg hne]

/-- From every state the daemon can reach, a delivery that goes through can be undone exactly when
it is `Undoable` there. -/
theorem undone_apply_iff {seed : List File} {events : List Event}
    (hd : d = Run.exec (Daemon.step seedName) (Daemon.restart seedName emptyStore) events)
    (hok : (apply seedName d g files env).error = none) :
    Undone seed d ((apply seedName d g files env).done d) ↔ Undoable seed d g env := by
  have hsettled : Settled seedName d := hd ▸ settled_exec seedName events
  obtain ⟨hrunning, hname, hlink, hgens⟩ := done_apply hsettled hok
  have hlinked : Linked ((apply seedName d g files env).done d) := linked_apply hsettled.linked
  set after := (apply seedName d g files env).done d
  by_cases hwritten : 0 < d.running ∧ env.previous.ok = true
  · -- `previous` is the generation that was running
    have hprevious : previousLink d env .previous = some d.running := by
      rw [previousLink, if_pos hwritten, Function.update_self]
    have hprev : after.disk.linkedGeneration .previous = d.running := by
      rw [Store.linkedGeneration, hlink, hprevious]
      rfl
    have hne : d.running ≠ 0 := UInt64.pos_iff_ne_zero.mp hwritten.1
    rw [undone_iff hlinked hrunning hname hprev fun _ => hgens _ hprevious, Undoable,
      if_pos hwritten]
    by_cases hsame : d.running = g
    · simp [hsame, hsame ▸ hne]
    · simp only [hne, hsame, or_self, if_false, ne_eq, not_false_eq_true, iff_true]
      exact fun hentry => (activeFiles_running hsettled.linked hwritten.1 hentry).symm
  · -- `previous` is whatever it was
    have hprevious : previousLink d env .previous = d.disk.link .previous := by
      rw [previousLink, if_neg hwritten]
    have hprev : after.disk.linkedGeneration .previous = d.disk.linkedGeneration .previous := by
      rw [Store.linkedGeneration, hlink, hprevious]
      rfl
    rw [undone_iff hlinked hrunning hname hprev, Undoable, if_neg hwritten]
    intro hne hother
    apply hgens _ _ hother
    rw [hprevious]
    cases hlink' : d.disk.link .previous with
    | none => simp [Store.linkedGeneration, hlink'] at hne
    | some prev => simp [Store.linkedGeneration, hlink']

/-- A box that was never managed, after some events. -/
def boxAfter (events : List Event) : Daemon :=
  Run.exec (Daemon.step entryName) (Daemon.restart entryName emptyStore) events

theorem undone_second_delivery :
    Undone [] (boxAfter [.op (delivery 1 'a')])
      ((apply entryName (boxAfter [.op (delivery 1 'a')]) 2 [⟨entryName, ['b']⟩]
        healthyApply).done (boxAfter [.op (delivery 1 'a')])) := by
  refine (undone_apply_iff rfl (by decide)).mpr ?_
  rw [Undoable, if_pos (by decide)]
  decide

/-- The running number delivered again with other contents leaves no way back. -/
theorem redelivery_not_undone :
    (apply entryName (boxAfter [.op (delivery 1 'a')]) 1 [⟨entryName, ['b']⟩]
        healthyApply).error = none ∧
      ¬ Undone [] (boxAfter [.op (delivery 1 'a')])
        ((apply entryName (boxAfter [.op (delivery 1 'a')]) 1 [⟨entryName, ['b']⟩]
          healthyApply).done (boxAfter [.op (delivery 1 'a')])) := by
  refine ⟨by decide, fun h => ?_⟩
  exact h.available (by decide) ⟨true, ⟨true, true⟩, ⟨true, true⟩⟩ (by decide)

end Sysmon.ConfGen
