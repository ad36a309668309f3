import Sysmon.Fleet.Site

/-!
# Poisoned generations

A generation that turned out bad is marked in the record of its site, and the mark is never taken off.
Only DeliverSite looks at it. The box has its own way to a generation, its previous slot, and the record
follows the box; and a new generation gets the next number, whatever is marked. So a run keeps away from
a poisoned generation as long as no rollback finds one in the slot and no new one gets its number.
-/

namespace Sysmon.Fleet

open CText GoText Lines

/-- What the server does to a site. A rollout does the last three, one after the other. -/
inductive SiteOp where
  | adopt (fetched : Option (List GenFile × CStr))
  | stage (files : List GenFile)
  | deliver (env : ConfGen.ApplyEnv)
  | rollback (env : ConfGen.RollbackEnv) (err : CStr)
  | poison (gen : UInt64) (why : CStr)

def SiteOp.event (site : CStr) : SiteOp → Event
  | .adopt fetched => .adopt site fetched
  | .stage files => .stage site files
  | .deliver env => .deliver site env
  | .rollback env err => .rollback site env err
  | .poison gen why => .poison site gen why

def State.siteStep (sha : List UInt8 → Digest) (site : CStr) (f : State) (op : SiteOp) : State :=
  f.step sha (op.event site)

def State.running (f : State) (site : CStr) : UInt64 := (f.box site).daemon.running

def Store.desiredGeneration (s : Store) (site : CStr) : Option UInt64 :=
  (getDesired s site).map Desired.generation

/-- The number is marked in the record of the site. -/
def Store.Poisoned (s : Store) (site : CStr) (gen : UInt64) : Prop :=
  ∃ d, s.read site = .ok d ∧ d.Poisons gen

/-- Once a generation is poisoned and the box runs another one, no step makes the box run it or makes it
the desired one. -/
def NeverAgain (sha : List UInt8 → Digest) (site : CStr) (f : State) (ops : List SiteOp) : Prop :=
  ∀ gen pre mid op, pre ++ (mid ++ [op]) <+: ops →
    let poisoned := Run.exec (State.siteStep sha site) f pre
    let before := Run.exec (State.siteStep sha site) poisoned mid
    let after := before.siteStep sha site op
    poisoned.store.Poisoned site gen → poisoned.running site ≠ gen →
      after.running site ≠ gen ∧
        (after.store.desiredGeneration site = some gen → before.store.desiredGeneration site = some gen)

variable {sha : List UInt8 → Digest} {site : CStr} {gen : UInt64}

/-! ### The record -/

theorem read_unique {s : Store} {d d' : Desired} (h' : s.read site = .ok d') (h : s.read site = .ok d) :
    d' = d := by
  rw [h] at h'
  exact (Except.ok.inj h').symm

/-- No operation takes a mark off. -/
theorem poisons_desired {d : Desired} (h : d.Poisons gen) (op : StoreOp) : (op.desired d).Poisons gen := by
  cases op with
  | put _ _ _ => exact h
  | set _ _ _ => exact h
  | unadopt _ => exact h
  | poison _ other why =>
      obtain ⟨p, hp, rfl⟩ := List.mem_map.mp h
      rw [Desired.Poisons, StoreOp.desired, List.map_cons, List.mem_cons]
      by_cases hsame : p.1 = other
      · exact Or.inl hsame
      · exact Or.inr (List.mem_map.mpr ⟨p, List.mem_filter.mpr ⟨hp, by simpa using hsame⟩, rfl⟩)

theorem poisoned_step {s : Store} (h : s.Poisoned site gen) (op : StoreOp) :
    (s.step op).Poisoned site gen := by
  obtain ⟨d, hread, hpoisons⟩ := h
  obtain hsame | ⟨d', hread', hstep⟩ := step_cases s op
  · rw [hsame]
    exact ⟨d, hread, hpoisons⟩
  · rw [hstep]
    by_cases hsite : site = op.site
    · refine ⟨op.desired d', by rw [read_update, if_pos hsite], ?_⟩
      rw [hsite, hread'] at hread
      rw [Except.ok.inj hread]
      exact poisons_desired hpoisons op
    · exact ⟨d, by rw [read_update, if_neg hsite, hread], hpoisons⟩

/-- A record that marks something has been written. -/
theorem desiredGeneration_of_poisons {s : Store} {d : Desired} (hread : s.read site = .ok d)
    (hpoisons : d.Poisons gen) : s.desiredGeneration site = some d.generation := by
  obtain hheld | rfl := read_ok hread
  · rw [Store.desiredGeneration, getDesired, hheld]
    rfl
  · exact absurd hpoisons List.not_mem_nil

/-- A store operation at a site that has a mark makes another generation the desired one only if it
writes it. -/
theorem desiredGeneration_step {s : Store} {op : StoreOp} {d : Desired} (hsite : op.site = site)
    (hread : s.read site = .ok d) (h : (s.step op).desiredGeneration site = some gen) :
    s.desiredGeneration site = some gen ∨ (op.desired d).generation = gen := by
  obtain hsame | ⟨d', hread', hstep⟩ := step_cases s op
  · rw [hsame] at h
    exact Or.inl h
  · subst hsite
    rw [hread'] at hread
    obtain rfl := Except.ok.inj hread
    simp only [hstep, Store.desiredGeneration, getDesired, Function.update_self] at h
    exact Or.inr (Option.some.inj h)

/-! ### The box -/

theorem running_setBox (f : State) (daemon : ConfGen.Daemon) :
    (f.setBox site daemon).running site = daemon.running := by
  simp only [State.running, State.setBox, Function.update_self]

theorem running_apply (seedName : CStr) (d : ConfGen.Daemon) (files : List ConfGen.File)
    (env : ConfGen.ApplyEnv) :
    ((ConfGen.apply seedName d gen files env).done d).running = d.running ∨
      ((ConfGen.apply seedName d gen files env).done d).running = gen := by
  simp only [ConfGen.apply, ConfGen.Outcome.done]
  split
  · exact Or.inl rfl
  · exact Or.inl rfl
  · split
    · exact Or.inl rfl
    · exact Or.inl rfl
    · split
      · exact Or.inr rfl
      · exact Or.inl rfl

/-- The number that the daemon reads is the one that was sent. -/
theorem receiveFiles_generation {files received : List GenFile} {generation : UInt64} {input rest : CStr}
    (h : receiveFiles (putArgs gen files) input = (.ok (generation, received), rest)) :
    generation = gen := by
  rw [receiveFiles_args] at h
  dsimp only at h
  split at h
  · exact absurd h (by simp)
  · split at h
    · exact absurd h (by simp)
    · obtain ⟨hmap, -⟩ := Prod.mk.inj h
      cases hwalk : walkPayload (input.take (strtoll (showNat (payload files).length)).toInt.toNat) with
      | error e =>
          rw [hwalk] at hmap
          exact absurd hmap (by simp [Except.map])
      | ok files =>
          rw [hwalk] at hmap
          exact (Prod.mk.inj (Except.ok.inj hmap)).1.symm

/-- After a CONFIG-PUT the box runs what it ran, or what it was sent. -/
theorem running_put (gen : UInt64) (b : Box) (files : List GenFile) (env : ConfGen.ApplyEnv) :
    (b.put gen files env).daemon.running = b.daemon.running ∨
      (b.put gen files env).daemon.running = gen := by
  rw [Box.put]
  split
  next generation received rest hreceived =>
    obtain rfl := receiveFiles_generation hreceived
    exact running_apply _ _ _ _
  next => exact Or.inl rfl

/-- What is delivered is not poisoned. -/
theorem deliverSite_ok {s : Store} {files : List GenFile} (h : deliverSite s site = .ok (gen, files)) :
    ¬ s.Poisoned site gen := by
  rintro ⟨d, hread, hpoisons⟩
  obtain hheld | rfl := read_ok hread
  · obtain ⟨p, hp, hgen⟩ := List.mem_map.mp hpoisons
    simp only [deliverSite, getDesired, hheld] at h
    split at h
    · exact absurd h (by simp)
    · split at h
      · exact absurd h (by simp)
      next hclean =>
        split at h
        · exact absurd h (by simp)
        · obtain ⟨rfl, -⟩ := Prod.mk.inj (Except.ok.inj h)
          exact absurd hgen (by simpa using List.find?_eq_none.mp hclean p hp)
  · exact absurd hpoisons List.not_mem_nil

/-! ### One step -/

/-- What a step needs so that it does not come back to a poisoned generation: a new one does not get the
number of one, and a rollback that the box accepts does not find one in the previous slot. The complaints
of a rollback that it refuses do not look like an acceptance. -/
def KeepsAway (site : CStr) (f : State) : SiteOp → Prop
  | .adopt _ | .stage _ => ∀ d, f.store.read site = .ok d → ¬ d.Poisons (d.top + 1)
  | .rollback env err =>
      let daemon := (f.box site).daemon
      ((ConfGen.rollback daemon env).error = none →
        ¬ f.store.Poisoned site (daemon.disk.linkedGeneration .previous)) ∧
      ((ConfGen.rollback daemon env).error ≠ none → ∀ line ∈ err.splitOn '\n', isCode line = false)
  | .deliver _ | .poison _ _ => True

/-- The generation is poisoned and the box runs another one. -/
structure Averted (site : CStr) (gen : UInt64) (f : State) : Prop where
  poisoned : f.store.Poisoned site gen
  running : f.running site ≠ gen

/-- A step keeps away from the generation, and does not make it the desired one. -/
structure Kept (site : CStr) (gen : UInt64) (before after : State) : Prop where
  averted : Averted site gen after
  desired : after.store.desiredGeneration site = some gen →
    before.store.desiredGeneration site = some gen

/-- A step in which the server writes its record and the box does not move. -/
theorem kept_store {f : State} {op : StoreOp} (h : Averted site gen f) (hsite : op.site = site)
    (hother : ∀ d, f.store.read site = .ok d → d.Poisons gen → (op.desired d).generation = gen →
      d.generation = gen) :
    Kept site gen f { f with store := f.store.step op } where
  averted := ⟨poisoned_step h.poisoned op, h.running⟩
  desired := by
    intro hdesired
    obtain ⟨d, hread, hpoisons⟩ := h.poisoned
    obtain hsame | hwritten := desiredGeneration_step hsite hread hdesired
    · exact hsame
    · rw [desiredGeneration_of_poisons hread hpoisons, hother d hread hpoisons hwritten]

/-- A new generation, for the two operations that make one. -/
theorem kept_put {f : State} {s' : Store} {files : List GenFile} {hash : CStr} {new : UInt64}
    (h : Averted site gen f) (hput : putGeneration f.store site files hash = .ok (new, s'))
    (hnew : ∀ d, f.store.read site = .ok d → ¬ d.Poisons (d.top + 1)) :
    Kept site gen f { f with store := s' } := by
  have hstep : s' = f.store.step (.put site files hash) := by
    rw [Store.step, hput]
    rfl
  rw [hstep]
  refine kept_store h rfl fun d hread hpoisons hgen => ?_
  subst hgen
  exact absurd hpoisons (hnew d hread)

theorem kept_rollback {f : State} {env : ConfGen.RollbackEnv} {err : CStr} (h : Averted site gen f)
    (haway : KeepsAway site f (.rollback env err)) : Kept site gen f (f.rollback sha site env err) := by
  obtain ⟨haccepted, hrefused⟩ := haway
  by_cases hok : (ConfGen.rollback (f.box site).daemon env).error = none
  · -- the record follows the box to what was in the previous slot
    have hprev : (f.box site).daemon.disk.linkedGeneration .previous ≠ gen := by
      intro hprev
      rw [← hprev] at h
      exact haccepted hok h.poisoned
    rw [rollback_accepted hok]
    set hash := hashText (hashGeneration sha (f.box site).daemon.disk
      ((f.box site).daemon.disk.linkedGeneration .previous))
    have hstore : Kept site gen f { f with store := f.store.step (.set site _ hash) } :=
      kept_store h rfl fun d _ _ hgen => absurd hgen hprev
    refine ⟨⟨hstore.averted.poisoned, ?_⟩, hstore.desired⟩
    show (f.setBox site _).running site ≠ gen
    rw [running_setBox, (ConfGen.done_rollback hok).1]
    exact hprev
  · rw [rollback_refused hok (hrefused hok)]
    refine ⟨⟨h.poisoned, ?_⟩, id⟩
    rw [running_setBox, ConfGen.running_rollback_failed hok]
    exact h.running

theorem kept_step (f : State) (op : SiteOp) (h : Averted site gen f) (haway : KeepsAway site f op) :
    Kept site gen f (f.siteStep sha site op) := by
  cases op with
  | adopt fetched =>
      cases hadopt : adoptSite sha f.store site fetched with
      | error e => simpa [State.siteStep, SiteOp.event, State.step, hadopt, Except.toOption] using ⟨h, id⟩
      | ok result =>
          obtain ⟨files, hash, -, -, hput⟩ := adoptSite_ok hadopt
          simpa [State.siteStep, SiteOp.event, State.step, hadopt, Except.toOption] using
            kept_put h hput haway
  | stage files =>
      cases hstage : stageGeneration sha f.store site files with
      | error e => simpa [State.siteStep, SiteOp.event, State.step, hstage, Except.toOption] using ⟨h, id⟩
      | ok result =>
          simpa [State.siteStep, SiteOp.event, State.step, hstage, Except.toOption] using
            kept_put h (stageGeneration_ok hstage) haway
  | deliver env =>
      simp only [State.siteStep, SiteOp.event, State.step]
      split
      · exact ⟨h, id⟩
      next new files hdeliver =>
        refine ⟨⟨h.poisoned, ?_⟩, id⟩
        simp only [State.running, Function.update_self]
        obtain hsame | hnew := running_put new (f.box site) files env
        · rw [hsame]
          exact h.running
        · rw [hnew]
          rintro rfl
          exact deliverSite_ok hdeliver h.poisoned
  | rollback env err => exact kept_rollback h haway
  | poison other why => exact kept_store h rfl fun d _ _ hgen => hgen

/-- A run whose steps all keep away never comes back to a poisoned generation. -/
theorem neverAgain_of_keepsAway {f : State} {ops : List SiteOp}
    (hops : Run.Guarded (State.siteStep sha site) (KeepsAway site) f ops) : NeverAgain sha site f ops := by
  intro gen pre mid op hpre poisoned before after hpoisoned hrunning
  obtain ⟨rest, rfl⟩ := hpre
  obtain ⟨hbegun, -⟩ := Run.guarded_append.mp hops
  obtain ⟨-, hlater⟩ := Run.guarded_append.mp hbegun
  obtain ⟨hmid, hlast⟩ := Run.guarded_append.mp hlater
  have haverted : Averted site gen before :=
    Run.always_of_guarded (fun f op h haway => (kept_step f op h haway).averted) ⟨hpoisoned, hrunning⟩
      hmid mid (List.prefix_refl mid)
  have hkept : Kept site gen before after := kept_step before op haverted (Run.guarded_cons.mp hlast).1
  exact ⟨hkept.averted.running, hkept.desired⟩

/-! ### The slot is swapped -/

/-- The box is adopted, gets an edited configuration and goes back, and the edited one is poisoned. -/
def editPoisoned : List SiteOp :=
  [.adopt (some (oneFile 97, hashFiles sampleSha (oneFile 97))), .deliver ConfGen.healthyApply,
    .stage (oneFile 98), .deliver ConfGen.healthyApply, .rollback healthyRollback [],
    .poison 2 "pages".toList]

/-- Another edit comes as generation 3. -/
theorem neverAgain_next_edit :
    NeverAgain sampleSha ['a'] newFleet
      (editPoisoned ++ [.stage (oneFile 97), .deliver ConfGen.healthyApply]) := by
  apply neverAgain_of_keepsAway
  refine Run.guarded_cons.mpr ⟨fun d hd => ?_, Run.guarded_cons.mpr ⟨trivial, Run.guarded_cons.mpr
    ⟨fun d hd => ?_, Run.guarded_cons.mpr ⟨trivial, Run.guarded_cons.mpr ⟨⟨?_, ?_⟩,
      Run.guarded_cons.mpr ⟨trivial, Run.guarded_cons.mpr ⟨fun d hd => ?_,
        Run.guarded_cons.mpr ⟨trivial, Run.guarded_nil⟩⟩⟩⟩⟩⟩⟩⟩
  · rw [read_unique hd (d := {}) (by decide)]
    decide
  · rw [read_unique hd (d := ⟨1, hashFiles sampleSha (oneFile 97), true, 1, []⟩) (by decide)]
    decide
  · rintro - ⟨d, hd, hpoisons⟩
    rw [read_unique hd (d := ⟨2, hashFiles sampleSha (oneFile 98), true, 2, []⟩) (by decide +kernel)]
      at hpoisons
    exact absurd hpoisons List.not_mem_nil
  · exact fun hnot => absurd (by decide +kernel) hnot
  · rw [read_unique hd (d := ⟨1, hashFiles sampleSha (oneFile 97), true, 2, [(2, "pages".toList)]⟩)
      (by decide +kernel)]
    decide

/-- A second rollback goes to the poisoned generation: the first one left it in the slot. -/
theorem second_rollback_runs_poisoned :
    ¬ NeverAgain sampleSha ['a'] newFleet (editPoisoned ++ [.rollback healthyRollback []]) := by
  intro h
  obtain ⟨hrunning, -⟩ := h 2 editPoisoned [] (.rollback healthyRollback []) (List.prefix_refl _)
    ⟨⟨1, hashFiles sampleSha (oneFile 97), true, 2, [(2, "pages".toList)]⟩, by decide +kernel,
      by decide⟩ (by decide +kernel)
  exact absurd (by decide +kernel) hrunning

end Sysmon.Fleet
