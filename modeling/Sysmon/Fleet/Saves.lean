import Sysmon.Fleet.Site

/-!
# Saves of a site's configuration

A save of `confsite.go` takes four steps: it fetches what the box has loaded and compares the version,
stages its edit, reads what is desired by then, and sends that. Each step is alone at the store or at the
box, and between them other saves take theirs. The box reloads some time after it has accepted a delivery,
and a CONFIG-GET before that still brings the files from before. Which files of a configuration the box
opens is a parameter.
-/

namespace Sysmon.Fleet

open CText GoText

/-- `files[0].Content = []byte(data.Content)` -/
def rawEdit (content : List UInt8) : List GenFile → Option (List GenFile)
  | [] => none
  | f :: files => some (⟨f.name, content⟩ :: files)

/-- What a client submits: the version it has loaded, and its edit of the files of the box. A structured
edit can fail. -/
structure Save where
  version : CStr
  edit : List GenFile → Option (List GenFile)
  loaded : version ≠ []

inductive Phase where
  | ready
  | fetched (files : List GenFile)
  | staged (was edited : List GenFile)
  | sending (was edited : List GenFile) (gen : UInt64) (files : List GenFile)
  | answered (ok : Bool)
  deriving DecidableEq, Repr

/-- A delivery that the box has taken: the save, and what it had fetched and made of it. -/
structure Entry where
  save : Nat
  was : List GenFile
  edited : List GenFile
  deriving DecidableEq, Repr

/-- The server's store, the files the box runs and those it has loaded, how far each save has come, and
the deliveries that the box has taken. -/
structure Desk where
  store : Store
  running : List GenFile
  loaded : List GenFile
  phase : Nat → Phase
  log : List Entry

/-- What the box makes of a delivery: it runs it, or it refuses it and runs some files afterwards. -/
inductive Taking where
  | accepted
  | refused (running : List GenFile)

/-- A step of a save, with what the link and the box do; or the box reloads. -/
inductive SaveEvent where
  | fetch (save : Nat) (arrives : Bool)
  | stage (save : Nat)
  | read (save : Nat)
  | send (save : Nat) (taking : Taking) (told : Bool)
  | reload

def Desk.setPhase (d : Desk) (i : Nat) (phase : Phase) : Desk :=
  { d with phase := Function.update d.phase i phase }

section steps

variable (sha : List UInt8 → Digest) (opened : List GenFile → List GenFile) (site : CStr) (saves : Nat → Save)

/-- `siteFilesForEdit` -/
def Desk.fetch (d : Desk) (i : Nat) (arrives : Bool) : Desk :=
  if !arrives || d.loaded = [] then d.setPhase i (.answered false)
  else if (saves i).version ≠ [] ∧ (saves i).version ≠ hashFiles sha d.loaded then
    d.setPhase i (.answered false)
  else d.setPhase i (.fetched d.loaded)

/-- The edit, and the first half of `stageAndDeliver`. -/
def Desk.stage (d : Desk) (i : Nat) (files : List GenFile) : Desk :=
  match (saves i).edit files with
  | none => d.setPhase i (.answered false)
  | some edited =>
      match stageGeneration sha d.store site edited with
      | .error _ => d.setPhase i (.answered false)
      | .ok (_, store) => { d.setPhase i (.staged files edited) with store := store }

/-- The first half of `DeliverSite`. -/
def Desk.read (d : Desk) (i : Nat) (was edited : List GenFile) : Desk :=
  match deliverSite d.store site with
  | .error _ => d.setPhase i (.answered false)
  | .ok (gen, files) => d.setPhase i (.sending was edited gen files)

/-- The second half of `DeliverSite`, and the answer to the client. -/
def Desk.send (d : Desk) (i : Nat) (was edited files : List GenFile) (taking : Taking) (told : Bool) : Desk :=
  match taking with
  | .accepted =>
      { d.setPhase i (.answered told) with
        running := files
        log := d.log ++ [⟨i, was, edited⟩] }
  | .refused running => { d.setPhase i (.answered told) with running := running }

/-- A step that is not the next one of its save does not happen. -/
def Desk.step (d : Desk) : SaveEvent → Desk
  | .fetch i arrives =>
      match d.phase i with
      | .ready => d.fetch sha saves i arrives
      | _ => d
  | .stage i =>
      match d.phase i with
      | .fetched files => d.stage sha site saves i files
      | _ => d
  | .read i =>
      match d.phase i with
      | .staged was edited => d.read site i was edited
      | _ => d
  | .send i taking told =>
      match d.phase i with
      | .sending was edited _ files => d.send i was edited files taking told
      | _ => d
  | .reload => { d with loaded := opened d.running }

end steps

/-! ### No update is lost -/

/-- The files come from others by edits, each made of what the box opens of the one before. -/
def Built (opened : List GenFile → List GenFile) (saves : Nat → Save) :
    List GenFile → List Entry → List GenFile → Prop
  | first, [], running => running = first
  | first, e :: log, running =>
      e.was = opened first ∧ (saves e.save).edit e.was = some e.edited ∧ Built opened saves e.edited log running

/-- At most one save that is based on a version succeeds, and what the box runs is made of what it ran at
first by the edits it has taken, among them those of all saves that were answered with success. -/
structure NoLostUpdate (opened : List GenFile → List GenFile) (saves : Nat → Save) (first : List GenFile)
    (d : Desk) : Prop where
  once : ∀ i j, d.phase i = .answered true → d.phase j = .answered true →
    (saves i).version = (saves j).version → i = j
  built : Built opened saves first d.log d.running
  contained : ∀ i, d.phase i = .answered true → ∃ e ∈ d.log, e.save = i

/-- What a step needs so that no update is lost. A delivery that the box takes is the edit of the save that
sends it, and this save has fetched what the box opens of what it runs now; and the new version is not one
that a save in the log, or this one, was based on. A delivery that the box refuses leaves what it runs, and is
not taken for accepted. -/
def InTurn (sha : List UInt8 → Digest) (opened : List GenFile → List GenFile) (saves : Nat → Save) (d : Desk) :
    SaveEvent → Prop
  | .send i taking told => ∀ was edited gen files, d.phase i = .sending was edited gen files →
      match taking with
      | .accepted => files = edited ∧ was = opened d.running ∧
          hashFiles sha (opened edited) ∉ (saves i).version :: d.log.map fun e => (saves e.save).version
      | .refused running => running = d.running ∧ told = false
  | _ => True

/-- All saves are still to begin. -/
structure Desk.Idle (d : Desk) : Prop where
  phase : ∀ i, d.phase i = .ready
  log : d.log = []

variable {sha : List UInt8 → Digest} {opened : List GenFile → List GenFile} {site : CStr} {saves : Nat → Save}
  {first running : List GenFile} {d : Desk} {i : Nat}

theorem built_append {log : List Entry} {e : Entry} (h : Built opened saves first log running)
    (hwas : e.was = opened running) (hedit : (saves e.save).edit e.was = some e.edited) :
    Built opened saves first (log ++ [e]) e.edited := by
  induction log generalizing first with
  | nil =>
      rw [Built] at h
      subst h
      exact ⟨hwas, hedit, rfl⟩
  | cons entry log ih =>
      obtain ⟨hfirst, hentry, hrest⟩ := h
      exact ⟨hfirst, hentry, ih hrest⟩

/-! ### What every step keeps -/

/-- What a save carries from its fetch: files of the version it was given, and its edit of them. -/
def Phase.Based (sha : List UInt8 → Digest) (s : Save) : Phase → Prop
  | .fetched files => hashFiles sha files = s.version
  | .staged was edited | .sending was edited _ _ => hashFiles sha was = s.version ∧ s.edit was = some edited
  | _ => True

structure Tidy (sha : List UInt8 → Digest) (opened : List GenFile → List GenFile) (saves : Nat → Save)
    (first : List GenFile) (d : Desk) : Prop where
  built : Built opened saves first d.log d.running
  distinct : (d.log.map fun e => (saves e.save).version).Nodup
  unseen : hashFiles sha (opened d.running) ∉ d.log.map fun e => (saves e.save).version
  based : ∀ i, (d.phase i).Based sha (saves i)
  contained : ∀ i, d.phase i = .answered true → ∃ e ∈ d.log, e.save = i

theorem Tidy.noLostUpdate (h : Tidy sha opened saves first d) : NoLostUpdate opened saves first d where
  once := by
    intro i j hi hj hversion
    obtain ⟨e, he, rfl⟩ := h.contained i hi
    obtain ⟨e', he', rfl⟩ := h.contained j hj
    rw [List.inj_on_of_nodup_map h.distinct he he' hversion]
  built := h.built
  contained := h.contained

/-- A save moves on without an answer of success, and the box is left alone. -/
theorem Tidy.move (h : Tidy sha opened saves first d) {phase : Phase} (hbased : phase.Based sha (saves i))
    (hopen : phase ≠ .answered true) (store : Store) :
    Tidy sha opened saves first { d.setPhase i phase with store := store } where
  built := h.built
  distinct := h.distinct
  unseen := h.unseen
  based := by
    intro j
    show (Function.update d.phase i phase j).Based sha (saves j)
    by_cases hj : j = i
    · subst hj
      rwa [Function.update_self]
    · rw [Function.update_of_ne hj]
      exact h.based j
  contained := by
    intro j hok
    change Function.update d.phase i phase j = .answered true at hok
    by_cases hj : j = i
    · rw [hj, Function.update_self] at hok
      exact absurd hok hopen
    · rw [Function.update_of_ne hj] at hok
      exact h.contained j hok

theorem Tidy.fail (h : Tidy sha opened saves first d) (i : Nat) :
    Tidy sha opened saves first (d.setPhase i (.answered false)) := by
  have hbased : Phase.Based sha (saves i) (.answered false) := trivial
  exact h.move hbased (by simp) d.store

theorem tidy_fetch (h : Tidy sha opened saves first d) (arrives : Bool) :
    Tidy sha opened saves first (d.fetch sha saves i arrives) := by
  rw [Desk.fetch]
  split
  · exact h.fail i
  · split
    · exact h.fail i
    next hmatch =>
      have hbased : Phase.Based sha (saves i) (.fetched d.loaded) := by
        by_contra hne
        exact hmatch ⟨(saves i).loaded, fun heq => hne heq.symm⟩
      exact h.move hbased (by simp) d.store

theorem tidy_stage {files : List GenFile} (h : Tidy sha opened saves first d)
    (hphase : d.phase i = .fetched files) : Tidy sha opened saves first (d.stage sha site saves i files) := by
  have hfetched := h.based i
  rw [hphase] at hfetched
  rw [Desk.stage]
  split
  · exact h.fail i
  next edited hedit =>
    split
    · exact h.fail i
    next gen store hstage =>
      have hbased : Phase.Based sha (saves i) (.staged files edited) := ⟨hfetched, hedit⟩
      exact h.move hbased (by simp) store

theorem tidy_read {was edited : List GenFile} (h : Tidy sha opened saves first d)
    (hphase : d.phase i = .staged was edited) : Tidy sha opened saves first (d.read site i was edited) := by
  have hstaged := h.based i
  rw [hphase] at hstaged
  rw [Desk.read]
  split
  · exact h.fail i
  next gen files hdeliver =>
    have hbased : Phase.Based sha (saves i) (.sending was edited gen files) := hstaged
    exact h.move hbased (by simp) d.store

/-- The box takes the edit of a save whose turn it is. -/
theorem tidy_accepted {was edited : List GenFile} (h : Tidy sha opened saves first d)
    (hbased : hashFiles sha was = (saves i).version ∧ (saves i).edit was = some edited)
    (hwas : was = opened d.running) (hnew : hashFiles sha (opened edited) ∉
      (saves i).version :: d.log.map fun e => (saves e.save).version) (told : Bool) :
    Tidy sha opened saves first (d.send i was edited edited .accepted told) where
  built := built_append (e := ⟨i, was, edited⟩) h.built hwas hbased.2
  distinct := by
    rw [Desk.send, List.map_append, List.map_singleton, List.nodup_append]
    refine ⟨h.distinct, List.nodup_singleton _, ?_⟩
    rintro version hmem version' hlast rfl
    rw [List.mem_singleton.mp hlast, ← hbased.1, hwas] at hmem
    exact h.unseen hmem
  unseen := by
    rw [Desk.send, List.map_append, List.map_singleton, List.mem_append, List.mem_singleton]
    rintro (hmem | heq)
    · exact hnew (List.mem_cons_of_mem _ hmem)
    · exact hnew (List.mem_cons.mpr (Or.inl heq))
  based := by
    intro j
    show (Function.update d.phase i (.answered told) j).Based sha (saves j)
    by_cases hj : j = i
    · rw [hj, Function.update_self]
      trivial
    · rw [Function.update_of_ne hj]
      exact h.based j
  contained := by
    intro j hok
    change Function.update d.phase i (.answered told) j = .answered true at hok
    by_cases hj : j = i
    · exact ⟨_, List.mem_append_right _ (List.mem_singleton.mpr rfl), hj.symm⟩
    · rw [Function.update_of_ne hj] at hok
      obtain ⟨e, he, hsave⟩ := h.contained j hok
      exact ⟨e, List.mem_append_left _ he, hsave⟩

theorem tidy_step (d : Desk) (e : SaveEvent) (h : Tidy sha opened saves first d)
    (he : InTurn sha opened saves d e) : Tidy sha opened saves first (d.step sha opened site saves e) := by
  cases e with
  | fetch i arrives =>
      rw [Desk.step]
      split
      · exact tidy_fetch h arrives
      · exact h
  | stage i =>
      rw [Desk.step]
      split
      next files hphase => exact tidy_stage h hphase
      next => exact h
  | read i =>
      rw [Desk.step]
      split
      next was edited hphase => exact tidy_read h hphase
      next => exact h
  | send i taking told =>
      rw [Desk.step]
      split
      next was edited gen files hphase =>
        have hbased := h.based i
        rw [hphase] at hbased
        have hturn := he was edited gen files hphase
        cases taking with
        | accepted =>
            obtain ⟨rfl, hwas, hnew⟩ := hturn
            exact tidy_accepted h hbased hwas hnew told
        | refused running =>
            obtain ⟨rfl, rfl⟩ := hturn
            exact h.fail i
      next => exact h
  | reload => exact ⟨h.built, h.distinct, h.unseen, h.based, h.contained⟩

/-- In every run whose steps all come in turn, no update is lost. -/
theorem noLostUpdate_always {events : List SaveEvent} (hidle : d.Idle)
    (hevents : Run.Guarded (Desk.step sha opened site saves) (InTurn sha opened saves) d events) :
    Run.Always (Desk.step sha opened site saves) (NoLostUpdate opened saves d.running) d events := by
  have htidy : Tidy sha opened saves d.running d := by
    refine ⟨?_, ?_, ?_, fun i => ?_, fun i hok => ?_⟩
    · rw [hidle.log]
      rfl
    · rw [hidle.log]
      exact List.nodup_nil
    · rw [hidle.log]
      exact List.not_mem_nil
    · rw [hidle.phase i]
      trivial
    · rw [hidle.phase i] at hok
      exact absurd hok (by simp)
  have halways := Run.always_of_guarded (fun d e h he => tidy_step d e h he) htidy hevents
  exact fun pre hpre => (halways pre hpre).noLostUpdate

/-! ### What the box runs -/

/-- The files of the configuration that a box reloads. -/
def Box.files (seed : List ConfGen.File) (b : Box) : List GenFile :=
  (ConfGen.activeFiles seed b.daemon.disk b.daemon.mainname).map ofFile

theorem textBytes_bytesText (bytes : List UInt8) : textBytes (bytesText bytes) = bytes := by
  have hall : ∀ n < 256, UInt8.ofNat (Char.ofNat n).toNat = UInt8.ofNat n := by decide +kernel
  rw [textBytes, bytesText, List.map_map]
  refine (List.map_congr_left fun b _ => ?_).trans (List.map_id' bytes)
  exact (hall b.toNat b.toNat_lt).trans UInt8.ofNat_toNat

theorem ofFile_toFile (f : GenFile) : ofFile (toFile f) = f := by
  rw [toFile, ofFile, textBytes_bytesText, textBytes_bytesText]

/-! ### Two saves of one version -/

theorem hashFiles_ne_nil (sha : List UInt8 → Digest) (files : List GenFile) : hashFiles sha files ≠ [] := by
  have hsize := (sha (hashOfFiles files)).size
  cases hbytes : (sha (hashOfFiles files)).bytes with
  | nil =>
      rw [hbytes] at hsize
      exact absurd hsize (by decide)
  | cons byte bytes => simp [hashFiles, hexText, hbytes]

/-- Two raw saves, one after a look at `oneFile 97` and the other after a look at `oneFile letter`. -/
def sampleSaves (letter : UInt8) (i : Nat) : Save :=
  if i = 0 then ⟨hashFiles sampleSha (oneFile 97), rawEdit [98], hashFiles_ne_nil _ _⟩
  else ⟨hashFiles sampleSha (oneFile letter), rawEdit [99], hashFiles_ne_nil _ _⟩

/-- The site is adopted, and its box runs `oneFile 97`. -/
def sampleDesk : Desk where
  store := (newFleet.step sampleSha
    (.adopt ['a'] (some (oneFile 97, hashFiles sampleSha (oneFile 97))))).store
  running := oneFile 97
  loaded := oneFile 97
  phase := fun _ => .ready
  log := []

theorem idle_sampleDesk : sampleDesk.Idle := ⟨fun _ => rfl, rfl⟩

/-- A save after its fetch, with a box that takes the delivery. -/
def restOfSave (i : Nat) : List SaveEvent := [.stage i, .read i, .send i .accepted true]

/-- The second save is made after the first has been loaded. -/
theorem noLostUpdate_in_turn :
    Run.Always (Desk.step sampleSha id ['a'] (sampleSaves 98)) (NoLostUpdate id (sampleSaves 98) (oneFile 97))
      sampleDesk ((.fetch 0 true :: restOfSave 0) ++ .reload :: .fetch 1 true :: restOfSave 1) := by
  refine noLostUpdate_always idle_sampleDesk ?_
  refine Run.guarded_cons.mpr ⟨trivial, Run.guarded_cons.mpr ⟨trivial, Run.guarded_cons.mpr ⟨trivial,
    Run.guarded_cons.mpr ⟨fun was edited gen files hphase => ?_, Run.guarded_cons.mpr ⟨trivial,
      Run.guarded_cons.mpr ⟨trivial, Run.guarded_cons.mpr ⟨trivial, Run.guarded_cons.mpr ⟨trivial,
        Run.guarded_cons.mpr ⟨fun was edited gen files hphase => ?_, Run.guarded_nil⟩⟩⟩⟩⟩⟩⟩⟩⟩
  · have hsending : Phase.sending was edited gen files =
        .sending (oneFile 97) (oneFile 98) 2 (oneFile 98) := hphase.symm.trans (by decide +kernel)
    injection hsending with hwas hedited _ hfiles
    subst hwas hedited hfiles
    exact ⟨rfl, by decide +kernel, by decide +kernel⟩
  · have hsending : Phase.sending was edited gen files =
        .sending (oneFile 98) (oneFile 99) 3 (oneFile 99) := hphase.symm.trans (by decide +kernel)
    injection hsending with hwas hedited _ hfiles
    subst hwas hedited hfiles
    exact ⟨rfl, by decide +kernel, by decide +kernel⟩

/-- Both saves fetch before either delivers: both succeed, and the edit of the first is gone. -/
theorem two_saves_of_one_version :
    ¬ Run.Always (Desk.step sampleSha id ['a'] (sampleSaves 97)) (NoLostUpdate id (sampleSaves 97) (oneFile 97))
      sampleDesk (.fetch 0 true :: .fetch 1 true :: (restOfSave 0 ++ restOfSave 1)) := by
  intro h
  have hlost := h _ (List.prefix_refl _)
  exact absurd (hlost.once 0 1 (by decide +kernel) (by decide +kernel) rfl) (by decide)

end Sysmon.Fleet
