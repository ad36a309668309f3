import Sysmon.ConfGen.Rollback
import Sysmon.Fleet.Generations
import Sysmon.Fleet.Uplink
import Sysmon.Fleet.Verdict

/-!
# Sites and their boxes

The operations of `confdist.go` on a site: adopt, stage, deliver, roll back, revert. Each is a few steps
over the server's store and one exchange with the box, which is the daemon of `confgen.c` with its two
links. What the environment answers is part of an event, SHA-256 is a parameter, and at any time a box
may become another one: an operator, a restore or another server has been there.
-/

namespace Sysmon.Fleet

open CText GoText Lines

/-! ### The box -/

/-- A daemon, and the basename of its seed configuration. -/
structure Box where
  daemon : ConfGen.Daemon
  seedName : CStr

def textBytes (text : CStr) : List UInt8 := text.map fun c => UInt8.ofNat c.toNat

/-- A file as it is written to the disk of a box, and as it is hashed from there. -/
def toFile (f : GenFile) : ConfGen.File := ⟨bytesText f.name, bytesText f.content⟩

def ofFile (f : ConfGen.File) : GenFile := ⟨textBytes f.name, textBytes f.data⟩

/-- The CONFIG-PUT of a box. -/
def Box.put (b : Box) (gen : UInt64) (files : List GenFile) (env : ConfGen.ApplyEnv) : Box :=
  match receiveFiles (putArgs gen files) (payload files) with
  | (.ok (generation, files), _) =>
      { b with
        daemon := (ConfGen.apply b.seedName b.daemon generation (files.map toFile) env).done b.daemon }
  | (.error _, _) => b

/-- `hash_generation`: the files that `.order` names, in that order. -/
def hashGeneration (sha : List UInt8 → Digest) (disk : ConfGen.Store) (gen : UInt64) : Option Digest := do
  let dir ← disk.gens gen
  let order ← dir.find? (·.name = ConfGen.orderFile)
  let names := ((fgetsAll 255 order.data.length order.data).map (·.takeWhile (· ≠ '\n'))).filter
    ConfGen.flatName
  let files ← names.mapM fun name => dir.find? (·.name = name)
  some (sha (confgenHashFiles (files.map ofFile)))

/-- The reply to CONFIG-ROLLBACK, from the daemon after it. -/
def rollbackLines (sha : List UInt8 → Digest) (daemon : ConfGen.Daemon) (ok : Bool) (err : CStr) : List CStr :=
  if ok then [doneReply daemon.running (hashGeneration sha daemon.disk daemon.running)]
  else complaintLines err ++ ["444 rollback failed".toList]

/-- The reply to CONFIG-REVERT. -/
def revertLines (configfile : CStr) (ok : Bool) (err : CStr) : List CStr :=
  if ok then ["333 0 reverted to ".toList ++ configfile]
  else complaintLines err ++ ["444 revert failed".toList]

/-! ### The server -/

/-- What `rollbackConfig` makes of a reply: a generation and a hash, if it was one of success. -/
def rollbackConfig (input : CStr) : Option (UInt64 × CStr) := do
  let code ← (readUntilCode [] (input.splitOn '\n')).1
  if !"333".toList.isPrefixOf code then none
  else
    match fields code with
    | _ :: gen :: hash :: _ => some (parseUint gen, hash)
    | _ => none

/-- What `revertConfig` makes of a reply. -/
def revertConfig (input : CStr) : Option UInt64 := do
  let code ← (readUntilCode [] (input.splitOn '\n')).1
  if !"333".toList.isPrefixOf code then none
  else
    match fields code with
    | _ :: gen :: _ => some (parseUint gen)
    | _ => none

/-- `HashFileSet`, in hex. -/
def hashFiles (sha : List UInt8 → Digest) (files : List GenFile) : CStr :=
  hexText (sha (hashOfFiles files)).bytes

inductive ServiceError where
  | fetchFailed
  | noFiles
  | hashDisagreement
  | badSiteName
  | notAdopted
  | notHeld (gen : UInt64)
  | uplinkChanged
  | notPlain (name : List UInt8)
  | twice (name : List UInt8)
  | poisoned (gen : UInt64) (why : CStr)
  | store (error : StoreError)
  deriving DecidableEq, Repr

/-- A new generation, for the two operations that make one. -/
def record (s : Store) (site : CStr) (files : List GenFile) (hash : CStr) :
    Except ServiceError (UInt64 × Store) := (putGeneration s site files hash).mapError .store

/-- `AdoptSite`, with what CONFIG-GET has brought. -/
def adoptSite (sha : List UInt8 → Digest) (s : Store) (site : CStr)
    (fetched : Option (List GenFile × CStr)) : Except ServiceError (UInt64 × Store) :=
  match fetched with
  | none => .error .fetchFailed
  | some (files, hash) =>
      if files = [] then .error .noFiles
      else if hashFiles sha files ≠ hash then .error .hashDisagreement
      else record s site files hash

def validSiteName (site : CStr) : Bool :=
  site ≠ [] && site.length ≤ 64 && site.all fun c => c.isAlphanum || c = '-' || c = '_'

/-- `flatName`. -/
def plainName (name : List UInt8) : Bool :=
  name ≠ [] && name.length < 128 && !name.contains 47 && name ≠ [46] && name ≠ [46, 46]

/-- The loop over the names of a generation. -/
def namesError (earlier : List GenFile) : List GenFile → Option ServiceError
  | [] => none
  | f :: files =>
      if !plainName f.name then some (.notPlain f.name)
      else if f.name ∈ earlier.map GenFile.name then some (.twice f.name)
      else namesError (earlier ++ [f]) files

def stageGeneration (sha : List UInt8 → Digest) (s : Store) (site : CStr) (files : List GenFile) :
    Except ServiceError (UInt64 × Store) :=
  if !validSiteName site then .error .badSiteName
  else if files = [] then .error .noFiles
  else
    match getDesired s site with
    | none => .error .notAdopted
    | some desired =>
        if !desired.adopted || desired.generation = 0 then .error .notAdopted
        else
          match getGenerationFiles s site desired.generation with
          | none => .error (.notHeld desired.generation)
          | some was =>
              if !uplinkUnchanged was files then .error .uplinkChanged
              else
                match namesError [] files with
                | some e => .error e
                | none => record s site files (hashFiles sha files)

/-- What `DeliverSite` is about to send. -/
def deliverSite (s : Store) (site : CStr) : Except ServiceError (UInt64 × List GenFile) :=
  match getDesired s site with
  | none => .error .notAdopted
  | some desired =>
      if !desired.adopted then .error .notAdopted
      else
        match desired.poisoned.find? (·.1 = desired.generation) with
        | some (gen, why) => .error (.poisoned gen why)
        | none =>
            match getGenerationFiles s site desired.generation with
            | none => .error (.notHeld desired.generation)
            | some files => .ok (desired.generation, files)

/-! ### The fleet -/

structure State where
  store : Store
  box : CStr → Box

inductive Event where
  | adopt (site : CStr) (fetched : Option (List GenFile × CStr))
  | stage (site : CStr) (files : List GenFile)
  | deliver (site : CStr) (env : ConfGen.ApplyEnv)
  | rollback (site : CStr) (env : ConfGen.RollbackEnv) (err : CStr)
  | revert (site : CStr) (env : ConfGen.RevertEnv) (configfile err : CStr)
  | poison (site : CStr) (gen : UInt64) (why : CStr)
  | elsewhere (site : CStr) (box : Box)

def State.setBox (f : State) (site : CStr) (daemon : ConfGen.Daemon) : State :=
  { f with box := Function.update f.box site { f.box site with daemon := daemon } }

/-- A RollbackSite: the box goes first, and what the server understands of its reply is recorded. -/
def State.rollback (sha : List UInt8 → Digest) (f : State) (site : CStr) (env : ConfGen.RollbackEnv)
    (err : CStr) : State :=
  let o := ConfGen.rollback (f.box site).daemon env
  let daemon := o.done (f.box site).daemon
  let f := f.setBox site daemon
  match rollbackConfig (sent (rollbackLines sha daemon o.error.isNone err)) with
  | none => f
  | some (gen, hash) => { f with store := f.store.step (.set site gen hash) }

/-- A RevertSite. -/
def State.revert (f : State) (site : CStr) (env : ConfGen.RevertEnv) (configfile err : CStr) : State :=
  let o := ConfGen.revert (f.box site).daemon env
  let f := f.setBox site (o.done (f.box site).daemon)
  match revertConfig (sent (revertLines configfile o.error.isNone err)) with
  | none => f
  | some _ => { f with store := f.store.step (.unadopt site) }

def State.step (sha : List UInt8 → Digest) (f : State) : Event → State
  | .adopt site fetched =>
      { f with store := ((adoptSite sha f.store site fetched).toOption.map Prod.snd).getD f.store }
  | .stage site files =>
      { f with store := ((stageGeneration sha f.store site files).toOption.map Prod.snd).getD f.store }
  | .deliver site env =>
      match deliverSite f.store site with
      | .error _ => f
      | .ok (gen, files) => { f with box := Function.update f.box site ((f.box site).put gen files env) }
  | .rollback site env err => f.rollback sha site env err
  | .revert site env configfile err => f.revert site env configfile err
  | .poison site gen why => { f with store := f.store.step (.poison site gen why) }
  | .elsewhere site box => { f with box := Function.update f.box site box }

/-! ### What the server understands of a rollback -/

variable {sha : List UInt8 → Digest}

theorem rollbackConfig_ok (daemon : ConfGen.Daemon) (err : CStr) :
    rollbackConfig (sent (rollbackLines sha daemon true err)) =
      some (daemon.running, hashText (hashGeneration sha daemon.disk daemon.running)) := by
  set hash := hashGeneration sha daemon.disk daemon.running
  have hcode : isCode (doneReply daemon.running hash) = true := by
    have happend := isCode_doneReply daemon.running hash []
    rwa [List.append_nil] at happend
  have hnewline := (plain_doneReply daemon.running hash (by decide : isspace '\n' = true) (by decide)).2.2
  have hcr := (plain_doneReply daemon.running hash (by decide : isspace '\r' = true) (by decide)).2.2
  obtain ⟨body, hbody⟩ := readUntilCode_reply (fun _ h => absurd h List.not_mem_nil)
    (fun _ h => absurd h List.not_mem_nil) hnewline hcr hcode []
  rw [List.append_nil, List.nil_append] at hbody
  have hok : "333".toList.isPrefixOf (doneReply daemon.running hash) = true := by
    simp [doneReply, List.isPrefixOf]
  rw [rollbackConfig, rollbackLines, if_pos rfl, hbody]
  simp only [Option.bind_eq_bind, Option.bind_some, hok, Bool.not_true, Bool.false_eq_true, if_false,
    fields_doneReply, parseUint_showNat]

/-- A refusal is understood, if no complaint looks like a code. -/
theorem rollbackConfig_refused {err : CStr} (daemon : ConfGen.Daemon)
    (hclear : ∀ line ∈ err.splitOn '\n', isCode line = false) :
    rollbackConfig (sent (rollbackLines sha daemon false err)) = none := by
  have hplain : ∀ line ∈ complaintLines err, isCode line = false := fun line hline =>
    hclear line (List.mem_of_mem_filter hline)
  obtain ⟨body, hbody⟩ := readUntilCode_reply (fun line => newline_not_mem_complaintLines) hplain
    (by decide : '\n' ∉ "444 rollback failed".toList) (by decide) (by decide) []
  rw [List.append_nil] at hbody
  rw [rollbackConfig, rollbackLines, if_neg Bool.false_ne_true, hbody]
  rfl

theorem hashGeneration_congr {disk disk' : ConfGen.Store} (h : disk.gens = disk'.gens) (gen : UInt64) :
    hashGeneration sha disk gen = hashGeneration sha disk' gen := by
  rw [hashGeneration, hashGeneration, h]

/-- A rollback that the box accepts is recorded, with the generation and the hash of what is in the
previous slot. -/
theorem rollback_accepted {f : State} {site : CStr} {env : ConfGen.RollbackEnv}
    (h : (ConfGen.rollback (f.box site).daemon env).error = none) (err : CStr) :
    f.rollback sha site env err =
      { f.setBox site ((ConfGen.rollback (f.box site).daemon env).done (f.box site).daemon) with
        store := f.store.step (.set site ((f.box site).daemon.disk.linkedGeneration .previous)
          (hashText (hashGeneration sha (f.box site).daemon.disk
            ((f.box site).daemon.disk.linkedGeneration .previous)))) } := by
  obtain ⟨hrunning, -, hgens⟩ := ConfGen.done_rollback h
  simp only [State.rollback, h, Option.isNone_none, rollbackConfig_ok, hrunning,
    hashGeneration_congr hgens]
  rfl

/-- One that it refuses changes nothing at the server, if the refusal is understood. -/
theorem rollback_refused {f : State} {site : CStr} {env : ConfGen.RollbackEnv} {err : CStr}
    (h : (ConfGen.rollback (f.box site).daemon env).error ≠ none)
    (hclear : ∀ line ∈ err.splitOn '\n', isCode line = false) :
    f.rollback sha site env err =
      f.setBox site ((ConfGen.rollback (f.box site).daemon env).done (f.box site).daemon) := by
  have hnot : (ConfGen.rollback (f.box site).daemon env).error.isNone = false := by
    rw [Option.isNone_eq_false_iff, Option.isSome_iff_ne_none]
    exact h
  simp only [State.rollback, hnot, rollbackConfig_refused _ hclear]

/-! ### What is desired is held -/

/-- For every adopted site the store has the files of the desired generation, and they have the desired
hash. -/
def DesiredHeld (sha : List UInt8 → Digest) (s : Store) : Prop :=
  ∀ site d, s.desired site = .held d → d.adopted = true →
    ∃ files, s.files site d.generation = some files ∧ hashFiles sha files = d.hash

/-- The record of one site is written, and perhaps one of its generations. -/
theorem desiredHeld_write {s : Store} {site : CStr} {d : Desired} {stored : Option (UInt64 × List GenFile)}
    (hs : DesiredHeld sha s) (hd : d.adopted = true → ∃ files,
      s.filesWith site stored site d.generation = some files ∧ hashFiles sha files = d.hash) :
    DesiredHeld sha ⟨Function.update s.desired site (.held d), s.filesWith site stored⟩ := by
  intro other d' hrecord hadopted
  by_cases hsite : other = site
  · subst hsite
    simp only [Function.update_self, Record.held.injEq] at hrecord
    obtain rfl := hrecord
    exact hd hadopted
  · simp only [Function.update_of_ne hsite] at hrecord
    obtain ⟨files, hfiles, hhash⟩ := hs other d' hrecord hadopted
    refine ⟨files, ?_, hhash⟩
    cases stored with
    | none => exact hfiles
    | some p =>
        simp only [Store.filesWith, Function.update_of_ne hsite]
        exact hfiles

/-- A new generation is held under the number that is desired from then on. -/
theorem desiredHeld_put {s s' : Store} {site : CStr} {files : List GenFile} {hash : CStr} {gen : UInt64}
    (hs : DesiredHeld sha s) (hput : putGeneration s site files hash = .ok (gen, s'))
    (hhash : hashFiles sha (files.map GenFile.stored) = hash) : DesiredHeld sha s' := by
  obtain ⟨cur, -, -, rfl⟩ := putGeneration_ok hput
  have hheld : s.filesWith site (some (gen, files.map GenFile.stored)) site gen =
      some (files.map GenFile.stored) := by simp [Store.filesWith]
  have hwrite := desiredHeld_write (d := ⟨gen, hash, true, gen, cur.poisoned⟩) hs fun _ =>
    ⟨files.map GenFile.stored, hheld, hhash⟩
  exact hwrite

/-- A record that goes over to a generation that is held. -/
theorem desiredHeld_set {s : Store} {site : CStr} {gen : UInt64} {hash : CStr} (hs : DesiredHeld sha s)
    (hheld : ∃ files, s.files site gen = some files ∧ hashFiles sha files = hash) :
    DesiredHeld sha (s.step (.set site gen hash)) := by
  obtain hsame | ⟨d, -, hstep⟩ := step_cases s (.set site gen hash)
  · rwa [hsame]
  · rw [hstep]
    exact desiredHeld_write hs fun _ => hheld

theorem desiredHeld_unadopt {s : Store} (site : CStr) (hs : DesiredHeld sha s) :
    DesiredHeld sha (s.step (.unadopt site)) := by
  obtain hsame | ⟨d, -, hstep⟩ := step_cases s (.unadopt site)
  · rwa [hsame]
  · rw [hstep]
    exact desiredHeld_write hs fun hadopted => absurd hadopted (by simp [StoreOp.desired])

theorem desiredHeld_poison {s : Store} (site : CStr) (gen : UInt64) (why : CStr) (hs : DesiredHeld sha s) :
    DesiredHeld sha (s.step (.poison site gen why)) := by
  obtain hsame | ⟨d, hread, hstep⟩ := step_cases s (.poison site gen why)
  · rwa [hsame]
  · rw [hstep]
    refine desiredHeld_write hs fun hadopted => ?_
    obtain hheld | rfl := read_ok hread
    · exact hs site d hheld hadopted
    · exact absurd hadopted (by simp [StoreOp.desired])

/-- What a step needs so that what is desired stays held. The names of new files are UTF-8, because they
are stored as JSON. A rollback that the box accepts goes to a generation that the server has, with the
files the box has; and the complaints of one that it refuses do not look like an acceptance. -/
def StaysHeld (sha : List UInt8 → Digest) (f : State) : Event → Prop
  | .adopt _ fetched => ∀ files hash, fetched = some (files, hash) → ∀ g ∈ files, jsonText g.name = g.name
  | .stage _ files => ∀ g ∈ files, jsonText g.name = g.name
  | .rollback site env err =>
      let daemon := (f.box site).daemon
      let prev := daemon.disk.linkedGeneration .previous
      ((ConfGen.rollback daemon env).error = none → ∃ files, f.store.files site prev = some files ∧
        hashFiles sha files = hashText (hashGeneration sha daemon.disk prev)) ∧
      ((ConfGen.rollback daemon env).error ≠ none → ∀ line ∈ err.splitOn '\n', isCode line = false)
  | _ => True

theorem map_stored {files : List GenFile} (h : ∀ g ∈ files, jsonText g.name = g.name) :
    files.map GenFile.stored = files := by
  rw [List.map_congr_left fun g hg => by rw [GenFile.stored, h g hg], List.map_id']

theorem record_ok {s s' : Store} {site : CStr} {files : List GenFile} {hash : CStr} {gen : UInt64}
    (h : record s site files hash = .ok (gen, s')) : putGeneration s site files hash = .ok (gen, s') := by
  rw [record] at h
  cases hput : putGeneration s site files hash with
  | error e =>
      rw [hput] at h
      exact absurd h (by simp [Except.mapError])
  | ok result =>
      rw [hput] at h
      rw [Except.ok.inj h]

/-- An adoption that went through is a new generation of the files the box sent. -/
theorem adoptSite_ok {s s' : Store} {site : CStr} {fetched : Option (List GenFile × CStr)} {gen : UInt64}
    (h : adoptSite sha s site fetched = .ok (gen, s')) :
    ∃ files hash, fetched = some (files, hash) ∧ hashFiles sha files = hash ∧
      putGeneration s site files hash = .ok (gen, s') := by
  rcases fetched with _ | ⟨files, hash⟩
  · exact absurd h (by simp [adoptSite])
  · simp only [adoptSite] at h
    split at h
    · exact absurd h (by simp)
    · split at h
      · exact absurd h (by simp)
      next hhash => exact ⟨files, hash, rfl, not_not.mp hhash, record_ok h⟩

/-- An edit that was staged is a new generation of an adopted site. -/
theorem stageGeneration_ok {s s' : Store} {site : CStr} {files : List GenFile} {gen : UInt64}
    (h : stageGeneration sha s site files = .ok (gen, s')) :
    putGeneration s site files (hashFiles sha files) = .ok (gen, s') := by
  simp only [stageGeneration] at h
  split at h
  · exact absurd h (by simp)
  · split at h
    · exact absurd h (by simp)
    · split at h
      · exact absurd h (by simp)
      · split at h
        · exact absurd h (by simp)
        · split at h
          · exact absurd h (by simp)
          · split at h
            · exact absurd h (by simp)
            · split at h
              · exact absurd h (by simp)
              · exact record_ok h

theorem desiredHeld_step (f : State) (e : Event) (hf : DesiredHeld sha f.store) (he : StaysHeld sha f e) :
    DesiredHeld sha (f.step sha e).store := by
  cases e with
  | adopt site fetched =>
      cases hadopt : adoptSite sha f.store site fetched with
      | error e => simpa [State.step, hadopt, Except.toOption] using hf
      | ok result =>
          obtain ⟨files, hash, hfetched, hhash, hput⟩ := adoptSite_ok hadopt
          have hheld := desiredHeld_put hf hput (by rw [map_stored (he files hash hfetched), hhash])
          simpa [State.step, hadopt, Except.toOption] using hheld
  | stage site files =>
      cases hstage : stageGeneration sha f.store site files with
      | error e => simpa [State.step, hstage, Except.toOption] using hf
      | ok result =>
          have hheld := desiredHeld_put hf (stageGeneration_ok hstage) (by rw [map_stored he])
          simpa [State.step, hstage, Except.toOption] using hheld
  | deliver site env =>
      rw [State.step]
      split
      · exact hf
      · exact hf
  | rollback site env err =>
      obtain ⟨haccepted, hrefused⟩ := he
      rw [State.step]
      by_cases hok : (ConfGen.rollback (f.box site).daemon env).error = none
      · rw [rollback_accepted hok]
        exact desiredHeld_set hf (haccepted hok)
      · rw [rollback_refused hok (hrefused hok)]
        exact hf
  | revert site env configfile err =>
      rw [State.step, State.revert]
      split
      · exact hf
      · exact desiredHeld_unadopt site hf
  | poison site gen why => exact desiredHeld_poison site gen why hf
  | elsewhere site box => exact hf

/-- In every run whose steps all meet the condition, what is desired is held in every state. -/
theorem desiredHeld_always {f : State} {events : List Event} (hf : DesiredHeld sha f.store)
    (hevents : Run.Guarded (State.step sha) (StaysHeld sha) f events) :
    Run.Always (State.step sha) (fun f => DesiredHeld sha f.store) f events :=
  Run.always_of_guarded (fun f e hf he => desiredHeld_step f e hf he) hf hevents

/-! ### A box with two generations -/

/-- A configuration of one file with one letter in it. -/
def oneFile (letter : UInt8) : List GenFile := [⟨ascii "sysmon.conf", [letter]⟩]

/-- SHA-256 of the streams of `oneFile 97`, `oneFile 98` and `oneFile 99`. -/
def sampleSha (stream : List UInt8) : Digest :=
  if stream = hashOfFiles (oneFile 97) then
    ⟨[249, 112, 29, 138, 228, 223, 31, 56, 16, 223, 83, 1, 9, 147, 132, 163, 134, 248, 227, 246, 3, 82,
      62, 56, 20, 191, 192, 240, 161, 164, 171, 89], rfl⟩
  else if stream = hashOfFiles (oneFile 98) then
    ⟨[142, 148, 88, 9, 28, 186, 39, 85, 29, 232, 201, 207, 13, 215, 22, 77, 48, 175, 174, 137, 86, 129,
      179, 222, 251, 124, 133, 195, 42, 84, 6, 193], rfl⟩
  else if stream = hashOfFiles (oneFile 99) then
    ⟨[70, 189, 192, 54, 228, 63, 126, 110, 67, 249, 211, 131, 150, 224, 202, 35, 55, 17, 97, 165, 115,
      237, 68, 252, 9, 194, 32, 59, 59, 43, 12, 12], rfl⟩
  else ⟨List.replicate 32 0, rfl⟩

def healthyRollback : ConfGen.RollbackEnv := ⟨true, ⟨true, true⟩, ⟨true, true⟩⟩

/-- A server that knows nothing yet, and a box that runs its seed. -/
def newFleet : State where
  store := emptyStore
  box := fun _ => ⟨ConfGen.Daemon.restart ConfGen.entryName ConfGen.emptyStore, ConfGen.entryName⟩

/-- The box is adopted and gets its own configuration, then an edited one, and goes back. -/
def adoptEditRollback : List Event :=
  [.adopt ['a'] (some (oneFile 97, hashFiles sampleSha (oneFile 97))),
    .deliver ['a'] ConfGen.healthyApply,
    .stage ['a'] (oneFile 98),
    .deliver ['a'] ConfGen.healthyApply,
    .rollback ['a'] healthyRollback []]

theorem desiredHeld_adoptEditRollback :
    Run.Always (State.step sampleSha) (fun f => DesiredHeld sampleSha f.store) newFleet
      adoptEditRollback := by
  apply desiredHeld_always
  · intro site d hrecord
    exact absurd hrecord (by simp [newFleet, emptyStore])
  · have hascii : ∀ letter, ∀ g ∈ oneFile letter, jsonText g.name = g.name := by
      intro letter g hg
      rw [List.mem_singleton.mp hg]
      show jsonText (ascii "sysmon.conf") = ascii "sysmon.conf"
      decide
    refine Run.guarded_cons.mpr ⟨?_, Run.guarded_cons.mpr ⟨trivial, Run.guarded_cons.mpr ⟨hascii 98,
      Run.guarded_cons.mpr ⟨trivial, Run.guarded_cons.mpr ⟨?_, Run.guarded_nil⟩⟩⟩⟩⟩
    · intro files hash hfetched
      obtain ⟨rfl, rfl⟩ := Prod.mk.inj (Option.some.inj hfetched)
      exact hascii 97
    · refine ⟨fun _ => ⟨oneFile 97, by decide +kernel, by decide +kernel⟩, fun hnot => ?_⟩
      exact absurd (by decide +kernel) hnot

/-- A box that runs generation 6 of another server, with generation 5 in the previous slot. -/
def foreignBox : Box where
  daemon :=
    { disk :=
        { ConfGen.emptyStore with
          gens := Function.update (Function.update (fun _ => none) 5
            (some (ConfGen.dirOf ((oneFile 97).map toFile)))) 6
            (some (ConfGen.dirOf ((oneFile 98).map toFile)))
          link := fun link => if link = .current then some 6 else some 5 }
      running := 6
      mainname := ConfGen.entryName }
  seedName := ConfGen.entryName

/-- Adopted by this server and rolled back, it has generation 5 as its desired one, which this server
has never seen. -/
theorem foreign_generation_not_held :
    ¬ Run.Always (State.step sampleSha) (fun f => DesiredHeld sampleSha f.store)
      ⟨emptyStore, fun _ => foreignBox⟩
      [.adopt ['a'] (some (oneFile 98, hashFiles sampleSha (oneFile 98))),
        .rollback ['a'] healthyRollback []] := by
  intro h
  obtain ⟨files, hheld, -⟩ := h _ (List.prefix_refl _) ['a']
    ⟨5, hashFiles sampleSha (oneFile 97), true, 5, []⟩ (by decide) rfl
  have hnone : (Run.exec (State.step sampleSha) ⟨emptyStore, fun _ => foreignBox⟩
      [.adopt ['a'] (some (oneFile 98, hashFiles sampleSha (oneFile 98))),
        .rollback ['a'] healthyRollback []]).store.files ['a'] 5 = none := by decide
  rw [hnone] at hheld
  exact absurd hheld (by simp)

end Sysmon.Fleet
