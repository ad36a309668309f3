import Sysmon.Fleet.Loaded

/-!
# A generation read back

`confgen_apply` writes the load order of a generation into `.order`, one name to a line, so that
`hash_generation` can hash it again later. `flat_name` looks for a slash and a leading dot and for
nothing else, so a name can hold a newline, and is then two lines. Here is when the hash that is
computed from the disk is the hash of what was delivered.
-/

namespace Sysmon.Fleet

open ConfGen CText Sysmon.Parser

/-! ### Reading the order -/

/-- The names in an `.order` file, those that are no plain names left out. -/
def orderNames (text : CStr) : List CStr :=
  ((fgetsAll 255 text.length text).map (·.takeWhile (· ≠ '\n'))).filter flatName

/-- The files that `hash_generation` hashes, if it can read all of them. -/
def storedFiles (disk : ConfGen.Store) (gen : UInt64) : Option (List ConfGen.File) := do
  let dir ← disk.gens gen
  let order ← dir.find? (·.name = orderFile)
  (orderNames order.data).mapM fun name => dir.find? (·.name = name)

theorem hashGeneration_eq (sha : List UInt8 → Digest) (disk : ConfGen.Store) (gen : UInt64) :
    hashGeneration sha disk gen =
      (storedFiles disk gen).map fun files => sha (confgenHashFiles (files.map ofFile)) := by
  rw [hashGeneration, storedFiles]
  cases disk.gens gen with
  | none => rfl
  | some dir =>
      simp only [Option.bind_eq_bind, Option.bind_some]
      cases dir.find? (·.name = orderFile) with
      | none => rfl
      | some order =>
          simp only [Option.bind_some, orderNames]
          exact Option.map_eq_bind.symm

theorem newline_not_mem_orderNames {text name : CStr} (h : name ∈ orderNames text) : '\n' ∉ name := by
  obtain ⟨hmem, -⟩ := List.mem_filter.mp h
  obtain ⟨line, -, rfl⟩ := List.mem_map.mp hmem
  intro hnewline
  exact absurd (List.mem_takeWhile_imp hnewline) (by simp)

/-- A line of the order: its name, if it is a plain one. -/
def orderName (line : CStr) : Option CStr := Option.guard flatName (line.takeWhile (· ≠ '\n'))

theorem orderNames_eq_filterMap (text : CStr) :
    orderNames text = (fgetsAll 255 text.length text).filterMap orderName := by
  rw [orderNames, ← List.filterMap_eq_filter, List.filterMap_map]
  rfl

theorem takeWhile_line {line : CStr} (h : '\n' ∉ line) (rest : CStr) :
    (line ++ rest).takeWhile (· ≠ '\n') = line ++ rest.takeWhile (· ≠ '\n') :=
  List.takeWhile_append_of_pos fun c hc => by simpa using fun heq : c = '\n' => h (heq ▸ hc)

/-- The names of plain files are read back as they were written, if none of them holds a newline. -/
theorem orderNames_orderText {files : List ConfGen.File} (hflat : ∀ f ∈ files, flatName f.name = true)
    (hline : ∀ f ∈ files, '\n' ∉ f.name) :
    orderNames (orderText files) = files.map File.name := by
  have htext : orderText files = (files.map File.name).flatMap (· ++ ['\n']) := by
    rw [orderText, List.flatMap_map]
  have hname : ∀ f ∈ files, orderName f.name = some f.name := by
    intro f hf
    have hwhole := takeWhile_line (hline f hf) []
    rw [List.append_nil, List.takeWhile_nil, List.append_nil] at hwhole
    rw [orderName, hwhole]
    exact Option.guard_eq_some_iff.mpr ⟨rfl, hflat f hf⟩
  have hread : ∀ name ∈ files.map File.name, orderName (name ++ ['\n']) = orderName name := by
    intro name hmem
    obtain ⟨f, hf, rfl⟩ := List.mem_map.mp hmem
    have hcut := takeWhile_line (hline f hf) ['\n']
    have hwhole := takeWhile_line (hline f hf) []
    rw [List.append_nil] at hwhole
    rw [orderName, orderName, hcut, hwhole]
    rfl
  have hlines : ∀ name ∈ files.map File.name, '\n' ∉ name ∧ name.length ≤ 255 := by
    intro name hmem
    obtain ⟨f, hf, rfl⟩ := List.mem_map.mp hmem
    have hplain := hflat f hf
    simp only [flatName, Bool.and_eq_true, decide_eq_true_eq] at hplain
    exact ⟨hline f hf, by omega⟩
  rw [orderNames_eq_filterMap, htext,
    fgetsAll_filterMap (by decide) (by decide) hread hlines le_rfl, List.filterMap_map]
  have hall : files.filterMap (orderName ∘ File.name) = files.filterMap (some ∘ File.name) :=
    List.filterMap_congr hname
  rw [hall, List.filterMap_eq_map]

/-! ### The files read back -/

theorem mapM_find?_of_forall {dir : Dir} {files : List ConfGen.File}
    (h : ∀ f ∈ files, dir.find? (·.name = f.name) = some f) :
    (files.map File.name).mapM (fun name => dir.find? (·.name = name)) = some files := by
  induction files with
  | nil => rfl
  | cons f files ih =>
      rw [List.map_cons, List.mapM_cons, h f List.mem_cons_self,
        ih fun g hg => h g (List.mem_cons_of_mem f hg)]
      rfl

/-- Every file that is found has the name that was looked for. -/
theorem map_name_of_mapM_find? {dir : Dir} {names : List CStr} {files : List ConfGen.File}
    (h : names.mapM (fun name => dir.find? (·.name = name)) = some files) :
    files.map File.name = names ∧ ∀ f ∈ files, f ∈ dir := by
  induction names generalizing files with
  | nil =>
      obtain rfl := Option.some.inj h
      exact ⟨rfl, fun f hf => absurd hf List.not_mem_nil⟩
  | cons name names ih =>
      rw [List.mapM_cons] at h
      obtain ⟨f, hfind, h⟩ := Option.bind_eq_some_iff.mp h
      obtain ⟨rest, hrest, h⟩ := Option.bind_eq_some_iff.mp h
      obtain rfl := Option.some.inj h
      obtain ⟨hnames, hmem⟩ := ih hrest
      have hname : f.name = name := by simpa using List.find?_some hfind
      refine ⟨by rw [List.map_cons, hname, hnames], fun g hg => ?_⟩
      obtain rfl | hg := List.mem_cons.mp hg
      · exact List.mem_of_find?_eq_some hfind
      · exact hmem g hg

section accepted

variable {seedName : CStr} {d : Daemon} {g : UInt64} {files : List ConfGen.File} {env : ApplyEnv}
  {later : ConfGen.Store}

/-- What is read of a generation as an accepted delivery has left it. -/
theorem storedFiles_accepted (h : (apply seedName d g files env).error = none)
    (hlater : later.gens g = ((apply seedName d g files env).done d).disk.gens g) :
    storedFiles later g =
      (orderNames (orderText files)).mapM fun name => (dirOf files).find? (·.name = name) := by
  obtain ⟨-, hflat⟩ := refusal_none (apply_ok h).1
  have horder : (dirOf files).find? (·.name = orderFile) = some (orderOf files) := by
    have hnone : files.find? (·.name = orderFile) = none := by
      rw [List.find?_eq_none]
      intro f hf heq
      exact orderFile_not_mem hflat (List.mem_map.mpr ⟨f, hf, by simpa using heq⟩)
    rw [dirOf, List.find?_append, hnone]
    rfl
  rw [storedFiles, hlater, (done_accepted h).2.2.1]
  simp only [Option.bind_eq_bind, Option.bind_some, horder]
  rfl

/-- Nothing but files of the delivery is read: no plain name is that of the order itself. -/
theorem mem_of_storedFiles (h : (apply seedName d g files env).error = none)
    (hlater : later.gens g = ((apply seedName d g files env).done d).disk.gens g)
    {stored : List ConfGen.File} (hstored : storedFiles later g = some stored) :
    ∀ f ∈ stored, f ∈ files := by
  rw [storedFiles_accepted h hlater] at hstored
  obtain ⟨hnames, hmem⟩ := map_name_of_mapM_find? hstored
  intro f hf
  obtain hdelivered | horder := List.mem_append.mp (hmem f hf)
  · exact hdelivered
  · obtain rfl := List.mem_singleton.mp horder
    have hname : orderFile ∈ orderNames (orderText files) :=
      hnames ▸ List.mem_map_of_mem hf
    exact absurd (List.mem_filter.mp hname).2 (by decide)

/-- What is read is what was delivered exactly when no name holds a newline. -/
theorem storedFiles_eq_iff (h : (apply seedName d g files env).error = none)
    (hlater : later.gens g = ((apply seedName d g files env).done d).disk.gens g) :
    storedFiles later g = some files ↔ ∀ f ∈ files, '\n' ∉ f.name := by
  obtain ⟨hnodup, hflat⟩ := refusal_none (apply_ok h).1
  rw [storedFiles_accepted h hlater]
  constructor
  · intro hstored f hf
    have hname : f.name ∈ orderNames (orderText files) :=
      (map_name_of_mapM_find? hstored).1 ▸ List.mem_map_of_mem hf
    exact newline_not_mem_orderNames hname
  · intro hline
    rw [orderNames_orderText hflat hline]
    exact mapM_find?_of_forall fun f hf => find?_dirOf hnodup hf

end accepted

/-! ### The two hashes -/

theorem newline_mem_bytesText (bytes : List UInt8) : '\n' ∈ bytesText bytes ↔ 10 ∈ bytes := by
  constructor
  · intro h
    have hbyte := List.mem_map_of_mem (f := fun c : Char => UInt8.ofNat c.toNat) h
    rwa [← textBytes, textBytes_bytesText] at hbyte
  · exact fun h => List.mem_map.mpr ⟨10, h, rfl⟩

/-- As long as an accepted delivery lies on the disk, what `hash_generation` computes for it is the
hash of the delivery exactly when no name in it holds a newline, or the hash does not tell two streams
apart. -/
theorem stored_hash_iff (sha : List UInt8 → Digest) (seedName : CStr) (d : Daemon) (g : UInt64)
    (env : ApplyEnv) (v : Validator) (delivery : List HeldFile) (later : ConfGen.Store)
    (haccepted : (confgenApply seedName d g ((delivery.map Subtype.val).map toFile) env v).error = none)
    (hlater : later.gens g =
      ((confgenApply seedName d g ((delivery.map Subtype.val).map toFile) env v).done d).disk.gens g) :
    hashGeneration sha later g = some (sha (confgenHashFiles (delivery.map Subtype.val))) ↔
      (∀ f ∈ delivery, 10 ∉ f.val.name) ∨
        ∃ stored, storedFiles later g = some stored ∧
          Collide sha (confgenHashFiles (stored.map ofFile))
            (confgenHashFiles (delivery.map Subtype.val)) := by
  have hline : storedFiles later g = some ((delivery.map Subtype.val).map toFile) ↔
      ∀ f ∈ delivery, 10 ∉ f.val.name := by
    rw [storedFiles_eq_iff haccepted hlater]
    simp only [List.forall_mem_map, toFile, newline_mem_bytesText]
  have hback : ((delivery.map Subtype.val).map toFile).map ofFile = delivery.map Subtype.val := by
    rw [List.map_map]
    exact (List.map_congr_left fun f _ => ofFile_toFile f).trans (List.map_id' _)
  rw [hashGeneration_eq]
  constructor
  · intro heq
    obtain ⟨stored, hstored, hsha⟩ := Option.map_eq_some_iff.mp heq
    by_cases hstream : confgenHashFiles (stored.map ofFile) = confgenHashFiles (delivery.map Subtype.val)
    · left
      have hmem : ∀ f ∈ stored, ∃ held ∈ delivery, toFile held.val = f := by
        intro f hf
        have hdelivered := mem_of_storedFiles haccepted hlater hstored f hf
        rw [List.map_map] at hdelivered
        exact List.mem_map.mp hdelivered
      have hheld : ∀ f ∈ stored.map ofFile, f.Held := by
        intro f hf
        obtain ⟨file, hfile, rfl⟩ := List.mem_map.mp hf
        obtain ⟨held, -, rfl⟩ := hmem file hfile
        rw [ofFile_toFile]
        exact held.property
      have hsame := confgenHashFiles_inj hheld
        (fun f hf => by obtain ⟨held, -, rfl⟩ := List.mem_map.mp hf; exact held.property) hstream
      have hfiles : stored = (delivery.map Subtype.val).map toFile := by
        rw [← hsame, List.map_map]
        refine (List.map_id' stored).symm.trans (List.map_congr_left fun f hf => ?_)
        obtain ⟨held, -, rfl⟩ := hmem f hf
        exact congrArg toFile (ofFile_toFile held.val).symm
      exact hline.mp (hfiles ▸ hstored)
    · exact Or.inr ⟨stored, hstored, hstream, hsha⟩
  · rintro (hnone | ⟨stored, hstored, -, hsha⟩)
    · rw [hline.mpr hnone, Option.map_some, hback]
    · rw [hstored, Option.map_some, hsha]

/-! ### A name of two lines -/

/-- A text that includes nothing is read alike in every directory. -/
theorem pieces_of_no_include {text : CStr} (h : ∀ found ∈ lex text, found.1 ≠ .includeFile)
    (dir dir' : Dir) (descriptors : Nat) :
    pieces dir descriptors text = pieces dir' descriptors text := by
  have hsame : ∀ (included included' : CStr → List Piece),
      ((lex text).flatMap fun found => found.1.pieces included found.2) =
        (lex text).flatMap fun found => found.1.pieces included' found.2 := by
    intro included included'
    refine List.flatMap_congr fun found hfound => ?_
    obtain ⟨action, matched⟩ := found
    cases action with
    | includeFile => exact absurd rfl (h _ hfound)
    | _ => rfl
  cases descriptors with
  | zero => rfl
  | succ descriptors => exact hsame _ _

/-- An entry file that includes nothing, and an empty file beside it. -/
def besideEmpty (name : List UInt8) : List GenFile :=
  [⟨textBytes entryName, textBytes
      ("root \"a\";object a \x7bip \"h\";type ping;\x7d;".toList ++ "".toList)⟩, ⟨name, []⟩]

theorem held_besideEmpty {name : List UInt8} (hname : GenFile.Held ⟨name, []⟩) :
    ∀ f ∈ besideEmpty name, f.Held := by
  intro f hf
  obtain rfl | hf := List.mem_cons.mp hf
  · exact ⟨by decide, by decide, by decide⟩
  · obtain rfl := List.mem_singleton.mp hf
    exact hname

def heldBeside (name : List UInt8) (hname : GenFile.Held ⟨name, []⟩) : List HeldFile :=
  (besideEmpty name).attachWith GenFile.Held (held_besideEmpty hname)

theorem map_heldBeside (name : List UInt8) (hname : GenFile.Held ⟨name, []⟩) :
    (heldBeside name hname).map Subtype.val = besideEmpty name := List.attachWith_map_subtype_val _

theorem delivered_cons {seedName : CStr} {d : Daemon} {v : Validator} {first : ConfGen.File}
    (hname : first.name = entryOf seedName d) (rest : List ConfGen.File) :
    delivered seedName d (first :: rest) v =
      pieces (dirOf (first :: rest)) v.descriptors first.data := by
  rw [delivered, Validator.reading, dirOf, List.cons_append,
    List.find?_cons_of_pos (by simpa using hname)]
  rfl

/-- Whatever plain name the empty file has, the delivery is accepted. -/
theorem besideEmpty_accepted {name : List UInt8}
    (hrefusal : refusal entryName runningOne 2 ((besideEmpty name).map toFile) = none) :
    (confgenApply entryName runningOne 2 ((besideEmpty name).map toFile) healthyApply
      healthyValidator).error = none := by
  obtain ⟨-, haccepted, -, -, hinclude⟩ := besideB_computed "" (by simp)
  have hpasses := (error_confgenApply_iff.mp haccepted).passes
  have hentry : bytesText (textBytes entryName) = entryOf entryName runningOne := by decide
  have hstaged : stageError { healthyApply with verdict := true } ((besideEmpty name).map toFile) = none := by
    simp [stageError, healthyApply]
  refine error_confgenApply_iff.mpr ⟨hrefusal, hstaged, ?_, by decide⟩
  rw [besideB, List.map_cons, delivered_cons hentry] at hpasses
  rw [besideEmpty, List.map_cons, delivered_cons hentry]
  dsimp only [toFile] at hpasses ⊢
  rw [pieces_of_no_include (hinclude.mpr rfl)]
  exact hpasses

theorem heldB : GenFile.Held ⟨[98], []⟩ := ⟨by decide, by decide, by decide⟩

theorem stored_hash_plain :
    (confgenApply entryName runningOne 2 (((heldBeside [98] heldB).map Subtype.val).map toFile)
        healthyApply healthyValidator).error = none ∧
      ∀ sha : List UInt8 → Digest,
        hashGeneration sha ((confgenApply entryName runningOne 2
            (((heldBeside [98] heldB).map Subtype.val).map toFile) healthyApply
              healthyValidator).done runningOne).disk 2 =
          some (sha (confgenHashFiles ((heldBeside [98] heldB).map Subtype.val))) := by
  have haccepted : (confgenApply entryName runningOne 2
      (((heldBeside [98] heldB).map Subtype.val).map toFile) healthyApply
        healthyValidator).error = none := by
    rw [map_heldBeside]
    exact besideEmpty_accepted (by decide)
  refine ⟨haccepted, fun sha => ?_⟩
  refine (stored_hash_iff sha entryName runningOne 2 healthyApply healthyValidator
    (heldBeside [98] heldB) _ haccepted rfl).mpr (Or.inl fun f hf => ?_)
  have hname : f.val ∈ besideEmpty [98] := map_heldBeside [98] heldB ▸ List.mem_map_of_mem hf
  obtain heq | hmem := List.mem_cons.mp hname
  · rw [heq]
    decide
  · rw [List.mem_singleton.mp hmem]
    decide

/-- The name `a`, newline, `b` is delivered and accepted. Of its two lines neither is the name of a
file, and there is no hash of the generation. -/
theorem stored_hash_lost :
    receiveFiles (putArgs 2 (besideEmpty [97, 10, 98])) (payload (besideEmpty [97, 10, 98])) =
        (.ok (2, besideEmpty [97, 10, 98]), []) ∧
      (confgenApply entryName runningOne 2 ((besideEmpty [97, 10, 98]).map toFile) healthyApply
        healthyValidator).error = none ∧
      ∀ sha : List UInt8 → Digest,
        hashGeneration sha ((confgenApply entryName runningOne 2 ((besideEmpty [97, 10, 98]).map toFile)
            healthyApply healthyValidator).done runningOne).disk 2 ≠
          some (sha (confgenHashFiles (besideEmpty [97, 10, 98]))) := by
  have haccepted : (confgenApply entryName runningOne 2 ((besideEmpty [97, 10, 98]).map toFile)
      healthyApply healthyValidator).error = none := besideEmpty_accepted (by decide)
  have hread : (orderNames (orderText ((besideEmpty [97, 10, 98]).map toFile))).mapM (fun name =>
      (dirOf ((besideEmpty [97, 10, 98]).map toFile)).find? (·.name = name)) = none := by
    decide
  refine ⟨by decide, haccepted, fun sha => ?_⟩
  rw [hashGeneration_eq]
  intro heq
  obtain ⟨stored, hstored, -⟩ := Option.map_eq_some_iff.mp heq
  have hnone := (storedFiles_accepted haccepted rfl).trans hread
  exact nomatch hnone.symm.trans hstored

end Sysmon.Fleet
