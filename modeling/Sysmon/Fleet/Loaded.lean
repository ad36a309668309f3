import Sysmon.ConfGen.Accepted
import Sysmon.Fleet.Saves

/-!
# What is loaded

The reply to CONFIG-PUT carries the hash of the files as they were delivered. CONFIG-GEN carries the
hash of the file set that `confset_record` has gathered: the entry file, and every file that the
parser opened, by the name it was included under. Here is when the two are the same.
-/

open Sysmon.Parser

namespace Sysmon.Fleet

open ConfGen

/-! ### The file set -/

def openedBy (openFile : CStr → List CStr) (text : CStr) : Action → List CStr
  | .includeFile => ((quoted (cstring text)).map openFile).getD []
  | .skip | .token _ | .setting _ | .unknown => []

/-- The names that `open_new_file` records in a managed directory. An include that opens the directory
itself ends the process, and nothing is reported after it. -/
def openNewNames (dir : Dir) (inside : CStr → List CStr) (filename : CStr) : List CStr :=
  if '/' ∈ filename then []
  else
    match dir.find? fun file => file.name = filename with
    | some file => filename :: inside file.data
    | none => []

/-- The names of the files that are opened while a text is parsed, in the order of the openings. -/
def openedNames (dir : Dir) : Nat → CStr → List CStr
  | 0, _ => []
  | descriptors + 1, text => (lex text).flatMap fun (action, matched) =>
      openedBy (openNewNames dir (openedNames dir descriptors)) matched action

/-- `confset_record` in one directory, where a path is known by its last name. -/
def confsetRecord (set : List CStr) (name : CStr) : List CStr :=
  if name ∈ set then set else if confsetMax ≤ set.length then set else set ++ [name]

/-- The openings of `loadconfig`: the main file, and what is opened in it. -/
def openings (dir : Dir) (descriptors : Nat) (mainname : CStr) : List CStr :=
  mainname :: ((dir.find? fun file => file.name = mainname).map fun main =>
    openedNames dir descriptors main.data).getD []

def confset (dir : Dir) (descriptors : Nat) (mainname : CStr) : List CStr :=
  (openings dir descriptors mainname).foldl confsetRecord []

/-- The files that `confgen_hash` reads. -/
def confsetFiles (dir : Dir) (set : List CStr) : List File :=
  set.filterMap fun name => dir.find? fun file => file.name = name

/-- What a daemon has loaded after it has asked for the active configuration: the seed, of which the
parser has opened the files `seed`, or the generation that is running. -/
def loadedFiles (seed : List GenFile) (descriptors : Nat) (d : Daemon) : List GenFile :=
  if d.running = 0 then seed
  else
    let dir := (d.disk.gens d.running).getD []
    (confsetFiles dir (confset dir descriptors d.mainname)).map ofFile

/-- The set holds the first openings, as many as there is room for. -/
theorem foldl_confsetRecord {set : List CStr} (hset : set.length ≤ confsetMax) (names : List CStr) :
    names.foldl confsetRecord set =
      (set ++ (names.filter fun name => name ∉ set).eraseDups).take confsetMax := by
  induction names generalizing set with
  | nil =>
      rw [List.filter_nil, List.eraseDups_nil, List.append_nil]
      exact (List.take_of_length_le hset).symm
  | cons name names ih =>
      rw [List.foldl_cons, confsetRecord]
      by_cases hmem : name ∈ set
      · rw [if_pos hmem, ih hset, List.filter_cons_of_neg (by simpa using hmem)]
      · rw [if_neg hmem, List.filter_cons_of_pos (by simpa using hmem), List.eraseDups_cons]
        by_cases hfull : confsetMax ≤ set.length
        · rw [if_pos hfull, ih hset, List.take_append_of_le_length hfull,
            List.take_append_of_le_length hfull]
        · have hroom : (set ++ [name]).length ≤ confsetMax := by
            rw [List.length_append, List.length_singleton]
            omega
          have hlater : (names.filter fun n => n ∉ set ++ [name]) =
              (names.filter fun n => n ∉ set).filter fun n => !n == name := by
            rw [List.filter_filter]
            apply List.filter_congr
            intro n _
            by_cases hn : n = name
            · simp [hn]
            · simp [hn]
          rw [if_neg hfull, ih hroom, hlater, List.append_assoc, List.singleton_append]

theorem confset_eq_firsts (dir : Dir) (descriptors : Nat) (mainname : CStr) :
    confset dir descriptors mainname =
      (openings dir descriptors mainname).eraseDups.take confsetMax := by
  rw [confset, foldl_confsetRecord (Nat.zero_le _)]
  simp

theorem mem_dir_of_openNewNames {dir : Dir} {inside : CStr → List CStr} {filename name : CStr}
    (hinside : ∀ text, ∀ n ∈ inside text, n ∈ dir.map File.name)
    (h : name ∈ openNewNames dir inside filename) : name ∈ dir.map File.name := by
  rw [openNewNames] at h
  split at h
  · exact absurd h List.not_mem_nil
  · split at h
    next file hfound =>
      obtain rfl | hmem := List.mem_cons.mp h
      · have hname : file.name = name := by simpa using List.find?_some hfound
        exact List.mem_map.mpr ⟨file, List.mem_of_find?_eq_some hfound, hname⟩
      · exact hinside file.data name hmem
    next => exact absurd h List.not_mem_nil

theorem mem_dir_of_openedNames {dir : Dir} {descriptors : Nat} {text name : CStr}
    (h : name ∈ openedNames dir descriptors text) : name ∈ dir.map File.name := by
  induction descriptors generalizing text name with
  | zero => exact absurd h List.not_mem_nil
  | succ descriptors ih =>
      obtain ⟨⟨action, matched⟩, -, hmem⟩ := List.mem_flatMap.mp h
      cases action with
      | includeFile =>
          simp only [openedBy] at hmem
          cases hquoted : quoted (cstring matched) with
          | none =>
              rw [hquoted] at hmem
              exact absurd hmem List.not_mem_nil
          | some filename =>
              rw [hquoted] at hmem
              have hinside : ∀ text, ∀ n ∈ openedNames dir descriptors text, n ∈ dir.map File.name :=
                fun text n hn => ih hn
              exact mem_dir_of_openNewNames hinside hmem
      | skip | token _ | setting _ | unknown => exact absurd hmem List.not_mem_nil

theorem mem_dir_of_confset {dir : Dir} {descriptors : Nat} {mainname name : CStr}
    (hmain : mainname ∈ dir.map File.name) (h : name ∈ confset dir descriptors mainname) :
    name ∈ dir.map File.name := by
  rw [confset_eq_firsts] at h
  have hopened := List.mem_eraseDups.mp (List.mem_of_mem_take h)
  obtain rfl | hmem := List.mem_cons.mp hopened
  · exact hmain
  · cases hfound : dir.find? fun file => file.name = mainname with
    | none =>
        rw [hfound] at hmem
        exact absurd hmem List.not_mem_nil
    | some main =>
        rw [hfound] at hmem
        exact mem_dir_of_openedNames hmem

theorem map_name_confsetFiles {dir : Dir} {set : List CStr} (h : ∀ name ∈ set, name ∈ dir.map File.name) :
    (confsetFiles dir set).map File.name = set := by
  induction set with
  | nil => rfl
  | cons name set ih =>
      have hrest := ih fun n hn => h n (List.mem_cons_of_mem name hn)
      obtain ⟨file, hfile, hname⟩ := List.mem_map.mp (h name List.mem_cons_self)
      obtain ⟨found, hfound⟩ := Option.isSome_iff_exists.mp
        (List.find?_isSome.mpr ⟨file, hfile, by simpa using hname⟩ :
          (dir.find? fun file => file.name = name).isSome = true)
      have hsame : found.name = name := by simpa using List.find?_some hfound
      have hcons : confsetFiles dir (name :: set) = found :: confsetFiles dir set := by
        simp only [confsetFiles, List.filterMap_cons, hfound]
      rw [hcons, List.map_cons, hsame, hrest]

/-! ### After the reload -/

variable {seedName : CStr} {d : Daemon} {g : UInt64} {files : List File} {env : ApplyEnv}

theorem loadedFiles_accepted (seed : List GenFile) (descriptors : Nat)
    (h : (apply seedName d g files env).error = none) :
    loadedFiles seed descriptors (((apply seedName d g files env).done d).reload seedName) =
      if entryRead seedName d env ∈ (dirOf files).map File.name then
        (confsetFiles (dirOf files)
          (confset (dirOf files) descriptors (entryRead seedName d env))).map ofFile
      else seed := by
  obtain ⟨hname, hrunning, hgens⟩ := reload_accepted h
  obtain ⟨hne, -⟩ := refusal_none_main (apply_ok h).1
  rw [loadedFiles, hrunning, hname]
  by_cases hentry : entryRead seedName d env ∈ (dirOf files).map File.name
  · rw [if_pos hentry, if_neg hne, hgens, if_pos hentry, Option.getD_some]
  · rw [if_neg hentry, if_pos rfl, if_neg hentry]

/-! ### What has been received -/

theorem not_mem_cString (bytes : List UInt8) : 0 ∉ cString bytes := by
  intro hmem
  exact absurd (List.mem_takeWhile_imp hmem) (by decide)

/-- What the walk keeps: a name is a C string, a length is a `long`, and the array has a last place. -/
structure Walk.Sound (w : Walk) : Prop where
  nul : ∀ f ∈ w.files, 0 ∉ f.name
  content : ∀ f ∈ w.files, f.content.length < 2 ^ 63
  room : w.files.length ≤ w.cap
  cap : w.cap ≤ confsetMax

theorem newcap_le (cap : Nat) : newcap cap ≤ confsetMax := Nat.min_le_right _ _

theorem Walk.Sound.finishFile {w w' : Walk} (hw : w.Sound) {begun : Begun}
    (h : Fleet.finishFile w.files w.cap begun = .ok w') : w'.Sound := by
  rw [Fleet.finishFile] at h
  split at h
  · exact absurd h (by simp)
  next hroom =>
    split at h
    next data name hdata hname =>
      split at h
      · exact absurd h (by simp)
      next hlength =>
        obtain rfl := Except.ok.inj h
        have hsize : data.length < 2 ^ 63 := by
          have hdeclared : begun.declared.toInt = data.length := not_not.mp hlength
          have := begun.declared.toInt_lt
          omega
        refine ⟨?_, ?_, ?_, ?_⟩
        · intro f hf
          obtain hmem | hlast := List.mem_append.mp hf
          · exact hw.nul f hmem
          · rw [List.mem_singleton.mp hlast]
            exact not_mem_cString name
        · intro f hf
          obtain hmem | hlast := List.mem_append.mp hf
          · exact hw.content f hmem
          · rw [List.mem_singleton.mp hlast]
            exact hsize
        · have hfits := hw.room
          simp only [List.length_append, List.length_singleton]
          split
          next hfull =>
            have hgrows : ¬ newcap w.cap ≤ w.files.length := fun hle => hroom ⟨hfull, hle⟩
            omega
          next hfull => omega
        · simp only
          split
          · exact newcap_le w.cap
          · exact hw.cap
    next => exact absurd h (by simp)

theorem Walk.Sound.walkLine {w w' : Walk} (hw : w.Sound) {line : CStr}
    (h : Fleet.walkLine w line = .ok w') : w'.Sound := by
  simp only [Fleet.walkLine] at h
  split at h
  · split at h
    · exact hw.finishFile h
    · obtain rfl := Except.ok.inj h
      exact ⟨hw.nul, hw.content, hw.room, hw.cap⟩
  · split at h
    · obtain rfl := Except.ok.inj h
      exact hw
    · split at h
      · obtain rfl := Except.ok.inj h
        exact ⟨hw.nul, hw.content, hw.room, hw.cap⟩
      · exact absurd h (by simp)

theorem Walk.Sound.foldlM {w w' : Walk} (hw : w.Sound) {lines : List CStr}
    (h : lines.foldlM Fleet.walkLine w = .ok w') : w'.Sound := by
  induction lines generalizing w with
  | nil =>
      obtain rfl := Except.ok.inj h
      exact hw
  | cons line lines ih =>
      rw [List.foldlM_cons] at h
      cases hline : Fleet.walkLine w line with
      | error err =>
          rw [hline] at h
          exact absurd h (by simp [bind, Except.bind])
      | ok next =>
          rw [hline] at h
          exact ih (hw.walkLine hline) h

theorem sound_walkPayload {text : CStr} {files : List GenFile} (h : walkPayload text = .ok files) :
    ∃ w : Walk, w.Sound ∧ w.files = files := by
  have hstart : Walk.Sound ⟨[], 0, none⟩ := by
    refine ⟨by simp, by simp, le_rfl, Nat.zero_le _⟩
  rw [walkPayload] at h
  cases hwalk : (text.splitOn '\n').dropLast.foldlM walkLine ⟨[], 0, none⟩ with
  | error err =>
      rw [hwalk] at h
      exact absurd h (by simp [bind, Except.bind])
  | ok w =>
      have hw := hstart.foldlM hwalk
      rw [hwalk] at h
      simp only [bind, Except.bind] at h
      split at h
      · exact ⟨w, hw, Except.ok.inj h⟩
      next begun hbegun =>
        split at h
        · cases hfinish : finishFile w.files w.cap begun with
          | error err =>
              rw [hfinish] at h
              exact absurd h (by simp)
          | ok last =>
              rw [hfinish] at h
              exact ⟨last, hw.finishFile hfinish, Except.ok.inj h⟩
        · exact absurd h (by simp)

theorem sound_receiveFiles {args input rest : CStr} {gen : UInt64} {files : List GenFile}
    (h : receiveFiles args input = (.ok (gen, files), rest)) :
    files.length ≤ confsetMax ∧ ∀ f ∈ files, 0 ∉ f.name ∧ f.content.length < 2 ^ 63 := by
  obtain ⟨text, hwalk⟩ : ∃ text, walkPayload text = .ok files := by
    have hmap : ∀ (number : UInt64) (text : CStr),
        (walkPayload text).map (fun files => (number, files)) = .ok (gen, files) →
          walkPayload text = .ok files := by
      intro number text hok
      cases hwalk : walkPayload text with
      | error err =>
          rw [hwalk] at hok
          exact absurd hok (by simp [Except.map])
      | ok received =>
          rw [hwalk] at hok
          rw [(Prod.mk.inj (Except.ok.inj hok)).2]
    simp only [receiveFiles] at h
    repeat' split at h
    all_goals first
      | exact ⟨_, hmap _ _ (Prod.mk.inj h).1⟩
      | exact absurd (Prod.mk.inj h).1 (by simp)
  obtain ⟨w, hw, rfl⟩ := sound_walkPayload hwalk
  exact ⟨hw.room.trans hw.cap, fun f hf => ⟨hw.nul f hf, hw.content f hf⟩⟩

/-! ### The two hashes -/

/-- The `.order` file as bytes. -/
def orderBytes (files : List GenFile) : GenFile :=
  ⟨textBytes orderFile, files.flatMap fun f => f.name ++ [10]⟩

theorem dirOf_toFile (files : List GenFile) :
    dirOf (files.map toFile) = (files ++ [orderBytes files]).map toFile := by
  have htext : orderText (files.map toFile) = bytesText (files.flatMap fun f => f.name ++ [10]) := by
    rw [orderText, bytesText, List.flatMap_map, List.map_flatMap]
    apply List.flatMap_congr
    intro f _
    rw [List.map_append]
    rfl
  have hname : bytesText (textBytes orderFile) = orderFile := by decide
  rw [dirOf, List.map_append, List.map_singleton, ConfGen.orderOf, htext]
  simp only [orderBytes, toFile, hname]

theorem length_orderBytes {files : List GenFile} (hnames : ∀ f ∈ files, f.name.length < 128) :
    (orderBytes files).content.length ≤ 128 * files.length := by
  simp only [orderBytes]
  induction files with
  | nil => exact le_rfl
  | cons f files ih =>
      have hrest := ih fun g hg => hnames g (List.mem_cons_of_mem f hg)
      have hname := hnames f List.mem_cons_self
      rw [List.flatMap_cons, List.length_append, List.length_append, List.length_singleton,
        List.length_cons]
      omega

/-- The names of the directory are all different. -/
theorem find?_dirOf {files : List File} (hnodup : (files.map File.name).Nodup) {file : File}
    (h : file ∈ files) : (dirOf files).find? (fun f => f.name = file.name) = some file := by
  rw [dirOf, List.find?_append]
  have hfound : files.find? (fun f => f.name = file.name) = some file := by
    induction files with
    | nil => exact absurd h List.not_mem_nil
    | cons first files ih =>
        obtain ⟨hfirst, hrest⟩ := List.nodup_cons.mp hnodup
        obtain rfl | hmem := List.mem_cons.mp h
        · exact List.find?_cons_of_pos (by simp)
        · have hother : ¬ first.name = file.name := fun heq =>
            hfirst (List.mem_map.mpr ⟨file, hmem, heq.symm⟩)
          rw [List.find?_cons_of_neg (by simpa using hother)]
          exact ih hrest hmem
  rw [hfound, Option.some_or]

/-- The file set is the delivery when it has the names of the delivery in the same order. -/
theorem confsetFiles_eq_iff {files : List File} (hnodup : (files.map File.name).Nodup)
    {set : List CStr} (hset : ∀ name ∈ set, name ∈ (dirOf files).map File.name) :
    confsetFiles (dirOf files) set = files ↔ set = files.map File.name := by
  constructor
  · intro h
    have hnames := map_name_confsetFiles hset
    rw [h] at hnames
    exact hnames.symm
  · rintro rfl
    rw [confsetFiles, List.filterMap_map]
    have hall : ∀ f ∈ files,
        ((fun name => (dirOf files).find? fun file => file.name = name) ∘ File.name) f = some f :=
      fun f hf => find?_dirOf hnodup hf
    rw [List.filterMap_congr hall, List.filterMap_some]

theorem confgenHashFiles_inj {left right : List GenFile} (hleft : ∀ f ∈ left, f.Held)
    (hright : ∀ f ∈ right, f.Held) (h : confgenHashFiles left = confgenHashFiles right) :
    left = right := by
  rw [confgenHashFiles, confgenHashFiles, List.flatMap_congr fun f hf => hashPair_eq_filePart (hleft f hf),
    List.flatMap_congr fun f hf => hashPair_eq_filePart (hright f hf)] at h
  exact flatMap_filePart_inj hleft hright h

theorem flatName_of_accepted {files : List GenFile}
    (h : (apply seedName d g (files.map toFile) env).error = none) {f : GenFile} (hf : f ∈ files) :
    f.name.length < 128 := by
  have hflat := (refusal_none (apply_ok h).1).2 (toFile f) (List.mem_map_of_mem hf)
  simp only [flatName, toFile, bytesText, Bool.and_eq_true, decide_eq_true_eq, List.length_map] at hflat
  exact hflat.2

/-- The parser opens the files of the delivery for the first time in the order of the delivery, the
entry file first, and no other file. Where the entry name is not read back, the seed is loaded, and it
has to be the delivery. -/
structure OpensAsDelivered (seedName : CStr) (d : Daemon) (files : List GenFile) (env : ApplyEnv)
    (descriptors : Nat) (seed : List GenFile) : Prop where
  opened : entryRead seedName d env ∈ (dirOf (files.map toFile)).map File.name →
    (openings (dirOf (files.map toFile)) descriptors (entryRead seedName d env)).eraseDups.take
      confsetMax = files.map fun f => bytesText f.name
  seeded : entryRead seedName d env ∉ (dirOf (files.map toFile)).map File.name → seed = files

variable {delivery : List GenFile} (seed : List GenFile) (descriptors : Nat)

theorem mem_of_confsetFiles {dir : Dir} {set : List CStr} {file : File}
    (h : file ∈ confsetFiles dir set) : file ∈ dir := by
  obtain ⟨name, -, hfound⟩ := List.mem_filterMap.mp h
  exact List.mem_of_find?_eq_some hfound

theorem map_ofFile_eq_iff {loaded : List File} (h : ∀ file ∈ loaded, file ∈ dirOf (delivery.map toFile)) :
    loaded.map ofFile = delivery ↔ loaded = delivery.map toFile := by
  have hback : (loaded.map ofFile).map toFile = loaded := by
    rw [List.map_map]
    refine (List.map_congr_left fun file hfile => ?_).trans (List.map_id' loaded)
    have hmem := h file hfile
    rw [dirOf_toFile] at hmem
    obtain ⟨f, -, rfl⟩ := List.mem_map.mp hmem
    rw [Function.comp_apply, ofFile_toFile]
  constructor
  · intro heq
    rw [← hback, heq]
  · rintro rfl
    rw [List.map_map]
    exact (List.map_congr_left fun f _ => ofFile_toFile f).trans (List.map_id' delivery)

theorem loadedFiles_eq_iff (h : (apply seedName d g (delivery.map toFile) env).error = none) :
    loadedFiles seed descriptors
        (((apply seedName d g (delivery.map toFile) env).done d).reload seedName) = delivery ↔
      OpensAsDelivered seedName d delivery env descriptors seed := by
  obtain ⟨hnodup, -⟩ := refusal_none (apply_ok h).1
  rw [loadedFiles_accepted seed descriptors h]
  by_cases hentry : entryRead seedName d env ∈ (dirOf (delivery.map toFile)).map File.name
  · have hnames : (delivery.map toFile).map File.name = delivery.map fun f => bytesText f.name := by
      rw [List.map_map]
      rfl
    rw [if_pos hentry, map_ofFile_eq_iff fun file hfile => mem_of_confsetFiles hfile,
      confsetFiles_eq_iff hnodup fun name hname => mem_dir_of_confset hentry hname,
      confset_eq_firsts, hnames]
    exact ⟨fun heq => ⟨fun _ => heq, fun hnot => absurd hentry hnot⟩, fun hopens => hopens.opened hentry⟩
  · rw [if_neg hentry]
    exact ⟨fun heq => ⟨fun hmem => absurd hmem hentry, fun _ => heq⟩, fun hopens => hopens.seeded hentry⟩

theorem held_orderBytes (hcount : delivery.length ≤ confsetMax)
    (hnames : ∀ f ∈ delivery, f.name.length < 128) : (orderBytes delivery).Held := by
  have hlength := length_orderBytes hnames
  have hmax : confsetMax = 64 := rfl
  have hname : (orderBytes delivery).name = textBytes orderFile := rfl
  refine ⟨?_, ?_, ?_⟩
  · rw [hname]
    decide
  · rw [hname]
    decide
  · omega

theorem held_loadedFiles (hseed : ∀ f ∈ seed, f.Held) (hheld : ∀ f ∈ delivery, f.Held)
    (horder : (orderBytes delivery).Held)
    (h : (apply seedName d g (delivery.map toFile) env).error = none) :
    ∀ f ∈ loadedFiles seed descriptors
      (((apply seedName d g (delivery.map toFile) env).done d).reload seedName), f.Held := by
  intro f hf
  rw [loadedFiles_accepted seed descriptors h] at hf
  split at hf
  · obtain ⟨file, hfile, rfl⟩ := List.mem_map.mp hf
    have hdir := mem_of_confsetFiles hfile
    rw [dirOf_toFile] at hdir
    obtain ⟨f, hmem, rfl⟩ := List.mem_map.mp hdir
    rw [ofFile_toFile]
    obtain hdelivered | hlast := List.mem_append.mp hmem
    · exact hheld f hdelivered
    · rw [List.mem_singleton.mp hlast]
      exact horder
  · exact hseed f hf

/-- The stream that is hashed after the reload is the stream that was acknowledged exactly when the
parser opens the files as they were delivered. -/
theorem stream_eq_iff (v : Validator) (seed : List HeldFile) (descriptors : Nat) {args input rest : CStr}
    (hreceived : receiveFiles args input = (.ok (g, delivery), rest))
    (haccepted : (confgenApply seedName d g (delivery.map toFile) env v).error = none) :
    confgenHashFiles (loadedFiles (seed.map Subtype.val) descriptors
          (((confgenApply seedName d g (delivery.map toFile) env v).done d).reload seedName)) =
        confgenHashFiles delivery ↔
      OpensAsDelivered seedName d delivery env descriptors (seed.map Subtype.val) := by
  obtain ⟨hcount, hsound⟩ := sound_receiveFiles hreceived
  have hnames : ∀ f ∈ delivery, f.name.length < 128 := fun f hf => flatName_of_accepted haccepted hf
  have hheld : ∀ f ∈ delivery, f.Held := by
    intro f hf
    have hname := hnames f hf
    exact ⟨(hsound f hf).1, by omega, (hsound f hf).2⟩
  have hseed : ∀ f ∈ seed.map Subtype.val, f.Held := by
    intro f hf
    obtain ⟨held, -, rfl⟩ := List.mem_map.mp hf
    exact held.property
  have hloaded := held_loadedFiles (seed.map Subtype.val) descriptors hseed hheld
    (held_orderBytes hcount hnames) haccepted
  have hopens := loadedFiles_eq_iff (seed.map Subtype.val) descriptors haccepted
  -- the verdict is the one thing that the validation adds to what the system answers
  have hcond : OpensAsDelivered seedName d delivery (judged seedName d g (delivery.map toFile) env v)
      descriptors (seed.map Subtype.val) ↔
        OpensAsDelivered seedName d delivery env descriptors (seed.map Subtype.val) := by
    constructor
    · rintro ⟨hopened, hseeded⟩
      exact ⟨hopened, hseeded⟩
    · rintro ⟨hopened, hseeded⟩
      exact ⟨hopened, hseeded⟩
  rw [hcond] at hopens
  constructor
  · intro hsame
    exact hopens.mp (confgenHashFiles_inj hloaded hheld hsame)
  · intro hasDelivered
    exact congrArg confgenHashFiles (hopens.mpr hasDelivered)

/-- Two different streams with one digest. -/
def Collide (sha : List UInt8 → Digest) (left right : List UInt8) : Prop :=
  left ≠ right ∧ sha left = sha right

/-- After a CONFIG-PUT that was accepted and the reload that follows, CONFIG-GEN reports the hash of
the reply exactly when the parser opens the files as they were delivered, or the hash does not tell the
two streams apart. -/
theorem acked_hash_iff (sha : List UInt8 → Digest) (seedName : CStr) (d : Daemon) (env : ApplyEnv)
    (v : Validator) (seed : List HeldFile) (descriptors : Nat) {args input rest : CStr} {gen : UInt64}
    {delivery : List GenFile} (hreceived : receiveFiles args input = (.ok (gen, delivery), rest))
    (haccepted : (confgenApply seedName d gen (delivery.map toFile) env v).error = none) :
    sha (confgenHashFiles (loadedFiles (seed.map Subtype.val) descriptors
          (((confgenApply seedName d gen (delivery.map toFile) env v).done d).reload seedName))) =
        sha (confgenHashFiles delivery) ↔
      OpensAsDelivered seedName d delivery env descriptors (seed.map Subtype.val) ∨
        Collide sha (confgenHashFiles (loadedFiles (seed.map Subtype.val) descriptors
            (((confgenApply seedName d gen (delivery.map toFile) env v).done d).reload seedName)))
          (confgenHashFiles delivery) := by
  have hstream := stream_eq_iff v seed descriptors hreceived haccepted
  constructor
  · intro heq
    by_cases hasDelivered : OpensAsDelivered seedName d delivery env descriptors (seed.map Subtype.val)
    · exact Or.inl hasDelivered
    · exact Or.inr ⟨fun hsame => hasDelivered (hstream.mp hsame), heq⟩
  · rintro (hasDelivered | hcollide)
    · exact congrArg sha (hstream.mpr hasDelivered)
    · exact hcollide.2

/-! ### Two files -/

/-- An entry file with one object, and an empty file `b` beside it. -/
def besideB (more : String) : List GenFile :=
  [⟨textBytes entryName, textBytes
      ("root \"a\";object a \x7bip \"h\";type ping;\x7d;".toList ++ more.toList)⟩, ⟨[98], []⟩]

/-- Everything about the two deliveries that is computed. -/
theorem besideB_computed :
    ∀ more ∈ ["include \"b\";", ""],
      receiveFiles (putArgs 2 (besideB more)) (payload (besideB more)) = (.ok (2, besideB more), []) ∧
        (confgenApply entryName runningOne 2 ((besideB more).map toFile) healthyApply
          healthyValidator).error = none ∧
        entryRead entryName runningOne healthyApply ∈
          (dirOf ((besideB more).map toFile)).map File.name ∧
        ((openings (dirOf ((besideB more).map toFile)) 8
            (entryRead entryName runningOne healthyApply)).eraseDups.take confsetMax =
          ((besideB more).map fun f => bytesText f.name) ↔ more = "include \"b\";") ∧
        ((∀ found ∈ lex (bytesText (textBytes
            ("root \"a\";object a \x7bip \"h\";type ping;\x7d;".toList ++ more.toList))),
          found.1 ≠ .includeFile) ↔ more = "") := by
  decide +kernel

/-- With `b` included, the hash that is acknowledged is the hash that is reported, whatever the hash. -/
theorem acked_hash_included :
    (confgenApply entryName runningOne 2 ((besideB "include \"b\";").map toFile) healthyApply
        healthyValidator).error = none ∧
      ∀ sha : List UInt8 → Digest,
        sha (confgenHashFiles (loadedFiles [] 8 (((confgenApply entryName runningOne 2
            ((besideB "include \"b\";").map toFile) healthyApply healthyValidator).done
              runningOne).reload entryName))) = sha (confgenHashFiles (besideB "include \"b\";")) := by
  obtain ⟨hreceived, haccepted, hentry, hopened, -⟩ := besideB_computed "include \"b\";" (by simp)
  refine ⟨haccepted, fun sha => ?_⟩
  exact (acked_hash_iff sha entryName runningOne healthyApply healthyValidator [] 8 hreceived
    haccepted).mpr (Or.inl ⟨fun _ => hopened.mpr rfl, fun hnot => absurd hentry hnot⟩)

/-- A file that nothing includes is acknowledged and not loaded: the hashes are those of two different
streams, and differ unless these collide. -/
theorem acked_hash_apart :
    receiveFiles (putArgs 2 (besideB "")) (payload (besideB "")) = (.ok (2, besideB ""), []) ∧
      (confgenApply entryName runningOne 2 ((besideB "").map toFile) healthyApply
        healthyValidator).error = none ∧
      ∀ sha : List UInt8 → Digest,
        sha (confgenHashFiles (loadedFiles [] 8 (((confgenApply entryName runningOne 2
            ((besideB "").map toFile) healthyApply healthyValidator).done runningOne).reload
              entryName))) ≠ sha (confgenHashFiles (besideB "")) ∨
          Collide sha (confgenHashFiles (loadedFiles [] 8 (((confgenApply entryName runningOne 2
            ((besideB "").map toFile) healthyApply healthyValidator).done runningOne).reload
              entryName))) (confgenHashFiles (besideB "")) := by
  obtain ⟨hreceived, haccepted, hentry, hopened, -⟩ := besideB_computed "" (by simp)
  refine ⟨hreceived, haccepted, fun sha => ?_⟩
  by_cases heq : sha (confgenHashFiles (loadedFiles [] 8 (((confgenApply entryName runningOne 2
      ((besideB "").map toFile) healthyApply healthyValidator).done runningOne).reload
        entryName))) = sha (confgenHashFiles (besideB ""))
  · refine Or.inr ⟨fun hsame => ?_, heq⟩
    have hopens := (stream_eq_iff healthyValidator [] 8 hreceived haccepted).mp hsame
    exact absurd (hopened.mp (hopens.opened hentry)) (by decide)
  · exact Or.inl heq

end Sysmon.Fleet
