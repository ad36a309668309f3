import Sysmon.Config.Service

/-!
# The optimistic lock

`GetConfig` makes its version of the main file and everything that file includes, `UpdateConfig` compares it with one
that is made of the main file alone. What the first hashes is the concatenation of the files it reads, so the two agree
on an unchanged configuration exactly when the included files are empty.
-/

namespace Sysmon.Config

open GoBytes Run

/-! ### The files that are read -/

/-- The file an `include` line of a file names. -/
def included (path line : CStr) : Option CStr :=
  match includeLine line with
  | .ok (some inc) => some (includePath path inc)
  | _ => none

/-- The files a configuration is made of, in the order they are read. -/
def readFiles (disk : Files) : Nat → CStr → List CStr
  | 0, _ => []
  | levels + 1, path =>
      match disk path with
      | none => []
      | some content => path :: ((scanLines content).filterMap (included path)).flatMap (readFiles disk levels)

def contentOf (disk : Files) (path : CStr) : CStr := (disk path).getD []

theorem extractQuoted_error {s : CStr} {failure : Failure} (h : extractQuoted s = .error failure) :
    failure = .panicked := by
  unfold extractQuoted at h
  dsimp only at h
  split at h
  · split at h
    · exact (Except.error.inj h).symm
    · contradiction
  · contradiction

theorem includeLine_error {line : CStr} {failure : Failure} (h : includeLine line = .error failure) :
    failure = .panicked := by
  unfold includeLine at h
  dsimp only at h
  split at h
  · cases hquoted : extractQuoted (trimPrefix "include ".toList (trimSuffix ';' (trimSpace line))) with
    | error other =>
        rw [hquoted] at h
        obtain rfl := Except.error.inj h
        exact extractQuoted_error hquoted
    | ok incPath =>
        rw [hquoted] at h
        cases h
  · cases h

section Merge

variable {α : Type} {one : CStr → Except Failure (List α)} {part : CStr → List α} {path line : CStr} {acc all : List α}

theorem mergeLine_error {failure : Failure} (h : mergeLine one path acc line = .error failure) :
    failure = .panicked := by
  unfold mergeLine at h
  cases hline : includeLine line with
  | error other =>
      rw [hline] at h
      obtain rfl := Except.error.inj h
      exact includeLine_error hline
  | ok inc =>
      rw [hline] at h
      cases inc with
      | none => cases h
      | some inc =>
          cases hone : one (includePath path inc) with
          | ok more => exact absurd (show merge acc (one (includePath path inc)) = .error failure from h) (by simp [hone, merge])
          | error other =>
              have h : merge acc (one (includePath path inc)) = .error failure := h
              rw [hone] at h
              cases other with
              | panicked => exact (Except.error.inj h).symm
              | failed => cases h

theorem mergeLine_ok (hok : ∀ path all, one path = .ok all → all = part path)
    (hfailed : ∀ path, one path = .error .failed → part path = []) (h : mergeLine one path acc line = .ok all) :
    all = acc ++ (included path line).toList.flatMap part := by
  unfold mergeLine at h
  unfold included
  cases hline : includeLine line with
  | error other =>
      rw [hline] at h
      cases h
  | ok inc =>
      rw [hline] at h
      cases inc with
      | none =>
          obtain rfl := Except.ok.inj h
          exact (List.append_nil acc).symm
      | some inc =>
          have h : merge acc (one (includePath path inc)) = .ok all := h
          have hpart : (some (includePath path inc)).toList.flatMap part = part (includePath path inc) := by simp
          rw [hpart]
          cases hone : one (includePath path inc) with
          | ok more =>
              rw [hone] at h
              rw [← hok _ _ hone]
              exact (Except.ok.inj h).symm
          | error other =>
              rw [hone] at h
              cases other with
              | panicked => cases h
              | failed =>
                  rw [hfailed _ hone, List.append_nil]
                  exact (Except.ok.inj h).symm

variable (part) in
/-- What the files of some lines add, where it is known what each file does. -/
theorem foldlM_mergeLine_ok (hok : ∀ path all, one path = .ok all → all = part path)
    (hfailed : ∀ path, one path = .error .failed → part path = []) {lines : List CStr}
    (h : lines.foldlM (mergeLine one path) acc = .ok all) :
    all = acc ++ (lines.filterMap (included path)).flatMap part := by
  induction lines generalizing acc with
  | nil =>
      obtain rfl := Except.ok.inj h
      exact (List.append_nil acc).symm
  | cons line lines ih =>
      rw [List.foldlM_cons] at h
      cases hline : mergeLine one path acc line with
      | error failure =>
          rw [hline] at h
          cases h
      | ok next =>
          rw [hline] at h
          rw [ih h, mergeLine_ok hok hfailed hline, List.append_assoc]
          cases hinc : included path line with
          | none => simp [hinc]
          | some file => simp [hinc]

theorem foldlM_mergeLine_error {lines : List CStr} {failure : Failure}
    (h : lines.foldlM (mergeLine one path) acc = .error failure) : failure = .panicked := by
  induction lines generalizing acc with
  | nil => cases h
  | cons line lines ih =>
      rw [List.foldlM_cons] at h
      cases hline : mergeLine one path acc line with
      | error other =>
          rw [hline] at h
          obtain rfl := Except.error.inj h
          exact mergeLine_error hline
      | ok next =>
          rw [hline] at h
          exact ih h

end Merge

theorem collectIncludes_failed {disk : Files} {levels : Nat} {path : CStr}
    (h : collectIncludes disk levels path = .error .failed) : readFiles disk levels path = [] := by
  cases levels with
  | zero => cases h
  | succ levels =>
      cases hdisk : disk path with
      | none => rw [readFiles, hdisk]
      | some content =>
          rw [collectIncludes, hdisk] at h
          exact absurd (foldlM_mergeLine_error h) (by decide)

/-- What is hashed are the files that are read, one after the other. -/
theorem collectIncludes_eq {disk : Files} {levels : Nat} {path all : CStr}
    (h : collectIncludes disk levels path = .ok all) : all = (readFiles disk levels path).flatMap (contentOf disk) := by
  induction levels generalizing path all with
  | zero => exact (Except.ok.inj h).symm
  | succ levels ih =>
      rw [collectIncludes] at h
      cases hdisk : disk path with
      | none =>
          rw [hdisk] at h
          cases h
      | some content =>
          rw [hdisk] at h
          have hall := foldlM_mergeLine_ok (fun path => (readFiles disk levels path).flatMap (contentOf disk))
            (fun path all => ih) (fun path hfailed => by rw [collectIncludes_failed hfailed]; rfl) h
          rw [readFiles, hdisk, List.flatMap_cons, List.flatMap_assoc, hall]
          have hcontent : contentOf disk path = content := by rw [contentOf, hdisk]; rfl
          rw [hcontent]

/-! ### What is accepted -/

section Lock

variable {V : Type} {sha : CStr → V} {configPath stamp : CStr} {st : State} {update s : Snapshot V}

theorem getConfig_version {disk : Files} (h : getConfig sha configPath disk = .ok s) :
    s.version = sha ((readFiles disk includeLevels configPath).flatMap (contentOf disk)) := by
  unfold getConfig at h
  cases hall : collectAllContent disk configPath with
  | error failure =>
      rw [hall] at h
      cases h
  | ok all =>
      rw [hall] at h
      cases hhosts : parseFile disk configPath with
      | error failure =>
          rw [hhosts] at h
          cases h
      | ok hosts =>
          rw [hhosts] at h
          rw [← collectIncludes_eq hall]
          exact congrArg Snapshot.version (Except.ok.inj h).symm

/-- There is a main file, and it comes first. -/
theorem readFiles_of_getConfig {disk : Files} (h : getConfig sha configPath disk = .ok s) :
    ∃ content files, disk configPath = some content ∧ readFiles disk includeLevels configPath = configPath :: files := by
  cases hdisk : disk configPath with
  | none =>
      have hall : collectAllContent disk configPath = .error .failed := by
        rw [collectAllContent, includeLevels, collectIncludes, hdisk]
      rw [getConfig, hall] at h
      cases h
  | some content => exact ⟨content, _, rfl, by rw [includeLevels, readFiles, hdisk]⟩

/-- The version check of `UpdateConfig`. -/
def Accepted (sha : CStr → V) (configPath : CStr) (st : State) (version : V) : Prop :=
  getCurrentVersion sha configPath st.disk = some version

theorem accepted_of_getConfig (hsha : Function.Injective sha) (hget : getConfig sha configPath st.disk = .ok s) (now : State) :
    Accepted sha configPath now s.version ↔
      now.disk configPath = some ((readFiles st.disk includeLevels configPath).flatMap (contentOf st.disk)) := by
  rw [Accepted, getCurrentVersion, getConfig_version hget, Option.map_eq_some_iff]
  constructor
  · rintro ⟨content, hcontent, heq⟩
    rw [hcontent, hsha heq]
  · intro h
    exact ⟨_, h, rfl⟩

variable [DecidableEq V]

/-- An update that is accepted goes on to be validated. -/
theorem updateConfig_of_accepted (h : Accepted sha configPath st update.version) :
    updateConfig sha configPath stamp update st =
      if validate update.hosts then
        match st.backup configPath stamp with
        | none => (.failure .failed, st)
        | some st => st.splice sha configPath update.hosts
      else (.failure .failed, st) := by
  have hversion : getCurrentVersion sha configPath st.disk = some update.version := h
  rw [updateConfig, hversion]
  exact if_neg (not_not_intro rfl)

/-- One that is not changes nothing, and is told so. -/
theorem updateConfig_of_refused (h : ¬Accepted sha configPath st update.version) :
    (updateConfig sha configPath stamp update st).2 = st ∧
      (updateConfig sha configPath stamp update st).1.succeeded = false := by
  rw [updateConfig]
  cases hversion : getCurrentVersion sha configPath st.disk with
  | none => exact ⟨rfl, rfl⟩
  | some current =>
      have hne : update.version ≠ current := by
        rintro rfl
        exact h hversion
      dsimp only
      rw [if_pos hne]
      refine ⟨rfl, ?_⟩
      cases getConfigUnlocked sha configPath st.disk with
      | error failure => rfl
      | ok snapshot => rfl

/-- Every file of the configuration is what it was. -/
def Unchanged (configPath : CStr) (was now : State) : Prop :=
  ∀ path ∈ readFiles was.disk includeLevels configPath, now.disk path = was.disk path

/-- The lock holds: a version is accepted as long as the configuration it was issued for has not changed, and no
longer. -/
def LockHolds (sha : CStr → V) (configPath : CStr) (was now : State) (version : V) : Prop :=
  Accepted sha configPath now version ↔ Unchanged configPath was now

theorem flatMap_contentOf_eq {content : CStr} {disk : Files} {files : List CStr} (hmain : disk configPath = some content) :
    (configPath :: files).flatMap (contentOf disk) = content ↔ ∀ path ∈ files, contentOf disk path = [] := by
  have hcontent : contentOf disk configPath = content := by rw [contentOf, hmain]; rfl
  rw [List.flatMap_cons, hcontent, List.append_right_eq_self, List.flatMap_eq_nil_iff]

/-- An unchanged configuration is accepted exactly when its included files are empty; a changed one is refused exactly
when the main file is not now what all of its files were, one after the other. -/
theorem lockHolds_exact (hsha : Function.Injective sha) (hget : getConfig sha configPath st.disk = .ok s)
    (events : List (Event V)) :
    LockHolds sha configPath st (exec (step sha configPath) st events) s.version ↔
      (Unchanged configPath st (exec (step sha configPath) st events) →
        ∀ path ∈ (readFiles st.disk includeLevels configPath).tail, contentOf st.disk path = []) ∧
      (¬Unchanged configPath st (exec (step sha configPath) st events) →
        (exec (step sha configPath) st events).disk configPath ≠
          some ((readFiles st.disk includeLevels configPath).flatMap (contentOf st.disk))) := by
  obtain ⟨content, files, hmain, hfiles⟩ := readFiles_of_getConfig hget
  generalize exec (step sha configPath) st events = now
  rw [LockHolds, accepted_of_getConfig hsha hget]
  by_cases hunchanged : Unchanged configPath st now
  · have hnow : now.disk configPath = some content := by
      rw [hunchanged configPath (by rw [hfiles]; exact List.mem_cons_self), hmain]
    rw [hnow, hfiles, Option.some.injEq, eq_comm, flatMap_contentOf_eq hmain]
    simp [hunchanged]
  · simp [hunchanged]

end Lock

/-! ### On files -/

/-- A main file, and one it includes. -/
def twoFiles (main other : String) : Files := fun path =>
  if path = "/main".toList then some main.toList
  else if path = "/other".toList then some other.toList
  else none

/-- A main file that includes the other, and an object in each. -/
def including : State := ⟨twoFiles "include \"/other\";\nobject a \x7b\n\x7d;\n" "object b \x7b\n\x7d;\n", fun _ => none⟩

/-- The other file is written. -/
def otherWritten : List (Event CStr) := [.edit "/other".toList (some "object c \x7b\n\x7d;\n".toList)]

theorem lockHolds_exact_including :
    LockHolds id "/main".toList including (exec (step id "/main".toList) including otherWritten)
      "include \"/other\";\nobject a \x7b\n\x7d;\nobject b \x7b\n\x7d;\n".toList ↔
    (Unchanged "/main".toList including (exec (step id "/main".toList) including otherWritten) →
      ∀ path ∈ (readFiles including.disk includeLevels "/main".toList).tail, contentOf including.disk path = []) ∧
    (¬Unchanged "/main".toList including (exec (step id "/main".toList) including otherWritten) →
      (exec (step id "/main".toList) including otherWritten).disk "/main".toList ≠
        some ((readFiles including.disk includeLevels "/main".toList).flatMap (contentOf including.disk))) :=
  @lockHolds_exact _ _ _ _ ⟨_, [newHost ['a'], newHost ['b']]⟩ _ Function.injective_id (by decide +kernel) otherWritten

/-- The including configuration is refused although nothing has happened. -/
theorem unchanged_refused :
    ¬∀ (sha : CStr → CStr), Function.Injective sha → ∀ (configPath : CStr) (st : State) (s : Snapshot CStr),
      getConfig sha configPath st.disk = .ok s → ∀ events : List (Event CStr),
        LockHolds sha configPath st (exec (step sha configPath) st events) s.version := by
  intro h
  have hlock := h id Function.injective_id "/main".toList
    ⟨twoFiles "include \"/other\";\n" "object a \x7b\n\x7d;\n", fun _ => none⟩
    ⟨"include \"/other\";\nobject a \x7b\n\x7d;\n".toList, [newHost ['a']]⟩ (by decide +kernel) []
  exact absurd (hlock.mpr fun path hpath => rfl) (by unfold Accepted; decide +kernel)

end Sysmon.Config
