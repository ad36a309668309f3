import Sysmon.ConfGen.Validate
import Sysmon.Fleet.Verdict
import Sysmon.Lib.Search

/-!
# The count behind the chatter

The child of `validate_config` writes how many objects it found as its last line, behind whatever the parser
had to say, and the parent looks for that line in the first 1023 characters. The messages of `add_object` are
here as they are printed, with what a configuration puts into them; all else that is printed is a parameter.
-/

namespace Sysmon.Parser

open CText

/-! ### What the parser says -/

/-- A message on stderr. The buffer of `print_err` holds 255 characters. -/
def printErr (secs message : CStr) : CStr :=
  "sysmond: ".toList ++ secs ++ ' ' :: message.take 255 ++ ['\n']

def complaint (given : Bool) (text : CStr) : List CStr := if given then [text] else []

/-- The messages of `add_object`, where the block ends in the line. Those of `debug` are left out. -/
def addObjectMessages (env : Env) (s : Scratch) (lineNo : Int) : List CStr :=
  match s.name with
  | none => ["ending object that was never begun? ".toList ++ showInt lineNo ++ [' ']]
  | some name =>
      let signsOn := s.iType == CheckType.imap || s.iType == CheckType.pop3 || s.iType == CheckType.pop2 ||
        s.iType == CheckType.radius
      let polls := s.iType == CheckType.snmp
      complaint (s.head.any fun element => element.uniqueName = name)
          ("WARNING: more than one object named ".toList ++ name ++
            " - Results may not be as expected".toList) ++
        complaint (s.str .ip).isNone ("no ip/dns name specified for object ".toList ++ name) ++
        complaint ((s.str .ip).bind env.gethostbyname).isNone
          ((s.str .ip).getD "(null)".toList ++ " is not a valid dns name, not monitoring".toList) ++
        complaint (s.iType == -1) ("unable to determine check type for object ".toList ++ name) ++
        complaint (s.iType == CheckType.www && ((s.str .url).isNone || (s.str .urltext).isNone))
          ("No url or URLText specified for http check of ".toList ++ name ++ " object".toList) ++
        complaint (signsOn && (s.str .username).isNone)
          ("no username specified for object ".toList ++ name ++ ['\n']) ++
        complaint (signsOn && (s.str .password).isNone)
          ("no password specified for object ".toList ++ name ++ ['\n']) ++
        complaint (s.iType == CheckType.radius && (s.str .secret).isNone)
          ("no radius secret specified for object ".toList ++ name ++ ['\n']) ++
        complaint (s.iType == CheckType.dns && (s.str .dnsQuery).isNone)
          ("no dns-query specified for object ".toList ++ name ++ ['\n']) ++
        complaint (polls && (s.str .oid).isNone && s.iSnmpType != snmpReboot)
          ("no oid specified for object ".toList ++ name ++ ['\n']) ++
        complaint (polls && s.iSnmpType == -1)
          ("no (valid) snmp-type for object ".toList ++ name ++ ['\n']) ++
        complaint (polls && (s.str .community).isNone)
          ("no community specified for object ".toList ++ name ++ ['\n']) ++
        complaint (validObject env s && (s.str .desc).isNone)
          ("WARNING: object has no descripton near line ".toList ++ showInt lineNo) ++
        complaint (!validObject env s) ("did not add object ".toList ++ name ++ " as it was not valid".toList)

/-- How a child ends. -/
inductive Status where
  | exited (code : Nat)
  | signaled (signal : Nat)
  deriving DecidableEq, Repr

/-- A child that does not finish the parse: the scanner gives up, or a signal comes. -/
inductive Death where
  | fatalError
  | signal (n : Nat)

def Death.status : Death → Status
  | .fatalError => .exited 2
  | .signal n => .signaled n

/-- The rest of what is printed: the clock, the numbers of the lines, what the other rules say of the last of
the pieces read so far (of none: that the entry file cannot be opened), and what is said of the finished list.
And what there is to say when the child dies, or cannot be made. -/
structure Voice where
  secs : List Piece → CStr
  lineNo : List Piece → Int
  rules : List Piece → CStr
  finished : CStr
  dying : CStr × Death
  noChild : CStr

def Piece.step (env : Env) (s : Scratch) : Piece → Scratch
  | .token found => found.step env s
  | _ => s

/-- What `add_object` says if it is called for the last of the pieces. -/
def Voice.close (voice : Voice) (env : Env) (s : Scratch) (read : List Piece) : Piece → CStr
  | .token token =>
      if token.rule = .close ∧ s.shared.inSpawns = false then
        (addObjectMessages env s (voice.lineNo read)).flatMap (printErr (voice.secs read))
      else []
  | _ => []

/-- All that is said of the pieces, behind some that have been read. -/
def Voice.chatter (voice : Voice) (env : Env) : Scratch → List Piece → List Piece → CStr
  | _, _, [] => []
  | s, read, piece :: pieces =>
      voice.rules (read ++ [piece]) ++ voice.close env s (read ++ [piece]) piece ++
        voice.chatter env (piece.step env s) (read ++ [piece]) pieces

end Sysmon.Parser

open Sysmon.Parser

namespace Sysmon.ConfGen

open CText GoText Fleet

/-! ### The child and its parent -/

structure Child where
  output : CStr
  status : Status

def objectsMarker : CStr := "SYSMOND-OBJECTS ".toList

/-- What the parser says of the entry file of a directory. -/
def Validator.said (v : Validator) (voice : Voice) (dir : Dir) (mainname : CStr) : CStr :=
  match v.reading dir mainname with
  | none => voice.rules []
  | some pieces => voice.chatter v.env v.start [] pieces ++ voice.finished

/-- The child of `validate_config`. -/
def Validator.run (v : Validator) (voice : Voice) (dir : Dir) (mainname : CStr) : Child :=
  let found := v.reading dir mainname
  let said := v.said voice dir mainname
  let (loaded, tree) := Reload.loadconfig v.child v.env (found.map tokensOf)
  if ¬v.Survives (found.getD []) then ⟨voice.dying.1, voice.dying.2.status⟩
  else if loaded.scratch.badconfig then ⟨said, .exited 1⟩
  else if tree.isEmpty then ⟨said ++ "the config declares nothing to monitor\n".toList, .exited 1⟩
  else if loaded.configedRoot.isNone then
    ⟨said ++ "root object \"".toList ++ loaded.scratch.root.getD [] ++
      "\" is not defined in this config\n".toList, .exited 1⟩
  else ⟨said ++ (objectsMarker ++ (showNat (UInt64.ofNat tree.length).toNat ++ ['\n'])), .exited 0⟩

/-- What fits into the `err` of `confgen_receive`. -/
def errMax : Nat := 1023

structure Validation where
  ok : Bool
  err : CStr
  objects : UInt64

/-- The parent takes the marker and all behind it off the text. -/
def readObjects (err : CStr) : CStr × UInt64 :=
  match strstr objectsMarker err with
  | some (before, behind) => (before, strtoul behind)
  | none => (err, 0)

def epitaph : Status → CStr
  | .exited _ => "the config was rejected".toList
  | .signaled signal => "the parser died on signal ".toList ++ showNat signal

def Validator.validateConfig (v : Validator) (voice : Voice) (dir : Dir) (mainname : CStr) : Validation :=
  if !v.forks then ⟨false, voice.noChild.take errMax, 0⟩
  else
    let child := v.run voice dir mainname
    let (err, objects) := readObjects (child.output.take errMax)
    if child.status = .exited 0 then ⟨true, err, objects⟩
    else ⟨false, if err = [] then epitaph child.status else err, objects⟩

/-- The objects that `loadconfig` builds. -/
def Validator.built (v : Validator) (dir : Dir) (mainname : CStr) : List Element :=
  (v.parsed ((v.reading dir mainname).getD [])).head

/-! ### Whether the count arrives -/

/-- An accepted configuration is answered with the number of its objects. -/
structure CountTold (v : Validator) (voice : Voice) (dir : Dir) (mainname : CStr) : Prop where
  returned : validates v dir mainname = true →
    (v.validateConfig voice dir mainname).objects.toNat = (v.built dir mainname).length
  sent : validates v dir mainname = true → ∀ generation hash,
    (fields (okReply generation hash (v.validateConfig voice dir mainname).objects.toNat)).getLast? =
      some (showNat (v.built dir mainname).length)

/-- What is said does not contain the marker, as far as it is read, and the count still fits behind it; or the
first marker in it has the same number behind it. -/
def Legible (said : CStr) (count : Nat) : Prop :=
  match strstr objectsMarker (said.take errMax) with
  | none => said.length + objectsMarker.length + (showNat count).length ≤ errMax ∧ count < 2 ^ 64
  | some (_, behind) => (strtoul behind).toNat = count

variable {v : Validator} {voice : Voice} {dir : Dir} {mainname : CStr}

/-! ### What the child comes to -/

theorem run_status (voice : Voice) :
    (v.forks && decide ((v.run voice dir mainname).status = .exited 0)) = validates v dir mainname := by
  have hdying : voice.dying.2.status ≠ .exited 0 := by
    cases voice.dying.2 <;> simp [Death.status]
  simp only [Validator.run, validates]
  by_cases hsurvives : v.Survives ((v.reading dir mainname).getD [])
  case neg => simp [hsurvives, hdying]
  by_cases hbad : (Reload.loadconfig v.child v.env
      ((v.reading dir mainname).map tokensOf)).1.scratch.badconfig = true
  case pos => simp [hsurvives, hbad]
  by_cases htree : (Reload.loadconfig v.child v.env
      ((v.reading dir mainname).map tokensOf)).2.isEmpty = true
  case pos => simp [hsurvives, hbad, htree]
  by_cases hroot : (Reload.loadconfig v.child v.env
      ((v.reading dir mainname).map tokensOf)).1.configedRoot.isNone = true
  case pos => simp [hsurvives, hbad, htree, hroot]
  have hrooted := Option.isNone_eq_false_iff.mp (eq_false_of_ne_true hroot)
  simp [hsurvives, hbad, htree, hroot, hrooted]

/-- The verdict is the one on the configuration, whatever is said. -/
theorem ok_validateConfig : (v.validateConfig voice dir mainname).ok = validates v dir mainname := by
  rw [← run_status voice, Validator.validateConfig]
  cases v.forks with
  | false => rfl
  | true =>
      by_cases hstatus : (v.run voice dir mainname).status = .exited 0
      · simp [hstatus]
      · simp [hstatus]

/-- An accepted configuration is told with the number of its objects. -/
theorem run_accepted (h : validates v dir mainname = true) :
    (v.run voice dir mainname).output = v.said voice dir mainname ++ (objectsMarker ++
      (showNat (UInt64.ofNat (v.built dir mainname).length).toNat ++ ['\n'])) := by
  simp only [validates, Bool.and_eq_true, decide_eq_true_eq, Bool.not_eq_true'] at h
  obtain ⟨⟨⟨⟨-, hsurvives⟩, hgood⟩, hsome⟩, hrooted⟩ := h
  have hroot : ¬(Reload.loadconfig v.child v.env
      ((v.reading dir mainname).map tokensOf)).1.configedRoot.isNone = true := by
    rw [Option.isSome_iff_ne_none] at hrooted
    exact fun hnone => hrooted (Option.isNone_iff_eq_none.mp hnone)
  simp only [Validator.run, if_neg (not_not.mpr hsurvives), hgood, hsome, if_neg hroot, Bool.false_eq_true,
    if_false]
  cases hfound : v.reading dir mainname with
  | none =>
      rw [hfound] at hsome
      exact absurd hsome (by simp [Reload.loadconfig])
  | some pieces =>
      have htree : (Reload.loadconfig v.child v.env (some (tokensOf pieces))).2.length =
          (v.parsed pieces).head.length := List.length_range'
      rw [Option.map_some, htree, Validator.built, hfound, Option.getD_some]

theorem built_ne_nil (h : validates v dir mainname = true) : v.built dir mainname ≠ [] := by
  obtain ⟨element, hmem, -⟩ := ((validates_iff v dir mainname).mp h).rooted
  rw [Validator.built]
  cases hfound : v.reading dir mainname with
  | none =>
      rw [hfound] at hmem
      exact absurd hmem List.not_mem_nil
  | some pieces =>
      rw [hfound] at hmem
      exact List.ne_nil_of_mem hmem

/-- What is read of an accepted configuration. -/
theorem objects_accepted (h : validates v dir mainname = true) :
    (v.validateConfig voice dir mainname).objects =
      (readObjects ((v.said voice dir mainname ++ (objectsMarker ++
        (showNat (UInt64.ofNat (v.built dir mainname).length).toNat ++ ['\n']))).take errMax)).2 := by
  have hforks := ((validates_iff v dir mainname).mp h).forks
  have hstatus : (v.run voice dir mainname).status = .exited 0 := by
    rw [← run_status voice, hforks] at h
    exact of_decide_eq_true h
  simp only [Validator.validateConfig, hforks, hstatus, run_accepted h]
  rfl

/-! ### What the parent reads -/

theorem unbordered_objectsMarker : Unbordered objectsMarker := by
  decide

theorem length_objectsMarker : objectsMarker.length = 16 := by
  decide

/-- A number that the marker follows, or a part of it. -/
theorem strtoul_append_marker (behind rest : CStr) (k : Nat) :
    strtoul (behind ++ (objectsMarker ++ rest).take k) = strtoul behind := by
  cases k with
  | zero => rw [List.take_zero, List.append_nil]
  | succ k =>
      have hmarker : objectsMarker ++ rest = 'S' :: (objectsMarker.tail ++ rest) := rfl
      rw [hmarker, List.take_succ_cons]
      exact strtoul_append (by decide) (by decide) (by decide) (by decide) _ _

/-- The number is read where there is room for its digits. -/
theorem strtoul_take_iff {n : UInt64} (hn : n ≠ 0) (k : Nat) :
    strtoul ((showNat n.toNat ++ ['\n']).take k) = n ↔ (showNat n.toNat).length ≤ k := by
  by_cases hk : (showNat n.toNat).length ≤ k
  · refine iff_of_true ?_ hk
    rw [List.take_append, List.take_of_length_le hk]
    cases k - (showNat n.toNat).length with
    | zero => rw [List.take_zero, List.append_nil, strtoul_showNat_self]
    | succ more => exact strtoul_showNat (by simp) n
  · refine iff_of_false ?_ hk
    have hshort : k < (showNat n.toNat).length := Nat.lt_of_not_le hk
    rw [List.take_append_of_le_length hshort.le]
    exact strtoul_take_ne hn hshort

/-- The count is read as it was written exactly when it is legible. -/
theorem readObjects_iff {n : UInt64} (hn : n ≠ 0) (said : CStr) :
    (readObjects ((said ++ (objectsMarker ++ (showNat n.toNat ++ ['\n']))).take errMax)).2 = n ↔
      Legible said n.toNat := by
  set written := showNat n.toNat ++ ['\n']
  rw [readObjects, Legible]
  cases hfound : strstr objectsMarker (said.take errMax) with
  | some found =>
      have hmore := strstr_append hfound ((objectsMarker ++ written).take (errMax - said.length))
      rw [List.take_append, hmore]
      dsimp only
      rw [strtoul_append_marker]
      exact UInt64.toNat_inj.symm
  | none =>
      have hnot := strstr_eq_none_iff.mp hfound
      have hfits : (said.length + objectsMarker.length + (showNat n.toNat).length ≤ errMax ∧
          n.toNat < 2 ^ 64) ↔ said.length + objectsMarker.length + (showNat n.toNat).length ≤ errMax :=
        and_iff_left n.toNat_lt
      dsimp only
      rw [hfits]
      by_cases hroom : said.length + objectsMarker.length ≤ errMax
      · have hsaid : said.take errMax = said := List.take_of_length_le (by omega)
        rw [hsaid] at hnot
        rw [List.take_append, hsaid, List.take_append, List.take_of_length_le (i := errMax - said.length)
          (by omega), strstr_behind unbordered_objectsMarker (by decide) hnot]
        dsimp only
        rw [strtoul_take_iff hn]
        omega
      · -- the marker itself is cut
        have hcut : ¬objectsMarker <:+: (said ++ (objectsMarker ++ written)).take errMax := by
          have hmarker := length_objectsMarker
          have hshort : errMax - said.length < objectsMarker.length := by omega
          rw [List.take_append, List.take_append_of_le_length hshort.le]
          exact not_infix_append_take unbordered_objectsMarker hnot hshort
        rw [strstr_eq_none_iff.mpr hcut]
        exact iff_of_false (fun h => hn h.symm) (by omega)

/-- For an accepted configuration, all the chatter of its parse and every number of objects: the count arrives
exactly when it is legible behind the chatter. -/
theorem countTold_iff (v : Validator) (voice : Voice) (dir : Dir) (mainname : CStr) :
    CountTold v voice dir mainname ↔ (validates v dir mainname = true →
      Legible (v.said voice dir mainname) (v.built dir mainname).length) := by
  have hlast : ∀ generation hash, (fields (okReply generation hash
      (v.validateConfig voice dir mainname).objects.toNat)).getLast? =
      some (showNat (v.validateConfig voice dir mainname).objects.toNat) := by
    intro generation hash
    rw [fields_okReply]
    rfl
  have hreturned : CountTold v voice dir mainname ↔ (validates v dir mainname = true →
      (v.validateConfig voice dir mainname).objects.toNat = (v.built dir mainname).length) := by
    refine ⟨CountTold.returned, fun h => ⟨h, fun hok generation hash => ?_⟩⟩
    rw [hlast, h hok]
  rw [hreturned]
  refine forall_congr' fun hok => ?_
  rw [objects_accepted hok]
  set count := (v.built dir mainname).length
  have hcount : count ≠ 0 := fun h => built_ne_nil hok (List.length_eq_zero_iff.mp h)
  by_cases hlt : count < 2 ^ 64
  · have hback : (UInt64.ofNat count).toNat = count := UInt64.toNat_ofNat_of_lt' hlt
    have hne : UInt64.ofNat count ≠ 0 := fun h => hcount (by rw [← hback, h]; rfl)
    have hread := readObjects_iff hne (v.said voice dir mainname)
    rw [hback] at hread ⊢
    rw [← hread]
    exact ⟨fun h => UInt64.toNat_inj.mp (h.trans hback.symm), fun h => by rw [h, hback]⟩
  · -- such a number is neither written nor read
    refine iff_of_false (fun h => hlt (h ▸ UInt64.toNat_lt _)) fun h => ?_
    rw [Legible] at h
    split at h
    · exact hlt h.2
    · exact hlt (h ▸ UInt64.toNat_lt _)

/-- The other rules have nothing to say. -/
def quietVoice : Voice where
  secs := fun _ => "12:00:00".toList
  lineNo := fun _ => 1
  rules := fun _ => []
  finished := []
  dying := ([], .fatalError)
  noChild := []

/-- One object, twice, under the name of the marker. -/
def twoMarkers : Dir :=
  [⟨entryName, "root \"SYSMOND-OBJECTS\";".toList ++
    "object SYSMOND-OBJECTS \x7bip \"h\";type ping;desc \"d\";\x7d;".toList ++
    "object SYSMOND-OBJECTS \x7bip \"h\";type ping;desc \"d\";\x7d;".toList⟩]

/-- The message about the second object is taken for the count: none, and there are two. -/
theorem count_of_message : ¬CountTold healthyValidator quietVoice twoMarkers entryName := by
  have hcount : validates healthyValidator twoMarkers entryName = true ∧
      (healthyValidator.validateConfig quietVoice twoMarkers entryName).objects = 0 ∧
      (healthyValidator.built twoMarkers entryName).length = 2 := by
    decide +kernel
  obtain ⟨hok, hobjects, hbuilt⟩ := hcount
  intro h
  have hreturned := h.returned hok
  rw [hobjects, hbuilt] at hreturned
  exact absurd hreturned (by decide)

end Sysmon.ConfGen
