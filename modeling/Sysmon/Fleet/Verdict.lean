import Sysmon.Fleet.Get

/-!
# The verdict on a delivery

The reply of `confgen_receive`, and `putConfigFiles` reading it. What `confgen_apply` makes of the files
is a parameter: it accepts them with a number of objects, or it gives back a text of complaints. The
complaints go out one line each before the verdict, and the reader stops at the first line that begins
with three digits.
-/

namespace Sysmon.Fleet

open CText GoText Lines

/-! ### The daemon's side -/

def bytesText (bytes : List UInt8) : CStr := bytes.map fun b => Char.ofNat b.toNat

/-- What fits into `reply`. -/
def replyMax : Nat := 511

def malformedReply : Malformed → CStr
  | .usage => "444 usage: CONFIG-PUT <generation> <payload-bytes>".toList
  | .payloadSize payloadLen =>
      ("444 payload of ".toList ++ showInt payloadLen.toInt ++ " bytes is outside 1..".toList ++
        showNat confgenMaxPayload).take replyMax
  | .truncated => "444 the delivery was truncated".toList
  | .header => "444 malformed FILE header".toList
  | .notTerminated => "444 a file was not terminated by ENDFILE".toList
  | .tooMany => "444 too many files in one delivery".toList
  | .notBase64 => "444 the delivery is not valid base64".toList
  | .declared name declared carried =>
      ("444 ".toList ++ bytesText name ++ " declared ".toList ++ showInt declared.toInt ++
        " bytes but carried ".toList ++ showNat carried).take replyMax

/-- What `confgen_apply` can make of a delivery: a text of complaints, or what runs now. -/
inductive Outcome where
  | rejected (err : CStr)
  | accepted (generation : UInt64) (hash : Option Digest) (objects : UInt64)
  deriving DecidableEq

/-- The loop over the complaints. -/
def complaintLines (err : CStr) : List CStr := (err.splitOn '\n').filter (· ≠ [])

def rejectedReply : CStr := "444 config rejected, nothing changed".toList

def outcomeLines : Outcome → List CStr
  | .rejected err => complaintLines err ++ [rejectedReply]
  | .accepted generation hash objects => [okReply generation hash objects.toNat]

/-- What comes of one CONFIG-PUT: what was decided, the lines of the reply, the input that was not
read. -/
structure Received where
  outcome : Option Outcome
  lines : List CStr
  unread : CStr

def confgenReceive (apply : UInt64 → List GenFile → Outcome) (args input : CStr) : Received :=
  match receiveFiles args input with
  | (.error malformed, unread) => ⟨none, [malformedReply malformed], unread⟩
  | (.ok (generation, files), unread) =>
      ⟨some (apply generation files), outcomeLines (apply generation files), unread⟩

/-! ### The server's side -/

/-- The code line, if one came, what stood before it, and what was not read. -/
def readUntilCode (body : List CStr) : List CStr → Option CStr × List CStr × List CStr
  | [] => (none, body, [])
  | line :: rest =>
      let trimmed := trimEol line
      if isCode trimmed then (some trimmed, body, rest)
      else readUntilCode (if trimmed ≠ [] then body ++ [trimmed] else body) rest

inductive PutResult where
  | accepted (generation : UInt64) (hash : CStr) (objects : Int)
  | refused (code : CStr)
  | malformed (code : CStr)
  | noVerdict
  deriving DecidableEq, Repr

def putResult (code : CStr) : PutResult :=
  if !"333".toList.isPrefixOf code then .refused code
  else
    match fields code with
    | _ :: generation :: hash :: more =>
        .accepted (parseUint generation) hash ((more.head?.map atoi).getD 0)
    | _ => .malformed code

/-- The end of `putConfigFiles`: the verdict, the complaints, and what the reader has left. -/
def putVerdict (input : CStr) : PutResult × List CStr × List CStr :=
  match readUntilCode [] (input.splitOn '\n') with
  | (some code, complaints, rest) => (putResult code, complaints, rest)
  | (none, complaints, rest) => (.noVerdict, complaints, rest)

/-! ### Reading a reply -/

theorem isCode_concat_cr (s : CStr) : isCode (s ++ ['\r']) = isCode s := by
  by_cases hlength : 3 ≤ s.length
  · exact isCode_append hlength _
  · have hshort : isCode s = false := by simp [isCode, hlength]
    rw [hshort]
    rcases s with _ | ⟨a, _ | ⟨b, _ | ⟨c, s⟩⟩⟩
    · rfl
    · rfl
    · simp [isCode]
    · simp only [List.length_cons] at hlength
      omega

theorem isCode_trimEol {s : CStr} (h : '\n' ∉ s) : isCode (trimEol s) = isCode s := by
  induction s using List.reverseRecOn with
  | nil => rfl
  | append_singleton s c ih =>
      simp only [List.mem_append, List.mem_singleton, not_or] at h
      by_cases hc : c = '\r'
      · rw [hc, trimEol_concat_cr, ih h.1, isCode_concat_cr]
      · have hkeep : trimEol (s ++ [c]) = s ++ [c] := by
          rw [trimEol, List.rdropWhile_concat_neg]
          simpa using ⟨hc, fun heq : c = '\n' => h.2 heq.symm⟩
        rw [hkeep]

section reading

variable {line : CStr} (hline : '\n' ∉ line) (body rest : List CStr)

include hline

theorem readUntilCode_code (hcode : isCode line = true) :
    readUntilCode body ((line ++ ['\r']) :: rest) = (some (trimEol line), body, rest) := by
  rw [readUntilCode, trimEol_concat_cr]
  simp only [isCode_trimEol hline, hcode, if_true]

theorem readUntilCode_plain (hcode : isCode line = false) :
    ∃ body', readUntilCode body ((line ++ ['\r']) :: rest) = readUntilCode body' rest := by
  rw [readUntilCode, trimEol_concat_cr]
  simp only [isCode_trimEol hline, hcode, Bool.false_eq_true, if_false]
  exact ⟨_, rfl⟩

end reading

/-- Complaints that do not look like a code are passed over. -/
theorem readUntilCode_complaints {lines : List CStr} (hlines : ∀ line ∈ lines, '\n' ∉ line)
    (hcode : ∀ line ∈ lines, isCode line = false) (body rest : List CStr) :
    ∃ body', readUntilCode body (lines.map (· ++ ['\r']) ++ rest) = readUntilCode body' rest := by
  induction lines generalizing body with
  | nil => exact ⟨body, rfl⟩
  | cons line lines ih =>
      obtain ⟨next, hnext⟩ := readUntilCode_plain (hlines line List.mem_cons_self) body
        (lines.map (· ++ ['\r']) ++ rest) (hcode line List.mem_cons_self)
      obtain ⟨body', hbody'⟩ := ih (fun l hl => hlines l (List.mem_cons_of_mem line hl))
        (fun l hl => hcode l (List.mem_cons_of_mem line hl)) next
      refine ⟨body', ?_⟩
      rw [List.map_cons, List.cons_append, hnext, hbody']

/-- A complaint that looks like a code ends the reply before its last line. -/
theorem readUntilCode_early {lines : List CStr} (hlines : ∀ line ∈ lines, '\n' ∉ line)
    (hcode : ∃ line ∈ lines, isCode line = true) (body rest : List CStr) :
    rest.length ≤ (readUntilCode body (lines.map (· ++ ['\r']) ++ rest)).2.2.length := by
  induction lines generalizing body with
  | nil =>
      obtain ⟨line, hmem, -⟩ := hcode
      exact absurd hmem List.not_mem_nil
  | cons line lines ih =>
      rw [List.map_cons, List.cons_append]
      cases hthis : isCode line with
      | true =>
          rw [readUntilCode_code (hlines line List.mem_cons_self) _ _ hthis, List.length_append]
          omega
      | false =>
          obtain ⟨next, hnext⟩ := readUntilCode_plain (hlines line List.mem_cons_self) body
            (lines.map (· ++ ['\r']) ++ rest) hthis
          rw [hnext]
          refine ih (fun l hl => hlines l (List.mem_cons_of_mem line hl)) ?_ next
          obtain ⟨l, hl, hl'⟩ := hcode
          obtain rfl | hl := List.mem_cons.mp hl
          · exact absurd (hthis.symm.trans hl') Bool.false_ne_true
          · exact ⟨l, hl, hl'⟩

theorem splitOn_reply {lines : List CStr} {code : CStr} (hlines : ∀ line ∈ lines, '\n' ∉ line)
    (hnewline : '\n' ∉ code) (later : CStr) : (sent (lines ++ [code]) ++ later).splitOn '\n' =
      lines.map (· ++ ['\r']) ++ (code ++ ['\r']) :: later.splitOn '\n' := by
  rw [splitOn_sent, List.map_append, List.append_assoc, List.map_singleton, List.singleton_append]
  intro line hmem
  obtain hmem | hmem := List.mem_append.mp hmem
  · exact hlines line hmem
  · rw [List.mem_singleton.mp hmem]
    exact hnewline

/-- A reply of complaints and one code line, read from its beginning. -/
theorem readUntilCode_reply {lines : List CStr} {code : CStr} (hlines : ∀ line ∈ lines, '\n' ∉ line)
    (hplain : ∀ line ∈ lines, isCode line = false) (hnewline : '\n' ∉ code) (hcr : '\r' ∉ code)
    (hcode : isCode code = true) (later : CStr) :
    ∃ body, readUntilCode [] ((sent (lines ++ [code]) ++ later).splitOn '\n') =
      (some code, body, later.splitOn '\n') := by
  obtain ⟨body, hbody⟩ := readUntilCode_complaints hlines hplain []
    ((code ++ ['\r']) :: later.splitOn '\n')
  refine ⟨body, ?_⟩
  rw [splitOn_reply hlines hnewline, hbody, readUntilCode_code hnewline _ _ hcode,
    trimEol_of_not_mem hcr hnewline]

theorem putVerdict_reply {lines : List CStr} {code : CStr} (hlines : ∀ line ∈ lines, '\n' ∉ line)
    (hplain : ∀ line ∈ lines, isCode line = false) (hnewline : '\n' ∉ code) (hcr : '\r' ∉ code)
    (hcode : isCode code = true) (later : CStr) :
    ∃ complaints, putVerdict (sent (lines ++ [code]) ++ later) =
      (putResult code, complaints, later.splitOn '\n') := by
  obtain ⟨body, hbody⟩ := readUntilCode_reply hlines hplain hnewline hcr hcode later
  exact ⟨body, by rw [putVerdict, hbody]⟩

theorem putVerdict_rest (input : CStr) :
    (putVerdict input).2.2 = (readUntilCode [] (input.splitOn '\n')).2.2 := by
  rw [putVerdict]
  obtain ⟨code, complaints, rest⟩ := readUntilCode [] (input.splitOn '\n')
  cases code with
  | none => rfl
  | some code => rfl

/-! ### Agreement -/

/-- An outcome that can be told: a number of objects that an `int` holds, or complaints of which no
line begins with three digits. -/
def Outcome.Clear : Outcome → Prop
  | .rejected err => ∀ line ∈ err.splitOn '\n', isCode line = false
  | .accepted _ _ objects => objects.toNat < 2 ^ 63

/-- A delivery whose payload the daemon takes, with an outcome that can be told. The daemon comes to
an outcome if there are between 1 and 64 files. -/
structure Clear (apply : UInt64 → List GenFile → Outcome) (gen : UInt64) (files : List GenFile) : Prop where
  fits : (payload files).length ≤ confgenMaxPayload
  outcome : 1 ≤ files.length → files.length ≤ confsetMax → (apply gen (files.map received)).Clear

/-- The daemon's side of a delivery, with the commands that follow it. -/
def daemonSide (apply : UInt64 → List GenFile → Outcome) (gen : UInt64) (files : List GenFile)
    (commands : CStr) : Received := confgenReceive apply (putArgs gen files) (payload files ++ commands)

/-- The server's side, with the answers that follow the reply. -/
def serverSide (daemon : Received) (answers : CStr) : PutResult × List CStr × List CStr :=
  putVerdict (sent daemon.lines ++ answers)

/-- Both ends have the same idea of a delivery after it: the server reports acceptance when the daemon
accepted, with the daemon's numbers; the reader stands behind the reply, before the next answers; and
the daemon stands behind the payload, before the next commands. -/
structure Agree (daemon : Received) (commands answers : CStr) : Prop where
  accepts : (∃ generation hash objects, (serverSide daemon answers).1 = .accepted generation hash objects) ↔
    ∃ generation hash objects, daemon.outcome = some (.accepted generation hash objects)
  values : ∀ generation hash objects, daemon.outcome = some (.accepted generation hash objects) →
    (serverSide daemon answers).1 = .accepted generation (hashText hash) objects.toNat
  reader : (serverSide daemon answers).2.2 = answers.splitOn '\n'
  input : daemon.unread = commands

/-- What is needed for a refusal: that the server reads one, and all of it. -/
theorem agree_of_refused {daemon : Received} {commands answers : CStr} {code : CStr} {complaints : List CStr}
    (hdaemon : ∀ generation hash objects, daemon.outcome ≠ some (.accepted generation hash objects))
    (hserver : serverSide daemon answers = (.refused code, complaints, answers.splitOn '\n'))
    (hinput : daemon.unread = commands) : Agree daemon commands answers where
  accepts := by
    rw [hserver]
    constructor
    · rintro ⟨generation, hash, objects, ⟨⟩⟩
    · rintro ⟨generation, hash, objects, h⟩
      exact absurd h (hdaemon generation hash objects)
  values := fun generation hash objects h => absurd h (hdaemon generation hash objects)
  reader := by rw [hserver]
  input := hinput

theorem serverSide_malformed {malformed : Malformed} (hnewline : '\n' ∉ malformedReply malformed)
    (hcr : '\r' ∉ malformedReply malformed) (unread answers : CStr) :
    ∃ code complaints, serverSide ⟨none, [malformedReply malformed], unread⟩ answers =
      (.refused code, complaints, answers.splitOn '\n') := by
  have hrefusal : ∃ text, malformedReply malformed = "444".toList ++ text := by
    cases malformed <;> exact ⟨_, rfl⟩
  obtain ⟨text, htext⟩ := hrefusal
  have hcode : isCode (malformedReply malformed) = true := by
    rw [htext, isCode_append (by decide)]
    rfl
  obtain ⟨complaints, hverdict⟩ := putVerdict_reply (fun _ h => absurd h List.not_mem_nil)
    (fun _ h => absurd h List.not_mem_nil) hnewline hcr hcode answers
  refine ⟨malformedReply malformed, complaints, hverdict.trans ?_⟩
  rw [htext]
  rfl

theorem not_mem_payloadSize {c : Char} (payloadLen : Int64) (hdigit : c.isDigit = false) (hminus : c ≠ '-')
    (hwords : c ∉ "444 payload of ".toList ∧ c ∉ " bytes is outside 1..".toList) :
    c ∉ malformedReply (.payloadSize payloadLen) := by
  intro hmem
  have hwhole := List.mem_of_mem_take hmem
  simp only [List.mem_append] at hwhole
  obtain ((hfirst | hlen) | hsecond) | hmax := hwhole
  · exact hwords.1 hfirst
  · exact not_mem_showInt hdigit hminus _ hlen
  · exact hwords.2 hsecond
  · exact not_mem_showNat hdigit _ hmax

/-- A delivery that the daemon turns down before it applies anything. -/
theorem agree_malformed {apply : UInt64 → List GenFile → Outcome} {gen : UInt64} {files : List GenFile}
    {commands : CStr} {malformed : Malformed} (hnewline : '\n' ∉ malformedReply malformed)
    (hcr : '\r' ∉ malformedReply malformed) (hreceive : receiveFiles (putArgs gen files)
      (payload files ++ commands) = (.error malformed, commands)) (answers : CStr) :
    Agree (daemonSide apply gen files commands) commands answers := by
  have hdaemon : daemonSide apply gen files commands =
      ⟨none, [malformedReply malformed], commands⟩ := by
    rw [daemonSide, confgenReceive, hreceive]
  obtain ⟨code, complaints, hserver⟩ := serverSide_malformed hnewline hcr commands answers
  rw [hdaemon]
  exact agree_of_refused (fun _ _ _ => (Option.some_ne_none _).symm) hserver rfl

theorem newline_not_mem_complaintLines {err line : CStr} (h : line ∈ complaintLines err) : '\n' ∉ line :=
  newline_not_mem_of_mem_splitOn (List.mem_of_mem_filter h)

theorem agree_rejected_iff (err : CStr) (commands answers : CStr) :
    Agree ⟨some (.rejected err), outcomeLines (.rejected err), commands⟩ commands answers ↔
      (Outcome.rejected err).Clear := by
  have hlines : ∀ line ∈ complaintLines err, '\n' ∉ line := fun line => newline_not_mem_complaintLines
  have hclear : (Outcome.rejected err).Clear ↔ ∀ line ∈ complaintLines err, isCode line = false := by
    constructor
    · exact fun h line hline => h line (List.mem_of_mem_filter hline)
    · intro h line hline
      by_cases hne : line = []
      · rw [hne]
        rfl
      · exact h line (List.mem_filter.mpr ⟨hline, by simpa using hne⟩)
  rw [hclear]
  constructor
  · intro h
    by_contra hnot
    have hbad : ∃ line ∈ complaintLines err, isCode line = true := by
      by_contra hnone
      refine hnot fun line hline => ?_
      by_contra htrue
      exact hnone ⟨line, hline, by simpa using htrue⟩
    have hearly := readUntilCode_early hlines hbad []
      ((rejectedReply ++ ['\r']) :: answers.splitOn '\n')
    rw [← splitOn_reply hlines (by decide), ← putVerdict_rest, List.length_cons] at hearly
    have hreader : (putVerdict (sent (complaintLines err ++ [rejectedReply]) ++ answers)).2.2.length =
        (answers.splitOn '\n').length := congrArg List.length h.reader
    omega
  · intro h
    obtain ⟨complaints, hverdict⟩ := putVerdict_reply hlines h (by decide) (by decide)
      (by decide : isCode rejectedReply = true) answers
    exact agree_of_refused (by simp) hverdict rfl

theorem putResult_okReply (generation : UInt64) (hash : Option Digest) (count : Nat) :
    putResult (okReply generation hash count) =
      .accepted generation (hashText hash) (atoi (showNat count)) := by
  have hok : "333".toList.isPrefixOf (okReply generation hash count) = true := by
    simp [okReply, doneReply, List.isPrefixOf]
  rw [putResult, hok]
  simp only [Bool.not_true, Bool.false_eq_true, if_false, fields_okReply, parseUint_showNat,
    List.head?_cons, Option.map_some, Option.getD_some]

theorem agree_accepted_iff (generation : UInt64) (hash : Option Digest) (objects : UInt64)
    (commands answers : CStr) :
    Agree ⟨some (.accepted generation hash objects), outcomeLines (.accepted generation hash objects),
        commands⟩ commands answers ↔ (Outcome.accepted generation hash objects).Clear := by
  obtain ⟨complaints, hverdict⟩ := putVerdict_reply (fun _ h => absurd h List.not_mem_nil)
    (fun _ h => absurd h List.not_mem_nil)
    (plain_okReply generation hash objects.toNat (by decide) (by decide))
    (plain_okReply generation hash objects.toNat (by decide) (by decide)) (isCode_okReply _ _ _) answers
  rw [putResult_okReply] at hverdict
  have hserver : serverSide ⟨some (.accepted generation hash objects),
      outcomeLines (.accepted generation hash objects), commands⟩ answers =
        (.accepted generation (hashText hash) (atoi (showNat objects.toNat)), complaints,
          answers.splitOn '\n') := hverdict
  constructor
  · intro h
    have hvalues := h.values generation hash objects rfl
    rw [hserver] at hvalues
    injection hvalues with _ _ hobjects
    rw [atoi_of_all (showNat_ne_nil _) (all_isDigit_showNat _), showNat,
      Nat.ofDigitChars_ten_toDigits] at hobjects
    show objects.toNat < 2 ^ 63
    omega
  · intro h
    have hobjects : atoi (showNat objects.toNat) = objects.toNat := atoi_showNat h
    rw [hobjects] at hserver
    exact {
      accepts := by
        rw [hserver]
        exact ⟨fun _ => ⟨generation, hash, objects, rfl⟩, fun _ => ⟨_, _, _, rfl⟩⟩
      values := by
        rintro generation' hash' objects' ⟨⟩
        rw [hserver]
      reader := by rw [hserver]
      input := rfl }

/-- Both ends agree on a delivery exactly when the daemon takes its payload and the outcome can be
told. -/
theorem agree_iff (apply : UInt64 → List GenFile → Outcome) (gen : UInt64) (files : List GenFile)
    (commands answers : CStr) :
    Agree (daemonSide apply gen files commands) commands answers ↔ Clear apply gen files := by
  by_cases hfits : (payload files).length ≤ confgenMaxPayload
  · by_cases hsome : 1 ≤ files.length
    · have hreceive := receiveFiles_putArgs gen commands hsome hfits
      by_cases hcount : files.length ≤ confsetMax
      · have hdaemon : daemonSide apply gen files commands =
            ⟨some (apply gen (files.map received)), outcomeLines (apply gen (files.map received)),
              commands⟩ := by
          rw [daemonSide, confgenReceive, hreceive,
            walkPayload_payload (content_lt_of_fits hfits) hcount]
          rfl
        have houtcome : Clear apply gen files ↔ (apply gen (files.map received)).Clear :=
          ⟨fun h => h.outcome hsome hcount, fun h => ⟨hfits, fun _ _ => h⟩⟩
        rw [houtcome, hdaemon]
        cases apply gen (files.map received) with
        | rejected err => exact agree_rejected_iff err commands answers
        | accepted generation hash objects =>
            exact agree_accepted_iff generation hash objects commands answers
      · rw [walkPayload_tooMany (content_lt_of_fits hfits) (Nat.lt_of_not_le hcount)] at hreceive
        exact iff_of_true (agree_malformed (by decide) (by decide) hreceive answers)
          ⟨hfits, fun _ h => absurd h hcount⟩
    · have hempty : files = [] := List.length_eq_zero_iff.mp (by omega)
      have hnothing : payload files = [] := by
        rw [hempty]
        rfl
      obtain ⟨payloadLen, hreceive⟩ := receiveFiles_outside gen commands
        (Or.inl (List.length_eq_zero_iff.mpr hnothing))
      have hall : receiveFiles (putArgs gen files) (payload files ++ commands) =
          (.error (.payloadSize payloadLen), commands) := by
        rw [hnothing, List.nil_append, hreceive]
      exact iff_of_true (agree_malformed
        (not_mem_payloadSize payloadLen (by decide) (by decide) (by decide))
        (not_mem_payloadSize payloadLen (by decide) (by decide) (by decide)) hall answers)
        ⟨hfits, fun h => absurd h hsome⟩
  · -- nothing of the payload is read, and it is taken for commands
    refine iff_of_false (fun h => ?_) (fun h => hfits h.fits)
    obtain ⟨payloadLen, hreceive⟩ := receiveFiles_outside gen (payload files ++ commands)
      (Or.inr (Nat.lt_of_not_le hfits))
    have hinput := h.input
    rw [daemonSide, confgenReceive, hreceive] at hinput
    have hlength := congrArg List.length hinput
    simp only [List.length_append] at hlength
    omega

/-- The complaints about a configuration that only includes a file `333 7 x 5`, which is not there. -/
def missingInclude : CStr :=
  "333 7 x 5: No such file or directory\nthe config declares nothing to monitor\n".toList

/-- The first complaint begins with the name of the missing file, and the server takes it for an
acceptance. -/
theorem complaint_taken_for_acceptance :
    ¬ Agree (daemonSide (fun _ _ => .rejected missingInclude) 7
      [⟨[97], "include \"333 7 x 5\";\n".toList.map fun c => UInt8.ofNat c.toNat⟩] []) [] [] := by
  intro h
  obtain ⟨generation, hash, objects, haccepted⟩ := h.accepts.mp ⟨7, ['x'], 0, by decide⟩
  have hrejected : (daemonSide (fun _ _ => .rejected missingInclude) 7
      [⟨[97], "include \"333 7 x 5\";\n".toList.map fun c => UInt8.ofNat c.toNat⟩] []).outcome =
        some (.rejected missingInclude) := by decide
  rw [hrejected] at haccepted
  exact absurd haccepted (by simp)

end Sysmon.Fleet
