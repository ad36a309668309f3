import Sysmon.Fleet.Put
import Sysmon.Lib.GoText

/-!
# CONFIG-GET on the wire

What `confgen_send` writes and how `fetchConfigFiles` reads it. The lines of the contents travel in the
same stream as the reply, and the reader takes any line that begins with three digits for the reply,
so a content whose base64 happens to put three digits at the beginning of a line cannot be fetched.
-/

namespace Sysmon.Fleet

open CText GoText Lines

/-! ### The daemon's side -/

/-- The 32 bytes of a SHA-256. -/
structure Digest where
  bytes : List UInt8
  size : bytes.length = 32
  deriving DecidableEq

def hexDigit (n : Nat) : Char := "0123456789abcdef".toList.getD (n % 16) '0'

def hexText (bytes : List UInt8) : CStr :=
  bytes.flatMap fun b => [hexDigit (b.toNat / 16), hexDigit b.toNat]

/-- What stands for the hash in a reply: a dash where it could not be computed. -/
def hashText : Option Digest → CStr
  | some digest => hexText digest.bytes
  | none => ['-']

/-- Why a file that is loaded cannot be sent. -/
inductive SendFault where
  | cannotRead
  | outOfMemory
  deriving DecidableEq, Repr

/-- An entry of `confset`, and what reading its file gives now. A name is a C string and a length is a
`long`. -/
structure LoadedFile where
  name : List UInt8
  path : CStr
  read : Except SendFault (List UInt8)
  nul : 0 ∉ name
  size : ∀ content, read = .ok content → content.length < 2 ^ 63

/-- The characters that fit into `line`. -/
def sendLineMax : Nat := b64Line + 127

/-- The reply to a command that went well. -/
def doneReply (generation : UInt64) (hash : Option Digest) : CStr :=
  "333 ".toList ++ showNat generation.toNat ++ ' ' :: hashText hash

/-- The same with the number some of them end with. -/
def okReply (generation : UInt64) (hash : Option Digest) (count : Nat) : CStr :=
  doneReply generation hash ++ ' ' :: showNat count

/-- The lines of `confgen_send`. It stops at the first file it cannot send. -/
def confgenSend (generation : UInt64) (hash : Option Digest) (count : Nat) : List LoadedFile → List CStr
  | [] => [okReply generation hash count]
  | f :: rest =>
      match f.read with
      | .error .cannotRead => [("444 cannot read ".toList ++ f.path).take sendLineMax]
      | .error .outOfMemory => ["444 out of memory".toList]
      | .ok content =>
          (fileHeader ⟨f.name, content⟩).take sendLineMax ::
            (contentLines ⟨f.name, content⟩ ++ endFile ::
              confgenSend generation hash count rest)

/-- `sendline` ends a line with CR LF. -/
def sent (lines : List CStr) : CStr := joinLines (lines.map (· ++ ['\r']))

/-! ### The server's side -/

inductive FetchError where
  | refused (line : CStr)
  | malformedReply (line : CStr)
  | malformedHeader (line : CStr)
  | undecodableName (line : CStr)
  | endWithoutFile
  | undecodableContent (name : List UInt8)
  | declared (name : List UInt8) (declared : Int) (carried : Nat)
  | closed
  deriving DecidableEq, Repr

/-- The variables of `fetchConfigFiles`, with the name of `cur`. -/
structure Fetch where
  files : List GenFile
  cur : Option (List UInt8)
  b64 : CStr
  declare : Int
  deriving DecidableEq, Repr

/-- A response code: three digits at the beginning of a line. -/
def isCode (line : CStr) : Bool := 3 ≤ line.length && (line.take 3).all Char.isDigit

/-- `base64.StdEncoding.DecodeString`, which passes over line ends only. -/
def decodeString (text : CStr) : Option (List UInt8) :=
  Base64.decode (fun c => c = '\r' || c = '\n') text

/-- What a response code ends the loop with. -/
def fetchReply (s : Fetch) (line : CStr) : Except FetchError (List GenFile × UInt64 × CStr) :=
  if !"333".toList.isPrefixOf line then .error (.refused line)
  else
    match fields line with
    | _ :: gen :: hash :: _ => .ok (s.files, parseUint gen, hash)
    | _ => .error (.malformedReply line)

/-- A line that is not a response code. -/
def fetchLine (s : Fetch) (line : CStr) : Except FetchError Fetch :=
  if fileWord.isPrefixOf line then
    match fields line with
    | _ :: nameb64 :: length :: _ =>
        match decodeString nameb64 with
        | none => .error (.undecodableName line)
        | some name => .ok { s with cur := some name, b64 := [], declare := atoi length }
    | _ => .error (.malformedHeader line)
  else if line = endFile then
    match s.cur with
    | none => .error .endWithoutFile
    | some name =>
        match decodeString s.b64 with
        | none => .error (.undecodableContent name)
        | some content =>
            if (content.length : Int) ≠ s.declare then
              .error (.declared name s.declare content.length)
            else .ok { s with files := s.files ++ [⟨name, content⟩], cur := none }
  else if s.cur.isSome then .ok { s with b64 := s.b64 ++ line }
  else .ok s

/-- The loop, over the lines of the stream. After the last of them the connection is closed. -/
def fetchLoop (s : Fetch) : List CStr → Except FetchError (List GenFile × UInt64 × CStr)
  | [] => .error .closed
  | line :: rest =>
      let trimmed := trimEol line
      if isCode trimmed then fetchReply s trimmed
      else do
        let s ← fetchLine s trimmed
        fetchLoop s rest

def fetchConfigFiles (input : CStr) : Except FetchError (List GenFile × UInt64 × CStr) :=
  fetchLoop ⟨[], none, [], 0⟩ (input.splitOn '\n')

/-! ### One line -/

/-- A line as `sendline` wrote it. -/
theorem fetchLoop_sent {line : CStr} (hcr : '\r' ∉ line) (hnewline : '\n' ∉ line) (s : Fetch)
    (rest : List CStr) :
    fetchLoop s ((line ++ ['\r']) :: rest) =
      if isCode line then fetchReply s line
      else (fetchLine s line).bind fun s => fetchLoop s rest := by
  rw [fetchLoop, trimEol_concat_cr, trimEol_of_not_mem hcr hnewline]
  rfl

theorem isCode_take (line : CStr) {n : Nat} (hn : 3 ≤ n) : isCode (line.take n) = isCode line := by
  have hlength : 3 ≤ (line.take n).length ↔ 3 ≤ line.length := by
    rw [List.length_take]
    omega
  simp only [isCode, List.take_take, Nat.min_eq_left hn, hlength]

theorem isCode_append {left : CStr} (hlength : 3 ≤ left.length) (right : CStr) :
    isCode (left ++ right) = isCode left := by
  rw [← isCode_take (left ++ right) hlength, List.take_left]

theorem decodeString_encode (bytes : List UInt8) : decodeString (Base64.encode bytes) = some bytes := by
  refine Base64.decode_encode (fun c hc => ?_) bytes
  have hblank := isBlank_of_isText hc
  simp only [isBlank, Bool.or_eq_false_iff] at hblank ⊢
  exact hblank.1.1

theorem isspace_of_isText {c : Char} (h : Base64.isText c = true) : isspace c = false := by
  by_contra hspace
  simp only [isspace, Bool.not_eq_false, Bool.or_eq_true, decide_eq_true_eq] at hspace
  obtain ((((rfl | rfl) | rfl) | rfl) | rfl) | rfl := hspace <;> exact absurd h (by decide)

theorem encode_ne_nil {bytes : List UInt8} (h : bytes ≠ []) : Base64.encode bytes ≠ [] := by
  have hpos := List.length_pos_iff.mpr h
  rw [← List.length_pos_iff, Base64.length_encode]
  omega

theorem fields_file (rest : CStr) :
    fields ("FILE".toList ++ ' ' :: rest) = "FILE".toList :: fields rest :=
  fields_cons (by decide) (by simp [isspace]) rest

/-- The fields of a header, of which so much of the length is left as fits. -/
theorem fields_fileHeader {f : GenFile} (hname : f.name ≠ []) {length : CStr} (hne : length ≠ [])
    (hdigits : ∀ c ∈ length, c.isDigit = true) :
    fields (fileWord ++ (Base64.encode f.name ++ ' ' :: length)) =
      ["FILE".toList, Base64.encode f.name, length] := by
  have hword : fileWord ++ (Base64.encode f.name ++ ' ' :: length) =
      "FILE".toList ++ ' ' :: (Base64.encode f.name ++ ' ' :: length) := rfl
  rw [hword, fields_file, fields_cons (encode_ne_nil hname) fun c hc =>
    isspace_of_isText (Base64.isText_of_mem_encode f.name c hc), fields_word hne fun c hc =>
    isspace_eq_false_of_isDigit (hdigits c hc)]

theorem fetchLine_header {f : GenFile} (hname : f.name ≠ []) {length : CStr} (hne : length ≠ [])
    (hdigits : ∀ c ∈ length, c.isDigit = true) (s : Fetch) :
    fetchLine s (fileWord ++ (Base64.encode f.name ++ ' ' :: length)) =
      .ok { s with cur := some f.name, b64 := [], declare := atoi length } := by
  have hfile : fileWord.isPrefixOf (fileWord ++ (Base64.encode f.name ++ ' ' :: length)) = true := by
    rw [List.isPrefixOf_iff_prefix]
    exact List.prefix_append _ _
  rw [fetchLine, if_pos hfile]
  simp only [fields_fileHeader hname hne hdigits, decodeString_encode]

/-- A header of fewer than three fields. -/
theorem fetchLine_short {line : CStr} (hfile : fileWord.isPrefixOf line = true)
    (hshort : (fields line).length < 3) (s : Fetch) : ∃ e, fetchLine s line = .error e := by
  rw [fetchLine, if_pos hfile]
  rcases hfields : fields line with _ | ⟨word, _ | ⟨name, _ | ⟨length, more⟩⟩⟩
  · exact ⟨_, rfl⟩
  · exact ⟨_, rfl⟩
  · exact ⟨_, rfl⟩
  · simp only [hfields, List.length_cons] at hshort
    omega

theorem fetchLine_content {f : GenFile} {line : CStr} (hline : line ∈ contentLines f) (files : List GenFile)
    (name : List UInt8) (b64 : CStr) (declare : Int) :
    fetchLine ⟨files, some name, b64, declare⟩ line = .ok ⟨files, some name, b64 ++ line, declare⟩ := by
  have hfile : fileWord.isPrefixOf line = false :=
    isPrefixOf_eq_false_of_not_mem (by decide : ' ' ∈ fileWord) (not_mem_contentLines hline (by decide))
  have hend : line ≠ endFile := by
    rintro rfl
    exact absurd (isEndFile_contentLines hline) (by decide)
  rw [fetchLine, if_neg (by simp [hfile]), if_neg hend]
  rfl

theorem fetchLine_endFile {f : GenFile} (files : List GenFile) (declare : Int) :
    fetchLine ⟨files, some f.name, Base64.encode f.content, declare⟩ endFile =
      if (f.content.length : Int) ≠ declare then
        .error (.declared f.name declare f.content.length)
      else .ok ⟨files ++ [f], none, Base64.encode f.content, declare⟩ := by
  rw [fetchLine, if_neg (by decide), if_pos rfl]
  simp only [decodeString_encode]

/-- A content line that looks like a response code has no second field. -/
theorem fetchReply_content {f : GenFile} {line : CStr} (hline : line ∈ contentLines f) (hcode : isCode line = true)
    (s : Fetch) : ∃ e, fetchReply s line = .error e := by
  have hne : line ≠ [] := by
    rintro rfl
    exact absurd hcode (by decide)
  rw [fetchReply]
  split
  · exact ⟨_, rfl⟩
  · rw [fields_word hne fun c hc => isspace_of_isText (isText_of_mem_contentLines hline hc)]
    exact ⟨_, rfl⟩

/-! ### One file -/

/-- The lines of a file that could be read. -/
def sentFile (f : GenFile) : List CStr :=
  (fileHeader f).take sendLineMax :: (contentLines f ++ [endFile])

/-- A file that the server can fetch: it has a name, its header fits into a line, and wherever a line of
its base64 begins, every 720 bytes, the first three characters are not all digits. -/
structure Fetchable (f : GenFile) : Prop where
  name : f.name ≠ []
  header : (fileHeader f).length ≤ sendLineMax
  lines : ∀ i, 720 * i < f.content.length → isCode (Base64.encode (f.content.drop (720 * i))) = false

theorem isCode_contentLines_iff (f : GenFile) : (∀ line ∈ contentLines f, isCode line = false) ↔
    ∀ i, 720 * i < f.content.length → isCode (Base64.encode (f.content.drop (720 * i))) = false := by
  have hline : ∀ i, isCode (((Base64.encode f.content).drop (b64Line * i)).take b64Line) =
      isCode (Base64.encode (f.content.drop (720 * i))) := by
    intro i
    have hfour : b64Line * i = 4 * (240 * i) := by
      show 960 * i = _
      omega
    have hthree : 720 * i = 3 * (240 * i) := by omega
    rw [isCode_take _ (by decide), hfour, hthree, Base64.drop_encode]
  have hbound : ∀ i, b64Line * i < (Base64.encode f.content).length ↔ 720 * i < f.content.length := by
    intro i
    rw [Base64.length_encode]
    show 960 * i < _ ↔ _
    omega
  constructor
  · intro h i hi
    rw [← hline]
    exact h _ ((mem_pieces (by decide)).mpr ⟨i, (hbound i).mpr hi, rfl⟩)
  · intro h line hmem
    obtain ⟨i, hi, rfl⟩ := (mem_pieces (by decide)).mp hmem
    rw [hline]
    exact h i ((hbound i).mp hi)

theorem fetchLoop_content {f : GenFile} {line : CStr} (hline : line ∈ contentLines f) (files : List GenFile)
    (name : List UInt8) (b64 : CStr) (declare : Int) (rest : List CStr) :
    fetchLoop ⟨files, some name, b64, declare⟩ ((line ++ ['\r']) :: rest) =
      if isCode line then fetchReply ⟨files, some name, b64, declare⟩ line
      else fetchLoop ⟨files, some name, b64 ++ line, declare⟩ rest := by
  rw [fetchLoop_sent (not_mem_contentLines hline (by decide)) (not_mem_contentLines hline (by decide)),
    fetchLine_content hline]
  rfl

/-- The lines of a body are gathered, if none of them is taken for a response code. -/
theorem fetchLoop_body {f : GenFile} {lines : List CStr} (hlines : ∀ line ∈ lines, line ∈ contentLines f)
    (hcode : ∀ line ∈ lines, isCode line = false) (files : List GenFile) (name : List UInt8)
    (b64 : CStr) (declare : Int) (rest : List CStr) :
    fetchLoop ⟨files, some name, b64, declare⟩ (lines.map (· ++ ['\r']) ++ rest) =
      fetchLoop ⟨files, some name, b64 ++ lines.flatten, declare⟩ rest := by
  induction lines generalizing b64 with
  | nil => rw [List.map_nil, List.nil_append, List.flatten_nil, List.append_nil]
  | cons line lines ih =>
      rw [List.map_cons, List.cons_append, fetchLoop_content (hlines line List.mem_cons_self),
        hcode line List.mem_cons_self]
      simp only [Bool.false_eq_true, if_false]
      rw [ih (fun l hl => hlines l (List.mem_cons_of_mem line hl))
        (fun l hl => hcode l (List.mem_cons_of_mem line hl)), List.flatten_cons, List.append_assoc]

theorem fetchLoop_body_code {f : GenFile} {lines : List CStr} (hlines : ∀ line ∈ lines, line ∈ contentLines f)
    (hcode : ∃ line ∈ lines, isCode line = true) (files : List GenFile) (name : List UInt8)
    (b64 : CStr) (declare : Int) (rest : List CStr) :
    ∃ e, fetchLoop ⟨files, some name, b64, declare⟩ (lines.map (· ++ ['\r']) ++ rest) = .error e := by
  induction lines generalizing b64 with
  | nil =>
      obtain ⟨line, hmem, -⟩ := hcode
      exact absurd hmem List.not_mem_nil
  | cons line lines ih =>
      rw [List.map_cons, List.cons_append, fetchLoop_content (hlines line List.mem_cons_self)]
      split
      next hthis => exact fetchReply_content (hlines line List.mem_cons_self) hthis _
      next hthis =>
        refine ih (fun l hl => hlines l (List.mem_cons_of_mem line hl)) ?_ _
        obtain ⟨l, hl, hl'⟩ := hcode
        obtain rfl | hl := List.mem_cons.mp hl
        · exact absurd hl' hthis
        · exact ⟨l, hl, hl'⟩

/-- The body and the end of a file, when no line of the body is taken for a response code. -/
theorem fetchLoop_bodyEnd {f : GenFile} (hcode : ∀ line ∈ contentLines f, isCode line = false)
    (files : List GenFile) (declare : Int) (rest : List CStr) :
    fetchLoop ⟨files, some f.name, [], declare⟩
        ((contentLines f ++ [endFile]).map (· ++ ['\r']) ++ rest) =
      if (f.content.length : Int) ≠ declare then
        .error (.declared f.name declare f.content.length)
      else fetchLoop ⟨files ++ [f], none, Base64.encode f.content, declare⟩ rest := by
  have hflatten : (contentLines f).flatten = Base64.encode f.content := flatten_pieces (by decide) _
  rw [List.map_append, List.append_assoc, fetchLoop_body (fun _ h => h) hcode, List.nil_append,
    hflatten, List.map_singleton, List.singleton_append, fetchLoop_sent (by decide) (by decide),
    if_neg (by decide), fetchLine_endFile]
  split
  · rfl
  · rfl

theorem eq_fileHeader_take (f : GenFile) {k : Nat} (hk : 5 + (Base64.encode f.name).length < k) :
    (fileHeader f).take k = fileWord ++ (Base64.encode f.name ++
      ' ' :: (showNat f.content.length).take (k - (6 + (Base64.encode f.name).length))) := by
  have hlength : fileWord.length = 5 := rfl
  obtain ⟨j, hj⟩ : ∃ j, k = fileWord.length + ((Base64.encode f.name).length + (j + 1)) :=
    ⟨k - (6 + (Base64.encode f.name).length), by omega⟩
  have hleft : k - (6 + (Base64.encode f.name).length) = j := by omega
  rw [hleft, hj, fileHeader, List.take_length_add_append, List.take_length_add_append,
    List.take_succ_cons]

/-- A header is refused, or announces the wrong number of bytes, unless there is a name and the whole
header fits into its line. -/
theorem fetchLine_sentHeader (f : GenFile) (s : Fetch) :
    (∃ e, fetchLine s ((fileHeader f).take sendLineMax) = .error e) ∨
      ∃ declare, fetchLine s ((fileHeader f).take sendLineMax) =
          .ok ⟨s.files, some f.name, [], declare⟩ ∧
        (declare = f.content.length → f.name ≠ [] ∧ (fileHeader f).length ≤ sendLineMax) := by
  have hfile : fileWord.isPrefixOf ((fileHeader f).take sendLineMax) = true := by
    rw [List.isPrefixOf_iff_prefix]
    exact List.prefix_take_iff.mpr ⟨List.prefix_append _ _, by decide⟩
  have hone : ∀ text, text <+: Base64.encode f.name → (fields text).length ≤ 1 := fun text hbegins =>
    length_fields_le fun c hc => isspace_of_isText
      (Base64.isText_of_mem_encode f.name c (hbegins.subset hc))
  by_cases hshort : sendLineMax ≤ 5 + (Base64.encode f.name).length
  · -- the cut is inside the name
    have hcut : (fileHeader f).take sendLineMax =
        "FILE".toList ++ ' ' :: (Base64.encode f.name).take (sendLineMax - 5) := by
      have hfive : sendLineMax = fileWord.length + (sendLineMax - 5) := rfl
      rw [fileHeader, hfive, List.take_length_add_append, List.take_append_of_le_length (by omega)]
      rfl
    refine Or.inl (fetchLine_short hfile ?_ s)
    have hname := hone _ (List.take_prefix (sendLineMax - 5) _)
    rw [hcut, fields_file, List.length_cons]
    omega
  · have hcut := eq_fileHeader_take f (Nat.lt_of_not_le hshort)
    have hlength : (fileHeader f).length =
        6 + (Base64.encode f.name).length + (showNat f.content.length).length := by
      simp only [fileHeader, List.length_append, List.length_cons]
      have hword : fileWord.length = 5 := rfl
      omega
    obtain ⟨k, hk⟩ : ∃ k, k = sendLineMax - (6 + (Base64.encode f.name).length) := ⟨_, rfl⟩
    rw [← hk] at hcut
    by_cases hgone : f.name = [] ∨ k = 0
    · -- the name or the length is missing
      refine Or.inl (fetchLine_short hfile ?_ s)
      have hname := hone _ (List.prefix_refl _)
      have hdigits : (fields ((showNat f.content.length).take k)).length ≤ 1 :=
        length_fields_le fun c hc => isspace_eq_false_of_isDigit
          (isDigit_of_mem_showNat (List.mem_of_mem_take hc))
      have hfields : fields ((fileHeader f).take sendLineMax) = "FILE".toList ::
          (fields (Base64.encode f.name) ++ fields ((showNat f.content.length).take k)) := by
        rw [hcut, ← fields_blank, ← fields_file]
        rfl
      rw [hfields, List.length_cons, List.length_append]
      obtain hempty | hzero := hgone
      · have hnone : (fields (Base64.encode f.name)).length = 0 := by
          rw [hempty]
          rfl
        omega
      · have hnone : (fields ((showNat f.content.length).take k)).length = 0 := by
          rw [hzero]
          rfl
        omega
    · rw [not_or] at hgone
      have hsome : (showNat f.content.length).take k ≠ [] := by
        rw [Ne, List.take_eq_nil_iff, not_or]
        exact ⟨hgone.2, showNat_ne_nil _⟩
      refine Or.inr ⟨atoi ((showNat f.content.length).take k), ?_, fun hdeclare => ⟨hgone.1, ?_⟩⟩
      · rw [hcut]
        exact fetchLine_header hgone.1 hsome (fun c hc =>
          isDigit_of_mem_showNat (List.mem_of_mem_take hc)) s
      · -- a length that was cut is smaller than it was
        by_contra hlong
        have hless := atoi_take_showNat (n := f.content.length) (Nat.pos_of_ne_zero hgone.2) (by omega)
        omega

theorem isCode_fileHeader (f : GenFile) : isCode ((fileHeader f).take sendLineMax) = false := by
  rw [isCode_take _ (by decide)]
  rfl

/-- What the reader makes of the header line. -/
theorem fetchLoop_header (f : GenFile) (s : Fetch) (rest : List CStr) :
    fetchLoop s (((fileHeader f).take sendLineMax ++ ['\r']) :: rest) =
      (fetchLine s ((fileHeader f).take sendLineMax)).bind fun s => fetchLoop s rest := by
  have hplain : ∀ {c : Char}, c ∉ fileHeader f → c ∉ (fileHeader f).take sendLineMax :=
    fun hc hmem => hc (List.mem_of_mem_take hmem)
  have hcr : '\r' ∉ fileHeader f :=
    newline_not_mem_fileHeader f (by decide) (by decide) (by decide) (by decide)
  have hnewline : '\n' ∉ fileHeader f :=
    newline_not_mem_fileHeader f (by decide) (by decide) (by decide) (by decide)
  rw [fetchLoop_sent (hplain hcr) (hplain hnewline), isCode_fileHeader]
  rfl

theorem fetchLoop_sentFile {f : GenFile} (hsize : f.content.length < 2 ^ 63) (hf : Fetchable f) (s : Fetch)
    (rest : List CStr) :
    ∃ b64 declare, fetchLoop s ((sentFile f).map (· ++ ['\r']) ++ rest) =
      fetchLoop ⟨s.files ++ [f], none, b64, declare⟩ rest := by
  have hwhole : (fileHeader f).take sendLineMax = fileHeader f := List.take_of_length_le hf.header
  have hcode := (isCode_contentLines_iff f).mpr hf.lines
  refine ⟨Base64.encode f.content, atoi (showNat f.content.length), ?_⟩
  rw [sentFile, List.map_cons, List.cons_append, fetchLoop_header, hwhole, fileHeader,
    fetchLine_header hf.name (showNat_ne_nil _) fun c => isDigit_of_mem_showNat]
  show fetchLoop ⟨s.files, some f.name, [], atoi (showNat f.content.length)⟩ _ = _
  rw [fetchLoop_bodyEnd hcode, atoi_showNat hsize, if_neg (by simp)]

theorem fetchLoop_not_fetchable {f : GenFile} (hf : ¬ Fetchable f) (s : Fetch) (rest : List CStr) :
    ∃ e, fetchLoop s ((sentFile f).map (· ++ ['\r']) ++ rest) = .error e := by
  rw [sentFile, List.map_cons, List.cons_append, fetchLoop_header]
  obtain ⟨e, he⟩ | ⟨declare, hheader, hright⟩ := fetchLine_sentHeader f s
  · rw [he]
    exact ⟨e, rfl⟩
  · rw [hheader]
    show ∃ e, fetchLoop ⟨s.files, some f.name, [], declare⟩ _ = .error e
    by_cases hcode : ∀ line ∈ contentLines f, isCode line = false
    · have hwrong : (f.content.length : Int) ≠ declare := by
        intro hsame
        obtain ⟨hname, hfits⟩ := hright hsame.symm
        exact hf ⟨hname, hfits, (isCode_contentLines_iff f).mp hcode⟩
      rw [fetchLoop_bodyEnd hcode, if_pos hwrong]
      exact ⟨_, rfl⟩
    · have hbad : ∃ line ∈ contentLines f, isCode line = true := by
        by_contra hnone
        refine hcode fun line hline => ?_
        by_contra htrue
        exact hnone ⟨line, hline, by simpa using htrue⟩
      rw [List.map_append, List.append_assoc]
      exact fetchLoop_body_code (fun _ h => h) hbad _ _ _ _ _

/-! ### The whole answer -/

/-- The content of a file that could be read. -/
def LoadedFile.content (f : LoadedFile) : List UInt8 := f.read.toOption.getD []

/-- The file as it is to arrive. -/
def LoadedFile.gen (f : LoadedFile) : GenFile := ⟨f.name, f.content⟩

theorem isspace_hexDigit (n : Nat) : isspace (hexDigit n) = false := by
  have hall : ∀ i : Fin 16, isspace (hexDigit i) = false := by decide
  have hmod : hexDigit n = hexDigit (n % 16) := by rw [hexDigit, hexDigit, Nat.mod_mod]
  rw [hmod]
  exact hall ⟨n % 16, Nat.mod_lt n (by decide)⟩

theorem hashText_plain (hash : Option Digest) :
    hashText hash ≠ [] ∧ ∀ c ∈ hashText hash, isspace c = false := by
  cases hash with
  | none => exact ⟨by decide, by simp [hashText, isspace]⟩
  | some digest =>
      constructor
      · intro hempty
        have hbytes : digest.bytes = [] := by
          rw [hashText, hexText, List.flatMap_eq_nil_iff] at hempty
          exact List.eq_nil_iff_forall_not_mem.mpr fun b hb => absurd (hempty b hb) (by simp)
        have hsize := digest.size
        rw [hbytes] at hsize
        exact absurd hsize (by decide)
      · intro c hc
        obtain ⟨b, -, hb⟩ := List.mem_flatMap.mp hc
        simp only [List.mem_cons, List.not_mem_nil, or_false] at hb
        obtain rfl | rfl := hb
        · exact isspace_hexDigit _
        · exact isspace_hexDigit _

theorem fields_doneReply (generation : UInt64) (hash : Option Digest) :
    fields (doneReply generation hash) =
      ["333".toList, showNat generation.toNat, hashText hash] := by
  have htext : doneReply generation hash =
      "333".toList ++ ' ' :: (showNat generation.toNat ++ ' ' :: hashText hash) := by
    simp only [doneReply, List.append_assoc]
    rfl
  have hcode : ∀ rest, fields ("333".toList ++ ' ' :: rest) = "333".toList :: fields rest :=
    fields_cons (by decide) (by simp [isspace])
  have hnumber : ∀ rest, fields (showNat generation.toNat ++ ' ' :: rest) =
      showNat generation.toNat :: fields rest :=
    fields_cons (showNat_ne_nil _) fun c hc => isspace_eq_false_of_isDigit (isDigit_of_mem_showNat hc)
  have hhash : fields (hashText hash) = [hashText hash] :=
    fields_word (hashText_plain hash).1 (hashText_plain hash).2
  rw [htext, hcode, hnumber, hhash]

theorem fields_okReply (generation : UInt64) (hash : Option Digest) (count : Nat) :
    fields (okReply generation hash count) =
      ["333".toList, showNat generation.toNat, hashText hash, showNat count] := by
  rw [okReply, fields_blank, fields_doneReply, fields_word (showNat_ne_nil _) fun c hc =>
    isspace_eq_false_of_isDigit (isDigit_of_mem_showNat hc)]
  rfl

theorem fetchReply_okReply (s : Fetch) (generation : UInt64) (hash : Option Digest) (count : Nat) :
    fetchReply s (okReply generation hash count) = .ok (s.files, generation, hashText hash) := by
  have hok : "333".toList.isPrefixOf (okReply generation hash count) = true := by
    simp [okReply, doneReply, List.isPrefixOf]
  rw [fetchReply, hok]
  simp only [Bool.not_true, Bool.false_eq_true, if_false, fields_okReply, parseUint_showNat]

theorem plain_doneReply (generation : UInt64) (hash : Option Digest) {c : Char}
    (hspace : isspace c = true) (hword : c ∉ "333 ".toList) :
    c.isDigit = false ∧ c ≠ ' ' ∧ c ∉ doneReply generation hash := by
  have hdigit : c.isDigit = false := by
    by_contra hdigit
    rw [isspace_eq_false_of_isDigit (by simpa using hdigit)] at hspace
    exact absurd hspace (by decide)
  have hblank : c ≠ ' ' := by
    rintro rfl
    exact hword (by decide)
  refine ⟨hdigit, hblank, ?_⟩
  simp only [doneReply, List.mem_append, List.mem_cons, not_or]
  refine ⟨⟨hword, not_mem_showNat hdigit _⟩, hblank, fun hmem => ?_⟩
  rw [(hashText_plain hash).2 c hmem] at hspace
  exact absurd hspace (by decide)

theorem plain_okReply (generation : UInt64) (hash : Option Digest) (count : Nat) {c : Char}
    (hspace : isspace c = true) (hword : c ∉ "333 ".toList) : c ∉ okReply generation hash count := by
  obtain ⟨hdigit, hblank, hdone⟩ := plain_doneReply generation hash hspace hword
  simp only [okReply, List.mem_append, List.mem_cons, not_or]
  exact ⟨hdone, hblank, not_mem_showNat hdigit _⟩

theorem isCode_doneReply (generation : UInt64) (hash : Option Digest) (rest : CStr) :
    isCode (doneReply generation hash ++ rest) = true := by
  rw [doneReply, List.append_assoc, List.append_assoc, isCode_append (by decide)]
  rfl

theorem isCode_okReply (generation : UInt64) (hash : Option Digest) (count : Nat) :
    isCode (okReply generation hash count) = true := isCode_doneReply generation hash _

theorem fetchLoop_okReply (s : Fetch) (generation : UInt64) (hash : Option Digest) (count : Nat)
    (rest : List CStr) : fetchLoop s ((okReply generation hash count ++ ['\r']) :: rest) =
      .ok (s.files, generation, hashText hash) := by
  rw [fetchLoop_sent (plain_okReply _ _ _ (by decide) (by decide))
    (plain_okReply _ _ _ (by decide) (by decide)), if_pos (isCode_okReply _ _ _), fetchReply_okReply]

theorem sent_append (left right : List CStr) : sent (left ++ right) = sent left ++ sent right := by
  simp [sent]

theorem splitOn_sent {lines : List CStr} (hlines : ∀ line ∈ lines, '\n' ∉ line) (rest : CStr) :
    (sent lines ++ rest).splitOn '\n' = lines.map (· ++ ['\r']) ++ rest.splitOn '\n' := by
  refine splitOn_joinLines (fun line hline => ?_) rest
  obtain ⟨l, hl, rfl⟩ := List.mem_map.mp hline
  simpa using hlines l hl

theorem newline_not_mem_sentFile {f : GenFile} {line : CStr} (hline : line ∈ sentFile f) :
    '\n' ∉ line := by
  obtain rfl | hline := List.mem_cons.mp hline
  · intro hmem
    exact newline_not_mem_fileHeader f (by decide) (by decide) (by decide) (by decide)
      (List.mem_of_mem_take hmem)
  · exact newline_not_mem_fileLines (List.mem_cons_of_mem (fileHeader f) hline)

/-- A refusal ends the loop, whatever it says. -/
theorem fetchLoop_refusal (s : Fetch) (text : CStr) :
    ∃ e, fetchLoop s (("444".toList ++ text).splitOn '\n') = .error e := by
  obtain ⟨line, lines, -, hsplit⟩ := splitOn_append (by decide : '\n' ∉ "444".toList) text
  have hcode : isCode ("444".toList ++ trimEol line) = true := by
    rw [isCode_append (by decide)]
    rfl
  rw [hsplit, fetchLoop, trimEol_append (by decide) (by decide)]
  simp only [hcode, if_true]
  exact ⟨_, rfl⟩

theorem sent_confgenSend_cons (generation : UInt64) (hash : Option Digest) (count : Nat) {f : LoadedFile}
    {content : List UInt8} (hread : f.read = .ok content) (files : List LoadedFile) :
    sent (confgenSend generation hash count (f :: files)) =
      sent (sentFile f.gen) ++ sent (confgenSend generation hash count files) := by
  have hgen : f.gen = ⟨f.name, content⟩ := by
    rw [LoadedFile.gen, LoadedFile.content, hread]
    rfl
  rw [confgenSend, hread, ← sent_append, hgen, sentFile]
  simp only [List.cons_append, List.append_assoc, List.nil_append]

theorem fetch_refused (generation : UInt64) (hash : Option Digest) (count : Nat) {f : LoadedFile}
    (hread : f.read.isOk = false) (files : List LoadedFile) (s : Fetch) (later : CStr) :
    ∃ e, fetchLoop s ((sent (confgenSend generation hash count (f :: files)) ++ later).splitOn '\n') =
      .error e := by
  have hsent : ∃ text, sent (confgenSend generation hash count (f :: files)) ++ later =
      "444".toList ++ text := by
    rw [confgenSend]
    cases hf : f.read with
    | ok content =>
        rw [hf] at hread
        exact absurd hread.symm Bool.false_ne_true
    | error fault =>
        cases fault with
        | cannotRead => exact ⟨_, rfl⟩
        | outOfMemory => exact ⟨_, rfl⟩
  obtain ⟨text, htext⟩ := hsent
  rw [htext]
  exact fetchLoop_refusal s text

theorem fetch_cons (generation : UInt64) (hash : Option Digest) (count : Nat) {f : LoadedFile}
    (hread : f.read.isOk = true) (files : List LoadedFile) (s : Fetch) (later : CStr) :
    f.gen.content.length < 2 ^ 63 ∧
      fetchLoop s ((sent (confgenSend generation hash count (f :: files)) ++ later).splitOn '\n') =
        fetchLoop s ((sentFile f.gen).map (· ++ ['\r']) ++
          (sent (confgenSend generation hash count files) ++ later).splitOn '\n') := by
  cases hf : f.read with
  | error fault =>
      rw [hf] at hread
      exact absurd hread Bool.false_ne_true
  | ok content =>
      have hcontent : f.gen.content = content := by
        rw [LoadedFile.gen, LoadedFile.content, hf]
        rfl
      rw [hcontent, sent_confgenSend_cons generation hash count hf, List.append_assoc,
        splitOn_sent fun line => newline_not_mem_sentFile]
      exact ⟨f.size content hf, rfl⟩

/-- If every file can be read and fetched, they all arrive. -/
theorem fetch_all (generation : UInt64) (hash : Option Digest) (count : Nat) {files : List LoadedFile}
    (hfiles : ∀ f ∈ files, f.read.isOk = true ∧ Fetchable f.gen) (s : Fetch) (later : CStr) :
    fetchLoop s ((sent (confgenSend generation hash count files) ++ later).splitOn '\n') =
      .ok (s.files ++ files.map LoadedFile.gen, generation, hashText hash) := by
  induction files generalizing s with
  | nil =>
      have hline : ∀ line ∈ [okReply generation hash count], '\n' ∉ line := by
        intro line hmem
        rw [List.mem_singleton.mp hmem]
        exact plain_okReply _ _ _ (by decide) (by decide)
      rw [confgenSend, splitOn_sent hline, List.map_singleton, List.singleton_append,
        fetchLoop_okReply, List.map_nil, List.append_nil]
  | cons f files ih =>
      obtain ⟨hread, hfetch⟩ := hfiles f List.mem_cons_self
      obtain ⟨hsize, hcons⟩ := fetch_cons generation hash count hread files s later
      obtain ⟨b64, declare, hnext⟩ := fetchLoop_sentFile hsize hfetch s
        ((sent (confgenSend generation hash count files) ++ later).splitOn '\n')
      rw [hcons, hnext, ih (fun g hg => hfiles g (List.mem_cons_of_mem f hg)), List.append_assoc,
        List.singleton_append, List.map_cons]

/-- If one file cannot be read or fetched, the call fails. -/
theorem fetch_some (generation : UInt64) (hash : Option Digest) (count : Nat) {files : List LoadedFile}
    (hfiles : ∃ f ∈ files, ¬ (f.read.isOk = true ∧ Fetchable f.gen)) (s : Fetch) (later : CStr) :
    ∃ e, fetchLoop s ((sent (confgenSend generation hash count files) ++ later).splitOn '\n') =
      .error e := by
  induction files generalizing s with
  | nil =>
      obtain ⟨f, hmem, -⟩ := hfiles
      exact absurd hmem List.not_mem_nil
  | cons f files ih =>
      by_cases hread : f.read.isOk = true
      · obtain ⟨hsize, hcons⟩ := fetch_cons generation hash count hread files s later
        rw [hcons]
        by_cases hfetch : Fetchable f.gen
        · obtain ⟨b64, declare, hnext⟩ := fetchLoop_sentFile hsize hfetch s
            ((sent (confgenSend generation hash count files) ++ later).splitOn '\n')
          obtain ⟨g, hmem, hg⟩ := hfiles
          obtain rfl | hmem := List.mem_cons.mp hmem
          · exact absurd ⟨hread, hfetch⟩ hg
          · rw [hnext]
            exact ih ⟨g, hmem, hg⟩ _
        · exact fetchLoop_not_fetchable hfetch s _
      · exact fetch_refused generation hash count (by simpa using hread) files s later

/-- What CONFIG-GET is for: the files that are loaded arrive as they are, with the generation and the
hash, and where the daemon fails on the way the call fails too. -/
structure RoundTrip (generation : UInt64) (hash : Option Digest) (files : List LoadedFile) (later : CStr) :
    Prop where
  arrive : (∀ f ∈ files, f.read.isOk = true) →
    fetchConfigFiles (sent (confgenSend generation hash files.length files) ++ later) =
      .ok (files.map LoadedFile.gen, generation, hashText hash)
  fail : (∃ f ∈ files, f.read.isOk = false) →
    ∃ e, fetchConfigFiles (sent (confgenSend generation hash files.length files) ++ later) = .error e

/-- The round trip holds exactly when a file set that can be read can be fetched. -/
theorem roundTrip_iff (generation : UInt64) (hash : Option Digest) (files : List LoadedFile)
    (later : CStr) : RoundTrip generation hash files later ↔
      ((∀ f ∈ files, f.read.isOk = true) → ∀ f ∈ files, Fetchable f.gen) := by
  constructor
  · intro h hread
    by_contra hnot
    obtain ⟨f, hmem, hf⟩ : ∃ f ∈ files, ¬ (f.read.isOk = true ∧ Fetchable f.gen) := by
      by_contra hnone
      exact hnot fun f hmem => by_contra fun hf => hnone ⟨f, hmem, fun hboth => hf hboth.2⟩
    obtain ⟨e, he⟩ := fetch_some generation hash files.length ⟨f, hmem, hf⟩ ⟨[], none, [], 0⟩ later
    have harrive := h.arrive hread
    rw [fetchConfigFiles, he] at harrive
    exact absurd harrive (by simp)
  · intro h
    constructor
    · intro hread
      exact fetch_all generation hash files.length (fun f hmem => ⟨hread f hmem, h hread f hmem⟩)
        ⟨[], none, [], 0⟩ later
    · rintro ⟨f, hmem, hread⟩
      exact fetch_some generation hash files.length
        ⟨f, hmem, fun hboth => by simp [hread] at hboth⟩ ⟨[], none, [], 0⟩ later

/-- A file that begins with the three bytes of U+338F: its base64 is `446P`, which is taken for a
refusal. -/
theorem digit_line_not_roundTrip :
    ¬ RoundTrip 1 none
      [⟨"sysmon.conf".toList.map fun c => UInt8.ofNat c.toNat, "/etc/sysmon.conf".toList,
        .ok [0xe3, 0x8e, 0x8f], by decide, by rintro content ⟨⟩; decide⟩] [] := by
  intro h
  have harrive := h.arrive (by simp [Except.isOk, Except.toBool])
  revert harrive
  decide

end Sysmon.Fleet
