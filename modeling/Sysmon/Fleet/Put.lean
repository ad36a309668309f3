import Sysmon.Fleet.Hash
import Sysmon.Host
import Sysmon.Lib.Base64
import Sysmon.Lib.CText
import Sysmon.Lib.Lines

/-!
# CONFIG-PUT on the wire

The payload that `putConfigFiles` builds and the walk over it in `confgen_receive`. A character of
the stream is a byte. The walk is written as one step for each line, with the file that has been
begun in the state; what `confgen_receive` does with the files, and its reply, come later.
-/

namespace Sysmon.Fleet

open CText Lines

/-! ### The server's side -/

/-- `B64_LINE`, and the 960 of the server. -/
def b64Line : Nat := 960

def fileWord : CStr := "FILE ".toList

def endFile : CStr := "ENDFILE".toList

def fileHeader (f : GenFile) : CStr :=
  fileWord ++ (Base64.encode f.name ++ ' ' :: showNat f.content.length)

def contentLines (f : GenFile) : List CStr := pieces b64Line (Base64.encode f.content)

def fileLines (f : GenFile) : List CStr := fileHeader f :: (contentLines f ++ [endFile])

/-- The payload of `putConfigFiles`. -/
def payload (files : List GenFile) : CStr := joinLines (files.flatMap fileLines)

/-- What follows `CONFIG-PUT` on the command line. -/
def putArgs (gen : UInt64) (files : List GenFile) : CStr :=
  showNat gen.toNat ++ ' ' :: showNat (payload files).length

/-! ### The daemon's side -/

/-- `CONFSET_MAX`. -/
def confsetMax : Nat := 64

/-- `CONFGEN_MAX_PAYLOAD`. -/
def confgenMaxPayload : Nat := 8 * 1024 * 1024

/-- A C string: what stands before the first NUL. -/
def cText (s : CStr) : CStr := s.takeWhile (· ≠ '\x00')

/-- The characters `confgen_b64decode` passes over. -/
def isBlank (c : Char) : Bool := c = '\r' || c = '\n' || c = ' ' || c = '\t'

def b64decode (text : CStr) : Option (List UInt8) := Base64.decode isBlank (cText text)

/-- Why a delivery is turned down before anything is applied. -/
inductive Malformed where
  | usage
  | payloadSize (payloadLen : Int64)
  | truncated
  | header
  | notTerminated
  | tooMany
  | notBase64
  | declared (name : List UInt8) (declared : Int64) (carried : Nat)
  deriving DecidableEq, Repr

/-- A FILE line that has been read, and the lines of its body so far. -/
structure Begun where
  nameb64 : CStr
  declared : Int64
  body : List CStr
  deriving DecidableEq, Repr

/-- `files`, `cap`, and the file that is being gathered. -/
structure Walk where
  files : List GenFile
  cap : Nat
  begun : Option Begun
  deriving DecidableEq, Repr

/-- The capacity the array of files grows to. -/
def newcap (cap : Nat) : Nat := min (if cap = 0 then 8 else cap * 2) confsetMax

/-- The ENDFILE line of a file has been reached. -/
def finishFile (files : List GenFile) (cap : Nat) (begun : Begun) : Except Malformed Walk :=
  if files.length = cap ∧ newcap cap ≤ files.length then .error .tooMany
  else
    match b64decode (['\n'].intercalate begun.body), b64decode begun.nameb64 with
    | some data, some name =>
        if begun.declared.toInt ≠ data.length then
          .error (.declared (cString name) begun.declared data.length)
        else
          .ok ⟨files ++ [⟨cString name, data⟩], if files.length = cap then newcap cap else cap, none⟩
    | _, _ => .error .notBase64

def isEndFile (line : CStr) : Bool := line = endFile || line = endFile ++ ['\r']

/-- A line ends in LF or in CR LF. -/
def chompCr (line : CStr) : CStr := if line.getLast? = some '\r' then line.dropLast else line

def isFileLine (line : CStr) : Bool := fileWord.isPrefixOf (cText (chompCr line))

def walkLine (w : Walk) (line : CStr) : Except Malformed Walk :=
  match w.begun with
  | some begun =>
      if isEndFile line then finishFile w.files w.cap begun
      else .ok { w with begun := some { begun with body := begun.body ++ [line] } }
  | none =>
      -- anything that is not a FILE line is a blank line or trailing junk
      if !isFileLine line then .ok w
      else
        let rest := (cText (chompCr line)).drop fileWord.length
        match upTo ' ' rest, after ' ' rest with
        | some nameb64, some length => .ok { w with begun := some ⟨nameb64, strtoll length, []⟩ }
        | _, _ => .error .header

/-- The walk over a payload. What follows its last newline is looked at inside a file only. -/
def walkPayload (text : CStr) : Except Malformed (List GenFile) := do
  let lines := text.splitOn '\n'
  let w ← lines.dropLast.foldlM walkLine ⟨[], 0, none⟩
  match w.begun with
  | none => .ok w.files
  | some begun =>
      if isEndFile (lines.getLastD []) then do
        let w ← finishFile w.files w.cap begun
        .ok w.files
      else .error .notTerminated

/-- What `confgen_receive` reads: the generation and the files, and what is left of the input. -/
def receiveFiles (args input : CStr) : Except Malformed (UInt64 × List GenFile) × CStr :=
  match scanDecimal args with
  | none => (.error .usage, input)
  | some (generation, rest) =>
      match scanDecimal rest with
      | none => (.error .usage, input)
      | some (length, _) =>
          let payloadLen := strtoll length
          if payloadLen.toInt ≤ 0 ∨ confgenMaxPayload < payloadLen.toInt then
            (.error (.payloadSize payloadLen), input)
          else if (input.length : Int) < payloadLen.toInt then (.error .truncated, [])
          else
            let taken := payloadLen.toInt.toNat
            ((walkPayload (input.take taken)).map fun files => (strtoul generation, files),
              input.drop taken)

/-! ### One file -/

/-- The server's `flatName`, of a name that is a C string. The daemon's `flat_name` asks for more, that
the name does not begin with a dot. -/
structure FlatName (name : List UInt8) : Prop where
  nul : 0 ∉ name
  nonempty : name ≠ []
  slash : 47 ∉ name
  dot : name ≠ [46]
  dotdot : name ≠ [46, 46]
  length : name.length < 128

theorem isBlank_of_isText {c : Char} (h : Base64.isText c = true) : isBlank c = false := by
  by_contra hblank
  simp only [isBlank, Bool.not_eq_false, Bool.or_eq_true, decide_eq_true_eq] at hblank
  obtain ((rfl | rfl) | rfl) | rfl := hblank <;> exact absurd h (by decide)

theorem cText_of_not_mem {s : CStr} (h : '\x00' ∉ s) : cText s = s := by
  rw [cText, List.takeWhile_eq_self_iff]
  intro c hc
  simpa using fun heq : c = '\x00' => h (heq ▸ hc)

theorem isText_of_mem_contentLines {f : GenFile} {line : CStr} (hline : line ∈ contentLines f) {c : Char}
    (hc : c ∈ line) : Base64.isText c = true :=
  Base64.isText_of_mem_encode f.content c (mem_of_mem_pieces (by decide) hline hc)

theorem not_mem_contentLines {f : GenFile} {line : CStr} (hline : line ∈ contentLines f) {c : Char}
    (h : Base64.isText c = false) : c ∉ line := by
  intro hc
  rw [isText_of_mem_contentLines hline hc] at h
  exact absurd h (by decide)

theorem dvd_length_contentLines {f : GenFile} {line : CStr} (hline : line ∈ contentLines f) :
    4 ∣ line.length := by
  refine dvd_length_of_mem_pieces (by decide) (by decide) ?_ hline
  rw [Base64.length_encode]
  exact Nat.dvd_mul_right 4 _

/-- A content line has a multiple of four characters, and ENDFILE has seven. -/
theorem isEndFile_contentLines {f : GenFile} {line : CStr} (hline : line ∈ contentLines f) :
    isEndFile line = false := by
  have hfour := dvd_length_contentLines hline
  have hseven : line ≠ endFile := by
    rintro rfl
    exact absurd hfour (by decide)
  have hcr : line ≠ endFile ++ ['\r'] := by
    rintro rfl
    exact not_mem_contentLines hline (c := '\r') (by decide) (by simp)
  simp [isEndFile, hseven, hcr]

theorem isPrefixOf_eq_false_of_not_mem {c : Char} {word text : CStr} (hword : c ∈ word) (htext : c ∉ text) :
    word.isPrefixOf text = false := by
  by_contra h
  rw [Bool.not_eq_false, List.isPrefixOf_iff_prefix] at h
  exact htext (h.subset hword)

/-- A content line has no blank in it. -/
theorem isFileLine_contentLines {f : GenFile} {line : CStr} (hline : line ∈ contentLines f) :
    isFileLine line = false := by
  apply isPrefixOf_eq_false_of_not_mem (c := ' ') (by decide)
  intro hmem
  have hchomp : ' ' ∈ chompCr line := (List.takeWhile_sublist _).subset hmem
  have hin : ' ' ∈ line := by
    rw [chompCr] at hchomp
    split at hchomp
    · exact List.mem_of_mem_dropLast hchomp
    · exact hchomp
  exact not_mem_contentLines hline (by decide) hin

theorem newline_not_mem_fileHeader (f : GenFile) {c : Char} (htext : Base64.isText c = false)
    (hdigit : c.isDigit = false) (hword : c ∉ fileWord) (hblank : c ≠ ' ') : c ∉ fileHeader f := by
  simp only [fileHeader, List.mem_append, List.mem_cons, not_or]
  exact ⟨hword, Base64.not_mem_encode htext f.name, hblank, not_mem_showNat hdigit _⟩

theorem newline_not_mem_fileLines {f : GenFile} {line : CStr} (hline : line ∈ fileLines f) :
    '\n' ∉ line := by
  simp only [fileLines, List.mem_cons, List.mem_append, List.not_mem_nil, or_false] at hline
  obtain rfl | hcontent | rfl := hline
  · exact newline_not_mem_fileHeader f (by decide) (by decide) (by decide) (by decide)
  · exact not_mem_contentLines hcontent (by decide)
  · decide

theorem chompCr_of_not_mem {line : CStr} (h : '\r' ∉ line) : chompCr line = line := by
  rw [chompCr, if_neg]
  intro hlast
  exact h (List.mem_of_getLast? hlast)

theorem walkLine_fileHeader (f : GenFile) (files : List GenFile) (cap : Nat) :
    walkLine ⟨files, cap, none⟩ (fileHeader f) =
      .ok ⟨files, cap, some ⟨Base64.encode f.name, strtoll (showNat f.content.length), []⟩⟩ := by
  have hline : cText (chompCr (fileHeader f)) = fileHeader f := by
    rw [chompCr_of_not_mem (newline_not_mem_fileHeader f (by decide) (by decide) (by decide)
      (by decide)), cText_of_not_mem (newline_not_mem_fileHeader f (by decide) (by decide)
      (by decide) (by decide))]
  have hfile : isFileLine (fileHeader f) = true := by
    rw [isFileLine, hline, List.isPrefixOf_iff_prefix]
    exact List.prefix_append _ _
  have hblank : ' ' ∉ Base64.encode f.name := Base64.not_mem_encode (by decide) f.name
  have hrest : (fileHeader f).drop fileWord.length =
      Base64.encode f.name ++ ' ' :: showNat f.content.length := List.drop_left
  simp only [walkLine, hfile, hline, hrest, upTo_append hblank, after_append hblank, Bool.not_true,
    Bool.false_eq_true, if_false]

/-- The lines of a body are gathered. -/
theorem foldlM_contentLines {lines : List CStr} (hlines : ∀ line ∈ lines, isEndFile line = false)
    (files : List GenFile) (cap : Nat) (begun : Begun) :
    lines.foldlM walkLine ⟨files, cap, some begun⟩ =
      .ok ⟨files, cap, some { begun with body := begun.body ++ lines }⟩ := by
  induction lines generalizing begun with
  | nil => simp [pure, Except.pure]
  | cons line lines ih =>
      have hone : walkLine ⟨files, cap, some begun⟩ line =
          .ok ⟨files, cap, some { begun with body := begun.body ++ [line] }⟩ := by
        simp only [walkLine, hlines line List.mem_cons_self, Bool.false_eq_true, if_false]
      have hrest := ih (fun l hl => hlines l (List.mem_cons_of_mem line hl))
        { begun with body := begun.body ++ [line] }
      rw [List.foldlM_cons, hone]
      simpa [bind, Except.bind] using hrest

theorem b64decode_encode (bytes : List UInt8) : b64decode (Base64.encode bytes) = some bytes := by
  rw [b64decode, cText_of_not_mem (Base64.not_mem_encode (by decide) bytes)]
  exact Base64.decode_encode (fun c => isBlank_of_isText) bytes

/-- What was encoded comes back, with blanks put into it anywhere, and nothing but complete text is
accepted. -/
theorem b64_exact :
    (∀ (bytes : List UInt8) (text : CStr), text.filter (fun c => !isBlank c) = Base64.encode bytes →
      b64decode text = some bytes) ∧
      ∀ text, (b64decode text).isSome = true ↔
        Base64.WellFormed ((cText text).filter fun c => !isBlank c) := by
  refine ⟨fun bytes text hfilter => ?_, fun text => ?_⟩
  · have hnul : '\x00' ∉ text := by
      intro hmem
      have hleft : '\x00' ∈ Base64.encode bytes := by
        rw [← hfilter]
        exact List.mem_filter.mpr ⟨hmem, by decide⟩
      exact Base64.not_mem_encode (by decide) bytes hleft
    rw [b64decode, cText_of_not_mem hnul]
    exact Base64.decode_of_filter (fun c => isBlank_of_isText) hfilter
  · exact Base64.decode_isSome_iff (fun c => isBlank_of_isText) (cText text)

theorem b64_exact_line_break : b64decode "TW\nE=".toList = some [77, 97] :=
  b64_exact.1 [77, 97] "TW\nE=".toList (by decide)

theorem b64decode_contentLines (f : GenFile) :
    b64decode (['\n'].intercalate (contentLines f)) = some f.content := by
  have hnul : '\x00' ∉ ['\n'].intercalate (contentLines f) := by
    intro hmem
    obtain hnewline | ⟨line, hline, hc⟩ := mem_intercalate_newline hmem
    · exact absurd hnewline (by decide)
    · exact not_mem_contentLines hline (by decide) hc
  rw [b64decode, cText_of_not_mem hnul]
  refine Base64.decode_of_filter (fun c => isBlank_of_isText) ?_
  rw [filter_intercalate_newline (by decide), contentLines, flatten_pieces (by decide),
    List.filter_eq_self]
  intro c hc
  rw [isBlank_of_isText (Base64.isText_of_mem_encode f.content c hc)]
  rfl

/-! ### The array of files -/

/-- The capacities the array can have, with the number of files in it. -/
structure Room (n cap : Nat) : Prop where
  fits : n ≤ cap
  size : cap = 0 ∨ cap = 8 ∨ cap = 16 ∨ cap = 32 ∨ cap = 64

theorem Room.grow {n cap : Nat} (h : Room n cap) (hn : n < confsetMax) :
    ¬ (n = cap ∧ newcap cap ≤ n) ∧ Room (n + 1) (if n = cap then newcap cap else cap) := by
  obtain ⟨hfits, hsize⟩ := h
  have hmax : n < 64 := hn
  by_cases hfull : n = cap
  · obtain rfl | rfl | rfl | rfl | rfl := hsize
    · subst hfull
      exact ⟨by decide, by decide, by decide⟩
    · subst hfull
      exact ⟨by decide, by decide, by decide⟩
    · subst hfull
      exact ⟨by decide, by decide, by decide⟩
    · subst hfull
      exact ⟨by decide, by decide, by decide⟩
    · omega
  · rw [if_neg hfull]
    exact ⟨fun hboth => hfull hboth.1, by omega, hsize⟩

/-- A file as the daemon has it, whose names are C strings. -/
def received (f : GenFile) : GenFile := ⟨cString f.name, f.content⟩

theorem received_of_held {f : GenFile} (h : f.Held) : received f = f := by
  rw [received, cString_of_not_mem h.nul]

/-- The ENDFILE line of a file that `putConfigFiles` wrote. -/
theorem finishFile_sent {f : GenFile} (hsize : f.content.length < 2 ^ 63) (files : List GenFile) (cap : Nat) :
    finishFile files cap ⟨Base64.encode f.name, strtoll (showNat f.content.length), contentLines f⟩ =
      if files.length = cap ∧ newcap cap ≤ files.length then .error .tooMany
      else .ok ⟨files ++ [received f], if files.length = cap then newcap cap else cap, none⟩ := by
  simp only [finishFile, b64decode_contentLines, b64decode_encode, strtoll_showNat_self hsize, ne_eq,
    not_true_eq_false, if_false, received]

theorem foldlM_fileLines {f : GenFile} (hsize : f.content.length < 2 ^ 63) (files : List GenFile) (cap : Nat) :
    (fileLines f).foldlM walkLine ⟨files, cap, none⟩ =
      if files.length = cap ∧ newcap cap ≤ files.length then .error .tooMany
      else .ok ⟨files ++ [received f], if files.length = cap then newcap cap else cap, none⟩ := by
  have hbody := foldlM_contentLines (fun line hline => isEndFile_contentLines (f := f) hline) files cap
    ⟨Base64.encode f.name, strtoll (showNat f.content.length), []⟩
  have hend : walkLine ⟨files, cap, some ⟨Base64.encode f.name,
      strtoll (showNat f.content.length), contentLines f⟩⟩ endFile =
        finishFile files cap ⟨Base64.encode f.name, strtoll (showNat f.content.length),
          contentLines f⟩ := rfl
  rw [fileLines, List.foldlM_cons, walkLine_fileHeader]
  show List.foldlM walkLine _ (contentLines f ++ [endFile]) = _
  rw [List.foldlM_append, hbody]
  show List.foldlM walkLine _ [endFile] = _
  rw [List.foldlM_cons, List.nil_append, hend, finishFile_sent hsize]
  split
  · rfl
  · rfl

/-- The walk over the lines of a whole delivery. -/
theorem foldlM_payload {todo files : List GenFile} {cap : Nat} (hsize : ∀ f ∈ todo, f.content.length < 2 ^ 63)
    (hroom : Room files.length cap) (hcount : files.length + todo.length ≤ confsetMax) :
    ∃ cap', (todo.flatMap fileLines).foldlM walkLine ⟨files, cap, none⟩ =
      .ok ⟨files ++ todo.map received, cap', none⟩ := by
  induction todo generalizing files cap with
  | nil => exact ⟨cap, by simp [pure, Except.pure]⟩
  | cons f todo ih =>
      rw [List.length_cons] at hcount
      have hlt : files.length < confsetMax := by omega
      have hnext : (files ++ [received f]).length = files.length + 1 := by simp
      have hgrown : Room (files ++ [received f]).length (if files.length = cap then newcap cap else cap) :=
        hnext ▸ (hroom.grow hlt).2
      obtain ⟨cap', hrest⟩ := ih (fun g hg => hsize g (List.mem_cons_of_mem f hg)) hgrown (by omega)
      refine ⟨cap', ?_⟩
      rw [List.flatMap_cons, List.foldlM_append, foldlM_fileLines (hsize f List.mem_cons_self),
        if_neg (hroom.grow hlt).1]
      show List.foldlM walkLine _ (todo.flatMap fileLines) = _
      rw [hrest, List.append_assoc, List.singleton_append, List.map_cons]

/-- The file after the last that there is room for ends the walk. -/
theorem foldlM_payload_tooMany {todo files : List GenFile} {cap : Nat}
    (hsize : ∀ f ∈ todo, f.content.length < 2 ^ 63) (hroom : Room files.length cap)
    (hfiles : files.length ≤ confsetMax) (hcount : confsetMax < files.length + todo.length) :
    (todo.flatMap fileLines).foldlM walkLine ⟨files, cap, none⟩ = .error .tooMany := by
  induction todo generalizing files cap with
  | nil =>
      rw [List.length_nil] at hcount
      omega
  | cons f todo ih =>
      rw [List.length_cons] at hcount
      rw [List.flatMap_cons, List.foldlM_append, foldlM_fileLines (hsize f List.mem_cons_self)]
      by_cases hlt : files.length < confsetMax
      · have hnext : (files ++ [received f]).length = files.length + 1 := by simp
        have hgrown : Room (files ++ [received f]).length
            (if files.length = cap then newcap cap else cap) := hnext ▸ (hroom.grow hlt).2
        rw [if_neg (hroom.grow hlt).1]
        exact ih (fun g hg => hsize g (List.mem_cons_of_mem f hg)) hgrown (by omega) (by omega)
      · have hfull : files.length = 64 := Nat.le_antisymm hfiles (Nat.le_of_not_lt hlt)
        have hcap : cap = 64 := by
          obtain ⟨hfits, hcap⟩ := hroom
          omega
        rw [if_pos (by rw [hfull, hcap]; decide)]
        rfl

theorem splitOn_payload (files : List GenFile) :
    (payload files).splitOn '\n' = files.flatMap fileLines ++ [[]] := by
  have hplain : ∀ line ∈ files.flatMap fileLines, '\n' ∉ line := by
    intro line hline
    obtain ⟨f, -, hf⟩ := List.mem_flatMap.mp hline
    exact newline_not_mem_fileLines hf
  have hsplit := splitOn_joinLines hplain []
  rw [List.append_nil] at hsplit
  exact hsplit

theorem walkPayload_payload {files : List GenFile} (hsize : ∀ f ∈ files, f.content.length < 2 ^ 63)
    (hcount : files.length ≤ confsetMax) : walkPayload (payload files) = .ok (files.map received) := by
  have hempty : Room ([] : List GenFile).length 0 := ⟨Nat.le_refl 0, Or.inl rfl⟩
  obtain ⟨cap, hwalk⟩ := foldlM_payload hsize hempty (by simpa using hcount)
  simp only [walkPayload, splitOn_payload, List.dropLast_concat, hwalk]
  rfl

theorem walkPayload_tooMany {files : List GenFile} (hsize : ∀ f ∈ files, f.content.length < 2 ^ 63)
    (hcount : confsetMax < files.length) : walkPayload (payload files) = .error .tooMany := by
  have hempty : Room ([] : List GenFile).length 0 := ⟨Nat.le_refl 0, Or.inl rfl⟩
  have hwalk := foldlM_payload_tooMany hsize hempty (Nat.zero_le _) (by simpa using hcount)
  simp only [walkPayload, splitOn_payload, List.dropLast_concat, hwalk]
  rfl

/-! ### A whole delivery -/

theorem length_content_le_payload {files : List GenFile} {f : GenFile} (hmem : f ∈ files) :
    f.content.length ≤ (payload files).length := by
  obtain ⟨before, later, rfl⟩ := List.append_of_mem hmem
  have hencoded : f.content.length ≤ (Base64.encode f.content).length := by
    rw [Base64.length_encode]
    omega
  have hlines : (Base64.encode f.content).length ≤ (joinLines (contentLines f)).length := by
    have hflatten := length_flatten_le_joinLines (contentLines f)
    rwa [contentLines, flatten_pieces (by decide)] at hflatten
  have hpayload : (joinLines (contentLines f)).length ≤
      (payload (before ++ f :: later)).length := by
    simp only [payload, List.flatMap_append, List.flatMap_cons, fileLines, joinLines_append,
      joinLines_cons, List.length_append, List.length_cons]
    omega
  omega

/-- What a delivery may be: 1 to 64 files with different flat names, and a payload of a size the
daemon takes. -/
structure Deliverable (files : List GenFile) : Prop where
  some : 1 ≤ files.length
  count : files.length ≤ confsetMax
  flat : ∀ f ∈ files, FlatName f.name
  distinct : (files.map GenFile.name).Nodup
  fits : (payload files).length ≤ confgenMaxPayload

theorem content_lt_of_fits {files : List GenFile} (hfits : (payload files).length ≤ confgenMaxPayload) :
    ∀ f ∈ files, f.content.length < 2 ^ 63 := by
  intro f hmem
  have hcontent := length_content_le_payload hmem
  have hmax : (payload files).length ≤ 8388608 := hfits
  omega

theorem Deliverable.held {files : List GenFile} (h : Deliverable files) : ∀ f ∈ files, f.Held := by
  intro f hmem
  have hname := (h.flat f hmem).length
  exact ⟨(h.flat f hmem).nul, by omega, content_lt_of_fits h.fits f hmem⟩

theorem payload_ne_nil {files : List GenFile} (h : 1 ≤ files.length) : 0 < (payload files).length := by
  cases files with
  | nil => exact absurd h (by decide)
  | cons f files =>
      simp only [payload, List.flatMap_cons, fileLines, List.cons_append, joinLines_cons,
        List.length_append, List.length_cons]
      omega

/-- The daemon reads the arguments of the command as they were written. -/
theorem receiveFiles_args (gen : UInt64) (files : List GenFile) (input : CStr) :
    receiveFiles (putArgs gen files) input =
      let payloadLen := strtoll (showNat (payload files).length)
      if payloadLen.toInt ≤ 0 ∨ confgenMaxPayload < payloadLen.toInt then
        (.error (.payloadSize payloadLen), input)
      else if (input.length : Int) < payloadLen.toInt then (.error .truncated, [])
      else
        let taken := payloadLen.toInt.toNat
        ((walkPayload (input.take taken)).map fun files => (gen, files), input.drop taken) := by
  have hblank : ∀ c ∈ (' ' :: showNat (payload files).length).head?, c.isDigit = false := by simp
  have hfirst := scanDecimal_showNat_append hblank gen.toNat
  have hnone : ∀ c ∈ ([] : CStr).head?, c.isDigit = false := by simp
  have hsecond := scanDecimal_showNat hnone (payload files).length
  rw [List.append_nil] at hsecond
  simp only [receiveFiles, putArgs, hfirst, hsecond, strtoul_showNat_self]

theorem receiveFiles_putArgs {files : List GenFile} (gen : UInt64) (input : CStr)
    (hsome : 1 ≤ files.length) (hfits : (payload files).length ≤ confgenMaxPayload) :
    receiveFiles (putArgs gen files) (payload files ++ input) =
      ((walkPayload (payload files)).map fun files => (gen, files), input) := by
  have hpos := payload_ne_nil hsome
  have hmax : (payload files).length ≤ 8388608 := hfits
  have hlength : (strtoll (showNat (payload files).length)).toInt = (payload files).length :=
    strtoll_showNat_self (by omega)
  have hsize : ¬ (((payload files).length : Int) ≤ 0 ∨
      (confgenMaxPayload : Int) < (payload files).length) := by
    have hbound : (confgenMaxPayload : Int) = 8388608 := rfl
    omega
  have hthere : ¬ (((payload files ++ input).length : Int) < (payload files).length) := by
    rw [List.length_append]
    omega
  simp only [receiveFiles_args, hlength, if_neg hsize, if_neg hthere, Int.toNat_natCast,
    List.take_left, List.drop_left]

/-- A payload of a size the daemon does not take is not read at all. -/
theorem receiveFiles_outside {files : List GenFile} (gen : UInt64) (input : CStr)
    (hsize : (payload files).length = 0 ∨ confgenMaxPayload < (payload files).length) :
    ∃ payloadLen, receiveFiles (putArgs gen files) input = (.error (.payloadSize payloadLen), input) := by
  have hlength := strtoll_showNat_clamped (payload files).length
  have hbound : (confgenMaxPayload : Int) = 8388608 := rfl
  have hmax : confgenMaxPayload = 8388608 := rfl
  refine ⟨strtoll (showNat (payload files).length), ?_⟩
  rw [receiveFiles_args, if_pos (by omega)]

/-- What `putConfigFiles` sends, `confgen_receive` reads back: the same files in the same order, and
not a byte more. No line of a content looks like the beginning or the end of a file. -/
theorem receiveFiles_payload {files : List GenFile} (h : Deliverable files) (gen : UInt64)
    (input : CStr) :
    receiveFiles (putArgs gen files) (payload files ++ input) = (.ok (gen, files), input) ∧
      ∀ f ∈ files, ∀ line ∈ contentLines f, isFileLine line = false ∧ isEndFile line = false := by
  constructor
  · have hsame : files.map received = files := by
      rw [List.map_congr_left fun f hmem => received_of_held (h.held f hmem), List.map_id']
    rw [receiveFiles_putArgs gen input h.some h.fits,
      walkPayload_payload (content_lt_of_fits h.fits) h.count, hsame]
    rfl
  · intro f _ line hline
    exact ⟨isFileLine_contentLines hline, isEndFile_contentLines hline⟩

/-- An empty file named a, and a file named b of the two bytes 0 and 255. -/
theorem receiveFiles_payload_two_files :
    receiveFiles (putArgs 7 [⟨[97], []⟩, ⟨[98], [0, 255]⟩])
        (payload [⟨[97], []⟩, ⟨[98], [0, 255]⟩] ++ ['\n']) =
      (.ok (7, [⟨[97], []⟩, ⟨[98], [0, 255]⟩]), ['\n']) := by
  refine (receiveFiles_payload ?_ 7 ['\n']).1
  exact {
    some := by decide
    count := by decide
    flat := by
      intro f hf
      simp only [List.mem_cons, List.not_mem_nil, or_false] at hf
      obtain rfl | rfl := hf
      · exact ⟨by decide, by decide, by decide, by decide, by decide, by decide⟩
      · exact ⟨by decide, by decide, by decide, by decide, by decide, by decide⟩
    distinct := by decide
    fits := by decide +kernel }

end Sysmon.Fleet
