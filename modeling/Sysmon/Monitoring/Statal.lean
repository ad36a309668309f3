import Mathlib.Algebra.Order.Ring.Int
import Mathlib.Data.Int.Lemmas
import Mathlib.Data.List.Infix
import Mathlib.Data.UInt
import Sysmon.Agents.Alerts
import Sysmon.Parser.Files

/-!
# The names of all objects

The daemon answers `STATAL` with the name of each object on a line of its own (`send_stat_all`) and a
status line (`send_stat`). A name goes through a buffer of 256 bytes. The server takes the lines one by
one (`readSysmonResponse`, and the loop of `fetchStatus`): three digits at the beginning make a line a
status, and what is left of any other line without the white space around it is a name.
-/

namespace Sysmon.Monitoring

open CText Flex
open GoSpace.Spaces (trimSpace_append_short trimSpace_trimSpace trimSpace_part)
open Fleet (ascii)
open Agents (GoString)
open Alerts (trimSpace)
open Sysmon.Parser (headerName literal isWS objectPattern)

/-! ### Names -/

/-- The bytes of a string of the daemon. -/
def bytes (s : CStr) : GoString := s.map fun c => UInt8.ofNat c.toNat

/-- The name stands in the header of an object that the scanner takes. -/
def Accepted (name : CStr) : Prop :=
  ∃ yytext : CStr, (∀ c ∈ yytext, 0 < c.toNat ∧ c.toNat < 256) ∧ objectPattern.Matches yytext ∧
    headerName yytext = name

/-! ### The daemon -/

def eol : GoString := [13, 10]

/-- What `snprintf` leaves of a name in `buff`. -/
def statName (name : CStr) : GoString := (bytes name).take 255

def statStatus (paused : Bool) : GoString :=
  if paused then ascii "333 Paused Currently" else ascii "333 Not currently Paused"

/-- `send_stat` for `STATAL`. -/
def sendStatal (names : List CStr) (paused : Bool) : GoString :=
  names.flatMap (fun name => statName name ++ eol) ++ (statStatus paused ++ eol)

/-! ### The server -/

/-- `ReadString` up to a newline: the line, and what follows it. -/
def readLine (stream : GoString) : Option (GoString × GoString) :=
  match stream.dropWhile (· ≠ 10) with
  | [] => none
  | newline :: rest => some (stream.takeWhile (· ≠ 10) ++ [newline], rest)

structure SysmonResponse where
  code : GoString
  message : GoString
  isError : Bool
  deriving DecidableEq, Repr

def isDigit (b : UInt8) : Bool := 48 ≤ b && b ≤ 57

/-- `readSysmonResponse`, of the line that was read. -/
def sysmonResponse (line : GoString) : SysmonResponse :=
  let trimmed := trimSpace line
  let code := trimmed.take 3
  if 3 ≤ trimmed.length ∧ code.all isDigit = true then
    { code := code, message := trimmed, isError := code = ascii "403" || code = ascii "444" }
  else { code := [], message := line, isError := false }

theorem length_of_readLine {stream line rest : GoString} (h : readLine stream = some (line, rest)) :
    rest.length < stream.length := by
  have hle : (stream.dropWhile (· ≠ 10)).length ≤ stream.length := (List.dropWhile_sublist _).length_le
  rw [readLine] at h
  cases hdrop : stream.dropWhile (· ≠ 10) with
  | nil =>
      rw [hdrop] at h
      cases h
  | cons newline more =>
      rw [hdrop] at h
      rw [hdrop, List.length_cons] at hle
      have hrest : more = rest := (Prod.ext_iff.mp (Option.some.inj h)).2
      rw [← hrest]
      omega

/-- The loop over the answer to `STATAL`: the names, whether the daemon is paused, and what it has left
to be read. Nothing where the stream ends, or the daemon refuses. -/
def statalLoop (names : List GoString) (stream : GoString) : Option (List GoString × Bool × GoString) :=
  match h : readLine stream with
  | none => none
  | some (line, rest) =>
      let resp := sysmonResponse line
      if resp.code ≠ [] ∧ resp.isError = true then none
      else if resp.code = ascii "333" then some (names, decide (ascii "Paused Currently" <:+: resp.message), rest)
      else
        let name := trimSpace resp.message
        have := length_of_readLine h
        statalLoop (if name ≠ [] then names ++ [name] else names) rest
termination_by stream.length

/-! ### What is left of a line -/

/-- The end of a line is white space. -/
theorem trimSpace_append_eol (s : GoString) : trimSpace (s ++ eol) = trimSpace s := trimSpace_append_short (by decide) s

theorem readLine_append {line : GoString} (h : 10 ∉ line) (rest : GoString) :
    readLine (line ++ eol ++ rest) = some (line ++ eol, rest) := by
  have hno : ∀ b ∈ line ++ [13], (b ≠ 10) = true := by
    intro b hb
    obtain hb | hb := List.mem_append.mp hb
    · simpa using fun heq : b = 10 => h (heq ▸ hb)
    · obtain rfl := List.mem_singleton.mp hb
      decide
  have hline : line ++ eol ++ rest = (line ++ [13]) ++ 10 :: rest := by simp [eol]
  rw [readLine, hline, List.dropWhile_append_of_pos (by simpa using hno),
    List.takeWhile_append_of_pos (by simpa using hno)]
  simp [eol]

/-! ### One line -/

/-- What the server sees of a name. -/
def seenName (name : CStr) : GoString := trimSpace (statName name)

/-- The name is taken for an answer of the daemon. -/
def TakenAsStatus (name : CStr) : Prop := (seenName name).take 3 ∈ [ascii "333", ascii "403", ascii "444"]

instance (name : CStr) : Decidable (TakenAsStatus name) := inferInstanceAs (Decidable (_ ∈ _))

theorem statalLoop_eq {names : List GoString} {stream line rest : GoString}
    (h : readLine stream = some (line, rest)) : statalLoop names stream =
      if (sysmonResponse line).code ≠ [] ∧ (sysmonResponse line).isError = true then none
      else if (sysmonResponse line).code = ascii "333" then
        some (names, decide (ascii "Paused Currently" <:+: (sysmonResponse line).message), rest)
      else statalLoop (if trimSpace (sysmonResponse line).message ≠ [] then
        names ++ [trimSpace (sysmonResponse line).message] else names) rest := by
  rw [statalLoop]
  split
  next hnone => rw [h] at hnone; exact nomatch hnone
  next line' rest' hsome =>
    rw [h] at hsome
    obtain ⟨rfl, rfl⟩ := Prod.ext_iff.mp (Option.some.inj hsome)
    rfl

theorem sysmonResponse_name (name : CStr) : sysmonResponse (statName name ++ eol) =
    if 3 ≤ (seenName name).length ∧ ((seenName name).take 3).all isDigit = true then
      { code := (seenName name).take 3, message := seenName name
        isError := (seenName name).take 3 = ascii "403" || (seenName name).take 3 = ascii "444" }
    else { code := [], message := statName name ++ eol, isError := false } := by
  rw [sysmonResponse, trimSpace_append_eol]
  rfl

/-- A name is taken for an error, for the end, or it is a name. -/
theorem statalLoop_name (names : List GoString) {name : CStr} (hline : 10 ∉ statName name) (rest : GoString) :
    statalLoop names (statName name ++ eol ++ rest) =
      if (seenName name).take 3 = ascii "403" ∨ (seenName name).take 3 = ascii "444" then none
      else if (seenName name).take 3 = ascii "333" then
        some (names, decide (ascii "Paused Currently" <:+: seenName name), rest)
      else statalLoop (if seenName name ≠ [] then names ++ [seenName name] else names) rest := by
  rw [statalLoop_eq (readLine_append hline rest), sysmonResponse_name]
  by_cases hcode : 3 ≤ (seenName name).length ∧ ((seenName name).take 3).all isDigit = true
  · have hne : (seenName name).take 3 ≠ [] := by
      intro hnil
      have := congrArg List.length hnil
      rw [List.length_take, List.length_nil] at this
      omega
    rw [if_pos hcode]
    dsimp only
    rw [show trimSpace (seenName name) = seenName name from trimSpace_trimSpace _]
    simp only [ne_eq, hne, not_false_eq_true, true_and, Bool.or_eq_true, decide_eq_true_eq]
  · have hother : ∀ code : GoString, code.length = 3 → code.all isDigit = true → (seenName name).take 3 ≠ code := by
      rintro code hlength hdigits rfl
      rw [List.length_take] at hlength
      exact hcode ⟨by omega, hdigits⟩
    rw [if_neg hcode]
    dsimp only
    rw [if_neg (by simp), if_neg (by decide), trimSpace_append_eol,
      if_neg (not_or.mpr ⟨hother (ascii "403") (by decide) (by decide), hother (ascii "444") (by decide) (by decide)⟩),
      if_neg (hother (ascii "333") (by decide) (by decide))]
    rfl

theorem statalLoop_status (names : List GoString) (paused : Bool) (next : GoString) :
    statalLoop names (statStatus paused ++ eol ++ next) = some (names, paused, next) := by
  have hline : 10 ∉ statStatus paused := by cases paused <;> decide
  rw [statalLoop_eq (readLine_append hline next)]
  cases paused with
  | false =>
      have hresponse : sysmonResponse (statStatus false ++ eol) =
        ⟨ascii "333", ascii "333 Not currently Paused", false⟩ := by decide
      have hno : ¬ascii "Paused Currently" <:+: ascii "333 Not currently Paused" := by decide
      simp [hresponse, hno]
  | true =>
      have hresponse : sysmonResponse (statStatus true ++ eol) =
        ⟨ascii "333", ascii "333 Paused Currently", false⟩ := by decide
      have hin : ascii "Paused Currently" <:+: ascii "333 Paused Currently" := by decide
      simp [hresponse, hin]

/-! ### All lines -/

theorem sendStatal_cons (name : CStr) (names : List CStr) (paused : Bool) (next : GoString) :
    sendStatal (name :: names) paused ++ next = statName name ++ eol ++ (sendStatal names paused ++ next) := by
  simp [sendStatal]

/-- The names as they are seen, when none is taken for a status. -/
theorem statalLoop_names {names : List CStr} (hlines : ∀ name ∈ names, 10 ∉ statName name)
    (h : ∀ name ∈ names, ¬TakenAsStatus name) (before : List GoString) (paused : Bool) (next : GoString) :
    statalLoop before (sendStatal names paused ++ next) =
      some (before ++ (names.map seenName).filter (· ≠ []), paused, next) := by
  induction names generalizing before with
  | nil =>
      rw [sendStatal, List.flatMap_nil, List.nil_append, statalLoop_status, List.map_nil, List.filter_nil,
        List.append_nil]
  | cons name names ih =>
      have hname := h name List.mem_cons_self
      rw [TakenAsStatus, List.mem_cons, List.mem_cons, List.mem_singleton, not_or] at hname
      rw [sendStatal_cons, statalLoop_name before (hlines name List.mem_cons_self), if_neg hname.2, if_neg hname.1,
        ih (fun n hn => hlines n (List.mem_cons_of_mem _ hn)) fun n hn => h n (List.mem_cons_of_mem _ hn),
        List.map_cons]
      by_cases hseen : seenName name = []
      · rw [if_neg (not_not.mpr hseen), List.filter_cons_of_neg (by simpa using hseen)]
      · rw [if_pos hseen, List.filter_cons_of_pos (by simpa using hseen), List.append_assoc, List.singleton_append]

/-- A name that is taken for a status ends the list before it. -/
theorem length_statalLoop {names : List CStr} (hlines : ∀ name ∈ names, 10 ∉ statName name)
    (h : ∃ name ∈ names, TakenAsStatus name) {before : List GoString} {paused : Bool} {next : GoString}
    {got : List GoString × Bool × GoString}
    (hgot : statalLoop before (sendStatal names paused ++ next) = some got) :
    got.1.length < before.length + names.length := by
  induction names generalizing before with
  | nil =>
      obtain ⟨name, hname, -⟩ := h
      exact absurd hname List.not_mem_nil
  | cons name names ih =>
      rw [sendStatal_cons, statalLoop_name before (hlines name List.mem_cons_self)] at hgot
      rw [List.length_cons]
      split at hgot
      · exact nomatch hgot
      next herror =>
        split at hgot
        · obtain rfl := Option.some.inj hgot
          dsimp only
          omega
        next hstatus =>
          have hrest : ∃ name ∈ names, TakenAsStatus name := by
            obtain ⟨other, hother, htaken⟩ := h
            obtain rfl | hother := List.mem_cons.mp hother
            · rw [TakenAsStatus, List.mem_cons, List.mem_cons, List.mem_singleton] at htaken
              obtain hend | hend := htaken
              · exact absurd hend hstatus
              · exact absurd hend herror
            · exact ⟨other, hother, htaken⟩
          have hlt := ih (fun n hn => hlines n (List.mem_cons_of_mem _ hn)) hrest hgot
          split at hlt
          · rw [List.length_append, List.length_singleton] at hlt
            omega
          · omega

/-- The name goes through the buffer, and through the server's reading, as it is. -/
structure Framed (name : CStr) : Prop where
  short : name.length ≤ 255
  trimmed : trimSpace (bytes name) = bytes name
  status : (bytes name).take 3 ∉ [ascii "333", ascii "403", ascii "444"]

attribute [local instance] Agents.decidableMemStrings in
instance (name : CStr) : Decidable (Framed name) :=
  decidable_of_iff
    (name.length ≤ 255 ∧ trimSpace (bytes name) = bytes name ∧
      (bytes name).take 3 ∉ [ascii "333", ascii "403", ascii "444"])
    ⟨fun h => ⟨h.1, h.2.1, h.2.2⟩, fun h => ⟨h.short, h.trimmed, h.status⟩⟩

theorem framed_iff {name : CStr} : Framed name ↔ seenName name = bytes name ∧ ¬TakenAsStatus name := by
  have hbytes : (bytes name).length = name.length := List.length_map _
  constructor
  · rintro ⟨hshort, htrimmed, hstatus⟩
    have hseen : seenName name = bytes name := by
      rw [seenName, statName, List.take_of_length_le (by omega), htrimmed]
    exact ⟨hseen, by rw [TakenAsStatus, hseen]; exact hstatus⟩
  · rintro ⟨hseen, hstatus⟩
    have hshort : name.length ≤ 255 := by
      have hle : (seenName name).length ≤ (statName name).length := (trimSpace_part _).length_le
      rw [hseen, hbytes, statName, List.length_take] at hle
      omega
    refine ⟨hshort, ?_, by rw [← hseen]; exact hstatus⟩
    rw [seenName, statName, List.take_of_length_le (by omega)] at hseen
    exact hseen

/-! ### What the scanner accepts -/

theorem matches_literal {p : Pattern Char} {word chars : List Char} :
    Pattern.Matches (chars.map (fun c => ⟨fun d => decide (d = c), .one⟩) ++ p) word ↔
      ∃ rest, word = chars ++ rest ∧ p.Matches rest := by
  induction chars generalizing word with
  | nil => simp
  | cons c chars ih =>
      rw [List.map_cons, List.cons_append, Pattern.Matches]
      constructor
      · rintro ⟨first, second, rfl, ⟨d, rfl, hd⟩, hmatch⟩
        obtain ⟨rest, rfl, hrest⟩ := ih.mp hmatch
        obtain rfl : d = c := by simpa using hd
        exact ⟨rest, rfl, hrest⟩
      · rintro ⟨rest, rfl, hrest⟩
        exact ⟨[c], chars ++ rest, rfl, ⟨c, rfl, by simp⟩, ih.mpr ⟨rest, rfl, hrest⟩⟩

/-- The text of a header. -/
theorem matches_object {yytext : CStr} : objectPattern.Matches yytext ↔
    ∃ text space, yytext = "object".toList ++ (text ++ (space ++ ['\x7b'])) ∧ text ≠ [] ∧ '\x7b' ∉ text ∧
      space ≠ [] ∧ ∀ c ∈ space, isWS c = true := by
  rw [objectPattern, literal, matches_literal]
  constructor
  · rintro ⟨rest, rfl, text, rest', rfl, ⟨hne, htext⟩, space, last, rfl, ⟨hspace, hws⟩, brace, more, rfl,
      ⟨c, rfl, hc⟩, rfl⟩
    obtain rfl : c = '\x7b' := by simpa using hc
    refine ⟨text, space, by simp, hne, fun hmem => ?_, hspace, hws⟩
    exact absurd rfl (of_decide_eq_true (htext _ hmem))
  · rintro ⟨text, space, rfl, hne, hbrace, hspace, hws⟩
    refine ⟨_, rfl, text, space ++ ['\x7b'], rfl, ⟨hne, fun c hc => ?_⟩, space, ['\x7b'], rfl, ⟨hspace, hws⟩,
      ['\x7b'], [], rfl, ⟨'\x7b', rfl, by simp⟩, rfl⟩
    exact decide_eq_true fun heq => hbrace (heq ▸ hc)

/-- An accepted name is not empty and has no white space. -/
theorem word_of_accepted {name : CStr} (h : Accepted name) :
    name ≠ [] ∧ ∀ c ∈ name, isspace c = false ∧ 0 < c.toNat ∧ c.toNat < 256 := by
  obtain ⟨yytext, hbytes, hmatch, rfl⟩ := h
  constructor
  · obtain ⟨text, space, rfl, -, -, -, -⟩ := matches_object.mp hmatch
    have hdrop : ("object".toList ++ (text ++ (space ++ ['\x7b']))).drop 6 = text ++ (space ++ ['\x7b']) := rfl
    have hbrace : (text ++ (space ++ ['\x7b'])).dropWhile isspace ≠ [] := by
      intro hnil
      have hall := List.dropWhile_eq_nil_iff.mp hnil '\x7b' (by simp)
      exact absurd hall (by decide)
    obtain ⟨c, rest, hrest⟩ := List.exists_cons_of_ne_nil hbrace
    have hc : isspace c = false := by
      have hhead := List.head_dropWhile_not isspace hbrace
      simpa [hrest] using hhead
    rw [headerName, hdrop, hrest, List.takeWhile_cons_of_pos (by simp [hc])]
    exact List.cons_ne_nil _ _
  · intro c hc
    have hword := List.mem_takeWhile_imp hc
    have hmem : c ∈ yytext :=
      List.mem_of_mem_drop ((List.dropWhile_suffix isspace).subset ((List.takeWhile_prefix _).subset hc))
    exact ⟨by simpa using hword, hbytes c hmem⟩

/-- Every word without a brace is a name. -/
theorem accepted_of_word {name : CStr} (hne : name ≠ []) (hbrace : '\x7b' ∉ name)
    (hword : ∀ c ∈ name, isspace c = false ∧ 0 < c.toNat ∧ c.toNat < 256) : Accepted name := by
  refine ⟨"object".toList ++ ((' ' :: name) ++ ([' '] ++ ['\x7b'])), fun c hc => ?_,
    matches_object.mpr ⟨' ' :: name, [' '], rfl, List.cons_ne_nil _ _, by simp [hbrace], by simp, by simp [isWS]⟩, ?_⟩
  · have hheader : ∀ d ∈ "object \x7b".toList, 0 < d.toNat ∧ d.toNat < 256 := by decide
    simp only [List.mem_append, List.mem_cons, List.not_mem_nil, or_false] at hc
    obtain hc | (rfl | hc) | rfl | rfl := hc
    · exact hheader c (by revert c; decide)
    · decide
    · exact (hword c hc).2
    · decide
    · decide
  · obtain ⟨d, rest, rfl⟩ := List.exists_cons_of_ne_nil hne
    have hd := (hword d List.mem_cons_self).1
    have hdrop : ("object".toList ++ ((' ' :: d :: rest) ++ ([' '] ++ ['\x7b']))).drop 6 =
        ' ' :: ((d :: rest) ++ ' ' :: ['\x7b']) := rfl
    rw [headerName, hdrop, List.dropWhile_cons_of_pos (by decide), List.cons_append,
      List.dropWhile_cons_of_neg (by simp [hd]), ← List.cons_append,
      List.takeWhile_append_of_pos fun c hc => by simp [(hword c hc).1], List.takeWhile_cons_of_neg (by decide),
      List.append_nil]

theorem newline_not_mem_statName {name : CStr} (h : Accepted name) : 10 ∉ statName name := by
  intro hmem
  obtain ⟨c, hc, hbyte⟩ := List.mem_map.mp (List.mem_of_mem_take hmem)
  obtain ⟨hspace, -, hlt⟩ := (word_of_accepted h).2 c hc
  have hten : c.toNat = 10 := by
    have hvalue := congrArg UInt8.toNat hbyte
    rw [UInt8.toNat_ofNat', Nat.mod_eq_of_lt hlt] at hvalue
    exact hvalue
  have hchar : c = '\n' := by rw [← Char.ofNat_toNat c, hten]
  rw [hchar] at hspace
  exact absurd hspace (by decide)

/-- The server reads the names of the daemon, whether it is paused, and nothing more, exactly when every
name goes through as it is. -/
theorem statalLoop_right {names : List CStr} (haccepted : ∀ name ∈ names, Accepted name) (paused : Bool)
    (next : GoString) : statalLoop [] (sendStatal names paused ++ next) = some (names.map bytes, paused, next) ↔
      ∀ name ∈ names, Framed name := by
  have hlines : ∀ name ∈ names, 10 ∉ statName name := fun name hname => newline_not_mem_statName (haccepted name hname)
  by_cases htaken : ∃ name ∈ names, TakenAsStatus name
  · constructor
    · intro hgot
      have hlt := length_statalLoop hlines htaken hgot
      rw [List.length_map, List.length_nil] at hlt
      omega
    · intro hframed
      obtain ⟨name, hname, hstatus⟩ := htaken
      exact absurd hstatus (framed_iff.mp (hframed name hname)).2
  · have hnone : ∀ name ∈ names, ¬TakenAsStatus name := fun name hname hstatus => htaken ⟨name, hname, hstatus⟩
    rw [statalLoop_names hlines hnone, List.nil_append, Option.some.injEq, Prod.mk.injEq]
    constructor
    · rintro ⟨hnames, -⟩ name hname
      have hlength : ((names.map seenName).filter (· ≠ [])).length = (names.map seenName).length := by
        rw [hnames, List.length_map, List.length_map]
      rw [List.filter_eq_self.mpr (List.length_filter_eq_length_iff.mp hlength)] at hnames
      exact framed_iff.mpr ⟨List.map_inj_left.mp hnames name hname, hnone name hname⟩
    · intro hframed
      have hseen : names.map seenName = names.map bytes :=
        List.map_inj_left.mpr fun name hname => (framed_iff.mp (hframed name hname)).1
      refine ⟨?_, rfl⟩
      rw [hseen]
      refine List.filter_eq_self.mpr fun s hs => ?_
      obtain ⟨name, hname, rfl⟩ := List.mem_map.mp hs
      exact decide_eq_true fun hnil => (word_of_accepted (haccepted name hname)).1 (List.map_eq_nil_iff.mp hnil)

theorem statalLoop_right_twoNames : statalLoop [] (sendStatal ["gw".toList, "200ok".toList] true ++ ascii "333 \r\n") =
    some (["gw".toList, "200ok".toList].map bytes, true, ascii "333 \r\n") := by
  refine (statalLoop_right (fun name hname => ?_) true _).mpr (by decide)
  have hword : ∀ name ∈ ["gw".toList, "200ok".toList], name ≠ [] ∧ '\x7b' ∉ name ∧
      ∀ c ∈ name, isspace c = false ∧ 0 < c.toNat ∧ c.toNat < 256 := by decide
  obtain ⟨hne, hbrace, hchars⟩ := hword name hname
  exact accepted_of_word hne hbrace hchars

/-- An object that is called `333-main` is the end of the answer for the server, and the rest is read as the
answer to what it asks next. -/
theorem statalLoop_wrong_statusName : Accepted "333-main".toList ∧ Accepted "gw".toList ∧
    statalLoop [] (sendStatal ["333-main".toList, "gw".toList] true) =
      some ([], false, ascii "gw\r\n333 Paused Currently\r\n") := by
  have hword : ∀ name ∈ ["333-main".toList, "gw".toList], name ≠ [] ∧ '\x7b' ∉ name ∧
      ∀ c ∈ name, isspace c = false ∧ 0 < c.toNat ∧ c.toNat < 256 := by decide
  have haccepted : ∀ name ∈ ["333-main".toList, "gw".toList], Accepted name := fun name hname =>
    accepted_of_word (hword name hname).1 (hword name hname).2.1 (hword name hname).2.2
  exact ⟨haccepted _ (by decide), haccepted _ (by decide), by decide +kernel⟩

end Sysmon.Monitoring
