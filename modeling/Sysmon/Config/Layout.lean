import Sysmon.Config.Settings

/-!
# The layout of a configuration

A configuration is a list of statements: directives up to their semicolons, what stands before an opening brace, and
closing braces. `Parse` takes each statement in the words it is written in, and does not care how the statements are
placed: the white space and the ends of lines between them are free. A semicolon behind a closing brace is the last
thing on its line here.
-/

namespace Sysmon.Config

open GoBytes
open GoSpace.Spaces (trimSpace_short_append trimSpace_append_short)

/-- White space, as `splitStatements` knows it. -/
def isWhite (c : Char) : Bool := c = ' ' || c = '\t' || c = '\r' || c = '\n'

/-! ### Tokens -/

/-- A token that has been read, if there is one. -/
def finished (token : CStr) : List CStr := if token = [] then [] else [token]

/-- The tokens of a text, with the one that is being read and whether it is quoted. -/
def tokensFrom : Bool → CStr → CStr → List CStr
  | _, token, [] => finished token
  | true, token, c :: s =>
      if c = '"' then (token ++ [c]) :: tokensFrom false [] s else tokensFrom true (token ++ [c]) s
  | false, token, c :: s =>
      if isWhite c then finished token ++ tokensFrom false [] s
      else if c = '"' then finished token ++ tokensFrom true [c] s
      else if c = ';' ∨ c = '\x7b' ∨ c = '\x7d' then finished token ++ [c] :: tokensFrom false [] s
      else tokensFrom false (token ++ [c]) s

/-- The tokens of a text: a quoted string is one, and so are a semicolon and a brace. -/
def tokens (content : CStr) : List CStr := tokensFrom false [] content

/-! ### Statements -/

/-- Whether a text is on one line, closes its quotes, and holds nothing outside of them that ends a statement or
begins a comment. -/
def isUnbroken : Bool → CStr → Bool
  | inQuote, [] => !inQuote
  | true, c :: s => c ≠ '\n' && isUnbroken (c ≠ '"') s
  | false, c :: s => !(['\n', '#', ';', '\x7b', '\x7d'].contains c) && isUnbroken (c = '"') s

/-- The words of a statement. -/
structure Wording where
  text : CStr
  begins : text.head?.any (fun c => !isWhite c) = true
  unbroken : isUnbroken false text = true

inductive Clause where
  | directive (wording : Wording)
  | header (wording : Wording)
  | closing

/-- The line a statement is read as. -/
def Clause.line : Clause → CStr
  | .directive wording => wording.text ++ [';']
  | .header wording => wording.text ++ ['\x7b']
  | .closing => ['\x7d']

/-- The texts that consist of these statements. -/
inductive LaidOut : List Clause → CStr → Prop
  | done : LaidOut [] []
  | white {clauses : List Clause} {text : CStr} {c : Char} (hc : isWhite c = true) (rest : LaidOut clauses text) :
      LaidOut clauses (c :: text)
  | statement {clauses : List Clause} {text : CStr} (clause : Clause) (rest : LaidOut clauses text) :
      LaidOut (clause :: clauses) (clause.line ++ text)
  | closed {clauses : List Clause} {text : CStr} (gap blanks : CStr) (hgap : gap.all isWhite = true)
      (hblanks : blanks.all (fun c => isWhite c && c ≠ '\n') = true) (rest : LaidOut clauses text) :
      LaidOut (.closing :: clauses) (Clause.closing.line ++ (gap ++ ';' :: (blanks ++ '\n' :: text)))
  | closedLast (gap blanks : CStr) (hgap : gap.all isWhite = true)
      (hblanks : blanks.all (fun c => isWhite c && c ≠ '\n') = true) :
      LaidOut [.closing] (Clause.closing.line ++ (gap ++ ';' :: blanks))

/-- What the statements mean. -/
def readClauses (r : Reading) (clauses : List Clause) : Except Failure Reading :=
  clauses.foldlM (fun r clause => readLine r clause.line) r

/-! ### Splitting -/

/-- In a line that is not blank, outside of quotes. -/
def SplitState.midLine : SplitState := ⟨false, false, false⟩

theorem splitFrom_white {c : Char} (hc : isWhite c = true) (text : CStr) :
    splitFrom SplitState.lineStart (c :: text) = c :: splitFrom SplitState.lineStart text := by
  simp only [isWhite, Bool.or_eq_true, decide_eq_true_eq] at hc
  obtain ((rfl | rfl) | rfl) | rfl := hc <;> rfl

theorem splitFrom_gap {gap : CStr} (hgap : gap.all isWhite = true) (text : CStr) :
    splitFrom SplitState.lineStart (gap ++ text) = gap ++ splitFrom SplitState.lineStart text := by
  induction gap with
  | nil => rfl
  | cons c gap ih =>
      rw [List.all_cons, Bool.and_eq_true] at hgap
      rw [List.cons_append, splitFrom_white hgap.1, ih hgap.2, List.cons_append]

theorem splitFrom_unbroken {words : CStr} (inQuote : Bool) (h : isUnbroken inQuote words = true) (text : CStr) :
    splitFrom ⟨inQuote, false, false⟩ (words ++ text) = words ++ splitFrom SplitState.midLine text := by
  induction words generalizing inQuote with
  | nil =>
      cases inQuote with
      | true => exact absurd h (by decide)
      | false => rfl
  | cons c words ih =>
      cases inQuote with
      | true =>
          rw [isUnbroken, Bool.and_eq_true, decide_eq_true_eq] at h
          have hnext : (SplitState.mk true false false).next c = ([c], ⟨c ≠ '"', false, false⟩) := by
            rw [SplitState.next, if_neg h.1]
            by_cases hquote : c = '"' <;> simp [hquote]
          rw [List.cons_append, splitFrom, hnext, ih _ h.2]
          rfl
      | false =>
          simp only [isUnbroken, List.contains_cons, List.contains_nil, Bool.or_false, Bool.and_eq_true,
            Bool.not_eq_true', Bool.or_eq_false_iff, beq_eq_false_iff_ne] at h
          obtain ⟨⟨hnewline, hhash, hsemicolon, hopen, hclose⟩, hrest⟩ := h
          have hnext : (SplitState.mk false false false).next c = ([c], ⟨c = '"', false, false⟩) := by
            rw [SplitState.next, if_neg hnewline]
            by_cases hquote : c = '"' <;> simp [hquote, hhash, hsemicolon, hopen, hclose]
          rw [List.cons_append, splitFrom, hnext, ih _ hrest]
          rfl

theorem splitFrom_wording (wording : Wording) (text : CStr) :
    splitFrom SplitState.lineStart (wording.text ++ text) = wording.text ++ splitFrom SplitState.midLine text := by
  obtain ⟨words, hbegins, hunbroken⟩ := wording
  rw [← splitFrom_unbroken false hunbroken text]
  cases words with
  | nil => exact absurd hbegins (by decide)
  | cons c words =>
      -- the first character alone tells a line that is blank from one that is not
      have hwhite : isWhite c = false := by simpa using hbegins
      simp only [isWhite, Bool.or_eq_false_iff, decide_eq_false_iff_not] at hwhite
      obtain ⟨⟨⟨hblank, htab⟩, hcr⟩, hnewline⟩ := hwhite
      simp only [isUnbroken, List.contains_cons, List.contains_nil, Bool.or_false, Bool.and_eq_true,
        Bool.not_eq_true', Bool.or_eq_false_iff, beq_eq_false_iff_ne] at hunbroken
      obtain ⟨⟨-, -, hsemicolon, -, -⟩, -⟩ := hunbroken
      have hnext : SplitState.lineStart.next c = SplitState.midLine.next c := by
        simp [SplitState.next, SplitState.lineStart, SplitState.midLine, hnewline, hsemicolon, hblank, htab, hcr]
      rw [List.cons_append, splitFrom, hnext]
      rfl

/-- Each statement comes out as a line of its own, and the next one begins a line. -/
theorem splitFrom_clause (clause : Clause) (text : CStr) :
    splitFrom SplitState.lineStart (clause.line ++ text) =
      clause.line ++ '\n' :: splitFrom SplitState.lineStart text := by
  cases clause with
  | directive wording =>
      rw [Clause.line, List.append_assoc, splitFrom_wording, List.append_assoc]
      rfl
  | header wording =>
      rw [Clause.line, List.append_assoc, splitFrom_wording, List.append_assoc]
      rfl
  | closing => rfl

theorem splitFrom_comment (blanks : CStr) (hblanks : '\n' ∉ blanks) (text : CStr) :
    splitFrom ⟨false, true, true⟩ (blanks ++ text) = blanks ++ splitFrom ⟨false, true, true⟩ text := by
  induction blanks with
  | nil => rfl
  | cons c blanks ih =>
      rw [List.mem_cons, not_or] at hblanks
      have hnext : (SplitState.mk false true true).next c = ([c], ⟨false, true, true⟩) := by
        rw [SplitState.next, if_neg (Ne.symm hblanks.1)]
        rfl
      rw [List.cons_append, splitFrom, hnext, ih hblanks.2]
      rfl

/-! ### Reading the lines -/

/-- The lines of a text that fits into the scanner, one after the other. -/
def readAll (r : Reading) (text : CStr) : Except Failure Reading :=
  (text.splitOn '\n').foldlM (fun r line => readLine r (dropCr line)) r

/-- All lines of a text that fits are handed out. -/
theorem scanLines_eq {text : CStr} (hfits : scanOk text = true) : scanLines text = (rawLines text).map dropCr := by
  have hall : (rawLines text).takeWhile (fun line => decide (line.length < maxTokenSize)) = rawLines text := by
    rw [List.takeWhile_eq_self_iff]
    exact List.all_eq_true.mp hfits
  rw [scanLines, hall]

/-- They are the lines of the text, where a blank one makes no difference. -/
theorem foldlM_scanLines {β : Type} {f : β → CStr → Except Failure β} (hblank : ∀ r, f r [] = .ok r) {text : CStr}
    (hfits : scanOk text = true) (r : β) :
    (scanLines text).foldlM f r = (text.splitOn '\n').foldlM (fun r line => f r (dropCr line)) r := by
  rw [scanLines_eq hfits, List.foldlM_map, rawLines]
  split
  · rename_i hlast
    obtain ⟨lines, hlines⟩ := List.getLast?_eq_some_iff.mp hlast
    have hdrop : ∀ r, f r (dropCr []) = .ok r := hblank
    rw [hlines, List.dropLast_concat, List.foldlM_append]
    generalize lines.foldlM (fun r line => f r (dropCr line)) r = read
    cases read with
    | error failure => rfl
    | ok r => exact (congrArg (· >>= pure) (hdrop r)).symm
  · rfl

theorem readAll_eq {text : CStr} (hfits : scanOk text = true) (r : Reading) :
    (scanLines text).foldlM readLine r = readAll r text := foldlM_scanLines (fun _ => rfl) hfits r

theorem readAll_line {line : CStr} (hline : '\n' ∉ line) (text : CStr) (r : Reading) :
    readAll r (line ++ '\n' :: text) = readLine r (dropCr line) >>= fun r => readAll r text := by
  rw [readAll, List.splitOn_append_cons_self_of_not_mem hline, List.foldlM_cons]
  rfl

theorem trimSpace_white {c : Char} (hc : isWhite c = true) (s : CStr) : trimSpace (c :: s) = trimSpace s := by
  refine @trimSpace_short_append _ _ charSpaces [c] ?_ s
  simp only [isWhite, Bool.or_eq_true, decide_eq_true_eq] at hc
  obtain ((rfl | rfl) | rfl) | rfl := hc <;> rfl

theorem trimSpace_dropCr {c : Char} (hc : isWhite c = true) (line : CStr) :
    trimSpace (dropCr (c :: line)) = trimSpace (dropCr line) := by
  cases line with
  | nil =>
      rw [dropCr, trimSuffix]
      split
      · rfl
      · exact trimSpace_white hc []
  | cons d line =>
      have hdrop : dropCr (c :: d :: line) = c :: dropCr (d :: line) := by
        rw [dropCr, dropCr, trimSuffix, trimSuffix, List.getLast?_cons_cons]
        split <;> rfl
      rw [hdrop, trimSpace_white hc]

theorem readLine_dropCr {c : Char} (hc : isWhite c = true) (line : CStr) (r : Reading) :
    readLine r (dropCr (c :: line)) = readLine r (dropCr line) := by
  rw [readLine, trimSpace_dropCr hc]
  rfl

theorem readAll_white {c : Char} (hc : isWhite c = true) (text : CStr) (r : Reading) :
    readAll r (c :: text) = readAll r text := by
  by_cases hnewline : c = '\n'
  · subst hnewline
    exact readAll_line List.not_mem_nil text r
  · obtain ⟨line, lines, hlines⟩ := List.exists_cons_of_ne_nil (List.splitOn_ne_nil '\n' text)
    rw [readAll, readAll, List.splitOn_cons_eq_if_modifyHead, if_neg (by simpa using hnewline), hlines]
    rw [List.modifyHead_cons, List.foldlM_cons, List.foldlM_cons, readLine_dropCr hc]

theorem readAll_gap {gap : CStr} (hgap : gap.all isWhite = true) (text : CStr) (r : Reading) :
    readAll r (gap ++ text) = readAll r text := by
  induction gap with
  | nil => rfl
  | cons c gap ih =>
      rw [List.all_cons, Bool.and_eq_true] at hgap
      rw [List.cons_append, readAll_white hgap.1, ih hgap.2]

theorem newline_not_mem_unbroken {words : CStr} (inQuote : Bool) (h : isUnbroken inQuote words = true) :
    '\n' ∉ words := by
  induction words generalizing inQuote with
  | nil => exact List.not_mem_nil
  | cons c words ih =>
      cases inQuote with
      | true =>
          rw [isUnbroken, Bool.and_eq_true, decide_eq_true_eq] at h
          exact List.not_mem_cons_of_ne_of_not_mem (Ne.symm h.1) (ih _ h.2)
      | false =>
          simp only [isUnbroken, List.contains_cons, Bool.and_eq_true, Bool.not_eq_true', Bool.or_eq_false_iff,
            beq_eq_false_iff_ne] at h
          exact List.not_mem_cons_of_ne_of_not_mem (Ne.symm h.1.1) (ih _ h.2)

/-- A statement has no end of line inside, and its last character is none that is dropped. -/
theorem newline_not_mem_line (clause : Clause) : '\n' ∉ clause.line := by
  cases clause with
  | directive wording | header wording =>
      rw [Clause.line, List.mem_append, not_or]
      exact ⟨newline_not_mem_unbroken false wording.unbroken, by decide⟩
  | closing => decide

theorem dropCr_line (clause : Clause) : dropCr clause.line = clause.line := by
  cases clause with
  | directive wording | header wording =>
      rw [Clause.line, dropCr, trimSuffix, List.getLast?_concat]
      rfl
  | closing => rfl

theorem readAll_clause (clause : Clause) (text : CStr) (r : Reading) :
    readAll r (clause.line ++ '\n' :: text) = readLine r clause.line >>= fun r => readAll r text := by
  rw [readAll_line (newline_not_mem_line clause), dropCr_line]

/-- A semicolon with nothing but white space behind it is a comment. -/
theorem trimSpace_semicolon {blanks : CStr} (hblanks : blanks.all CText.isspace = true) :
    trimSpace (';' :: blanks) = [';'] := by
  have hkept : charSpaces.trimSpace [';'] = [';'] := by decide
  exact (trimSpace_append_short hblanks [';']).trans hkept

theorem readLine_semicolon {blanks : CStr} (hblanks : blanks.all CText.isspace = true) (r : Reading) :
    readLine r (dropCr (';' :: blanks)) = .ok r := by
  obtain ⟨rest, hdrop, hrest⟩ : ∃ rest : CStr, dropCr (';' :: blanks) = ';' :: rest ∧ rest.all CText.isspace = true := by
    rw [dropCr, trimSuffix]
    split
    · cases blanks with
      | nil => exact absurd ‹_› (by decide)
      | cons c blanks =>
          refine ⟨(c :: blanks).dropLast, rfl, List.all_eq_true.mpr fun d hd => ?_⟩
          exact List.all_eq_true.mp hblanks d (List.mem_of_mem_dropLast hd)
    · exact ⟨blanks, rfl, hblanks⟩
  rw [hdrop, readLine, trimSpace_semicolon hrest]
  rfl

section blanks

variable {blanks : CStr} (hblanks : blanks.all (fun c => isWhite c && c ≠ '\n') = true)

include hblanks

theorem newline_not_mem_blanks : '\n' ∉ blanks := by
  intro hmem
  exact absurd (List.all_eq_true.mp hblanks _ hmem) (by decide)

theorem all_isspace_blanks : blanks.all CText.isspace = true := by
  rw [List.all_eq_true] at hblanks ⊢
  intro c hc
  have hwhite := hblanks c hc
  simp only [isWhite, Bool.and_eq_true, Bool.or_eq_true, decide_eq_true_eq] at hwhite
  obtain ⟨((rfl | rfl) | rfl) | rfl, -⟩ := hwhite <;> rfl

/-- The semicolon behind a closing brace is a comment, up to the end of its line. -/
theorem readAll_semicolon (text : CStr) (r : Reading) :
    readAll r (splitFrom SplitState.lineStart (';' :: (blanks ++ '\n' :: text))) =
      readAll r (splitFrom SplitState.lineStart text) := by
  have hnewline := newline_not_mem_blanks hblanks
  have hsplit : splitFrom SplitState.lineStart (';' :: (blanks ++ '\n' :: text)) =
      (';' :: blanks) ++ '\n' :: splitFrom SplitState.lineStart text := by
    rw [List.cons_append]
    exact congrArg (List.cons ';') (splitFrom_comment blanks hnewline ('\n' :: text))
  rw [hsplit, readAll_line (List.not_mem_cons_of_ne_of_not_mem (by decide) hnewline),
    readLine_semicolon (all_isspace_blanks hblanks)]
  rfl

theorem readAll_lastSemicolon (r : Reading) :
    readAll r (splitFrom SplitState.lineStart (';' :: blanks)) = .ok r := by
  have hnewline := newline_not_mem_blanks hblanks
  have hsplit : splitFrom SplitState.lineStart (';' :: blanks) = ';' :: blanks := by
    have hcomment := splitFrom_comment blanks hnewline []
    rw [List.append_nil, splitFrom, List.append_nil] at hcomment
    exact congrArg (List.cons ';') hcomment
  rw [hsplit, readAll, List.splitOn_eq_singleton (List.not_mem_cons_of_ne_of_not_mem (by decide) hnewline),
    List.foldlM_cons, readLine_semicolon (all_isspace_blanks hblanks)]
  rfl

end blanks

/-! ### The layout is free -/

/-- A text that lays out some statements is read as these statements. -/
theorem readAll_laidOut {clauses : List Clause} {text : CStr} (h : LaidOut clauses text) (r : Reading) :
    readAll r (splitStatements text) = readClauses r clauses := by
  unfold splitStatements
  induction h generalizing r with
  | done => rfl
  | white hc rest ih => rw [splitFrom_white hc, readAll_white hc, ih]
  | statement clause rest ih =>
      rw [splitFrom_clause, readAll_clause, readClauses, List.foldlM_cons]
      exact bind_congr fun r => ih r
  | closed gap blanks hgap hblanks rest ih =>
      rw [splitFrom_clause, readAll_clause, readClauses, List.foldlM_cons]
      refine bind_congr fun r => ?_
      rw [splitFrom_gap hgap, readAll_gap hgap, readAll_semicolon hblanks]
      exact ih r
  | closedLast gap blanks hgap hblanks =>
      rw [splitFrom_clause, readAll_clause, readClauses, List.foldlM_cons]
      refine bind_congr fun r => ?_
      rw [splitFrom_gap hgap, readAll_gap hgap, readAll_lastSemicolon hblanks]
      rfl

/-- What `Parse` gives back, told by the statements alone. -/
theorem parseConfig_laidOut {clauses : List Clause} {text : CStr} (h : LaidOut clauses text)
    (hfits : scanOk (splitStatements text) = true) :
    parseConfig text = (readClauses Reading.start clauses).map fun r => ⟨r.global, r.root, r.parsed.hosts⟩ := by
  rw [parseConfig]
  simp only [readAll_eq hfits, readAll_laidOut h, hfits, if_true]
  cases readClauses Reading.start clauses <;> rfl

/-- Two layouts of the same statements are read as the same configuration. -/
theorem parseConfig_eq_of_laidOut {clauses : List Clause} {a b : CStr} (ha : LaidOut clauses a)
    (hb : LaidOut clauses b) (hfitsa : scanOk (splitStatements a) = true)
    (hfitsb : scanOk (splitStatements b) = true) : parseConfig a = parseConfig b := by
  rw [parseConfig_laidOut ha hfitsa, parseConfig_laidOut hb hfitsb]

/-- A setting and an object with one field. -/
def objectWithSetting : List Clause :=
  [.directive ⟨"config numfailures 5".toList, rfl, by decide⟩,
    .header ⟨"object a ".toList, rfl, by decide⟩,
    .directive ⟨"ip \"1.2.3.4\"".toList, rfl, by decide⟩, .closing]

theorem parseConfig_oneLine :
    parseConfig "config numfailures 5;\nobject a \x7b\n\tip \"1.2.3.4\";\n\x7d;\n".toList =
      parseConfig "config numfailures 5; object a \x7bip \"1.2.3.4\";\x7d".toList := by
  have hlines : LaidOut objectWithSetting
      "config numfailures 5;\nobject a \x7b\n\tip \"1.2.3.4\";\n\x7d;\n".toList :=
    .statement _ (.white rfl (.statement _ (.white rfl (.white rfl (.statement _ (.white rfl
      (.closed [] [] rfl rfl .done)))))))
  have hline : LaidOut objectWithSetting "config numfailures 5; object a \x7bip \"1.2.3.4\";\x7d".toList :=
    .statement _ (.white rfl (.statement _ (.statement _ (.statement _ .done))))
  exact parseConfig_eq_of_laidOut hlines hline (by decide) (by decide)

/-! ### Where it is not -/

theorem tokens_blanks (n : Nat) : tokens (List.replicate n ' ') = [] := by
  induction n with
  | zero => rfl
  | succ n ih => exact ih

/-- A line that does not fit into the scanner is an error, even where there is nothing to read. -/
theorem parseConfig_blanks {n : Nat} (hn : maxTokenSize ≤ n) : parseConfig (List.replicate n ' ') = .error .failed := by
  have hsplit : splitStatements (List.replicate n ' ') = List.replicate n ' ' := by
    have hgap := splitFrom_gap (by simp [isWhite] : (List.replicate n ' ').all isWhite = true) []
    rw [List.append_nil, splitFrom, List.append_nil] at hgap
    exact hgap
  have hlines : rawLines (List.replicate n ' ') = [List.replicate n ' '] := by
    have hnewline : '\n' ∉ List.replicate n ' ' := fun hmem => absurd (List.eq_of_mem_replicate hmem) (by decide)
    rw [rawLines, List.splitOn_eq_singleton hnewline]
    have hpos : n ≠ 0 := by
      have : maxTokenSize = 65536 := rfl
      omega
    simp [hpos]
  rw [parseConfig, hsplit]
  simp only [scanLines, scanOk, hlines]
  rw [List.takeWhile_cons_of_neg (by simpa using hn), List.all_cons, List.length_replicate,
    decide_eq_false (Nat.not_lt.mpr hn)]
  rfl

/-- Inside a statement white space counts: the end of a line, a second blank, a blank before the semicolon. So does
a line that is too long. -/
theorem layout_counts :
    (tokens "config numfailures 5;\n".toList = tokens "config numfailures\n5;\n".toList ∧
        parseConfig "config numfailures 5;\n".toList ≠ parseConfig "config numfailures\n5;\n".toList) ∧
      (tokens "config numfailures 5;\n".toList = tokens "config  numfailures 5;\n".toList ∧
        parseConfig "config numfailures 5;\n".toList ≠ parseConfig "config  numfailures 5;\n".toList) ∧
      (tokens "config nosubject;\n".toList = tokens "config nosubject ;\n".toList ∧
        parseConfig "config nosubject;\n".toList ≠ parseConfig "config nosubject ;\n".toList) ∧
      tokens [] = tokens (List.replicate maxTokenSize ' ') ∧
        parseConfig [] ≠ parseConfig (List.replicate maxTokenSize ' ') := by
  refine ⟨⟨by decide, by decide⟩, ⟨by decide, by decide⟩,
    ⟨by decide, by decide⟩, (tokens_blanks _).symm, ?_⟩
  rw [parseConfig_blanks le_rfl]
  decide

end Sysmon.Config
