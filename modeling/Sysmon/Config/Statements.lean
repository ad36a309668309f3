import Sysmon.Config.Layout

/-!
# The statements of a configuration

`splitStatements` puts each statement on a line of its own, and `Parse` goes by these lines. A text that ends where a
statement may begin has the same statements whatever comes behind it, and what `Parse` makes of some statements does
not depend on the hosts it has already.
-/

namespace Sysmon.Config

open GoBytes

/-! ### The statements -/

/-- What `Parse` takes a line for: nothing, if it is blank or a comment. -/
def statementOf (line : CStr) : Option CStr :=
  let line := trimSpace (dropCr line)
  if line = [] ∨ line.head? = some ';' ∨ line.head? = some '#' then none else some (trimSuffix ';' line)

/-- The statements in a text that has been split. -/
def statementsIn (text : CStr) : List CStr := (text.splitOn '\n').filterMap statementOf

def statementsOf (content : CStr) : List CStr := statementsIn (splitStatements content)

theorem parseLine_dropCr (s : ParseState) (line : CStr) :
    parseLine s (dropCr line) =
      match statementOf line with
      | some statement => parseStatement s statement
      | none => pure s := by
  unfold parseLine statementOf
  dsimp only
  split <;> rfl

/-- `Parse` goes from statement to statement. -/
theorem parse_eq {content : CStr} (hfits : scanOk (splitStatements content) = true) :
    parse content = ((statementsOf content).foldlM parseStatement ParseState.start).map ParseState.hosts := by
  have hlines : (scanLines (splitStatements content)).foldlM parseLine ParseState.start =
      (statementsOf content).foldlM parseStatement ParseState.start := by
    rw [foldlM_scanLines (fun _ => rfl) hfits, statementsOf, statementsIn, List.foldlM_filterMap]
    refine congrArg (fun f => List.foldlM f ParseState.start _) (funext₂ fun s line => ?_)
    rw [parseLine_dropCr]
    cases statementOf line <;> rfl
  rw [parse]
  simp only [hlines, hfits, if_true]
  cases (statementsOf content).foldlM parseStatement ParseState.start <;> rfl

/-! ### Texts one behind the other -/

/-- Where `splitStatements` is behind a text. -/
def stateAfter (s : SplitState) (text : CStr) : SplitState := text.foldl (fun s c => (s.next c).2) s

theorem stateAfter_append (s : SplitState) (a b : CStr) : stateAfter s (a ++ b) = stateAfter (stateAfter s a) b :=
  List.foldl_append

theorem splitFrom_append (s : SplitState) (a b : CStr) :
    splitFrom s (a ++ b) = splitFrom s a ++ splitFrom (stateAfter s a) b := by
  induction a generalizing s with
  | nil => rfl
  | cons c a ih =>
      rw [List.cons_append, splitFrom, splitFrom, ih, List.append_assoc]
      rfl

theorem statementOf_white {c : Char} (hc : isWhite c = true) (line : CStr) : statementOf (c :: line) = statementOf line := by
  rw [statementOf, statementOf, trimSpace_dropCr hc]

theorem statementsIn_line (text rest : CStr) :
    statementsIn (text ++ '\n' :: rest) = statementsIn text ++ statementsIn rest := by
  rw [statementsIn, List.splitOn_append_cons_self, List.filterMap_append, statementsIn, statementsIn]

theorem statementsIn_white {c : Char} (hc : isWhite c = true) (text : CStr) :
    statementsIn (c :: text) = statementsIn text := by
  by_cases hnewline : c = '\n'
  · subst hnewline
    exact statementsIn_line [] text
  · obtain ⟨line, lines, hlines⟩ := List.exists_cons_of_ne_nil (List.splitOn_ne_nil '\n' text)
    rw [statementsIn, statementsIn, List.splitOn_cons_eq_if_modifyHead, if_neg (by simpa using hnewline), hlines,
      List.modifyHead_cons, List.filterMap_cons, List.filterMap_cons, statementOf_white hc]

theorem statementsIn_gap {gap : CStr} (hgap : gap.all isWhite = true) (text : CStr) :
    statementsIn (gap ++ text) = statementsIn text := by
  induction gap with
  | nil => rfl
  | cons c gap ih =>
      rw [List.all_cons, Bool.and_eq_true] at hgap
      rw [List.cons_append, statementsIn_white hgap.1, ih hgap.2]

/-- What `splitStatements` can do at a character: it stays where it is or goes somewhere else in the line, and behind a
newline, and behind a semicolon or a brace that counts, a statement may begin. -/
inductive SplitState.Step (s : SplitState) (c : Char) : CStr × SplitState → Prop
  | newline (hc : c = '\n') : Step s c ([c], SplitState.lineStart)
  | kept (hwhite : s = SplitState.lineStart → isWhite c = true) : Step s c ([c], s)
  | moved {s' : SplitState} (hquote : s'.inQuote = true → s'.blank = false)
      (hinside : (s.inQuote = true → s.blank = false) → s' ≠ SplitState.lineStart) : Step s c ([c], s')
  | broken (hc : c = ';' ∨ c = '\x7b' ∨ c = '\x7d') (hquote : s.inQuote = false) (hcomment : s.inComment = false) :
      Step s c ([c, '\n'], SplitState.lineStart)

theorem next_step (s : SplitState) (c : Char) : s.Step c (s.next c) := by
  have hstart : ∀ {b : Bool}, b = true → b = SplitState.lineStart.inComment → False := fun h h' =>
    absurd (h.symm.trans h') (by decide)
  have hline : ∀ {s' : SplitState}, s'.blank = false → s' ≠ SplitState.lineStart := fun h heq =>
    absurd ((congrArg SplitState.blank heq).symm.trans h) (by decide)
  unfold SplitState.next
  by_cases hnewline : c = '\n'
  · rw [if_pos hnewline]
    exact .newline hnewline
  rw [if_neg hnewline]
  by_cases hcomment : s.inComment = true
  · rw [if_pos hcomment]
    exact .kept fun h => (hstart hcomment (congrArg SplitState.inComment h)).elim
  rw [if_neg hcomment]
  by_cases hquote : s.inQuote = true
  · rw [if_pos hquote]
    by_cases hc : c = '"'
    · rw [if_pos hc]
      exact .moved (fun h => absurd h Bool.false_ne_true) fun hblank => hline (hblank hquote)
    · rw [if_neg hc]
      exact .kept fun h => (hstart hquote (congrArg SplitState.inQuote h)).elim
  rw [if_neg hquote]
  by_cases hc : c = '"'
  · rw [if_pos hc]
    exact .moved (fun _ => rfl) fun _ => hline rfl
  rw [if_neg hc]
  by_cases hhash : c = '#'
  · rw [if_pos hhash]
    exact .moved (fun h => absurd h Bool.false_ne_true) fun _ => hline rfl
  rw [if_neg hhash]
  -- behind a separator the state is that of the beginning of a line
  rw [Bool.not_eq_true] at hquote hcomment
  have hbroken : { s with blank := true } = SplitState.lineStart := by
    rw [hquote, hcomment]
    rfl
  by_cases hsemicolon : c = ';'
  · rw [if_pos hsemicolon]
    by_cases hblank : s.blank = true
    · rw [if_pos hblank]
      exact .moved (fun h => absurd (hquote.symm.trans h) Bool.false_ne_true) fun _ heq =>
        hstart rfl (congrArg SplitState.inComment heq)
    · rw [if_neg hblank, hbroken]
      exact .broken (Or.inl hsemicolon) hquote hcomment
  rw [if_neg hsemicolon]
  by_cases hbrace : c = '\x7b' ∨ c = '\x7d'
  · rw [if_pos hbrace, hbroken]
    exact .broken (Or.inr hbrace) hquote hcomment
  rw [if_neg hbrace]
  by_cases hspace : c = ' ' ∨ c = '\t' ∨ c = '\r'
  · rw [if_pos hspace]
    refine .kept fun _ => ?_
    obtain rfl | rfl | rfl := hspace <;> rfl
  · rw [if_neg hspace]
    exact .moved (fun _ => rfl) fun _ => hline rfl

/-- It ends a line of its own behind a semicolon or a brace. -/
theorem next_cases (s : SplitState) (c : Char) :
    (s.next c).1 = [c] ∨ (c = ';' ∨ c = '\x7b' ∨ c = '\x7d') ∧ s.inQuote = false ∧ s.inComment = false ∧
      s.next c = ([c, '\n'], SplitState.lineStart) := by
  have hstep := next_step s c
  generalize s.next c = after at hstep ⊢
  cases hstep with
  | newline | kept | moved => exact Or.inl rfl
  | broken hc hquote hcomment => exact Or.inr ⟨hc, hquote, hcomment, rfl⟩

/-- A line that a quote stands in is not blank. -/
theorem next_inQuote {s : SplitState} (h : s.inQuote = true → s.blank = false) (c : Char) :
    (s.next c).2.inQuote = true → (s.next c).2.blank = false := by
  have hstep := next_step s c
  generalize s.next c = after at hstep ⊢
  cases hstep with
  | newline | broken => exact fun hin => absurd hin Bool.false_ne_true
  | kept => exact h
  | moved hquote => exact hquote

theorem stateAfter_inQuote {s : SplitState} (h : s.inQuote = true → s.blank = false) (text : CStr) :
    (stateAfter s text).inQuote = true → (stateAfter s text).blank = false := by
  induction text generalizing s with
  | nil => exact h
  | cons c text ih => exact ih (next_inQuote h c)

/-- What is written for a character behind which a statement may begin. -/
theorem next_lineStart {s : SplitState} {c : Char} (hquote : s.inQuote = true → s.blank = false)
    (h : (s.next c).2 = SplitState.lineStart) :
    (∃ before, (s.next c).1 = before ++ ['\n']) ∨
      s = SplitState.lineStart ∧ isWhite c = true ∧ (s.next c).1 = [c] := by
  have hstep := next_step s c
  generalize s.next c = after at hstep h ⊢
  cases hstep with
  | newline hc => exact Or.inl ⟨[], by rw [hc]; rfl⟩
  | kept hwhite => exact Or.inr ⟨h, hwhite h, rfl⟩
  | moved _ hinside => exact absurd h (hinside hquote)
  | broken => exact Or.inl ⟨[c], rfl⟩

/-- The line such a text leaves open is blank. -/
theorem blank_of_lineStart {text : CStr} (h : stateAfter SplitState.lineStart text = SplitState.lineStart) :
    ∃ gap : CStr, gap.all isWhite = true ∧
      (splitStatements text = gap ∨ ∃ lines, splitStatements text = lines ++ '\n' :: gap) := by
  unfold splitStatements
  induction text using List.reverseRecOn with
  | nil => exact ⟨[], rfl, Or.inl rfl⟩
  | append_singleton text c ih =>
      rw [stateAfter_append] at h
      have hsplit : splitFrom SplitState.lineStart (text ++ [c]) =
          splitFrom SplitState.lineStart text ++ ((stateAfter SplitState.lineStart text).next c).1 := by
        rw [splitFrom_append, splitFrom, splitFrom, List.append_nil]
      rw [hsplit]
      obtain ⟨before, hbefore⟩ | ⟨hstart, hwhite, hsame⟩ :=
        next_lineStart (stateAfter_inQuote (by decide) text) h
      · exact ⟨[], rfl, Or.inr ⟨splitFrom SplitState.lineStart text ++ before, by rw [hbefore, List.append_assoc]⟩⟩
      · obtain ⟨gap, hgap, hlines⟩ := ih hstart
        refine ⟨gap ++ [c], by simp [hgap, hwhite], ?_⟩
        obtain hlines | ⟨lines, hlines⟩ := hlines
        · exact Or.inl (by rw [hsame, hlines])
        · exact Or.inr ⟨lines, by rw [hsame, hlines, List.append_assoc, List.cons_append]⟩

/-- Behind a text that ends where a statement may begin the statements are those of the next text. -/
theorem statementsOf_append {text : CStr} (h : stateAfter SplitState.lineStart text = SplitState.lineStart) (rest : CStr) :
    statementsOf (text ++ rest) = statementsOf text ++ statementsOf rest := by
  have hsplit : splitStatements (text ++ rest) = splitStatements text ++ splitStatements rest := by
    rw [splitStatements, splitFrom_append, h]
    rfl
  rw [statementsOf, hsplit, statementsOf, statementsOf]
  obtain ⟨gap, hgap, hlines | ⟨lines, hlines⟩⟩ := blank_of_lineStart h
  · have hnone : statementsIn gap = [] := by
      have hsame := statementsIn_gap hgap []
      rw [List.append_nil] at hsame
      exact hsame
    rw [hlines, statementsIn_gap hgap, hnone, List.nil_append]
  · have hnone : statementsIn gap = [] := by
      have hsame := statementsIn_gap hgap []
      rw [List.append_nil] at hsame
      exact hsame
    rw [hlines, List.append_assoc, List.cons_append, statementsIn_line, statementsIn_gap hgap, statementsIn_line, hnone,
      List.append_nil]

theorem statementsOf_white {c : Char} (hc : isWhite c = true) (text : CStr) : statementsOf (c :: text) = statementsOf text := by
  rw [statementsOf, splitStatements, splitFrom_white hc, statementsIn_white hc]
  rfl

/-! ### Lines that fit -/

/-- No stretch of a text without the end of a line is too long for the scanner. -/
def ShortLines (text : CStr) : Prop := ∀ stretch : CStr, stretch <:+: text → '\n' ∉ stretch → stretch.length < maxTokenSize

theorem ShortLines.of_length {text : CStr} (h : text.length < maxTokenSize) : ShortLines text :=
  fun _ hstretch _ => Nat.lt_of_le_of_lt hstretch.length_le h

theorem ShortLines.stretch {text part : CStr} (h : ShortLines text) (hpart : part <:+: text) : ShortLines part :=
  fun stretch hstretch => h stretch (hstretch.trans hpart)

/-- A text into which the ends of more lines have been put. -/
inductive Broken : CStr → CStr → Prop
  | nil : Broken [] []
  | same (c : Char) {text lines : CStr} (rest : Broken text lines) : Broken (c :: text) (c :: lines)
  | newline {text lines : CStr} (rest : Broken text lines) : Broken text ('\n' :: lines)

theorem Broken.refl (text : CStr) : Broken text text := by
  induction text with
  | nil => exact .nil
  | cons c text ih => exact .same c ih

/-- Its lines are stretches of the text, and the first of them begins it. -/
theorem Broken.lines {text lines : CStr} (h : Broken text lines) : ∃ first rest, lines.splitOn '\n' = first :: rest ∧
    (first <+: text ∧ '\n' ∉ first) ∧ ∀ line ∈ rest, line <:+: text ∧ '\n' ∉ line := by
  induction h with
  | nil => exact ⟨[], [], rfl, ⟨List.prefix_rfl, List.not_mem_nil⟩, fun line hline => absurd hline List.not_mem_nil⟩
  | @same c text lines _ ih =>
      obtain ⟨first, rest, hlines, ⟨hfront, hfirst⟩, hrest⟩ := ih
      have hlater : ∀ line ∈ rest, line <:+: c :: text ∧ '\n' ∉ line := fun line hline =>
        ⟨(hrest line hline).1.trans (List.suffix_cons c text).isInfix, (hrest line hline).2⟩
      by_cases hnewline : c = '\n'
      · subst hnewline
        refine ⟨[], first :: rest, ?_, ⟨List.nil_prefix, List.not_mem_nil⟩, fun line hline => ?_⟩
        · rw [List.splitOn_cons_eq_if_modifyHead, if_pos (beq_self_eq_true _), hlines]
        · obtain rfl | hline := List.mem_cons.mp hline
          · exact ⟨hfront.isInfix.trans (List.suffix_cons _ text).isInfix, hfirst⟩
          · exact hlater line hline
      · refine ⟨c :: first, rest, ?_, ⟨List.cons_prefix_cons.mpr ⟨rfl, hfront⟩, ?_⟩, hlater⟩
        · rw [List.splitOn_cons_eq_if_modifyHead, if_neg (by simpa using hnewline), hlines, List.modifyHead_cons]
        · exact List.not_mem_cons_of_ne_of_not_mem (Ne.symm hnewline) hfirst
  | @newline text lines _ ih =>
      obtain ⟨first, rest, hlines, ⟨hfront, hfirst⟩, hrest⟩ := ih
      refine ⟨[], first :: rest, ?_, ⟨List.nil_prefix, List.not_mem_nil⟩, fun line hline => ?_⟩
      · rw [List.splitOn_cons_eq_if_modifyHead, if_pos (beq_self_eq_true _), hlines]
      · obtain rfl | hline := List.mem_cons.mp hline
        · exact ⟨hfront.isInfix, hfirst⟩
        · exact hrest line hline

theorem Broken.shortLine {text lines line : CStr} (h : Broken text lines) (hshort : ShortLines text)
    (hline : line ∈ lines.splitOn '\n') : line.length < maxTokenSize := by
  obtain ⟨first, rest, hlines, ⟨hfront, hfirst⟩, hrest⟩ := h.lines
  rw [hlines] at hline
  obtain rfl | hline := List.mem_cons.mp hline
  · exact hshort line hfront.isInfix hfirst
  · exact hshort line (hrest line hline).1 (hrest line hline).2

theorem scanOk_of_broken {text lines : CStr} (h : Broken text lines) (hshort : ShortLines text) : scanOk lines = true := by
  unfold scanOk rawLines
  rw [List.all_eq_true]
  intro line hline
  dsimp only at hline
  split at hline
  · exact decide_eq_true (h.shortLine hshort (List.mem_of_mem_dropLast hline))
  · exact decide_eq_true (h.shortLine hshort hline)

theorem broken_splitFrom (s : SplitState) (text : CStr) : Broken text (splitFrom s text) := by
  induction text generalizing s with
  | nil => exact .nil
  | cons c text ih =>
      rw [splitFrom]
      obtain hsame | ⟨-, -, -, hnext⟩ := next_cases s c
      · rw [hsame]
        exact .same c (ih _)
      · rw [hnext]
        exact .same c (.newline (ih _))

theorem ShortLines.splitStatements {text : CStr} (h : ShortLines text) : scanOk (splitStatements text) = true :=
  scanOk_of_broken (broken_splitFrom _ text) h

/-! ### What statements come to -/

/-- A state of `Parse` behind some other hosts. -/
def ParseState.behind (hosts : List Host) (s : ParseState) : ParseState := { s with hosts := hosts ++ s.hosts }

/-- The hosts that are there already do not matter. -/
theorem parseStatement_behind (hosts : List Host) (s : ParseState) (line : CStr) :
    parseStatement (s.behind hosts) line = (parseStatement s line).map (ParseState.behind hosts) := by
  obtain ⟨before, current, inside⟩ := s
  unfold parseStatement ParseState.behind
  dsimp only
  by_cases hspawns : startsWith "spawns" line ∧ '\x7b' ∈ line
  · rw [if_pos hspawns, if_pos hspawns]
    rfl
  rw [if_neg hspawns, if_neg hspawns]
  cases inside with
  | true =>
      by_cases hclose : line = ['\x7d']
      · rw [if_pos hclose, if_pos hclose]
        rfl
      · rw [if_neg hclose, if_neg hclose]
        rfl
  | false =>
      rw [if_neg Bool.false_ne_true, if_neg Bool.false_ne_true]
      by_cases hroot : startsWith "root" line = true
      · rw [if_pos hroot, if_pos hroot]
        cases extractQuoted (rootText line) <;> rfl
      rw [if_neg hroot, if_neg hroot]
      by_cases hconfig : startsWith "config " line = true
      · rw [if_pos hconfig, if_pos hconfig]
        cases configText (trimPrefix "config ".toList line) with
        | none => rfl
        | some text => cases hquoted : extractQuoted text <;> simp only [hquoted] <;> rfl
      rw [if_neg hconfig, if_neg hconfig]
      by_cases hset : startsWith "set " line = true
      · rw [if_pos hset, if_pos hset]
        rfl
      rw [if_neg hset, if_neg hset]
      by_cases hobject : startsWith "object " line ∧ '\x7b' ∈ line
      · rw [if_pos hobject, if_pos hobject]
        rfl
      rw [if_neg hobject, if_neg hobject]
      cases current with
      | none => rfl
      | some host =>
          dsimp only
          by_cases hclose : line = ['\x7d']
          · rw [if_pos hclose, if_pos hclose, List.append_assoc]
            rfl
          · rw [if_neg hclose, if_neg hclose]
            cases parseField host line <;> rfl

theorem foldlM_parseStatement_behind (hosts : List Host) (lines : List CStr) (s : ParseState) :
    lines.foldlM parseStatement (s.behind hosts) = (lines.foldlM parseStatement s).map (ParseState.behind hosts) := by
  induction lines generalizing s with
  | nil => rfl
  | cons line lines ih =>
      rw [List.foldlM_cons, List.foldlM_cons, parseStatement_behind]
      cases parseStatement s line with
      | error failure => rfl
      | ok next => exact ih next

/-- A directive sets something else than the name. -/
def Directive.KeepsName : Directive → Prop
  | .text _ set => ∀ host value, (set host value).hostname = host.hostname
  | .number _ set | .quotedNumber _ set | .bareNumber _ set => ∀ host value, (set host value).hostname = host.hostname
  | .flag _ set => ∀ host, (set host).hostname = host.hostname

theorem keepsName_directives : ∀ directive ∈ directives, directive.KeepsName := by
  have hdep : ∀ host deps, (addDep host deps).hostname = host.hostname := by
    intro host deps
    unfold addDep
    split_ifs <;> rfl
  have hnotify : ∀ host extra, (alsoNotify host extra).hostname = host.hostname := by
    intro host extra
    unfold alsoNotify
    split_ifs <;> rfl
  unfold directives
  repeat' refine List.forall_mem_cons.mpr ⟨?_, ?_⟩
  all_goals first | exact fun _ _ => rfl | exact fun _ => rfl | exact hdep | exact hnotify | exact List.forall_mem_nil _

theorem hostname_setNumber {set : Host → Int → Host} (hset : ∀ host value, (set host value).hostname = host.hostname)
    (host : Host) (value : Option Int) : (setNumber set host value).hostname = host.hostname := by
  cases value with
  | none => rfl
  | some value => exact hset host value

theorem hostname_apply {directive : Directive} (h : directive.KeepsName) {host host' : Host} {line : CStr}
    (happly : directive.apply host line = .ok host') : host'.hostname = host.hostname := by
  cases directive with
  | text words set =>
      cases hquoted : extractQuoted (trimOpenings words line) with
      | error failure =>
          rw [Directive.apply, hquoted] at happly
          cases happly
      | ok value =>
          rw [Directive.apply, hquoted] at happly
          rw [← Except.ok.inj happly]
          exact h host value
  | quotedNumber word set =>
      cases hquoted : extractQuoted (trimPrefix (opening word) line) with
      | error failure =>
          rw [Directive.apply, hquoted] at happly
          cases happly
      | ok value =>
          rw [Directive.apply, hquoted] at happly
          rw [← Except.ok.inj happly]
          exact hostname_setNumber h host _
  | number word set | bareNumber word set =>
      rw [← Except.ok.inj happly]
      exact hostname_setNumber h host _
  | flag words set =>
      rw [← Except.ok.inj happly]
      exact h host

theorem hostname_parseField {host host' : Host} {line : CStr} (h : parseField host line = .ok host') :
    host'.hostname = host.hostname := by
  unfold parseField at h
  split at h
  · rename_i directive hfind
    exact hostname_apply (keepsName_directives directive (List.mem_of_find?_eq_some hfind)) h
  · rw [Except.ok.inj h]

/-- A statement that begins an object, as `Parse` sees it. -/
def BeginsObject (line : CStr) : Prop := startsWith "object " line = true ∧ '\x7b' ∈ line

/-- One that begins the `spawns` block. -/
def BeginsSpawns (line : CStr) : Prop := startsWith "spawns" line = true ∧ '\x7b' ∈ line

instance (line : CStr) : Decidable (BeginsObject line) := inferInstanceAs (Decidable (_ ∧ _))

instance (line : CStr) : Decidable (BeginsSpawns line) := inferInstanceAs (Decidable (_ ∧ _))

/-- Whether `Parse` is inside the `spawns` block behind a statement. -/
def spawnsNext (inside : Bool) (line : CStr) : Bool :=
  if BeginsSpawns line then true else if line = ['\x7d'] then false else inside

/-- Outside of objects a statement that begins none leaves the hosts as they are. -/
theorem parseStatement_outside {hosts : List Host} {inside : Bool} {line : CStr} {s : ParseState} (hline : ¬BeginsObject line)
    (h : parseStatement ⟨hosts, none, inside⟩ line = .ok s) : s = ⟨hosts, none, spawnsNext inside line⟩ := by
  unfold parseStatement at h
  dsimp only at h
  unfold spawnsNext
  by_cases hspawns : startsWith "spawns" line = true ∧ '\x7b' ∈ line
  · rw [if_pos hspawns] at h
    rw [if_pos (show BeginsSpawns line from hspawns)]
    exact (Except.ok.inj h).symm
  rw [if_neg hspawns] at h
  rw [if_neg (show ¬BeginsSpawns line from hspawns)]
  cases inside with
  | true =>
      rw [if_pos rfl] at h
      rw [← Except.ok.inj h]
      split <;> rfl
  | false =>
      rw [if_neg Bool.false_ne_true] at h
      rw [ite_self]
      -- none of these lines changes anything, if it can be read
      split at h
      · cases hquoted : extractQuoted (rootText line) <;> rw [hquoted] at h <;> cases h
        rfl
      split at h
      · cases htext : configText (trimPrefix "config ".toList line) with
        | none =>
            rw [htext] at h
            exact (Except.ok.inj h).symm
        | some text =>
            rw [htext] at h
            dsimp only at h
            cases hquoted : extractQuoted text <;> rw [hquoted] at h <;> cases h
            rfl
      split at h
      · exact (Except.ok.inj h).symm
      rw [if_neg (show ¬(startsWith "object " line = true ∧ '\x7b' ∈ line) from hline)] at h
      exact (Except.ok.inj h).symm

theorem foldlM_parseStatement_outside {hosts : List Host} {lines : List CStr} (hlines : ∀ line ∈ lines, ¬BeginsObject line)
    {inside : Bool} {s : ParseState} (h : lines.foldlM parseStatement ⟨hosts, none, inside⟩ = .ok s) :
    s = ⟨hosts, none, lines.foldl spawnsNext inside⟩ := by
  induction lines generalizing inside with
  | nil => exact (Except.ok.inj h).symm
  | cons line lines ih =>
      rw [List.foldlM_cons] at h
      cases hline : parseStatement ⟨hosts, none, inside⟩ line with
      | error failure =>
          rw [hline] at h
          cases h
      | ok next =>
          rw [hline] at h
          obtain rfl := parseStatement_outside (hlines line List.mem_cons_self) hline
          exact ih (fun other hother => hlines other (List.mem_cons_of_mem _ hother)) h

/-- A statement of an object that begins nothing else and does not end it. -/
def StaysInside (line : CStr) : Prop := ¬BeginsObject line ∧ ¬BeginsSpawns line ∧ line ≠ ['\x7d']

instance (line : CStr) : Decidable (StaysInside line) := inferInstanceAs (Decidable (_ ∧ _))

theorem parseStatement_inside {hosts : List Host} {host : Host} {line : CStr} {s : ParseState} (hline : StaysInside line)
    (h : parseStatement ⟨hosts, some host, false⟩ line = .ok s) :
    ∃ host', s = ⟨hosts, some host', false⟩ ∧ host'.hostname = host.hostname := by
  obtain ⟨hobject, hspawns, hclose⟩ := hline
  unfold BeginsObject at hobject
  unfold BeginsSpawns at hspawns
  unfold parseStatement at h
  dsimp only at h
  rw [if_neg hspawns, if_neg Bool.false_ne_true] at h
  split at h
  · cases hquoted : extractQuoted (rootText line) <;> rw [hquoted] at h <;> cases h
    exact ⟨host, rfl, rfl⟩
  split at h
  · cases htext : configText (trimPrefix "config ".toList line) with
    | none =>
        rw [htext] at h
        exact ⟨host, (Except.ok.inj h).symm, rfl⟩
    | some text =>
        rw [htext] at h
        dsimp only at h
        cases hquoted : extractQuoted text <;> rw [hquoted] at h <;> cases h
        exact ⟨host, rfl, rfl⟩
  split at h
  · exact ⟨host, (Except.ok.inj h).symm, rfl⟩
  cases hfield : parseField host line with
  | error failure =>
      rw [hfield] at h
      cases h
  | ok host' =>
      rw [hfield] at h
      exact ⟨host', (Except.ok.inj h).symm, hostname_parseField hfield⟩

theorem foldlM_parseStatement_inside {hosts : List Host} {lines : List CStr} (hlines : ∀ line ∈ lines, StaysInside line)
    {host : Host} {s : ParseState} (h : lines.foldlM parseStatement ⟨hosts, some host, false⟩ = .ok s) :
    ∃ host', s = ⟨hosts, some host', false⟩ ∧ host'.hostname = host.hostname := by
  induction lines generalizing host with
  | nil => exact ⟨host, (Except.ok.inj h).symm, rfl⟩
  | cons line lines ih =>
      rw [List.foldlM_cons] at h
      cases hline : parseStatement ⟨hosts, some host, false⟩ line with
      | error failure =>
          rw [hline] at h
          cases h
      | ok next =>
          rw [hline] at h
          obtain ⟨middle, rfl, hname⟩ := parseStatement_inside (hlines line List.mem_cons_self) hline
          obtain ⟨last, hlast, hsame⟩ := ih (fun other hother => hlines other (List.mem_cons_of_mem _ hother)) h
          exact ⟨last, hlast, hsame.trans hname⟩

end Sysmon.Config
