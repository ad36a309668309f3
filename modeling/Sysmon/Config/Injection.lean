import Sysmon.Config.Words

/-!
# Directives out of fields

What `GenerateHost` writes, read by the daemon's scanner, is to be the block of one object with the statements of the
host's own fields. `q` takes quotes and control characters out of most fields and leaves semicolons in, at which the
scanner ends a statement; the name, the address and the type are written as they are. The tokens are the right ones
exactly when no value has a semicolon in it, the name has no brace, and a few values are not so odd that the rule of
another statement reads them.
-/

namespace Sysmon.Config

open Flex
open GoBytes (showInt)
open Sysmon.Parser (Action Attr lex rules knownRules objectPattern spawnDefPattern literal isWS isWordChar)

/-! ### Sanitised values -/

theorem mem_q {c : Char} (hc : c < '\u0080') {value : CStr} : c ∈ q value ↔ c ∈ value ∧ c ≠ '"' ∧ ' ' ≤ c := by
  unfold q
  rw [List.mem_filter, GoBytes.mem_runes hc, Bool.and_eq_true, decide_eq_true_eq, decide_eq_true_eq]

theorem semicolon_mem_q {value : CStr} : ';' ∈ q value ↔ ';' ∈ value := by
  rw [mem_q (by decide)]
  exact and_iff_left (by decide)

theorem quote_not_mem_q (value : CStr) : '"' ∉ q value := fun h => ((mem_q (by decide)).mp h).2.1 rfl

theorem newline_not_mem_q (value : CStr) : '\n' ∉ q value := fun h =>
  absurd ((mem_q (by decide)).mp h).2.2 (by decide)

theorem not_mem_showInt {c : Char} (h : c.isDigit = false ∧ c ≠ '-') (i : Int) : c ∉ showInt i :=
  CText.not_mem_showInt h.1 h.2 i

/-! ### Fields -/

/-- The word of the field is spelled as the daemon spells it, or is one the daemon has no rule for. -/
def Field.spelled : Field → Bool
  | .text word _ | .limit word _ => daemonWords.any fun entry => entry.1 = word && entry.2.1 ≠ .alone
  | .number word _ => (daemonWords.any fun entry => entry.1 = word && entry.2.1 ≠ .alone) || word ∈ unreadWords
  | .flag word _ => daemonWords.any fun entry => entry.1 = word && entry.2.1 = .alone
  | .contactOn _ | .snmpVersion _ => true

theorem spelled_fieldsOf (host : Host) : ∀ field ∈ fieldsOf host, field.spelled = true := by
  have hdeps : ((depNames host).map (Field.text "dep")).all Field.spelled = true := by
    rw [List.all_map, List.all_eq_true]
    exact fun dep _ => rfl
  refine List.all_eq_true.mp ?_
  unfold fieldsOf
  rw [List.all_append, List.all_append, hdeps]
  rfl

/-- The value cannot end its statement early, and the statement has a value. -/
def Field.Harmless : Field → Prop
  | .text _ value => ';' ∉ value
  | .contactOn value => ';' ∉ value ∧ (value = [] ∨ q value ≠ [])
  | _ => True

theorem plain_word : ∀ e ∈ daemonWords, ';' ∉ e.1.toList ∧ '"' ∉ e.1.toList := by decide +kernel

namespace Statement

variable {s : Statement} {e : String × Form × Attr}

theorem entry_of_any (h : (daemonWords.any fun entry => entry.1 = s.word && decide (entry.2.1 = .alone) == s.isFlag) = true) :
    ∃ e, s.entry = some e := by
  rw [← Option.isSome_iff_exists]
  unfold entry
  rw [List.find?_isSome]
  exact List.any_eq_true.mp h

theorem word_plain (h : s.entry = some e) : ';' ∉ s.word.toList ∧ '"' ∉ s.word.toList :=
  entry_word h ▸ plain_word e (entry_mem h)

theorem ends_of_argument (h : s.entry = some e) (hsemicolon : ';' ∉ s.argument) (hne : s.isFlag = false → s.argument ≠ []) :
    s.Ends := by
  refine ⟨?_, hne⟩
  rw [s.text_eq, opening]
  have hword := (word_plain h).1
  split
  · exact hword
  · simp only [List.mem_append, List.mem_singleton, not_or]
    exact ⟨⟨hword, by decide⟩, hsemicolon⟩

/-- No quote in the text, or two and no line in between. -/
def Quiet : Statement → Prop
  | .flag word => '"' ∉ word.toList
  | .bare word value => '"' ∉ word.toList ∧ '"' ∉ value
  | .quoted word value => '"' ∉ word.toList ∧ '\n' ∉ value

theorem count_quoted {word : String} {value : CStr} (hword : '"' ∉ word.toList) :
    (quoted word value).text.count '"' = value.count '"' + 2 := by
  have hzero := List.count_eq_zero_of_not_mem hword
  have htext : (quoted word value).text = word.toList ++ [' '] ++ '"' :: value ++ ['"'] := rfl
  rw [htext]
  simp only [List.count_append, hzero, List.count_cons, List.count_nil]
  simp

theorem count_ne_one (hs : s.Quiet) : s.text.count '"' ≠ 1 := by
  cases s with
  | flag word =>
      have hzero : (flag word).text.count '"' = 0 := List.count_eq_zero_of_not_mem hs
      omega
  | bare word value =>
      have hzero : (bare word value).text.count '"' = 0 := by
        refine List.count_eq_zero_of_not_mem ?_
        change '"' ∉ word.toList ++ [' '] ++ value
        simp only [List.mem_append, List.mem_singleton, not_or]
        exact ⟨⟨hs.1, by decide⟩, hs.2⟩
      omega
  | quoted word value =>
      rw [count_quoted hs.1]
      omega

end Statement

namespace Field

/-- The statements of a field that is spelled right are quiet, and each has a rule or none to look for. -/
theorem quiet_statements {field : Field} (hspelled : field.spelled = true) : ∀ s ∈ field.statements, s.Quiet := by
  have hquoted : ∀ {word : String}, (daemonWords.any fun entry => entry.1 = word && entry.2.1 ≠ .alone) = true →
      '"' ∉ word.toList := by
    intro word h
    obtain ⟨e, he, hword⟩ := List.any_eq_true.mp h
    simp only [Bool.and_eq_true, decide_eq_true_eq] at hword
    exact hword.1 ▸ (plain_word e he).2
  intro s hs
  cases field with
  | text word value =>
      rw [statements] at hs
      split at hs
      · exact absurd hs List.not_mem_nil
      · obtain rfl := List.mem_singleton.mp hs
        exact ⟨hquoted hspelled, newline_not_mem_q value⟩
  | number word value =>
      rw [statements] at hs
      split at hs
      · obtain rfl := List.mem_singleton.mp hs
        refine ⟨?_, not_mem_showInt (by decide) value⟩
        obtain hknown | hunread := Bool.or_eq_true _ _ ▸ hspelled
        · exact hquoted hknown
        · exact (by decide : ∀ word ∈ unreadWords, '"' ∉ word.toList) word (of_decide_eq_true hunread)
      · exact absurd hs List.not_mem_nil
  | limit word value =>
      rw [statements] at hs
      split at hs
      · exact absurd hs List.not_mem_nil
      · obtain rfl := List.mem_singleton.mp hs
        exact ⟨hquoted hspelled, not_mem_showInt (by decide) value⟩
  | flag word value =>
      rw [statements] at hs
      split at hs
      · obtain rfl := List.mem_singleton.mp hs
        obtain ⟨e, he, hword⟩ := List.any_eq_true.mp hspelled
        simp only [Bool.and_eq_true, decide_eq_true_eq] at hword
        exact hword.1 ▸ (plain_word e he).2
      · exact absurd hs List.not_mem_nil
  | contactOn value =>
      rw [statements] at hs
      split at hs
      · exact absurd hs List.not_mem_nil
      · obtain rfl := List.mem_singleton.mp hs
        exact ⟨by decide, quote_not_mem_q value⟩
  | snmpVersion value =>
      rw [statements] at hs
      split at hs
      · obtain rfl := List.mem_singleton.mp hs
        exact ⟨by decide, by decide⟩
      · exact absurd hs List.not_mem_nil

end Field

namespace Statement

variable {s : Statement} {e : String × Form × Attr}

/-- A word with an argument is looked up among those that take one. -/
theorem entry_of_argument {word : String} (hword : s.word = word) (hflag : s.isFlag = false)
    (h : (daemonWords.any fun entry => entry.1 = word && entry.2.1 ≠ .alone) = true) : ∃ e, s.entry = some e := by
  refine entry_of_any ?_
  rw [hword, hflag, ← h]
  congr 1
  funext entry
  by_cases halone : entry.2.1 = .alone <;> simp [halone]

theorem entry_of_flag {word : String} (h : (daemonWords.any fun entry => entry.1 = word && entry.2.1 = .alone) = true) :
    ∃ e, (flag word).entry = some e := by
  refine entry_of_any ?_
  rw [← h]
  congr 1
  funext entry
  have hword : (flag word).word = word := rfl
  by_cases halone : entry.2.1 = .alone <;> simp [halone, hword, isFlag]

/-- A quiet statement that ends where it is meant to is read whole if there is a rule for it. -/
theorem read_quiet (h : s.entry = some e) (hs : s.Ends) (hquiet : s.Quiet) : s.Read :=
  ⟨e, h, fun rest => lex_line h hs rest fun _ hone => absurd hone (count_ne_one hquiet)⟩

end Statement

/-! ### Reading the fields -/

theorem argument_ne_nil_quoted (word : String) (value : CStr) : (Statement.quoted word value).argument ≠ [] :=
  List.cons_ne_nil _ _

theorem semicolon_quoted (word : String) {value : CStr} (h : ';' ∉ value) : ';' ∉ (Statement.quoted word value).argument := by
  change ';' ∉ '"' :: value ++ ['"']
  simp [h]

theorem showInt_ne_nil (n : Int) : showInt n ≠ [] := by
  change CText.showInt n ≠ []
  unfold CText.showInt
  split
  · exact List.cons_ne_nil _ _
  · exact CText.showNat_ne_nil _

theorem unread_entry {word : String} (hword : word ∈ unreadWords) {s : Statement} (hs : s.word = word) : s.token = [] := by
  have hnone : s.entry = none := by
    unfold Statement.entry
    rw [List.find?_eq_none]
    intro e he
    have hne := (by decide +kernel : ∀ word ∈ unreadWords, ∀ e ∈ daemonWords, e.1 ≠ word) word hword e he
    rw [hs]
    simp [hne]
  rw [Statement.token, hnone]
  rfl

/-- The statement of a harmless field is read whole, or not at all where there is no rule for it. -/
theorem read_field {field : Field} (hspelled : field.spelled = true) (hharmless : field.Harmless) {s : Statement}
    (hs : s ∈ field.statements) : s.Read ∨ ∃ word ∈ unreadWords, ∃ n, 0 < n ∧ s = .bare word (showInt n) := by
  have hquiet := Field.quiet_statements hspelled s hs
  cases field with
  | text word value =>
      rw [Field.statements] at hs
      split at hs
      · exact absurd hs List.not_mem_nil
      · obtain rfl := List.mem_singleton.mp hs
        obtain ⟨e, he⟩ := Statement.entry_of_argument (s := .quoted word (q value)) rfl rfl hspelled
        have hsemicolon := semicolon_quoted word fun hmem => hharmless (semicolon_mem_q.mp hmem)
        exact Or.inl (Statement.read_quiet he
          (Statement.ends_of_argument he hsemicolon fun _ => argument_ne_nil_quoted _ _) hquiet)
  | number word value =>
      rw [Field.statements] at hs
      split at hs
      · rename_i hpos
        obtain rfl := List.mem_singleton.mp hs
        by_cases hunread : word ∈ unreadWords
        · exact Or.inr ⟨word, hunread, value, hpos, rfl⟩
        · obtain hknown | hmem := Bool.or_eq_true _ _ ▸ hspelled
          · obtain ⟨e, he⟩ := Statement.entry_of_argument (s := .bare word (showInt value)) rfl rfl hknown
            exact Or.inl (Statement.read_quiet he
              (Statement.ends_of_argument he (not_mem_showInt (by decide) value) fun _ => showInt_ne_nil value) hquiet)
          · exact absurd (of_decide_eq_true hmem) hunread
      · exact absurd hs List.not_mem_nil
  | limit word value =>
      rw [Field.statements] at hs
      split at hs
      · exact absurd hs List.not_mem_nil
      · obtain rfl := List.mem_singleton.mp hs
        obtain ⟨e, he⟩ := Statement.entry_of_argument (s := .quoted word (showInt value)) rfl rfl hspelled
        have hsemicolon := semicolon_quoted word (not_mem_showInt (c := ';') (by decide) value)
        exact Or.inl (Statement.read_quiet he
          (Statement.ends_of_argument he hsemicolon fun _ => argument_ne_nil_quoted _ _) hquiet)
  | flag word value =>
      rw [Field.statements] at hs
      split at hs
      · obtain rfl := List.mem_singleton.mp hs
        obtain ⟨e, he⟩ := Statement.entry_of_flag hspelled
        exact Or.inl (Statement.read_quiet he
          (Statement.ends_of_argument he List.not_mem_nil fun h => absurd h Bool.noConfusion) hquiet)
      · exact absurd hs List.not_mem_nil
  | contactOn value =>
      rw [Field.statements] at hs
      split at hs
      · exact absurd hs List.not_mem_nil
      · rename_i hne
        obtain rfl := List.mem_singleton.mp hs
        have he : (Statement.bare "contact_on" (q value)).entry = some ("contact_on", .plain, .contactOn) := rfl
        exact Or.inl (Statement.read_quiet he (Statement.ends_of_argument he
          (fun hmem => hharmless.1 (semicolon_mem_q.mp hmem)) fun _ => hharmless.2.resolve_left hne) hquiet)
  | snmpVersion value =>
      rw [Field.statements] at hs
      split at hs
      · obtain rfl := List.mem_singleton.mp hs
        have he : (Statement.quoted "snmp-version" ['1']).entry = some ("snmp-version", .plain, .snmpVersion) := rfl
        exact Or.inl (Statement.read_quiet he
          (Statement.ends_of_argument he (by decide) fun _ => argument_ne_nil_quoted _ _) hquiet)
      · exact absurd hs List.not_mem_nil

theorem found_field {field : Field} (hspelled : field.spelled = true) (hharmless : field.Harmless) {s : Statement}
    (hs : s ∈ field.statements) (rest : CStr) : found (s.line ++ rest) = s.token ++ found rest := by
  obtain hread | ⟨word, hword, n, hn, rfl⟩ := read_field hspelled hharmless hs
  · exact hread.found rest
  · rw [Statement.found_line_unread hword hn, unread_entry hword rfl, List.nil_append]

/-- Statements that are read whole, one after the other, whatever comes next. -/
theorem found_lines {list : List Statement} (h : ∀ s ∈ list, ∀ rest, found (s.line ++ rest) = s.token ++ found rest)
    (rest : CStr) : found (list.flatMap Statement.line ++ rest) = list.flatMap Statement.token ++ found rest := by
  induction list with
  | nil => rfl
  | cons s list ih =>
      rw [List.flatMap_cons, List.flatMap_cons, List.append_assoc, List.append_assoc, h s List.mem_cons_self,
        ih fun other hother => h other (List.mem_cons_of_mem _ hother)]

/-! ### Quotes behind a statement -/

theorem opensLine_of_not_mem {text : CStr} (h : '\n' ∉ text) : opensLine text = false := by
  unfold opensLine
  refine decide_eq_false fun hhead => h ?_
  exact (List.dropWhile_suffix _).subset (List.mem_of_mem_head? hhead)

theorem line_eq (s : Statement) (rest : CStr) : s.line ++ rest = '\t' :: (s.text ++ ';' :: '\n' :: rest) := by
  unfold Statement.line
  simp

theorem opensAfter_of_not_mem {left : CStr} (h : '"' ∉ left) (rest : CStr) : opensAfter (left ++ rest) = opensAfter rest := by
  unfold opensAfter
  rw [CText.after_append_of_not_mem h]

theorem opensAfter_quote {left : CStr} (h : '"' ∉ left) (rest : CStr) : opensAfter (left ++ '"' :: rest) = opensLine rest := by
  unfold opensAfter
  rw [CText.after_append h]
  rfl

/-- The first quote in the line of a quoted statement is before its value. -/
theorem opensAfter_quoted {word : String} (hword : '"' ∉ word.toList) (value rest : CStr) :
    opensAfter ((Statement.quoted word value).line ++ rest) = opensLine value := by
  have hline : (Statement.quoted word value).line ++ rest =
      '\t' :: opening word ++ '"' :: (value ++ '"' :: ';' :: '\n' :: rest) := by
    rw [line_eq]
    simp [Statement.text]
  have hleft : '"' ∉ '\t' :: opening word := by
    rw [opening]
    simp [hword]
  rw [hline, opensAfter_quote hleft, opensLine_append_sep (by decide) (by decide)]

theorem opensAfter_quiet {s : Statement} (hs : s.Quiet) {rest : CStr} (hrest : opensAfter rest = false) :
    opensAfter (s.line ++ rest) = false := by
  have hplain : '"' ∉ s.text → opensAfter (s.line ++ rest) = false := by
    intro htext
    have hline : s.line ++ rest = '\t' :: s.text ++ [';', '\n'] ++ rest := by
      rw [line_eq]
      simp
    have hleft : '"' ∉ '\t' :: s.text ++ [';', '\n'] := by simp [htext]
    rw [hline, opensAfter_of_not_mem hleft, hrest]
  cases s with
  | flag word => exact hplain hs
  | bare word value =>
      refine hplain ?_
      change '"' ∉ word.toList ++ [' '] ++ value
      simp only [List.mem_append, List.mem_singleton, not_or]
      exact ⟨⟨hs.1, by decide⟩, hs.2⟩
  | quoted word value => rw [opensAfter_quoted hs.1, opensLine_of_not_mem hs.2]

theorem opensAfter_lines {list : List Statement} (h : ∀ s ∈ list, s.Quiet) {rest : CStr} (hrest : opensAfter rest = false) :
    opensAfter (list.flatMap Statement.line ++ rest) = false := by
  induction list with
  | nil => exact hrest
  | cons s list ih =>
      rw [List.flatMap_cons, List.append_assoc]
      exact opensAfter_quiet (h s List.mem_cons_self) (ih fun other hother => h other (List.mem_cons_of_mem _ hother))

/-! ### The block -/

theorem header_eq (host : Host) : header host = "object ".toList ++ host.hostname ++ [' '] ++ ['\x7b'] := by
  unfold header
  simp

theorem matches_header {host : Host} (hname : '\x7b' ∉ host.hostname) : objectPattern.Matches (header host) := by
  have hheader : header host = "object".toList ++ ((' ' :: host.hostname) ++ ([' '] ++ ['\x7b'])) := by
    rw [header_eq]
    simp
  rw [hheader]
  refine matches_append (matches_literal "object")
    ⟨_, _, rfl, ⟨List.cons_ne_nil _ _, fun c hc => decide_eq_true ?_⟩, [' '], ['\x7b'], rfl,
      ⟨List.cons_ne_nil _ _, by decide⟩, ['\x7b'], [], rfl, ⟨'\x7b', rfl, by decide⟩, rfl⟩
  rintro rfl
  obtain hc | hc := List.mem_cons.mp hc
  · exact absurd hc (by decide)
  · exact hname hc

/-- What else the rules have for the texts of a block, in one check. -/
def blockSettled : Bool :=
  settled (.token .object) '\x7b' "object".toList &&
    decide (found "\x7d;\n".toList = [(.token .close, "\x7d;".toList)]) &&
    knownRules.all fun rule => match rule.action with
      | .skip => rule.pattern.rejects ['o']
      | .token .object => rule.pattern.endsAt '\x7b'
      | .token (.attr attr) => rule.pattern.endsAt ';' &&
          (attr ≠ .type || rule.pattern.longest (opening "type" ++ [';']) = none) &&
          (attr ≠ .contactOn || rule.pattern.longest (opening "contact_on" ++ [';']) = none)
      | _ => true

theorem block_settled : blockSettled = true := by
  unfold blockSettled settled found lex rules
  rw [spelledRules.2]
  decide +kernel

theorem object_settled : settled (.token .object) '\x7b' "object".toList = true := by
  have hall := block_settled
  simp only [blockSettled, Bool.and_eq_true] at hall
  exact hall.1.1

theorem found_close : found "\x7d;\n".toList = [(.token .close, "\x7d;".toList)] := by
  have hall := block_settled
  simp only [blockSettled, Bool.and_eq_true, decide_eq_true_eq] at hall
  exact hall.1.2

section Rules

variable {rule : Flex.Rule Char Action} (hrule : rule ∈ knownRules)
include hrule

theorem rejects_of_skip (haction : rule.action = .skip) : rule.pattern.rejects ['o'] = true := by
  have hall := block_settled
  simp only [blockSettled, Bool.and_eq_true] at hall
  have hone := List.all_eq_true.mp hall.2 rule hrule
  rw [haction] at hone
  exact hone

/-- The rule of the header ends at the first brace, those of statements at the first semicolon. -/
theorem endsAt_of_object (haction : rule.action = .token .object) : rule.pattern.endsAt '\x7b' = true := by
  have hall := block_settled
  simp only [blockSettled, Bool.and_eq_true] at hall
  have hone := List.all_eq_true.mp hall.2 rule hrule
  rw [haction] at hone
  exact hone

theorem settled_of_attr {attr : Attr} (haction : rule.action = .token (.attr attr)) :
    rule.pattern.endsAt ';' = true ∧
      (attr = .type → rule.pattern.longest (opening "type" ++ [';']) = none) ∧
      (attr = .contactOn → rule.pattern.longest (opening "contact_on" ++ [';']) = none) := by
  have hall := block_settled
  simp only [blockSettled, Bool.and_eq_true] at hall
  have hone := List.all_eq_true.mp hall.2 rule hrule
  rw [haction] at hone
  simp only [Bool.and_eq_true, Bool.or_eq_true, decide_eq_true_eq] at hone
  exact ⟨hone.1.1, fun h => hone.1.2.resolve_left (not_not_intro h), fun h => hone.2.resolve_left (not_not_intro h)⟩

end Rules

/-- The header is read whole, unless a quote in the name is the first of two that a line ends behind. -/
theorem lex_header {host : Host} (hname : '\x7b' ∉ host.hostname) {rest : CStr}
    (hquiet : opensQuote ("object ".toList ++ host.hostname ++ [' ']) = true →
      ("object ".toList ++ host.hostname ++ [' ']).count '"' = 1 → opensAfter rest = false) :
    lex (header host ++ rest) = (.token .object, header host) :: lex rest := by
  have hmem : (⟨objectPattern, .token .object⟩ : Flex.Rule Char Action) ∈ knownRules := List.mem_of_getElem? (i := 25) rfl
  have hmatch := matches_header hname
  have hmunch := munch_settled '\x7b' "object".toList _ rest hmem (by decide)
    (header_eq host ▸ hmatch) ⟨' ' :: host.hostname ++ [' '] ++ '\x7b' :: rest, by simp⟩ object_settled
    fun _ hm => spawnDef_le separates_brace hquiet hm
  have hcons : header host = 'o' :: ("bject ".toList ++ host.hostname ++ [' '] ++ ['\x7b']) := header_eq host
  have hlength : ("object ".toList ++ host.hostname ++ [' ']).length =
      ("bject ".toList ++ host.hostname ++ [' '] ++ ['\x7b']).length := by simp
  have htext : "object ".toList ++ host.hostname ++ [' '] ++ '\x7b' :: rest =
      'o' :: ("bject ".toList ++ host.hostname ++ [' '] ++ ['\x7b']) ++ rest := by simp
  rw [htext, hlength] at hmunch
  rw [hcons]
  exact lex_append _ hmunch

/-- What is behind the first quote of the address, or of the type where there is no address, begins with the end of a
line. -/
def rawOpens (host : Host) : Bool :=
  if host.ip ≠ [] then opensLine host.ip else (writtenType host).any opensAfter

/-- The name begins with the only quote in it, and the next quote is the last thing on its line: the scanner takes what
is between the two for the command of a definition. -/
structure Straddles (host : Host) : Prop where
  opens : ((host.hostname.dropWhile isWS).head? = some '"')
  single : host.hostname.count '"' = 1
  closes : rawOpens host = true

/-- No value can end its statement early. -/
structure Contained (host : Host) : Prop where
  name : '\x7b' ∉ host.hostname
  quote : ¬Straddles host
  ip : ';' ∉ host.ip
  type : ∀ type ∈ writtenType host, ';' ∉ type ∧ type ≠ []
  fields : ∀ field ∈ fieldsOf host, field.Harmless

/-- What the daemon is to find: the header, the statements it has rules for, and the end of the block. -/
def ownTokens (host : Host) : List (Action × CStr) :=
  (.token .object, header host) :: (statements host).flatMap Statement.token ++ [(.token .close, "\x7d;".toList)]

/-- The text of the fields, with the end of the block. -/
def fieldLines (host : Host) : CStr := ((fieldsOf host).flatMap Field.statements).flatMap Statement.line ++ "\x7d;\n".toList

theorem generateHost_eq (host : Host) : generateHost host =
    header host ++ ('\n' :: ((ipStatement host.ip).flatMap Statement.line ++
      ((typeStatement host).flatMap Statement.line ++ fieldLines host))) := by
  unfold generateHost statements fieldLines
  simp

theorem opensAfter_fieldLines (host : Host) : opensAfter (fieldLines host) = false := by
  refine opensAfter_lines (fun s hs => ?_) (by decide)
  obtain ⟨field, hfield, hs⟩ := List.mem_flatMap.mp hs
  exact Field.quiet_statements (spelled_fieldsOf host field hfield) s hs

/-- Behind the header, the first quote that ends its line can only be that of a value that is written as it is. -/
theorem opensAfter_block (host : Host) :
    opensAfter ('\n' :: ((ipStatement host.ip).flatMap Statement.line ++
      ((typeStatement host).flatMap Statement.line ++ fieldLines host))) = rawOpens host := by
  have hnewline : '"' ∉ ['\n'] := by decide
  rw [← List.singleton_append, opensAfter_of_not_mem hnewline]
  unfold rawOpens
  by_cases hip : host.ip = []
  · rw [if_neg (by simpa using hip), hip]
    change opensAfter ((typeStatement host).flatMap Statement.line ++ fieldLines host) = _
    unfold typeStatement
    cases htype : writtenType host with
    | none => exact opensAfter_fieldLines host
    | some type =>
        have hline : (Statement.bare "type" type).line ++ fieldLines host =
            "\ttype ".toList ++ (type ++ ';' :: '\n' :: fieldLines host) := by
          rw [line_eq]
          simp [Statement.text, opening]
        have hword : '"' ∉ "\ttype ".toList := by decide
        simp only [Option.toList_some, List.map_singleton, List.flatMap_cons, List.flatMap_nil, List.append_nil]
        rw [hline, opensAfter_of_not_mem hword]
        by_cases hquote : '"' ∈ type
        · obtain ⟨before, behind, rfl, hbefore⟩ := List.eq_append_cons_of_mem hquote
          rw [List.append_assoc, List.cons_append, opensAfter_quote hbefore, opensLine_append_sep (by decide) (by decide)]
          exact (opensAfter_quote hbefore behind).symm
        · have hend : '"' ∉ [';', '\n'] := by decide
          have htail : type ++ ';' :: '\n' :: fieldLines host = type ++ ([';', '\n'] ++ fieldLines host) := rfl
          rw [htail, opensAfter_of_not_mem hquote, opensAfter_of_not_mem hend, opensAfter_fieldLines]
          have hnone := opensAfter_of_not_mem hquote []
          rw [List.append_nil] at hnone
          exact hnone.symm
  · rw [if_pos hip]
    unfold ipStatement
    rw [if_neg hip, List.flatMap_cons, List.flatMap_nil, List.append_nil, opensAfter_quoted (by decide)]

theorem opensQuote_header {name : CStr} (h : opensQuote ("object ".toList ++ name ++ [' ']) = true) :
    (name.dropWhile isWS).head? = some '"' := by
  have htext : "object ".toList ++ name ++ [' '] = "object".toList ++ ([' '] ++ (name ++ [' '])) := by simp
  have hword : ∀ c ∈ "object".toList, isWordChar c = true := by decide
  have hblank : ∀ c ∈ [' '], isWS c = true := by decide
  have hstop : ([' '] ++ (name ++ [' '])).dropWhile isWordChar = [' '] ++ (name ++ [' ']) :=
    List.dropWhile_cons_of_neg (by decide)
  unfold opensQuote at h
  rw [htext, List.dropWhile_append_of_pos hword, hstop, List.dropWhile_append_of_pos hblank] at h
  have hhead := of_decide_eq_true h
  cases hdrop : name.dropWhile isWS with
  | nil =>
      have hall : ∀ c ∈ name, isWS c = true := List.dropWhile_eq_nil_iff.mp hdrop
      rw [List.dropWhile_append_of_pos hall] at hhead
      exact absurd hhead (by decide)
  | cons c rest =>
      rw [List.dropWhile_append, hdrop] at hhead
      exact hhead

theorem count_header (name : CStr) : ("object ".toList ++ name ++ [' ']).count '"' = name.count '"' := by
  have hword : "object ".toList.count '"' = 0 := by decide
  have hblank : [' '].count '"' = 0 := by decide
  rw [List.count_append, List.count_append, hword, hblank]
  omega

/-- The daemon finds what it is to find. -/
theorem found_of_contained {host : Host} (h : Contained host) : found (generateHost host) = ownTokens host := by
  have hfields : found (fieldLines host) =
      ((fieldsOf host).flatMap Field.statements).flatMap Statement.token ++ [(.token .close, "\x7d;".toList)] := by
    rw [← found_close]
    refine found_lines (fun s hs rest => ?_) _
    obtain ⟨field, hfield, hs⟩ := List.mem_flatMap.mp hs
    exact found_field (spelled_fieldsOf host field hfield) (h.fields field hfield) hs rest
  have htype : found ((typeStatement host).flatMap Statement.line ++ fieldLines host) =
      (typeStatement host).flatMap Statement.token ++ found (fieldLines host) := by
    unfold typeStatement
    cases htype : writtenType host with
    | none => rfl
    | some type =>
        obtain ⟨hsemicolon, hne⟩ := h.type type htype
        have he : (Statement.bare "type" type).entry = some ("type", .ws, .type) := rfl
        have hnewline : '"' ∉ ['\n'] := by decide
        have hread := Statement.found_line he (Statement.ends_of_argument he hsemicolon fun _ => hne)
          (fieldLines host) fun _ _ => by
            rw [← List.singleton_append, opensAfter_of_not_mem hnewline, opensAfter_fieldLines]
        simpa using hread
  have hip : ∀ rest, found ((ipStatement host.ip).flatMap Statement.line ++ rest) =
      (ipStatement host.ip).flatMap Statement.token ++ found rest := by
    intro rest
    unfold ipStatement
    split
    · rfl
    · have he : (Statement.quoted "ip" host.ip).entry = some ("ip", .ws, .text .ip) := rfl
      have hends := Statement.ends_of_argument he (semicolon_quoted "ip" h.ip) fun _ => argument_ne_nil_quoted _ _
      have hcount : (Statement.quoted "ip" host.ip).text.count '"' = host.ip.count '"' + 2 :=
        Statement.count_quoted (by decide)
      have hread := Statement.found_line he hends rest fun _ hone => absurd hone (by omega)
      simpa using hread
  have hquiet : opensQuote ("object ".toList ++ host.hostname ++ [' ']) = true →
      ("object ".toList ++ host.hostname ++ [' ']).count '"' = 1 →
      opensAfter ('\n' :: ((ipStatement host.ip).flatMap Statement.line ++
        ((typeStatement host).flatMap Statement.line ++ fieldLines host))) = false := by
    intro hopens hone
    rw [opensAfter_block]
    refine eq_false_of_ne_true fun hcloses => h.quote ⟨opensQuote_header hopens, ?_, hcloses⟩
    rw [← count_header]
    exact hone
  rw [generateHost_eq, found_cons (by rfl) (lex_header h.name hquiet), found_newline, hip, htype, hfields]
  unfold ownTokens statements
  simp only [List.flatMap_append, List.append_assoc, List.cons_append]

/-! ### What a token tells -/

/-- A token has been matched by a rule of its action. -/
theorem found_sound {text : CStr} {token : Action × CStr} (h : token ∈ found text) :
    ∃ rule ∈ knownRules, rule.action = token.1 ∧ rule.pattern.Matches token.2 := by
  obtain ⟨hlex, hmeaningful⟩ := List.mem_filter.mp h
  have hknown : token.1 ≠ .unknown := by
    intro heq
    rw [heq] at hmeaningful
    contradiction
  obtain ⟨rule, hrule, haction, hmatch⟩ := scan_sound hlex hknown
  refine ⟨rule, ?_, haction, hmatch⟩
  by_contra hnot
  rw [Parser.eq_anyChar hrule hnot] at haction
  exact hknown haction.symm

theorem not_mem_of_token {text : CStr} {sep : Char} {pattern : Pattern Char} (hends : pattern.endsAt sep = true)
    (hmatch : pattern.Matches (text ++ [sep])) : sep ∉ text := by
  obtain ⟨first, last, heq, hfirst⟩ := not_mem_of_endsAt hends hmatch
  rw [List.append_inj_left' heq rfl]
  exact hfirst

theorem opensLine_split {text : CStr} (h : opensLine text = true) :
    ∃ blanks rest, text = blanks ++ '\n' :: rest ∧ ∀ c ∈ blanks, isWS c = true := by
  have hhead := of_decide_eq_true h
  cases hdrop : text.dropWhile isWS with
  | nil =>
      rw [hdrop] at hhead
      contradiction
  | cons c rest =>
      rw [hdrop] at hhead
      obtain rfl : c = '\n' := Option.some.inj hhead
      refine ⟨text.takeWhile isWS, rest, ?_, fun c hc => List.mem_takeWhile_imp hc⟩
      rw [← hdrop, List.takeWhile_append_dropWhile]

theorem opensAfter_split {text : CStr} (h : opensAfter text = true) :
    ∃ before blanks rest, text = before ++ '"' :: (blanks ++ '\n' :: rest) ∧ '"' ∉ before ∧ ∀ c ∈ blanks, isWS c = true := by
  by_cases hquote : '"' ∈ text
  · obtain ⟨before, behind, rfl, hbefore⟩ := List.eq_append_cons_of_mem hquote
    rw [opensAfter_quote hbefore] at h
    obtain ⟨blanks, rest, rfl, hblanks⟩ := opensLine_split h
    exact ⟨before, blanks, rest, rfl, hbefore, hblanks⟩
  · have hnone := opensAfter_of_not_mem hquote []
    rw [List.append_nil, h] at hnone
    exact absurd hnone (by decide)

/-- A name that begins with a quote, of which the other one ends a line, is taken for the command of a definition. -/
theorem spawnDef_of_straddles {host : Host} (h : Straddles host) {rest : CStr} (hrest : opensAfter rest = true) :
    ∃ m, spawnDefPattern.longest (header host ++ rest) = some m ∧ (header host).length < m := by
  obtain ⟨before, blanks', behind, rfl, hbefore, hblanks'⟩ := opensAfter_split hrest
  obtain ⟨y, hy⟩ : ∃ y, host.hostname.dropWhile isWS = '"' :: y := by
    have hopens := h.opens
    cases hdrop : host.hostname.dropWhile isWS with
    | nil =>
        rw [hdrop] at hopens
        contradiction
    | cons c y =>
        rw [hdrop] at hopens
        exact ⟨y, by rw [Option.some.inj hopens]⟩
  have hblanks : ∀ c ∈ host.hostname.takeWhile isWS, isWS c = true := fun c hc => List.mem_takeWhile_imp hc
  have hname : host.hostname = host.hostname.takeWhile isWS ++ '"' :: y := by
    rw [← hy, List.takeWhile_append_dropWhile]
  generalize host.hostname.takeWhile isWS = blanks at hblanks hname
  have hsingle : '"' ∉ y := by
    have hcount := h.single
    rw [hname, List.count_append, List.count_cons_self] at hcount
    exact List.count_eq_zero.mp (by omega)
  have hcommand : ∀ c ∈ y ++ [' ', '\x7b'] ++ before, decide (c ≠ '"') = true := by
    intro c hc
    refine decide_eq_true ?_
    rintro rfl
    simp [hsingle, hbefore] at hc
  have hword : spawnDefPattern.Matches ("object".toList ++ ((' ' :: blanks) ++ (['"'] ++
      ((y ++ [' ', '\x7b'] ++ before) ++ (['"'] ++ (blanks' ++ (['\n'] ++ []))))))) := by
    refine ⟨_, _, rfl, ⟨by decide, by decide⟩, _, _, rfl, ⟨List.cons_ne_nil _ _, ?_⟩, _, _, rfl, ⟨'"', rfl, by decide⟩, _, _,
      rfl, ⟨by simp, hcommand⟩, _, _, rfl, ⟨'"', rfl, by decide⟩, _, _, rfl, hblanks', _, _, rfl, ⟨'\n', rfl, by decide⟩, rfl⟩
    intro c hc
    obtain rfl | hc := List.mem_cons.mp hc
    · decide
    · exact hblanks c hc
  obtain ⟨m, hm, hle⟩ := (longest_spec spawnDefPattern).greedy _ behind hword
  refine ⟨m, ?_, ?_⟩
  · rw [← hm, header_eq, hname]
    congr 1
    simp
  · refine Nat.lt_of_lt_of_le ?_ hle
    rw [header_eq, hname]
    simp only [List.length_append, List.length_cons, List.length_nil]
    have hobject : "object ".toList.length = "object".toList.length + 1 := by decide
    omega

theorem length_le_of_longest {pattern : Pattern Char} {text : CStr} {n : Nat} (h : pattern.longest text = some n) :
    n ≤ text.length := by
  obtain ⟨word, rest, rfl, rfl, -⟩ := (longest_spec pattern).sound text n h
  rw [List.length_append]
  exact Nat.le_add_right _ _

section Necessary

variable {host : Host} (h : found (generateHost host) = ownTokens host)
include h

theorem semicolon_not_mem {s : Statement} (hs : s ∈ statements host) {e : String × Form × Attr} (he : s.entry = some e) :
    ';' ∉ s.text := by
  have hmem : (Action.token (.attr e.2.2), s.text ++ [';']) ∈ found (generateHost host) := by
    rw [h, ownTokens]
    refine List.mem_append_left _ (List.mem_cons_of_mem _ (List.mem_flatMap.mpr ⟨s, hs, ?_⟩))
    rw [Statement.token, he]
    exact List.mem_singleton_self _
  obtain ⟨rule, hrule, haction, hmatch⟩ := found_sound hmem
  exact not_mem_of_token (settled_of_attr hrule haction).1 hmatch

theorem name_of_found : '\x7b' ∉ host.hostname := by
  have hmem : (Action.token .object, header host) ∈ found (generateHost host) := by
    rw [h, ownTokens]
    exact List.mem_append_left _ List.mem_cons_self
  obtain ⟨rule, hrule, haction, hmatch⟩ := found_sound hmem
  rw [header_eq] at hmatch
  have hnot := not_mem_of_token (endsAt_of_object hrule haction) hmatch
  exact fun hname => hnot (by simp [hname])

theorem argument_of_found {s : Statement} (hs : s ∈ statements host) (hflag : s.isFlag = false) {e : String × Form × Attr}
    (he : s.entry = some e) : ';' ∉ s.argument := by
  have htext := semicolon_not_mem h hs he
  rw [s.text_eq, hflag, if_neg (by decide)] at htext
  exact fun hmem => htext (List.mem_append_right _ hmem)

omit h in
theorem mem_statements {field : Field} (hfield : field ∈ fieldsOf host) {s : Statement} (hs : s ∈ field.statements) :
    s ∈ statements host := List.mem_append_right _ (List.mem_flatMap.mpr ⟨field, hfield, hs⟩)

/-- A statement with nothing behind its word is not read by the rule of the word. -/
theorem argument_ne_nil {s : Statement} (hs : s ∈ statements host) {e : String × Form × Attr} (he : s.entry = some e)
    (hrules : ∀ rule ∈ knownRules, rule.action = .token (.attr e.2.2) → rule.pattern.longest (opening s.word ++ [';']) = none)
    (hflag : s.isFlag = false) : s.argument ≠ [] := by
  intro hnil
  have hmem : (Action.token (.attr e.2.2), s.text ++ [';']) ∈ found (generateHost host) := by
    rw [h, ownTokens]
    refine List.mem_append_left _ (List.mem_cons_of_mem _ (List.mem_flatMap.mpr ⟨s, hs, ?_⟩))
    rw [Statement.token, he]
    exact List.mem_singleton_self _
  obtain ⟨rule, hrule, haction, hmatch⟩ := found_sound hmem
  obtain ⟨n, hn, -⟩ := (longest_spec rule.pattern).greedy _ [] hmatch
  have htext : s.text ++ [';'] ++ [] = opening s.word ++ [';'] := by
    rw [s.text_eq, hflag, if_neg (by decide), hnil]
    simp
  dsimp only at hn
  rw [htext, hrules rule hrule haction] at hn
  exact nomatch hn

theorem ip_of_found : ';' ∉ host.ip := by
  by_cases hip : host.ip = []
  · rw [hip]
    exact List.not_mem_nil
  · have hs : Statement.quoted "ip" host.ip ∈ statements host := by
      unfold statements ipStatement
      rw [if_neg hip]
      simp
    have he : (Statement.quoted "ip" host.ip).entry = some ("ip", .ws, .text .ip) := rfl
    have hargument := argument_of_found h hs rfl he
    exact fun hmem => hargument (List.mem_append_left _ (List.mem_cons_of_mem _ hmem))

theorem type_of_found : ∀ type ∈ writtenType host, ';' ∉ type ∧ type ≠ [] := by
  intro type htype
  have hwritten : writtenType host = some type := htype
  have hs : Statement.bare "type" type ∈ statements host := by
    unfold statements typeStatement
    rw [hwritten]
    simp
  have he : (Statement.bare "type" type).entry = some ("type", .ws, .type) := rfl
  refine ⟨argument_of_found h hs rfl he, argument_ne_nil h hs he (fun rule hrule haction => ?_) rfl⟩
  exact (settled_of_attr hrule haction).2.1 rfl

theorem fields_of_found : ∀ field ∈ fieldsOf host, field.Harmless := by
  intro field hfield
  cases field with
  | text word value =>
      by_cases hnil : value = []
      · rw [hnil]
        exact List.not_mem_nil
      · have hs : Statement.quoted word (q value) ∈ (Field.text word value).statements := by
          rw [Field.statements, if_neg hnil]
          exact List.mem_singleton_self _
        obtain ⟨e, he⟩ := Statement.entry_of_argument (s := .quoted word (q value)) rfl rfl (spelled_fieldsOf host _ hfield)
        have hargument := argument_of_found h (mem_statements hfield hs) rfl he
        exact fun hmem => hargument (List.mem_append_left _ (List.mem_cons_of_mem _ (semicolon_mem_q.mpr hmem)))
  | contactOn value =>
      by_cases hnil : value = []
      · rw [hnil]
        exact ⟨List.not_mem_nil, Or.inl rfl⟩
      · have hs : Statement.bare "contact_on" (q value) ∈ (Field.contactOn value).statements := by
          rw [Field.statements, if_neg hnil]
          exact List.mem_singleton_self _
        have he : (Statement.bare "contact_on" (q value)).entry = some ("contact_on", .plain, .contactOn) := rfl
        have hargument := argument_of_found h (mem_statements hfield hs) rfl he
        refine ⟨fun hmem => hargument (semicolon_mem_q.mpr hmem), Or.inr ?_⟩
        refine argument_ne_nil h (mem_statements hfield hs) he (fun rule hrule haction => ?_) rfl
        exact (settled_of_attr hrule haction).2.2 rfl
  | number _ _ | limit _ _ | flag _ _ | snmpVersion _ => trivial

/-- A definition that begins with the name would be longer than the header. -/
theorem quote_of_found : ¬Straddles host := by
  intro hstraddles
  obtain ⟨rest, htext, hopens⟩ : ∃ rest, generateHost host = header host ++ rest ∧ opensAfter rest = true := by
    refine ⟨_, generateHost_eq host, ?_⟩
    rw [opensAfter_block]
    exact hstraddles.closes
  obtain ⟨m, hm, hlong⟩ := spawnDef_of_straddles hstraddles hopens
  obtain ⟨more, hmore⟩ : ∃ more, header host = 'o' :: more := ⟨_, header_eq host⟩
  rw [hmore] at hlong
  rw [hmore, List.cons_append] at htext
  rw [hmore, List.cons_append] at hm
  obtain ⟨m, rfl⟩ := Nat.exists_eq_add_one_of_ne_zero (Nat.ne_of_gt (Nat.lt_of_le_of_lt (Nat.zero_le _) hlong))
  have hspawn : (⟨spawnDefPattern, .token .spawnDef⟩ : Flex.Rule Char Action) ∈ rules :=
    List.mem_append_left _ (List.mem_of_getElem? (i := 24) rfl)
  obtain ⟨taken, htaken, haction, hlongest, hle⟩ := munch_of_match Action.unknown hspawn hm
  have hknown : taken ∈ knownRules := by
    by_contra hnot
    rw [Parser.eq_anyChar htaken hnot] at hlongest
    have hone := Parser.longest_anyChar hlongest
    rw [List.length_cons] at hlong
    omega
  have hskip : taken.action ≠ .skip := by
    intro hskip
    have hnone := longest_of_rejects (rejects_of_skip hknown hskip) (more ++ rest)
    exact absurd (hnone.symm.trans hlongest) (by simp)
  have hmeaningful : meaningful taken.action = true := by
    simp [meaningful, hskip, Parser.action_knownRules taken hknown]
  have hlex : lex ('o' :: (more ++ rest)) = (taken.action, 'o' :: (more ++ rest).take (munch rules .unknown
      ('o' :: (more ++ rest))).2) :: (lex ('o' :: (more ++ rest))).tail := by
    rw [haction]
    rfl
  have hfirst : (taken.action, 'o' :: (more ++ rest).take (munch rules .unknown ('o' :: (more ++ rest))).2) =
      (Action.token .object, header host) := by
    have hfound := h
    rw [htext, found, hlex, List.filter_cons, if_pos hmeaningful] at hfound
    exact (List.cons.inj hfound).1
  have hlength := congrArg (fun token => token.2.length) hfirst
  rw [hmore] at hlength
  simp only [List.length_cons, List.length_take, List.length_append] at hlength hlong
  have hfits := length_le_of_longest hlongest
  simp only [List.length_cons, List.length_append] at hfits
  omega

end Necessary

/-- The daemon finds the block of the host, and nothing else, exactly when no value can end its statement early. -/
theorem found_generateHost_iff (host : Host) : found (generateHost host) = ownTokens host ↔ Contained host := by
  constructor
  · intro h
    exact ⟨name_of_found h, quote_of_found h, ip_of_found h, type_of_found h, fields_of_found h⟩
  · intro h
    exact found_of_contained h

/-- A note with a semicolon in it is the end of a statement and the beginning of the next. -/
theorem reverse_out_of_notes : ¬∀ host : Host, found (generateHost host) = ownTokens host := by
  intro h
  have hone := h { newHost ['a'] with notes := "a;reverse;".toList }
  revert hone
  decide +kernel

end Sysmon.Config
