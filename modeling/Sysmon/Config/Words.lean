import Mathlib.Tactic.IntervalCases
import Sysmon.Config.Tokens

/-!
# Statements before the daemon's scanner

A statement of `GenerateHost` is read by the rule of its word, as far as its first semicolon. A word without a rule goes
by, one character at a time, up to the semicolon, which is then taken for a comment.
-/

namespace Sysmon.Config

open Flex
open GoBytes (showInt)
open Sysmon.Parser (Action Attr StrCell Limit Knob Flag lex rules knownRules literal value ending directive directiveWS attrRule
  isWS)

/-! ### The words -/

/-- How the rule of a word goes on: with a value, and blanks before the semicolon or not, or with the semicolon. -/
inductive Form where
  | ws
  | plain
  | alone
  deriving DecidableEq, Repr

def Form.pattern (word : String) : Form → Pattern Char
  | .ws => directiveWS word
  | .plain => directive word
  | .alone => literal word ++ ending

/-- The words of `GenerateHost` for which the daemon has a rule, in the order of its rules. -/
def daemonWords : List (String × Form × Attr) :=
  [("reverse", .alone, .flag .reverse),
    ("trap_alert", .alone, .flag .trapAlert),
    ("snmp-octets", .alone, .flag .snmpOctets),
    ("ip", .ws, .text .ip),
    ("type", .ws, .type),
    ("pmesg", .plain, .text .pmesg),
    ("port", .plain, .port),
    ("pktloss_tolerance", .plain, .knob .pktlossTolerance),
    ("rtt_threshold", .plain, .knob .rttThreshold),
    ("jitter_threshold", .plain, .knob .jitterThreshold),
    ("rtt_samples", .plain, .knob .rttSamples),
    ("rtt_interval", .plain, .knob .rttInterval),
    ("desc", .plain, .text .desc),
    ("group", .plain, .text .group),
    ("dns-query", .plain, .text .dnsQuery),
    ("dns-aa", .alone, .flag .dnsAa),
    ("dns-recursion", .alone, .flag .dnsRecursion),
    ("secret", .plain, .text .secret),
    ("url", .plain, .text .url),
    ("urltext", .plain, .text .urltext),
    ("password", .plain, .text .password),
    ("username", .plain, .text .username),
    ("community", .plain, .text .community),
    ("oid", .plain, .text .oid),
    ("snmp-oid-sec", .plain, .text .snmpOidSec),
    ("snmp-version", .plain, .snmpVersion),
    ("snmp-type", .plain, .snmpType),
    ("snmp-high", .plain, .limit .high),
    ("snmp-low", .plain, .limit .low),
    ("snmp-rate", .plain, .limit .rate),
    ("snmp-exact", .plain, .limit .exact),
    ("spawn", .plain, .text .spawn),
    ("contact_on", .plain, .contactOn),
    ("contact", .plain, .text .contact),
    ("dep", .plain, .dep)]

/-- Those for which it has none. -/
def unreadWords : List String := ["queuetime", "numfailures", "pageinterval"]

def ruleOf (entry : String × Form × Attr) : Flex.Rule Char Action := attrRule (entry.2.1.pattern entry.1) entry.2.2

theorem ruleOf_known : ∀ entry ∈ daemonWords, ruleOf entry ∈ knownRules := by
  have hrules : daemonWords.map ruleOf =
      ([5, 6, 7, 26, 27, 38] ++ List.range' 58 28 ++ [87]).filterMap (knownRules[·]?) := rfl
  intro entry hentry
  have hmem : ruleOf entry ∈ daemonWords.map ruleOf := List.mem_map.mpr ⟨entry, hentry, rfl⟩
  rw [hrules, List.mem_filterMap] at hmem
  obtain ⟨index, -, hindex⟩ := hmem
  exact List.mem_of_getElem? hindex

theorem matches_literal (word : String) : Pattern.Matches (literal word) word.toList := by
  have hlist : ∀ chars : List Char, Pattern.Matches (chars.map fun c => ⟨(· = c), .one⟩) chars := by
    intro chars
    induction chars with
    | nil => rfl
    | cons c chars ih => exact ⟨[c], chars, rfl, ⟨c, rfl, decide_eq_true rfl⟩, ih⟩
  exact hlist word.toList

theorem matches_value {text : CStr} (hne : text ≠ []) (htext : ';' ∉ text) : Pattern.Matches value text := by
  refine ⟨text, [], (List.append_nil _).symm, ⟨hne, fun c hc => decide_eq_true ?_⟩, rfl⟩
  rintro rfl
  exact htext hc

theorem matches_ending : Pattern.Matches ending [';'] :=
  ⟨[], [';'], rfl, fun _ h => absurd h List.not_mem_nil, [';'], [], rfl, ⟨';', rfl, by decide⟩, rfl⟩

/-- What the scanner needs to see of a statement to know its rule. -/
def Statement.start (e : String × Form × Attr) : CStr := if e.2.1 = .alone then e.1.toList ++ [';'] else opening e.1

/-- No rule but that of the `spawns` block has anything for the rest of the word, wherever one begins in it. -/
def unread : CStr → Bool
  | [] => true
  | c :: word =>
      (knownRules.all fun rule => rule.pattern.rejects (c :: word ++ [' ']) || rule.action = .token .spawnDef) && unread word

/-- What the table of the rules has for each word and for digits, in one check. -/
def wordsSettled : Bool :=
  (daemonWords.all fun e => settled (.token (.attr e.2.2)) ';' (Statement.start e) && (ruleOf e).pattern.endsAt ';') &&
    (unreadWords.all fun word => unread word.toList) &&
    ['0', '1', '2', '3', '4', '5', '6', '7', '8', '9'].all fun d =>
      knownRules.all fun rule => rule.pattern.rejects [d] || rule.action = .token .spawnDef

theorem words_settled : wordsSettled = true := by
  simp only [wordsSettled, unreadWords, List.all_cons, List.all_nil, String.reduceToList, unread]
  unfold settled
  rw [spelledRules.2]
  decide +kernel

theorem unread_unreadWords : ∀ word ∈ unreadWords, unread word.toList = true := by
  have hall := words_settled
  simp only [wordsSettled, Bool.and_eq_true] at hall
  exact List.all_eq_true.mp hall.1.2

theorem digits_settled : ∀ d ∈ ['0', '1', '2', '3', '4', '5', '6', '7', '8', '9'],
    (knownRules.all fun rule => rule.pattern.rejects [d] || rule.action = .token .spawnDef) = true := by
  have hall := words_settled
  simp only [wordsSettled, Bool.and_eq_true] at hall
  exact List.all_eq_true.mp hall.2

namespace Statement

def word : Statement → String
  | .flag word | .bare word _ | .quoted word _ => word

def isFlag : Statement → Bool
  | .flag _ => true
  | _ => false

/-- What is behind the word. -/
def argument : Statement → CStr
  | .flag _ => []
  | .bare _ value => value
  | .quoted _ value => '"' :: value ++ ['"']

/-- The daemon's rule for a statement. -/
def entry (s : Statement) : Option (String × Form × Attr) :=
  daemonWords.find? fun entry => entry.1 = s.word && decide (entry.2.1 = .alone) == s.isFlag

/-- What the daemon is to read of a statement: all of it, where there is a rule for it. -/
def token (s : Statement) : List (Action × CStr) :=
  s.entry.toList.map fun entry => (.token (.attr entry.2.2), s.text ++ [';'])

/-- The statement ends where it is meant to: there is no semicolon in it, and something behind its word. -/
structure Ends (s : Statement) : Prop where
  semicolon : ';' ∉ s.text
  argument : s.isFlag = false → s.argument ≠ []

theorem text_eq (s : Statement) : s.text = if s.isFlag then s.word.toList else opening s.word ++ s.argument := by
  cases s with
  | flag word => rfl
  | bare word value => rfl
  | quoted word value => exact List.append_assoc _ _ _

variable {s : Statement} {e : String × Form × Attr}

theorem entry_mem (h : s.entry = some e) : e ∈ daemonWords := List.mem_of_find?_eq_some h

theorem entry_word (h : s.entry = some e) : e.1 = s.word := by
  have hfound := List.find?_some h
  simp only [Bool.and_eq_true, decide_eq_true_eq] at hfound
  exact hfound.1

theorem entry_form (h : s.entry = some e) : s.isFlag = decide (e.2.1 = .alone) := by
  have hfound := List.find?_some h
  simp only [Bool.and_eq_true, beq_iff_eq] at hfound
  exact hfound.2.symm

theorem settled_of_word : ∀ e ∈ daemonWords,
    settled (.token (.attr e.2.2)) ';' (start e) = true ∧ (ruleOf e).pattern.endsAt ';' = true := by
  have hall := words_settled
  simp only [wordsSettled, Bool.and_eq_true] at hall
  intro e he
  have hone := List.all_eq_true.mp hall.1.1 e he
  rwa [Bool.and_eq_true] at hone

theorem start_settled : ∀ e ∈ daemonWords, settled (.token (.attr e.2.2)) ';' (start e) = true :=
  fun e he => (settled_of_word e he).1

theorem endsAt_ruleOf : ∀ e ∈ daemonWords, (ruleOf e).pattern.endsAt ';' = true := fun e he => (settled_of_word e he).2

theorem start_begins (h : s.entry = some e) (rest : CStr) : start e <+: s.text ++ ';' :: rest := by
  unfold start
  rw [s.text_eq, entry_form h, entry_word h]
  by_cases halone : e.2.1 = .alone
  · rw [if_pos halone, if_pos (decide_eq_true halone)]
    exact ⟨rest, by simp⟩
  · rw [if_neg halone, if_neg (by simpa using halone), List.append_assoc]
    exact List.prefix_append _ _

theorem matches_ruleOf (h : s.entry = some e) (hs : s.Ends) : (ruleOf e).pattern.Matches (s.text ++ [';']) := by
  obtain ⟨word, form, attr⟩ := e
  have hword : word = s.word := entry_word h
  have hform := entry_form h
  have hsemicolon := hs.semicolon
  rw [s.text_eq, ← hword] at hsemicolon ⊢
  change Pattern.Matches (form.pattern word) _
  cases form with
  | alone =>
      rw [if_pos (by rw [hform]; rfl)]
      exact matches_append (matches_literal word) matches_ending
  | ws =>
      have hflag : s.isFlag = false := by rw [hform]; rfl
      rw [hflag, if_neg (by decide)] at hsemicolon ⊢
      have hvalue := matches_value (hs.argument hflag) fun hmem => hsemicolon (List.mem_append_right _ hmem)
      have hliteral := matches_literal (word ++ " ")
      rw [String.toList_append] at hliteral
      exact matches_append (matches_append hliteral hvalue) matches_ending
  | plain =>
      have hflag : s.isFlag = false := by rw [hform]; rfl
      rw [hflag, if_neg (by decide)] at hsemicolon ⊢
      have hvalue := matches_value (hs.argument hflag) fun hmem => hsemicolon (List.mem_append_right _ hmem)
      have hliteral := matches_literal (word ++ " ")
      rw [String.toList_append] at hliteral
      exact matches_append (matches_append hliteral hvalue) (matches_literal ";")

theorem munch_text (h : s.entry = some e) (hs : s.Ends) {rest : CStr}
    (hquiet : opensQuote s.text = true → s.text.count '"' = 1 → opensAfter rest = false) :
    munch rules .unknown (s.text ++ ';' :: rest) = (.token (.attr e.2.2), s.text.length) :=
  munch_settled _ _ _ _ (ruleOf_known e (entry_mem h)) (endsAt_ruleOf e (entry_mem h)) (matches_ruleOf h hs) (start_begins h rest)
    (start_settled e (entry_mem h)) fun _ hm => spawnDef_le separates_semicolon hquiet hm

/-- The words begin with a letter. -/
theorem head_word : ∀ word ∈ daemonWords.map Prod.fst ++ unreadWords, ∃ c rest, word.toList = c :: rest ∧ isWS c = false := by
  have hheads : ∀ word ∈ daemonWords.map Prod.fst ++ unreadWords, word.toList.head?.any (fun c => !isWS c) = true := by
    decide +kernel
  intro word hword
  have hhead := hheads word hword
  cases hlist : word.toList with
  | nil =>
      rw [hlist] at hhead
      exact absurd hhead Bool.false_ne_true
  | cons c rest =>
      rw [hlist] at hhead
      exact ⟨c, rest, rfl, by simpa using hhead⟩

theorem head_text (h : s.word ∈ daemonWords.map Prod.fst ++ unreadWords) :
    ∃ c rest, s.text = c :: rest ∧ isWS c = false := by
  obtain ⟨c, rest, hword, hc⟩ := head_word s.word h
  rw [s.text_eq]
  split
  · exact ⟨c, rest, hword, hc⟩
  · refine ⟨c, rest ++ [' '] ++ s.argument, ?_, hc⟩
    rw [opening, hword]
    simp

/-- A statement with a rule is read as a whole, and what is behind its line is read next. -/
theorem lex_line (h : s.entry = some e) (hs : s.Ends) (rest : CStr)
    (hquiet : opensQuote s.text = true → s.text.count '"' = 1 → opensAfter ('\n' :: rest) = false) :
    lex (s.line ++ rest) =
      (.skip, ['\t']) :: (.token (.attr e.2.2), s.text ++ [';']) :: (.skip, ['\n']) :: lex rest := by
  have hword : s.word ∈ daemonWords.map Prod.fst ++ unreadWords :=
    List.mem_append_left _ (List.mem_map.mpr ⟨e, entry_mem h, entry_word h⟩)
  obtain ⟨c, text, htext, hc⟩ := head_text hword
  have hmunch := munch_text h hs hquiet
  have hline : s.line ++ rest = '\t' :: (c :: (text ++ [';']) ++ '\n' :: rest) := by
    unfold line
    rw [htext]
    simp
  have hlength : s.text.length = (text ++ [';']).length := by
    rw [htext]
    simp
  have hbody : s.text ++ ';' :: '\n' :: rest = c :: (text ++ [';']) ++ '\n' :: rest := by
    rw [htext]
    simp
  rw [hbody, hlength] at hmunch
  rw [hline, List.cons_append, lex_blank rfl hc, ← List.cons_append, lex_append _ hmunch, lex_newline, htext]
  rfl

/-- The scanner reads the statement as a whole, with the rule of its word. -/
def Read (s : Statement) : Prop :=
  ∃ e, s.entry = some e ∧ ∀ rest, lex (s.line ++ rest) =
    (.skip, ['\t']) :: (.token (.attr e.2.2), s.text ++ [';']) :: (.skip, ['\n']) :: lex rest

theorem found_line (h : s.entry = some e) (hs : s.Ends) (rest : CStr)
    (hquiet : opensQuote s.text = true → s.text.count '"' = 1 → opensAfter ('\n' :: rest) = false) :
    found (s.line ++ rest) = s.token ++ found rest := by
  unfold found token
  rw [lex_line h hs rest hquiet, h]
  rfl

theorem Read.found (h : s.Read) (rest : CStr) : found (s.line ++ rest) = s.token ++ found rest := by
  obtain ⟨e, hentry, hlex⟩ := h
  unfold Config.found token
  rw [hlex, hentry]
  rfl

end Statement

/-! ### Statements without a rule -/

/-- Where only the rule of the `spawns` block is left, and no quote comes before a semicolon, no rule matches. -/
theorem longest_none {start text rest : CStr} (hquote : '"' ∉ text) (hstart : start <+: text ++ ';' :: rest)
    (h : (knownRules.all fun rule => rule.pattern.rejects start || rule.action = .token .spawnDef) = true) :
    ∀ rule ∈ knownRules, rule.pattern.longest (text ++ ';' :: rest) = none := by
  intro rule hrule
  have hone := List.all_eq_true.mp h rule hrule
  simp only [Bool.or_eq_true, decide_eq_true_eq] at hone
  obtain hrejects | haction := hone
  · obtain ⟨tail, htail⟩ := hstart
    rw [← htail]
    exact longest_of_rejects hrejects tail
  · rw [pattern_of_spawnDef hrule haction]
    exact spawnDef_none separates_semicolon hquote rest

theorem longest_unread {c : Char} {word argument : CStr} (rest : CStr)
    (hword : unread (c :: word) = true) (hquote : '"' ∉ c :: word ++ ' ' :: argument) :
    ∀ rule ∈ knownRules, rule.pattern.longest (c :: word ++ ' ' :: argument ++ ';' :: rest) = none := by
  rw [unread, Bool.and_eq_true] at hword
  have hstart : c :: word ++ [' '] <+: c :: word ++ ' ' :: argument ++ ';' :: rest := ⟨argument ++ ';' :: rest, by simp⟩
  exact longest_none hquote hstart hword.1

theorem found_unread {word argument rest : CStr} (hword : unread word = true) (hquote : '"' ∉ word ++ ' ' :: argument) :
    found (word ++ ' ' :: argument ++ ';' :: rest) = found (' ' :: argument ++ ';' :: rest) := by
  induction word with
  | nil => rfl
  | cons c word ih =>
      have hnone := longest_unread rest hword hquote
      rw [unread, Bool.and_eq_true] at hword
      rw [← ih hword.2 fun hmem => hquote (List.mem_cons_of_mem _ hmem)]
      exact found_skip (by decide) (lex_unknown hnone)

theorem mem_of_isDigit {c : Char} (h : c.isDigit = true) : c ∈ ['0', '1', '2', '3', '4', '5', '6', '7', '8', '9'] := by
  have hbounds : 48 ≤ c.toNat ∧ c.toNat ≤ 57 := by
    simp only [Char.isDigit, Bool.and_eq_true, decide_eq_true_eq] at h
    exact h
  obtain ⟨hlow, hhigh⟩ := hbounds
  rw [← Char.ofNat_toNat c]
  generalize c.toNat = n at hlow hhigh
  interval_cases n <;> decide

theorem found_digits {text rest : CStr} (h : ∀ c ∈ text, c.isDigit = true) :
    found (text ++ ';' :: rest) = found (';' :: rest) := by
  induction text with
  | nil => rfl
  | cons c text ih =>
      have hrest : ∀ d ∈ text, d.isDigit = true := fun d hd => h d (List.mem_cons_of_mem _ hd)
      have hquote : '"' ∉ c :: text := fun hmem => absurd (h _ hmem) (by decide)
      have hc := mem_of_isDigit (h c List.mem_cons_self)
      have hstart : [c] <+: c :: text ++ ';' :: rest := ⟨text ++ ';' :: rest, rfl⟩
      have hnone := longest_none hquote hstart (digits_settled c hc)
      rw [← ih hrest]
      exact found_skip (by decide) (lex_unknown hnone)

namespace Statement

/-- A number behind a word without a rule, as the scanner sees its line. -/
theorem line_unread {word : String} (hword : word ∈ unreadWords) {n : Int} (hn : 0 < n) (rest : CStr) :
    ∃ c start d more, word.toList = c :: start ∧ isWS c = false ∧ isWS d = false ∧
      (∀ e ∈ d :: more, e.isDigit = true) ∧ '"' ∉ c :: start ++ ' ' :: (d :: more) ∧
      (Statement.bare word (showInt n)).line ++ rest =
        '\t' :: (c :: start ++ ' ' :: (d :: more) ++ ';' :: '\n' :: rest) := by
  have hdigits : showInt n = CText.showNat n.natAbs := if_neg (by omega)
  obtain ⟨c, start, hstart, hc⟩ := head_word word (List.mem_append_right _ hword)
  obtain ⟨d, more, hmore, hd⟩ := CText.showNat_eq_cons n.natAbs
  have hall : ∀ e ∈ d :: more, e.isDigit = true := fun e he => CText.isDigit_of_mem_showNat (hmore ▸ he)
  have hquote : '"' ∉ c :: start ++ ' ' :: (d :: more) := by
    intro hmem
    obtain hmem | hmem := List.mem_append.mp hmem
    · exact absurd (hstart ▸ hmem) ((by decide : ∀ word ∈ unreadWords, '"' ∉ word.toList) word hword)
    · obtain hmem | hmem := List.mem_cons.mp hmem
      · contradiction
      · exact absurd (hall _ hmem) (by decide)
  have hblank : isWS d = false := by
    have hnot : ∀ e ∈ ['0', '1', '2', '3', '4', '5', '6', '7', '8', '9'], isWS e = false := by decide
    exact hnot d (mem_of_isDigit hd)
  have htext : (Statement.bare word (showInt n)).text = word.toList ++ [' '] ++ showInt n := rfl
  refine ⟨c, start, d, more, hstart, hc, hblank, hall, hquote, ?_⟩
  rw [line, htext, hdigits, hmore, hstart]
  simp

/-- Such a statement goes by as a whole, its semicolon included. -/
theorem found_line_unread {word : String} (hword : word ∈ unreadWords) {n : Int} (hn : 0 < n) (rest : CStr) :
    found ((Statement.bare word (showInt n)).line ++ rest) = found rest := by
  obtain ⟨c, start, d, more, hstart, hc, hblank, hall, hquote, hline⟩ := line_unread hword hn rest
  have hunread : unread (c :: start) = true := hstart ▸ unread_unreadWords word hword
  rw [hline, List.cons_append, List.cons_append, found_skip (by decide) (lex_blank rfl hc _), ← List.cons_append,
    ← List.cons_append, found_unread hunread hquote, List.cons_append, List.cons_append,
    found_skip (by decide) (lex_blank rfl hblank _), ← List.cons_append, found_digits hall,
    found_skip (by decide) (lex_comment rest)]

end Statement

end Sysmon.Config
