import Sysmon.Lib.Flex
import Sysmon.Parser.Rules

/-!
# The scanner

The rules of `parser.l` in their order, as patterns with what their actions come to: a token for the
rest of the parser, a setting that the parser itself never reads again, an include, nothing at all,
or, for the rule at the end that takes any character, a complaint. A setting is kept with what its
rule wants to find in the text: a rule that does not find it says so and carries on. An alternative
such as `(dep|parent)` is two rules.
-/

namespace Sysmon.Parser

open CText Flex

/-- What the rule of a setting asks of the text it has matched. -/
inductive Wants where
  | nothing
  | quotes
  /-- In quotes, the name of a syslog facility. -/
  | facility
  /-- After the last space, a number that is not less than this one. -/
  | atLeast (least : Int32)
  /-- After the last space, a number other than -1. -/
  | number
  deriving DecidableEq, Repr

inductive Action where
  | skip
  | token (rule : Rule)
  | setting (wants : Wants)
  | includeFile
  | unknown
  deriving DecidableEq, Repr

/-! ### Patterns -/

def literal (text : String) : Pattern Char := text.toList.map fun c => ⟨(· = c), .one⟩

def isWS (c : Char) : Bool := c = '\t' || c = ' '

/-- `{WS}`. -/
def oneWS : Pattern Char := [⟨isWS, .one⟩]

/-- `{WS}*;`. -/
def ending : Pattern Char := [⟨isWS, .star⟩, ⟨(· = ';'), .one⟩]

/-- `[^;]+`. -/
def value : Pattern Char := [⟨(· ≠ ';'), .plus⟩]

/-- `word\ [^;]+{WS}*;`. -/
def directiveWS (word : String) : Pattern Char := literal (word ++ " ") ++ value ++ ending

/-- `word\ [^;]+;`. -/
def directive (word : String) : Pattern Char := literal (word ++ " ") ++ value ++ literal ";"

def isWordChar (c : Char) : Bool := c.isAlpha || c.isDigit || c = '_'

/-- `[a-zA-Z0-9_]+{WS}+\"[^\"]+\"{WS}*\n`. -/
def spawnDefPattern : Pattern Char :=
  [⟨isWordChar, .plus⟩, ⟨isWS, .plus⟩, ⟨(· = '"'), .one⟩, ⟨(· ≠ '"'), .plus⟩, ⟨(· = '"'), .one⟩,
    ⟨isWS, .star⟩, ⟨(· = '\n'), .one⟩]

/-- `object[^\x7b]+{WS}+\x7b`. -/
def objectPattern : Pattern Char :=
  literal "object" ++ [⟨(· ≠ '\x7b'), .plus⟩, ⟨isWS, .plus⟩, ⟨(· = '\x7b'), .one⟩]

/-- `root*[^;]+{WS}*;`: the star is on the last letter. -/
def rootPattern : Pattern Char := literal "roo" ++ [⟨(· = 't'), .star⟩] ++ value ++ ending

/-! ### The rules -/

def attrRule (pattern : Pattern Char) (attr : Attr) : Flex.Rule Char Action :=
  ⟨pattern, .token (.attr attr)⟩

def settingRule (pattern : Pattern Char) (wants : Wants) : Flex.Rule Char Action :=
  ⟨pattern, .setting wants⟩

/-- All rules but the last. -/
def knownRules : List (Flex.Rule Char Action) :=
  [⟨[⟨fun c => c = ';' || c = '#', .one⟩, ⟨(· ≠ '\n'), .star⟩, ⟨(· = '\n'), .one⟩], .skip⟩,
    ⟨[⟨isWS, .plus⟩], .skip⟩,
    ⟨literal "\n", .skip⟩,
    ⟨literal "set" ++ [⟨isWS, .plus⟩] ++ value ++ ending, .token .set⟩,
    ⟨directiveWS "include", .includeFile⟩,
    attrRule (literal "reverse" ++ ending) (.flag .reverse),
    attrRule (literal "trap_alert" ++ ending) (.flag .trapAlert),
    attrRule (literal "snmp-octets" ++ ending) (.flag .snmpOctets),
    settingRule (literal "config" ++ oneWS ++ literal "snmp-trap" ++ ending) .nothing,
    settingRule (literal "config showupalso" ++ ending) .nothing,
    settingRule (literal "config nologconnects" ++ ending) .nothing,
    settingRule (literal "config" ++ oneWS ++ literal "noheartbeat" ++ ending) .nothing,
    settingRule (literal "config" ++ oneWS ++ literal "nosubject" ++ ending) .nothing,
    settingRule (literal "config" ++ oneWS ++ literal "statusfile" ++ oneWS ++ literal "html" ++
      oneWS ++ value ++ ending) .quotes,
    settingRule (directiveWS "config statusfile text") .quotes,
    settingRule (literal "config" ++ oneWS ++ literal "statustempdir" ++ oneWS ++ value ++ ending)
      .quotes,
    settingRule (literal "config" ++ oneWS ++ literal "cssfile" ++ oneWS ++ value ++ ending) .quotes,
    settingRule (literal "config logging file" ++ ending) .nothing,
    settingRule (directiveWS "config logging file") .quotes,
    settingRule (directiveWS "config logging syslog") .facility,
    settingRule (directiveWS "config pidfile") .quotes,
    settingRule (directiveWS "config date") .quotes,
    ⟨rootPattern, .token .root⟩,
    ⟨literal "spawns" ++ [⟨isWS, .plus⟩, ⟨(· = '\x7b'), .one⟩], .token .spawns⟩,
    ⟨spawnDefPattern, .token .spawnDef⟩,
    ⟨objectPattern, .token .object⟩,
    attrRule (directiveWS "ip") (.text .ip),
    attrRule (directiveWS "type") .type,
    settingRule (directiveWS "config html refresh") (.atLeast 1),
    attrRule (directiveWS "config queuetime") .queuetime,
    settingRule (directiveWS "config dnsexpire") .number,
    settingRule (directiveWS "config dnslog") .number,
    attrRule (directive "config pageinterval") .pageinterval,
    settingRule (directive "config maxqueued") .number,
    attrRule (directive "config numfailures") .numfailures,
    settingRule (directive "config minnumfailures") (.atLeast 1),
    settingRule (directive "config flaptime") (.atLeast 0),
    settingRule (directive "config pmesg") .quotes,
    attrRule (directive "pmesg") (.text .pmesg),
    settingRule (directive "config from") .quotes,
    settingRule (directive "config sender") .quotes,
    settingRule (directive "config subject") .quotes,
    settingRule (directive "config upcolor") .quotes,
    settingRule (directive "config downcolor") .quotes,
    settingRule (directive "config recentcolor") .quotes,
    settingRule (directive "config replyto") .quotes,
    settingRule (directive "config errorsto") .quotes,
    settingRule (directive "config header") .quotes,
    settingRule (directive "config aggregator") .quotes,
    settingRule (directive "config aggregator-token") .quotes,
    settingRule (directive "config listen") .nothing,
    settingRule (directive "config statedir") .quotes,
    settingRule (directive "config generation-dir") .quotes,
    settingRule (directive "config aggregator-ca") .quotes,
    ⟨directive "config sitename", .token .sitename⟩,
    settingRule (directive "config sitedesc") .quotes,
    settingRule (directive "config authkey") .quotes,
    settingRule (directive "config savestate") .quotes,
    attrRule (directive "port") .port,
    attrRule (directive "pktloss_tolerance") (.knob .pktlossTolerance),
    attrRule (directive "rtt_threshold") (.knob .rttThreshold),
    attrRule (directive "jitter_threshold") (.knob .jitterThreshold),
    attrRule (directive "rtt_samples") (.knob .rttSamples),
    attrRule (directive "rtt_interval") (.knob .rttInterval),
    attrRule (directive "desc") (.text .desc),
    attrRule (directive "group") (.text .group),
    attrRule (directive "dns-query") (.text .dnsQuery),
    attrRule (literal "dns-aa" ++ ending) (.flag .dnsAa),
    attrRule (literal "dns-recursion" ++ ending) (.flag .dnsRecursion),
    attrRule (directive "secret") (.text .secret),
    attrRule (directive "url") (.text .url),
    attrRule (directive "urltext") (.text .urltext),
    attrRule (directive "password") (.text .password),
    attrRule (directive "username") (.text .username),
    attrRule (directive "community") (.text .community),
    attrRule (directive "oid") (.text .oid),
    attrRule (directive "snmp-oid-sec") (.text .snmpOidSec),
    attrRule (directive "snmp-version") .snmpVersion,
    attrRule (directive "snmp-type") .snmpType,
    attrRule (directive "snmp-high") (.limit .high),
    attrRule (directive "snmp-low") (.limit .low),
    attrRule (directive "snmp-rate") (.limit .rate),
    attrRule (directive "snmp-exact") (.limit .exact),
    attrRule (directive "spawn") (.text .spawn),
    attrRule (directive "contact_on") .contactOn,
    attrRule (directive "contact") (.text .contact),
    settingRule (directive "child") .quotes,
    attrRule (directive "dep") .dep,
    attrRule (directive "parent") .dep,
    settingRule (directive "page") .quotes,
    settingRule (directive "also-notify") .quotes,
    ⟨literal "\x7d" ++ ending, .token .close⟩]

/-- `.`: any character but a newline. -/
def anyChar : Flex.Rule Char Action := ⟨[⟨(· ≠ '\n'), .one⟩], .unknown⟩

def rules : List (Flex.Rule Char Action) := knownRules ++ [anyChar]

/-- The scanner over one file. -/
def lex (text : CStr) : List (Action × CStr) := scan rules .unknown text.length text

/-- Nothing of the file is passed over in silence. -/
theorem flatten_lex (text : CStr) : ((lex text).map Prod.snd).flatten = text :=
  flatten_scan rules .unknown (Nat.le_refl _)

/-! ### Text that no rule recognises -/

theorem longest_anyChar {c : Char} {text : CStr} {n : Nat}
    (h : anyChar.pattern.longest (c :: text) = some n) : n = 1 := by
  simp only [anyChar, Pattern.longest, oneThen] at h
  split at h
  · exact (Option.some.inj h).symm
  · exact absurd h (by simp)

theorem action_knownRules : ∀ rule ∈ knownRules, rule.action ≠ .unknown := by decide

theorem eq_anyChar {rule : Flex.Rule Char Action} (h : rule ∈ rules) (hknown : rule ∉ knownRules) :
    rule = anyChar := by
  obtain hmem | hmem := List.mem_append.mp h
  · exact absurd hmem hknown
  · exact List.mem_singleton.mp hmem

/-- Every rule before the catch-all that has something to match is preferred to it. -/
theorem before_anyChar {before after : List (Flex.Rule Char Action)}
    (h : rules = before ++ anyChar :: after) : ∀ rule ∈ knownRules, rule ∈ before := by
  have hnot : anyChar ∉ knownRules := fun hmem => action_knownRules anyChar hmem rfl
  intro rule hrule
  have hlast : anyChar :: after = [anyChar] := by
    obtain ⟨rest, -, hrest⟩ | ⟨rest, hsplit, hrest⟩ := List.append_eq_append_iff.mp h
    · exact (List.append_eq_singleton_iff.mp hrest.symm).elim (fun heq => heq.2)
        fun heq => absurd heq.2 (List.cons_ne_nil _ _)
    · cases rest with
      | nil => exact hrest
      | cons first rest =>
          obtain ⟨rfl, -⟩ := List.cons.inj hrest
          exact absurd (hsplit ▸ List.mem_append_right before List.mem_cons_self) hnot
  rw [hlast] at h
  exact List.append_cancel_right h ▸ hrule

/-- A character is unknown exactly where no other rule matches anything that starts with it. -/
theorem munch_unknown_iff (c : Char) (text : CStr) :
    (munch rules .unknown (c :: text)).1 = .unknown ↔
      ∀ rule ∈ knownRules, ∀ word rest, c :: text = word ++ rest → word ≠ [] →
        ¬ rule.pattern.Matches word := by
  constructor
  · intro h rule hrule word rest htext hne hmatch
    obtain ⟨n, hn, hle⟩ := (longest_spec rule.pattern).greedy word rest hmatch
    rw [← htext] at hn
    have hpos : 0 < n := Nat.lt_of_lt_of_le (List.length_pos_iff.mpr hne) hle
    cases hchoose : choose rules (c :: text) with
    | none =>
        have hnone := choose_none hchoose rule (List.mem_append_left _ hrule)
        exact absurd (hnone.symm.trans hn) (by simp)
    | some best =>
        obtain ⟨m, taken⟩ := best
        obtain ⟨before, after, hchosen⟩ := choose_spec hchoose
        have htaken : taken ∈ rules := hchosen.split ▸ (by simp)
        have hnm : n ≤ m := hchosen.le (List.mem_append_left _ hrule) hn
        by_cases hknown : taken ∈ knownRules
        · cases m with
          | zero => exact absurd hnm (Nat.not_le_of_gt hpos)
          | succ m =>
              rw [munch, hchoose] at h
              exact action_knownRules taken hknown h
        · -- the catch-all comes last, so it is taken only for want of a match of any length
          obtain rfl := eq_anyChar htaken hknown
          have hone : m = 1 := longest_anyChar hchosen.here
          have hless := hchosen.less rule (before_anyChar hchosen.split rule hrule) n hn
          rw [hone] at hless
          exact absurd hpos (Nat.not_lt.mpr (Nat.le_of_lt_succ hless))
  · intro h
    rw [munch]
    split
    case h_2 => rfl
    case h_1 n taken hchoose =>
      obtain ⟨before, after, hchosen⟩ := choose_spec hchoose
      have htaken : taken ∈ rules := hchosen.split ▸ (by simp)
      have hknown : taken ∉ knownRules := by
        intro hknown
        obtain ⟨word, rest, htext, hlen, hmatch⟩ :=
          (longest_spec taken.pattern).sound (c :: text) (n + 1) hchosen.here
        refine h taken hknown word rest htext ?_ hmatch
        exact List.ne_nil_of_length_pos (hlen ▸ Nat.succ_pos n)
      rw [eq_anyChar htaken hknown]
      rfl

end Sysmon.Parser
