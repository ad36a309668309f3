import Sysmon.Agents.Alerts
import Sysmon.Config.Words
import Sysmon.Fleet.Saves
import Sysmon.Lib.GoQuote
import Sysmon.Parser.Files

/-!
# The configuration of a new box

`AgentConfigBlock` writes the lines that a new monitoring box needs to find its server, for a person to paste into the
configuration of its daemon. A label is free text, and is bent until it fits between two quotes; the other values are
taken as they are.
-/

namespace Sysmon.Config

open Flex
open Agents (GoString validSiteName)
open Fleet (ascii bytesText)
open Sysmon.Parser (Action lex rules knownRules directive literal cstring validSitename isWS isWordChar
  spawnDefPattern)

/-! ### The server -/

/-- A byte of a label, as far as it is a character of its own. -/
def fitByte (b : UInt8) : UInt8 :=
  if b = 34 then 39 else if b = 59 then 44 else if b < 32 ∨ b = 127 then 32 else b

def fitForConfig (s : GoString) : GoString := Alerts.trimSpace ((GoText.jsonText s).map fitByte)

/-- `fmt.Fprintf` of a directive with its value. -/
def directiveLine (words : String) (value : GoString) : GoString := ascii words ++ 34 :: value ++ ascii "\";\n"

def agentConfigBlock (isPrint : GoString → Bool) (site label dial token : GoString) : GoString :=
  let label := fitForConfig label
  let label := if label = [] then site else label
  ascii "# sysmond -> sysmon-web, for site " ++ GoText.quote isPrint site ++ ascii ".\n" ++
    directiveLine "config sitename  " site ++ directiveLine "config sitedesc  " label ++
    directiveLine "config aggregator " dial ++ directiveLine "config aggregator-token " token

/-! ### The daemon -/

/-- What a rule of `parser.l` has to complain about. -/
inductive Complaint where
  | missingQuotes
  | misbalancedQuotes
  | sitename (name : CStr)
  | unknown (text : CStr)
  deriving DecidableEq, Repr

/-- What the daemon has read: the variables `parser_sitename`, `parser_sitedesc`, `parser_aggregator` and
`parser_agg_token`, `badconfig`, what other rules have matched, and the complaints. -/
structure Lexed where
  sitename : Option CStr
  sitedesc : Option CStr
  aggregator : Option CStr
  aggToken : Option CStr
  badconfig : Bool
  others : List (Action × CStr)
  complaints : List Complaint
  deriving DecidableEq, Repr

/-- The value between the quotes, as all of these rules look for it. -/
def quotedValue (yytext : CStr) : Except Complaint CStr :=
  match CText.after '"' yytext with
  | none => .error .missingQuotes
  | some behind =>
      match CText.upTo '"' behind with
      | none => .error .misbalancedQuotes
      | some value => .ok value

/-- A rule that sets something to its value, or says why it does not. -/
def Lexed.assign (g : Lexed) (set : CStr → Lexed) (yytext : CStr) : Lexed :=
  match quotedValue yytext with
  | .error complaint => { g with complaints := g.complaints ++ [complaint] }
  | .ok value => set value

/-- What is known of the rules for a setting by their words. -/
def siteSettings : List (String × (Lexed → CStr → Lexed)) :=
  [("config aggregator", fun g value => { g with aggregator := some value }),
    ("config aggregator-token", fun g value => { g with aggToken := some value }),
    ("config sitedesc", fun g value => { g with sitedesc := some value })]

/-- The rule for `config sitename`. -/
def setSitename (g : Lexed) (value : CStr) : Lexed :=
  if validSitename value then { g with sitename := some value }
  else { g with badconfig := true, complaints := g.complaints ++ [.sitename value] }

/-- What a rule does that has matched a text. Which of the settings it is, is seen from the words it begins with. -/
def Lexed.step (g : Lexed) (found : Action × CStr) : Lexed :=
  match found.1 with
  | .skip => g
  | .token .sitename => g.assign (setSitename g) (cstring found.2)
  | .setting _ =>
      match siteSettings.find? fun row => (row.1 ++ " ").toList.isPrefixOf found.2 with
      | some row => g.assign (row.2 g) (cstring found.2)
      | none => { g with others := g.others ++ [found] }
  | .unknown => { g with complaints := g.complaints ++ [.unknown found.2] }
  | _ => { g with others := g.others ++ [found] }

def Lexed.read (g : Lexed) (text : CStr) : Lexed := (lex text).foldl Lexed.step g

/-! ### A line of the block -/

/-- The words of the block, with what their rules are. -/
def blockWords : List (String × Action) :=
  [("config sitename", .token .sitename), ("config sitedesc", .setting .quotes), ("config aggregator", .setting .quotes),
    ("config aggregator-token", .setting .quotes)]

def isSetting : Action → Bool
  | .setting _ => true
  | _ => false

/-- The places of the rules for the three settings in the table. -/
def settingPlaces : List (String × Nat) :=
  [("config aggregator", 48), ("config aggregator-token", 49), ("config sitedesc", 55)]

/-- What the table of the rules has for the words and for a comment, in one check. -/
def agentWordsSettled : Bool :=
  settled .skip '\n' ['#'] &&
    (blockWords.all fun e => settled e.2 ';' (e.1 ++ " ").toList && (directive e.1).endsAt ';') &&
    settingPlaces.all fun place => (knownRules.take place.2 ++ knownRules.drop (place.2 + 1)).all fun rule =>
      !isSetting rule.action || rule.pattern.rejects (place.1 ++ " ").toList

theorem agentWords_settled : agentWordsSettled = true := by
  unfold agentWordsSettled settled
  rw [spelledRules.2]
  decide +kernel

theorem settled_comment : settled .skip '\n' ['#'] = true := by
  have hall := agentWords_settled
  simp only [agentWordsSettled, Bool.and_eq_true] at hall
  exact hall.1.1

theorem settled_blockWords : ∀ e ∈ blockWords,
    settled e.2 ';' (e.1 ++ " ").toList = true ∧ (directive e.1).endsAt ';' = true := by
  have hall := agentWords_settled
  simp only [agentWordsSettled, Bool.and_eq_true] at hall
  intro e he
  exact Bool.and_eq_true_iff.mp (List.all_eq_true.mp hall.1.2 e he)

theorem rule_of_blockWords : ∀ e ∈ blockWords, (⟨directive e.1, e.2⟩ : Flex.Rule Char Action) ∈ knownRules := by
  have hrules : blockWords.map (fun e => (⟨directive e.1, e.2⟩ : Flex.Rule Char Action)) =
      [54, 55, 48, 49].filterMap (knownRules[·]?) := rfl
  intro e he
  have hmem := List.mem_map_of_mem (f := fun e : String × Action => (⟨directive e.1, e.2⟩ : Flex.Rule Char Action)) he
  rw [hrules, List.mem_filterMap] at hmem
  obtain ⟨index, -, hindex⟩ := hmem
  exact List.mem_of_getElem? hindex

/-- None of the words is that of a definition in a `spawns` block. -/
theorem opensQuote_blockWords : ∀ e ∈ blockWords, ∀ value : CStr, opensQuote ((e.1 ++ " ").toList ++ value) = false := by
  intro e he value
  have hcut : ∀ e ∈ blockWords, ∃ c rest,
      (e.1 ++ " ").toList = "config ".toList ++ c :: rest ∧ isWS c = false ∧ c ≠ '"' := by
    intro e he
    simp only [blockWords, List.mem_cons, List.not_mem_nil, or_false] at he
    obtain rfl | rfl | rfl | rfl := he
    · exact ⟨_, _, rfl, by decide, by decide⟩
    · exact ⟨_, _, rfl, by decide, by decide⟩
    · exact ⟨_, _, rfl, by decide, by decide⟩
    · exact ⟨_, _, rfl, by decide, by decide⟩
  obtain ⟨c, rest, hword, hblank, hquote⟩ := hcut e he
  have hname : ("config ".toList ++ c :: rest ++ value).dropWhile isWordChar = ' ' :: (c :: rest ++ value) := rfl
  rw [hword, opensQuote, hname, List.dropWhile_cons_of_pos (by decide), List.cons_append,
    List.dropWhile_cons_of_neg (by simp [hblank])]
  simp [hquote]

/-- What is taken as far as a separator. -/
theorem lex_upTo {a : Action} {text : CStr} {sep : Char} {rest : CStr} (hne : text ≠ [])
    (h : munch rules .unknown (text ++ sep :: rest) = (a, text.length)) :
    lex (text ++ sep :: rest) = (a, text ++ [sep]) :: lex rest := by
  obtain ⟨c, word, rfl⟩ := List.exists_cons_of_ne_nil hne
  have hlex := @lex_append a c (word ++ [sep]) rest
  simp only [List.cons_append, List.append_assoc, List.nil_append, List.length_append, List.length_cons,
    List.length_nil] at hlex h ⊢
  exact hlex h

/-- A comment goes by. -/
theorem lex_hash {text : CStr} (htext : '\n' ∉ text) (rest : CStr) :
    lex ('#' :: text ++ '\n' :: rest) = (.skip, '#' :: text ++ ['\n']) :: lex rest := by
  have hmem : (⟨[⟨fun c => c = ';' || c = '#', .one⟩, ⟨(· ≠ '\n'), .star⟩, ⟨(· = '\n'), .one⟩], .skip⟩ :
      Flex.Rule Char Action) ∈ knownRules := List.mem_of_getElem? (i := 0) rfl
  have hspawn : ∀ m, spawnDefPattern.longest ('#' :: text ++ '\n' :: rest) = some m → m ≤ ('#' :: text).length := by
    intro m hm
    have hrejects : spawnDefPattern.rejects ['#'] = true := by decide
    have hnone := longest_of_rejects hrejects (text ++ '\n' :: rest)
    exact absurd (hnone.symm.trans hm) (by simp)
  have hother : ∀ c ∈ text, decide (c ≠ '\n') = true := fun c hc => decide_eq_true fun heq => htext (heq ▸ hc)
  have hmatch : Pattern.Matches [⟨fun c => c = ';' || c = '#', .one⟩, ⟨(· ≠ '\n'), .star⟩, ⟨(· = '\n'), .one⟩]
      ('#' :: text ++ ['\n']) :=
    ⟨['#'], text ++ ['\n'], rfl, ⟨'#', rfl, by decide⟩, text, ['\n'], rfl, hother, ['\n'], [], rfl,
      ⟨'\n', rfl, by decide⟩, rfl⟩
  exact lex_upTo (List.cons_ne_nil _ _)
    (munch_settled '\n' ['#'] ('#' :: text) rest hmem (by decide) hmatch ⟨_, rfl⟩ settled_comment hspawn)

variable {e : String × Action} {value : CStr}

/-- A line is read as a whole, and what is behind it is read next. -/
theorem lex_directive (he : e ∈ blockWords) (hne : value ≠ []) (hvalue : ';' ∉ value) (rest : CStr) :
    lex ((e.1 ++ " ").toList ++ value ++ ';' :: '\n' :: rest) =
      (e.2, (e.1 ++ " ").toList ++ value ++ [';']) :: (.skip, ['\n']) :: lex rest := by
  obtain ⟨hsettled, hends⟩ := settled_blockWords e he
  have hmatch : Pattern.Matches (directive e.1) ((e.1 ++ " ").toList ++ value ++ [';']) :=
    matches_append (matches_append (matches_literal _) (matches_value hne hvalue)) (matches_literal ";")
  have hquiet : opensQuote ((e.1 ++ " ").toList ++ value) = true →
      ((e.1 ++ " ").toList ++ value).count '"' = 1 → opensAfter ('\n' :: rest) = false :=
    fun hquote => absurd (hquote.symm.trans (opensQuote_blockWords e he value)) (by decide)
  have hmunch := munch_settled ';' (e.1 ++ " ").toList ((e.1 ++ " ").toList ++ value) ('\n' :: rest)
    (rule_of_blockWords e he) hends hmatch ⟨_, (List.append_assoc _ _ _).symm⟩ hsettled
    fun m hm => spawnDef_le separates_semicolon hquiet hm
  rw [lex_upTo (fun heq => hne (List.append_eq_nil_iff.mp heq).2) hmunch, lex_newline]

/-! ### A value -/

/-- What can stand between the quotes: nothing that ends the value, the directive, or the text the C functions see. -/
structure Fits (value : CStr) : Prop where
  quote : '"' ∉ value
  semicolon : ';' ∉ value
  nul : '\x00' ∉ value

/-- A line of the block without its end. -/
def blockLine (words : String) (blanks value : CStr) : CStr :=
  (words ++ " ").toList ++ (blanks ++ '"' :: value ++ ['"']) ++ [';']

theorem cstring_of_not_mem {text : CStr} (h : '\x00' ∉ text) : cstring text = text := by
  rw [cstring, List.takeWhile_eq_self_iff]
  exact fun c hc => decide_eq_true fun heq => h (heq ▸ hc)

/-- The words and the blanks before the first quote. -/
structure Opens (e : String × Action) (blanks : CStr) : Prop where
  word : e ∈ blockWords
  quote : '"' ∉ (e.1 ++ " ").toList ++ blanks
  semicolon : ';' ∉ blanks
  nul : '\x00' ∉ (e.1 ++ " ").toList ++ blanks

variable {blanks : CStr} {g : Lexed}

theorem quotedValue_blockLine (ho : Opens e blanks) (hv : Fits value) :
    quotedValue (cstring (blockLine e.1 blanks value)) = .ok value := by
  have hsplit : blockLine e.1 blanks value = (e.1 ++ " ").toList ++ blanks ++ '"' :: (value ++ '"' :: [';']) := by
    simp [blockLine]
  have hnul : '\x00' ∉ blockLine e.1 blanks value := by
    rw [hsplit]
    intro hmem
    obtain hmem | hmem := List.mem_append.mp hmem
    · exact ho.nul hmem
    · simp [hv.nul] at hmem
  rw [cstring_of_not_mem hnul, hsplit, quotedValue, CText.after_append ho.quote]
  simp only [CText.upTo_append hv.quote]

theorem read_blockLine (ho : Opens e blanks) (hv : ';' ∉ value) (rest : CStr) :
    g.read (blockLine e.1 blanks value ++ '\n' :: rest) = (g.step (e.2, blockLine e.1 blanks value)).read rest := by
  have hne : blanks ++ '"' :: value ++ ['"'] ≠ [] := by simp
  have hsemicolon : ';' ∉ blanks ++ '"' :: value ++ ['"'] := by
    simp [ho.semicolon, hv]
  have hlex := lex_directive ho.word hne hsemicolon rest
  have hline : blockLine e.1 blanks value ++ '\n' :: rest =
      (e.1 ++ " ").toList ++ (blanks ++ '"' :: value ++ ['"']) ++ ';' :: '\n' :: rest := by
    simp [blockLine]
  rw [Lexed.read, hline, hlex]
  rfl

theorem step_setting {row : String × (Lexed → CStr → Lexed)} {wants : Parser.Wants}
    (ho : Opens (e.1, .setting wants) blanks) (hv : Fits value)
    (hrow : siteSettings.find? (fun row => (row.1 ++ " ").toList.isPrefixOf (blockLine e.1 blanks value)) = some row) :
    g.step (.setting wants, blockLine e.1 blanks value) = row.2 g value := by
  have hquoted := quotedValue_blockLine ho hv
  simp only [Lexed.step, hrow, Lexed.assign, hquoted]

theorem step_sitename (ho : Opens (e.1, .token .sitename) blanks) (hv : Fits value) (hvalid : validSitename value = true) :
    g.step (.token .sitename, blockLine e.1 blanks value) = { g with sitename := some value } := by
  have hquoted := quotedValue_blockLine ho hv
  simp only [Lexed.step, Lexed.assign, hquoted, setSitename, hvalid, if_true]

/-! ### The values of the block -/

theorem mem_bytesText {c : Char} {b : UInt8} (hc : Char.ofNat b.toNat = c) (hb : UInt8.ofNat c.toNat = b) {s : GoString} :
    c ∈ bytesText s ↔ b ∈ s := by
  constructor
  · intro hmem
    have hbyte := List.mem_map_of_mem (f := fun c : Char => UInt8.ofNat c.toNat) hmem
    rwa [← Fleet.textBytes, Fleet.textBytes_bytesText, hb] at hbyte
  · intro hmem
    exact hc ▸ List.mem_map_of_mem hmem

theorem fits_bytesText {s : GoString} : Fits (bytesText s) ↔ 34 ∉ s ∧ 59 ∉ s ∧ 0 ∉ s := by
  have hquote : '"' ∈ bytesText s ↔ 34 ∈ s := mem_bytesText (by decide) (by decide)
  have hsemicolon : ';' ∈ bytesText s ↔ 59 ∈ s := mem_bytesText (by decide) (by decide)
  have hnul : '\x00' ∈ bytesText s ↔ 0 ∈ s := mem_bytesText (by decide) (by decide)
  rw [← hquote, ← hsemicolon, ← hnul]
  exact ⟨fun h => ⟨h.quote, h.semicolon, h.nul⟩, fun h => ⟨h.1, h.2.1, h.2.2⟩⟩

/-- A label that has been bent fits. -/
theorem fits_fitForConfig (label : GoString) : Fits (bytesText (fitForConfig label)) := by
  have hbyte : ∀ n < 256, fitByte (UInt8.ofNat n) ≠ 34 ∧ fitByte (UInt8.ofNat n) ≠ 59 ∧ fitByte (UInt8.ofNat n) ≠ 0 := by
    decide +kernel
  have hfit : ∀ b : UInt8, fitByte b ≠ 34 ∧ fitByte b ≠ 59 ∧ fitByte b ≠ 0 := fun b => by
    have h := hbyte b.toNat (UInt8.toNat_lt b)
    rwa [UInt8.ofNat_toNat] at h
  have hmem : ∀ b ∈ fitForConfig label, ∃ b', fitByte b' = b := by
    intro b hb
    have hmap := (GoSpace.Spaces.trimSpace_part _).subset hb
    obtain ⟨b', -, heq⟩ := List.mem_map.mp hmap
    exact ⟨b', heq⟩
  refine fits_bytesText.mpr ⟨fun h => ?_, fun h => ?_, fun h => ?_⟩
  · obtain ⟨b, hb⟩ := hmem _ h
    exact (hfit b).1 hb
  · obtain ⟨b, hb⟩ := hmem _ h
    exact (hfit b).2.1 hb
  · obtain ⟨b, hb⟩ := hmem _ h
    exact (hfit b).2.2 hb

theorem isSiteChar_of_valid {site : GoString} (h : validSiteName site = true) {b : UInt8} (hb : b ∈ site) :
    Agents.isSiteChar b = true := by
  rw [validSiteName, Bool.and_eq_true] at h
  exact List.all_eq_true.mp h.2 b hb

theorem fits_site {site : GoString} (h : validSiteName site = true) : Fits (bytesText site) :=
  fits_bytesText.mpr ⟨fun hmem => absurd (isSiteChar_of_valid h hmem) (by decide),
    fun hmem => absurd (isSiteChar_of_valid h hmem) (by decide), fun hmem => absurd (isSiteChar_of_valid h hmem) (by decide)⟩

/-- So does what stands for a label. -/
theorem fits_label {site : GoString} (h : validSiteName site = true) (label : GoString) :
    Fits (bytesText (if fitForConfig label = [] then site else fitForConfig label)) := by
  split
  · exact fits_site h
  · exact fits_fitForConfig label

/-- The daemon takes every name that the server takes. -/
theorem validSitename_bytesText {site : GoString} (h : validSiteName site = true) :
    validSitename (bytesText site) = true := by
  have hchar : ∀ n < 256, Agents.isSiteChar (UInt8.ofNat n) = true → (let c := Char.ofNat n
      ('a' ≤ c && c ≤ 'z') || ('A' ≤ c && c ≤ 'Z') || ('0' ≤ c && c ≤ '9') || c = '-' || c = '_') = true := by
    decide +kernel
  have hne : site ≠ [] := by
    rintro rfl
    exact absurd h (by decide)
  rw [validSitename, Bool.and_eq_true, bytesText, List.isEmpty_map, List.all_map, List.all_eq_true]
  refine ⟨by simpa using hne, fun b hb => ?_⟩
  have hbyte := hchar b.toNat (UInt8.toNat_lt b)
  rw [UInt8.ofNat_toNat] at hbyte
  exact hbyte (isSiteChar_of_valid h hb)

/-! ### The block -/

theorem bytesText_append (left right : GoString) : bytesText (left ++ right) = bytesText left ++ bytesText right :=
  List.map_append

/-- The lines of the block. -/
theorem bytesText_directiveLine {words : String} (hwords : bytesText (ascii words) = (e.1 ++ " ").toList ++ blanks)
    (value : GoString) : bytesText (directiveLine words value) = blockLine e.1 blanks (bytesText value) ++ ['\n'] := by
  have hend : bytesText (ascii "\";\n") = ['"', ';', '\n'] := by decide
  have hquote : bytesText (34 :: value) = '"' :: bytesText value := rfl
  rw [directiveLine, bytesText_append, bytesText_append, hwords, hend, hquote, blockLine]
  simp

theorem read_directiveLine {words : String} (hwords : bytesText (ascii words) = (e.1 ++ " ").toList ++ blanks)
    (ho : Opens e blanks) {value : GoString} (hv : ';' ∉ bytesText value) (rest : CStr) :
    g.read (bytesText (directiveLine words value) ++ rest) =
      (g.step (e.2, blockLine e.1 blanks (bytesText value))).read rest := by
  rw [bytesText_directiveLine hwords, List.append_assoc, List.singleton_append, read_blockLine ho hv]

section lines

variable {v : GoString} (hv : Fits (bytesText v)) (rest : CStr)

include hv

theorem read_sitename (hvalid : validSitename (bytesText v) = true) :
    g.read (bytesText (directiveLine "config sitename  " v) ++ rest) =
      Lexed.read { g with sitename := some (bytesText v) } rest := by
  have ho : Opens ("config sitename", .token .sitename) [' '] := ⟨by decide, by decide, by decide, by decide⟩
  rw [read_directiveLine (by decide) ho hv.semicolon, step_sitename ho hv hvalid]

theorem read_sitedesc :
    g.read (bytesText (directiveLine "config sitedesc  " v) ++ rest) =
      Lexed.read { g with sitedesc := some (bytesText v) } rest := by
  have ho : Opens ("config sitedesc", .setting .quotes) [' '] := ⟨by decide, by decide, by decide, by decide⟩
  rw [read_directiveLine (by decide) ho hv.semicolon, step_setting ho hv rfl]

theorem read_aggregator :
    g.read (bytesText (directiveLine "config aggregator " v) ++ rest) =
      Lexed.read { g with aggregator := some (bytesText v) } rest := by
  have ho : Opens ("config aggregator", .setting .quotes) [] := ⟨by decide, by decide, by decide, by decide⟩
  rw [read_directiveLine (by decide) ho hv.semicolon, step_setting ho hv rfl]

theorem read_aggToken :
    g.read (bytesText (directiveLine "config aggregator-token " v) ++ rest) =
      Lexed.read { g with aggToken := some (bytesText v) } rest := by
  have ho : Opens ("config aggregator-token", .setting .quotes) [] := ⟨by decide, by decide, by decide, by decide⟩
  rw [read_directiveLine (by decide) ho hv.semicolon, step_setting ho hv rfl]

end lines

/-- The comment goes by. -/
theorem read_comment (isPrint : GoString → Bool) {site : GoString} (hsite : validSiteName site = true) (rest : CStr) :
    g.read (bytesText (ascii "# sysmond -> sysmon-web, for site " ++ GoText.quote isPrint site ++ ascii ".\n") ++ rest) =
      g.read rest := by
  have hnewline : 10 ∉ site := fun hmem => absurd (isSiteChar_of_valid hsite hmem) (by decide)
  have htext : '\n' ∉ bytesText (ascii " sysmond -> sysmon-web, for site " ++ GoText.quote isPrint site ++ ascii ".") := by
    rw [@mem_bytesText '\n' 10 (by decide) (by decide), List.mem_append, List.mem_append, not_or, not_or]
    exact ⟨⟨by decide, GoText.newline_not_mem_quote isPrint hnewline⟩, by decide⟩
  have hstart : bytesText (ascii "# sysmond -> sysmon-web, for site ") =
      '#' :: bytesText (ascii " sysmond -> sysmon-web, for site ") := by decide
  have hend : bytesText (ascii ".\n") = bytesText (ascii ".") ++ ['\n'] := by decide
  have hlex := lex_hash htext rest
  rw [bytesText_append, bytesText_append, List.cons_append] at hlex
  rw [bytesText_append, bytesText_append, hstart, hend, Lexed.read]
  simp only [List.cons_append, List.append_assoc, List.nil_append] at hlex ⊢
  rw [hlex]
  rfl

/-- The daemon reads the block as it is meant, if nothing in the target and the token ends them before their end, and
does nothing else. -/
theorem read_agentConfigBlock (isPrint : GoString → Bool) {site dial token : GoString} (label : GoString)
    (hsite : validSiteName site = true) (hdial : 34 ∉ dial ∧ 59 ∉ dial ∧ 0 ∉ dial)
    (htoken : 34 ∉ token ∧ 59 ∉ token ∧ 0 ∉ token) (g : Lexed) :
    g.read (bytesText (agentConfigBlock isPrint site label dial token)) =
      { g with
        sitename := some (bytesText site)
        sitedesc := some (bytesText (if fitForConfig label = [] then site else fitForConfig label))
        aggregator := some (bytesText dial)
        aggToken := some (bytesText token) } := by
  have hend : ∀ g : Lexed, g.read [] = g := fun _ => rfl
  rw [agentConfigBlock, bytesText_append, bytesText_append, bytesText_append, bytesText_append, List.append_assoc,
    List.append_assoc, List.append_assoc, read_comment isPrint hsite,
    read_sitename (fits_site hsite) _ (validSitename_bytesText hsite),
    read_sitedesc (fits_label hsite label), read_aggregator (fits_bytesText.mpr hdial),
    ← List.append_nil (bytesText (directiveLine "config aggregator-token " token)),
    read_aggToken (fits_bytesText.mpr htoken), hend]

/-- A box called `a`. -/
theorem read_agentConfigBlock_a :
    validSiteName (ascii "a") = true ∧ (34 ∉ ascii "h:1" ∧ 59 ∉ ascii "h:1" ∧ 0 ∉ ascii "h:1") ∧
      (34 ∉ ascii "0f" ∧ 59 ∉ ascii "0f" ∧ 0 ∉ ascii "0f") ∧
      Lexed.read ⟨none, none, none, none, false, [], []⟩
          (bytesText (agentConfigBlock (fun _ => true) (ascii "a") (ascii "rack \"A\"; east") (ascii "h:1") (ascii "0f"))) =
        ⟨some (bytesText (ascii "a")), some (bytesText (if fitForConfig (ascii "rack \"A\"; east") = [] then ascii "a"
          else fitForConfig (ascii "rack \"A\"; east"))), some (bytesText (ascii "h:1")), some (bytesText (ascii "0f")),
          false, [], []⟩ :=
  ⟨by decide, by decide, by decide,
    read_agentConfigBlock (fun _ => true) (ascii "rack \"A\"; east") (by decide) (by decide) (by decide)
      ⟨none, none, none, none, false, [], []⟩⟩

/-- A NUL in the target is the end of the line for `strchr`. -/
theorem read_agentConfigBlock_nul :
    ¬∀ (isPrint : GoString → Bool) (site label dial token : GoString), validSiteName site = true →
      34 ∉ dial ∧ 59 ∉ dial → 34 ∉ token ∧ 59 ∉ token → ∀ g : Lexed,
        g.read (bytesText (agentConfigBlock isPrint site label dial token)) =
          { g with
            sitename := some (bytesText site)
            sitedesc := some (bytesText (if fitForConfig label = [] then site else fitForConfig label))
            aggregator := some (bytesText dial)
            aggToken := some (bytesText token) } := by
  intro h
  have hsite : validSiteName (ascii "a") = true := by decide
  have ho : Opens ("config aggregator", .setting .quotes) [] := ⟨by decide, by decide, by decide, by decide⟩
  have hread := h (fun _ => true) (ascii "a") [] [0] [] hsite (by decide) (by decide)
    ⟨none, none, none, none, false, [], []⟩
  rw [agentConfigBlock, bytesText_append, bytesText_append, bytesText_append, bytesText_append, List.append_assoc,
    List.append_assoc, List.append_assoc, read_comment _ hsite, read_sitename (fits_site hsite) _ (by decide),
    read_sitedesc (fits_label hsite []), read_directiveLine (by decide) ho (by decide),
    ← List.append_nil (bytesText (directiveLine "config aggregator-token " [])),
    read_aggToken (fits_bytesText.mpr (by decide))] at hread
  exact absurd (congrArg Lexed.complaints hread) (by decide)

end Sysmon.Config
