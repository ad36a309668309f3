import Sysmon.Config.Generate
import Sysmon.Parser.Scanner

/-!
# What the daemon reads of a generated object

The scanner of `parser.l` over the text of `GenerateHost`. Every rule but that of a definition in a `spawns` block
begins with a word, so what a text begins with leaves the rules of that word and that one rule, which looks for two
quotes and the end of a line behind them.
-/

namespace Sysmon.Config

open Flex
open Sysmon.Parser (Action Attr StrCell Limit Knob Flag lex rules knownRules anyChar literal value ending directive
  directiveWS attrRule settingRule rootPattern spawnDefPattern objectPattern isWS isWordChar)

/-! ### Tokens -/

/-- What is more than white space, a comment or an unknown character. -/
def meaningful (a : Action) : Bool := a ≠ .skip && a ≠ .unknown

/-- The tokens of a text. -/
def found (text : CStr) : List (Action × CStr) := (lex text).filter fun token => meaningful token.1

theorem lex_append {a : Action} {c : Char} (word : CStr) {rest : CStr}
    (h : munch rules .unknown (c :: word ++ rest) = (a, word.length)) : lex (c :: word ++ rest) = (a, c :: word) :: lex rest := by
  have hsteps : rest.length ≤ (word ++ rest).length := by
    rw [List.length_append]
    exact Nat.le_add_left _ _
  rw [List.cons_append] at h ⊢
  unfold lex
  rw [List.length_cons, scan, h]
  dsimp only
  rw [List.take_left, List.drop_left, scan_of_le rules .unknown hsteps]

theorem found_cons {a : Action} {word text rest : CStr} (ha : meaningful a = true) (h : lex text = (a, word) :: lex rest) :
    found text = (a, word) :: found rest := by
  unfold found
  rw [h]
  exact List.filter_cons_of_pos ha

theorem found_skip {a : Action} {word text rest : CStr} (ha : meaningful a = false) (h : lex text = (a, word) :: lex rest) :
    found text = found rest := by
  unfold found
  rw [h]
  exact List.filter_cons_of_neg (by simp [ha])

/-- A rule that finds more than all others before the last one is taken. -/
theorem munch_known {rule : Flex.Rule Char Action} {text : CStr} {n : Nat} (hmem : rule ∈ knownRules)
    (hrule : rule.pattern.longest text = some (n + 1))
    (hbest : ∀ other ∈ knownRules, ∀ m, other.pattern.longest text = some m →
      m ≤ n ∨ (other.action = rule.action ∧ m = n + 1)) :
    munch rules .unknown text = (rule.action, n) := by
  have hmem' : rule ∈ rules := List.mem_append_left _ hmem
  cases hchoose : choose rules text with
  | none => exact absurd ((choose_none hchoose rule hmem').symm.trans hrule) (by simp)
  | some best =>
      obtain ⟨m, taken⟩ := best
      obtain ⟨before, after, hchosen⟩ := choose_spec hchoose
      have htaken : taken ∈ rules := by
        rw [hchosen.split]
        simp
      have hle : n + 1 ≤ m := hchosen.le hmem' hrule
      by_cases hknown : taken ∈ knownRules
      · obtain hless | ⟨haction, rfl⟩ := hbest taken hknown m hchosen.here
        · exact absurd hle (Nat.not_le.mpr (Nat.lt_succ_of_le hless))
        · rw [munch, hchoose, ← haction]
      · obtain rfl := Parser.eq_anyChar htaken hknown
        have hless := hchosen.less rule (Parser.before_anyChar hchosen.split rule hmem) _ hrule
        cases text with
        | nil => exact absurd hchosen.here (by simp [anyChar, Pattern.longest, oneThen])
        | cons c text =>
            rw [Parser.longest_anyChar hchosen.here] at hless
            exact absurd hless (Nat.not_lt.mpr (Nat.succ_le_succ (Nat.zero_le n)))

/-- The rule of the `spawns` block is the only one of its action. -/
theorem pattern_of_spawnDef {rule : Flex.Rule Char Action} (hmem : rule ∈ knownRules)
    (haction : rule.action = .token .spawnDef) : rule.pattern = spawnDefPattern := by
  have hsplit : knownRules = knownRules.take 24 ++ ⟨spawnDefPattern, .token .spawnDef⟩ :: knownRules.drop 25 := rfl
  have hothers : ∀ other ∈ knownRules.take 24 ++ knownRules.drop 25, other.action ≠ .token .spawnDef := by decide
  rw [hsplit, List.mem_append, List.mem_cons] at hmem
  obtain hmem | rfl | hmem := hmem
  · exact absurd haction (hothers rule (List.mem_append_left _ hmem))
  · rfl
  · exact absurd haction (hothers rule (List.mem_append_right _ hmem))

/-- For a text that begins so, there are only the rules of one action, whose matches end at the first separator, and
that of the `spawns` block. -/
def settled (a : Action) (sep : Char) (start : CStr) : Bool :=
  knownRules.all fun rule =>
    rule.pattern.rejects start || (rule.action = a && rule.pattern.endsAt sep) || rule.action = .token .spawnDef

theorem munch_settled {rule : Flex.Rule Char Action} (sep : Char) (start text rest : CStr) (hmem : rule ∈ knownRules)
    (hends : rule.pattern.endsAt sep = true) (hmatch : rule.pattern.Matches (text ++ [sep]))
    (hstart : start <+: text ++ sep :: rest) (hsettled : settled rule.action sep start = true)
    (hspawn : ∀ m, spawnDefPattern.longest (text ++ sep :: rest) = some m → m ≤ text.length) :
    munch rules .unknown (text ++ sep :: rest) = (rule.action, text.length) := by
  refine munch_known hmem (longest_eq_of_endsAt hends hmatch rest) fun other hother m hm => ?_
  have hone := List.all_eq_true.mp hsettled other hother
  simp only [Bool.or_eq_true, Bool.and_eq_true, decide_eq_true_eq] at hone
  obtain (hrejects | ⟨haction, hends'⟩) | hspawnDef := hone
  · obtain ⟨tail, htail⟩ := hstart
    rw [← htail, longest_of_rejects hrejects] at hm
    contradiction
  · obtain hlt | heq := Nat.lt_or_eq_of_le (length_le_of_endsAt hends' hm)
    · exact Or.inl (Nat.le_of_lt_succ hlt)
    · exact Or.inr ⟨haction, heq⟩
  · rw [pattern_of_spawnDef hother hspawnDef] at hm
    exact Or.inl (hspawn m hm)

/-! ### The rule of the spawns block -/

/-- Blanks, and the end of a line. -/
def opensLine (s : CStr) : Bool := (s.dropWhile isWS).head? = some '\n'

/-- So does what is behind the first quote. -/
def opensAfter (s : CStr) : Bool := (CText.after '"' s).any opensLine

theorem opensLine_append {blanks : CStr} (h : ∀ c ∈ blanks, isWS c = true) (rest : CStr) :
    opensLine (blanks ++ '\n' :: rest) = true := by
  unfold opensLine
  rw [List.dropWhile_append_of_pos h]
  rfl

/-- A word, blanks, and a quote. -/
def opensQuote (s : CStr) : Bool := ((s.dropWhile isWordChar).dropWhile isWS).head? = some '"'

theorem opensQuote_append {name blanks : CStr} (hname : ∀ c ∈ name, isWordChar c = true)
    (hne : blanks ≠ []) (hblanks : ∀ c ∈ blanks, isWS c = true) (rest : CStr) :
    opensQuote (name ++ blanks ++ '"' :: rest) = true := by
  obtain ⟨blank, blanks, rfl⟩ := List.exists_cons_of_ne_nil hne
  have hblank : isWordChar blank = false := by
    have hws := hblanks blank List.mem_cons_self
    simp only [isWS, Bool.or_eq_true, decide_eq_true_eq] at hws
    obtain rfl | rfl := hws <;> decide
  unfold opensQuote
  rw [List.append_assoc, List.dropWhile_append_of_pos hname, List.cons_append,
    List.dropWhile_cons_of_neg (by rw [hblank]; decide), ← List.cons_append, List.dropWhile_append_of_pos hblanks]
  rfl

/-- A character that can end a word of the scanner, and is part of none. -/
structure Separates (sep : Char) : Prop where
  wordChar : isWordChar sep = false
  blank : isWS sep = false
  quote : sep ≠ '"'
  newline : sep ≠ '\n'

theorem separates_semicolon : Separates ';' := ⟨by decide, by decide, by decide, by decide⟩

theorem separates_brace : Separates '\x7b' := ⟨by decide, by decide, by decide, by decide⟩

theorem opensLine_append_sep {sep : Char} (hblank : isWS sep = false) (hnewline : sep ≠ '\n') (s rest : CStr) :
    opensLine (s ++ sep :: rest) = opensLine s := by
  induction s with
  | nil =>
      unfold opensLine
      rw [List.nil_append, List.dropWhile_cons_of_neg (by rw [hblank]; decide)]
      simp [hnewline]
  | cons c s ih =>
      by_cases hc : isWS c = true
      · unfold opensLine at ih ⊢
        rw [List.cons_append, List.dropWhile_cons_of_pos hc, List.dropWhile_cons_of_pos hc, ih]
      · unfold opensLine
        rw [List.cons_append, List.dropWhile_cons_of_neg hc, List.dropWhile_cons_of_neg hc]
        rfl

/-- The parts of a definition in a `spawns` block. -/
theorem spawnDef_shape {word : CStr} (h : spawnDefPattern.Matches word) :
    ∃ name blanks command blanks', word = name ++ blanks ++ '"' :: (command ++ '"' :: (blanks' ++ ['\n'])) ∧
      (name ≠ [] ∧ ∀ c ∈ name, isWordChar c = true) ∧ (blanks ≠ [] ∧ ∀ c ∈ blanks, isWS c = true) ∧
      (command ≠ [] ∧ '"' ∉ command) ∧ ∀ c ∈ blanks', isWS c = true := by
  obtain ⟨name, -, rfl, hname, blanks, -, rfl, hblanks, -, -, rfl, ⟨quote, rfl, hquote⟩, command, -, rfl, hcommand, -, -, rfl,
    ⟨quote', rfl, hquote'⟩, blanks', -, rfl, hblanks', -, -, rfl, ⟨newline, rfl, hnewline⟩, rfl⟩ := h
  obtain rfl : quote = '"' := of_decide_eq_true hquote
  obtain rfl : quote' = '"' := of_decide_eq_true hquote'
  obtain rfl : newline = '\n' := of_decide_eq_true hnewline
  refine ⟨name, blanks, command, blanks', by simp, hname, hblanks, ⟨hcommand.1, fun hmem => ?_⟩, hblanks'⟩
  exact absurd (hcommand.2 _ hmem) (by decide)

/-- A part of the text that the separator is not in is a part of what stands before the first one. -/
theorem split_separator {sep : Char} {left tail text rest : CStr} (h : left ++ tail = text ++ sep :: rest) (hleft : sep ∉ left) :
    ∃ more, text = left ++ more ∧ tail = more ++ sep :: rest := by
  obtain ⟨more, rfl, htail⟩ | ⟨more, rfl, htail⟩ := List.append_eq_append_iff.mp h
  · exact ⟨more, rfl, htail⟩
  · cases more with
    | nil => exact ⟨[], by simp, by simpa using htail.symm⟩
    | cons c more =>
        obtain ⟨rfl, -⟩ := List.cons.inj htail
        exact absurd (List.mem_append_right _ List.mem_cons_self) hleft

/-- A definition that begins with the text has both of its quotes in it, and is no longer than it is, or the first in
it and the second behind it. -/
theorem spawnDef_split {sep : Char} (hsep : Separates sep) {word more text rest : CStr} (h : spawnDefPattern.Matches word)
    (heq : word ++ more = text ++ sep :: rest) :
    (word.length ≤ text.length ∧ 2 ≤ text.count '"') ∨
      (opensQuote text = true ∧ text.count '"' = 1 ∧ opensAfter rest = true) := by
  obtain ⟨name, blanks, command, blanks', rfl, ⟨-, hname⟩, ⟨hne, hblanks⟩, ⟨-, hcommand⟩, hblanks'⟩ := spawnDef_shape h
  have hfirst : sep ∉ name ++ blanks := by
    intro hmem
    obtain hmem | hmem := List.mem_append.mp hmem
    · exact absurd ((hname _ hmem).symm.trans hsep.wordChar) (by decide)
    · exact absurd ((hblanks _ hmem).symm.trans hsep.blank) (by decide)
  have hnoquote : (name ++ blanks).count '"' = 0 := by
    refine List.count_eq_zero_of_not_mem fun hmem => ?_
    obtain hmem | hmem := List.mem_append.mp hmem
    · exact absurd (hname _ hmem) (by decide)
    · exact absurd (hblanks _ hmem) (by decide)
  have hend : sep ∉ blanks' ++ ['\n'] := by
    intro hmem
    obtain hmem | hmem := List.mem_append.mp hmem
    · exact absurd ((hblanks' _ hmem).symm.trans hsep.blank) (by decide)
    · exact hsep.newline (List.mem_singleton.mp hmem)
  rw [List.append_assoc] at heq
  obtain ⟨text, rfl, htext⟩ := split_separator heq hfirst
  cases text with
  | nil => exact absurd (List.cons.inj htext).1.symm hsep.quote
  | cons c text =>
      have htail : command ++ ('"' :: (blanks' ++ ['\n']) ++ more) = text ++ sep :: rest := by
        simpa using (List.cons.inj htext).2
      obtain rfl : '"' = c := (List.cons.inj htext).1
      obtain ⟨inner, rfl, hinner⟩ | ⟨inner, rfl, hinner⟩ := List.append_eq_append_iff.mp htail
      · -- both quotes are in the text, and so is the end of the line
        cases inner with
        | nil => exact absurd (List.cons.inj hinner).1.symm hsep.quote
        | cons d inner =>
            have hbehind : blanks' ++ ['\n'] ++ more = inner ++ sep :: rest := (List.cons.inj hinner).2
            obtain rfl : '"' = d := (List.cons.inj hinner).1
            obtain ⟨z, rfl, -⟩ := split_separator hbehind hend
            refine Or.inl ⟨?_, ?_⟩
            · simp only [List.length_append, List.length_cons, List.length_nil]
              omega
            · simp only [List.count_append, List.count_cons_self]
              omega
      · -- the command goes on behind the separator
        cases inner with
        | nil => exact absurd (List.cons.inj hinner).1 hsep.quote
        | cons d inner =>
            have hrest : rest = inner ++ '"' :: (blanks' ++ '\n' :: more) := by simpa using (List.cons.inj hinner).2
            subst hrest
            have htextquote : text.count '"' = 0 :=
              List.count_eq_zero_of_not_mem fun hmem => hcommand (List.mem_append_left _ hmem)
            have hinnerquote : '"' ∉ inner := fun hmem =>
              hcommand (List.mem_append_right _ (List.mem_cons_of_mem _ hmem))
            refine Or.inr ⟨opensQuote_append hname hne hblanks _, ?_, ?_⟩
            · rw [List.count_append, hnoquote, List.count_cons_self, htextquote]
            · unfold opensAfter
              rw [CText.after_append hinnerquote]
              exact opensLine_append hblanks' more

/-- No definition is longer than the text, unless it begins in it and ends behind it. -/
theorem spawnDef_le {sep : Char} (hsep : Separates sep) {text rest : CStr} {m : Nat}
    (hquiet : opensQuote text = true → text.count '"' = 1 → opensAfter rest = false)
    (hm : spawnDefPattern.longest (text ++ sep :: rest) = some m) : m ≤ text.length := by
  obtain ⟨word, more, heq, rfl, hword⟩ := (longest_spec spawnDefPattern).sound _ _ hm
  obtain ⟨hle, -⟩ | ⟨hquote, hone, hopens⟩ := spawnDef_split hsep hword heq.symm
  · exact hle
  · exact absurd (hopens.symm.trans (hquiet hquote hone)) (by decide)

/-- There is none without a quote. -/
theorem spawnDef_none {sep : Char} (hsep : Separates sep) {text : CStr} (htext : '"' ∉ text) (rest : CStr) :
    spawnDefPattern.longest (text ++ sep :: rest) = none := by
  cases hlongest : spawnDefPattern.longest (text ++ sep :: rest) with
  | none => rfl
  | some m =>
      obtain ⟨word, more, heq, rfl, hword⟩ := (longest_spec spawnDefPattern).sound _ _ hlongest
      have hcount := List.count_eq_zero_of_not_mem htext
      obtain ⟨-, htwo⟩ | ⟨-, hone, -⟩ := spawnDef_split hsep hword heq.symm
      · omega
      · omega

/-! ### Single characters -/

/-- The table with its words taken apart, once: in a check over the whole table that is most of the work. -/
def spelledRules : { spelled : List (Flex.Rule Char Action) // knownRules = spelled } := by
  refine ⟨?spelled, ?same⟩
  case same =>
    simp only [knownRules, directive, directiveWS, literal, settingRule, attrRule, spawnDefPattern, objectPattern, rootPattern]
    simp only [String.reduceAppend, String.reduceToList, List.map_cons, List.map_nil]
    exact rfl

/-- The rules have nothing for these characters but to skip them. -/
def bareSettled : Bool :=
  settled .skip '\n' ['\n'] && settled .skip '\n' [';'] &&
    (knownRules.take 1 ++ knownRules.drop 2).all fun other => other.pattern.rejects ['\t'] && other.pattern.rejects [' ']

theorem bare_settled : settled .skip '\n' ['\n'] = true ∧ settled .skip '\n' [';'] = true ∧
    ∀ other ∈ knownRules.take 1 ++ knownRules.drop 2, other.pattern.rejects ['\t'] = true ∧ other.pattern.rejects [' '] = true := by
  have hall : bareSettled = true := by
    unfold bareSettled settled
    rw [spelledRules.2]
    decide
  simp only [bareSettled, Bool.and_eq_true, List.all_eq_true] at hall
  exact ⟨hall.1.1, hall.1.2, hall.2⟩

theorem lex_newline (rest : CStr) : lex ('\n' :: rest) = (.skip, ['\n']) :: lex rest := by
  have hmem : (⟨literal "\n", .skip⟩ : Flex.Rule Char Action) ∈ knownRules := List.mem_of_getElem? (i := 2) rfl
  have hspawn : ∀ m, spawnDefPattern.longest ([] ++ '\n' :: rest) = some m → m ≤ ([] : CStr).length := by
    intro m hm
    have hrejects : spawnDefPattern.rejects ['\n'] = true := by decide
    have hnone := longest_of_rejects hrejects rest
    exact absurd (hnone.symm.trans hm) (by simp)
  have hmunch := munch_settled '\n' ['\n'] [] rest hmem (by decide)
    ⟨['\n'], [], rfl, ⟨'\n', rfl, by decide⟩, rfl⟩ ⟨rest, rfl⟩ bare_settled.1 hspawn
  exact lex_append [] hmunch

theorem lex_blank {c d : Char} (hc : isWS c = true) (hd : isWS d = false) (rest : CStr) :
    lex (c :: d :: rest) = (.skip, [c]) :: lex (d :: rest) := by
  have hmem : (⟨[⟨isWS, .plus⟩], .skip⟩ : Flex.Rule Char Action) ∈ knownRules := List.mem_of_getElem? (i := 1) rfl
  have hlongest : Pattern.longest [⟨isWS, .plus⟩] (c :: d :: rest) = some 1 := by
    simp [Pattern.longest, oneThen, starThen, hc, hd, longer]
  have hsplit : knownRules = knownRules.take 1 ++ ⟨[⟨isWS, .plus⟩], .skip⟩ :: knownRules.drop 2 := rfl
  have hothers : ∀ other ∈ knownRules.take 1 ++ knownRules.drop 2, other.pattern.rejects [c] = true := by
    intro other hother
    simp only [isWS, Bool.or_eq_true, decide_eq_true_eq] at hc
    obtain rfl | rfl := hc
    · exact (bare_settled.2.2 other hother).1
    · exact (bare_settled.2.2 other hother).2
  have hmunch : munch rules .unknown (c :: d :: rest) = (.skip, 0) := by
    refine munch_known hmem hlongest fun other hother m hm => ?_
    rw [hsplit, List.mem_append, List.mem_cons] at hother
    by_cases hself : other = ⟨[⟨isWS, .plus⟩], .skip⟩
    · subst hself
      exact Or.inr ⟨rfl, Option.some.inj (hm.symm.trans hlongest)⟩
    · have hin : other ∈ knownRules.take 1 ++ knownRules.drop 2 := by
        obtain hother | hother | hother := hother
        · exact List.mem_append_left _ hother
        · exact absurd hother hself
        · exact List.mem_append_right _ hother
      have hnone := longest_of_rejects (hothers other hin) (d :: rest)
      exact absurd (hnone.symm.trans hm) (by simp)
  exact lex_append [] hmunch

/-- A semicolon that ends no statement begins a comment. -/
theorem lex_comment (rest : CStr) : lex (';' :: '\n' :: rest) = (.skip, [';', '\n']) :: lex rest := by
  have hmem : (⟨[⟨fun c => c = ';' || c = '#', .one⟩, ⟨(· ≠ '\n'), .star⟩, ⟨(· = '\n'), .one⟩], .skip⟩ :
      Flex.Rule Char Action) ∈ knownRules := List.mem_of_getElem? (i := 0) rfl
  have hspawn : ∀ m, spawnDefPattern.longest ([';'] ++ '\n' :: rest) = some m → m ≤ [';'].length := by
    intro m hm
    have hrejects : spawnDefPattern.rejects [';'] = true := by decide
    have hnone := longest_of_rejects hrejects ('\n' :: rest)
    exact absurd (hnone.symm.trans hm) (by simp)
  have hmunch := munch_settled '\n' [';'] [';'] rest hmem (by decide)
    ⟨[';'], ['\n'], rfl, ⟨';', rfl, by decide⟩, [], ['\n'], rfl, fun _ h => absurd h List.not_mem_nil, ['\n'], [], rfl, ⟨'\n', rfl, by decide⟩, rfl⟩
    ⟨'\n' :: rest, rfl⟩ bare_settled.2.1 hspawn
  exact lex_append ['\n'] hmunch

/-- A character that no rule knows. -/
theorem lex_unknown {c : Char} {rest : CStr} (h : ∀ rule ∈ knownRules, rule.pattern.longest (c :: rest) = none) :
    lex (c :: rest) = (.unknown, [c]) :: lex rest := by
  have hmunch : munch rules .unknown (c :: rest) = (.unknown, 0) := by
    cases hchoose : choose rules (c :: rest) with
    | none => rw [munch, hchoose]
    | some best =>
        obtain ⟨m, taken⟩ := best
        obtain ⟨before, after, hchosen⟩ := choose_spec hchoose
        have htaken : taken ∈ rules := by
          rw [hchosen.split]
          simp
        have hknown : taken ∉ knownRules := fun hknown => absurd ((h taken hknown).symm.trans hchosen.here) (by simp)
        obtain rfl := Parser.eq_anyChar htaken hknown
        obtain rfl := Parser.longest_anyChar hchosen.here
        rw [munch, hchoose]
        rfl
  exact lex_append [] hmunch

theorem found_newline (rest : CStr) : found ('\n' :: rest) = found rest := found_skip (by decide) (lex_newline rest)

end Sysmon.Config
