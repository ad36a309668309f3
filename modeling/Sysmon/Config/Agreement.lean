import Sysmon.Config.Legible

/-!
# What `Parse` makes of a legible text

In a gap no statement begins an object, since where one would begin the scanner would see it too. An object comes to
one host, whatever stands around it, so that it is the same host by itself as in its file.
-/

namespace Sysmon.Config

open GoBytes
open GoSpace (Spaces)
open GoSpace.Spaces (length_zero length_reverse_zero skip_spec trimRight_begins trimSpace_of_zero fieldsLoop_run
  fieldsLoop_short)

/-! ### Where statements begin -/

/-- What `splitStatements` knows in a region. Behind the word `object` it does not matter. -/
def Region.Follows (s : SplitState) : Region → Prop
  | .code => s.inQuote = false
  | .quoted => s.inQuote = !s.inComment
  | .comment => s.inComment = true
  | .header => True

theorem Region.Follows.next {region after : Region} {s : SplitState} {prev : Option Char} {c : Char} {text : CStr}
    (h : region.Follows s) (hafter : region.next prev c text = some after) : after.Follows (s.next c).2 := by
  unfold SplitState.next
  by_cases hnewline : c = '\n'
  · -- a line ends, where no quote does
    subst hnewline
    rw [if_pos rfl]
    cases region with
    | code | comment | header =>
        rw [Region.next] at hafter
        split_ifs at hafter <;> cases hafter <;> first | exact rfl | trivial
    | quoted => cases hafter
  rw [if_neg hnewline]
  cases region with
  | code =>
      rw [Region.Follows] at h
      rw [Region.next] at hafter
      by_cases hcomment : s.inComment = true
      · rw [if_pos hcomment]
        split_ifs at hafter <;> cases hafter
        · exact hcomment
        · exact h.trans (by rw [hcomment]; rfl)
        · trivial
        · exact h
      · rw [if_neg hcomment, h, if_neg Bool.false_ne_true]
        by_cases hhash : c = '#'
        · subst hhash
          cases hafter
          rfl
        by_cases hquote : c = '"'
        · subst hquote
          cases hafter
          rfl
        rw [if_neg hhash, if_neg hquote] at hafter
        rw [if_neg hquote, if_neg hhash]
        split_ifs at hafter <;> cases hafter
        · trivial
        · rw [Region.Follows]
          split_ifs <;> first | exact h | rfl
  | quoted =>
      rw [Region.Follows] at h
      rw [Region.next, if_neg hnewline] at hafter
      by_cases hcomment : s.inComment = true
      · rw [if_pos hcomment]
        split_ifs at hafter <;> cases hafter
        · exact h.trans (by rw [hcomment]; rfl)
        · exact h
      · have hin : s.inQuote = true := h.trans (by rw [Bool.not_eq_true _ |>.mp hcomment]; rfl)
        rw [if_neg hcomment, if_pos hin]
        by_cases hquote : c = '"'
        · rw [if_pos hquote] at hafter ⊢
          cases hafter
          rfl
        · rw [if_neg hquote] at hafter ⊢
          cases hafter
          exact h
  | comment =>
      rw [Region.Follows] at h
      rw [Region.next, if_neg hnewline] at hafter
      cases hafter
      rw [if_pos h]
      exact h
  | header =>
      rw [Region.next, if_neg hnewline] at hafter
      split_ifs at hafter
      cases hafter
      trivial

theorem wordBegins_head {word : String} {c : Char} (hc : word.toList.head? ≠ some c) (hne : word.toList ≠ [])
    (prev : Option Char) (s : CStr) : wordStarts word prev (c :: s) = false ∧ wordBegins word prev (c :: s) = false := by
  have hnot : word.toList.isPrefixOf (c :: s) = false := by
    obtain ⟨d, more, hword⟩ := List.exists_cons_of_ne_nil hne
    rw [hword, List.head?_cons, Ne, Option.some.injEq] at hc
    rw [hword, List.isPrefixOf_cons_cons, beq_false_of_ne hc, Bool.false_and]
  unfold wordStarts wordBegins
  rw [hnot]
  exact ⟨rfl, rfl⟩

/-- A line ends between objects, and in no quote. -/
theorem next_newline {region after : Region} {prev : Option Char} {s : CStr} (h : region.next prev '\n' s = some after) :
    after = .code := by
  cases region with
  | code =>
      have hword : "object".toList.head? ≠ some '\n' := by decide
      obtain ⟨hstarts, hbegins⟩ := wordBegins_head hword (by decide) prev s
      rw [Region.next, hstarts, hbegins] at h
      exact (Option.some.inj h).symm
  | quoted => cases h
  | comment => exact (Option.some.inj h).symm
  | header => exact (Option.some.inj h).symm

theorem unbraced_of_header {prev : Option Char} {text line : CStr} (h : (Region.after .header prev text).isSome)
    (hline : line <+: text) (hnewline : '\n' ∉ line) : '\x7b' ∉ line := by
  induction line generalizing prev text with
  | nil => exact List.not_mem_nil
  | cons c line ih =>
      obtain ⟨rest, rfl⟩ := hline
      rw [List.mem_cons, not_or] at hnewline
      rw [List.cons_append, Region.after, Region.next, if_neg (Ne.symm hnewline.1)] at h
      split at h
      · cases h
      · rename_i hbrace
        exact List.not_mem_cons_of_ne_of_not_mem (Ne.symm hbrace) (ih h (List.prefix_append _ _) hnewline.2)

/-- Every line but the first begins between objects, or there is no brace in it. -/
theorem line_begins {region : Region} {s : SplitState} {prev : Option Char} {text first : CStr} {rest : List CStr}
    (hfollows : region.Follows s) (hquiet : (region.after prev text).isSome)
    (hlines : (splitFrom s text).splitOn '\n' = first :: rest) :
    ∀ line ∈ rest, '\x7b' ∉ line ∨
      ∃ prev' more, line <+: more ∧ prev'.all isSep = true ∧ (Region.after .code prev' more).isSome := by
  induction text generalizing region s prev first rest with
  | nil =>
      obtain ⟨-, rfl⟩ := List.cons.inj hlines
      exact fun line hline => absurd hline List.not_mem_nil
  | cons c text ih =>
      obtain ⟨after, hafter⟩ := Option.isSome_iff_exists.mp hquiet
      rw [Region.after, Option.bind_eq_some_iff] at hafter
      obtain ⟨region', hnext, hafter⟩ := hafter
      have hquiet' : (region'.after (some c) text).isSome := by rw [hafter]; rfl
      obtain ⟨first', rest', hlines', ⟨hfront, hnewline⟩, -⟩ := (broken_splitFrom (s.next c).2 text).lines
      have hlater := ih (hfollows.next hnext) hquiet' hlines'
      rw [splitFrom] at hlines
      obtain hsame | ⟨hc, hquote, hcomment, hbroken⟩ := next_cases s c
      · rw [hsame, List.singleton_append, List.splitOn_cons_eq_if_modifyHead, hlines'] at hlines
        by_cases hend : c = '\n'
        · subst hend
          rw [if_pos (beq_self_eq_true _)] at hlines
          obtain ⟨-, rfl⟩ := List.cons.inj hlines
          obtain rfl := next_newline hnext
          intro line hline
          obtain rfl | hline := List.mem_cons.mp hline
          · exact Or.inr ⟨some '\n', text, hfront, rfl, hquiet'⟩
          · exact hlater line hline
        · rw [if_neg (by simpa using hend), List.modifyHead_cons] at hlines
          obtain ⟨-, rfl⟩ := List.cons.inj hlines
          exact hlater
      · have hsplit : ((s.next c).1 ++ splitFrom (s.next c).2 text).splitOn '\n' = [c] :: first' :: rest' := by
          have hc' : c ≠ '\n' := by obtain rfl | rfl | rfl := hc <;> decide
          rw [← hlines', hbroken]
          have hnot : '\n' ∉ [c] := fun hmem => hc' (List.mem_singleton.mp hmem).symm
          exact List.splitOn_append_cons_self_of_not_mem hnot _
        rw [hsplit] at hlines
        obtain ⟨-, rfl⟩ := List.cons.inj hlines
        intro line hline
        obtain rfl | hline := List.mem_cons.mp hline
        · -- a semicolon or a brace ends a statement in code, or behind the word `object`
          cases region with
          | code =>
              have hword : "object".toList.head? ≠ some c := by obtain rfl | rfl | rfl := hc <;> decide
              obtain ⟨hstarts, hbegins⟩ := wordBegins_head hword (by decide) prev text
              rw [Region.next, hstarts, hbegins] at hnext
              have hcode : region' = .code := by
                obtain rfl | rfl | rfl := hc <;> exact (Option.some.inj hnext).symm
              have hsep : isSep c = true := by obtain rfl | rfl | rfl := hc <;> rfl
              subst hcode
              exact Or.inr ⟨some c, text, hfront, hsep, hquiet'⟩
          | quoted =>
              rw [Region.Follows, hquote, hcomment] at hfollows
              contradiction
          | comment =>
              rw [Region.Follows, hcomment] at hfollows
              contradiction
          | header =>
              rw [Region.next] at hnext
              split_ifs at hnext with hend hbrace
              · obtain rfl | rfl | rfl := hc <;> contradiction
              · obtain rfl := Option.some.inj hnext
                exact Or.inl (unbraced_of_header hquiet' hfront hnewline)
        · exact hlater line hline

/-! ### What a gap says -/

theorem trimSuffix_begins (last : Char) (s : CStr) : trimSuffix last s <+: s := by
  unfold trimSuffix
  split
  · exact List.dropLast_prefix s
  · exact List.prefix_rfl

/-- What a trimmed line begins with stands in the line behind some white space. -/
theorem trimmed_prefix {text line : CStr} (h : text <+: trimSuffix ';' (trimSpace (dropCr line))) :
    ∃ spaces more : CStr, line = spaces ++ (text ++ more) ∧ (∀ c ∈ spaces, inSpace c = true) ∧
      spaces.getLast?.all endsSpace = true := by
  have htrim : trimSpace (dropCr line) <+: charSpaces.skip 0 (dropCr line) := trimRight_begins _
  obtain ⟨spaces, hspaces, hall, hlast⟩ := @skip_spec _ _ charSpaces (dropCr line)
  obtain ⟨left, hleft⟩ := (h.trans (trimSuffix_begins _ _)).trans htrim
  obtain ⟨cr, hcr⟩ := trimSuffix_begins '\r' line
  refine ⟨spaces, left ++ cr, ?_, hall, hlast⟩
  calc line = dropCr line ++ cr := hcr.symm
    _ = spaces ++ charSpaces.skip 0 (dropCr line) ++ cr := by rw [← hspaces]
    _ = spaces ++ (text ++ (left ++ cr)) := by rw [← hleft, List.append_assoc, List.append_assoc]

theorem ne_of_inSpace {c d : Char} (hc : inSpace c = true) (hd : inSpace d = false) : c ≠ d := by
  rintro rfl
  exact absurd (hc.symm.trans hd) (by decide)

theorem after_spaces {spaces : CStr} (h : ∀ c ∈ spaces, inSpace c = true) (prev : Option Char) (rest : CStr) :
    Region.after .code prev (spaces ++ rest) = Region.after .code (spaces.getLast?.or prev) rest := by
  induction spaces generalizing prev with
  | nil => rfl
  | cons c spaces ih =>
      have hc := h c List.mem_cons_self
      have hword : "object".toList.head? ≠ some c := fun hhead =>
        ne_of_inSpace hc (by decide) (Option.some.inj hhead).symm
      obtain ⟨hstarts, hbegins⟩ := wordBegins_head hword (by decide) prev (spaces ++ rest)
      have hnext : Region.code.next prev c (spaces ++ rest) = some .code := by
        rw [Region.next, if_neg (ne_of_inSpace hc (by decide)), if_neg (ne_of_inSpace hc (by decide)),
          hstarts, hbegins]
        rfl
      rw [List.cons_append, Region.after, hnext, Option.bind_some, ih fun d hd => h d (List.mem_cons_of_mem _ hd)]
      cases spaces with
      | nil => rfl
      | cons d spaces =>
          rw [List.getLast?_cons_cons, List.getLast?_cons]
          rfl

theorem statementOf_eq {line statement : CStr} (h : statementOf line = some statement) :
    statement = trimSuffix ';' (trimSpace (dropCr line)) := by
  unfold statementOf at h
  dsimp only at h
  split at h
  · contradiction
  · exact (Option.some.inj h).symm

/-- In a line that begins between objects no object begins for `Parse` where none does for the scanner. -/
theorem not_beginsObject {prev : Option Char} {line more statement : CStr} (hprev : prev.all isSep = true)
    (hline : line <+: more) (hnewline : '\n' ∉ line) (hquiet : (Region.after .code prev more).isSome)
    (hstatement : statementOf line = some statement) : ¬BeginsObject statement := by
  rintro ⟨hobject, hbrace⟩
  have htrimmed := statementOf_eq hstatement
  obtain ⟨words, rfl⟩ := List.isPrefixOf_iff_prefix.mp hobject
  have hfront : "object ".toList ++ words <+: trimSuffix ';' (trimSpace (dropCr line)) := htrimmed ▸ List.prefix_rfl
  obtain ⟨spaces, behind, rfl, hspaces, hlast⟩ := trimmed_prefix hfront
  obtain ⟨rest, rfl⟩ := hline
  rw [List.append_assoc, after_spaces hspaces] at hquiet
  generalize hp : spaces.getLast?.or prev = p at hquiet
  have hp : p.all (fun c => isSep c || endsSpace c) = true := by
    rw [← hp]
    cases hend : spaces.getLast? with
    | none =>
        rw [Option.none_or]
        cases prev with
        | none => rfl
        | some c => rw [Option.all_some, show isSep c = true from hprev, Bool.true_or]
    | some c =>
        rw [hend] at hlast
        rw [Option.some_or, Option.all_some, show endsSpace c = true from hlast, Bool.or_true]
  have hword : ∀ text, wordBegins "object" p ("object ".toList ++ text) = true := by
    intro text
    unfold wordBegins
    rw [hp]
    rfl
  rw [List.append_assoc, List.append_assoc] at hquiet
  have hbegins := hword (words ++ (behind ++ rest))
  obtain ⟨tail, htail⟩ : ∃ tail, "object ".toList = 'o' :: tail := ⟨_, rfl⟩
  rw [htail, List.cons_append] at hquiet hbegins
  rw [Region.after, Region.next, if_neg (by decide), if_neg (by decide), hbegins] at hquiet
  split at hquiet
  · -- behind the word, on its line, there would be a brace
    have hline : '\n' ∉ tail ++ (words ++ behind) := by
      intro hmem
      apply hnewline
      rw [htail, List.mem_append, List.cons_append, List.cons_append, List.append_assoc]
      exact Or.inr (List.mem_cons_of_mem _ hmem)
    have hunbraced := unbraced_of_header hquiet ⟨rest, by simp only [List.append_assoc]⟩ hline
    refine hunbraced (List.mem_append_right _ (List.mem_append_left _ ?_))
    exact (List.mem_append.mp hbrace).resolve_left (by decide)
  · rw [if_pos rfl] at hquiet
    cases hquiet

/-- What is quiet for the scanner is quiet for `Parse`. -/
theorem statements_quiet {text : CStr} (h : (Region.after .code none text).isSome) :
    ∀ statement ∈ statementsOf text, ¬BeginsObject statement := by
  intro statement hmem
  obtain ⟨line, hline, hstatement⟩ := List.mem_filterMap.mp hmem
  obtain ⟨first, rest, hlines, ⟨hfront, hnewline⟩, hrest⟩ := (broken_splitFrom SplitState.lineStart text).lines
  have hcode : Region.code.Follows SplitState.lineStart := rfl
  have hbegins := line_begins hcode h hlines
  rw [splitStatements, hlines] at hline
  obtain rfl | hline := List.mem_cons.mp hline
  · exact not_beginsObject rfl hfront hnewline h hstatement
  · obtain hunbraced | ⟨prev, more, hfront, hprev, hquiet⟩ := hbegins line hline
    · rintro ⟨-, hbrace⟩
      have hfront : statement <+: trimSuffix ';' (trimSpace (dropCr line)) := statementOf_eq hstatement ▸ List.prefix_rfl
      obtain ⟨spaces, behind, rfl, -⟩ := trimmed_prefix hfront
      exact hunbraced (List.mem_append_right _ (List.mem_append_left _ hbrace))
    · exact not_beginsObject hprev hfront (hrest line hline).2 hquiet hstatement

/-! ### Names -/

theorem beginsSpace_plain {word : CStr} (h : word.all isPlain = true) : ∀ c ∈ word, charSpaces.beginsSpace c = false := by
  intro c hc
  have hplain := List.all_eq_true.mp h c hc
  rwa [isPlain, Bool.not_eq_true'] at hplain

theorem trimSpace_word {before name after : CStr} (hbefore : before.all CText.isspace = true)
    (hafter : after.all CText.isspace = true) (hname : name.all isPlain = true) :
    trimSpace (before ++ (name ++ after)) = name := by
  refine Spaces.trimSpace_between hbefore hafter ?_ (length_reverse_zero (beginsSpace_plain hname))
  cases name with
  | nil => rfl
  | cons c name => exact length_zero (beginsSpace_plain hname c List.mem_cons_self) name

theorem all_isspace_of_isBlank {blanks : CStr} (h : blanks.all isBlank = true) : blanks.all CText.isspace = true := by
  rw [List.all_eq_true] at h ⊢
  intro c hc
  obtain rfl | rfl := isBlank_cases (h c hc) <;> rfl

section Header

variable (header : Header)

theorem Header.text_append (rest : CStr) :
    header.text ++ rest = "object".toList ++ ' ' :: (header.before ++ (header.name ++ (header.after ++ rest))) := by
  have hassoc : ∀ word : CStr, word ++ ' ' :: (header.before ++ (header.name ++ header.after)) ++ rest =
      word ++ ' ' :: (header.before ++ (header.name ++ (header.after ++ rest))) := fun word => by
    rw [List.append_assoc, List.cons_append, List.append_assoc, List.append_assoc]
  exact hassoc _

/-- Both readers take the word for the name. -/
theorem Header.lineName : lineName (header.text ++ ['\x7b']) = header.name := by
  have htrim : trimSpace header.name = header.name := by
    have hword := @trimSpace_word [] header.name [] rfl rfl header.plain
    rwa [List.nil_append, List.append_nil] at hword
  have hlast : header.name.getLast? ≠ some '\x7b' := fun h => header.unbraced (List.mem_of_getLast? h)
  have hfields : fields (header.text ++ ['\x7b']) = "object".toList ::
      charSpaces.fieldsLoop header.name 0 (header.after ++ ['\x7b']) := by
    have hobject : "object".toList.all isPlain = true := by decide
    rw [header.text_append, fields, Spaces.fields, fieldsLoop_run (beginsSpace_plain hobject)]
    change "object".toList :: charSpaces.fieldsLoop [] 0 (header.before ++ (header.name ++ (header.after ++ ['\x7b']))) = _
    rw [fieldsLoop_short (all_isspace_of_isBlank header.blank_before), fieldsLoop_run (beginsSpace_plain header.plain),
      List.nil_append]
  have hsecond : trimSuffix '\x7b' ((fields (header.text ++ ['\x7b']))[1]?.getD []) = header.name := by
    rw [hfields]
    cases hafter : header.after with
    | nil =>
        have hbrace : charSpaces.fieldsLoop header.name 0 ['\x7b'] = [header.name ++ ['\x7b']] := by
          have hplain := fieldsLoop_run (@beginsSpace_plain ['\x7b'] (by decide)) header.name []
          rw [List.append_nil] at hplain
          rw [hplain, Spaces.fieldsLoop, if_neg (by simp)]
        rw [List.nil_append, hbrace]
        change trimSuffix '\x7b' (header.name ++ ['\x7b']) = _
        rw [trimSuffix, List.getLast?_concat, if_pos rfl, List.dropLast_concat]
    | cons c more =>
        have hblank : isBlank c = true := List.all_eq_true.mp header.blank_after c (by rw [hafter]; exact List.mem_cons_self)
        have hfield : ∃ others, charSpaces.fieldsLoop header.name 0 (c :: more ++ ['\x7b']) = header.name :: others := by
          refine ⟨charSpaces.fieldsLoop [] 0 (more ++ ['\x7b']), ?_⟩
          obtain rfl | rfl := isBlank_cases hblank
          · exact if_neg header.named
          · exact if_neg header.named
        obtain ⟨others, hothers⟩ := hfield
        rw [hothers]
        exact if_neg hlast
  rw [Config.lineName, hsecond, htrim]

theorem Header.objectName (rest : CStr) : objectName (header.text ++ '\x7b' :: rest) = header.name := by
  have htext : header.text = "object".toList ++ (' ' :: header.before ++ (header.name ++ header.after)) := rfl
  have hblank : (' ' :: header.before).all CText.isspace = true := by
    rw [List.all_cons, all_isspace_of_isBlank header.blank_before]
    rfl
  have hbrace := header.brace_not_mem
  rw [htext, List.mem_append, not_or] at hbrace
  have htake : (trimPrefix "object".toList (header.text ++ '\x7b' :: rest)).takeWhile (fun c => c ≠ '\x7b') =
      ' ' :: header.before ++ (header.name ++ header.after) := by
    rw [htext, List.append_assoc, trimPrefix, if_pos (List.isPrefixOf_iff_prefix.mpr (List.prefix_append _ _)),
      List.drop_left, List.takeWhile_append_of_pos, List.takeWhile_cons_of_neg (by decide), List.append_nil]
    rintro c hc
    exact decide_eq_true fun h => hbrace.2 (h ▸ hc)
  rw [Config.objectName, htake]
  exact trimSpace_word hblank (all_isspace_of_isBlank header.blank_after) header.plain

end Header

/-! ### What `Parse` makes of an object -/

theorem isUnbroken_append {inQuote : Bool} {words : CStr} (h : isUnbroken inQuote words = true) (rest : CStr) :
    isUnbroken inQuote (words ++ rest) = isUnbroken false rest := by
  induction words generalizing inQuote with
  | nil =>
      cases inQuote with
      | true => exact absurd h (by decide)
      | false => rfl
  | cons c words ih =>
      cases inQuote with
      | true =>
          rw [isUnbroken, Bool.and_eq_true] at h
          rw [List.cons_append, isUnbroken, h.1, Bool.true_and, ih h.2]
      | false =>
          rw [isUnbroken, Bool.and_eq_true] at h
          rw [List.cons_append, isUnbroken, h.1, Bool.true_and, ih h.2]

theorem isUnbroken_blank {blanks : CStr} (h : blanks.all isBlank = true) : isUnbroken false blanks = true := by
  induction blanks with
  | nil => rfl
  | cons c blanks ih =>
      rw [List.all_cons, Bool.and_eq_true] at h
      obtain rfl | rfl := isBlank_cases h.1
      · exact ih h.2
      · exact ih h.2

theorem Header.isUnbroken_text (header : Header) : isUnbroken false header.text = true := by
  have hobject : isUnbroken false "object".toList = true := by decide
  have htext : header.text = "object".toList ++ ' ' :: (header.before ++ (header.name ++ header.after)) := rfl
  generalize "object".toList = word at hobject htext
  rw [htext, isUnbroken_append hobject]
  change isUnbroken false (header.before ++ (header.name ++ header.after)) = true
  rw [isUnbroken_append (isUnbroken_blank header.blank_before), isUnbroken_append header.unbroken,
    isUnbroken_blank header.blank_after]

def Header.wording (header : Header) : Wording where
  text := header.text
  begins := rfl
  unbroken := header.isUnbroken_text

theorem statementsIn_single {line : CStr} (h : '\n' ∉ line) : statementsIn line = (statementOf line).toList := by
  rw [statementsIn, List.splitOn_eq_singleton h, List.filterMap_cons, List.filterMap_nil]
  cases statementOf line <;> rfl

theorem statementsOf_clause (clause : Clause) (rest : CStr) :
    statementsOf (clause.line ++ rest) = (statementOf clause.line).toList ++ statementsOf rest := by
  rw [statementsOf, splitStatements, splitFrom_clause, statementsIn_line, statementsIn_single (newline_not_mem_line clause)]
  rfl

theorem Header.statementOf (header : Header) :
    statementOf (header.text ++ ['\x7b']) = some (header.text ++ ['\x7b']) := by
  have hcr : dropCr (header.text ++ ['\x7b']) = header.text ++ ['\x7b'] := dropCr_line (.header header.wording)
  obtain ⟨more, hmore⟩ : ∃ more, header.text = 'o' :: more := ⟨_, rfl⟩
  have htrim : trimSpace (header.text ++ ['\x7b']) = header.text ++ ['\x7b'] := by
    refine trimSpace_of_zero ?_ ?_
    · rw [hmore]
      exact length_zero (by decide) _
    · rw [List.reverse_append]
      exact length_zero (by decide) _
  unfold Config.statementOf
  dsimp only
  rw [hcr, htrim, if_neg, trimSuffix, List.getLast?_concat]
  · rfl
  · rw [hmore]
    simp

theorem Block.statementsOf_append (block : Block) (rest : CStr) :
    statementsOf (block.text ++ rest) =
      (block.toHeader.text ++ ['\x7b']) :: (statementsOf block.body ++ ['\x7d'] :: statementsOf rest) := by
  have htext : block.text ++ rest =
      (Clause.header block.toHeader.wording).line ++ (block.body ++ (Clause.closing.line ++ rest)) := by
    change block.toHeader.text ++ '\x7b' :: (block.body ++ ['\x7d']) ++ rest =
      block.toHeader.text ++ ['\x7b'] ++ (block.body ++ (['\x7d'] ++ rest))
    simp only [List.append_assoc, List.cons_append, List.nil_append]
  have hclosing : Config.statementOf Clause.closing.line = some ['\x7d'] := by decide
  rw [htext, statementsOf_clause, Config.statementsOf_append block.isBody.whole, statementsOf_clause, hclosing]
  change (Config.statementOf (block.toHeader.text ++ ['\x7b'])).toList ++ _ = _
  rw [block.toHeader.statementOf]
  rfl

theorem Header.parseStatement (header : Header) (hosts : List Host) :
    parseStatement ⟨hosts, none, false⟩ (header.text ++ ['\x7b']) = .ok ⟨hosts, some (newHost header.name), false⟩ := by
  have hbrace : '\x7b' ∈ header.text ++ ['\x7b'] := List.mem_append_right _ List.mem_cons_self
  have hspawns : ¬(startsWith "spawns" (header.text ++ ['\x7b']) = true ∧ '\x7b' ∈ header.text ++ ['\x7b']) :=
    fun h => absurd h.1 Bool.false_ne_true
  have hobject : startsWith "object " (header.text ++ ['\x7b']) = true ∧ '\x7b' ∈ header.text ++ ['\x7b'] := ⟨rfl, hbrace⟩
  rw [Config.parseStatement, if_neg hspawns, if_neg Bool.false_ne_true, if_neg, if_neg, if_neg, if_pos hobject,
    header.lineName]
  · rfl
  · exact Bool.false_ne_true
  · exact Bool.false_ne_true
  · exact Bool.false_ne_true

/-- A host is what `Parse` makes of an object. -/
def Block.ReadsAs (block : Block) (host : Host) : Prop :=
  (statementsOf block.text).foldlM parseStatement ParseState.start = .ok ⟨[host], none, false⟩ ∧ host.hostname = block.name

theorem foldlM_append_ok {lines more : List CStr} {s s' : ParseState}
    (h : (lines ++ more).foldlM parseStatement s = .ok s') :
    ∃ middle, lines.foldlM parseStatement s = .ok middle ∧ more.foldlM parseStatement middle = .ok s' := by
  rw [List.foldlM_append] at h
  cases hlines : lines.foldlM parseStatement s with
  | error failure =>
      rw [hlines] at h
      cases h
  | ok middle =>
      rw [hlines] at h
      exact ⟨middle, rfl, h⟩

theorem Block.readsAs_of_ok {block : Block} {s : ParseState}
    (h : (statementsOf block.text).foldlM parseStatement ParseState.start = .ok s) :
    ∃ host, s = ⟨[host], none, false⟩ ∧ block.ReadsAs host := by
  have hstatements := block.statementsOf_append []
  rw [List.append_nil] at hstatements
  have hrun := h
  rw [hstatements, List.foldlM_cons, ParseState.start, block.toHeader.parseStatement] at hrun
  obtain ⟨middle, hbody, hclose⟩ := foldlM_append_ok hrun
  obtain ⟨host, rfl, hname⟩ := foldlM_parseStatement_inside block.isBody.stays hbody
  obtain rfl := Except.ok.inj hclose
  exact ⟨host, rfl, h, hname⟩

/-- An object adds its host to those that are there. -/
theorem Block.run {block : Block} {rest : CStr} {hosts : List Host} {s : ParseState}
    (h : (statementsOf (block.text ++ rest)).foldlM parseStatement ⟨hosts, none, false⟩ = .ok s) :
    ∃ host, block.ReadsAs host ∧ (statementsOf rest).foldlM parseStatement ⟨hosts ++ [host], none, false⟩ = .ok s := by
  have hsplit : statementsOf (block.text ++ rest) = statementsOf block.text ++ statementsOf rest := by
    have halone := block.statementsOf_append []
    rw [List.append_nil] at halone
    rw [block.statementsOf_append, halone, List.cons_append, List.append_assoc]
    rfl
  have hbehind : (⟨hosts, none, false⟩ : ParseState) = ParseState.start.behind hosts := by
    rw [ParseState.behind, ParseState.start, List.append_nil]
  rw [hsplit] at h
  obtain ⟨middle, hblock, hrest⟩ := foldlM_append_ok h
  rw [hbehind, foldlM_parseStatement_behind] at hblock
  cases halone : (statementsOf block.text).foldlM parseStatement ParseState.start with
  | error failure =>
      rw [halone] at hblock
      cases hblock
  | ok s' =>
      rw [halone] at hblock
      obtain ⟨host, rfl, hreads⟩ := Block.readsAs_of_ok halone
      obtain rfl := Except.ok.inj hblock
      exact ⟨host, hreads, hrest⟩

/-- A gap leaves the hosts as they are. -/
theorem Gap.run {gap rest : CStr} (hgap : Gap gap) {hosts : List Host} {s : ParseState}
    (h : (statementsOf (gap ++ rest)).foldlM parseStatement ⟨hosts, none, false⟩ = .ok s) :
    (statementsOf rest).foldlM parseStatement ⟨hosts, none, false⟩ = .ok s := by
  rw [statementsOf_append hgap.whole] at h
  obtain ⟨middle, hlines, hrest⟩ := foldlM_append_ok h
  have hquiet : (Region.after .code none gap).isSome := by rw [hgap.quiet]; rfl
  obtain rfl := foldlM_parseStatement_outside (statements_quiet hquiet) hlines
  rwa [hgap.spawns] at hrest

theorem Legible.run {blocks : List Block} {text : CStr} (h : Legible blocks text) {hosts : List Host} {s : ParseState}
    (hrun : (statementsOf text).foldlM parseStatement ⟨hosts, none, false⟩ = .ok s) :
    ∃ more, s.hosts = hosts ++ more ∧ List.Forall₂ Block.ReadsAs blocks more := by
  induction h generalizing hosts with
  | last hgap =>
      obtain rfl := foldlM_parseStatement_outside (statements_quiet hgap) hrun
      exact ⟨[], (List.append_nil hosts).symm, .nil⟩
  | @unclosed gap hgap header body hquiet hstays =>
      have hbody := hgap.run hrun
      have htext : header.text ++ '\x7b' :: body = (Clause.header header.wording).line ++ body := by
        change _ = header.text ++ ['\x7b'] ++ body
        rw [List.append_assoc, List.singleton_append]
      rw [htext, statementsOf_clause] at hbody
      change ((statementOf (header.text ++ ['\x7b'])).toList ++ statementsOf body).foldlM _ _ = _ at hbody
      rw [header.statementOf, Option.toList_some, List.singleton_append, List.foldlM_cons, header.parseStatement] at hbody
      obtain ⟨host, rfl, -⟩ := foldlM_parseStatement_inside hstays hbody
      exact ⟨[], (List.append_nil hosts).symm, .nil⟩
  | block hgap block hrest ih =>
      obtain ⟨host, hreads, hlater⟩ := Block.run (hgap.run hrun)
      obtain ⟨more, hmore, hall⟩ := ih hlater
      exact ⟨host :: more, by rw [hmore, List.append_assoc, List.singleton_append], .cons hreads hall⟩

/-- The hosts `Parse` gives are those of the objects. -/
theorem Legible.parse {blocks : List Block} {text : CStr} (h : Legible blocks text) (hshort : ShortLines text)
    {hosts : List Host} (hparse : parse text = .ok hosts) : List.Forall₂ Block.ReadsAs blocks hosts := by
  rw [parse_eq hshort.splitStatements] at hparse
  cases hrun : (statementsOf text).foldlM parseStatement ParseState.start with
  | error failure =>
      rw [hrun] at hparse
      cases hparse
  | ok s =>
      rw [hrun] at hparse
      obtain rfl := Except.ok.inj hparse
      obtain ⟨more, hmore, hall⟩ := h.run hrun
      rw [List.nil_append] at hmore
      exact hmore ▸ hall

/-! ### What stands at an object -/

section Located

variable {whole : CStr} {block : Block} {found : Nat × Nat}

theorem Located.slice_eq (h : Located whole block found) :
    ∃ behind, slice whole found.1 found.2 = block.text ++ behind ∧ statementsOf behind = [] ∧
      block.text ++ behind <:+: whole := by
  obtain ⟨left, behind, right, rfl, hbehind, rfl⟩ := h
  refine ⟨behind, ?_, hbehind, ⟨left, right, by rw [List.append_assoc]⟩⟩
  rw [Config.slice, List.drop_left, Nat.add_sub_cancel_left, List.take_left]

theorem Located.objectName (h : Located whole block found) : objectName (slice whole found.1 found.2) = block.name := by
  obtain ⟨behind, hslice, -, -⟩ := h.slice_eq
  rw [hslice, Block.text, List.append_assoc, List.cons_append]
  exact block.toHeader.objectName _

/-- Parsed by itself an object is the host it is in its file. -/
theorem Located.parse (h : Located whole block found) (hshort : ShortLines whole) {host : Host} (hreads : block.ReadsAs host) :
    parse (slice whole found.1 found.2) = .ok [host] := by
  obtain ⟨behind, hslice, hbehind, hinfix⟩ := h.slice_eq
  have hstatements : statementsOf (block.text ++ behind) = statementsOf block.text := by
    have halone := block.statementsOf_append []
    rw [List.append_nil] at halone
    rw [block.statementsOf_append, halone, hbehind]
    rfl
  rw [hslice, parse_eq (hshort.stretch hinfix).splitStatements, hstatements, hreads.1]
  rfl

end Located

end Sysmon.Config
