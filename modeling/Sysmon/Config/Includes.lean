import Sysmon.Config.Agreement
import Sysmon.Config.Versions

/-!
# Includes that are read alike

`load` finds the included files with a scanner of its own, the readers of `parser.go` by the lines. They find the same
in a text each of whose lines is an `include` of one quoted path, or does not hold the word.
-/

namespace Sysmon.Config

open GoBytes
open GoSpace (Spaces)
open GoSpace.Spaces (length_zero begins_of_outside)

/-- Whether the word stands in a line, before a comment. -/
def mentionsInclude : Option Char → CStr → Bool
  | _, [] => false
  | prev, c :: s => if c = '#' then false else wordBegins "include" prev (c :: s) || mentionsInclude (some c) s

/-- What may stand behind a path: blanks, and a semicolon among them. -/
def EndsInclude (text : CStr) : Prop :=
  text.all CText.isspace = true ∨ ∃ left right, text = left ++ ';' :: right ∧ left.all CText.isspace = true ∧
    right.all CText.isspace = true

/-- What a line includes. -/
inductive Includes : CStr → Option CStr → Prop
  | other {line : CStr} (hline : mentionsInclude none line = false) : Includes line none
  | path (before between path behind : CStr) (hbefore : before.all isBlank = true) (hbetween : between.all isBlank = true)
      (hpath : path ≠ []) (hquote : '"' ∉ path) (hbehind : EndsInclude behind) :
      Includes (before ++ ("include".toList ++ ' ' :: (between ++ '"' :: (path ++ '"' :: behind)))) (some path)

/-- Each line of a text includes something or does not. -/
def PlainIncludes (content : CStr) : Prop := ∀ line ∈ content.splitOn '\n', ∃ inc, Includes line inc

/-! ### The scanner -/

theorem include_not_sep : ∀ c ∈ "include".toList, isSep c = false := by decide

/-- Characters that begin nothing are passed. -/
theorem includesFrom_plain {text : CStr} (h : ∀ c ∈ text, c ≠ '#' ∧ c ≠ 'i') (prev : Option Char) (rest : CStr) :
    includesFrom (.outside prev) (text ++ rest) = includesFrom (.outside (text.getLast?.or prev)) rest := by
  induction text generalizing prev with
  | nil => rfl
  | cons c text ih =>
      obtain ⟨hhash, hi⟩ := h c List.mem_cons_self
      have hword : "include".toList.head? ≠ some c := fun hhead => hi (Option.some.inj hhead).symm
      obtain ⟨hstarts, -⟩ := wordBegins_head hword (by decide) prev (text ++ rest)
      rw [List.cons_append, includesFrom, if_neg hhash, hstarts, if_neg Bool.false_ne_true,
        ih fun d hd => h d (List.mem_cons_of_mem _ hd)]
      cases text with
      | nil => rfl
      | cons d text =>
          rw [List.getLast?_cons_cons, List.getLast?_cons]
          rfl

theorem includesFrom_directive {text : CStr} (h : ∀ c ∈ text, c ≠ '\n' ∧ c ≠ ';' ∧ c ≠ '"') (rest : CStr) :
    includesFrom .directive (text ++ rest) = includesFrom .directive rest := by
  induction text with
  | nil => rfl
  | cons c text ih =>
      obtain ⟨hnewline, hsemicolon, hquote⟩ := h c List.mem_cons_self
      rw [List.cons_append, includesFrom, if_neg (not_or.mpr ⟨hnewline, hsemicolon⟩), if_neg hquote,
        ih fun d hd => h d (List.mem_cons_of_mem _ hd)]

theorem includesFrom_path {path : CStr} (h : '"' ∉ path) (text rest : CStr) :
    includesFrom (.path text) (path ++ '"' :: rest) = (text ++ path) :: includesFrom (.outside (some '"')) rest := by
  induction path generalizing text with
  | nil => rw [List.nil_append, includesFrom, if_pos rfl, List.append_nil]
  | cons c path ih =>
      rw [List.mem_cons, not_or] at h
      rw [List.cons_append, includesFrom, if_neg (Ne.symm h.1), ih h.2, List.append_assoc, List.singleton_append]

theorem includesFrom_comment {line : CStr} (h : '\n' ∉ line) (rest : CStr) :
    includesFrom .comment (line ++ rest) = includesFrom .comment rest := by
  induction line with
  | nil => rfl
  | cons c line ih =>
      rw [List.mem_cons, not_or] at h
      rw [List.cons_append, includesFrom, if_neg (Ne.symm h.1), ih h.2]

theorem includesFrom_newline (prev : Option Char) (rest : CStr) :
    includesFrom (.outside prev) ('\n' :: rest) = includesFrom (.outside (some '\n')) rest :=
  @includesFrom_plain ['\n'] (by decide) prev rest

/-- A line without the word is passed. -/
theorem includesFrom_other {line : CStr} (hnewline : '\n' ∉ line) {prev prev' : Option Char}
    (hprev : prev.all isSep = true → prev'.all (fun c => isSep c || endsSpace c) = true)
    (hline : mentionsInclude prev' line = false) {rest : CStr} (hrest : rest = [] ∨ ∃ more, rest = '\n' :: more) :
    includesFrom (.outside prev) (line ++ rest) = includesFrom (.outside none) rest := by
  induction line generalizing prev prev' with
  | nil =>
      obtain rfl | ⟨more, rfl⟩ := hrest
      · rfl
      · rw [List.nil_append, includesFrom_newline, includesFrom_newline]
  | cons c line ih =>
      rw [List.mem_cons, not_or] at hnewline
      rw [mentionsInclude] at hline
      rw [List.cons_append, includesFrom]
      by_cases hhash : c = '#'
      · rw [if_pos hhash, includesFrom_comment hnewline.2]
        obtain rfl | ⟨more, rfl⟩ := hrest
        · rfl
        · rw [includesFrom_newline, includesFrom, if_pos rfl]
      · rw [if_neg hhash, Bool.or_eq_false_iff] at hline
        have hstarts : wordStarts "include" prev (c :: (line ++ rest)) = false := by
          have hsame : wordStarts "include" prev (c :: (line ++ rest)) = wordStarts "include" prev (c :: line) := by
            obtain rfl | ⟨more, rfl⟩ := hrest
            · rw [List.append_nil]
            · exact wordStarts_sep include_not_sep (by decide) prev (c :: line) more
          rw [hsame]
          by_contra hstarts
          rw [Bool.not_eq_false, wordStarts, Bool.and_eq_true, Bool.and_eq_true] at hstarts
          refine absurd hline.1 ?_
          rw [wordBegins, hstarts.1.1, hstarts.2, hprev hstarts.1.2]
          decide
        rw [if_neg hhash, hstarts, if_neg Bool.false_ne_true]
        refine ih hnewline.2 (fun hsep => ?_) hline.2
        rw [Option.all_some] at hsep ⊢
        rw [hsep, Bool.true_or]

theorem not_special_of_isspace {c : Char} (h : CText.isspace c = true) : c ≠ '#' ∧ c ≠ 'i' := by
  constructor
  · rintro rfl
    contradiction
  · rintro rfl
    contradiction

theorem EndsInclude.plain {text : CStr} (h : EndsInclude text) : ∀ c ∈ text, c ≠ '#' ∧ c ≠ 'i' := by
  obtain h | ⟨left, right, rfl, hleft, hright⟩ := h
  · exact fun c hc => not_special_of_isspace (List.all_eq_true.mp h c hc)
  · intro c hc
    obtain hc | hc := List.mem_append.mp hc
    · exact not_special_of_isspace (List.all_eq_true.mp hleft c hc)
    obtain rfl | hc := List.mem_cons.mp hc
    · decide
    · exact not_special_of_isspace (List.all_eq_true.mp hright c hc)

/-- Where the scanner is behind a line does not matter at its end. -/
theorem includesFrom_end (prev : Option Char) {rest : CStr} (hrest : rest = [] ∨ ∃ more, rest = '\n' :: more) :
    includesFrom (.outside prev) rest = includesFrom (.outside none) rest :=
  @includesFrom_other [] List.not_mem_nil prev none (fun _ => rfl) rfl rest hrest

theorem Includes.scan {line : CStr} {inc : Option CStr} (h : Includes line inc) (hnewline : '\n' ∉ line)
    {prev : Option Char} (hprev : prev.all isSep = true) {rest : CStr} (hrest : rest = [] ∨ ∃ more, rest = '\n' :: more) :
    includesFrom (.outside prev) (line ++ rest) = inc.toList ++ includesFrom (.outside none) rest := by
  cases h with
  | other hline => exact includesFrom_other hnewline (fun _ => rfl) hline hrest
  | path before between path behind hbefore hbetween hpath hquote hbehind =>
      have hblank : ∀ blanks : CStr, blanks.all isBlank = true → ∀ c ∈ blanks, c = ' ' ∨ c = '\t' :=
        fun blanks hblanks c hc => isBlank_cases (List.all_eq_true.mp hblanks c hc)
      have hpass : ∀ c ∈ before, c ≠ '#' ∧ c ≠ 'i' := by
        intro c hc
        obtain rfl | rfl := hblank before hbefore c hc <;> decide
      have hsep : (before.getLast?.or prev).all isSep = true := by
        cases hlast : before.getLast? with
        | none => exact hprev
        | some c => obtain rfl | rfl := hblank before hbefore c (List.mem_of_getLast? hlast) <;> rfl
      simp only [List.append_assoc, List.cons_append]
      rw [includesFrom_plain hpass]
      generalize before.getLast?.or prev = prev' at hsep
      have hstarts : wordStarts "include" prev'
          ("include".toList ++ ' ' :: (between ++ '"' :: (path ++ '"' :: (behind ++ rest)))) = true := by
        unfold wordStarts
        rw [hsep]
        rfl
      obtain ⟨tail, htail, hplain⟩ : ∃ tail, "include".toList = 'i' :: tail ∧ ∀ c ∈ tail, c ≠ '\n' ∧ c ≠ ';' ∧ c ≠ '"' :=
        ⟨"nclude".toList, by decide, by decide⟩
      have hdirective : ∀ c ∈ tail ++ ' ' :: between, c ≠ '\n' ∧ c ≠ ';' ∧ c ≠ '"' := by
        intro c hc
        obtain hc | hc := List.mem_append.mp hc
        · exact hplain c hc
        obtain rfl | hc := List.mem_cons.mp hc
        · decide
        · obtain rfl | rfl := hblank between hbetween c hc <;> decide
      have htext : "include".toList ++ ' ' :: (between ++ '"' :: (path ++ '"' :: (behind ++ rest))) =
          'i' :: ((tail ++ ' ' :: between) ++ '"' :: (path ++ '"' :: (behind ++ rest))) := by
        rw [htail]
        simp only [List.append_assoc, List.cons_append]
      rw [htext] at hstarts ⊢
      rw [includesFrom, if_neg (by decide), hstarts, if_pos rfl, includesFrom_directive hdirective, includesFrom,
        if_neg (by decide), if_pos rfl, includesFrom_path hquote, List.nil_append,
        includesFrom_plain hbehind.plain, includesFrom_end _ hrest]
      rfl

/-! ### The lines -/

theorem dropCr_between {before text after : CStr} (hne : text ≠ []) (hlast : text.getLast? ≠ some '\r')
    (hafter : after.all CText.isspace = true) :
    ∃ after', dropCr (before ++ (text ++ after)) = before ++ (text ++ after') ∧ after'.all CText.isspace = true := by
  unfold dropCr trimSuffix
  split
  · rename_i hend
    obtain rfl | ⟨left, c, rfl⟩ := List.eq_nil_or_concat after
    · rw [List.append_nil, List.getLast?_append_of_ne_nil _ hne] at hend
      exact absurd hend hlast
    · rw [List.concat_eq_append] at hafter ⊢
      refine ⟨left, ?_, ?_⟩
      · simp only [← List.append_assoc, List.dropLast_concat]
      · rw [List.all_append, Bool.and_eq_true] at hafter
        exact hafter.1
  · exact ⟨after, rfl, hafter⟩

/-- What a line is trimmed to. -/
theorem trimmed_between {before text after : CStr} (hbefore : before.all CText.isspace = true)
    (hafter : after.all CText.isspace = true) {c d : Char} (hfirst : text.head? = some c) (hc : inSpace c = false)
    (hlast : text.getLast? = some d) (hd : inSpace d = false) :
    trimSpace (dropCr (before ++ (text ++ after))) = text := by
  have hne : text ≠ [] := by
    rintro rfl
    contradiction
  have hcr : text.getLast? ≠ some '\r' := by
    rw [hlast, Ne, Option.some.injEq]
    rintro rfl
    exact absurd hd (by decide)
  obtain ⟨after', hdrop, hblank⟩ := @dropCr_between before text after hne hcr hafter
  rw [hdrop]
  refine Spaces.trimSpace_between hbefore hblank ?_ ?_
  · obtain ⟨rest, rfl⟩ := List.head?_eq_some_iff.mp hfirst
    exact length_zero (begins_of_outside hc).1 _
  · obtain ⟨rest, rfl⟩ := List.getLast?_eq_some_iff.mp hlast
    rw [List.reverse_append]
    exact length_zero (begins_of_outside hd).2 _

theorem extractQuoted_quoted {before between path : CStr} (hbefore : before.all isBlank = true)
    (hbetween : between.all CText.isspace = true) :
    extractQuoted (before ++ ('"' :: (path ++ ['"']) ++ between)) = .ok path := by
  have htrim : trimSpace (before ++ ('"' :: (path ++ ['"']) ++ between)) = '"' :: (path ++ ['"']) := by
    refine Spaces.trimSpace_between (all_isspace_of_isBlank hbefore) hbetween ?_ ?_
    · exact length_zero (by decide) _
    · rw [List.reverse_cons, List.reverse_append, List.append_assoc]
      exact length_zero (by decide) _
  have hlast : ('"' :: (path ++ ['"'])).getLast? = some '"' := by
    rw [← List.cons_append, List.getLast?_concat]
  rw [extractQuoted, htrim, if_pos ⟨rfl, hlast⟩, if_neg (by simp), List.tail_cons, List.dropLast_concat]

/-- A line with the word in front mentions it. -/
theorem mentionsInclude_spaces {spaces : CStr} (hspaces : ∀ c ∈ spaces, inSpace c = true) {prev : Option Char}
    (hlast : (spaces.getLast?.or prev).all (fun c => isSep c || endsSpace c) = true) (more : CStr) :
    mentionsInclude prev (spaces ++ ("include ".toList ++ more)) = true := by
  induction spaces generalizing prev with
  | nil =>
      have hbegins : wordBegins "include" prev ("include ".toList ++ more) = true := by
        unfold wordBegins
        rw [show prev.all (fun c => isSep c || endsSpace c) = true from hlast]
        rfl
      obtain ⟨tail, htail⟩ : ∃ tail, "include ".toList = 'i' :: tail := ⟨_, rfl⟩
      rw [List.nil_append]
      rw [htail, List.cons_append] at hbegins ⊢
      rw [mentionsInclude, if_neg (by decide), hbegins, Bool.true_or]
  | cons c spaces ih =>
      have hhash : c ≠ '#' := ne_of_inSpace (hspaces c List.mem_cons_self) (by decide)
      have hlast' : (spaces.getLast?.or (some c)).all (fun c => isSep c || endsSpace c) = true := by
        cases spaces with
        | nil => exact hlast
        | cons d spaces =>
            rw [List.getLast?_cons_cons, List.getLast?_cons] at hlast
            rw [List.getLast?_cons]
            exact hlast
      rw [List.cons_append, mentionsInclude, if_neg hhash,
        ih (fun d hd => hspaces d (List.mem_cons_of_mem _ hd)) hlast', Bool.or_true]

theorem Includes.includeLine {line : CStr} {inc : Option CStr} (h : Includes line inc) :
    includeLine (dropCr line) = .ok inc := by
  cases h with
  | other hline =>
      have hnot : startsWith "include " (trimSuffix ';' (trimSpace (dropCr line))) = false := by
        by_contra hstarts
        rw [Bool.not_eq_false, startsWith, List.isPrefixOf_iff_prefix] at hstarts
        obtain ⟨spaces, more, rfl, hspaces, hlast⟩ := trimmed_prefix hstarts
        have hlast' : (spaces.getLast?.or none).all (fun c => isSep c || endsSpace c) = true := by
          cases hend : spaces.getLast? with
          | none => rfl
          | some c =>
              rw [hend, Option.all_some] at hlast
              rw [Option.some_or, Option.all_some, hlast, Bool.or_true]
        rw [mentionsInclude_spaces hspaces hlast' more] at hline
        contradiction
      rw [Config.includeLine, hnot]
      rfl
  | path before between path behind hbefore hbetween hpath hquote hbehind =>
      obtain ⟨core, hcore⟩ : ∃ core, core = "include".toList ++ ' ' :: (between ++ '"' :: (path ++ ['"'])) := ⟨_, rfl⟩
      have hlast : core.getLast? = some '"' := by
        have hsame : core = ("include".toList ++ ' ' :: (between ++ '"' :: path)) ++ ['"'] := by
          rw [hcore]
          simp only [List.append_assoc, List.cons_append]
        rw [hsame, List.getLast?_concat]
      have hhead : ∀ more, (core ++ more).head? = some 'i' := by
        intro more
        rw [hcore]
        rfl
      -- the line without what is trimmed off, and without its semicolon
      have htrim : ∃ left : CStr, trimSuffix ';' (trimSpace (dropCr (before ++
          ("include".toList ++ ' ' :: (between ++ '"' :: (path ++ '"' :: behind)))))) = core ++ left ∧
          left.all CText.isspace = true := by
        have htext : "include".toList ++ ' ' :: (between ++ '"' :: (path ++ '"' :: behind)) = core ++ behind := by
          rw [hcore]
          simp only [List.append_assoc, List.cons_append, List.nil_append]
        rw [htext]
        obtain hblank | ⟨left, right, rfl, hleft, hright⟩ := hbehind
        · have hhead' := hhead []
          rw [List.append_nil] at hhead'
          refine ⟨[], ?_, rfl⟩
          rw [trimmed_between (all_isspace_of_isBlank hbefore) hblank hhead' (by decide) hlast (by decide),
            trimSuffix, hlast, List.append_nil]
          rfl
        · refine ⟨left, ?_, hleft⟩
          have hassoc : core ++ (left ++ ';' :: right) = (core ++ left ++ [';']) ++ right := by
            simp only [List.append_assoc, List.cons_append, List.nil_append]
          have hhead' : (core ++ left ++ [';']).head? = some 'i' := by rw [List.append_assoc, hhead]
          rw [hassoc, trimmed_between (all_isspace_of_isBlank hbefore) hright hhead' (by decide)
            List.getLast?_concat (by decide), trimSuffix, List.getLast?_concat, if_pos rfl, List.dropLast_concat]
      obtain ⟨left, htrim, hleft⟩ := htrim
      have hstarts : startsWith "include " (core ++ left) = true := by
        rw [hcore]
        rfl
      have hprefix : trimPrefix "include ".toList (core ++ left) = between ++ ('"' :: (path ++ ['"']) ++ left) := by
        have hinclude : "include ".toList.isPrefixOf (core ++ left) = true := hstarts
        rw [trimPrefix, if_pos hinclude, hcore, List.append_assoc]
        change between ++ '"' :: (path ++ ['"']) ++ left = _
        rw [List.append_assoc]
      rw [Config.includeLine, htrim, if_pos hstarts, hprefix, extractQuoted_quoted hbetween hleft]
      change Except.ok (if path = [] then none else some path) = _
      rw [if_neg hpath]

/-- The scanner and the readers of the lines find the same files. -/
theorem PlainIncludes.scanIncludes {content : CStr} (h : PlainIncludes content) (hshort : ShortLines content) (path : CStr) :
    (scanLines content).filterMap (included path) = (scanIncludes content).map (includePath path) := by
  have hlines : ∀ lines : List CStr, (∀ line ∈ lines, '\n' ∉ line ∧ ∃ inc, Includes line inc) → ∀ prev : Option Char,
      prev.all isSep = true → lines ≠ [] →
      lines.filterMap (fun line => included path (dropCr line)) =
        (includesFrom (.outside prev) (['\n'].intercalate lines)).map (includePath path) := by
    intro lines
    induction lines with
    | nil => exact fun _ _ _ hne => absurd rfl hne
    | cons line lines ih =>
        intro hall prev hprev _
        obtain ⟨hnewline, inc, hinc⟩ := hall line List.mem_cons_self
        have hfirst : included path (dropCr line) = inc.map (includePath path) := by
          rw [included, hinc.includeLine]
          cases inc <;> rfl
        cases lines with
        | nil =>
            have hscan := hinc.scan hnewline hprev (Or.inl rfl)
            rw [List.append_nil] at hscan
            rw [List.filterMap_cons, List.filterMap_nil, hfirst, List.intercalate_singleton, hscan]
            cases inc <;> rfl
        | cons next lines =>
            have hrest := ih (fun other hother => hall other (List.mem_cons_of_mem _ hother)) (some '\n') rfl
              (List.cons_ne_nil _ _)
            have hscan := hinc.scan hnewline hprev (Or.inr ⟨['\n'].intercalate (next :: lines), rfl⟩)
            have htext : ['\n'].intercalate (line :: next :: lines) =
                line ++ '\n' :: ['\n'].intercalate (next :: lines) := by
              rw [List.intercalate_cons_cons, List.append_assoc]
              rfl
            rw [List.filterMap_cons, hfirst, htext, hscan, includesFrom_newline, List.map_append, ← hrest]
            cases inc <;> rfl
  have hscanned : (scanLines content).filterMap (included path) =
      (content.splitOn '\n').filterMap (fun line => included path (dropCr line)) := by
    rw [scanLines_eq (scanOk_of_broken (Broken.refl content) hshort), List.filterMap_map, rawLines]
    split
    · rename_i hlast
      obtain ⟨lines, hlines⟩ := List.getLast?_eq_some_iff.mp hlast
      have hblank : included path (dropCr []) = none := rfl
      rw [hlines, List.dropLast_concat, List.filterMap_append, List.filterMap_cons, hblank, List.filterMap_nil,
        List.append_nil]
      rfl
    · rfl
  obtain ⟨first, rest, hsplit, ⟨-, hfirst⟩, hrest⟩ := (Broken.refl content).lines
  rw [hscanned, hlines (content.splitOn '\n') (fun line hline => ⟨?_, h line hline⟩) none rfl (List.splitOn_ne_nil _ _),
    List.intercalate_splitOn]
  · rfl
  · rw [hsplit] at hline
    obtain rfl | hline := List.mem_cons.mp hline
    · exact hfirst
    · exact (hrest line hline).2

end Sysmon.Config
