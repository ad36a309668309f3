import Sysmon.Config.Splice
import Sysmon.Config.Statements

/-!
# Texts that are read alike

The scanner of `splice.go` goes by characters, `Parse` by statements. Of a text that consists of whole objects and of
gaps between them they make the same objects: in a gap no object begins, whatever is in comments and quotes, and an
object has one word for its name and no braces inside.
-/

namespace Sysmon.Config

open GoBytes

/-! ### Words -/

/-- A character that is part of some white space, and one that is the last of it. -/
def inSpace (c : Char) : Bool := charSpaces.inSpace c

def endsSpace (c : Char) : Bool := charSpaces.endsSpace c

/-- Whether a word begins here, behind a separator or behind any other white space. -/
def wordBegins (word : String) (prev : Option Char) (s : CStr) : Bool :=
  word.toList.isPrefixOf s && prev.all (fun c => isSep c || endsSpace c) && (s.drop word.toList.length).head?.all isSep

/-- A separator ends a word, whatever is behind it. -/
theorem wordStarts_sep {word : String} (hword : ∀ c ∈ word.toList, isSep c = false) {d : Char} (hd : isSep d = true)
    (prev : Option Char) (s rest : CStr) : wordStarts word prev (s ++ d :: rest) = wordStarts word prev s := by
  have hprefix : word.toList <+: s ++ d :: rest ↔ word.toList <+: s := by
    constructor
    · intro h
      obtain hshort | ⟨more, hmore⟩ := List.prefix_or_prefix_of_prefix h (List.prefix_append s (d :: rest))
      · exact hshort
      · cases more with
        | nil => exact ⟨[], by rw [← hmore, List.append_nil, List.append_nil]⟩
        | cons e more =>
            rw [← hmore, List.prefix_append_right_inj] at h
            obtain ⟨rfl, -⟩ := List.cons_prefix_cons.mp h
            have hmem : e ∈ word.toList := by rw [← hmore]; simp
            exact absurd (hd.symm.trans (hword e hmem)) (by decide)
    · exact fun h => h.trans (List.prefix_append _ _)
  unfold wordStarts
  by_cases h : word.toList <+: s
  · obtain ⟨more, rfl⟩ := h
    rw [List.append_assoc, List.drop_left, List.drop_left, List.isPrefixOf_iff_prefix.mpr (List.prefix_append _ _),
      List.isPrefixOf_iff_prefix.mpr (List.prefix_append _ _)]
    cases more <;> simp [hd]
  · have hs : word.toList.isPrefixOf s = false := by rwa [← Bool.not_eq_true, List.isPrefixOf_iff_prefix]
    have hlong : word.toList.isPrefixOf (s ++ d :: rest) = false := by
      rwa [← Bool.not_eq_true, List.isPrefixOf_iff_prefix, hprefix]
    rw [hs, hlong, Bool.false_and, Bool.false_and]
    rfl

/-- A word does not go on behind a text that ends with a separator. -/
theorem wordStarts_append {word : String} (hword : ∀ c ∈ word.toList, isSep c = false) {s rest : CStr} (hne : s ≠ [])
    (hend : rest = [] ∨ s.getLast?.all isSep = true) (prev : Option Char) :
    wordStarts word prev (s ++ rest) = wordStarts word prev s := by
  obtain rfl | hend := hend
  · rw [List.append_nil]
  · obtain ⟨before, d, rfl⟩ := (List.eq_nil_or_concat s).resolve_left hne
    rw [List.concat_eq_append] at hend ⊢
    rw [List.getLast?_concat, Option.all_some] at hend
    rw [List.append_assoc, List.singleton_append, wordStarts_sep hword hend, wordStarts_sep hword hend]

/-! ### Between objects -/

/-- Where a text is between objects. -/
inductive Region where
  | code
  | quoted
  | comment
  /-- Behind the word `object`, on the same line. -/
  | header
  deriving DecidableEq, Repr

/-- After a character, unless an object begins or a line ends in a quote. -/
def Region.next (prev : Option Char) (c : Char) (s : CStr) : Region → Option Region
  | .code =>
      if c = '#' then some .comment
      else if c = '"' then some .quoted
      else if wordStarts "object" prev (c :: s) then some .header
      else if wordBegins "object" prev (c :: s) then none
      else some .code
  | .quoted => if c = '"' then some .code else if c = '\n' then none else some .quoted
  | .comment => if c = '\n' then some .code else some .comment
  | .header => if c = '\n' then some .code else if c = '\x7b' then none else some .header

def Region.after : Region → Option Char → CStr → Option Region
  | region, _, [] => some region
  | region, prev, c :: s => (region.next prev c s).bind fun region => region.after (some c) s

/-- What stands between two objects. None begins in it, a statement may begin behind it, and a `spawns` block that it
opens it closes. -/
structure Gap (text : CStr) : Prop where
  quiet : Region.after .code none text = some .code
  whole : stateAfter SplitState.lineStart text = SplitState.lineStart
  spawns : (statementsOf text).foldl spawnsNext false = false

/-! ### Objects -/

/-- White space inside a line, as the scanner knows it. -/
def isBlank (c : Char) : Bool := c = ' ' || c = '\t'

/-- A character that is no white space and begins none. -/
def isPlain (c : Char) : Bool := !charSpaces.beginsSpace c

/-- What stands before the brace of an object. -/
structure Header where
  before : CStr
  name : CStr
  after : CStr
  blank_before : before.all isBlank = true
  blank_after : after.all isBlank = true
  named : name ≠ []
  plain : name.all isPlain = true
  unbroken : isUnbroken false name = true
  unbraced : '\x7b' ∉ name

def Header.text (header : Header) : CStr := "object".toList ++ ' ' :: (header.before ++ (header.name ++ header.after))

/-- Inside an object, after a character that is no brace of it. -/
def Region.nextInside (c : Char) : Region → Option Region
  | .code =>
      if c = '#' then some .comment
      else if c = '"' then some .quoted
      else if c = '\x7b' ∨ c = '\x7d' then none
      else some .code
  | .quoted => if c = '"' then some .code else some .quoted
  | .comment => if c = '\n' then some .code else some .comment
  | .header => none

def Region.afterInside : Region → CStr → Option Region
  | region, [] => some region
  | region, c :: s => (region.nextInside c).bind fun region => region.afterInside s

/-- What stands between the braces of an object: whole statements, of which none begins something else. -/
structure Body (text : CStr) : Prop where
  quiet : Region.afterInside .code text = some .code
  whole : stateAfter SplitState.lineStart text = SplitState.lineStart
  stays : ∀ line ∈ statementsOf text, StaysInside line

structure Block extends Header where
  body : CStr
  isBody : Body body

def Block.text (block : Block) : CStr := block.toHeader.text ++ '\x7b' :: (block.body ++ ['\x7d'])

/-- The texts that consist of these objects, with an object at the end that is not closed, or none. -/
inductive Legible : List Block → CStr → Prop
  | last {gap : CStr} (hgap : (Region.after .code none gap).isSome) : Legible [] gap
  | unclosed {gap : CStr} (hgap : Gap gap) (header : Header) {body : CStr}
      (hquiet : (Region.afterInside .code body).isSome) (hstays : ∀ line ∈ statementsOf body, StaysInside line) :
      Legible [] (gap ++ (header.text ++ '\x7b' :: body))
  | block {gap : CStr} (hgap : Gap gap) (block : Block) {blocks : List Block} {rest : CStr} (hrest : Legible blocks rest) :
      Legible (block :: blocks) (gap ++ (block.text ++ rest))

/-! ### The scanner in a gap -/

/-- The mode of the scanner in a region, with the character before it. -/
inductive ScansAs (prev : Option Char) : Region → ScanMode → Prop
  | code {prev' : Option Char} (hprev : prev'.all isSep = prev.all isSep) : ScansAs prev .code (.outside prev')
  | quoted : ScansAs prev .quoted .quoted
  | comment : ScansAs prev .comment .comment
  | header (start : Nat) : ScansAs prev .header (.header start)

theorem wordStarts_prev {prev prev' : Option Char} (h : prev'.all isSep = prev.all isSep) (word : String) (s : CStr) :
    wordStarts word prev' s = wordStarts word prev s := by
  rw [wordStarts, wordStarts, h]

theorem object_not_sep : ∀ c ∈ "object".toList, isSep c = false := by decide

theorem ScansAs.next {prev : Option Char} {region after : Region} {mode : ScanMode} {c : Char} {text rest : CStr}
    (h : ScansAs prev region mode) (hafter : region.next prev c text = some after)
    (hend : rest = [] ∨ (c :: text).getLast?.all isSep = true) (pos : Nat) :
    mode.found pos c = [] ∧ ScansAs (some c) after (mode.next pos c (text ++ rest)) := by
  cases h with
  | @code prev' hprev =>
      refine ⟨rfl, ?_⟩
      have hword : wordStarts "object" prev' (c :: (text ++ rest)) = wordStarts "object" prev (c :: text) :=
        (wordStarts_append object_not_sep (List.cons_ne_nil c text) hend prev').trans (wordStarts_prev hprev _ _)
      rw [Region.next] at hafter
      rw [ScanMode.next, outsideNext, hword]
      split at hafter
      · obtain rfl := Option.some.inj hafter
        rw [if_pos ‹_›]
        exact .comment
      split at hafter
      · obtain rfl := Option.some.inj hafter
        rw [if_neg ‹_›, if_pos ‹_›]
        exact .quoted
      split at hafter
      · obtain rfl := Option.some.inj hafter
        rw [if_neg ‹_›, if_neg ‹_›, if_pos ‹_›]
        exact .header pos
      split at hafter
      · contradiction
      · obtain rfl := Option.some.inj hafter
        rw [if_neg ‹_›, if_neg ‹_›, if_neg ‹_›]
        exact .code rfl
  | quoted =>
      refine ⟨rfl, ?_⟩
      rw [Region.next] at hafter
      rw [ScanMode.next]
      split at hafter
      · obtain rfl := Option.some.inj hafter
        rw [if_pos ‹_›]
        exact .code rfl
      split at hafter
      · contradiction
      · obtain rfl := Option.some.inj hafter
        rw [if_neg ‹_›]
        exact .quoted
  | comment =>
      refine ⟨rfl, ?_⟩
      rw [Region.next] at hafter
      rw [ScanMode.next]
      split at hafter
      · obtain rfl := Option.some.inj hafter
        rw [if_pos ‹_›]
        exact .code rfl
      · obtain rfl := Option.some.inj hafter
        rw [if_neg ‹_›]
        exact .comment
  | header start =>
      refine ⟨rfl, ?_⟩
      rw [Region.next] at hafter
      rw [ScanMode.next]
      split at hafter
      · rename_i hnewline
        obtain rfl := Option.some.inj hafter
        rw [if_neg (by rw [hnewline]; decide), if_pos hnewline]
        exact .code rfl
      split at hafter
      · contradiction
      · obtain rfl := Option.some.inj hafter
        rw [if_neg ‹_›, if_neg ‹_›]
        exact .header start

theorem scanFrom_region {prev : Option Char} {region after : Region} {mode : ScanMode} {text rest : CStr}
    (h : ScansAs prev region mode) (hafter : region.after prev text = some after)
    (hend : rest = [] ∨ text.getLast?.all isSep = true) (pos : Nat) :
    ∃ mode', ScansAs (text.getLast?.or prev) after mode' ∧
      scanFrom mode pos (text ++ rest) = scanFrom mode' (pos + text.length) rest := by
  induction text generalizing prev region mode pos with
  | nil =>
      obtain rfl := Option.some.inj hafter
      exact ⟨mode, h, rfl⟩
  | cons c text ih =>
      rw [Region.after, Option.bind_eq_some_iff] at hafter
      obtain ⟨region', hnext, hafter⟩ := hafter
      obtain ⟨hfound, hscans⟩ := h.next hnext hend pos
      have hlast : rest = [] ∨ text.getLast?.all isSep = true := by
        refine hend.imp_right fun hsep => ?_
        cases text with
        | nil => rfl
        | cons d text => exact hsep
      obtain ⟨mode', hmode', hscan⟩ := ih hscans hafter hlast (pos + 1)
      refine ⟨mode', ?_, ?_⟩
      · cases text with
        | nil => exact hmode'
        | cons d text =>
            have hsame : (c :: d :: text).getLast?.or prev = (d :: text).getLast?.or (some c) := by
              rw [List.getLast?_cons_cons, List.getLast?_cons]
              rfl
            rw [hsame]
            exact hmode'
      · rw [List.cons_append, scanFrom, hfound, List.nil_append, hscan, List.length_cons, Nat.add_assoc, Nat.add_comm 1]

/-- A gap ends with a separator. -/
theorem isSep_of_lineStart {text : CStr} (h : stateAfter SplitState.lineStart text = SplitState.lineStart) :
    text.getLast?.all isSep = true := by
  obtain rfl | ⟨before, c, rfl⟩ := List.eq_nil_or_concat text
  · rfl
  · rw [List.concat_eq_append] at h ⊢
    rw [stateAfter_append] at h
    rw [List.getLast?_concat, Option.all_some]
    obtain hsame | ⟨hsep, -, -, -⟩ := next_cases (stateAfter SplitState.lineStart before) c
    · obtain ⟨left, hleft⟩ | ⟨-, hwhite, -⟩ := next_lineStart (stateAfter_inQuote (by decide) before) h
      · rw [hsame] at hleft
        obtain ⟨-, hc⟩ := @List.append_inj' _ [] _ _ _ hleft rfl
        obtain rfl := List.head_eq_of_cons_eq hc
        rfl
      · simp only [isWhite, Bool.or_eq_true, decide_eq_true_eq] at hwhite
        obtain ((rfl | rfl) | rfl) | rfl := hwhite <;> rfl
    · obtain rfl | rfl | rfl := hsep <;> rfl

/-- The scanner passes a gap. -/
theorem Gap.scanFrom {gap : CStr} (h : Gap gap) {prev : Option Char} (hprev : prev.all isSep = true) (pos : Nat)
    (rest : CStr) : ∃ prev' : Option Char, prev'.all isSep = true ∧
      scanFrom (.outside prev) pos (gap ++ rest) = scanFrom (.outside prev') (pos + gap.length) rest := by
  have hsep := isSep_of_lineStart h.whole
  have hcode : ScansAs none .code (.outside prev) := .code hprev
  obtain ⟨mode, hmode, hscan⟩ := scanFrom_region hcode h.quiet (Or.inr hsep) pos
  cases hmode with
  | @code prev' hall =>
      refine ⟨prev', ?_, hscan⟩
      rw [hall]
      cases hlast : gap.getLast? with
      | none => rfl
      | some c =>
          rw [hlast] at hsep
          exact hsep

/-! ### The scanner in an object -/

theorem scanFrom_header {text : CStr} (hbrace : '\x7b' ∉ text) (hnewline : '\n' ∉ text) (start pos : Nat) (rest : CStr) :
    scanFrom (.header start) pos (text ++ rest) = scanFrom (.header start) (pos + text.length) rest := by
  induction text generalizing pos with
  | nil => rfl
  | cons c text ih =>
      rw [List.mem_cons, not_or] at hbrace hnewline
      have hnext : ScanMode.next pos c (text ++ rest) (.header start) = .header start := by
        rw [ScanMode.next, if_neg (Ne.symm hbrace.1), if_neg (Ne.symm hnewline.1)]
      rw [List.cons_append, scanFrom, hnext, ih hbrace.2 hnewline.2, List.length_cons, Nat.add_assoc, Nat.add_comm 1]
      rfl

/-- The mode inside an object, of which no brace is open but its own. -/
def Region.blockMode (start : Nat) : Region → ScanMode
  | .quoted => .blockQuoted start 1
  | .comment => .blockComment start 1
  | .code | .header => .block start 1

theorem scanFrom_inside {region after : Region} {text : CStr} (h : region.afterInside text = some after)
    (hregion : region ≠ .header) (start pos : Nat) (rest : CStr) :
    after ≠ .header ∧ scanFrom (region.blockMode start) pos (text ++ rest) =
      scanFrom (after.blockMode start) (pos + text.length) rest := by
  induction text generalizing region pos with
  | nil =>
      obtain rfl := Option.some.inj h
      exact ⟨hregion, rfl⟩
  | cons c text ih =>
      rw [Region.afterInside, Option.bind_eq_some_iff] at h
      obtain ⟨region', hnext, h⟩ := h
      have hstep : region' ≠ .header ∧ (region.blockMode start).found pos c = [] ∧
          (region.blockMode start).next pos c (text ++ rest) = region'.blockMode start := by
        cases region with
        | header => exact absurd rfl hregion
        | code =>
            rw [Region.nextInside] at hnext
            rw [Region.blockMode, ScanMode.next]
            split at hnext
            · obtain rfl := Option.some.inj hnext
              exact ⟨by decide, rfl, by rw [if_pos ‹_›]; rfl⟩
            split at hnext
            · obtain rfl := Option.some.inj hnext
              exact ⟨by decide, rfl, by rw [if_neg ‹_›, if_pos ‹_›]; rfl⟩
            split at hnext
            · contradiction
            · rename_i hbrace
              rw [not_or] at hbrace
              obtain rfl := Option.some.inj hnext
              exact ⟨by decide, rfl, by rw [if_neg ‹_›, if_neg ‹_›, if_neg hbrace.1, if_neg hbrace.2]; rfl⟩
        | quoted =>
            rw [Region.nextInside] at hnext
            rw [Region.blockMode, ScanMode.next]
            split at hnext
            · obtain rfl := Option.some.inj hnext
              exact ⟨by decide, rfl, by rw [if_pos ‹_›]; rfl⟩
            · obtain rfl := Option.some.inj hnext
              exact ⟨by decide, rfl, by rw [if_neg ‹_›]; rfl⟩
        | comment =>
            rw [Region.nextInside] at hnext
            rw [Region.blockMode, ScanMode.next]
            split at hnext
            · obtain rfl := Option.some.inj hnext
              exact ⟨by decide, rfl, by rw [if_pos ‹_›]; rfl⟩
            · obtain rfl := Option.some.inj hnext
              exact ⟨by decide, rfl, by rw [if_neg ‹_›]; rfl⟩
      obtain ⟨hheader, hfound, hmode⟩ := hstep
      obtain ⟨hafter, hscan⟩ := ih h hheader (pos + 1)
      refine ⟨hafter, ?_⟩
      rw [List.cons_append, scanFrom, hfound, List.nil_append, hmode, hscan, List.length_cons, Nat.add_assoc, Nat.add_comm 1]

/-- The blanks and the semicolon behind the brace of an object, which are part of it. -/
def closer : CStr → CStr
  | [] => []
  | c :: s => if c = ' ' ∨ c = '\t' then c :: closer s else if c = ';' then [c] else []

/-- Behind its brace an object is found, and the scanner goes on as behind any separator. -/
theorem scanFrom_closing {start : Nat} {prev : Char} (hprev : isSep prev = true) (pos : Nat) (s : CStr) :
    scanFrom (.closing start prev) pos s = (start, pos + (closer s).length) :: scanFrom (.outside (some prev)) pos s := by
  induction s generalizing prev pos with
  | nil => rfl
  | cons c s ih =>
      rw [scanFrom, scanFrom, closer]
      by_cases hblank : c = ' ' ∨ c = '\t'
      · have hfound : (ScanMode.closing start prev).found pos c = [] := if_pos hblank
        have hclosing : (ScanMode.closing start prev).next pos c s = .closing start c := if_pos hblank
        have houtside : (ScanMode.outside (some prev)).next pos c s = .outside (some c) := by
          obtain rfl | rfl := hblank <;> rfl
        have hsep : isSep c = true := by obtain rfl | rfl := hblank <;> rfl
        rw [hfound, hclosing, houtside, ih hsep, if_pos hblank, List.length_cons, Nat.add_assoc, Nat.add_comm 1]
        rfl
      · by_cases hsemicolon : c = ';'
        · subst hsemicolon
          rfl
        · have hfound : (ScanMode.closing start prev).found pos c = [(start, pos)] := by
            rw [ScanMode.found, if_neg hblank, if_neg hsemicolon]
          have hclosing : (ScanMode.closing start prev).next pos c s = outsideNext pos (some prev) c s := by
            rw [ScanMode.next, if_neg hblank, if_neg hsemicolon]
          rw [hfound, hclosing, if_neg hblank, if_neg hsemicolon]
          rfl

theorem closer_prefix (s : CStr) : closer s <+: s := by
  induction s with
  | nil => exact List.prefix_rfl
  | cons c s ih =>
      rw [closer]
      split
      · exact List.cons_prefix_cons.mpr ⟨rfl, ih⟩
      split
      · exact List.cons_prefix_cons.mpr ⟨rfl, List.nil_prefix⟩
      · exact List.nil_prefix

/-- For `Parse` the semicolon is a comment. -/
theorem statementsOf_closer (s : CStr) : statementsOf (closer s) = [] := by
  induction s with
  | nil => rfl
  | cons c s ih =>
      rw [closer]
      split
      · rename_i hblank
        have hwhite : isWhite c = true := by obtain rfl | rfl := hblank <;> rfl
        rw [statementsOf_white hwhite, ih]
      split
      · rename_i hsemicolon
        subst hsemicolon
        decide
      · rfl

section Header

variable (header : Header)

theorem isBlank_cases {c : Char} (h : isBlank c = true) : c = ' ' ∨ c = '\t' := by simpa [isBlank] using h

theorem not_mem_blank {blanks : CStr} (h : blanks.all isBlank = true) {c : Char} (hc : isBlank c = false) : c ∉ blanks :=
  fun hmem => absurd ((List.all_eq_true.mp h c hmem).symm.trans hc) (by decide)

theorem Header.not_mem {c : Char} (hblank : isBlank c = false) (hword : c ∉ "object".toList) (hname : c ∉ header.name) :
    c ∉ header.text := by
  have hne : c ≠ ' ' := by
    rintro rfl
    contradiction
  unfold Header.text
  rw [List.mem_append, List.mem_cons, List.mem_append, List.mem_append, not_or, not_or, not_or, not_or]
  exact ⟨hword, hne, not_mem_blank header.blank_before hblank, hname, not_mem_blank header.blank_after hblank⟩

theorem Header.brace_not_mem : '\x7b' ∉ header.text := header.not_mem (by decide) (by decide) header.unbraced

theorem Header.newline_not_mem : '\n' ∉ header.text :=
  header.not_mem (by decide) (by decide) (newline_not_mem_unbroken false header.unbroken)

/-- The scanner takes what begins with the word for an object. -/
theorem Header.scanFrom {prev : Option Char} (hprev : prev.all isSep = true) (pos : Nat) (rest : CStr) :
    scanFrom (.outside prev) pos (header.text ++ '\x7b' :: rest) =
      scanFrom (.block pos 1) (pos + (header.text.length + 1)) rest := by
  have hbrace := header.brace_not_mem
  have hnewline := header.newline_not_mem
  obtain ⟨more, hmore⟩ : ∃ more, header.text = 'o' :: more := ⟨_, rfl⟩
  have hword : wordStarts "object" prev (header.text ++ '\x7b' :: rest) = true := by
    unfold wordStarts
    rw [hprev]
    rfl
  have hnext : outsideNext pos prev 'o' (more ++ '\x7b' :: rest) = .header pos := by
    rw [outsideNext, if_neg (by decide), if_neg (by decide), if_pos]
    rw [hmore] at hword
    exact hword
  rw [hmore, List.mem_cons, not_or] at hbrace hnewline
  rw [hmore, List.cons_append, Config.scanFrom, ScanMode.next, hnext, scanFrom_header hbrace.2 hnewline.2, Config.scanFrom,
    List.length_cons]
  change Config.scanFrom (.block pos 1) _ _ = _
  congr 1
  omega

end Header

/-- Where an object is found in a text. -/
def Located (whole : CStr) (block : Block) (found : Nat × Nat) : Prop :=
  ∃ left behind right, whole = left ++ ((block.text ++ behind) ++ right) ∧ statementsOf behind = [] ∧
    found = (left.length, left.length + (block.text ++ behind).length)

theorem Block.scanFrom (block : Block) {prev : Option Char} (hprev : prev.all isSep = true) (pos : Nat) (rest : CStr) :
    scanFrom (.outside prev) pos (block.text ++ rest) =
      (pos, pos + (block.text ++ closer rest).length) ::
        scanFrom (.outside (some '\x7d')) (pos + block.text.length) rest := by
  have hinside := (scanFrom_inside block.isBody.quiet (by decide) pos (pos + (block.toHeader.text.length + 1))
    ('\x7d' :: rest)).2
  have htext : block.text ++ rest = block.toHeader.text ++ '\x7b' :: (block.body ++ '\x7d' :: rest) := by
    rw [Block.text, List.append_assoc, List.cons_append, List.append_assoc, List.singleton_append]
  have hlength : block.text.length = block.toHeader.text.length + 1 + block.body.length + 1 := by
    rw [Block.text, List.length_append, List.length_cons, List.length_append, List.length_singleton]
    omega
  rw [htext, block.toHeader.scanFrom hprev]
  refine hinside.trans ?_
  rw [Region.blockMode, Config.scanFrom]
  change Config.scanFrom (.closing pos '\x7d') _ rest = _
  rw [scanFrom_closing (by decide), List.length_append, hlength]
  congr 2 <;> omega

/-- The objects the scanner finds in such a text are those it consists of. -/
theorem Legible.scanFrom {blocks : List Block} {text : CStr} (h : Legible blocks text) (left : CStr) {prev : Option Char}
    (hprev : prev.all isSep = true) :
    List.Forall₂ (Located (left ++ text)) blocks (scanFrom (.outside prev) left.length text) := by
  induction h generalizing left prev with
  | @last gap hgap =>
      obtain ⟨after, hafter⟩ := Option.isSome_iff_exists.mp hgap
      have hcode : ScansAs none .code (.outside prev) := .code hprev
      obtain ⟨mode, hmode, hscan⟩ := @scanFrom_region _ _ _ _ _ [] hcode hafter (Or.inl rfl) left.length
      rw [List.append_nil] at hscan
      rw [hscan]
      cases hmode <;> exact .nil
  | @unclosed gap hgap header body hquiet hstays =>
      obtain ⟨after, hafter⟩ := Option.isSome_iff_exists.mp hquiet
      obtain ⟨prev', hprev', hscan⟩ := hgap.scanFrom hprev left.length (header.text ++ '\x7b' :: body)
      obtain ⟨-, hinside⟩ := scanFrom_inside hafter (by decide) (left.length + gap.length)
        (left.length + gap.length + (header.text.length + 1)) []
      rw [List.append_nil] at hinside
      rw [hscan, header.scanFrom hprev']
      refine hinside.symm ▸ ?_
      cases after <;> exact .nil
  | @block gap hgap block blocks rest hrest ih =>
      obtain ⟨prev', hprev', hscan⟩ := hgap.scanFrom hprev left.length (block.text ++ rest)
      rw [hscan, block.scanFrom hprev']
      obtain ⟨right, hright⟩ := closer_prefix rest
      refine .cons ⟨left ++ gap, closer rest, right, ?_, statementsOf_closer rest, ?_⟩ ?_
      · simp only [List.append_assoc, hright]
      · rw [show (left ++ gap).length = left.length + gap.length from List.length_append]
      · have hlater := @ih (left ++ gap ++ block.text) (some '\x7d') (by decide)
        simp only [List.append_assoc, List.length_append] at hlater ⊢
        rw [Nat.add_assoc]
        exact hlater

theorem Legible.scanObjects {blocks : List Block} {text : CStr} (h : Legible blocks text) :
    List.Forall₂ (Located text) blocks (scanObjects text) := h.scanFrom [] rfl

end Sysmon.Config
