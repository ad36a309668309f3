import Sysmon.Fleet.Uplink

/-!
# What a refusal shows

The error of `checkUplinkUnchanged` lists the lines that say where a box reports, and `describeUplink` hides those
that begin with the directive of the token. A token that stands further on in such a line is shown: several
statements fit on one line.
-/

namespace Sysmon.Fleet

open GoSpace (Spaces byteSpaces border_ascii)
open GoSpace.Spaces (fieldsLoop_border fieldsLoop_word fieldsLoop_run)

/-! ### The code -/

def tokenDirective : List UInt8 := ascii "config aggregator-token"

/-- `describeUplink`, for one line. -/
def describeLine (line : List UInt8) : List UInt8 :=
  if tokenDirective.isPrefixOf line then ascii "config aggregator-token <hidden>" else line

def describeUplink (lines : List (List UInt8)) : List UInt8 :=
  if lines = [] then ascii "(none)" else (ascii ", ").intercalate (lines.map describeLine)

/-- What is put around the two descriptions. -/
def refusalText (before after : List UInt8) : List UInt8 :=
  ascii "this edit changes where the box reports (" ++ (ascii " / ").intercalate uplinkDirectives ++
    ascii ("), which cannot be done from here: moving a box also needs the certificate for its new " ++
      "destination, and there is no way to put that on the box from this side. Edit ") ++
    ascii "the seed config" ++ ascii " on the box itself.\n  now:   " ++ before ++ ascii "\n  after: " ++ after

/-- `checkUplinkUnchanged`, with the text of its error. -/
def checkUplinkUnchanged (was now : List GenFile) : Option (List UInt8) :=
  let before := uplinkLines was
  let after := uplinkLines now
  if before = after then none else some (refusalText (describeUplink before) (describeUplink after))

theorem checkUplinkUnchanged_eq_none_iff (was now : List GenFile) :
    checkUplinkUnchanged was now = none ↔ uplinkUnchanged was now = true := by
  simp [checkUplinkUnchanged, uplinkUnchanged]

/-! ### Files that differ in their tokens -/

def isGap (b : UInt8) : Bool := (9 ≤ b && b ≤ 13) || b = 32

/-- The directive of a token up to the quote before its value, with what stands before it in the file. -/
structure Directive where
  before : List UInt8
  blanks : List UInt8
  gap : List UInt8
  blanks_blank : blanks ≠ [] ∧ blanks.all isGap = true
  gap_blank : gap.head?.all isGap = true
  gap_open : 34 ∉ gap ∧ 59 ∉ gap

def Directive.lead (d : Directive) : List UInt8 :=
  d.before ++ ascii "config" ++ d.blanks ++ ascii "aggregator-token" ++ d.gap

/-- A file without the values of its tokens. -/
structure FileLayout where
  name : List UInt8
  directives : List Directive
  rest : List UInt8

/-- What can stand between the quotes of a statement, for the daemon. -/
def IsValue (value : List UInt8) : Prop := 34 ∉ value ∧ 59 ∉ value

def IsLineValue (value : List UInt8) : Prop := IsValue value ∧ 10 ∉ value

/-- The text that some values make of the directives of a file. -/
inductive Fills (Value : List UInt8 → Prop) (rest : List UInt8) : List Directive → List UInt8 → Prop
  | rest : Fills Value rest [] rest
  | directive {d : Directive} {directives : List Directive} {value text : List UInt8} (hvalue : Value value)
      (hrest : Fills Value rest directives text) :
      Fills Value rest (d :: directives) (d.lead ++ 34 :: (value ++ 34 :: text))

structure FileLayout.Filled (Value : List UInt8 → Prop) (layout : FileLayout) (f : GenFile) : Prop where
  name : f.name = layout.name
  content : Fills Value layout.rest layout.directives f.content

/-- Whichever values the tokens have, two refusals read the same. -/
def HidesTokens (Value : List UInt8 → Prop) (was now : List FileLayout) : Prop :=
  ∀ was₁ now₁ was₂ now₂ text₁ text₂,
    List.Forall₂ (FileLayout.Filled Value) was was₁ → List.Forall₂ (FileLayout.Filled Value) now now₁ →
    List.Forall₂ (FileLayout.Filled Value) was was₂ → List.Forall₂ (FileLayout.Filled Value) now now₂ →
    checkUplinkUnchanged was₁ now₁ = some text₁ → checkUplinkUnchanged was₂ now₂ = some text₂ → text₁ = text₂

/-! ### Where a token is hidden -/

/-- A line with its white space collapsed. -/
def collapse (raw : List UInt8) : List UInt8 := [32].intercalate (fieldsOf raw)

/-- The line is one of those `uplinkLines` collects. -/
def isCollected (line : List UInt8) : Bool :=
  line ≠ [] && line.head? ≠ some 35 && line.head? ≠ some 59 && isUplink line

/-- The line is shown as it is. -/
def isShown (raw : List UInt8) : Bool := isCollected (collapse raw) && !tokenDirective.isPrefixOf (collapse raw)

/-- The line that some text ends with, if it goes on from another. -/
def lineAfter (line text : List UInt8) : List UInt8 :=
  text.foldl (fun line b => if b = 10 then [] else line ++ [b]) line

/-- No token stands behind the beginning of a line that is shown. -/
def HiddenFrom : List UInt8 → List Directive → Prop
  | _, [] => True
  | line, d :: directives =>
      isShown (lineAfter line d.lead ++ [34]) = false ∧ HiddenFrom (lineAfter line d.lead ++ [34, 34]) directives

def FileLayout.Hidden (layout : FileLayout) : Prop := HiddenFrom [] layout.directives

theorem fileUplinkLines_eq (f : GenFile) :
    fileUplinkLines f = ((f.content.splitOn 10).map collapse).filter isCollected := rfl

/-! ### White space -/

theorem intercalate_append_cons {α : Type} (sep : List α) (lists : List (List α)) (x : List α)
    (rest : List (List α)) :
    sep.intercalate (lists ++ x :: rest) =
      (lists.map fun l => l ++ sep).flatten ++ x ++ (rest.map fun l => sep ++ l).flatten := by
  induction lists generalizing x with
  | nil =>
      induction rest generalizing x with
      | nil => simp
      | cons y rest ih =>
          rw [List.nil_append, List.intercalate_cons_cons]
          exact (congrArg (x ++ sep ++ ·) (ih y)).trans (by simp [List.append_assoc])
  | cons y lists ih =>
      have hne : lists ++ x :: rest ≠ [] := List.append_ne_nil_of_right_ne_nil _ (List.cons_ne_nil _ _)
      rw [List.cons_append, List.intercalate_cons_of_ne_nil hne, ih]
      simp [List.append_assoc]

/-- Up to an ASCII character, and a run of such behind it, a line collapses whatever follows. -/
theorem collapse_append {b : UInt8} (hb : b < 128) (hbegins : byteSpaces.beginsSpace b = false) (q : List UInt8) :
    ∃ start, collapse (q ++ [b]) = start ++ [b] ∧
      ∀ t, ∃ more, ∀ run, (∀ c ∈ run, byteSpaces.beginsSpace c = false) →
        collapse (q ++ b :: (run ++ t)) = start ++ b :: (run ++ more) := by
  obtain ⟨fields, word, hbefore⟩ := fieldsLoop_border (border_ascii hb) hbegins q [] 0 (Nat.zero_le _)
  have hne : word ++ [b] ≠ [] := List.append_ne_nil_of_right_ne_nil _ (List.cons_ne_nil _ _)
  refine ⟨(fields.map fun l => l ++ [32]).flatten ++ word, ?_, fun t => ?_⟩
  · rw [collapse, fieldsOf, Spaces.fields, hbefore, Spaces.fieldsLoop, if_neg hne, intercalate_append_cons]
    simp
  · obtain ⟨more, after, hafter⟩ := @fieldsLoop_word _ _ byteSpaces t
    refine ⟨more ++ (after.map fun l => [32] ++ l).flatten, fun run hrun => ?_⟩
    rw [collapse, fieldsOf, Spaces.fields, hbefore, fieldsLoop_run hrun, hafter _ (List.append_ne_nil_of_left_ne_nil hne _),
      intercalate_append_cons]
    simp only [List.append_assoc, List.cons_append, List.nil_append]

/-! ### What a quote decides -/

/-- A directive has no quote in it, so the text up to the first quote decides whether it stands there. -/
theorem startsWith_quote {d : List UInt8} (hd : 34 ∉ d) (start rest other : List UInt8) :
    d.isPrefixOf (start ++ 34 :: rest) = d.isPrefixOf (start ++ 34 :: other) ∧
      (d.isPrefixOf (start ++ 34 :: rest) = true →
        ((start ++ 34 :: rest).drop d.length).head? = ((start ++ 34 :: other).drop d.length).head?) := by
  induction d generalizing start with
  | nil =>
      refine ⟨rfl, fun _ => ?_⟩
      cases start <;> rfl
  | cons x d ih =>
      rw [List.mem_cons, not_or] at hd
      cases start with
      | nil =>
          have hx : (x == 34) = false := beq_eq_false_iff_ne.mpr fun heq => hd.1 heq.symm
          simp only [List.nil_append, List.isPrefixOf_cons_cons, hx, Bool.false_and, reduceCtorEq, false_implies,
            and_self]
      | cons y start =>
          obtain ⟨hsame, hhead⟩ := ih hd.2 start
          rw [List.cons_append, List.cons_append, List.isPrefixOf_cons_cons, List.isPrefixOf_cons_cons, ← hsame]
          refine ⟨rfl, fun h => ?_⟩
          exact hhead (Bool.and_eq_true_iff.mp h).2

theorem quote_notMem_uplinkDirectives : ∀ d ∈ uplinkDirectives, 34 ∉ d := by decide

theorem isUplink_quote (start rest other : List UInt8) :
    isUplink (start ++ 34 :: rest) = isUplink (start ++ 34 :: other) := by
  rw [isUplink, isUplink, Bool.eq_iff_iff, List.any_eq_true, List.any_eq_true]
  refine exists_congr fun d => and_congr_right fun hd => ?_
  obtain ⟨hsame, hhead⟩ := startsWith_quote (quote_notMem_uplinkDirectives d hd) start rest other
  rw [Bool.and_eq_true_iff, Bool.and_eq_true_iff, ← hsame]
  exact and_congr_right fun hprefix => by rw [hhead hprefix]

theorem isCollected_quote (start rest other : List UInt8) :
    isCollected (start ++ 34 :: rest) = isCollected (start ++ 34 :: other) := by
  rw [isCollected, isCollected, isUplink_quote start rest other]
  cases start <;> rfl

theorem tokenDirective_quote (start rest other : List UInt8) :
    tokenDirective.isPrefixOf (start ++ 34 :: rest) = tokenDirective.isPrefixOf (start ++ 34 :: other) :=
  (startsWith_quote (by decide) start rest other).1

/-! ### The same lines but for hidden tokens -/

/-- The lines are the same, or the same up to a quote and not shown. -/
def Same (line line' : List UInt8) : Prop :=
  line' = line ∨ ∃ q t t', line = q ++ 34 :: t ∧ line' = q ++ 34 :: t' ∧ isShown (q ++ [34]) = false

theorem Same.append {line line' : List UInt8} (h : Same line line') (text : List UInt8) :
    Same (line ++ text) (line' ++ text) := by
  obtain rfl | ⟨q, t, t', rfl, rfl, hshown⟩ := h
  · exact .inl rfl
  · exact .inr ⟨q, t ++ text, t' ++ text, by simp, by simp, hshown⟩

/-- The value of a token comes in behind its quote. -/
theorem Same.value {line line' : List UInt8} (h : Same (line ++ [34]) line')
    (hshown : isShown (line ++ [34]) = false) (value : List UInt8) : Same (line ++ [34]) (line' ++ value) := by
  obtain rfl | ⟨q, t, t', hline, rfl, hq⟩ := h
  · exact .inr ⟨line, [], value, rfl, by simp, hshown⟩
  · exact .inr ⟨q, t, t' ++ value, hline, by simp, hq⟩

/-- They come out the same. -/
theorem Same.describe {line line' : List UInt8} (h : Same line line') :
    isCollected (collapse line') = isCollected (collapse line) ∧
      (isCollected (collapse line) = true →
        describeLine (collapse line') = describeLine (collapse line)) := by
  obtain rfl | ⟨q, t, t', rfl, rfl, hshown⟩ := h
  · exact ⟨rfl, fun _ => rfl⟩
  · obtain ⟨start, hnone, hcollapse⟩ := collapse_append (b := 34) (by decide) rfl q
    have hline : ∀ u, ∃ more, collapse (q ++ 34 :: u) = start ++ 34 :: more := fun u => by
      obtain ⟨more, h⟩ := hcollapse u
      exact ⟨more, h [] (fun c hc => absurd hc List.not_mem_nil)⟩
    obtain ⟨more, ht⟩ := hline t
    obtain ⟨more', ht'⟩ := hline t'
    rw [isShown, hnone, isCollected_quote start [] more, tokenDirective_quote start [] more,
      Bool.and_eq_false_iff, Bool.not_eq_false'] at hshown
    rw [ht, ht']
    refine ⟨isCollected_quote start more' more, fun hcollected => ?_⟩
    have htoken := hshown.resolve_left (ne_of_eq_of_ne hcollected (by decide))
    rw [describeLine, describeLine, if_pos htoken,
      if_pos ((tokenDirective_quote start more' more).trans htoken)]

theorem describe_lines {lines lines' : List (List UInt8)} (h : List.Forall₂ Same lines lines') :
    ((lines'.map collapse).filter isCollected).map describeLine =
      ((lines.map collapse).filter isCollected).map describeLine := by
  induction h with
  | nil => rfl
  | cons hsame _ ih =>
      obtain ⟨hcollected, hdescribe⟩ := hsame.describe
      rw [List.map_cons, List.map_cons, List.filter_cons, List.filter_cons, hcollected]
      split
      · rename_i hline
        rw [List.map_cons, List.map_cons, hdescribe hline, ih]
      · exact ih

/-! ### Lines of a file -/

theorem newline_notMem_lineAfter {line : List UInt8} (h : 10 ∉ line) (text : List UInt8) :
    10 ∉ lineAfter line text := by
  induction text generalizing line with
  | nil => exact h
  | cons c text ih =>
      rw [lineAfter, List.foldl_cons]
      refine ih ?_
      split
      · exact List.not_mem_nil
      · rename_i hc
        rw [List.mem_append, List.mem_singleton, not_or]
        exact ⟨h, fun heq => hc heq.symm⟩

/-- The same text keeps lines the same. -/
theorem splitOn_same (text : List UInt8) {line line' t t' : List UInt8} (hline : 10 ∉ line) (hline' : 10 ∉ line')
    (h : Same line line')
    (hrest : ∀ last', 10 ∉ last' → Same (lineAfter line text) last' →
      List.Forall₂ Same ((lineAfter line text ++ t).splitOn 10) ((last' ++ t').splitOn 10)) :
    List.Forall₂ Same ((line ++ (text ++ t)).splitOn 10) ((line' ++ (text ++ t')).splitOn 10) := by
  induction text generalizing line line' with
  | nil => exact hrest line' hline' h
  | cons c text ih =>
      by_cases hc : c = 10
      · subst hc
        rw [List.cons_append, List.cons_append, List.splitOn_append_cons_self_of_not_mem hline,
          List.splitOn_append_cons_self_of_not_mem hline']
        exact .cons h (ih List.not_mem_nil List.not_mem_nil (.inl rfl) hrest)
      · have hone : ∀ {l : List UInt8}, 10 ∉ l → 10 ∉ l ++ [c] := fun hl => by
          rw [List.mem_append, List.mem_singleton, not_or]
          exact ⟨hl, fun heq => hc heq.symm⟩
        rw [lineAfter, List.foldl_cons, if_neg hc] at hrest
        have hgo := ih (hone hline) (hone hline') (h.append [c]) hrest
        simpa using hgo

/-- The file with no value at all. -/
def erased (rest : List UInt8) : List Directive → List UInt8
  | [] => rest
  | d :: directives => d.lead ++ 34 :: 34 :: erased rest directives

theorem Fills.erased {Value : List UInt8 → Prop} (hnil : Value []) (rest : List UInt8) (directives : List Directive) :
    Fills Value rest directives (erased rest directives) := by
  induction directives with
  | nil => exact .rest
  | cons d directives ih => exact .directive hnil ih

theorem lineAfter_append (line text more : List UInt8) :
    lineAfter line (text ++ more) = lineAfter (lineAfter line text) more := List.foldl_append

/-- Values that are hidden leave the lines the same. -/
theorem Fills.same {rest : List UInt8} {directives : List Directive} {text : List UInt8}
    (h : Fills IsLineValue rest directives text) {line line' : List UInt8} (hhidden : HiddenFrom line directives)
    (hline : 10 ∉ line) (hline' : 10 ∉ line') (hsame : Same line line') :
    List.Forall₂ Same ((line ++ Fleet.erased rest directives).splitOn 10) ((line' ++ text).splitOn 10) := by
  induction h generalizing line line' with
  | rest =>
      have hgo := @splitOn_same rest line line' [] [] hline hline' hsame fun last' hlast hlines => by
        rw [List.append_nil, List.append_nil, List.splitOn_eq_singleton hlast,
          List.splitOn_eq_singleton (newline_notMem_lineAfter hline rest)]
        exact .cons hlines .nil
      rw [List.append_nil] at hgo
      exact hgo
  | @directive d directives value text hvalue _ ih =>
      obtain ⟨hshown, hhidden⟩ := hhidden
      have hquote : ∀ {l : List UInt8}, 10 ∉ l → 10 ∉ l ++ [34] := fun hl => by
        rw [List.mem_append, List.mem_singleton, not_or]
        exact ⟨hl, by decide⟩
      have hgo := @splitOn_same (d.lead ++ [34]) line line' (34 :: Fleet.erased rest directives)
        (value ++ 34 :: text) hline hline' hsame ?_
      · simpa [Fleet.erased] using hgo
      · intro last' hlast hlines
        have hlead : lineAfter line (d.lead ++ [34]) = lineAfter line d.lead ++ [34] := by
          rw [lineAfter_append]
          rfl
        rw [hlead] at hlines ⊢
        have hnl := hquote (newline_notMem_lineAfter hline d.lead)
        have hnl' : 10 ∉ last' ++ value := by
          rw [List.mem_append, not_or]
          exact ⟨hlast, hvalue.2⟩
        have hrest := @ih (lineAfter line d.lead ++ [34, 34]) (last' ++ value ++ [34]) hhidden
          (by simpa using hquote hnl) (hquote hnl')
          (by simpa using (hlines.value hshown value).append [34])
        simpa using hrest

theorem FileLayout.Filled.describe {layout : FileLayout} {f : GenFile} (h : layout.Filled IsLineValue f)
    (hhidden : layout.Hidden) :
    (fileUplinkLines f).map describeLine =
      (fileUplinkLines ⟨layout.name, erased layout.rest layout.directives⟩).map describeLine := by
  rw [fileUplinkLines_eq, fileUplinkLines_eq]
  exact describe_lines (h.content.same hhidden List.not_mem_nil List.not_mem_nil (.inl rfl))

/-! ### The order of the lines -/

/-- What begins with a directive and what does not are told apart there. -/
theorem prefix_le_iff {d : List UInt8} (x y : List UInt8) {line : List UInt8} (h : d.isPrefixOf line = false) :
    (d ++ x ≤ line ↔ d ++ y ≤ line) ∧ (line ≤ d ++ x ↔ line ≤ d ++ y) := by
  induction d generalizing line with
  | nil => exact nomatch h
  | cons a d ih =>
      cases line with
      | nil =>
          constructor
          · exact iff_of_false (by simp) (by simp)
          · exact iff_of_true (List.nil_le _) (List.nil_le _)
      | cons b line =>
          rw [List.cons_append, List.cons_append, List.cons_le_cons_iff, List.cons_le_cons_iff, List.cons_le_cons_iff,
            List.cons_le_cons_iff]
          by_cases hab : a = b
          · subst hab
            rw [List.isPrefixOf_cons_cons, beq_self_eq_true, Bool.true_and] at h
            rw [(ih h).1, (ih h).2]
            exact ⟨Iff.rfl, Iff.rfl⟩
          · simp [hab, Ne.symm hab]

/-- Hidden lines stay where they are in the order. -/
theorem describeLine_mono {a b : List UInt8} (h : a ≤ b) : describeLine a ≤ describeLine b := by
  have hhidden : ascii "config aggregator-token <hidden>" = tokenDirective ++ ascii " <hidden>" := by decide
  rw [describeLine, describeLine, hhidden]
  split
  · rename_i ha
    split
    · exact List.le_refl _
    · rename_i hb
      obtain ⟨rest, rfl⟩ := List.isPrefixOf_iff_prefix.mp ha
      exact (prefix_le_iff rest _ (Bool.eq_false_iff.mpr hb)).1.mp h
  · rename_i ha
    split
    · rename_i hb
      obtain ⟨rest, rfl⟩ := List.isPrefixOf_iff_prefix.mp hb
      exact (prefix_le_iff rest _ (Bool.eq_false_iff.mpr ha)).2.mp h
    · exact h

theorem describeUplink_congr {lines lines' : List (List UInt8)}
    (h : lines.map describeLine = lines'.map describeLine) : describeUplink lines = describeUplink lines' := by
  have hnil : lines = [] ↔ lines' = [] := by rw [← List.map_eq_nil_iff (f := describeLine), h, List.map_eq_nil_iff]
  simp only [describeUplink, h, hnil]

theorem describeLine_uplinkLines {files files' : List GenFile}
    (h : (files.flatMap fileUplinkLines).map describeLine = (files'.flatMap fileUplinkLines).map describeLine) :
    (uplinkLines files).map describeLine = (uplinkLines files').map describeLine := by
  have hsorted : ∀ files, ((uplinkLines files).map describeLine).Pairwise (· ≤ ·) := fun files =>
    (uplinkLines_pairwise files).map describeLine fun a b => describeLine_mono
  refine List.Perm.eq_of_pairwise (fun a b _ _ => List.le_antisymm) (hsorted files) (hsorted files') ?_
  have hperm : ∀ files,
      ((uplinkLines files).map describeLine).Perm ((files.flatMap fileUplinkLines).map describeLine) :=
    fun files => (List.mergeSort_perm _ _).map describeLine
  exact (hperm files).trans (h ▸ (hperm files').symm)

/-- The files of a layout whose tokens are hidden read alike. -/
theorem describeLine_files {layouts : List FileLayout} (hhidden : ∀ layout ∈ layouts, layout.Hidden)
    {files : List GenFile} (h : List.Forall₂ (FileLayout.Filled IsLineValue) layouts files) :
    (files.flatMap fileUplinkLines).map describeLine =
      ((layouts.map fun layout => ⟨layout.name, erased layout.rest layout.directives⟩).flatMap
        fileUplinkLines).map describeLine := by
  induction h with
  | nil => rfl
  | cons hfilled _ ih =>
      rw [List.map_cons, List.flatMap_cons, List.flatMap_cons, List.map_append, List.map_append,
        hfilled.describe (hhidden _ List.mem_cons_self),
        ih fun layout hmem => hhidden layout (List.mem_cons_of_mem _ hmem)]

theorem hidesTokens_of_hidden {was now : List FileLayout} (hhidden : ∀ layout ∈ was ++ now, layout.Hidden) :
    HidesTokens IsLineValue was now := by
  have hsame : ∀ {layouts files files'}, (∀ layout ∈ layouts, FileLayout.Hidden layout) →
      List.Forall₂ (FileLayout.Filled IsLineValue) layouts files →
      List.Forall₂ (FileLayout.Filled IsLineValue) layouts files' →
      describeUplink (uplinkLines files) = describeUplink (uplinkLines files') := fun hhidden h h' =>
    describeUplink_congr (describeLine_uplinkLines
      ((describeLine_files hhidden h).trans (describeLine_files hhidden h').symm))
  intro was₁ now₁ was₂ now₂ text₁ text₂ hwas₁ hnow₁ hwas₂ hnow₂ htext₁ htext₂
  have hwas := hsame (fun layout hmem => hhidden layout (List.mem_append_left _ hmem)) hwas₁ hwas₂
  have hnow := hsame (fun layout hmem => hhidden layout (List.mem_append_right _ hmem)) hnow₁ hnow₂
  simp only [checkUplinkUnchanged, hwas, hnow] at htext₁ htext₂
  split at htext₁
  · exact nomatch htext₁
  · split at htext₂
    · exact nomatch htext₂
    · exact Option.some.inj (htext₁.symm.trans htext₂)

/-! ### A token that is shown -/

theorem splitOn_lineAfter (text : List UInt8) {line : List UInt8} (hline : 10 ∉ line) :
    ∃ lines, ∀ t, (line ++ (text ++ t)).splitOn 10 = lines ++ (lineAfter line text ++ t).splitOn 10 := by
  induction text generalizing line with
  | nil => exact ⟨[], fun t => rfl⟩
  | cons c text ih =>
      by_cases hc : c = 10
      · subst hc
        obtain ⟨lines, h⟩ := @ih [] List.not_mem_nil
        refine ⟨line :: lines, fun t => ?_⟩
        rw [List.cons_append, List.splitOn_append_cons_self_of_not_mem hline]
        exact congrArg (line :: ·) (h t)
      · have hone : 10 ∉ line ++ [c] := by
          rw [List.mem_append, List.mem_singleton, not_or]
          exact ⟨hline, fun heq => hc heq.symm⟩
        obtain ⟨lines, h⟩ := ih hone
        refine ⟨lines, fun t => ?_⟩
        rw [lineAfter, List.foldl_cons, if_neg hc, ← lineAfter, ← h t]
        simp

theorem splitOn_run (t : List UInt8) :
    ∃ first rest, ∀ run : List UInt8, 10 ∉ run → (run ++ t).splitOn 10 = (run ++ first) :: rest := by
  obtain ⟨first, rest, ht⟩ := List.exists_cons_of_ne_nil (List.splitOn_ne_nil 10 t)
  refine ⟨first, rest, fun run => ?_⟩
  induction run with
  | nil => exact fun _ => ht
  | cons c run ih =>
      intro hrun
      rw [List.mem_cons, not_or] at hrun
      rw [List.cons_append, List.splitOn_cons_eq_if_modifyHead,
        if_neg (fun heq => hrun.1 (beq_iff_eq.mp heq).symm), ih hrun.2]
      rfl

/-- A token of some length, of the letter x. -/
def letters (n : Nat) : List UInt8 := List.replicate n 120

theorem letters_isLineValue (n : Nat) : IsLineValue (letters n) := by
  have hx : ∀ c ∈ letters n, c = 120 := fun c hc => List.eq_of_mem_replicate hc
  exact ⟨⟨fun h => absurd (hx _ h) (by decide), fun h => absurd (hx _ h) (by decide)⟩,
    fun h => absurd (hx _ h) (by decide)⟩

theorem beginsSpace_letters (n : Nat) : ∀ c ∈ letters n, byteSpaces.beginsSpace c = false := by
  intro c hc
  rw [List.eq_of_mem_replicate hc]
  rfl

/-- The layouts can be filled so that a line that is shown takes any length from some on, and all others stay. -/
def Grows (Value : List UInt8 → Prop) (layouts : List FileLayout) : Prop :=
  ∃ lines lines' base, ∀ n, ∃ files line, List.Forall₂ (FileLayout.Filled Value) layouts files ∧
    files.flatMap fileUplinkLines = lines ++ line :: lines' ∧ describeLine line = line ∧ line.length = base + n

theorem grows_of_shown {Value : List UInt8 → Prop} {layout : FileLayout} {front back : List UInt8} {b : UInt8}
    (hb : b < 128) (hnewline : b ≠ 10) (hbegins : byteSpaces.beginsSpace b = false)
    (hfills : ∀ n, Fills Value layout.rest layout.directives (front ++ b :: (letters n ++ 34 :: back)))
    (hshown : ∀ start more, collapse (lineAfter [] front ++ [b]) = start ++ [b] →
      isCollected (start ++ b :: more) = true ∧ tokenDirective.isPrefixOf (start ++ b :: more) = false) :
    Grows Value [layout] := by
  obtain ⟨linesBefore, hbefore⟩ := @splitOn_lineAfter front [] List.not_mem_nil
  obtain ⟨last, linesAfter, hafter⟩ := splitOn_run (34 :: back)
  obtain ⟨start, hstart, hcollapse⟩ := collapse_append hb hbegins (lineAfter [] front)
  obtain ⟨more, hmore⟩ := hcollapse last
  refine ⟨(linesBefore.map collapse).filter isCollected, (linesAfter.map collapse).filter isCollected,
    start.length + 1 + more.length, fun n => ?_⟩
  obtain ⟨hcollected, htoken⟩ := hshown start (letters n ++ more) hstart
  refine ⟨[⟨layout.name, front ++ b :: (letters n ++ 34 :: back)⟩], start ++ b :: (letters n ++ more),
    .cons ⟨rfl, hfills n⟩ .nil, ?_, ?_, ?_⟩
  · have hrun : 10 ∉ lineAfter [] front ++ b :: letters n := by
      rw [List.mem_append, List.mem_cons, not_or, not_or]
      exact ⟨newline_notMem_lineAfter List.not_mem_nil front, hnewline.symm, (letters_isLineValue n).2⟩
    have hlines := hafter _ hrun
    rw [List.append_assoc, List.cons_append] at hlines
    rw [List.flatMap_singleton, fileUplinkLines_eq, ← List.nil_append (front ++ _), hbefore, hlines,
      List.append_assoc, List.cons_append, List.map_append, List.map_cons, hmore _ (beginsSpace_letters n),
      List.filter_append, List.filter_cons_of_pos hcollected]
  · rw [describeLine, if_neg (Bool.eq_false_iff.mp htoken)]
  · simp only [List.length_append, List.length_cons, letters, List.length_replicate]
    omega

theorem fills_erased {Value : List UInt8 → Prop} (hnil : Value []) (layouts : List FileLayout) :
    List.Forall₂ (FileLayout.Filled Value) layouts
      (layouts.map fun layout => ⟨layout.name, erased layout.rest layout.directives⟩) := by
  induction layouts with
  | nil => exact .nil
  | cons layout layouts ih => exact .cons ⟨rfl, Fills.erased hnil layout.rest layout.directives⟩ ih

/-- The files around it can be filled too. -/
theorem Grows.of_mem {Value : List UInt8 → Prop} (hnil : Value []) {layout : FileLayout}
    (h : Grows Value [layout]) {layouts : List FileLayout} (hmem : layout ∈ layouts) : Grows Value layouts := by
  obtain ⟨front, back, rfl⟩ := List.append_of_mem hmem
  obtain ⟨lines, lines', base, h⟩ := h
  have hfront := fills_erased hnil front
  have hback := fills_erased hnil back
  generalize front.map (fun layout => GenFile.mk layout.name (erased layout.rest layout.directives)) = files at hfront
  generalize back.map (fun layout => GenFile.mk layout.name (erased layout.rest layout.directives)) = files' at hback
  refine ⟨files.flatMap fileUplinkLines ++ lines, lines' ++ files'.flatMap fileUplinkLines, base, fun n => ?_⟩
  obtain ⟨middle, line, hfilled, hlines, hshown, hlength⟩ := h n
  refine ⟨files ++ (middle ++ files'), line, ?_, ?_, hshown, hlength⟩
  · exact List.rel_append hfront (List.rel_append hfilled hback)
  · rw [List.flatMap_append, List.flatMap_append, hlines]
    simp only [List.append_assoc, List.cons_append]

theorem length_intercalate {α : Type} (sep : List α) (lists : List (List α)) :
    (sep.intercalate lists).length = (lists.map List.length).sum + (lists.length - 1) * sep.length := by
  induction lists with
  | nil => simp
  | cons x lists ih =>
      cases lists with
      | nil => simp
      | cons y lists =>
          rw [List.intercalate_cons_cons, List.length_append, List.length_append, ih]
          simp only [List.map_cons, List.sum_cons, List.length_cons, Nat.add_sub_cancel, Nat.succ_mul]
          omega

/-- With that line the description grows. -/
theorem Grows.describe {Value : List UInt8 → Prop} {layouts : List FileLayout} (h : Grows Value layouts) :
    ∃ base, ∀ n, ∃ files, List.Forall₂ (FileLayout.Filled Value) layouts files ∧
      (describeUplink (uplinkLines files)).length = base + n ∧ ∃ line ∈ uplinkLines files, n ≤ line.length := by
  obtain ⟨lines, lines', base, h⟩ := h
  refine ⟨((lines ++ lines').map fun line => (describeLine line).length).sum +
    (lines ++ lines').length * (ascii ", ").length + base, fun n => ?_⟩
  obtain ⟨files, line, hfilled, hlines, hshown, hlength⟩ := h n
  have hperm : (uplinkLines files).Perm (line :: (lines ++ lines')) :=
    (List.mergeSort_perm _ _).trans (hlines ▸ List.perm_middle)
  refine ⟨files, hfilled, ?_, line, hperm.mem_iff.mpr List.mem_cons_self, by omega⟩
  have hne : uplinkLines files ≠ [] := fun hnil => by
    rw [hnil] at hperm
    exact List.cons_ne_nil _ _ hperm.nil_eq.symm
  have hsum := (hperm.map fun line => (describeLine line).length).sum_nat
  have hcount := hperm.length_eq
  rw [List.map_cons, List.sum_cons, hshown] at hsum
  rw [describeUplink, if_neg hne, length_intercalate, List.map_map, List.length_map, hcount]
  simp only [Function.comp_def, hsum, List.length_cons, Nat.add_sub_cancel]
  omega

/-- A line longer than all others makes the two sides differ. -/
theorem exists_bound (lines : List (List UInt8)) : ∃ bound, ∀ line ∈ lines, line.length < bound := by
  induction lines with
  | nil => exact ⟨0, fun line hmem => absurd hmem List.not_mem_nil⟩
  | cons first lines ih =>
      obtain ⟨bound, h⟩ := ih
      refine ⟨max bound (first.length + 1), fun line hmem => ?_⟩
      obtain rfl | hmem := List.mem_cons.mp hmem
      · omega
      · exact Nat.lt_of_lt_of_le (h line hmem) (Nat.le_max_left _ _)

theorem checkUplinkUnchanged_of_ne {was now : List GenFile} (h : uplinkLines was ≠ uplinkLines now) :
    checkUplinkUnchanged was now =
      some (refusalText (describeUplink (uplinkLines was)) (describeUplink (uplinkLines now))) := if_neg h

theorem length_of_refusalText_eq {before after before' after' : List UInt8}
    (h : refusalText before after = refusalText before' after') :
    before.length + after.length = before'.length + after'.length := by
  have hlength := congrArg List.length h
  simp only [refusalText, List.length_append] at hlength
  omega

/-- Two fillings whose descriptions differ in length, and that both differ from some other files. -/
theorem Grows.two {Value : List UInt8 → Prop} {layouts : List FileLayout} (h : Grows Value layouts)
    (other : List GenFile) :
    ∃ files₁ files₂, List.Forall₂ (FileLayout.Filled Value) layouts files₁ ∧
      List.Forall₂ (FileLayout.Filled Value) layouts files₂ ∧ uplinkLines files₁ ≠ uplinkLines other ∧
      uplinkLines files₂ ≠ uplinkLines other ∧
      (describeUplink (uplinkLines files₁)).length ≠ (describeUplink (uplinkLines files₂)).length := by
  obtain ⟨base, h⟩ := h.describe
  obtain ⟨bound, hbound⟩ := exists_bound (uplinkLines other)
  have hne : ∀ {files}, (∃ line ∈ uplinkLines files, bound ≤ line.length) → uplinkLines files ≠ uplinkLines other :=
    fun ⟨line, hmem, hle⟩ heq => absurd (hbound line (heq ▸ hmem)) (Nat.not_lt.mpr hle)
  obtain ⟨files₁, hfilled₁, hlength₁, hline₁⟩ := h bound
  obtain ⟨files₂, hfilled₂, hlength₂, line, hmem, hle⟩ := h (bound + 1)
  exact ⟨files₁, files₂, hfilled₁, hfilled₂, hne hline₁, hne ⟨line, hmem, Nat.le_of_succ_le hle⟩, by omega⟩

theorem not_hidesTokens_of_grows {Value : List UInt8 → Prop} (hnil : Value []) {was now : List FileLayout}
    (h : Grows Value was ∨ Grows Value now) : ¬HidesTokens Value was now := by
  intro hhides
  have hwas := fills_erased hnil was
  have hnow := fills_erased hnil now
  obtain hgrows | hgrows := h
  · obtain ⟨files₁, files₂, hfilled₁, hfilled₂, hne₁, hne₂, hlength⟩ := hgrows.two _
    have heq := hhides _ _ _ _ _ _ hfilled₁ hnow hfilled₂ hnow (checkUplinkUnchanged_of_ne hne₁)
      (checkUplinkUnchanged_of_ne hne₂)
    exact hlength (Nat.add_right_cancel (length_of_refusalText_eq heq))
  · obtain ⟨files₁, files₂, hfilled₁, hfilled₂, hne₁, hne₂, hlength⟩ := hgrows.two _
    have heq := hhides _ _ _ _ _ _ hwas hfilled₁ hwas hfilled₂ (checkUplinkUnchanged_of_ne hne₁.symm)
      (checkUplinkUnchanged_of_ne hne₂.symm)
    exact hlength (Nat.add_left_cancel (length_of_refusalText_eq heq))

/-- The first token that is not hidden. -/
theorem exists_shown {rest : List UInt8} {directives : List Directive} {line : List UInt8}
    (h : ¬HiddenFrom line directives) :
    ∃ front back, isShown (lineAfter line front ++ [34]) = true ∧
      ∀ value, IsLineValue value → Fills IsLineValue rest directives (front ++ 34 :: (value ++ 34 :: back)) := by
  have hnil : IsLineValue [] := ⟨⟨List.not_mem_nil, List.not_mem_nil⟩, List.not_mem_nil⟩
  induction directives generalizing line with
  | nil => exact absurd trivial h
  | cons d directives ih =>
      by_cases hshown : isShown (lineAfter line d.lead ++ [34]) = true
      · exact ⟨d.lead, erased rest directives, hshown, fun value hvalue =>
          .directive hvalue (Fills.erased hnil rest directives)⟩
      · obtain ⟨front, back, hfront, hfills⟩ := ih fun hhidden => h ⟨Bool.eq_false_iff.mpr hshown, hhidden⟩
        refine ⟨d.lead ++ 34 :: 34 :: front, back, ?_, fun value hvalue => ?_⟩
        · rw [lineAfter_append]
          simpa [lineAfter] using hfront
        · simpa using Fills.directive (d := d) hnil (hfills value hvalue)

theorem grows_of_not_hidden {layout : FileLayout} (h : ¬layout.Hidden) : Grows IsLineValue [layout] := by
  obtain ⟨front, back, hshown, hfills⟩ := @exists_shown layout.rest _ _ h
  refine grows_of_shown (b := 34) (by decide) (by decide) rfl
    (fun n => hfills _ (letters_isLineValue n)) fun start more hstart => ?_
  rw [isShown, hstart, Bool.and_eq_true_iff, Bool.not_eq_true'] at hshown
  exact ⟨(isCollected_quote start more []).trans hshown.1, (tokenDirective_quote start more []).trans hshown.2⟩

/-- A value with a line break in it can be a statement of its own. -/
theorem grows_of_directive {layout : FileLayout} (h : layout.directives ≠ []) : Grows IsValue [layout] := by
  have hnil : IsValue [] := ⟨List.not_mem_nil, List.not_mem_nil⟩
  obtain ⟨d, directives, hlayout⟩ := List.exists_cons_of_ne_nil h
  refine @grows_of_shown IsValue layout (d.lead ++ 34 :: ascii "\nconfig aggregator ")
    (erased layout.rest directives) 120 (by decide) (by decide) rfl (fun n => ?_)
    fun start more hstart => ?_
  · have hvalue : IsValue (ascii "\nconfig aggregator " ++ 120 :: letters n) := by
      have hfixed : 34 ∉ ascii "\nconfig aggregator " ∧ 59 ∉ ascii "\nconfig aggregator " := by decide
      have hletters := (letters_isLineValue (n + 1)).1
      exact ⟨List.not_mem_append hfixed.1 hletters.1, List.not_mem_append hfixed.2 hletters.2⟩
    rw [hlayout]
    simpa using Fills.directive (d := d) hvalue (Fills.erased hnil layout.rest directives)
  · have hline : lineAfter [] (d.lead ++ 34 :: ascii "\nconfig aggregator ") = ascii "config aggregator " := by
      have hbreak : ∀ line, lineAfter line (34 :: ascii "\nconfig aggregator ") = ascii "config aggregator " :=
        fun line => by
          have htext : ascii "\nconfig aggregator " = 10 :: ascii "config aggregator " := by decide
          rw [htext, lineAfter, List.foldl_cons, List.foldl_cons, if_pos rfl]
          decide
      rw [lineAfter_append, hbreak]
    have hcollapse : collapse (ascii "config aggregator " ++ [120]) = ascii "config aggregator " ++ [120] := by
      decide
    rw [hline, hcollapse] at hstart
    obtain rfl := List.append_cancel_right hstart
    exact ⟨rfl, rfl⟩

theorem FileLayout.Filled.of_no_directives {Value : List UInt8 → Prop} {layout : FileLayout} {f : GenFile}
    (h : layout.Filled IsValue f) (hnone : layout.directives = []) : layout.Filled Value f := by
  refine ⟨h.name, ?_⟩
  have hcontent := h.content
  rw [hnone] at hcontent ⊢
  generalize f.content = content at hcontent
  cases hcontent
  exact .rest

/-- A refusal tells nothing of the tokens exactly if none stands behind the beginning of a line that is shown, as long
as each is on one line. A token with a line break in it can begin such a line. -/
theorem hidesTokens_iff (was now : List FileLayout) :
    (HidesTokens IsLineValue was now ↔ ∀ layout ∈ was ++ now, layout.Hidden) ∧
      (HidesTokens IsValue was now ↔ ∀ layout ∈ was ++ now, layout.directives = []) := by
  have hnil : IsLineValue [] := ⟨⟨List.not_mem_nil, List.not_mem_nil⟩, List.not_mem_nil⟩
  have hgrows : ∀ {Value : List UInt8 → Prop} {layout : FileLayout}, Value [] → Grows Value [layout] →
      layout ∈ was ++ now → ¬HidesTokens Value was now := fun hnil hgrows hmem =>
    not_hidesTokens_of_grows hnil ((List.mem_append.mp hmem).imp (hgrows.of_mem hnil) (hgrows.of_mem hnil))
  refine ⟨⟨fun hhides layout hmem => ?_, hidesTokens_of_hidden⟩, fun hhides layout hmem => ?_, fun hnone => ?_⟩
  · by_contra hhidden
    exact hgrows hnil (grows_of_not_hidden hhidden) hmem hhides
  · by_contra hdirectives
    exact hgrows hnil.1 (grows_of_directive hdirectives) hmem hhides
  · have hsame : ∀ {layouts files}, (∀ layout ∈ layouts, layout.directives = []) →
        List.Forall₂ (FileLayout.Filled IsValue) layouts files →
        List.Forall₂ (FileLayout.Filled IsLineValue) layouts files := by
      intro layouts files hnone h
      induction h with
      | nil => exact .nil
      | cons hfilled _ ih =>
          obtain ⟨hfirst, hnone⟩ := List.forall_mem_cons.mp hnone
          exact .cons (hfilled.of_no_directives hfirst) (ih hnone)
    have hhides := @hidesTokens_of_hidden was now fun layout hmem => by
      rw [FileLayout.Hidden, hnone layout hmem]
      trivial
    have hwas := fun layout hmem => hnone layout (List.mem_append_left now hmem)
    have hnow := fun layout hmem => hnone layout (List.mem_append_right was hmem)
    intro was₁ now₁ was₂ now₂ text₁ text₂ hwas₁ hnow₁ hwas₂ hnow₂
    exact hhides was₁ now₁ was₂ now₂ text₁ text₂ (hsame hwas hwas₁) (hsame hnow hnow₁) (hsame hwas hwas₂)
      (hsame hnow hnow₂)

/-- A token behind the other directive on its line. -/
def sharedDirective : Directive where
  before := ascii "config aggregator \"a:1\"; "
  blanks := [32]
  gap := [32]
  blanks_blank := by decide
  gap_blank := by decide
  gap_open := by decide

def sharedLine : FileLayout := ⟨ascii "sysmon.conf", [sharedDirective], ascii ";"⟩

/-- The file is emptied, and the token is in the error. -/
theorem sharedLine_shown : ¬HidesTokens IsLineValue [sharedLine] [⟨ascii "sysmon.conf", [], []⟩] := by
  have hfilled : ∀ n, List.Forall₂ (FileLayout.Filled IsLineValue) [sharedLine]
      [⟨ascii "sysmon.conf", sharedDirective.lead ++ 34 :: (letters n ++ 34 :: ascii ";")⟩] :=
    fun n => .cons ⟨rfl, .directive (letters_isLineValue n) .rest⟩ .nil
  have hempty : List.Forall₂ (FileLayout.Filled IsLineValue) [⟨ascii "sysmon.conf", [], []⟩]
      [⟨ascii "sysmon.conf", []⟩] := .cons ⟨rfl, .rest⟩ .nil
  have hnone : uplinkLines [⟨ascii "sysmon.conf", []⟩] = [] := by
    have hfile : [GenFile.mk (ascii "sysmon.conf") []].flatMap fileUplinkLines = [] := by decide
    rw [uplinkLines, hfile, List.mergeSort_nil]
  have hline : ∀ n ∈ [1, 2], uplinkLines [⟨ascii "sysmon.conf",
      sharedDirective.lead ++ 34 :: (letters n ++ 34 :: ascii ";")⟩] =
        [ascii "config aggregator \"a:1\"; config aggregator-token \"" ++ (letters n ++ 34 :: ascii ";")] := by
    intro n hn
    have hfile : ∀ n ∈ [1, 2], [GenFile.mk (ascii "sysmon.conf")
        (sharedDirective.lead ++ 34 :: (letters n ++ 34 :: ascii ";"))].flatMap
          fileUplinkLines =
        [ascii "config aggregator \"a:1\"; config aggregator-token \"" ++ (letters n ++ 34 :: ascii ";")] := by
      decide
    rw [uplinkLines, hfile n hn, List.mergeSort_singleton]
  intro hhides
  have heq := hhides _ _ _ _ _ _ (hfilled 1) hempty (hfilled 2) hempty
    (checkUplinkUnchanged_of_ne (by rw [hline 1 (by decide), hnone]; exact List.cons_ne_nil _ _))
    (checkUplinkUnchanged_of_ne (by rw [hline 2 (by decide), hnone]; exact List.cons_ne_nil _ _))
  have hlength := length_of_refusalText_eq heq
  rw [hline 1 (by decide), hline 2 (by decide)] at hlength
  exact absurd (Nat.add_right_cancel hlength) (by decide)

end Sysmon.Fleet
