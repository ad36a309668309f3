import Mathlib.Data.List.Perm.Basic
import Sysmon.Trap.Translate

/-!
# The interface a trap is about

An interface has up to three names in a trap and an index, in varbinds of their own. `ifName` is to win over `ifDescr`,
that over `ifAlias`, and any of them over the index, in whatever order they come. `decode_varbinds` goes through the
varbinds once: `ifName` is always taken, the other two only if there is nothing yet. So what decides between `ifDescr`
and `ifAlias` is which of them comes first, and an `ifName` without a value takes away what came before it.
-/

namespace Sysmon.Trap

open Ber CText

/-! ### The varbinds of a packet -/

/-- A varbind as it is sent. -/
structure Varbind where
  oid : List UInt8
  tag : UInt8
  value : List UInt8
  short : tag &&& 0x1f ≠ 0x1f

def Varbind.bytes (v : Varbind) : List UInt8 := varbind v.oid v.tag v.value

/-- What is read of it. -/
def Varbind.read (v : Varbind) : TrapVarbind :=
  noteStatus
    { oid := snmpBerOidStr trapOidLen v.oid
      name := nameOid (snmpBerOidStr trapOidLen v.oid)
      type := (berValueStr v.tag v.value).1
      value := (berValueStr v.tag v.value).2.1
      note := (berValueStr v.tag v.value).2.2 }

theorem readVarbinds_bytes (n : Nat) (vs : List Varbind) (h : (vs.flatMap Varbind.bytes).length < 0x10000) :
    readVarbinds n (vs.flatMap Varbind.bytes) = (vs.map Varbind.read).take n := by
  induction vs generalizing n with
  | nil =>
      cases n with
      | zero => rfl
      | succ n => rfl
  | cons v vs ih =>
      cases n with
      | zero => rfl
      | succ n =>
          rw [List.flatMap_cons, List.length_append] at h
          rw [List.flatMap_cons, readVarbinds, Varbind.bytes,
            nextVarbind_varbind v.oid v.value v.short (Nat.lt_of_le_of_lt (Nat.le_add_right _ _) h)]
          dsimp only
          rw [ih n (Nat.lt_of_le_of_lt (Nat.le_add_left _ _) h), List.map_cons, List.take_succ_cons]
          rfl

/-! ### What is to be selected -/

def isName (b : TrapVarbind) : Bool := b.name = "ifName".toList
def isDescr (b : TrapVarbind) : Bool := b.name = "ifDescr".toList
def isAlias (b : TrapVarbind) : Bool := b.name = "ifAlias".toList
def isIndex (b : TrapVarbind) : Bool := b.name = "ifIndex".toList

/-- The text of a name, as much of it as the record takes. -/
def ifaceText (b : TrapVarbind) : List Char := snprintf 64 b.value

/-- The text of the varbind of a kind, nothing if there is none. -/
def textOf (kind : TrapVarbind → Bool) (vbs : List TrapVarbind) : List Char :=
  ((vbs.find? kind).map ifaceText).getD []

/-- The text for the index, nothing if there is none. -/
def indexText (vbs : List TrapVarbind) : List Char :=
  Port.name ⟨[], ((vbs.find? isIndex).map fun b => (strtoll b.value).toInt32).getD (-1)⟩

/-- The first text there is. -/
def firstText (texts : List (List Char)) : List Char := (texts.find? (· ≠ [])).getD []

/-- The interface by the precedence. -/
def documentedIface (vbs : List TrapVarbind) : List Char :=
  firstText [textOf isName vbs, textOf isDescr vbs, textOf isAlias vbs, indexText vbs]

/-- Each kind occurs at most once. -/
def EachOnce (vbs : List TrapVarbind) : Prop :=
  ∀ kind ∈ [isName, isDescr, isAlias, isIndex], (vbs.filter kind).length ≤ 1

instance (vbs : List TrapVarbind) : Decidable (EachOnce vbs) :=
  inferInstanceAs (Decidable (∀ kind ∈ [isName, isDescr, isAlias, isIndex], _))

/-- There is an `ifName` with a value; or there are not two different others, and no `ifName` without a value beside
one of them that is not just the text for the index. -/
def ClearIface (vbs : List TrapVarbind) : Prop :=
  textOf isName vbs ≠ [] ∨
    (textOf isDescr vbs = [] ∨ textOf isAlias vbs = [] ∨ textOf isDescr vbs = textOf isAlias vbs) ∧
      (vbs.any isName = true → ∀ text ∈ [textOf isDescr vbs, textOf isAlias vbs], text = [] ∨ text = indexText vbs)

/-! ### What is selected -/

/-- The kinds that do not override. -/
def isOther (b : TrapVarbind) : Bool := isDescr b || isAlias b

/-- The interface before the index comes in. -/
def pickIface (iface : List Char) (b : TrapVarbind) : List Char :=
  if isName b then ifaceText b
  else if isOther b then if iface = [] then ifaceText b else iface
  else iface

/-- The index. -/
def pickIndex (ifindex : Int32) (b : TrapVarbind) : Int32 :=
  if isIndex b then (strtoll b.value).toInt32 else ifindex

theorem kinds_distinct {b : TrapVarbind} :
    (isIndex b = true → isName b = false ∧ isDescr b = false ∧ isAlias b = false) ∧
      (isName b = true → isDescr b = false ∧ isAlias b = false) ∧ (isDescr b = true → isAlias b = false) := by
  have hdistinct : (["ifIndex".toList, "ifName".toList, "ifDescr".toList, "ifAlias".toList]).Nodup := by
    decide
  simp only [List.nodup_cons, List.mem_cons, List.not_mem_nil, or_false, not_or] at hdistinct
  obtain ⟨⟨hindexName, hindexDescr, hindexAlias⟩, ⟨hnameDescr, hnameAlias⟩, hdescrAlias, -⟩ := hdistinct
  simp only [isIndex, isName, isDescr, isAlias, decide_eq_true_eq, decide_eq_false_iff_not]
  refine ⟨fun h => ?_, fun h => ?_, fun h => ?_⟩
  · rw [h]
    exact ⟨hindexName, hindexDescr, hindexAlias⟩
  · rw [h]
    exact ⟨hnameDescr, hnameAlias⟩
  · rw [h]
    exact hdescrAlias

theorem notePort_eq (p : Port) (b : TrapVarbind) :
    notePort p b = ⟨pickIface p.iface b, pickIndex p.ifindex b⟩ := by
  obtain ⟨hindex, hname, -⟩ := @kinds_distinct b
  have hite : notePort p b =
      if isIndex b then { p with ifindex := (strtoll b.value).toInt32 }
      else if isName b || isOther b then
        if p.iface = [] ∨ isName b = true then { p with iface := ifaceText b } else p
      else p := by
    simp only [notePort, isIndex, isName, isOther, isDescr, isAlias, Bool.or_eq_true, decide_eq_true_eq]
    rfl
  rw [hite, pickIface, pickIndex]
  cases hi : isIndex b with
  | true =>
      obtain ⟨hn, hd, ha⟩ := hindex hi
      simp [hn, isOther, hd, ha]
  | false =>
      cases hn : isName b with
      | true => simp
      | false =>
          cases hother : isOther b with
          | false => simp
          | true => by_cases hnil : p.iface = [] <;> simp [hnil]

theorem foldl_notePort (vbs : List TrapVarbind) (p : Port) :
    vbs.foldl notePort p = ⟨vbs.foldl pickIface p.iface, vbs.foldl pickIndex p.ifindex⟩ := by
  induction vbs generalizing p with
  | nil => rfl
  | cons b vbs ih => rw [List.foldl_cons, ih, notePort_eq, List.foldl_cons, List.foldl_cons]

theorem foldl_pickIndex {vbs : List TrapVarbind} (h : (vbs.filter isIndex).length ≤ 1) (ifindex : Int32) :
    vbs.foldl pickIndex ifindex =
      ((vbs.find? isIndex).map fun b => (strtoll b.value).toInt32).getD ifindex := by
  induction vbs generalizing ifindex with
  | nil => rfl
  | cons b vbs ih =>
      rw [List.foldl_cons, pickIndex]
      cases hb : isIndex b with
      | false =>
          rw [List.filter_cons_of_neg (ne_true_of_eq_false hb)] at h
          rw [List.find?_cons_of_neg (ne_true_of_eq_false hb), if_neg Bool.false_ne_true, ih h]
      | true =>
          rw [List.filter_cons_of_pos hb, List.length_cons] at h
          have hnone : vbs.find? isIndex = none := by
            rw [← List.head?_filter, List.length_eq_zero_iff.mp (Nat.le_zero.mp (Nat.le_of_succ_le_succ h))]
            rfl
          rw [List.find?_cons_of_pos hb, if_pos rfl, ih (by omega), hnone]
          rfl

theorem firstText_cons (text : List Char) (texts : List (List Char)) :
    firstText (text :: texts) = if text = [] then firstText texts else text := by
  by_cases h : text = [] <;> simp [firstText, h]

theorem firstText_singleton (text : List Char) : firstText [text] = text := by
  rw [firstText_cons]
  split
  · rename_i hnil
    exact hnil.symm
  · rfl

theorem firstText_firstText (texts texts' : List (List Char)) :
    firstText (firstText texts :: texts') = firstText (texts ++ texts') := by
  induction texts with
  | nil => exact (firstText_cons [] texts').trans (if_pos rfl)
  | cons text texts ih =>
      rw [List.cons_append, firstText_cons text, firstText_cons text]
      split
      · exact ih
      · rename_i hne
        rw [firstText_cons, if_neg hne]

theorem Port.name_eq (iface : List Char) (ifindex : Int32) :
    Port.name ⟨iface, ifindex⟩ = if iface = [] then Port.name ⟨[], ifindex⟩ else iface := by
  by_cases h : iface = []
  · rw [h, if_pos rfl]
  · rw [if_neg h]
    exact if_neg fun hempty => h hempty.1

/-- The name of the interface, from what the varbinds leave of it. -/
theorem portOf_name {vbs : List TrapVarbind} (h : EachOnce vbs) :
    (portOf vbs).name = firstText [vbs.foldl pickIface [], indexText vbs] := by
  rw [portOf, foldl_notePort, foldl_pickIndex (h isIndex (by simp)), Port.name_eq, firstText_cons, firstText_cons,
    indexText]
  split
  · split
    · rename_i hnil
      exact hnil
    · rfl
  · rfl

/-! ### One order -/

theorem foldl_pickIface_of_noName {vbs : List TrapVarbind} (h : ∀ b ∈ vbs, isName b = false) (iface : List Char) :
    vbs.foldl pickIface iface =
      firstText (iface :: (vbs.filter isOther).map ifaceText) := by
  induction vbs generalizing iface with
  | nil => by_cases hnil : iface = [] <;> simp [firstText, hnil]
  | cons b vbs ih =>
      have hb : isName b = false := h b List.mem_cons_self
      rw [List.foldl_cons, ih fun b hb => h b (List.mem_cons_of_mem _ hb), pickIface, hb,
        if_neg Bool.false_ne_true]
      cases hother : isOther b with
      | false => rw [List.filter_cons_of_neg (ne_true_of_eq_false hother), if_neg Bool.false_ne_true]
      | true =>
          rw [List.filter_cons_of_pos hother, if_pos rfl, List.map_cons, firstText_cons, firstText_cons iface,
            firstText_cons (ifaceText b)]
          by_cases hnil : iface = [] <;> simp [hnil]

theorem firstText_eq {texts : List (List Char)} {text : List Char} (hall : ∀ t ∈ texts, t = [] ∨ t = text)
    (hmem : text ≠ [] → text ∈ texts) : firstText texts = text := by
  induction texts with
  | nil =>
      by_contra hne
      exact absurd (hmem fun hnil => hne hnil.symm) List.not_mem_nil
  | cons t texts ih =>
      rw [firstText_cons]
      obtain rfl | rfl := hall t List.mem_cons_self
      · refine (if_pos rfl).trans (ih (fun t ht => hall t (List.mem_cons_of_mem _ ht)) fun hne => ?_)
        exact (List.mem_cons.mp (hmem hne)).resolve_left hne
      · split
        · rename_i hnil
          refine ih (fun t ht => hall t (List.mem_cons_of_mem _ ht)) fun hne => absurd hnil hne
        · rfl

section values

variable {kind : TrapVarbind → Bool} {vbs : List TrapVarbind}

/-- A kind that occurs once has the text of that one. -/
theorem textOf_eq (h : (vbs.filter kind).length ≤ 1) {b : TrapVarbind} (hmem : b ∈ vbs) (hb : kind b = true) :
    textOf kind vbs = ifaceText b := by
  have hin : b ∈ vbs.filter kind := List.mem_filter.mpr ⟨hmem, hb⟩
  obtain ⟨c, hc⟩ := List.length_eq_one_iff.mp (le_antisymm h (List.length_pos_of_mem hin))
  rw [hc, List.mem_singleton] at hin
  rw [textOf, ← List.head?_filter, hc, hin]
  rfl

theorem mem_of_textOf (h : textOf kind vbs ≠ []) : ∃ b ∈ vbs, kind b = true ∧ ifaceText b = textOf kind vbs := by
  rw [textOf] at h ⊢
  cases hfind : vbs.find? kind with
  | none =>
      rw [hfind] at h
      exact absurd rfl h
  | some b => exact ⟨b, List.mem_of_find?_eq_some hfind, List.find?_some hfind, rfl⟩

theorem textOf_of_none (h : ∀ b ∈ vbs, kind b = false) : textOf kind vbs = [] := by
  rw [textOf, List.find?_eq_none.mpr fun b hb => ne_true_of_eq_false (h b hb)]
  rfl

/-- The texts of the two kinds that do not override. -/
theorem texts_others (h : EachOnce vbs) {sub : List TrapVarbind} (hsub : sub ⊆ vbs) :
    ∀ t ∈ (sub.filter isOther).map ifaceText,
      t = textOf isDescr vbs ∨ t = textOf isAlias vbs := by
  intro t ht
  obtain ⟨b, hb, rfl⟩ := List.mem_map.mp ht
  obtain ⟨hmem, hkind⟩ := List.mem_filter.mp hb
  obtain hdescr | halias := Bool.or_eq_true_iff.mp hkind
  · exact .inl (textOf_eq (h isDescr (by simp)) (hsub hmem) hdescr).symm
  · exact .inr (textOf_eq (h isAlias (by simp)) (hsub hmem) halias).symm

theorem textOf_mem_others (hkind : kind = isDescr ∨ kind = isAlias) (h : textOf kind vbs ≠ []) :
    textOf kind vbs ∈ (vbs.filter isOther).map ifaceText := by
  obtain ⟨b, hmem, hb, htext⟩ := mem_of_textOf h
  refine List.mem_map.mpr ⟨b, List.mem_filter.mpr ⟨hmem, ?_⟩, htext⟩
  obtain rfl | rfl := hkind
  · rw [isOther, hb, Bool.true_or]
  · rw [isOther, hb, Bool.or_true]

end values

theorem documentedIface_of_name {vbs : List TrapVarbind} (h : textOf isName vbs ≠ []) :
    documentedIface vbs = textOf isName vbs := by rw [documentedIface, firstText_cons, if_neg h]

/-- The interface of an `ifName` and of what follows it. -/
theorem foldl_pickIface_name {before after : List TrapVarbind} {b : TrapVarbind} (hb : isName b = true)
    (hafter : ∀ c ∈ after, isName c = false) :
    (before ++ b :: after).foldl pickIface [] =
      firstText (ifaceText b :: (after.filter isOther).map ifaceText) := by
  rw [List.foldl_append, List.foldl_cons, pickIface, if_pos hb, foldl_pickIface_of_noName hafter]

/-- What is selected without an `ifName`, if the other two do not differ. -/
theorem firstText_others {vbs : List TrapVarbind} (h : EachOnce vbs)
    (hsame : textOf isDescr vbs = [] ∨ textOf isAlias vbs = [] ∨ textOf isDescr vbs = textOf isAlias vbs) :
    firstText ((vbs.filter isOther).map ifaceText) = firstText [textOf isDescr vbs, textOf isAlias vbs] := by
  refine firstText_eq (fun t ht => ?_) fun hne => ?_
  · rw [firstText_cons, firstText_singleton]
    obtain hdescr | halias := texts_others h (List.Subset.refl vbs) t ht
    · rw [hdescr]
      split
      · rename_i hnil
        exact .inl hnil
      · exact .inr rfl
    · rw [halias]
      split
      · exact .inr rfl
      · rename_i hne
        obtain hnil | hnil | heq := hsame
        · exact absurd hnil hne
        · exact .inl hnil
        · exact .inr heq.symm
  · rw [firstText_cons, firstText_singleton] at hne ⊢
    split
    · rename_i hnil
      rw [if_pos hnil] at hne
      exact textOf_mem_others (.inr rfl) hne
    · rename_i hdescr
      exact textOf_mem_others (.inl rfl) hdescr

/-- Where it is clear, the order does not matter. -/
theorem portOf_name_of_clear {vbs : List TrapVarbind} (h : EachOnce vbs) (hclear : ClearIface vbs) :
    (portOf vbs).name = documentedIface vbs := by
  rw [portOf_name h]
  by_cases hany : ∃ b ∈ vbs, isName b = true
  · obtain ⟨b, hmem, hb⟩ := hany
    obtain ⟨before, after, heq⟩ := List.append_of_mem hmem
    have hafter : ∀ c ∈ after, isName c = false := by
      intro c hc
      by_contra hname
      have hone := h isName (by simp)
      rw [heq, List.filter_append, List.filter_cons_of_pos hb, List.length_append, List.length_cons] at hone
      have hpos := List.length_pos_of_mem (List.mem_filter.mpr ⟨hc, eq_true_of_ne_false hname⟩)
      omega
    have hfold : vbs.foldl pickIface [] = firstText (ifaceText b :: (after.filter isOther).map ifaceText) := by
      rw [heq, foldl_pickIface_name hb hafter]
    rw [hfold, ← textOf_eq (h isName (by simp)) hmem hb]
    by_cases hname : textOf isName vbs = []
    · have hempty := (hclear.resolve_left fun hne => hne hname).2 (List.any_eq_true.mpr ⟨b, hmem, hb⟩)
      have hsub : after ⊆ vbs := fun c hc => heq ▸ List.mem_append_right _ (List.mem_cons_of_mem _ hc)
      have hselected : firstText (textOf isName vbs :: (after.filter isOther).map ifaceText ++ [indexText vbs]) =
          indexText vbs := by
        refine firstText_eq (fun t ht => ?_) fun _ => List.mem_append_right _ (List.mem_singleton_self _)
        simp only [List.cons_append, List.mem_cons, List.mem_append, List.not_mem_nil, or_false] at ht
        obtain rfl | ht | rfl := ht
        · exact .inl hname
        · obtain rfl | rfl := texts_others h hsub t ht
          · exact hempty _ List.mem_cons_self
          · exact hempty _ (List.mem_cons_of_mem _ List.mem_cons_self)
        · exact .inr rfl
      have hdocumented : documentedIface vbs = indexText vbs := by
        refine firstText_eq (fun t ht => ?_) fun _ => by simp
        simp only [List.mem_cons, List.not_mem_nil, or_false] at ht
        obtain rfl | rfl | rfl | rfl := ht
        · exact .inl hname
        · exact hempty _ List.mem_cons_self
        · exact hempty _ (List.mem_cons_of_mem _ List.mem_cons_self)
        · exact .inr rfl
      rw [firstText_firstText, hselected, hdocumented]
    · rw [documentedIface_of_name hname, firstText_cons, firstText_cons, if_neg hname, if_neg hname]
  · simp only [not_exists, not_and, Bool.not_eq_true] at hany
    have hname : textOf isName vbs = [] := textOf_of_none hany
    have hsame := (hclear.resolve_left fun hne => hne hname).1
    have hfold : vbs.foldl pickIface [] = firstText [textOf isDescr vbs, textOf isAlias vbs] := by
      rw [foldl_pickIface_of_noName hany, firstText_cons, if_pos rfl, firstText_others h hsame]
    have hdocumented : documentedIface vbs =
        firstText ([textOf isDescr vbs, textOf isAlias vbs] ++ [indexText vbs]) := by
      rw [documentedIface, firstText_cons, if_pos hname]
      rfl
    rw [hfold, firstText_firstText, hdocumented]

/-! ### All orders -/

theorem EachOnce.perm {vbs vbs' : List TrapVarbind} (h : EachOnce vbs) (hperm : vbs'.Perm vbs) : EachOnce vbs' :=
  fun kind hkind => ((hperm.filter kind).length_eq).trans_le (h kind hkind)

theorem find?_perm {kind : TrapVarbind → Bool} {vbs vbs' : List TrapVarbind} (h : (vbs.filter kind).length ≤ 1)
    (hperm : vbs'.Perm vbs) : vbs'.find? kind = vbs.find? kind := by
  have hfilter := hperm.filter kind
  rw [← List.head?_filter, ← List.head?_filter]
  match hvbs : vbs.filter kind with
  | [] =>
      rw [hvbs] at hfilter
      rw [hfilter.eq_nil]
  | [b] =>
      rw [hvbs] at hfilter
      rw [List.perm_singleton.mp hfilter]
  | _ :: _ :: _ =>
      rw [hvbs] at h
      simp at h

theorem indexText_perm {vbs vbs' : List TrapVarbind} (h : EachOnce vbs) (hperm : vbs'.Perm vbs) :
    indexText vbs' = indexText vbs := by
  rw [indexText, indexText, find?_perm (h isIndex (by simp)) hperm]

/-- The varbinds that name no interface. -/
def noNames (vbs : List TrapVarbind) : List TrapVarbind :=
  ((vbs.filter (!isName ·)).filter (!isDescr ·)).filter (!isAlias ·)

theorem filter_filter_not {kind other : TrapVarbind → Bool} (h : ∀ b, kind b = true → other b = false)
    (vbs : List TrapVarbind) : (vbs.filter (!other ·)).filter kind = vbs.filter kind := by
  rw [List.filter_filter]
  refine List.filter_congr fun b _ => ?_
  cases hkind : kind b with
  | false => rfl
  | true => rw [h b hkind]; rfl

/-- The varbinds that name one, those of each kind together, and the rest. -/
theorem byKind_perm (vbs : List TrapVarbind) :
    (vbs.filter isName ++ (vbs.filter isDescr ++ (vbs.filter isAlias ++ noNames vbs))).Perm vbs := by
  have hdescrName : ∀ b, isDescr b = true → isName b = false := fun b hb => by
    by_contra hname
    have hno := ((@kinds_distinct b).2.1 (eq_true_of_ne_false hname)).1
    rw [hb] at hno
    exact absurd hno (by decide)
  have haliasName : ∀ b, isAlias b = true → isName b = false := fun b hb => by
    by_contra hname
    have hno := ((@kinds_distinct b).2.1 (eq_true_of_ne_false hname)).2
    rw [hb] at hno
    exact absurd hno (by decide)
  have haliasDescr : ∀ b, isAlias b = true → isDescr b = false := fun b hb => by
    by_contra hdescr
    have hno := (@kinds_distinct b).2.2 (eq_true_of_ne_false hdescr)
    rw [hb] at hno
    exact absurd hno (by decide)
  have hname := List.filter_append_perm isName vbs
  have hdescr := List.filter_append_perm isDescr (vbs.filter (!isName ·))
  have halias := List.filter_append_perm isAlias ((vbs.filter (!isName ·)).filter (!isDescr ·))
  rw [filter_filter_not hdescrName] at hdescr
  rw [filter_filter_not haliasDescr, filter_filter_not haliasName] at halias
  exact (((halias.append_left _).trans hdescr).append_left _).trans hname

theorem foldl_noNames (vbs : List TrapVarbind) (iface : List Char) : (noNames vbs).foldl pickIface iface = iface := by
  have hnone : ∀ b ∈ noNames vbs, isName b = false ∧ isOther b = false := by
    intro b hb
    simp only [noNames, List.mem_filter, Bool.not_eq_true'] at hb
    exact ⟨hb.1.1.2, by rw [isOther, hb.1.2, hb.2]; rfl⟩
  revert hnone
  induction noNames vbs with
  | nil => exact fun _ => rfl
  | cons b rest ih =>
      intro hnone
      obtain ⟨hname, hother⟩ := hnone b List.mem_cons_self
      rw [List.foldl_cons, pickIface, hname, hother]
      exact ih fun c hc => hnone c (List.mem_cons_of_mem _ hc)

theorem foldl_filter_other {kind : TrapVarbind → Bool} (hkind : kind = isDescr ∨ kind = isAlias)
    {vbs : List TrapVarbind} (h : EachOnce vbs) (iface : List Char) :
    (vbs.filter kind).foldl pickIface iface = firstText [iface, textOf kind vbs] := by
  have hone : (vbs.filter kind).length ≤ 1 := by
    obtain rfl | rfl := hkind
    · exact h isDescr (by simp)
    · exact h isAlias (by simp)
  rw [textOf, ← List.head?_filter]
  match hvbs : vbs.filter kind with
  | [] => by_cases hnil : iface = [] <;> simp [firstText, hnil]
  | [b] =>
      have hb : kind b = true := (List.mem_filter.mp (hvbs ▸ List.mem_singleton_self b)).2
      have hpick : pickIface iface b = if iface = [] then ifaceText b else iface := by
        obtain ⟨-, hname, -⟩ := @kinds_distinct b
        have hno : isName b = false := by
          by_contra hname'
          obtain ⟨hd, ha⟩ := hname (eq_true_of_ne_false hname')
          obtain rfl | rfl := hkind
          · rw [hb] at hd
            exact absurd hd (by decide)
          · rw [hb] at ha
            exact absurd ha (by decide)
        have hother : isOther b = true := by
          obtain rfl | rfl := hkind
          · rw [isOther, hb, Bool.true_or]
          · rw [isOther, hb, Bool.or_true]
        rw [pickIface, hno, hother, if_neg Bool.false_ne_true, if_pos rfl]
      rw [List.foldl_cons, List.foldl_nil, hpick, firstText_cons]
      exact if_congr Iff.rfl (firstText_singleton _).symm rfl
  | _ :: _ :: _ =>
      rw [hvbs] at hone
      simp at hone

theorem foldl_filter_name {vbs : List TrapVarbind} (h : EachOnce vbs) (iface : List Char) :
    (vbs.filter isName).foldl pickIface iface = if vbs.any isName then textOf isName vbs else iface := by
  have hone := h isName (by simp)
  rw [textOf, ← List.head?_filter]
  match hvbs : vbs.filter isName with
  | [] =>
      have hany : vbs.any isName = false := by
        rw [List.any_eq_false]
        exact List.filter_eq_nil_iff.mp hvbs
      rw [hany]
      rfl
  | [b] =>
      obtain ⟨hmem, hb⟩ := List.mem_filter.mp (hvbs ▸ List.mem_singleton_self b)
      rw [List.any_eq_true.mpr ⟨b, hmem, hb⟩, List.foldl_cons, pickIface, if_pos hb]
      rfl
  | _ :: _ :: _ =>
      rw [hvbs] at hone
      simp at hone

theorem ClearIface.perm {vbs vbs' : List TrapVarbind} (h : EachOnce vbs) (hperm : vbs'.Perm vbs) :
    (ClearIface vbs' ↔ ClearIface vbs) ∧ documentedIface vbs' = documentedIface vbs := by
  have htext : ∀ kind ∈ [isName, isDescr, isAlias, isIndex], textOf kind vbs' = textOf kind vbs :=
    fun kind hkind => by rw [textOf, textOf, find?_perm (h kind hkind) hperm]
  have hname := htext isName (by simp)
  have hdescr := htext isDescr (by simp)
  have halias := htext isAlias (by simp)
  have hindex := indexText_perm h hperm
  have hany : vbs'.any isName = true ↔ vbs.any isName = true := by
    simp only [List.any_eq_true, hperm.mem_iff]
  refine ⟨?_, ?_⟩
  · rw [ClearIface, ClearIface, hname, hdescr, halias, hindex, hany]
  · rw [documentedIface, documentedIface, hname, hdescr, halias, hindex]

/-- One interface in all orders: it is the documented one, and it is clear which. -/
theorem forall_perm_iff {vbs : List TrapVarbind} (h : EachOnce vbs) (iface : List Char) :
    (∀ vbs', vbs'.Perm vbs → (portOf vbs').name = iface) ↔ ClearIface vbs ∧ documentedIface vbs = iface := by
  constructor
  · intro hall
    have horder : ∀ vbs' : List TrapVarbind, vbs'.Perm vbs → firstText [vbs'.foldl pickIface [], indexText vbs] = iface := by
      intro vbs' hperm
      rw [← hall vbs' hperm, portOf_name (h.perm hperm), indexText_perm h hperm]
    have hdescr : ∀ text, (vbs.filter isDescr).foldl pickIface text = firstText [text, textOf isDescr vbs] :=
      foldl_filter_other (.inl rfl) h
    have halias : ∀ text, (vbs.filter isAlias).foldl pickIface text = firstText [text, textOf isAlias vbs] :=
      foldl_filter_other (.inr rfl) h
    have hname : (if vbs.any isName then textOf isName vbs else []) = textOf isName vbs := by
      split
      · rfl
      · rename_i hnone
        refine (textOf_of_none fun b hb => ?_).symm
        exact eq_false_of_ne_true (List.any_eq_false.mp (eq_false_of_ne_true hnone) b hb)
    have hfirst := horder _ (byKind_perm vbs)
    rw [List.foldl_append, List.foldl_append, List.foldl_append, foldl_noNames, foldl_filter_name h, hdescr, halias,
      hname] at hfirst
    simp only [firstText_firstText, List.cons_append, List.nil_append] at hfirst
    refine ⟨?_, hfirst⟩
    by_cases hempty : textOf isName vbs = []
    · have hswap : (vbs.filter isName ++ (vbs.filter isAlias ++ (vbs.filter isDescr ++ noNames vbs))).Perm vbs := by
        refine (List.Perm.append_left _ ?_).trans (byKind_perm vbs)
        rw [← List.append_assoc, ← List.append_assoc]
        exact List.perm_append_comm.append_right _
      have hsecond := horder _ hswap
      rw [List.foldl_append, List.foldl_append, List.foldl_append, foldl_noNames, foldl_filter_name h, hdescr, halias,
        hname] at hsecond
      simp only [firstText_firstText, List.cons_append, List.nil_append] at hsecond
      have hthird : vbs.any isName = true → indexText vbs = iface := by
        intro hany
        have hlast := horder _ (List.perm_append_comm.trans (byKind_perm vbs))
        rw [List.foldl_append, foldl_filter_name h, if_pos hany, hempty, firstText_cons, if_pos rfl,
          firstText_singleton] at hlast
        exact hlast
      rw [hempty] at hfirst hsecond
      simp only [firstText_cons] at hfirst hsecond
      refine .inr ⟨?_, fun hany => ?_⟩
      · by_cases hd : textOf isDescr vbs = []
        · exact .inl hd
        · by_cases ha : textOf isAlias vbs = []
          · exact .inr (.inl ha)
          · simp only [if_neg hd, if_neg ha, if_true] at hfirst hsecond
            exact .inr (.inr (hfirst.trans hsecond.symm))
      · have hindex := hthird hany
        intro text htext
        simp only [List.mem_cons, List.not_mem_nil, or_false] at htext
        by_cases hnil : text = []
        · exact .inl hnil
        · obtain rfl | rfl := htext
          · simp only [if_neg hnil, if_true] at hfirst
            exact .inr (hfirst.trans hindex.symm)
          · simp only [if_neg hnil, if_true] at hsecond
            exact .inr (hsecond.trans hindex.symm)
    · exact .inl hempty
  · rintro ⟨hclear, rfl⟩ vbs' hperm
    obtain ⟨hsame, hdocumented⟩ := ClearIface.perm h hperm
    rw [portOf_name_of_clear (h.perm hperm) (hsame.mpr hclear), hdocumented]

/-! ### The packet -/

/-- The record before the varbinds are read. -/
structure TrapHeader where
  content : TrapContent
  port : content.port = ⟨[], -1⟩
  vb : content.vb = []

/-- The interface of a trap with these varbinds. -/
def ifaceOf (header : TrapHeader) (vs : List Varbind) : List Char :=
  (decodeRest (tlv 0x30 (vs.flatMap Varbind.bytes)) header.content).iface

theorem ifaceOf_eq (header : TrapHeader) {vs : List Varbind} (h : (vs.flatMap Varbind.bytes).length < 0x10000) :
    ifaceOf header vs = (portOf ((vs.map Varbind.read).take trapMaxVarbind)).name := by
  have hreading := decodeRest_reading header.content h []
  rw [List.append_nil, header.vb, header.port, readVarbinds_bytes _ _ h] at hreading
  exact congrArg (fun reading => reading.2.2) hreading

/-- Another order of the values is one of another order of the things. -/
theorem exists_perm_map {α β : Type} (f : α → β) {l : List α} {m : List β} (h : m.Perm (l.map f)) :
    ∃ l' : List α, l'.Perm l ∧ l'.map f = m := by
  have hmap : List.Forall₂ (fun b a => b = f a) (l.map f) l :=
    List.forall₂_map_left_iff.mpr (List.forall₂_same.mpr fun a _ => rfl)
  have hread : ∀ {m : List β} {l : List α}, List.Forall₂ (fun b a => b = f a) m l → l.map f = m := by
    intro m l hforall
    induction hforall with
    | nil => rfl
    | cons hhead _ ih => rw [List.map_cons, ih, hhead]
  obtain ⟨l', hforall, hperm⟩ := List.perm_comp_forall₂ h hmap
  exact ⟨l', hperm, hread hforall⟩

theorem EachOnce.subperm {vbs kept : List TrapVarbind} (h : EachOnce vbs) (hsub : kept.Subperm vbs) : EachOnce kept :=
  fun kind hkind => (hsub.filter kind).length_le.trans (h kind hkind)

theorem take_of_length {α : Type} {kept rest all : List α} (hperm : (kept ++ rest).Perm all) {n : Nat}
    (h : kept.length = min n all.length) : (kept ++ rest).take n = kept := by
  have hlength := hperm.length_eq
  rw [List.length_append] at hlength
  by_cases hn : n ≤ all.length
  · exact List.take_left' (by omega)
  · have hrest : rest = [] := List.length_eq_zero_iff.mp (by omega)
    rw [hrest, List.append_nil]
    exact List.take_of_length_le (by omega)

/-- Every order of the varbinds selects the documented interface exactly when, whichever are left out beyond the
sixteenth, it is clear which one it is, and it is the same. -/
theorem iface_iff (header : TrapHeader) {vs : List Varbind} (hsize : (vs.flatMap Varbind.bytes).length < 0x10000)
    (honce : EachOnce (vs.map Varbind.read)) :
    (∀ vs', vs'.Perm vs → ifaceOf header vs' = documentedIface (vs.map Varbind.read)) ↔
      ∀ kept : List TrapVarbind, kept.Subperm (vs.map Varbind.read) →
        kept.length = min trapMaxVarbind vs.length →
          ClearIface kept ∧ documentedIface kept = documentedIface (vs.map Varbind.read) := by
  have hsame : ∀ vs' : List Varbind, vs'.Perm vs →
      ifaceOf header vs' = (portOf ((vs'.map Varbind.read).take trapMaxVarbind)).name := by
    intro vs' hperm
    refine ifaceOf_eq header ?_
    rw [(hperm.flatMap_right Varbind.bytes).length_eq]
    exact hsize
  constructor
  · intro hall kept hsub hlength
    refine (forall_perm_iff (honce.subperm hsub) _).mp fun kept' hkept' => ?_
    obtain ⟨front, hfront, hfrontSub⟩ := hsub
    obtain ⟨rest, hrest⟩ := hfrontSub.exists_perm_append
    have hperm : (kept' ++ rest).Perm (vs.map Varbind.read) :=
      ((hkept'.trans hfront.symm).append_right rest).trans hrest.symm
    obtain ⟨vs', hvs', hread⟩ := exists_perm_map Varbind.read hperm
    have hselected := hall vs' hvs'
    rw [hsame vs' hvs', hread, take_of_length hperm (by rw [hkept'.length_eq, hlength, List.length_map])] at hselected
    exact hselected
  · intro hclear vs' hperm
    have hsub : ((vs'.map Varbind.read).take trapMaxVarbind).Subperm (vs.map Varbind.read) :=
      ((List.take_sublist _ _).subperm).trans (hperm.map Varbind.read).subperm
    obtain ⟨hkept, hdocumented⟩ := hclear _ hsub (by rw [List.length_take, List.length_map, hperm.length_eq])
    rw [hsame vs' hperm, portOf_name_of_clear (honce.subperm hsub) hkept, hdocumented]

/-- None are left out of sixteen. -/
theorem clear_kept_iff {vbs : List TrapVarbind} (honce : EachOnce vbs) {count : Nat} (h : vbs.length = count)
    (hshort : count ≤ trapMaxVarbind) :
    (∀ kept : List TrapVarbind, kept.Subperm vbs → kept.length = min trapMaxVarbind count →
      ClearIface kept ∧ documentedIface kept = documentedIface vbs) ↔ ClearIface vbs := by
  constructor
  · intro hall
    exact (hall vbs (List.Subperm.refl vbs) (h.trans (min_eq_right hshort).symm)).1
  · intro hclear kept hsub hlength
    have hperm : kept.Perm vbs := hsub.perm_of_length_le (by rw [hlength, min_eq_right hshort, h])
    obtain ⟨hsame, hdocumented⟩ := ClearIface.perm honce hperm
    exact ⟨hsame.mpr hclear, hdocumented⟩

def blankHeader : TrapHeader := ⟨undecoded, rfl, rfl⟩

def ifName : Varbind := ⟨[43, 6, 1, 2, 1, 31, 1, 1, 1, 1, 1], 0x04, [103, 101, 48], by decide⟩
def ifDescr : Varbind := ⟨[43, 6, 1, 2, 1, 2, 2, 1, 2, 1], 0x04, [101, 116, 104, 48], by decide⟩
def ifAlias : Varbind := ⟨[43, 6, 1, 2, 1, 31, 1, 1, 1, 18, 1], 0x04, [117, 112], by decide⟩

/-- With a name there is no doubt, in either order. -/
theorem iface_of_name :
    ifaceOf blankHeader [ifDescr, ifName] = "ge0".toList ∧ ifaceOf blankHeader [ifName, ifDescr] = "ge0".toList := by
  have honce : EachOnce ([ifDescr, ifName].map Varbind.read) := by decide
  have hclear : ClearIface ([ifDescr, ifName].map Varbind.read) := Or.inl (by decide)
  have hall := (iface_iff blankHeader (by decide) honce).mpr ((clear_kept_iff honce rfl (by decide)).mpr hclear)
  have hname : documentedIface ([ifDescr, ifName].map Varbind.read) = "ge0".toList := by decide
  rw [hname] at hall
  exact ⟨hall _ (List.Perm.refl _), hall _ (List.Perm.swap ifDescr ifName [])⟩

/-- An alias and a description: whichever comes first is taken. -/
theorem iface_of_first :
    ifaceOf blankHeader [ifAlias, ifDescr] = "up".toList ∧ ifaceOf blankHeader [ifDescr, ifAlias] = "eth0".toList ∧
      documentedIface ([ifAlias, ifDescr].map Varbind.read) = "eth0".toList := by
  decide

end Sysmon.Trap
