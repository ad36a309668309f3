import Sysmon.Srvclient.Object

/-!
# Text in an element

What a reader makes of the text that `xml_escape` leaves in an element. The escaped text ends between two bytes of the
field, so it reads as the beginning of the field, without the control characters, which are left out. The cut can fall
into a character of more than one byte, and `send_site` does not escape.
-/

namespace Sysmon.Srvclient

open CText

/-! ### Reading it back -/

/-- The characters that stand for themselves only as an entity. -/
def markup : List Char := ['&', '<', '>', '"', '\'']

def entities : List (Char × List Char) := markup.filterMap fun c => (xmlEntity c).map fun rep => (c, rep)

/-- The text of an element, read; the number of characters counts those of an entity that are still to be passed. -/
def unescapeFrom : Nat → List Char → Option (List Char)
  | _, [] => some []
  | skip + 1, _ :: rest => unescapeFrom skip rest
  | 0, c :: rest =>
      if c = '&' then
        match entities.find? fun entity => entity.2.isPrefixOf (c :: rest) with
        | some entity => (unescapeFrom (entity.2.length - 1) rest).map (entity.1 :: ·)
        | none => none
      else if c ∈ markup then none
      else (unescapeFrom 0 rest).map (c :: ·)

def unescape (text : List Char) : Option (List Char) := unescapeFrom 0 text

/-- The bytes of a character. -/
def utf8Char (c : Char) : CStr := (String.utf8EncodeChar c).map fun b => Char.ofNat b.toNat

def ValidUtf8 (s : CStr) : Prop := ∃ text : List Char, s = text.flatMap utf8Char

/-- Control characters are not sent. -/
def printable (c : Char) : Bool := !decide (c.toNat < 0x20)

/-- What stands for a character in the escaped text. -/
def escapeChar (c : Char) : List Char := (xmlEntity c).getD (if c.toNat < 0x20 then [] else [c])

/-- The text shows a part of the value, from its beginning, and all of it if it fits the given buffer. -/
def Shows (outlen : Nat) (value text : CStr) : Prop :=
  (∀ c ∈ text, c ∈ markup → c = '&') ∧
    ∃ part, part <+: value ∧ unescape text = some (part.filter printable) ∧ (ValidUtf8 part → ValidUtf8 text) ∧
      ((value.flatMap escapeChar).length < outlen → part = value)

/-! ### The escaped text -/

section escape

variable {outlen : Nat}

/-- The loop stops between two characters. -/
theorem xmlEscapeLoop_eq (out s : List Char) :
    ∃ part, part <+: s ∧ xmlEscapeLoop outlen out s = out ++ part.flatMap escapeChar ∧
      (out.length + (s.flatMap escapeChar).length < outlen → part = s) := by
  induction s generalizing out with
  | nil => exact ⟨[], List.prefix_rfl, (List.append_nil out).symm, fun _ => rfl⟩
  | cons c rest ih =>
      have hstop : outlen ≤ out.length + (escapeChar c).length →
          ∃ part, part <+: c :: rest ∧ out = out ++ part.flatMap escapeChar ∧
            (out.length + ((c :: rest).flatMap escapeChar).length < outlen → part = c :: rest) := fun hfull => by
        refine ⟨[], List.nil_prefix, (List.append_nil out).symm, fun hfits => ?_⟩
        rw [List.flatMap_cons, List.length_append] at hfits
        omega
      have hgo : ∃ part, part <+: c :: rest ∧
          xmlEscapeLoop outlen (out ++ escapeChar c) rest = out ++ part.flatMap escapeChar ∧
            (out.length + ((c :: rest).flatMap escapeChar).length < outlen → part = c :: rest) := by
        obtain ⟨part, hprefix, heq, hall⟩ := ih (out ++ escapeChar c)
        refine ⟨c :: part, List.cons_prefix_cons.mpr ⟨rfl, hprefix⟩, ?_, fun hfits => ?_⟩
        · rw [heq, List.flatMap_cons, List.append_assoc]
        · rw [List.flatMap_cons, List.length_append] at hfits
          rw [hall (by rw [List.length_append]; omega)]
      rw [xmlEscapeLoop]
      cases hentity : xmlEntity c with
      | some rep =>
          have hrep : escapeChar c = rep := by rw [escapeChar, hentity, Option.getD_some]
          rw [hrep] at hstop hgo
          dsimp only
          split
          · rename_i hfull
            exact hstop hfull
          · exact hgo
      | none =>
          have hrep : escapeChar c = if c.toNat < 0x20 then [] else [c] := by
            rw [escapeChar, hentity, Option.getD_none]
          rw [hrep] at hstop hgo
          dsimp only
          by_cases hcontrol : c.toNat < 0x20
          · rw [if_pos hcontrol, List.append_nil] at hgo
            rw [if_pos hcontrol]
            exact hgo
          · rw [if_neg hcontrol] at hstop hgo ⊢
            split
            · rename_i hfull
              exact hstop hfull
            · exact hgo

theorem mem_markup_of_entity {c : Char} {rep : List Char} (h : xmlEntity c = some rep) : c ∈ markup := by
  rw [xmlEntity.eq_def] at h
  split at h
  all_goals first
    | decide
    | contradiction

theorem unescape_entity {c : Char} (h : c ∈ markup) (rest : List Char) :
    unescapeFrom 0 (escapeChar c ++ rest) = (unescapeFrom 0 rest).map (c :: ·) := by
  simp only [markup, List.mem_cons, List.not_mem_nil, or_false] at h
  obtain rfl | rfl | rfl | rfl | rfl := h
  all_goals rfl

theorem escapeChar_of_notMem {c : Char} (h : c ∉ markup) : escapeChar c = if c.toNat < 0x20 then [] else [c] := by
  cases hentity : xmlEntity c with
  | some rep => exact absurd (mem_markup_of_entity hentity) h
  | none => rw [escapeChar, hentity, Option.getD_none]

theorem printable_of_markup {c : Char} (h : c ∈ markup) : printable c = true := by
  revert c
  decide

theorem unescape_escape (part : List Char) : unescape (part.flatMap escapeChar) = some (part.filter printable) := by
  induction part with
  | nil => rfl
  | cons c part ih =>
      rw [unescape] at ih ⊢
      rw [List.flatMap_cons]
      by_cases hmarkup : c ∈ markup
      · rw [unescape_entity hmarkup, ih, List.filter_cons_of_pos (printable_of_markup hmarkup), Option.map_some]
      · rw [escapeChar_of_notMem hmarkup]
        by_cases hcontrol : c.toNat < 0x20
        · rw [if_pos hcontrol, List.filter_cons_of_neg (by simp [printable, hcontrol]), List.nil_append, ih]
        · have hamp : c ≠ '&' := fun heq => hmarkup (heq ▸ List.mem_cons_self)
          rw [if_neg hcontrol, List.filter_cons_of_pos (by simp [printable, hcontrol]), List.singleton_append,
            unescapeFrom, if_neg hamp, if_neg hmarkup, ih, Option.map_some]

theorem mem_escapeChar {c d : Char} (h : d ∈ escapeChar c) (hmarkup : d ∈ markup) : d = '&' := by
  by_cases hc : c ∈ markup
  · simp only [markup, List.mem_cons, List.not_mem_nil, or_false] at hc
    obtain rfl | rfl | rfl | rfl | rfl := hc
    all_goals
      revert d
      decide
  · rw [escapeChar_of_notMem hc] at h
    split at h
    · exact absurd h List.not_mem_nil
    · exact absurd (List.mem_singleton.mp h ▸ hmarkup) hc

/-! ### Characters of more than one byte -/

theorem toNat_of_mem_utf8EncodeChar {c : Char} (hc : 0x80 ≤ c.toNat) {b : UInt8} (h : b ∈ String.utf8EncodeChar c) :
    0x80 ≤ b.toNat := by
  have hv : ¬c.val.toNat ≤ 0x7f := Nat.not_le.mpr hc
  simp only [String.utf8EncodeChar, if_neg hv] at h
  split at h
  · simp only [List.mem_cons, List.not_mem_nil, or_false] at h
    obtain rfl | rfl := h
    all_goals
      rw [UInt8.toNat_ofNat']
      omega
  · split at h
    · simp only [List.mem_cons, List.not_mem_nil, or_false] at h
      obtain rfl | rfl | rfl := h
      all_goals
        rw [UInt8.toNat_ofNat']
        omega
    · simp only [List.mem_cons, List.not_mem_nil, or_false] at h
      obtain rfl | rfl | rfl | rfl := h
      all_goals
        rw [UInt8.toNat_ofNat']
        omega

theorem toNat_ofNat_byte (b : UInt8) : (Char.ofNat b.toNat).toNat = b.toNat := by
  have hvalid : b.toNat.isValidChar := Or.inl (by have := b.toNat_lt; omega)
  rw [Char.ofNat, dif_pos hvalid]
  rfl

theorem utf8Char_ascii {c : Char} (hc : c.toNat < 0x80) : utf8Char c = [c] := by
  have hv : c.val.toNat ≤ 0x7f := Nat.le_of_lt_succ hc
  have hbyte : (UInt8.ofNat c.val.toNat).toNat = c.toNat :=
    UInt8.toNat_ofNat_of_lt' (Nat.lt_of_le_of_lt hv (by decide))
  rw [utf8Char, String.utf8EncodeChar, if_pos hv, List.map_cons, List.map_nil, hbyte, Char.ofNat_toNat]

/-- What is sent for an ASCII character is ASCII. -/
theorem escapeChar_ascii {c : Char} (hc : c.toNat < 0x80) : ∀ d ∈ escapeChar c, d.toNat < 0x80 := by
  by_cases hmarkup : c ∈ markup
  · have hentities : ∀ c ∈ markup, ∀ d ∈ escapeChar c, d.toNat < 0x80 := by decide
    exact hentities c hmarkup
  · rw [escapeChar_of_notMem hmarkup]
    split
    · exact fun d hd => absurd hd List.not_mem_nil
    · exact fun d hd => (List.mem_singleton.mp hd) ▸ hc

theorem escapeChar_of_byte {c : Char} (hc : 0x80 ≤ c.toNat) : escapeChar c = [c] := by
  have hmarkup : ∀ d ∈ markup, d.toNat < 0x80 := by decide
  rw [escapeChar_of_notMem fun hmem => absurd (hmarkup c hmem) (Nat.not_lt.mpr hc), if_neg (by omega)]

theorem validUtf8_ascii {s : CStr} (h : ∀ c ∈ s, c.toNat < 0x80) : ValidUtf8 s := by
  refine ⟨s, ?_⟩
  induction s with
  | nil => rfl
  | cons c s ih =>
      rw [List.flatMap_cons, utf8Char_ascii (h c List.mem_cons_self), List.singleton_append,
        ← ih fun d hd => h d (List.mem_cons_of_mem c hd)]

theorem ValidUtf8.append {s t : CStr} (hs : ValidUtf8 s) (ht : ValidUtf8 t) : ValidUtf8 (s ++ t) := by
  obtain ⟨text, rfl⟩ := hs
  obtain ⟨text', rfl⟩ := ht
  exact ⟨text ++ text', List.flatMap_append.symm⟩

theorem ValidUtf8.escape {s : CStr} (h : ValidUtf8 s) : ValidUtf8 (s.flatMap escapeChar) := by
  obtain ⟨text, rfl⟩ := h
  induction text with
  | nil => exact ⟨[], rfl⟩
  | cons c text ih =>
      rw [List.flatMap_cons, List.flatMap_append]
      refine ValidUtf8.append ?_ ih
      by_cases hc : c.toNat < 0x80
      · rw [utf8Char_ascii hc, List.flatMap_singleton]
        exact validUtf8_ascii (escapeChar_ascii hc)
      · have hbytes : ∀ d ∈ utf8Char c, escapeChar d = [d] := fun d hd => by
          obtain ⟨b, hb, rfl⟩ := List.mem_map.mp hd
          exact escapeChar_of_byte (by
            rw [toNat_ofNat_byte]
            exact toNat_of_mem_utf8EncodeChar (Nat.le_of_not_lt hc) hb)
        refine ⟨[c], ?_⟩
        rw [List.flatMap_singleton]
        exact (List.flatMap_congr hbytes).trans (List.flatMap_singleton' _)

/-- What `xml_escape` leaves shows the value. -/
theorem shows_xmlEscape (value : CStr) : Shows outlen value (xmlEscape outlen value) := by
  obtain ⟨part, hprefix, heq, hall⟩ := @xmlEscapeLoop_eq outlen [] value
  rw [List.nil_append] at heq
  rw [xmlEscape, heq]
  refine ⟨fun c hc hmarkup => ?_, part, hprefix, unescape_escape part, ValidUtf8.escape, fun hfits => ?_⟩
  · obtain ⟨d, -, hd⟩ := List.mem_flatMap.mp hc
    exact mem_escapeChar hd hmarkup
  · exact hall (by rw [List.length_nil, Nat.zero_add]; exact hfits)

end escape

/-! ### The lines -/

/-- An element is not cut. -/
def Whole (tag text line : List Char) : Prop := line = startTag tag ++ text ++ endTag tag

/-- The line is a whole element that shows the value of a field. -/
def Carries (tag value line : List Char) : Prop := ∃ text, Whole tag text line ∧ Shows escSize value text

/-- The line is whole, and shows its field if it has one. -/
def Item.Complete (item : Item) : Prop :=
  match item with
  | .opens tag => item.line = startTag tag.toList
  | .closes tag => item.line = endTag tag.toList
  | .text tag value => Carries tag.toList value item.line
  | .number tag value => value.length < escSize → Whole tag.toList value item.line ∧ Plain value
  | .sample s => item.line = sampleLine s

/-- Room is left for the text. -/
def Item.Short : Item → Prop
  | .opens tag => tag.toList.length ≤ 61
  | .closes tag => tag.toList.length ≤ 61
  | .text tag _ => tag.toList.length ≤ 61
  | .number tag _ => tag.toList.length ≤ 61
  | .sample _ => True

def Short (items : List Item) : Prop := ∀ item ∈ items, item.Short

section short

variable {tag : List Char} {items items' : List Item}

theorem short_ofList (h : tag.length ≤ 61) : (String.ofList tag).toList.length ≤ 61 := by
  rw [String.toList_ofList]
  exact h

theorem short_opens (h : tag.length ≤ 61) : (Item.opens (String.ofList tag)).Short := short_ofList h

theorem short_closes (h : tag.length ≤ 61) : (Item.closes (String.ofList tag)).Short := short_ofList h

theorem short_text (h : tag.length ≤ 61) (value : CStr) : (Item.text (String.ofList tag) value).Short :=
  short_ofList h

theorem short_number (h : tag.length ≤ 61) (value : List Char) : (Item.number (String.ofList tag) value).Short :=
  short_ofList h

theorem short_nil : Short [] := fun _ h => absurd h List.not_mem_nil

theorem short_cons {item : Item} : Short (item :: items) ↔ item.Short ∧ Short items := List.forall_mem_cons

theorem short_append : Short (items ++ items') ↔ Short items ∧ Short items' := List.forall_mem_append

theorem short_ite {c : Prop} [Decidable c] (h : Short items) : Short (if c then items else []) := by
  split
  · exact h
  · exact short_nil

theorem short_textIf (h : tag.length ≤ 61) (value : Option CStr) : Short (textIf (String.ofList tag) value) := by
  cases value with
  | none => exact short_nil
  | some value => exact short_cons.mpr ⟨short_text h value, short_nil⟩

theorem short_secretIf (h : tag.length ≤ 61) (privileged : Bool) (value : Option CStr) :
    Short (secretIf privileged (String.ofList tag) value) := short_ite (short_textIf h value)

theorem short_numberIf (h : tag.length ≤ 61) (condition : Bool) (value : List Char) :
    Short (numberIf condition (String.ofList tag) value) :=
  short_ite (short_cons.mpr ⟨short_number h value, short_nil⟩)

end short

theorem short_checkItems (type : UInt32) (q : CheckEntry) : Short (checkItems type q) := by
  have hpktloss : ∀ pld, Short (pktlossItems pld) := fun pld => by
    simp only [pktlossItems, short_append, short_cons]
    refine ⟨⟨short_number (by decide) _, short_number (by decide) _, short_number (by decide) _,
      short_number (by decide) _, short_nil⟩, short_ite ?_⟩
    simp only [short_append, short_cons]
    refine ⟨⟨⟨short_opens (by decide), short_nil⟩, fun item hitem => ?_⟩, short_closes (by decide), short_nil⟩
    obtain ⟨s, -, rfl⟩ := List.mem_map.mp hitem
    exact trivial
  simp only [checkItems, short_append, short_cons]
  refine ⟨⟨⟨⟨⟨short_number (by decide) _, short_number (by decide) _, short_number (by decide) _,
    short_number (by decide) _, short_nil⟩, short_numberIf (by decide) _ _⟩, short_numberIf (by decide) _ _⟩,
    short_numberIf (by decide) _ _⟩, short_ite ?_⟩
  cases q.monitordata with
  | none => exact short_nil
  | some pld => exact hpktloss pld

theorem short_dnsItems (d : HostInfo) : Short (dnsItems d) := by
  rw [dnsItems]
  split
  · exact short_nil
  · simp only [short_cons]
    exact ⟨short_text (by decide) _, short_number (by decide) _, short_number (by decide) _, short_nil⟩

/-- Whatever the kind of an item, its tag is short. -/
theorem short_objectItems (privileged : Bool) (obj : Element) (qent : Option CheckEntry) :
    Short (objectItems privileged obj qent ++ [Item.closes "ObjectStatus"]) := by
  have hsnmp : Short (snmpItems privileged obj.data) := by
    simp only [snmpItems, short_append, short_cons]
    and_intros
    all_goals first
      | exact short_nil
      | exact short_number (by decide) _
      | exact short_text (by decide) _
      | exact short_textIf (by decide) _
      | exact short_secretIf (by decide) _ _
  have hqent : Short ((qent.map (checkItems obj.data.type)).getD []) := by
    cases qent with
    | none => exact short_nil
    | some q => exact short_checkItems _ q
  simp only [objectItems, headItems, authItems, counterItems, thresholdItems, measuredItems, short_append, short_cons]
  and_intros
  all_goals first
    | exact short_nil
    | exact short_number (by decide) _
    | exact short_text (by decide) _
    | exact short_numberIf (by decide) _ _
    | exact short_textIf (by decide) _
    | exact short_secretIf (by decide) _ _
    | exact short_opens (by decide)
    | exact short_closes (by decide)
    | exact short_ite hsnmp
    | exact short_ite (short_dnsItems _)
    | exact hqent
    | skip
  refine short_ite ?_
  simp only [short_append]
  exact ⟨⟨short_textIf (by decide) _, short_textIf (by decide) _⟩, short_textIf (by decide) _⟩

/-- A line that fits its buffer is not cut. -/
theorem whole_element {size : Nat} {tag text : List Char}
    (hfits : 2 * tag.length + 5 + text.length < size) : Whole tag text (element size tag text) := by
  rw [Whole, element, snprintf, List.take_of_length_le]
  simp only [startTag, endTag, List.length_append, List.length_cons, List.length_nil]
  omega

theorem length_showInt_le (t : Time) : (showInt t.toInt).length ≤ 21 := by
  have hlt : t.toInt.natAbs < 2 ^ 64 := by
    have hlow := t.le_toInt
    have hhigh := t.toInt_lt
    omega
  have hdigits : (showNat t.toInt.natAbs).length ≤ 20 := by
    have h := length_showNat_le (UInt64.ofNat t.toInt.natAbs)
    rw [UInt64.toNat_ofNat_of_lt' hlt] at h
    exact h
  rw [showInt]
  split
  · rw [List.length_cons]
    omega
  · omega

theorem length_append_le {front back : List Char} {m n : Nat} (hfront : front.length ≤ m) (hback : back.length ≤ n) :
    (front ++ back).length ≤ m + n := by
  rw [List.length_append]
  exact Nat.add_le_add hfront hback

theorem length_sampleLine (s : PktlossSample) : (sampleLine s).length < tempbufSize := by
  have hcount : ∀ n : UInt32, (showNat n.toNat).length ≤ 20 := fun n => by
    have h := length_showNat_le n.toUInt64
    rw [UInt32.toNat_toUInt64] at h
    exact h
  have hcut : ∀ {front tag back : List Char} {m : Nat}, front.length ≤ m → tag.length ≤ 61 → back.length ≤ 21 →
      (front ++ (String.ofList tag).toList ++ back).length ≤ m + 61 + 21 := fun hfront htag hback =>
    length_append_le (length_append_le hfront (short_ofList htag)) hback
  have hcount : ∀ n : UInt32, (showNat n.toNat).length ≤ 21 := fun n => Nat.le_succ_of_le (hcount n)
  have htime := length_showInt_le s.timestamp
  refine Nat.lt_of_le_of_lt (length_append_le (hcut (hcut (hcut (length_append_le (short_ofList ?_) htime)
    ?_ (hcount s.sent)) ?_ (hcount s.received)) ?_ (hcount s.lost)) (short_ofList ?_)) ?_
  all_goals decide

theorem Item.Short.complete {item : Item} (h : item.Short) (hinner : item.Inner ∨ ∃ tag, item = .closes tag) :
    item.Complete := by
  cases item with
  | opens tag =>
      change snprintf tempbufSize (startTag tag.toList) = startTag tag.toList
      have hlength : tag.toList.length ≤ 61 := h
      rw [snprintf, List.take_of_length_le]
      simp only [startTag, tempbufSize, List.length_append, List.length_cons, List.length_nil]
      omega
  | closes tag =>
      change snprintf tempbufSize (endTag tag.toList) = endTag tag.toList
      have hlength : tag.toList.length ≤ 61 := h
      rw [snprintf, List.take_of_length_le]
      simp only [endTag, tempbufSize, List.length_append, List.length_cons, List.length_nil]
      omega
  | text tag value =>
      have hlength : tag.toList.length ≤ 61 := h
      have hescape := (xmlEscape_plain (show 0 < escSize by decide) value).2
      have hsize : escSize = 896 := rfl
      exact ⟨_, whole_element (by rw [tempbufSize]; omega), shows_xmlEscape value⟩
  | number tag value =>
      have hlength : tag.toList.length ≤ 61 := h
      obtain hinner | ⟨tag, heq⟩ := hinner
      · have hsize : escSize = 896 := rfl
        exact fun hvalue => ⟨whole_element (by rw [tempbufSize]; omega), hinner.2⟩
      · contradiction
  | sample s =>
      change snprintf tempbufSize (sampleLine s) = sampleLine s
      rw [snprintf, List.take_of_length_le (Nat.le_sub_one_of_lt (length_sampleLine s))]

/-! ### The site -/

/-- `send_site`. -/
def sendSite (xml : Bool) (sitename sitedesc : Option CStr) : List (List Char) :=
  if xml then
    [element tempbufSize "SiteName".toList (sitename.getD "local".toList),
      element tempbufSize "SiteDescription".toList (sitedesc.getD []), "333 site".toList]
  else [snprintf tempbufSize ("333 ".toList ++ sitename.getD "local".toList ++ ' ' :: sitedesc.getD [])]

/-- Text that needs no escaping and is not cut. -/
def Clean (value : CStr) : Prop := (∀ c ∈ value, c ∉ markup ∧ printable c = true) ∧ value.length < escSize

theorem shows_clean {value : CStr} (h : Clean value) : Shows escSize value value := by
  have hescape : value.flatMap escapeChar = value := by
    refine (List.flatMap_congr fun c hc => ?_).trans (List.flatMap_singleton' value)
    obtain ⟨hmarkup, hprintable⟩ := h.1 c hc
    rw [escapeChar_of_notMem hmarkup, if_neg (by simpa [printable] using hprintable)]
  refine ⟨fun c hc hmarkup => absurd hmarkup (h.1 c hc).1, value, List.prefix_rfl, ?_, id, fun _ => rfl⟩
  have hunescape := unescape_escape value
  rwa [hescape] at hunescape

theorem carries_clean {tag value : List Char} (htag : tag.length ≤ 61) (h : Clean value) :
    Carries tag value (element tempbufSize tag value) := by
  have hsize : escSize = 896 := rfl
  have hlength := h.2
  exact ⟨value, whole_element (by rw [tempbufSize]; omega), shows_clean h⟩

/-- Every line about an object is whole and shows the beginning of its field, and so is one about a site whose text
needs no escaping. -/
theorem xmlLines_complete :
    (∀ privileged obj qent, ∀ item ∈ objectItems privileged obj qent ++ [Item.closes "ObjectStatus"], item.Complete) ∧
      ∀ sitename sitedesc, ∃ nameLine descLine,
        sendSite true sitename sitedesc = [nameLine, descLine, "333 site".toList] ∧
        (Clean (sitename.getD "local".toList) →
          Carries "SiteName".toList (sitename.getD "local".toList) nameLine) ∧
        (Clean (sitedesc.getD []) → Carries "SiteDescription".toList (sitedesc.getD []) descLine) := by
  refine ⟨fun privileged obj qent item hitem => ?_, fun sitename sitedesc => ?_⟩
  · refine (short_objectItems privileged obj qent item hitem).complete ?_
    obtain hitem | hitem := List.mem_append.mp hitem
    · exact .inl (inner_objectItems privileged obj qent item hitem)
    · exact .inr ⟨_, List.mem_singleton.mp hitem⟩
  · exact ⟨_, _, rfl, carries_clean (by decide), carries_clean (by decide)⟩

/-- A tab in a message is left out, and is not where its text ends. -/
theorem message_tab :
    ¬∀ privileged obj qent tag value, Item.text tag value ∈ objectItems privileged obj qent →
      ∃ text, Whole tag.toList text (Item.text tag value).line ∧
        ∃ plain, unescape text = some plain ∧ plain <+: value := by
  intro h
  have hmem : Item.text "ObjectMessage" ['a', '\t', 'b'] ∈
      objectItems false ⟨[], { HostInfo.zeroed with message := some ['a', '\t', 'b'] }, []⟩ none := by
    simp [objectItems, headItems]
  obtain ⟨text, hwhole, plain, hplain, hprefix⟩ := h _ _ _ _ _ hmem
  have hescaped : xmlEscape escSize ['a', '\t', 'b'] = ['a', 'b'] := by decide
  have hline : Whole "ObjectMessage".toList ['a', 'b'] (Item.text "ObjectMessage" ['a', '\t', 'b']).line := by
    rw [Item.line, hescaped]
    exact whole_element (by decide)
  have htext : text = ['a', 'b'] := by
    have heq := hwhole.symm.trans hline
    exact List.append_cancel_left (List.append_cancel_right heq)
  rw [htext] at hplain
  obtain rfl := Option.some.inj (hplain.symm.trans (show unescape ['a', 'b'] = some ['a', 'b'] by decide))
  exact absurd hprefix (by decide)

end Sysmon.Srvclient
