import Mathlib.Data.List.Infix
import Sysmon.Lib.CText
import Sysmon.Lib.Lines

/-!
# Lines of XML

The documents that `srvclient.c` writes are lines of one element each. Text in an element is escaped
(`xml_escape`) and a line is cut to the buffer it is printed into. So no text can start a line or an
element of its own, and an element is found in a line only if it is the line's.
-/

namespace Sysmon.Srvclient

open CText

def tempbufSize : Nat := 1024

def largeTempbufSize : Nat := 4096

/-- What `snprintf` leaves in a buffer of the given size. -/
def snprintf (size : Nat) (s : List Char) : List Char := s.take (size - 1)

/-! ### Escaping -/

def xmlEntity : Char → Option (List Char)
  | '&' => some "&amp;".toList
  | '<' => some "&lt;".toList
  | '>' => some "&gt;".toList
  | '"' => some "&quot;".toList
  | '\'' => some "&apos;".toList
  | _ => none

/-- The loop of `xml_escape`, with what is in the buffer; a control character is left out. -/
def xmlEscapeLoop (outlen : Nat) : List Char → List Char → List Char
  | out, [] => out
  | out, c :: rest =>
      match xmlEntity c with
      | some rep => if outlen ≤ out.length + rep.length then out else xmlEscapeLoop outlen (out ++ rep) rest
      | none =>
          if c.toNat < 0x20 then xmlEscapeLoop outlen out rest
          else if outlen ≤ out.length + 1 then out
          else xmlEscapeLoop outlen (out ++ [c]) rest

def xmlEscape (outlen : Nat) (s : List Char) : List Char := xmlEscapeLoop outlen [] s

/-! ### Elements -/

def startTag (tag : List Char) : List Char := '<' :: tag ++ ['>']

def endTag (tag : List Char) : List Char := '<' :: '/' :: tag ++ ['>']

/-- An element on one line, in a buffer of the given size. -/
def element (size : Nat) (tag text : List Char) : List Char := snprintf size (startTag tag ++ text ++ endTag tag)

/-- What `sendline` puts behind each line. -/
def wire (lines : List (List Char)) : List Char := Lines.joinLines (lines.map (· ++ ['\r']))

/-! ### What a line can look like -/

/-- Neither an element nor a line can start in the text. -/
def Plain (text : List Char) : Prop := ∀ c ∈ text, c ≠ '<' ∧ c ≠ '\n'

instance (text : List Char) : Decidable (Plain text) := inferInstanceAs (Decidable (∀ c ∈ text, _))

/-- The name of an element. -/
def IsTag (tag : List Char) : Prop := tag ≠ [] ∧ ∀ c ∈ tag, c ≠ '<' ∧ c ≠ '\n' ∧ c ≠ '>' ∧ c ≠ '/'

instance (tag : List Char) : Decidable (IsTag tag) := inferInstanceAs (Decidable (_ ∧ _))

variable {tag name text : List Char}

theorem xmlEntity_plain {c : Char} {rep : List Char} (h : xmlEntity c = some rep) : Plain rep := by
  rw [xmlEntity.eq_def] at h
  split at h
  all_goals first
    | (obtain rfl := Option.some.inj h; decide)
    | exact nomatch h

/-- An escaped text has no element and no line of its own, and fits its buffer. -/
theorem xmlEscape_plain {outlen : Nat} (houtlen : 0 < outlen) (s : List Char) :
    Plain (xmlEscape outlen s) ∧ (xmlEscape outlen s).length < outlen := by
  have hloop : ∀ out : List Char, Plain out → out.length < outlen →
      Plain (xmlEscapeLoop outlen out s) ∧ (xmlEscapeLoop outlen out s).length < outlen := by
    induction s with
    | nil => exact fun out hplain hlen => ⟨hplain, hlen⟩
    | cons c rest ih =>
        intro out hplain hlen
        rw [xmlEscapeLoop]
        split
        next rep hrep =>
          split
          · exact ⟨hplain, hlen⟩
          · refine ih _ (fun d hd => ?_) (by rw [List.length_append]; omega)
            obtain hd | hd := List.mem_append.mp hd
            · exact hplain d hd
            · exact xmlEntity_plain hrep d hd
        next hrep =>
          split
          · exact ih out hplain hlen
          · split
            · exact ⟨hplain, hlen⟩
            next hcontrol _ =>
              refine ih _ (fun d hd => ?_) (by rw [List.length_append, List.length_singleton]; omega)
              obtain hd | hd := List.mem_append.mp hd
              · exact hplain d hd
              · obtain rfl := List.mem_singleton.mp hd
                refine ⟨?_, ?_⟩
                · rintro rfl
                  exact absurd hrep (by decide)
                · rintro rfl
                  exact absurd (show ('\n' : Char).toNat < 0x20 by decide) hcontrol
  exact hloop [] (fun c hc => absurd hc List.not_mem_nil) houtlen

theorem plain_showNat (n : Nat) : Plain (showNat n) := by
  intro c hc
  have hdigit := isDigit_of_mem_showNat hc
  refine ⟨?_, ?_⟩ <;> rintro rfl <;> exact absurd hdigit (by decide)

theorem plain_showInt (i : Int) : Plain (showInt i) := by
  intro c hc
  rw [showInt] at hc
  split at hc
  · obtain rfl | hc := List.mem_cons.mp hc
    · decide
    · exact plain_showNat _ c hc
  · exact plain_showNat _ c hc

theorem Plain.append {left right : List Char} (hleft : Plain left) (hright : Plain right) : Plain (left ++ right) := by
  intro c hc
  obtain hc | hc := List.mem_append.mp hc
  · exact hleft c hc
  · exact hright c hc

/-- A line of a document. -/
structure IsLine (line : List Char) : Prop where
  newline : '\n' ∉ line
  starts : ∃ rest, line = '<' :: rest

theorem IsLine.snprintf {line : List Char} (h : IsLine line) {size : Nat} (hsize : 2 ≤ size) :
    IsLine (snprintf size line) := by
  obtain ⟨rest, rfl⟩ := h.starts
  obtain ⟨size, rfl⟩ := Nat.exists_eq_add_of_le hsize
  refine ⟨fun hmem => h.newline (List.mem_of_mem_take hmem), rest.take size, ?_⟩
  rw [Srvclient.snprintf, show 2 + size - 1 = size + 1 by omega, List.take_succ_cons]

theorem isLine_element (htag : IsTag tag) (htext : Plain text) {size : Nat} (hsize : 2 ≤ size) :
    IsLine (element size tag text) := by
  refine IsLine.snprintf ⟨fun hmem => ?_, ⟨_, rfl⟩⟩ hsize
  have htag' : '\n' ∉ tag := fun h => absurd rfl (htag.2 _ h).2.1
  have htext' : '\n' ∉ text := fun h => absurd rfl (htext _ h).2
  simp [endTag, htag', htext'] at hmem

/-- What starts an element starts it after the text that has none. -/
theorem infix_of_plain {p s t : List Char} (h : ∀ c ∈ s, c ≠ '<') (hin : ('<' :: p) <:+: s ++ t) :
    ('<' :: p) <:+: t := by
  induction s with
  | nil => exact hin
  | cons c s ih =>
      rw [List.cons_append, List.infix_cons_iff] at hin
      obtain hfront | hin := hin
      · exact absurd (List.cons_prefix_cons.mp hfront).1.symm (h c List.mem_cons_self)
      · exact ih (fun d hd => h d (List.mem_cons_of_mem _ hd)) hin

/-- An element on a line begins at one of its two tags. -/
theorem infix_element (htag : IsTag tag) (htext : Plain text) {size : Nat} {p : List Char}
    (hin : ('<' :: p) <:+: element size tag text) :
    p <+: tag ++ '>' :: (text ++ endTag tag) ∨ p <+: '/' :: (tag ++ ['>']) := by
  have hcut : element size tag text <+: startTag tag ++ text ++ endTag tag := List.take_prefix _ _
  have hwhole := hin.trans hcut.isInfix
  have hopen : ∀ c ∈ tag ++ '>' :: text, c ≠ '<' := by
    intro c hc
    obtain hc | hc := List.mem_append.mp hc
    · exact (htag.2 c hc).1
    · obtain rfl | hc := List.mem_cons.mp hc
      · decide
      · exact (htext c hc).1
  have hclose : ∀ c ∈ '/' :: (tag ++ ['>']), c ≠ '<' := by
    intro c hc
    obtain rfl | hc := List.mem_cons.mp hc
    · decide
    · obtain hc | hc := List.mem_append.mp hc
      · exact (htag.2 c hc).1
      · obtain rfl := List.mem_singleton.mp hc
        decide
  have hsplit : startTag tag ++ text ++ endTag tag =
      '<' :: ((tag ++ '>' :: text) ++ '<' :: ('/' :: (tag ++ ['>']))) := by simp [startTag, endTag]
  rw [hsplit, List.infix_cons_iff] at hwhole
  obtain hfront | hwhole := hwhole
  · left
    simpa [endTag] using (List.cons_prefix_cons.mp hfront).2
  · right
    obtain hfront | hwhole := List.infix_cons_iff.mp (infix_of_plain hopen hwhole)
    · exact (List.cons_prefix_cons.mp hfront).2
    · rw [← List.append_nil ('/' :: (tag ++ ['>']))] at hwhole
      exact absurd (infix_of_plain hclose hwhole).length_le (by simp)

/-- Names that end at the same place are the same. -/
theorem eq_of_starts (htag : IsTag tag) (hname : IsTag name) {rest : List Char}
    (h : name ++ ['>'] <+: tag ++ '>' :: rest) : name = tag := by
  have hno : ∀ t : List Char, IsTag t → ∀ c ∈ t, (c ≠ '>') = true := fun t ht c hc => by simpa using (ht.2 c hc).2.2.1
  obtain ⟨more, hmore⟩ := h
  have hleft : (name ++ ['>'] ++ more).takeWhile (· ≠ '>') = name := by
    rw [List.append_assoc, List.takeWhile_append_of_pos (by simpa using hno name hname)]
    simp
  have hright : (tag ++ '>' :: rest).takeWhile (· ≠ '>') = tag := by
    rw [List.takeWhile_append_of_pos (by simpa using hno tag htag)]
    simp
  rw [← hleft, hmore, hright]

/-- A line of an element starts no other element, and ends none. -/
theorem not_infix_element (htag : IsTag tag) (hname : IsTag name) (hne : name ≠ tag) (htext : Plain text)
    (size : Nat) : ¬startTag name <:+: element size tag text ∧ ¬endTag name <:+: element size tag text := by
  have hslash : ∀ (t rest : List Char), IsTag t → ∀ rest', ¬('/' :: rest) <+: t ++ rest' := by
    intro t rest ht rest' h
    obtain ⟨c, t, rfl⟩ := List.exists_cons_of_ne_nil ht.1
    exact (ht.2 c List.mem_cons_self).2.2.2 (List.cons_prefix_cons.mp h).1.symm
  constructor
  · intro hin
    obtain hopen | hclose := infix_element htag htext hin
    · exact hne (eq_of_starts htag hname hopen)
    · obtain ⟨c, t, rfl⟩ := List.exists_cons_of_ne_nil hname.1
      exact (hname.2 c List.mem_cons_self).2.2.2 (List.cons_prefix_cons.mp hclose).1
  · intro hin
    obtain hopen | hclose := infix_element htag htext hin
    · exact hslash tag _ htag _ hopen
    · exact hne (eq_of_starts htag hname (List.cons_prefix_cons.mp hclose).2)

end Sysmon.Srvclient
