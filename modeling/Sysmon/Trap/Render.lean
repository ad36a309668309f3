import Sysmon.Srvclient.Xml
import Sysmon.Trap.History

/-!
# Traps as XML

What `send_traps` writes to a client in XML mode: a line for each element, the texts escaped and cut to
their buffers. No text can start a line or an element of its own.
-/

namespace Sysmon.Trap

open CText
open Srvclient (xmlEscape startTag endTag Plain IsTag IsLine isLine_element not_infix_element
  xmlEscape_plain plain_showNat plain_showInt)

/-! ### Elements -/

/-- The size of the buffer that an escaped text is put into. -/
def escSize : Nat := trapOidLen * 6 + 8

/-- A line that opens an element. -/
def openTag (tag : List Char) : List Char := snprintf Srvclient.largeTempbufSize (startTag tag)

/-- A line that closes an element. -/
def closeTag (tag : List Char) : List Char := snprintf Srvclient.largeTempbufSize (endTag tag)

/-- An element on one line. -/
def element (tag text : List Char) : List Char := Srvclient.element Srvclient.largeTempbufSize tag text

def textElement (tag text : List Char) : List Char := element tag (xmlEscape escSize text)

/-- An element that is left out when there is no text. -/
def textElementIf (tag text : List Char) : List (List Char) :=
  if text ≠ [] then [textElement tag text] else []

def flagElement (tag : List Char) (flag : Bool) : List Char := element tag (if flag then ['1'] else ['0'])

/-! ### A trap -/

def versionText (version : Int32) : List Char :=
  if version = 0 then "v1".toList
  else if version = 1 then "v2c".toList
  else if version = 3 then "v3".toList
  else "unknown".toList

def varbindLines (b : TrapVarbind) : List (List Char) :=
  openTag "Varbind".toList :: textElement "VarbindOID".toList b.oid ::
    textElementIf "VarbindName".toList b.name ++
    textElement "VarbindType".toList b.type :: textElement "VarbindValue".toList b.value ::
    textElementIf "VarbindNote".toList b.note ++ [closeTag "Varbind".toList]

/-- The elements of a trap, for a client that has authenticated or not. -/
def trapElements (authed : Bool) (r : TrapRecord) : List (List Char) :=
  let c := r.trap.content
  [element "TrapSeq".toList (showNat r.seq.toNat), textElement "TrapSource".toList r.trap.source,
    element "TrapTime".toList (showInt r.trap.time.toInt), element "TrapBytes".toList (showInt r.trap.bytes.toInt),
    element "TrapVersion".toList (versionText c.version)] ++
    (if authed then textElementIf "TrapCommunity".toList c.community else []) ++
    [textElement "TrapName".toList c.name, textElement "TrapDescription".toList c.description,
      textElement "TrapSeverity".toList c.severity, textElement "TrapCategory".toList c.category] ++
    textElementIf "TrapOID".toList c.trapOid ++ textElementIf "TrapEnterprise".toList c.enterprise ++
    textElementIf "TrapAgentAddress".toList c.agent ++ textElementIf "TrapVendor".toList c.vendor ++
    textElementIf "TrapInterface".toList c.iface ++
    (if 0 ≤ c.ifindex then [element "TrapIfIndex".toList (showInt c.ifindex.toInt)] else []) ++
    [element "TrapUptime".toList (showNat c.uptime.toNat), flagElement "TrapDecoded".toList c.decoded] ++
    textElementIf "TrapMatchedHost".toList r.trap.matched ++
    [flagElement "TrapAlertEnabled".toList r.trap.alertEnabled,
      flagElement "TrapAlertSent".toList r.trap.alertSent] ++
    (c.vb.take trapMaxVarbind).flatMap varbindLines

def trapLines (authed : Bool) (r : TrapRecord) : List (List Char) :=
  openTag "Trap".toList :: trapElements authed r ++ [closeTag "Trap".toList]

def statusLine (answer : TrapsAnswer) : List Char :=
  snprintf Srvclient.largeTempbufSize ("333 ".toList ++ showNat answer.current.toNat ++ ' ' ::
    showNat answer.oldest.toNat ++ ' ' :: showNat answer.third)

/-- The lines of `send_traps` before the last. -/
def trapsBody (authed : Bool) (h : TrapRing) (since : UInt64) : List (List Char) :=
  openTag "SysmonTraps".toList :: (sendTraps h true since).records.flatMap (trapLines authed) ++
    [closeTag "SysmonTraps".toList]

def sendTrapsXml (authed : Bool) (h : TrapRing) (since : UInt64) : List (List Char) :=
  trapsBody authed h since ++ [statusLine (sendTraps h true since)]

/-! ### What a line can look like -/

variable {tag text : List Char}

def trapStart : List Char := startTag "Trap".toList

def trapEnd : List Char := endTag "Trap".toList

/-- A line of an element that neither starts nor ends a trap. -/
structure Quiet (line : List Char) : Prop extends IsLine line where
  noStart : ¬trapStart <:+: line
  noEnd : ¬trapEnd <:+: line

theorem quiet_element (htag : IsTag tag) (hne : "Trap".toList ≠ tag) (htext : Plain text) :
    Quiet (element tag text) := by
  obtain ⟨hstart, hend⟩ := not_infix_element htag (by decide) hne htext Srvclient.largeTempbufSize
  exact ⟨isLine_element htag htext (by decide), hstart, hend⟩

theorem quiet_textElement (htag : IsTag tag) (hne : "Trap".toList ≠ tag) (text : List Char) :
    Quiet (textElement tag text) :=
  quiet_element htag hne (xmlEscape_plain (by decide) text).1

theorem quiet_textElementIf (htag : IsTag tag) (hne : "Trap".toList ≠ tag) (text : List Char) :
    ∀ line ∈ textElementIf tag text, Quiet line := by
  intro line hline
  rw [textElementIf] at hline
  split at hline
  · obtain rfl := List.mem_singleton.mp hline
    exact quiet_textElement htag hne text
  · exact absurd hline List.not_mem_nil

theorem quiet_flagElement (htag : IsTag tag) (hne : "Trap".toList ≠ tag) (flag : Bool) :
    Quiet (flagElement tag flag) := by
  refine quiet_element htag hne ?_
  cases flag <;> decide

theorem quiet_varbindLines (b : TrapVarbind) : ∀ line ∈ varbindLines b, Quiet line := by
  have hopen : Quiet (openTag "Varbind".toList) ∧ Quiet (closeTag "Varbind".toList) := by
    constructor <;> exact ⟨⟨by decide, ⟨_, rfl⟩⟩, by decide, by decide⟩
  intro line hline
  simp only [varbindLines, List.cons_append, List.mem_cons, List.mem_append, List.not_mem_nil,
    or_false] at hline
  obtain rfl | rfl | (hline | rfl | rfl | hline) | rfl := hline
  · exact hopen.1
  · exact quiet_textElement (by decide) (by decide) _
  · exact quiet_textElementIf (by decide) (by decide) _ line hline
  · exact quiet_textElement (by decide) (by decide) _
  · exact quiet_textElement (by decide) (by decide) _
  · exact quiet_textElementIf (by decide) (by decide) _ line hline
  · exact hopen.2

theorem quiet_trapElements (authed : Bool) (r : TrapRecord) : ∀ line ∈ trapElements authed r, Quiet line := by
  intro line hline
  have hif : ∀ (c : Prop) [Decidable c] (lines : List (List Char)), (∀ l ∈ lines, Quiet l) →
      ∀ l ∈ (if c then lines else []), Quiet l := by
    intro c _ lines hlines l hl
    split at hl
    · exact hlines l hl
    · exact absurd hl List.not_mem_nil
  simp only [trapElements, List.mem_append, List.mem_cons, List.not_mem_nil, or_false, or_assoc] at hline
  obtain rfl | rfl | rfl | rfl | rfl | hline | rfl | rfl | rfl | rfl | hline | hline | hline | hline | hline |
    hline | rfl | rfl | hline | rfl | rfl | hline := hline
  · exact quiet_element (by decide) (by decide) (plain_showNat _)
  · exact quiet_textElement (by decide) (by decide) _
  · exact quiet_element (by decide) (by decide) (plain_showInt _)
  · exact quiet_element (by decide) (by decide) (plain_showInt _)
  · refine quiet_element (by decide) (by decide) ?_
    rw [versionText]
    split
    · decide
    · split
      · decide
      · split <;> decide
  · exact hif _ _ (quiet_textElementIf (by decide) (by decide) _) line hline
  · exact quiet_textElement (by decide) (by decide) _
  · exact quiet_textElement (by decide) (by decide) _
  · exact quiet_textElement (by decide) (by decide) _
  · exact quiet_textElement (by decide) (by decide) _
  · exact quiet_textElementIf (by decide) (by decide) _ line hline
  · exact quiet_textElementIf (by decide) (by decide) _ line hline
  · exact quiet_textElementIf (by decide) (by decide) _ line hline
  · exact quiet_textElementIf (by decide) (by decide) _ line hline
  · exact quiet_textElementIf (by decide) (by decide) _ line hline
  · refine hif _ _ (fun l hl => ?_) line hline
    obtain rfl := List.mem_singleton.mp hl
    exact quiet_element (by decide) (by decide) (plain_showInt _)
  · exact quiet_element (by decide) (by decide) (plain_showNat _)
  · exact quiet_flagElement (by decide) (by decide) _
  · exact quiet_textElementIf (by decide) (by decide) _ line hline
  · exact quiet_flagElement (by decide) (by decide) _
  · exact quiet_flagElement (by decide) (by decide) _
  · obtain ⟨b, -, hline⟩ := List.mem_flatMap.mp hline
    exact quiet_varbindLines b line hline

end Sysmon.Trap
