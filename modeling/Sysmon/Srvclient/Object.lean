import Mathlib.Data.List.Infix
import Mathlib.Data.UInt
import Sysmon.Parser.Rules
import Sysmon.Srvclient.Xml

/-!
# An object as XML

What `send_object_xml` writes about an object: the settings and the status of its `struct hostinfo`,
and, while a check of it is in the queue, how far that has come. A client that has not authenticated
gets no credentials. Each line is an item, a tag with what stands in it.
-/

namespace Sysmon.Srvclient

open CText
open Sysmon.Parser (CheckType.snmp CheckType.dns CheckType.pktloss)

/-! ### What is printed -/

/-- `%.2f` of the double with these bits: rounded to hundredths, a tie to the even one. -/
def showFixed2 (bits : UInt64) : List Char :=
  let sign : List Char := if bits.toNat / 2 ^ 63 = 1 then ['-'] else []
  let exponent := bits.toNat / 2 ^ 52 % 2 ^ 11
  let fraction := bits.toNat % 2 ^ 52
  if exponent = 2047 then sign ++ if fraction = 0 then "inf".toList else "nan".toList
  else
    let mantissa := if exponent = 0 then fraction else fraction + 2 ^ 52
    let scale := 2 ^ (1075 - max exponent 1)
    let scaled := mantissa * 100 * 2 ^ (max exponent 1 - 1075)
    let hundredths := scaled / scale
    let rest := 2 * (scaled % scale)
    let rounded := if scale < rest ∨ (rest = scale ∧ hundredths % 2 = 1) then hundredths + 1 else hundredths
    sign ++ (showNat (rounded / 100) ++ '.' :: (showNat (rounded / 10 % 10) ++ showNat (rounded % 10)))

/-- `%06ld` of the microseconds of a time. -/
def showMicros (usec : Nat) : List Char := List.replicate (6 - (showNat usec).length) '0' ++ showNat usec

def showBool (flag : Bool) : List Char := if flag then ['1'] else ['0']

/-- `%d` of an `unsigned int`. -/
def showD (n : UInt32) : List Char := showInt n.toInt32.toInt

/-- `%ld` of an `unsigned long`. -/
def showLd (n : UInt64) : List Char := showInt n.toInt64.toInt

def typeNameTable : List (UInt32 × String) :=
  [(1, "tcp"), (2, "udp"), (3, "ping"), (4, "snmp"), (5, "nntp"), (6, "smtp"), (7, "imap"), (8, "pop3"),
    (9, "x500"), (10, "pop2"), (11, "bootp"), (12, "dns"), (13, "www"), (14, "radius"), (15, "https"),
    (16, "sysmon"), (17, "ssh"), (18, "ircd"), (20, "pingv6"), (22, "pktloss"), (19, "rtt")]

def typeToName (type : UInt32) : List Char :=
  match typeNameTable.find? fun row => row.1 = type with
  | some row => row.2.toList
  | none => "ERROR".toList

def snmpTypeNameTable : List (UInt32 × String) :=
  [(1, "reboot"), (2, "high"), (3, "low"), (4, "range"), (5, "exact"), (6, "compare"), (7, "rate")]

def snmpTypeToName (type : UInt32) : List Char :=
  match snmpTypeNameTable.find? fun row => row.1 = type with
  | some row => row.2.toList
  | none => "snmp_type_to_name(ERROR)".toList

/-! ### The check in the queue -/

/-- `struct pktloss_sample`. -/
structure PktlossSample where
  timestamp : Time
  sent : UInt32
  received : UInt32
  lost : UInt32
  deriving DecidableEq, Repr, Inhabited

def pktlossHistorySize : Nat := 1440

/-- `struct pktloss_data`, as far as it is reported. -/
structure PktlossData where
  history : List PktlossSample
  historyHead : UInt32
  historyCount : UInt32
  totalSent : UInt64
  totalReceived : UInt64
  totalLost : UInt64
  deriving DecidableEq, Repr

/-- What is reported of a `struct monitorent`. -/
structure CheckEntry where
  queueat : Time × Nat
  lastserv : Time × Nat
  filedes : Int32
  started : Int16
  retval : Int16
  wakeupCount : UInt32
  lastWakeupTime : Time
  monitordata : Option PktlossData
  deriving DecidableEq, Repr

/-! ### Items -/

inductive Item where
  | opens (tag : String)
  | closes (tag : String)
  /-- Text of any kind, which is escaped. -/
  | text (tag : String) (value : CStr)
  /-- A number as it is printed. -/
  | number (tag : String) (value : List Char)
  | sample (s : PktlossSample)
  deriving DecidableEq, Repr

/-- The buffer for escaped text. -/
def escSize : Nat := tempbufSize - 128

def sampleLine (sample : PktlossSample) : List Char :=
  "<Sample timestamp=\"".toList ++ showInt sample.timestamp.toInt ++ "\" sent=\"".toList ++ showNat sample.sent.toNat ++
    "\" received=\"".toList ++ showNat sample.received.toNat ++ "\" lost=\"".toList ++ showNat sample.lost.toNat ++
    "\"/>".toList

def Item.line : Item → List Char
  | .opens tag => snprintf tempbufSize (startTag tag.toList)
  | .closes tag => snprintf tempbufSize (endTag tag.toList)
  | .text tag value => element tempbufSize tag.toList (xmlEscape escSize value)
  | .number tag value => element tempbufSize tag.toList value
  | .sample s => snprintf tempbufSize (sampleLine s)

def textIf (tag : String) (value : Option CStr) : List Item := (value.map (Item.text tag)).toList

def numberIf (condition : Bool) (tag : String) (value : List Char) : List Item :=
  if condition then [.number tag value] else []

/-- What only a privileged client gets. -/
def secretIf (privileged : Bool) (tag : String) (value : Option CStr) : List Item :=
  if privileged then textIf tag value else []

def timeOfDay (time : Time × Nat) : List Char := showInt time.1.toInt ++ '.' :: showMicros time.2

/-- The samples that are sent, oldest first. -/
def pktlossSamples (pld : PktlossData) : List PktlossSample :=
  let samplesToOutput := min pld.historyCount.toNat pktlossHistorySize
  (List.range samplesToOutput).map fun i =>
    pld.history.getD ((pld.historyHead.toNat + pktlossHistorySize - samplesToOutput + i) % pktlossHistorySize) default

def pktlossItems (pld : PktlossData) : List Item :=
  [Item.number "PacketLossTotalSent" (showNat pld.totalSent.toNat),
    Item.number "PacketLossTotalReceived" (showNat pld.totalReceived.toNat),
    Item.number "PacketLossTotalLost" (showNat pld.totalLost.toNat),
    Item.number "PacketLossHistorySamples" (showNat pld.historyCount.toNat)] ++
    if 0 < pld.historyCount then
      [Item.opens "PacketLossHistory"] ++ (pktlossSamples pld).map Item.sample ++ [Item.closes "PacketLossHistory"]
    else []

def checkItems (type : UInt32) (q : CheckEntry) : List Item :=
  [Item.number "CheckQueuedAt" (timeOfDay q.queueat), Item.number "CheckLastServiced" (timeOfDay q.lastserv),
    Item.number "CheckFileDescriptor" (showInt q.filedes.toInt), Item.number "CheckStarted" (showInt q.started.toInt)] ++
    numberIf (q.retval ≠ -1) "CheckReturnValue" (showInt q.retval.toInt) ++
    numberIf (0 < q.wakeupCount) "CheckWakeupCount" (showNat q.wakeupCount.toNat) ++
    numberIf (0 < q.wakeupCount) "CheckLastWakeupTime" (showInt q.lastWakeupTime.toInt) ++
    if type = CheckType.pktloss.toUInt32 then (q.monitordata.map pktlossItems).getD [] else []

/-- Name, address and texts. -/
def headItems (d : HostInfo) (uniqueName : CStr) : List Item :=
  [Item.opens "ObjectStatus", Item.number "ObjectChangeSeq" (showNat d.changeSeq.toNat), Item.text "Object" uniqueName,
    Item.text "HostName" (d.hostname.getD []), Item.number "ObjectPort" (showD d.port),
    Item.text "ObjectType" (typeToName d.type), Item.text "ObjectMessage" (d.message.getD [])] ++
    textIf "ObjectContact" d.contact ++ textIf "ObjectGroup" d.group ++ textIf "ObjectNotes" d.notes

def snmpItems (privileged : Bool) (d : HostInfo) : List Item :=
  secretIf privileged "ObjectSNMPCommunity" d.snmpCommunity ++
    [Item.text "ObjectSNMPVersion" (if d.snmpVersion = Sysmon.Parser.snmpVersion1 then "1".toList else "2c".toList)] ++
    textIf "ObjectSNMPoid" d.snmpOid ++
    [Item.text "ObjectSNMPType" (snmpTypeToName d.snmpTestType), Item.number "ObjectSNMPLowThresh" (showLd d.snmpLow),
      Item.number "ObjectSNMPHighThresh" (showLd d.snmpHigh), Item.number "ObjectSNMPExactThresh" (showLd d.snmpExact),
      Item.number "ObjectSNMPObjectSysUpTime" (showLd d.systemUptime),
      Item.number "ObjectSNMPOctets" (showBool d.snmpOctets),
      Item.number "ObjectSNMPRate" (showLd d.snmpRate),
      Item.number "ObjectSNMPLastResponseTime" (showInt d.lastSnmpResptime.toInt)]

/-- The state, and what a check is run with. -/
def authItems (privileged : Bool) (d : HostInfo) : List Item :=
  [.number "ObjectLastcheckState" (showD d.lastcheck)] ++
    secretIf privileged "ObjectAuthUsername" d.username ++ secretIf privileged "ObjectAuthPassword" d.password ++
    secretIf privileged "ObjectHeader" d.hdr ++ secretIf privileged "ObjectHeaderValue" d.hdrval ++
    secretIf privileged "ObjectRadiusSecret" d.secret ++ textIf "ObjectMessageID" d.lastmsgid ++
    textIf "ObjectUniqueID" d.uniqueId ++ secretIf privileged "ObjectURL" d.url ++
    secretIf privileged "ObjectURLText" d.urlText ++ secretIf privileged "ObjectExecCmd" d.command

def counterItems (d : HostInfo) : List Item :=
  [.number "ObjectTotalChecked" (showLd d.totalchecked), .number "ObjectTotalDown" (showLd d.totaldown),
    .number "ObjectDownCt" (showLd d.downct), .number "ObjectUpCt" (showLd d.upct),
    .number "ObjectMaxDown" (showLd d.maxDown), .number "ObjectQueueInterval" (showLd d.queuetime),
    .number "ObjectSendPings" (showD d.sendPings), .number "ObjectMinPings" (showD d.minPings),
    .number "ObjectReversed" (showBool d.reverse), .number "ObjectContacted" (showBool d.contacted),
    .number "ObjectContactedAt" (showInt d.lastcontacted.toInt),
    .number "ObjectContactOnUp" (showInt d.contactWhen.toInt), .number "ObjectQueued" (showBool d.queued),
    .number "ObjectLastChecked" (showInt d.lchecktime.toInt), .number "ObjectCheckStarted" (showInt d.checkStart.toInt),
    .number "ObjectOutageTime" (showInt d.deathtime.toInt), .number "ObjectLastTimeUp" (showInt d.lastUp.toInt)]

def thresholdItems (d : HostInfo) : List Item :=
  numberIf (0 < d.pktlossTolerance) "ObjectPacketLossThreshold" (showNat d.pktlossTolerance.toNat) ++
    numberIf (0 < d.rttThreshold) "ObjectRTTThreshold" (showNat d.rttThreshold.toNat) ++
    numberIf (0 < d.jitterThreshold) "ObjectJitterThreshold" (showNat d.jitterThreshold.toNat) ++
    numberIf (0 < d.maxWakeupRetries) "ObjectWakeupRetries" (showNat d.maxWakeupRetries.toNat) ++
    numberIf d.trapAlert "ObjectTrapAlert" ['1']

def dnsItems (d : HostInfo) : List Item :=
  match d.dnsQuery with
  | none => []
  | some query =>
      [.text "ObjectDNSQuery" query, .number "ObjectDNSRequireAA" (showBool d.dnsAa),
        .number "ObjectDNSRecursion" (showBool d.dnsRecursion)]

def measuredItems (d : HostInfo) : List Item :=
  textIf "ObjectPageMessage" d.pmesg ++
    numberIf (0 < d.pktlossHistoryHours) "ObjectPacketLossHistoryHours" (showNat d.pktlossHistoryHours.toNat) ++
    numberIf (0 < d.pktlossLastCheck) "ObjectPacketLossLastCheck" (showInt d.pktlossLastCheck.toInt) ++
    numberIf (0 < d.pktlossLastSent) "ObjectPacketLossLastSent" (showNat d.pktlossLastSent.toNat) ++
    numberIf (0 < d.pktlossLastSent) "ObjectPacketLossLastRecv" (showNat d.pktlossLastRecv.toNat) ++
    numberIf (0 < d.rttSamples) "ObjectRTTSamples" (showNat d.rttSamples.toNat) ++
    numberIf (0 < d.rttInterval) "ObjectRTTInterval" (showNat d.rttInterval.toNat) ++
    numberIf (0 < d.rttLastProbes) "ObjectRTTMin" (showFixed2 d.rttLastMin) ++
    numberIf (0 < d.rttLastProbes) "ObjectRTTAvg" (showFixed2 d.rttLastAvg) ++
    numberIf (0 < d.rttLastProbes) "ObjectRTTMax" (showFixed2 d.rttLastMax) ++
    numberIf (0 < d.rttLastProbes) "ObjectRTTJitter" (showFixed2 d.rttLastJitter) ++
    numberIf (0 < d.rttLastProbes) "ObjectRTTReplies" (showNat d.rttLastReplies.toNat) ++
    numberIf (0 < d.rttLastProbes) "ObjectRTTProbes" (showNat d.rttLastProbes.toNat) ++
    numberIf (0 < d.nextQueuetime) "ObjectNextQueueTime" (showInt d.nextQueuetime.toInt) ++
    [Item.number "ObjectTraceEnabled" (showBool d.trace), Item.number "ObjectAcked" (showBool d.acked)]

/-- What stands between the first and the last line of `send_object_xml`, with the entry of the queue that is
for this object. -/
def objectItems (privileged : Bool) (obj : Element) (qent : Option CheckEntry) : List Item :=
  let d := obj.data
  headItems d obj.uniqueName ++ (if d.type = CheckType.snmp.toUInt32 then snmpItems privileged d else []) ++
    authItems privileged d ++ counterItems d ++ thresholdItems d ++
    (if d.type = CheckType.snmp.toUInt32 then
      textIf "ObjectSNMPOidSecondary" d.snmpOidSec ++ textIf "ObjectSNMPUpMessage" d.snmpUpMsg ++
        textIf "ObjectSNMPDownMessage" d.snmpDownMsg
    else []) ++
    (if d.type = CheckType.dns.toUInt32 then dnsItems d else []) ++ measuredItems d ++
    (qent.map (checkItems d.type)).getD []

def sendObjectXml (privileged : Bool) (obj : Element) (qent : Option CheckEntry) : List (List Char) :=
  (objectItems privileged obj qent ++ [Item.closes "ObjectStatus"]).map Item.line

/-! ### Every line but the last leaves the element open -/

theorem plain_showFixed2 (bits : UInt64) : Plain (showFixed2 bits) := by
  have hsign : Plain (if bits.toNat / 2 ^ 63 = 1 then ['-'] else []) := by split <;> decide
  have hdot : Plain ['.'] := by decide
  rw [showFixed2]
  dsimp only
  split
  · refine hsign.append ?_
    split <;> decide
  · refine hsign.append ((plain_showNat _).append ?_)
    exact hdot.append ((plain_showNat _).append (plain_showNat _))

theorem plain_timeOfDay (time : Time × Nat) : Plain (timeOfDay time) := by
  have hdot : Plain ['.'] := by decide
  have hzeros : ∀ n, Plain (List.replicate n '0') := by
    intro n c hc
    rw [List.eq_of_mem_replicate hc]
    decide
  exact (plain_showInt _).append (hdot.append ((hzeros _).append (plain_showNat _)))

theorem plain_showBool (flag : Bool) : Plain (showBool flag) := by cases flag <;> decide

theorem plain_showD (n : UInt32) : Plain (showD n) := plain_showInt _

theorem plain_showLd (n : UInt64) : Plain (showLd n) := plain_showInt _

/-- The name of an element other than the one of an object. -/
def innerTag (tag : String) : Bool := decide (IsTag tag.toList ∧ "ObjectStatus".toList ≠ tag.toList)

/-- The item does not end the element of an object. -/
def Item.Inner : Item → Prop
  | .opens tag => IsTag tag.toList
  | .closes tag => innerTag tag = true
  | .text tag _ => innerTag tag = true
  | .number tag value => innerTag tag = true ∧ Plain value
  | .sample _ => True

def Inner (items : List Item) : Prop := ∀ item ∈ items, item.Inner

def objectStatus : List Char := ['O', 'b', 'j', 'e', 'c', 't', 'S', 't', 'a', 't', 'u', 's']

section inner

variable {tag : List Char} {items items' : List Item}

/-- The literals are taken apart here, once, and not by evaluation. -/
theorem innerTag_ofList (h : IsTag tag ∧ objectStatus ≠ tag) : innerTag (String.ofList tag) = true := by
  have hobject : "ObjectStatus".toList = objectStatus := String.toList_ofList
  rw [innerTag, String.toList_ofList, hobject]
  exact decide_eq_true h

theorem inner_opens (h : IsTag tag) : (Item.opens (String.ofList tag)).Inner := by
  rw [Item.Inner, String.toList_ofList]
  exact h

theorem inner_closes (h : IsTag tag ∧ objectStatus ≠ tag) : (Item.closes (String.ofList tag)).Inner :=
  innerTag_ofList h

theorem inner_text (h : IsTag tag ∧ objectStatus ≠ tag) (value : CStr) :
    (Item.text (String.ofList tag) value).Inner := innerTag_ofList h

theorem inner_number (h : IsTag tag ∧ objectStatus ≠ tag) {value : List Char} (hvalue : Plain value) :
    (Item.number (String.ofList tag) value).Inner := ⟨innerTag_ofList h, hvalue⟩

theorem inner_nil : Inner [] := fun _ h => absurd h List.not_mem_nil

theorem inner_cons {item : Item} : Inner (item :: items) ↔ item.Inner ∧ Inner items := List.forall_mem_cons

theorem inner_append : Inner (items ++ items') ↔ Inner items ∧ Inner items' := List.forall_mem_append

theorem inner_ite {c : Prop} [Decidable c] (h : Inner items) : Inner (if c then items else []) := by
  split
  · exact h
  · exact inner_nil

theorem inner_textIf (h : IsTag tag ∧ objectStatus ≠ tag) (value : Option CStr) :
    Inner (textIf (String.ofList tag) value) := by
  cases value with
  | none => exact inner_nil
  | some value => exact inner_cons.mpr ⟨inner_text h value, inner_nil⟩

theorem inner_secretIf (h : IsTag tag ∧ objectStatus ≠ tag) (privileged : Bool) (value : Option CStr) :
    Inner (secretIf privileged (String.ofList tag) value) := inner_ite (inner_textIf h value)

theorem inner_numberIf (h : IsTag tag ∧ objectStatus ≠ tag) (condition : Bool) {value : List Char}
    (hvalue : Plain value) : Inner (numberIf condition (String.ofList tag) value) :=
  inner_ite (inner_cons.mpr ⟨inner_number h hvalue, inner_nil⟩)

end inner

theorem inner_checkItems (type : UInt32) (q : CheckEntry) : Inner (checkItems type q) := by
  have hpktloss : ∀ pld, Inner (pktlossItems pld) := by
    intro pld
    simp only [pktlossItems, inner_append, inner_cons]
    refine ⟨⟨inner_number (by decide) (plain_showNat _), inner_number (by decide) (plain_showNat _),
      inner_number (by decide) (plain_showNat _), inner_number (by decide) (plain_showNat _), inner_nil⟩,
      inner_ite ?_⟩
    simp only [inner_append, inner_cons]
    refine ⟨⟨⟨inner_opens (by decide), inner_nil⟩, fun item hitem => ?_⟩, inner_closes (by decide), inner_nil⟩
    obtain ⟨s, -, rfl⟩ := List.mem_map.mp hitem
    exact trivial
  simp only [checkItems, inner_append, inner_cons]
  refine ⟨⟨⟨⟨⟨inner_number (by decide) (plain_timeOfDay _), inner_number (by decide) (plain_timeOfDay _),
    inner_number (by decide) (plain_showInt _), inner_number (by decide) (plain_showInt _), inner_nil⟩,
    inner_numberIf (by decide) _ (plain_showInt _)⟩, inner_numberIf (by decide) _ (plain_showNat _)⟩,
    inner_numberIf (by decide) _ (plain_showInt _)⟩, inner_ite ?_⟩
  cases q.monitordata with
  | none => exact inner_nil
  | some pld => exact hpktloss pld

theorem inner_headItems (d : HostInfo) (uniqueName : CStr) : Inner (headItems d uniqueName) := by
  simp only [headItems, inner_append, inner_cons]
  exact ⟨⟨⟨⟨inner_opens (by decide), inner_number (by decide) (plain_showNat _), inner_text (by decide) _,
    inner_text (by decide) _, inner_number (by decide) (plain_showD _), inner_text (by decide) _,
    inner_text (by decide) _, inner_nil⟩, inner_textIf (by decide) _⟩, inner_textIf (by decide) _⟩,
    inner_textIf (by decide) _⟩

theorem inner_snmpItems (privileged : Bool) (d : HostInfo) : Inner (snmpItems privileged d) := by
  simp only [snmpItems, inner_append, inner_cons]
  exact ⟨⟨⟨inner_secretIf (by decide) _ _, inner_text (by decide) _, inner_nil⟩, inner_textIf (by decide) _⟩,
    inner_text (by decide) _, inner_number (by decide) (plain_showLd _),
    inner_number (by decide) (plain_showLd _), inner_number (by decide) (plain_showLd _),
    inner_number (by decide) (plain_showLd _), inner_number (by decide) (plain_showBool _),
    inner_number (by decide) (plain_showLd _), inner_number (by decide) (plain_showInt _), inner_nil⟩

theorem inner_authItems (privileged : Bool) (d : HostInfo) : Inner (authItems privileged d) := by
  simp only [authItems, inner_append, inner_cons]
  exact ⟨⟨⟨⟨⟨⟨⟨⟨⟨⟨⟨inner_number (by decide) (plain_showD _), inner_nil⟩, inner_secretIf (by decide) _ _⟩,
    inner_secretIf (by decide) _ _⟩, inner_secretIf (by decide) _ _⟩, inner_secretIf (by decide) _ _⟩,
    inner_secretIf (by decide) _ _⟩, inner_textIf (by decide) _⟩, inner_textIf (by decide) _⟩,
    inner_secretIf (by decide) _ _⟩, inner_secretIf (by decide) _ _⟩, inner_secretIf (by decide) _ _⟩

theorem inner_counterItems (d : HostInfo) : Inner (counterItems d) := by
  simp only [counterItems, inner_cons]
  exact ⟨inner_number (by decide) (plain_showLd _), inner_number (by decide) (plain_showLd _),
    inner_number (by decide) (plain_showLd _), inner_number (by decide) (plain_showLd _),
    inner_number (by decide) (plain_showLd _), inner_number (by decide) (plain_showLd _),
    inner_number (by decide) (plain_showD _), inner_number (by decide) (plain_showD _),
    inner_number (by decide) (plain_showBool _), inner_number (by decide) (plain_showBool _),
    inner_number (by decide) (plain_showInt _), inner_number (by decide) (plain_showInt _),
    inner_number (by decide) (plain_showBool _), inner_number (by decide) (plain_showInt _),
    inner_number (by decide) (plain_showInt _), inner_number (by decide) (plain_showInt _),
    inner_number (by decide) (plain_showInt _), inner_nil⟩

theorem inner_thresholdItems (d : HostInfo) : Inner (thresholdItems d) := by
  simp only [thresholdItems, inner_append]
  exact ⟨⟨⟨⟨inner_numberIf (by decide) _ (plain_showNat _), inner_numberIf (by decide) _ (plain_showNat _)⟩,
    inner_numberIf (by decide) _ (plain_showNat _)⟩, inner_numberIf (by decide) _ (plain_showNat _)⟩,
    inner_numberIf (by decide) _ (by decide)⟩

theorem inner_dnsItems (d : HostInfo) : Inner (dnsItems d) := by
  rw [dnsItems]
  split
  · exact inner_nil
  · simp only [inner_cons]
    exact ⟨inner_text (by decide) _, inner_number (by decide) (plain_showBool _),
      inner_number (by decide) (plain_showBool _), inner_nil⟩

theorem inner_measuredItems (d : HostInfo) : Inner (measuredItems d) := by
  have hnat : ∀ (c : Bool) (tag : List Char) (n : Nat), IsTag tag ∧ objectStatus ≠ tag →
      Inner (numberIf c (String.ofList tag) (showNat n)) :=
    fun c _ n h => inner_numberIf h c (plain_showNat n)
  have hint : ∀ (c : Bool) (tag : List Char) (i : Int), IsTag tag ∧ objectStatus ≠ tag →
      Inner (numberIf c (String.ofList tag) (showInt i)) :=
    fun c _ i h => inner_numberIf h c (plain_showInt i)
  have hfixed : ∀ (c : Bool) (tag : List Char) (bits : UInt64), IsTag tag ∧ objectStatus ≠ tag →
      Inner (numberIf c (String.ofList tag) (showFixed2 bits)) :=
    fun c _ bits h => inner_numberIf h c (plain_showFixed2 bits)
  simp only [measuredItems, inner_append, inner_cons]
  exact ⟨⟨⟨⟨⟨⟨⟨⟨⟨⟨⟨⟨⟨⟨inner_textIf (by decide) _, hnat _ _ _ (by decide)⟩, hint _ _ _ (by decide)⟩,
    hnat _ _ _ (by decide)⟩, hnat _ _ _ (by decide)⟩, hnat _ _ _ (by decide)⟩, hnat _ _ _ (by decide)⟩,
    hfixed _ _ _ (by decide)⟩, hfixed _ _ _ (by decide)⟩, hfixed _ _ _ (by decide)⟩, hfixed _ _ _ (by decide)⟩,
    hnat _ _ _ (by decide)⟩, hnat _ _ _ (by decide)⟩, hint _ _ _ (by decide)⟩,
    inner_number (by decide) (plain_showBool _), inner_number (by decide) (plain_showBool _), inner_nil⟩

theorem inner_objectItems (privileged : Bool) (obj : Element) (qent : Option CheckEntry) :
    Inner (objectItems privileged obj qent) := by
  simp only [objectItems, inner_append]
  refine ⟨⟨⟨⟨⟨⟨⟨⟨inner_headItems _ _, inner_ite (inner_snmpItems _ _)⟩, inner_authItems _ _⟩,
    inner_counterItems _⟩, inner_thresholdItems _⟩, inner_ite ?_⟩, inner_ite (inner_dnsItems _)⟩,
    inner_measuredItems _⟩, ?_⟩
  · simp only [inner_append]
    exact ⟨⟨inner_textIf (by decide) _, inner_textIf (by decide) _⟩, inner_textIf (by decide) _⟩
  · cases qent with
    | none => exact inner_nil
    | some q => exact inner_checkItems _ q

/-- A line that does not end the element of an object. -/
structure Open (line : List Char) : Prop extends IsLine line where
  noEnd : ¬endTag "ObjectStatus".toList <:+: line

theorem plain_sampleLine (sample : PktlossSample) : ∃ rest, sampleLine sample = '<' :: rest ∧ Plain rest := by
  refine ⟨_, rfl, ?_⟩
  have hfirst : Plain "Sample timestamp=\"".toList := by decide
  have hsent : Plain "\" sent=\"".toList := by decide
  have hreceived : Plain "\" received=\"".toList := by decide
  have hlost : Plain "\" lost=\"".toList := by decide
  have hend : Plain "\"/>".toList := by decide
  exact (((((((hfirst.append (plain_showInt _)).append hsent).append (plain_showNat _)).append hreceived).append
    (plain_showNat _)).append hlost).append (plain_showNat _)).append hend

theorem open_line {item : Item} (h : item.Inner) : Open item.line := by
  have hobject : IsTag "ObjectStatus".toList := by decide
  have hcut : ∀ line : List Char, IsLine line → ¬endTag "ObjectStatus".toList <:+: line →
      Open (snprintf tempbufSize line) := by
    intro line hline hno
    have hfront : snprintf tempbufSize line <+: line := List.take_prefix _ _
    exact ⟨hline.snprintf (by decide), fun hin => hno (hin.trans hfront.isInfix)⟩
  have htag : ∀ {tag : List Char}, IsTag tag → '\n' ∉ tag := fun ht hmem => absurd rfl (ht.2 _ hmem).2.1
  cases item with
  | opens tag =>
      refine hcut _ ⟨?_, _, rfl⟩ fun hin => ?_
      · have := htag h
        simp [startTag, this]
      · have hplain : ∀ c ∈ tag.toList ++ ['>'], c ≠ '<' := by
          intro c hc
          obtain hc | hc := List.mem_append.mp hc
          · exact (h.2 c hc).1
          · obtain rfl := List.mem_singleton.mp hc
            decide
        obtain hfront | hin := List.infix_cons_iff.mp hin
        · obtain ⟨c, t, hcons⟩ := List.exists_cons_of_ne_nil h.1
          have hhead := (List.cons_prefix_cons.mp hfront).2
          rw [hcons] at hhead
          exact (h.2 c (hcons ▸ List.mem_cons_self)).2.2.2 (List.cons_prefix_cons.mp hhead).1.symm
        · have hin : endTag "ObjectStatus".toList <:+: (tag.toList ++ ['>']) ++ [] := by simpa using hin
          exact absurd (infix_of_plain hplain hin).length_le (by simp)
  | closes tag =>
      obtain ⟨htagOk, hne⟩ := of_decide_eq_true h
      refine hcut _ ⟨?_, _, rfl⟩ fun hin => ?_
      · have := htag htagOk
        simp [endTag, this]
      · have hplain : ∀ c ∈ '/' :: (tag.toList ++ ['>']), c ≠ '<' := by
          intro c hc
          obtain rfl | hc := List.mem_cons.mp hc
          · decide
          · obtain hc | hc := List.mem_append.mp hc
            · exact (htagOk.2 c hc).1
            · obtain rfl := List.mem_singleton.mp hc
              decide
        obtain hfront | hin := List.infix_cons_iff.mp hin
        · have hhead := (List.cons_prefix_cons.mp (List.cons_prefix_cons.mp hfront).2).2
          exact hne (eq_of_starts htagOk hobject hhead)
        · have hin : endTag "ObjectStatus".toList <:+: '/' :: (tag.toList ++ ['>']) ++ [] := by simpa using hin
          exact absurd (infix_of_plain hplain hin).length_le (by simp)
  | text tag value =>
      obtain ⟨htagOk, hne⟩ := of_decide_eq_true h
      have hplain := (xmlEscape_plain (show 0 < escSize by decide) value).1
      exact ⟨isLine_element htagOk hplain (by decide), (not_infix_element htagOk hobject hne hplain _).2⟩
  | number tag value =>
      obtain ⟨htagOk, hne⟩ := of_decide_eq_true h.1
      exact ⟨isLine_element htagOk h.2 (by decide), (not_infix_element htagOk hobject hne h.2 _).2⟩
  | sample s =>
      obtain ⟨rest, hrest, hplain⟩ := plain_sampleLine s
      refine hcut _ ⟨fun hmem => ?_, rest, hrest⟩ fun hin => ?_
      · rw [hrest] at hmem
        obtain hmem | hmem := List.mem_cons.mp hmem
        · exact absurd hmem (by decide)
        · exact (hplain _ hmem).2 rfl
      · rw [hrest] at hin
        obtain hfront | hin := List.infix_cons_iff.mp hin
        · have hsample : rest.take 1 = ['S'] := by
            obtain rfl := (List.cons.inj hrest).2
            rfl
          obtain ⟨more, rfl⟩ := (List.cons_prefix_cons.mp hfront).2
          exact absurd (List.cons.inj hsample).1 (by decide)
        · rw [← List.append_nil rest] at hin
          exact absurd (infix_of_plain (fun c hc => (hplain c hc).1) hin).length_le (by simp)

/-- The lines of an object are open but for the last, which ends it. -/
theorem sendObjectXml_lines (privileged : Bool) (obj : Element) (qent : Option CheckEntry) :
    ∃ lines, sendObjectXml privileged obj qent = lines ++ [endTag "ObjectStatus".toList] ∧ ∀ line ∈ lines, Open line := by
  refine ⟨(objectItems privileged obj qent).map Item.line, List.map_append, fun line hline => ?_⟩
  obtain ⟨item, hitem, rfl⟩ := List.mem_map.mp hline
  exact open_line (inner_objectItems privileged obj qent item hitem)

/-! ### All objects -/

/-- What has changed since. -/
def changedSince (objects : List Element) (since : UInt64) : List Element :=
  objects.filter fun obj => since < obj.data.changeSeq

/-- The document of `send_conf`, with the entries of the queue by the names of their objects. -/
def confBody (objects : List Element) (queue : CStr → Option CheckEntry) (since : UInt64) : List (List Char) :=
  (changedSince objects since).flatMap fun obj => sendObjectXml true obj (queue obj.uniqueName)

def confStatus (objects : List Element) (globChangeSeq since : UInt64) : List Char :=
  let sent := UInt64.ofNat (changedSince objects since).length
  let total := UInt64.ofNat objects.length
  "333 ".toList ++ showNat globChangeSeq.toNat ++ ' ' :: showNat sent.toNat ++ ' ' :: showNat total.toNat

def sendConf (authlvl : Int32) (objects : List Element) (globChangeSeq : UInt64) (queue : CStr → Option CheckEntry)
    (since : UInt64) : List (List Char) :=
  if authlvl ≤ 0 then ["444 Permission Denied".toList]
  else confBody objects queue since ++ [snprintf tempbufSize (confStatus objects globChangeSeq since)]

theorem isLine_confBody (objects : List Element) (queue : CStr → Option CheckEntry) (since : UInt64) :
    ∀ line ∈ confBody objects queue since, IsLine line := by
  intro line hline
  obtain ⟨obj, -, hline⟩ := List.mem_flatMap.mp hline
  obtain ⟨lines, heq, hopen⟩ := sendObjectXml_lines true obj (queue obj.uniqueName)
  rw [heq] at hline
  obtain hline | hline := List.mem_append.mp hline
  · exact (hopen line hline).toIsLine
  · obtain rfl := List.mem_singleton.mp hline
    exact ⟨by decide, ⟨_, rfl⟩⟩

end Sysmon.Srvclient
