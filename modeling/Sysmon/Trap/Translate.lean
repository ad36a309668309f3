import Mathlib.Algebra.Order.Ring.Int
import Mathlib.Data.List.Basic
import Mathlib.Data.UInt
import Sysmon.Snmp.Get
import Sysmon.Trap.OidText

/-!
# Version 1 and version 2c

A trap of version 1 and its translation: the same varbinds, with the time and the identity of the
trap in front as two varbinds more. The identity is the OID of one of the six standard traps, or the
enterprise with a zero and the specific number after it. Both packets are read to the end; what
`decode_snmp_trap` makes of them is compared in the OID, the severity, the category and the interface.
-/

namespace Sysmon.Trap

open Snmp CText Ber

/-! ### Packets -/

/-- A trap of version 1. The enterprise is an encoding with at least one byte, the last
sub-identifier of which is complete; `varbinds` is whatever stands in the list of varbinds. -/
structure V1Trap where
  community : List UInt8
  first : UInt8
  rest : List UInt8
  ended : ∀ b ∈ rest.getLast?, b.toNat < 128
  agent : List UInt8
  generic : Nat
  generic_le : generic ≤ 6
  specific : Nat
  specific_lt : specific < 2 ^ 31
  stamp : List UInt8
  varbinds : List UInt8

def V1Trap.pdu (t : V1Trap) : List UInt8 :=
  tlv 0x06 (t.first :: t.rest) ++ (tlv 0x40 t.agent ++ (tlv 0x02 (intBytes (Int64.ofNat t.generic)) ++
    (tlv 0x02 (intBytes (Int64.ofNat t.specific)) ++ (tlv 0x43 t.stamp ++ tlv 0x30 t.varbinds))))

def V1Trap.packet (t : V1Trap) : List UInt8 :=
  tlv 0x30 (tlv 0x02 (intBytes 0) ++ (tlv 0x04 t.community ++ tlv 0xa4 t.pdu))

/-- The value of `snmpTrapOID.0` in the translation. -/
def V1Trap.oid (t : V1Trap) : List UInt8 :=
  if t.generic = 6 then t.first :: (t.rest ++ 0 :: subBytes (UInt64.ofNat t.specific))
  else [43, 6, 1, 6, 3, 1, 1, 5, UInt8.ofNat (t.generic + 1)]

def varbind (oid : List UInt8) (tag : UInt8) (value : List UInt8) : List UInt8 :=
  tlv 0x30 (tlv 0x06 oid ++ tlv tag value)

def sysUpTimeOid : List UInt8 := [43, 6, 1, 2, 1, 1, 3, 0]
def snmpTrapOidOid : List UInt8 := [43, 6, 1, 6, 3, 1, 1, 4, 1, 0]

def V1Trap.list (t : V1Trap) : List UInt8 :=
  varbind sysUpTimeOid 0x43 t.stamp ++ (varbind snmpTrapOidOid 0x06 t.oid ++ t.varbinds)

def V1Trap.translatedPdu (t : V1Trap) (reqid : Int64) : List UInt8 :=
  tlv 0x02 (intBytes reqid) ++ (tlv 0x02 (intBytes 0) ++ (tlv 0x02 (intBytes 0) ++ tlv 0x30 t.list))

/-- The same trap in version 2c. -/
def V1Trap.translated (t : V1Trap) (reqid : Int64) : List UInt8 :=
  tlv 0x30 (tlv 0x02 (intBytes 1) ++ (tlv 0x04 t.community ++ tlv 0xa7 (t.translatedPdu reqid)))

/-- Both are datagrams. -/
structure V1Trap.Sized (t : V1Trap) (reqid : Int64) : Prop where
  v1 : t.packet.length < 0x10000
  v2 : (t.translated reqid).length < 0x10000

/-! ### What the varbinds say -/

def readVarbinds : Nat → List UInt8 → List TrapVarbind
  | 0, _ => []
  | n + 1, list =>
      match nextVarbind list with
      | none => []
      | some (b, rest) => noteStatus b :: readVarbinds n rest

theorem varbindLoop_eq_foldl (n : Nat) (list : List UInt8) (out : TrapContent) :
    varbindLoop n list out = (readVarbinds n list).foldl noteVarbind out := by
  induction n generalizing list out with
  | zero => rfl
  | succ n ih =>
      rw [varbindLoop, readVarbinds]
      cases nextVarbind list with
      | none => rfl
      | some next => exact ih next.2 _

theorem readVarbinds_take {n m : Nat} (h : n ≤ m) (list : List UInt8) :
    readVarbinds n list = (readVarbinds m list).take n := by
  induction n generalizing m list with
  | zero => rfl
  | succ n ih =>
      obtain ⟨m, rfl⟩ : ∃ k, m = k + 1 := ⟨m - 1, by omega⟩
      rw [readVarbinds, readVarbinds]
      cases nextVarbind list with
      | none => rfl
      | some next =>
          dsimp only
          rw [ih (Nat.le_of_succ_le_succ h) next.2, List.take_succ_cons]

/-- The OID that a varbind gives the trap. -/
def givenTrapOid (b : TrapVarbind) : Option (List Char) :=
  if b.name = "snmpTrapOID".toList ∧ b.value ≠ [] then some (snprintf trapOidLen b.value) else none

/-- The last that is given counts. -/
def lastTrapOid (vbs : List TrapVarbind) : Option (List Char) := (vbs.filterMap givenTrapOid).getLast?

/-- What the varbinds have said about the interface. -/
structure Port where
  iface : List Char
  ifindex : Int32
  deriving DecidableEq, Repr

def notePort (p : Port) (b : TrapVarbind) : Port :=
  if b.name = "ifIndex".toList then { p with ifindex := (strtoll b.value).toInt32 }
  else if b.name = "ifName".toList ∨ b.name = "ifDescr".toList ∨ b.name = "ifAlias".toList then
    if p.iface = [] ∨ b.name = "ifName".toList then { p with iface := snprintf 64 b.value } else p
  else p

def portOf (vbs : List TrapVarbind) : Port := vbs.foldl notePort ⟨[], -1⟩

/-- The interface name the trap ends up with. -/
def Port.name (p : Port) : List Char :=
  if p.iface = [] ∧ 0 ≤ p.ifindex then snprintf 64 ("ifIndex ".toList ++ showInt p.ifindex.toInt)
  else p.iface

/-! ### One varbind after the other -/

def TrapContent.port (out : TrapContent) : Port := ⟨out.iface, out.ifindex⟩

theorem noteVarbind_port (out : TrapContent) (b : TrapVarbind) :
    (noteVarbind out b).port = notePort out.port b := by
  rw [noteVarbind]
  dsimp only
  split
  · rename_i h
    simp [notePort, TrapContent.port, h.1]
  split
  · rename_i h
    simp [notePort, TrapContent.port, h]
  split
  · rename_i h
    simp [notePort, TrapContent.port, h.1]
  split
  · rename_i h
    simp only [notePort, TrapContent.port, if_pos h]
  · rename_i h
    rw [notePort, if_neg h]
    split
    · split <;> rename_i hset
      · exact (if_pos hset).symm
      · exact (if_neg hset).symm
    · rfl

theorem noteVarbind_trapOid (out : TrapContent) (b : TrapVarbind) :
    (noteVarbind out b).trapOid = (givenTrapOid b).getD out.trapOid := by
  rw [noteVarbind, givenTrapOid]
  dsimp only
  split
  · rfl
  · split
    · rfl
    · split
      · rfl
      · split
        · rfl
        · split
          · split <;> rfl
          · rfl

/-- The fields that no varbind touches. -/
theorem noteVarbind_head (out : TrapContent) (b : TrapVarbind) :
    (noteVarbind out b).version = out.version ∧ (noteVarbind out b).generic = out.generic := by
  rw [noteVarbind]
  dsimp only
  split
  · exact ⟨rfl, rfl⟩
  · split
    · exact ⟨rfl, rfl⟩
    · split
      · exact ⟨rfl, rfl⟩
      · split
        · exact ⟨rfl, rfl⟩
        · split
          · split <;> exact ⟨rfl, rfl⟩
          · exact ⟨rfl, rfl⟩

theorem foldl_noteVarbind_port (vbs : List TrapVarbind) (out : TrapContent) :
    (vbs.foldl noteVarbind out).port = vbs.foldl notePort out.port := by
  induction vbs generalizing out with
  | nil => rfl
  | cons b vbs ih => rw [List.foldl_cons, ih, noteVarbind_port, List.foldl_cons]

theorem lastTrapOid_cons (b : TrapVarbind) (vbs : List TrapVarbind) :
    lastTrapOid (b :: vbs) = (lastTrapOid vbs).or (givenTrapOid b) := by
  rw [lastTrapOid, lastTrapOid, List.filterMap_cons]
  cases givenTrapOid b with
  | none => simp
  | some oid =>
      dsimp only
      rw [List.getLast?_cons]
      cases (vbs.filterMap givenTrapOid).getLast? <;> rfl

theorem foldl_noteVarbind_trapOid (vbs : List TrapVarbind) (out : TrapContent) :
    (vbs.foldl noteVarbind out).trapOid = (lastTrapOid vbs).getD out.trapOid := by
  induction vbs generalizing out with
  | nil => rfl
  | cons b vbs ih =>
      rw [List.foldl_cons, ih, noteVarbind_trapOid, lastTrapOid_cons]
      cases lastTrapOid vbs <;> rfl

theorem foldl_noteVarbind_head (vbs : List TrapVarbind) (out : TrapContent) :
    (vbs.foldl noteVarbind out).version = out.version ∧
      (vbs.foldl noteVarbind out).generic = out.generic := by
  induction vbs generalizing out with
  | nil => exact ⟨rfl, rfl⟩
  | cons b vbs ih =>
      rw [List.foldl_cons, (ih _).1, (ih _).2]
      exact noteVarbind_head out b

/-! ### What a trap means -/

/-- Severity and category of the row that was hit. -/
def meaning : Option StandardTrap → List Char × List Char
  | some row => (row.severity.toList, row.category.toList)
  | none => ("warning".toList, "vendor".toList)

/-- The part of the decoded trap that is compared. -/
def TrapContent.reading (c : TrapContent) : List Char × (List Char × List Char) × List Char :=
  (c.trapOid, (c.severity, c.category), c.iface)

theorem classifyLink_reading (out : TrapContent) : (classifyLink out).reading = out.reading := by
  rw [classifyLink]
  split <;> rfl

theorem classifyIface_reading (out : TrapContent) :
    (classifyIface out).reading = (out.trapOid, (out.severity, out.category), out.port.name) := by
  rw [classifyIface]
  split <;> rename_i h
  · have hname : out.port.name = snprintf 64 ("ifIndex ".toList ++ showInt out.ifindex.toInt) :=
      if_pos h
    rw [hname]
    rfl
  · have hname : out.port.name = out.iface := if_neg h
    rw [hname]
    rfl

theorem classifyRow_meaning (out : TrapContent) :
    ((classifyRow out).severity, (classifyRow out).category) =
      meaning (standardRow out.version out.generic out.trapOid) ∧
    (classifyRow out).trapOid = out.trapOid ∧ (classifyRow out).port = out.port := by
  rw [classifyRow]
  cases standardRow out.version out.generic out.trapOid with
  | none => exact ⟨rfl, rfl, rfl⟩
  | some row => exact ⟨rfl, rfl, rfl⟩

theorem classifyTrap_reading (out : TrapContent) :
    (classifyTrap out).reading =
      (out.trapOid, meaning (standardRow out.version out.generic out.trapOid), out.port.name) := by
  obtain ⟨hmeaning, hoid, hport⟩ := classifyRow_meaning out
  rw [classifyTrap, classifyLink_reading, classifyIface_reading, ← hmeaning, ← hoid, ← hport]
  rfl

/-- Everything that is compared, of a trap whose fields before the varbinds are read. -/
theorem decodeRest_reading (out : TrapContent) {list : List UInt8} (hlist : list.length < 0x10000)
    (rest : List UInt8) :
    (decodeRest (tlv 0x30 list ++ rest) out).reading =
      (let vbs := readVarbinds (trapMaxVarbind - out.vb.length) list
      let oid := (lastTrapOid vbs).getD out.trapOid
      (oid, meaning (standardRow out.version out.generic oid), (vbs.foldl notePort out.port).name)) := by
  have hexpect : berExpect 0x30 (tlv 0x30 list ++ rest) = some (list, rest) := by
    rw [berExpect, snmpBerNext_tlv (by decide) hlist]
    rfl
  have hclassify : ∀ c : TrapContent,
      ({ classifyTrap c with decoded := true, alertable := true } : TrapContent).reading =
        (classifyTrap c).reading := fun c => rfl
  rw [decodeRest, hclassify, classifyTrap_reading, decodeVarbinds, hexpect]
  dsimp only
  rw [varbindLoop_eq_foldl, foldl_noteVarbind_trapOid, foldl_noteVarbind_port,
    (foldl_noteVarbind_head _ _).1, (foldl_noteVarbind_head _ _).2]

/-! ### Both packets read -/

theorem berExpect_tlv {tag : UInt8} {content : List UInt8} (htag : tag &&& 0x1f ≠ 0x1f)
    (hlen : content.length < 0x10000) (rest : List UInt8) :
    berExpect tag (tlv tag content ++ rest) = some (content, rest) := by
  rw [berExpect, snmpBerNext_tlv htag hlen]
  exact if_pos rfl

theorem berExpect_tlv_last {tag : UInt8} {content : List UInt8} (htag : tag &&& 0x1f ≠ 0x1f)
    (hlen : content.length < 0x10000) : berExpect tag (tlv tag content) = some (content, []) := by
  rw [← List.append_nil (tlv tag content)]
  exact berExpect_tlv htag hlen []

theorem length_intBytes_lt (v : Int64) : (intBytes v).length < 0x10000 := by
  have := intBytes_length v
  omega

theorem toInt32_berInt {n : Nat} :
    (snmpBerInt (intBytes (Int64.ofNat n))).toInt32 = Int32.ofNat n := by
  rw [snmpBerInt_intBytes]
  exact Int64.toInt32_ofNat

/-- The text the trap's OID has before any varbind gives another. -/
def V1Trap.ownText (t : V1Trap) : List Char :=
  v1TrapOid (snmpBerOidStr trapOidLen (t.first :: t.rest)) (Int32.ofNat t.generic)
    (Int32.ofNat t.specific)

theorem V1Trap.decodeV1_pdu {t : V1Trap} (h : t.pdu.length < 0x10000) (out : TrapContent) :
    ∃ out', decodeV1 t.pdu out = .ok (tlv 0x30 t.varbinds, out') ∧ out'.version = out.version ∧
      out'.generic = Int32.ofNat t.generic ∧ out'.trapOid = t.ownText ∧ out'.port = out.port ∧
      out'.vb = out.vb := by
  have henterprise := length_lt_tlv 0x06 (t.first :: t.rest)
  have hagent := length_lt_tlv 0x40 t.agent
  have hstamp := length_lt_tlv 0x43 t.stamp
  simp only [V1Trap.pdu, List.length_append] at h
  have hfirst : ∀ rest, berExpect 0x06 (tlv 0x06 (t.first :: t.rest) ++ rest) =
      some (t.first :: t.rest, rest) := berExpect_tlv (by decide) (by omega)
  have hsecond : ∀ rest, snmpBerNext (tlv 0x40 t.agent ++ rest) = some (0x40, t.agent, rest) :=
    snmpBerNext_tlv (by decide) (by omega)
  have hnumber : ∀ (v : Int64) rest, berExpect 0x02 (tlv 0x02 (intBytes v) ++ rest) =
      some (intBytes v, rest) := fun v => berExpect_tlv (by decide) (length_intBytes_lt v)
  have hstamp : ∀ rest, snmpBerNext (tlv 0x43 t.stamp ++ rest) = some (0x43, t.stamp, rest) :=
    snmpBerNext_tlv (by decide) (by omega)
  rw [decodeV1, V1Trap.pdu, hfirst]
  dsimp only
  rw [hsecond]
  dsimp only
  rw [hnumber]
  dsimp only
  rw [hnumber]
  dsimp only
  rw [hstamp]
  dsimp only
  rw [toInt32_berInt, toInt32_berInt]
  exact ⟨_, rfl, rfl, rfl, rfl, rfl, rfl⟩

theorem V1Trap.decode_packet {t : V1Trap} (h : t.packet.length < 0x10000) :
    ∃ out, decodeSnmpTrap t.packet = .ok (decodeRest (tlv 0x30 t.varbinds) out) ∧
      out.version = 0 ∧ out.generic = Int32.ofNat t.generic ∧ out.trapOid = t.ownText ∧
      out.port = ⟨[], -1⟩ ∧ out.vb = [] := by
  have hcommunity := length_lt_tlv 0x04 t.community
  have hpdu := length_lt_tlv 0xa4 t.pdu
  have hbody := length_lt_tlv 0x30
    (tlv 0x02 (intBytes 0) ++ (tlv 0x04 t.community ++ tlv 0xa4 t.pdu))
  rw [V1Trap.packet] at h
  have hin := hbody.trans h
  simp only [List.length_append] at hin
  obtain ⟨out, hout, hversion, hrest⟩ := t.decodeV1_pdu (by omega)
    { undecoded with version := 0, community := berStringStr 64 t.community }
  refine ⟨out, ?_, hversion, hrest⟩
  have hzero : (snmpBerInt (intBytes 0)).toInt32 = 0 := by
    rw [snmpBerInt_intBytes]
    rfl
  have hlast : snmpBerNext (tlv 0xa4 t.pdu) = some (0xa4, t.pdu, []) := by
    rw [← List.append_nil (tlv 0xa4 t.pdu)]
    exact snmpBerNext_tlv (by decide) (by omega) []
  rw [decodeSnmpTrap, V1Trap.packet, berExpect_tlv_last (by decide) (hbody.trans h)]
  dsimp only
  rw [berExpect_tlv (by decide) (length_intBytes_lt 0)]
  dsimp only
  rw [hzero, if_neg (by decide), if_neg (by decide), berExpect_tlv (by decide) (by omega)]
  dsimp only
  rw [hlast]
  dsimp only
  rw [if_pos rfl, hout]

/-- The text of the value that `snmpTrapOID.0` has in the translation. -/
def V1Trap.valueText (t : V1Trap) : List Char :=
  snprintf trapOidLen (snprintf trapValLen (snmpBerOidStr trapValLen t.oid))

theorem nextVarbind_varbind (oid : List UInt8) {tag : UInt8} (value : List UInt8)
    (htag : tag &&& 0x1f ≠ 0x1f) (h : (varbind oid tag value).length < 0x10000) (rest : List UInt8) :
    nextVarbind (varbind oid tag value ++ rest) =
      some ({ oid := snmpBerOidStr trapOidLen oid, name := nameOid (snmpBerOidStr trapOidLen oid)
              type := (berValueStr tag value).1, value := (berValueStr tag value).2.1
              note := (berValueStr tag value).2.2 }, rest) := by
  have hinside := (length_lt_tlv 0x30 (tlv 0x06 oid ++ tlv tag value)).trans h
  have hoid := length_lt_tlv 0x06 oid
  have hvalue := length_lt_tlv tag value
  have hlens := hinside
  rw [List.length_append] at hlens
  have hlast : snmpBerNext (tlv tag value) = some (tag, value, []) := by
    rw [← List.append_nil (tlv tag value)]
    exact snmpBerNext_tlv htag (by omega) []
  rw [nextVarbind, varbind, berExpect_tlv (by decide) hinside]
  dsimp only [bind, Option.bind]
  rw [berExpect_tlv (by decide) (by omega)]
  dsimp only
  rw [hlast]
  rfl

theorem nameOid_front : nameOid (snmpBerOidStr trapOidLen sysUpTimeOid) = "sysUpTime".toList ∧
    nameOid (snmpBerOidStr trapOidLen snmpTrapOidOid) = "snmpTrapOID".toList := by
  decide +kernel

theorem noteStatus_name (b : TrapVarbind) : (noteStatus b).name = b.name := by
  rw [noteStatus]
  split
  · split <;> rfl
  · rfl

theorem noteStatus_value (b : TrapVarbind) : (noteStatus b).value = b.value := by
  rw [noteStatus]
  split
  · split <;> rfl
  · rfl

/-- Two varbinds stand in front of those of the trap, so two places fewer are left for these. -/
theorem V1Trap.readVarbinds_list {t : V1Trap} (h : t.list.length < 0x10000) :
    ∃ time identity : TrapVarbind, readVarbinds 16 t.list = time :: identity ::
        readVarbinds 14 t.varbinds ∧
      time.name = "sysUpTime".toList ∧ identity.name = "snmpTrapOID".toList ∧
      identity.value = snprintf trapValLen (snmpBerOidStr trapValLen t.oid) := by
  obtain ⟨htimeName, hidentityName⟩ := nameOid_front
  simp only [V1Trap.list, List.length_append] at h
  have htime := nextVarbind_varbind sysUpTimeOid t.stamp (show (0x43 : UInt8) &&& 0x1f ≠ 0x1f by decide)
    (by omega)
  have hidentity := nextVarbind_varbind snmpTrapOidOid t.oid
    (show (0x06 : UInt8) &&& 0x1f ≠ 0x1f by decide) (by omega)
  rw [V1Trap.list, readVarbinds, htime]
  dsimp only
  rw [readVarbinds, hidentity]
  refine ⟨_, _, rfl, ?_, ?_, ?_⟩
  · rw [noteStatus_name, htimeName]
  · rw [noteStatus_name, hidentityName]
  · rw [noteStatus_value]
    rfl

theorem V1Trap.decode_translated {t : V1Trap} {reqid : Int64}
    (h : (t.translated reqid).length < 0x10000) :
    ∃ out, decodeSnmpTrap (t.translated reqid) = .ok (decodeRest (tlv 0x30 t.list) out) ∧
      t.list.length < 0x10000 ∧ out.version = 1 ∧ out.port = ⟨[], -1⟩ ∧ out.vb = [] := by
  have hcommunity := length_lt_tlv 0x04 t.community
  have hpdu := length_lt_tlv 0xa7 (t.translatedPdu reqid)
  have hbody := length_lt_tlv 0x30
    (tlv 0x02 (intBytes 1) ++ (tlv 0x04 t.community ++ tlv 0xa7 (t.translatedPdu reqid)))
  rw [V1Trap.translated] at h
  have hin := hbody.trans h
  simp only [List.length_append] at hin
  have hlist : t.list.length < 0x10000 := by
    have hlt := length_lt_tlv 0x30 t.list
    have hinside : (tlv 0x30 t.list).length ≤ (t.translatedPdu reqid).length := by
      simp only [V1Trap.translatedPdu, List.length_append]
      omega
    omega
  have hone : (snmpBerInt (intBytes 1)).toInt32 = 1 := by
    rw [snmpBerInt_intBytes]
    rfl
  have hlast : snmpBerNext (tlv 0xa7 (t.translatedPdu reqid)) =
      some (0xa7, t.translatedPdu reqid, []) := by
    rw [← List.append_nil (tlv 0xa7 (t.translatedPdu reqid))]
    exact snmpBerNext_tlv (by decide) (by omega) []
  have hnumber : ∀ (v : Int64) rest, berExpect 0x02 (tlv 0x02 (intBytes v) ++ rest) =
      some (intBytes v, rest) := fun v => berExpect_tlv (by decide) (length_intBytes_lt v)
  have hfront : decodeV2 (t.translatedPdu reqid) = some (tlv 0x30 t.list) := by
    rw [decodeV2, V1Trap.translatedPdu, hnumber]
    dsimp only [bind, Option.bind]
    rw [hnumber]
    dsimp only
    rw [hnumber]
    rfl
  rw [decodeSnmpTrap, V1Trap.translated, berExpect_tlv_last (by decide) (hbody.trans h)]
  dsimp only
  rw [hnumber]
  dsimp only
  rw [hone, if_neg (by decide), if_neg (by decide), berExpect_tlv (by decide) (by omega)]
  dsimp only
  rw [hlast]
  dsimp only
  rw [if_neg (by decide), if_pos (Or.inl rfl), hfront]
  exact ⟨_, rfl, hlist, rfl, rfl, rfl⟩

/-! ### When they are read alike -/

/-- What either packet is decoded to, whether it was found good or not. -/
def contentOf : Except TrapContent TrapContent → TrapContent
  | .ok c => c
  | .error c => c

/-- The varbinds that are read of the trap itself: sixteen at most, and in the translation fourteen. -/
def V1Trap.vbs (t : V1Trap) : List TrapVarbind := readVarbinds 16 t.varbinds

theorem V1Trap.reading_packet {t : V1Trap} (h : t.packet.length < 0x10000) :
    (contentOf (decodeSnmpTrap t.packet)).reading =
      ((lastTrapOid t.vbs).getD t.ownText,
        meaning (standardRow 0 (Int32.ofNat t.generic) ((lastTrapOid t.vbs).getD t.ownText)),
        (portOf t.vbs).name) := by
  obtain ⟨out, hdecode, hversion, hgeneric, hoid, hport, hvb⟩ := t.decode_packet h
  have hlist : t.varbinds.length < 0x10000 := by
    have hvarbinds := length_lt_tlv 0x30 t.varbinds
    have hpdu := length_lt_tlv 0xa4 t.pdu
    have hbody := length_lt_tlv 0x30
      (tlv 0x02 (intBytes 0) ++ (tlv 0x04 t.community ++ tlv 0xa4 t.pdu))
    have hinside : (tlv 0x30 t.varbinds).length ≤ t.pdu.length := by
      simp only [V1Trap.pdu, List.length_append]
      omega
    rw [V1Trap.packet] at h
    simp only [List.length_append] at hbody
    omega
  have hreading := decodeRest_reading out hlist []
  rw [List.append_nil, hvb] at hreading
  rw [hdecode, contentOf, hreading, hversion, hgeneric, hoid, hport]
  rfl

theorem V1Trap.value_ne_nil (t : V1Trap) :
    snprintf trapValLen (snmpBerOidStr trapValLen t.oid) ≠ [] := by
  have hval : trapValLen = 160 := rfl
  obtain ⟨b, v, hoid⟩ : ∃ b v, t.oid = b :: v := by
    rw [V1Trap.oid]
    split
    · exact ⟨_, _, rfl⟩
    · exact ⟨_, _, rfl⟩
  have hfirst := length_oidStrFirst b
  have hpos : 0 < (oidStrFirst b).length := by
    rw [oidStrFirst]
    split <;> simp
  obtain ⟨k, -, htext, hlen⟩ := emit_take (oidRest v 0 0)
    (show (oidStrFirst b).length + 1 < trapValLen by omega) (Nat.zero_le _)
  have hcut : snprintf trapValLen (oidStrFirst b) = oidStrFirst b :=
    snprintf_of_length_lt trapValLen (by omega)
  rw [hoid, snmpBerOidStr_cons, hcut, snprintf_of_length_lt trapValLen (by omega), htext]
  intro hnil
  have := congrArg List.length hnil
  rw [List.length_append, List.length_nil] at this
  omega

theorem V1Trap.reading_translated {t : V1Trap} {reqid : Int64}
    (h : (t.translated reqid).length < 0x10000) :
    ∃ generic : Int32, (contentOf (decodeSnmpTrap (t.translated reqid))).reading =
      ((lastTrapOid (t.vbs.take 14)).getD t.valueText,
        meaning (standardRow 1 generic ((lastTrapOid (t.vbs.take 14)).getD t.valueText)),
        (portOf (t.vbs.take 14)).name) := by
  obtain ⟨out, hdecode, hlist, hversion, hport, hvb⟩ := t.decode_translated h
  obtain ⟨time, identity, hread, htime, hname, hvalue⟩ := t.readVarbinds_list hlist
  have hreading := decodeRest_reading out hlist []
  rw [List.append_nil, hvb] at hreading
  have htimeOid : givenTrapOid time = none := by
    rw [givenTrapOid, htime]
    exact if_neg (by simp)
  have hidentityOid : givenTrapOid identity = some t.valueText := by
    rw [givenTrapOid, hname, hvalue]
    exact if_pos ⟨rfl, t.value_ne_nil⟩
  have htimePort : notePort ⟨[], -1⟩ time = ⟨[], -1⟩ := by
    simp [notePort, htime]
  have hidentityPort : notePort ⟨[], -1⟩ identity = ⟨[], -1⟩ := by
    simp [notePort, hname]
  have htake : t.vbs.take 14 = readVarbinds 14 t.varbinds :=
    (readVarbinds_take (by omega) t.varbinds).symm
  refine ⟨out.generic, ?_⟩
  rw [hdecode, contentOf, hreading, htake]
  change ((lastTrapOid (readVarbinds 16 t.list)).getD out.trapOid, meaning (standardRow out.version
    out.generic ((lastTrapOid (readVarbinds 16 t.list)).getD out.trapOid)),
    ((readVarbinds 16 t.list).foldl notePort out.port).name) = _
  rw [hread, lastTrapOid_cons, lastTrapOid_cons, hidentityOid, htimeOid, hversion, hport,
    List.foldl_cons, List.foldl_cons, htimePort, hidentityPort]
  cases lastTrapOid (readVarbinds 14 t.varbinds) with
  | none => rfl
  | some oid => rfl

/-- The OID of a standard trap, by its generic number. -/
def standardOid (generic : Nat) : List Char :=
  ".1.3.6.1.6.3.1.1.5.".toList ++ showNat (generic + 1)

theorem standardOid_ne_nil (generic : Nat) : standardOid generic ≠ [] :=
  List.append_ne_nil_of_right_ne_nil _ (showNat_ne_nil _)

theorem standardOid_texts : ∀ g ∈ List.range 6,
    v1TrapOid [] (Int32.ofNat g) 0 = standardOid g ∧
    snprintf trapOidLen (snprintf trapValLen (snmpBerOidStr trapValLen
      [43, 6, 1, 6, 3, 1, 1, 5, UInt8.ofNat (g + 1)])) = standardOid g := by
  decide +kernel

/-- The rows of two standard traps that are hit at once, by the number and by the OID. -/
theorem meaning_standardOid : ∀ g ∈ List.range 6, ∀ k ∈ List.range 6,
    (meaning (standardRow 0 (Int32.ofNat g) (standardOid k)) =
      meaning (trapStandard.find? fun row => standardOid k = row.oid.toList) ↔
    k ≤ g ∨ (g = 0 ∧ k = 1)) := by
  decide +kernel

theorem standardRow_one (generic : Int32) {oid : List Char} (h : oid ≠ []) :
    standardRow 1 generic oid = trapStandard.find? fun row => oid = row.oid.toList := by
  rw [standardRow]
  congr 1
  funext row
  simp [StandardTrap.hit, h]

theorem standardRow_six (generic : Int32) (oid : List Char) :
    standardRow 0 6 oid = standardRow 1 generic oid := by
  simp only [standardRow, trapStandard, List.find?_cons, StandardTrap.hit]
  simp

theorem standardOid_inj : ∀ i ∈ List.range 6, ∀ j ∈ List.range 6,
    standardOid i = standardOid j → i = j := by
  decide +kernel

theorem trapStandard_oid : trapStandard.map (fun row => row.oid.toList) =
    (List.range 6).map standardOid := by
  decide +kernel

theorem meaning_generic : ∀ g ∈ List.range 6,
    meaning (trapStandard.find? fun row => Int32.ofNat g = row.generic) ≠ meaning none := by
  decide +kernel

theorem find?_congr_mem {α : Type*} {l : List α} {p q : α → Bool} (h : ∀ a ∈ l, p a = q a) :
    l.find? p = l.find? q := by
  induction l with
  | nil => rfl
  | cons a l ih =>
      rw [List.find?_cons, List.find?_cons, h a List.mem_cons_self,
        ih fun b hb => h b (List.mem_cons_of_mem _ hb)]

/-- In version 1 the generic number hits a row as well, and the first row that is hit counts. -/
theorem meaning_eq_iff {g : Nat} (hg : g < 6) (generic : Int32) {oid : List Char} (hoid : oid ≠ []) :
    meaning (standardRow 0 (Int32.ofNat g) oid) = meaning (standardRow 1 generic oid) ↔
      (∃ k ≤ g, oid = standardOid k) ∨ (g = 0 ∧ oid = standardOid 1) := by
  have hg' : g ∈ List.range 6 := List.mem_range.mpr hg
  rw [standardRow_one generic hoid]
  by_cases hstandard : ∃ k ∈ List.range 6, oid = standardOid k
  · obtain ⟨k, hk, rfl⟩ := hstandard
    rw [meaning_standardOid g hg' k hk]
    constructor
    · rintro (hle | ⟨hzero, rfl⟩)
      · exact Or.inl ⟨k, hle, rfl⟩
      · exact Or.inr ⟨hzero, rfl⟩
    · rintro (⟨j, hle, heq⟩ | ⟨hzero, heq⟩)
      · rw [standardOid_inj k hk j (List.mem_range.mpr (by omega)) heq]
        exact Or.inl hle
      · exact Or.inr ⟨hzero, standardOid_inj k hk 1 (by decide) heq⟩
  · have hnone : ∀ row ∈ trapStandard, oid ≠ row.oid.toList := by
      intro row hrow heq
      have hmem := List.mem_map_of_mem (f := fun row => row.oid.toList) hrow
      rw [trapStandard_oid] at hmem
      obtain ⟨k, hk, hoidk⟩ := List.mem_map.mp hmem
      exact hstandard ⟨k, hk, heq.trans hoidk.symm⟩
    have hfind : trapStandard.find? (fun row => oid = row.oid.toList) = none :=
      List.find?_eq_none.mpr fun row hrow => by simpa using hnone row hrow
    have hrow : standardRow 0 (Int32.ofNat g) oid =
        trapStandard.find? fun row => Int32.ofNat g = row.generic := by
      refine find?_congr_mem fun row hmem => ?_
      simp [StandardTrap.hit, hnone row hmem]
    rw [hfind, hrow]
    constructor
    · intro h
      exact absurd h (meaning_generic g hg')
    · rintro (⟨k, hle, rfl⟩ | ⟨-, rfl⟩)
      · exact absurd ⟨k, List.mem_range.mpr (by omega), rfl⟩ hstandard
      · exact absurd ⟨1, by decide, rfl⟩ hstandard

theorem lastTrapOid_append (vbs vbs' : List TrapVarbind) :
    lastTrapOid (vbs ++ vbs') = (lastTrapOid vbs').or (lastTrapOid vbs) := by
  induction vbs with
  | nil => simp [lastTrapOid]
  | cons b vbs ih =>
      rw [List.cons_append, lastTrapOid_cons, lastTrapOid_cons, ih]
      cases lastTrapOid vbs' <;> rfl

theorem ne_nil_of_lastTrapOid {vbs : List TrapVarbind} {oid : List Char}
    (h : lastTrapOid vbs = some oid) : oid ≠ [] := by
  have hmem := List.mem_of_getLast? h
  obtain ⟨b, -, hgiven⟩ := List.mem_filterMap.mp hmem
  rw [givenTrapOid] at hgiven
  split at hgiven
  · rename_i hvalue
    obtain rfl := Option.some.inj hgiven
    obtain ⟨c, cs, hcs⟩ := List.exists_cons_of_ne_nil hvalue.2
    rw [hcs]
    exact List.cons_ne_nil c _
  · exact nomatch hgiven

theorem V1Trap.texts_standard {t : V1Trap} (h : t.generic ≠ 6) :
    t.ownText = standardOid t.generic ∧ t.valueText = standardOid t.generic := by
  have hle := t.generic_le
  have hmem : t.generic ∈ List.range 6 := List.mem_range.mpr (by omega)
  obtain ⟨hown, hvalue⟩ := standardOid_texts t.generic hmem
  have hsix : Int32.ofNat t.generic ≠ 6 := by
    intro heq
    have hint := congrArg Int32.toInt heq
    rw [Int32.toInt_ofNat_of_lt (by omega)] at hint
    change (t.generic : Int) = 6 at hint
    omega
  refine ⟨?_, ?_⟩
  · rw [← hown, V1Trap.ownText, v1TrapOid, v1TrapOid, if_neg hsix, if_neg hsix]
  · rw [V1Trap.valueText, V1Trap.oid, if_neg h, hvalue]

theorem V1Trap.texts_specific {t : V1Trap} (h : t.generic = 6) :
    t.ownText = t.valueText ↔ WholeFits t.first t.rest t.specific := by
  rw [← v1TrapOid_eq_translated_iff t.first t.ended t.specific_lt, V1Trap.ownText,
    V1Trap.valueText, V1Trap.oid, if_pos h, h]
  rfl

/-- The condition for both packets to be read alike. -/
structure V1Trap.Alike (t : V1Trap) : Prop where
  /-- The OID made of enterprise and number fits, or a varbind gives another. -/
  whole : t.generic = 6 → lastTrapOid t.vbs = none → WholeFits t.first t.rest t.specific
  /-- The varbinds for which the translation has no place give no other OID, ... -/
  oid : ∀ o ∈ lastTrapOid (t.vbs.drop 14), o = (lastTrapOid (t.vbs.take 14)).getD t.valueText
  /-- ... nor another interface. -/
  port : (portOf t.vbs).name = (portOf (t.vbs.take 14)).name
  /-- An OID that a varbind gives a standard trap is not hidden by the generic number. -/
  row : t.generic ≠ 6 → ∀ o ∈ lastTrapOid t.vbs,
    (∃ k ≤ t.generic, o = standardOid k) ∨ (t.generic = 0 ∧ o = standardOid 1)

/-- `decode_snmp_trap` gives a trap and its translation the same OID, severity, category and
interface exactly under that condition. -/
theorem V1Trap.decoded_alike_iff (t : V1Trap) (reqid : Int64) (h : t.Sized reqid) :
    (contentOf (decodeSnmpTrap t.packet)).reading =
      (contentOf (decodeSnmpTrap (t.translated reqid))).reading ↔ t.Alike := by
  obtain ⟨generic, htranslated⟩ := t.reading_translated h.v2
  have hsplit : lastTrapOid t.vbs =
      (lastTrapOid (t.vbs.drop 14)).or (lastTrapOid (t.vbs.take 14)) := by
    rw [← lastTrapOid_append, List.take_append_drop]
  rw [t.reading_packet h.v1, htranslated, Prod.mk.injEq, Prod.mk.injEq]
  constructor
  · rintro ⟨hoid, hmeaning, hport⟩
    refine ⟨fun hsix hnone => ?_, fun o ho => ?_, hport, fun hsix o ho => ?_⟩
    · rw [hnone, eq_comm, Option.or_eq_none_iff] at hsplit
      rw [hnone, hsplit.2] at hoid
      exact (t.texts_specific hsix).mp hoid
    · rw [hsplit, ho, Option.some_or, Option.getD_some] at hoid
      exact hoid
    · rw [← hoid, ho, Option.getD_some] at hmeaning
      have hle := t.generic_le
      exact (meaning_eq_iff (by omega) generic (ne_nil_of_lastTrapOid ho)).mp hmeaning
  · intro halike
    have hle := t.generic_le
    have hoid : (lastTrapOid t.vbs).getD t.ownText =
        (lastTrapOid (t.vbs.take 14)).getD t.valueText := by
      cases hlater : lastTrapOid (t.vbs.drop 14) with
      | some o =>
          rw [hsplit, hlater, Option.some_or, Option.getD_some]
          exact halike.oid o hlater
      | none =>
          rw [hlater, Option.none_or] at hsplit
          cases hgiven : lastTrapOid (t.vbs.take 14) with
          | some o => rw [hsplit, hgiven, Option.getD_some, Option.getD_some]
          | none =>
              rw [hsplit, hgiven, Option.getD_none, Option.getD_none]
              by_cases hsix : t.generic = 6
              · exact (t.texts_specific hsix).mpr (halike.whole hsix (hsplit.trans hgiven))
              · rw [(t.texts_standard hsix).1, (t.texts_standard hsix).2]
    refine ⟨hoid, ?_, halike.port⟩
    rw [← hoid]
    by_cases hsix : t.generic = 6
    · rw [hsix]
      exact congrArg meaning (standardRow_six generic _)
    · cases hgiven : lastTrapOid t.vbs with
      | some o =>
          rw [Option.getD_some]
          exact (meaning_eq_iff (by omega) generic (ne_nil_of_lastTrapOid hgiven)).mpr
            (halike.row hsix o hgiven)
      | none =>
          rw [Option.getD_none, (t.texts_standard hsix).1]
          exact (meaning_eq_iff (by omega) generic (standardOid_ne_nil _)).mpr
            (Or.inl ⟨t.generic, le_rfl, rfl⟩)

/-- A `linkDown` of the enterprise `.1.3.6.1.4.1.9` with an interface name and a status. -/
def linkDownTrap : V1Trap where
  community := [112, 117, 98]
  first := 43
  rest := [6, 1, 4, 1, 9]
  ended := by simp
  agent := [10, 0, 0, 1]
  generic := 2
  generic_le := by decide
  specific := 0
  specific_lt := by decide
  stamp := [1, 2]
  varbinds := varbind [43, 6, 1, 2, 1, 31, 1, 1, 1, 1, 3] 0x04 [101, 116, 104, 48] ++
    varbind [43, 6, 1, 2, 1, 2, 2, 1, 8, 3] 0x02 [2]

theorem linkDownTrap_decoded_alike :
    linkDownTrap.Sized 1 ∧ (contentOf (decodeSnmpTrap linkDownTrap.packet)).reading =
      (contentOf (decodeSnmpTrap (linkDownTrap.translated 1))).reading := by
  have hsized : linkDownTrap.Sized 1 := ⟨by decide +kernel, by decide +kernel⟩
  have hvbs : lastTrapOid linkDownTrap.vbs = none ∧ linkDownTrap.vbs.length = 2 := by
    decide +kernel
  have hdrop : linkDownTrap.vbs.drop 14 = [] := List.drop_eq_nil_of_le (by omega)
  refine ⟨hsized, (V1Trap.decoded_alike_iff linkDownTrap 1 hsized).mpr ⟨?_, ?_, ?_, ?_⟩⟩
  · intro hsix
    exact absurd hsix (by decide)
  · intro o ho
    rw [hdrop] at ho
    exact nomatch ho
  · rw [List.take_of_length_le (by omega)]
  · intro _ o ho
    rw [hvbs.1] at ho
    exact nomatch ho

/-- The same trap with fourteen other varbinds in front of the interface name. -/
def crowdedTrap : V1Trap :=
  { linkDownTrap with
    varbinds := (List.replicate 14 (varbind [43, 6, 1] 0x02 [1])).flatten ++ linkDownTrap.varbinds }

/-- Version 1 has the name of the interface, and the translation has none. -/
theorem crowdedTrap_read_apart :
    (contentOf (decodeSnmpTrap crowdedTrap.packet)).reading ≠
      (contentOf (decodeSnmpTrap (crowdedTrap.translated 1))).reading := by
  decide +kernel

end Sysmon.Trap
