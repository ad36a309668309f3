import Mathlib.Algebra.Order.Ring.Int
import Mathlib.Data.List.Basic
import Mathlib.Data.UInt
import Sysmon.Lib.CText
import Sysmon.Snmp.Ber

/-!
# Decoding a trap

`decode_snmp_trap` of `trapdecode.c`. A packet is read into a `trap_content` of fixed-size fields:
every text that goes into one is cut to what it holds. A trap of version 1 carries an enterprise and
two numbers in its own fields, one of version 2c carries its identity as a varbind; the varbinds of
both are read by the same loop, and the same table says what the trap means.
-/

namespace Sysmon.Trap

open Snmp CText

/-! ### The record -/

structure TrapVarbind where
  oid : List Char
  name : List Char
  type : List Char
  value : List Char
  note : List Char
  deriving DecidableEq, Repr

structure TrapContent where
  version : Int32
  decoded : Bool
  alertable : Bool
  inform : Bool
  community : List Char
  trapOid : List Char
  enterprise : List Char
  agent : List Char
  name : List Char
  description : List Char
  severity : List Char
  category : List Char
  vendor : List Char
  iface : List Char
  ifindex : Int32
  generic : Int32
  specific : Int32
  uptime : UInt64
  vb : List TrapVarbind
  deriving DecidableEq, Repr

def trapMaxVarbind : Nat := 16
def trapOidLen : Nat := 192
def trapValLen : Nat := 160
def trapNameLen : Nat := 48
def trapMaxSubids : Nat := 64

/-- What `snprintf` leaves in a buffer of the given size. -/
def snprintf (size : Nat) (s : List Char) : List Char := s.take (size - 1)

/-! ### Values -/

def snmpBerUint (v : List UInt8) : UInt64 :=
  if v.length = 0 ∨ 8 < v.length then 0 else berAccumulate 0 v

/-- The loop of `snmp_ber_oid_str` over the bytes after the first. `sub` never passes 35 bits. -/
def oidStrLoop (outlen : Nat) : List UInt8 → Nat → Nat → Nat → List Char → List Char
  | [], _, _, _, out => out
  | b :: v, sub, shifted, subids, out =>
      -- a sub-identifier of more than five bytes is given up
      if 4 < shifted then oidStrLoop outlen v 0 0 subids out
      else
        let sub := sub * 128 + b.toNat % 128
        if 128 ≤ b.toNat then oidStrLoop outlen v sub (shifted + 1) subids out
        else if trapMaxSubids < subids + 1 then out
        else
          let part := '.' :: showNat sub
          if outlen ≤ out.length + part.length + 1 then out
          else oidStrLoop outlen v 0 0 (subids + 1) (out ++ part)

/-- The two sub-identifiers in the first byte. -/
def oidStrFirst (b : UInt8) : List Char :=
  if 80 ≤ b.toNat then ".2.".toList ++ showNat (b.toNat - 80)
  else '.' :: showNat (b.toNat / 40) ++ '.' :: showNat (b.toNat % 40)

def snmpBerOidStr (outlen : Nat) : List UInt8 → List Char
  | [] => []
  | b :: v => oidStrLoop outlen v 0 0 0 (snprintf outlen (oidStrFirst b))

def hexDigit (n : Nat) : Char := "0123456789abcdef".toList.getD n '0'

/-- `%02x`. -/
def hexByte (b : UInt8) : List Char := [hexDigit (b.toNat / 16), hexDigit (b.toNat % 16)]

def printable (b : UInt8) : Bool :=
  b = 9 || b = 10 || b = 13 || (0x20 ≤ b && b ≤ 0x7e)

/-- Text where all of it can be printed, and hex where not. -/
def berStringStr (outlen : Nat) (v : List UInt8) : List Char :=
  if v.all printable then
    (v.take (outlen - 1)).map fun b => if b < 0x20 then ' ' else Char.ofNat b.toNat
  else (v.take ((outlen - 2) / 2)).flatMap hexByte

/-- What a `TimeTicks` says in days, hours, minutes and seconds. -/
def ticksNote (ticks : Nat) : List Char :=
  showNat (ticks / 8640000) ++ "d ".toList ++ (showNat (ticks / 360000 % 24) ++ "h ".toList) ++
    (showNat (ticks / 6000 % 60) ++ "m ".toList) ++ (showNat (ticks / 100 % 60) ++ "s".toList)

def dottedQuad (v : List UInt8) : List Char :=
  (v.map fun b => showNat b.toNat).intersperse ['.'] |>.flatten

/-- Type, value and note of a varbind. -/
def berValueStr (tag : UInt8) (v : List UInt8) : List Char × List Char × List Char :=
  let texts : List Char × List Char × List Char :=
    if tag = 0x02 then ("INTEGER".toList, showInt (snmpBerInt v).toInt, [])
    else if tag = 0x04 then ("STRING".toList, berStringStr trapValLen v, [])
    else if tag = 0x05 then ("NULL".toList, [], [])
    else if tag = 0x06 then ("OID".toList, snmpBerOidStr trapValLen v, [])
    else if tag = 0x40 then
      ("IpAddress".toList, if v.length = 4 then dottedQuad v else berStringStr trapValLen v, [])
    else if tag = 0x41 then ("Counter32".toList, showNat (snmpBerUint v).toNat, [])
    else if tag = 0x42 then ("Gauge32".toList, showNat (snmpBerUint v).toNat, [])
    else if tag = 0x43 then
      ("TimeTicks".toList, showNat (snmpBerUint v).toNat, ticksNote (snmpBerUint v).toNat)
    else if tag = 0x46 then ("Counter64".toList, showNat (snmpBerUint v).toNat, [])
    else if tag = 0x44 then ("Opaque".toList, berStringStr trapValLen v, [])
    else if tag = 0x80 then ("noSuchObject".toList, [], [])
    else if tag = 0x81 then ("noSuchInstance".toList, [], [])
    else if tag = 0x82 then ("endOfMibView".toList, [], [])
    else ("tag 0x".toList ++ hexByte tag, berStringStr trapValLen v, [])
  (snprintf 16 texts.1, snprintf trapValLen texts.2.1, snprintf trapValLen texts.2.2)

/-! ### Names -/

/-- `trap_oid_exact`. -/
def trapOidExact : List (String × String) :=
  [(".1.3.6.1.2.1.1.3.0", "sysUpTime"), (".1.3.6.1.6.3.1.1.4.1.0", "snmpTrapOID"),
    (".1.3.6.1.6.3.1.1.4.3.0", "snmpTrapEnterprise"), (".1.3.6.1.2.1.1.1.0", "sysDescr"),
    (".1.3.6.1.2.1.1.5.0", "sysName"), (".1.3.6.1.2.1.1.6.0", "sysLocation")]

/-- `trap_oid_prefix`: table columns, the instance follows. -/
def trapOidPrefix : List (String × String) :=
  [(".1.3.6.1.2.1.2.2.1.1.", "ifIndex"), (".1.3.6.1.2.1.2.2.1.2.", "ifDescr"),
    (".1.3.6.1.2.1.2.2.1.3.", "ifType"), (".1.3.6.1.2.1.2.2.1.7.", "ifAdminStatus"),
    (".1.3.6.1.2.1.2.2.1.8.", "ifOperStatus"), (".1.3.6.1.2.1.31.1.1.1.1.", "ifName"),
    (".1.3.6.1.2.1.31.1.1.1.18.", "ifAlias"), (".1.3.6.1.6.3.18.1.3.", "snmpTrapAddress"),
    (".1.3.6.1.6.3.18.1.4.", "snmpTrapCommunity")]

def nameOid (oid : List Char) : List Char :=
  match trapOidExact.find? fun e => oid = e.1.toList with
  | some e => e.2.toList
  | none =>
      match trapOidPrefix.find? fun e => e.1.toList.isPrefixOf oid with
      | some e => e.2.toList
      | none => []

/-- `trap_vendors`. -/
def trapVendors : List (UInt64 × String) :=
  [(9, "Cisco"), (11, "Hewlett-Packard"), (674, "Dell"), (1916, "Extreme Networks"),
    (2011, "Huawei"), (2636, "Juniper"), (3375, "F5"), (4526, "NETGEAR"), (6027, "Dell Force10"),
    (8072, "Net-SNMP"), (14988, "MikroTik"), (25506, "H3C"), (30065, "Arista"), (41112, "Ubiquiti")]

def enterprises : List Char := ".1.3.6.1.4.1.".toList

def nameVendor (oid : List Char) : List Char :=
  if enterprises.isPrefixOf oid then
    let digits := oid.drop enterprises.length
    if (scanDecimal digits).isNone then []
    else
      match trapVendors.find? fun e => e.1 = strtoul digits with
      | some e => e.2.toList
      | none => []
  else []

/-- `if_status_name`. -/
def ifStatusName (v : Int64) : Option (List Char) :=
  if v = 1 then some "up".toList
  else if v = 2 then some "down".toList
  else if v = 3 then some "testing".toList
  else if v = 4 then some "unknown".toList
  else if v = 5 then some "dormant".toList
  else if v = 6 then some "notPresent".toList
  else if v = 7 then some "lowerLayerDown".toList
  else none

/-! ### Varbinds -/

/-- The next element, if it has the tag that must come. -/
def berExpect (tag : UInt8) (bytes : List UInt8) : Option (List UInt8 × List UInt8) :=
  match snmpBerNext bytes with
  | some (t, content, rest) => if t = tag then some (content, rest) else none
  | none => none

/-- One varbind of the list, and what is left of the list. -/
def nextVarbind (list : List UInt8) : Option (TrapVarbind × List UInt8) := do
  let (vb, rest) ← berExpect 0x30 list
  let (oid, vb) ← berExpect 0x06 vb
  let (vtag, vval, _) ← snmpBerNext vb
  let text := snmpBerOidStr trapOidLen oid
  let (type, value, note) := berValueStr vtag vval
  return ({ oid := text, name := nameOid text, type, value, note }, rest)

/-- What is taken from a varbind into the trap as a whole. -/
def noteVarbind (out : TrapContent) (b : TrapVarbind) : TrapContent :=
  let out : TrapContent := { out with vb := out.vb ++ [b] }
  if b.name = "snmpTrapOID".toList ∧ b.value ≠ [] then
    { out with trapOid := snprintf trapOidLen b.value }
  else if b.name = "sysUpTime".toList then { out with uptime := strtoul b.value }
  else if b.name = "snmpTrapEnterprise".toList ∧ out.enterprise = [] then
    { out with enterprise := snprintf trapOidLen b.value }
  else if b.name = "ifIndex".toList then { out with ifindex := (strtoll b.value).toInt32 }
  else if b.name = "ifName".toList ∨ b.name = "ifDescr".toList ∨ b.name = "ifAlias".toList then
    if out.iface = [] ∨ b.name = "ifName".toList then { out with iface := snprintf 64 b.value }
    else out
  else out

/-- The meaning of a status goes into the note of its own varbind. -/
def noteStatus (b : TrapVarbind) : TrapVarbind :=
  if b.name = "ifOperStatus".toList ∨ b.name = "ifAdminStatus".toList then
    match ifStatusName (strtoll b.value) with
    | some s => { b with note := snprintf trapValLen s }
    | none => b
  else b

/-- The loop of `decode_varbinds`, with the places of `vb` that are left. -/
def varbindLoop : Nat → List UInt8 → TrapContent → TrapContent
  | 0, _, out => out
  | n + 1, list, out =>
      match nextVarbind list with
      | none => out
      | some (b, rest) => varbindLoop n rest (noteVarbind out (noteStatus b))

def decodeVarbinds (pdu : List UInt8) (out : TrapContent) : TrapContent :=
  match berExpect 0x30 pdu with
  | none => out
  | some (list, _) => varbindLoop (trapMaxVarbind - out.vb.length) list out

/-! ### Meaning -/

/-- A row of `trap_standard`. -/
structure StandardTrap where
  oid : String
  generic : Int32
  name : String
  severity : String
  category : String
  desc : String
  deriving DecidableEq, Repr

def trapStandard : List StandardTrap :=
  [⟨".1.3.6.1.6.3.1.1.5.1", 0, "coldStart", "warning", "restart",
      "Device cold started - it was power cycled or reloaded"⟩,
    ⟨".1.3.6.1.6.3.1.1.5.2", 1, "warmStart", "warning", "restart",
      "Device warm started - its agent reinitialised"⟩,
    ⟨".1.3.6.1.6.3.1.1.5.3", 2, "linkDown", "critical", "link", "An interface went down"⟩,
    ⟨".1.3.6.1.6.3.1.1.5.4", 3, "linkUp", "informational", "link", "An interface came back up"⟩,
    ⟨".1.3.6.1.6.3.1.1.5.5", 4, "authenticationFailure", "warning", "security",
      "SNMP authentication failure - wrong community, or a poller that should not be there"⟩,
    ⟨".1.3.6.1.6.3.1.1.5.6", 5, "egpNeighborLoss", "warning", "routing",
      "An EGP neighbour was lost"⟩]

/-- A row is hit by the trap OID, and in version 1 by the generic number as well. -/
def StandardTrap.hit (version generic : Int32) (trapOid : List Char) (row : StandardTrap) : Bool :=
  (trapOid ≠ [] ∧ trapOid = row.oid.toList) ∨ (version = 0 ∧ generic = row.generic)

/-- The first row that is hit. -/
def standardRow (version generic : Int32) (trapOid : List Char) : Option StandardTrap :=
  trapStandard.find? (StandardTrap.hit version generic trapOid)

/-- What a trap is called and how serious it is, from its row or from there being none. -/
def classifyRow (out : TrapContent) : TrapContent :=
  match standardRow out.version out.generic out.trapOid with
  | some row =>
      { out with
        name := row.name.toList, severity := row.severity.toList, category := row.category.toList
        description := row.desc.toList }
  | none =>
      { out with
        name :=
          if out.version = 0 ∧ out.generic = 6 then
            snprintf trapNameLen
              ("enterpriseSpecific(".toList ++ showInt out.specific.toInt ++ ")".toList)
          else if out.trapOid ≠ [] then "enterpriseSpecific".toList
          else "trap".toList
        severity := "warning".toList
        category := "vendor".toList
        description := snprintf trapValLen ("Vendor-specific trap ".toList ++
          (if out.trapOid ≠ [] then out.trapOid else out.enterprise).take 100 ++
          " - see the vendor MIB for its meaning".toList) }

def classifyVendor (out : TrapContent) : TrapContent :=
  let vendor := if out.enterprise ≠ [] then nameVendor out.enterprise else out.vendor
  { out with vendor := if vendor = [] ∧ out.trapOid ≠ [] then nameVendor out.trapOid else vendor }

/-- An index stands in for a name that no varbind gave. -/
def classifyIface (out : TrapContent) : TrapContent :=
  if out.iface = [] ∧ 0 ≤ out.ifindex then
    { out with iface := snprintf 64 ("ifIndex ".toList ++ showInt out.ifindex.toInt) }
  else out

/-- A link trap says which interface it is about. -/
def classifyLink (out : TrapContent) : TrapContent :=
  if out.iface ≠ [] ∧ out.category = "link".toList then
    { out with
      description := snprintf trapValLen
        ((out.description.take 100) ++ ": ".toList ++ out.iface.take 50) }
  else out

def classifyTrap (out : TrapContent) : TrapContent :=
  classifyLink (classifyIface (classifyVendor (classifyRow out)))

/-! ### The packet -/

/-- The record as it is before anything has been read. -/
def undecoded : TrapContent where
  version := -1
  decoded := false
  alertable := false
  inform := false
  community := []
  trapOid := []
  enterprise := []
  agent := []
  name := "undecoded".toList
  description := "Trap could not be decoded (malformed or unsupported packet)".toList
  severity := "warning".toList
  category := "trap".toList
  vendor := []
  iface := []
  ifindex := -1
  generic := -1
  specific := 0
  uptime := 0
  vb := []

/-- The trap OID of version 1, built from the fields of the PDU. -/
def v1TrapOid (enterprise : List Char) (generic specific : Int32) : List Char :=
  if generic = 6 then
    let suffix := snprintf 24 (".0.".toList ++ showInt specific.toInt)
    if enterprise.length + suffix.length < trapOidLen then
      snprintf trapOidLen (enterprise.take 160 ++ suffix.take 24)
    else snprintf trapOidLen enterprise
  else if 0 ≤ generic ∧ generic ≤ 5 then
    snprintf trapOidLen (".1.3.6.1.6.3.1.1.5.".toList ++ showInt (generic + 1).toInt)
  else []

/-- The fields before the varbinds of a trap of version 1. -/
def decodeV1 (pdu : List UInt8) (out : TrapContent) :
    Except TrapContent (List UInt8 × TrapContent) :=
  match berExpect 0x06 pdu with
  | none => .error out
  | some (v, pdu) =>
  let out : TrapContent := { out with enterprise := snmpBerOidStr trapOidLen v }
  match snmpBerNext pdu with
  | none => .error out
  | some (t, v, pdu) =>
  let out : TrapContent :=
    { out with agent := if t = 0x40 ∧ v.length = 4 then dottedQuad v else out.agent }
  match berExpect 0x02 pdu with
  | none => .error out
  | some (v, pdu) =>
  let out : TrapContent := { out with generic := (snmpBerInt v).toInt32 }
  match berExpect 0x02 pdu with
  | none => .error out
  | some (v, pdu) =>
  let out : TrapContent := { out with specific := (snmpBerInt v).toInt32 }
  match snmpBerNext pdu with
  | none => .error out
  | some (t, v, pdu) =>
  let out : TrapContent := { out with uptime := if t = 0x43 then snmpBerUint v else out.uptime }
  .ok (pdu, { out with trapOid := v1TrapOid out.enterprise out.generic out.specific })

/-- The three integers before the varbinds of a trap of version 2c. -/
def decodeV2 (pdu : List UInt8) : Option (List UInt8) := do
  let (_, pdu) ← berExpect 0x02 pdu
  let (_, pdu) ← berExpect 0x02 pdu
  let (_, pdu) ← berExpect 0x02 pdu
  return pdu

/-- The varbinds and what the trap means. -/
def decodeRest (pdu : List UInt8) (out : TrapContent) : TrapContent :=
  { classifyTrap (decodeVarbinds pdu out) with decoded := true, alertable := true }

/-- `decode_snmp_trap`: an error is a packet for which it says `FALSE`, with what it filled in. -/
def decodeSnmpTrap (buf : List UInt8) : Except TrapContent TrapContent :=
  match berExpect 0x30 buf with
  | none => .error undecoded
  | some (seq, _) =>
  match berExpect 0x02 seq with
  | none => .error undecoded
  | some (v, seq) =>
  let out : TrapContent := { undecoded with version := (snmpBerInt v).toInt32 }
  if out.version = 3 then
    .error { out with
      name := "snmpv3Trap".toList, category := "trap".toList, alertable := true
      description := "SNMPv3 trap received - sysmond does not hold the v3 keys to decode it".toList }
  else if out.version ≠ 0 ∧ out.version ≠ 1 then .error out
  else
  match berExpect 0x04 seq with
  | none => .error out
  | some (v, seq) =>
  let out : TrapContent := { out with community := berStringStr 64 v }
  match snmpBerNext seq with
  | none => .error out
  | some (tag, pdu, _) =>
  if tag = 0xa4 then
    match decodeV1 pdu out with
    | .error out => .error out
    | .ok (pdu, out) => .ok (decodeRest pdu out)
  else if tag = 0xa7 ∨ tag = 0xa6 then
    let out : TrapContent := { out with inform := tag = 0xa6 }
    match decodeV2 pdu with
    | none => .error out
    | some pdu => .ok (decodeRest pdu out)
  else
    .error { out with
      name := "non-trap".toList
      description := snprintf trapValLen ("SNMP PDU type 0x".toList ++ hexByte tag ++
        " on the trap port - not a trap".toList) }

end Sysmon.Trap
