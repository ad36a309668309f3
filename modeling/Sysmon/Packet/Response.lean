import Sysmon.Packet.Trap
import Sysmon.Snmp.Verdict

/-!
# The reader of GET responses

`snmp_parse_response`, over a list of bytes and by index, and what holds of both decoders: they read
inside the packet they were given.
-/

namespace Sysmon.Snmp

open Trap (berExpect snmpBerOidStr trapOidLen)

/-- `snmp_parse_response`: whether the packet is an answer to the question, and what it says. -/
def snmpParseResponse (pkt : List UInt8) (reqid : UInt64) : Bool × SnmpValue :=
  match berExpect 0x30 pkt with
  | none => (false, .blank)
  | some (seq, _) =>
  match berExpect 0x02 seq with
  | none => (false, .blank)
  | some (v, seq) =>
  let version := (snmpBerInt v).toInt32
  if version ≠ 0 ∧ version ≠ 1 then (false, .blank)
  else
  match berExpect 0x04 seq with
  | none => (false, .blank)
  | some (_, seq) =>
  match berExpect 0xa2 seq with
  | none => (false, .blank)
  | some (pdu, _) =>
  match berExpect 0x02 pdu with
  | none => (false, .blank)
  | some (v, pdu) =>
  if (snmpBerInt v).toUInt64 ≠ reqid &&& 0x7fffffff then (false, .blank)
  else
  match berExpect 0x02 pdu with
  | none => (false, .blank)
  | some (v, pdu) =>
  let out : SnmpValue := { SnmpValue.blank with errorStatus := (snmpBerInt v).toInt32 }
  match berExpect 0x02 pdu with
  | none => (false, out)
  | some (_, pdu) =>
  match berExpect 0x30 pdu with
  | none => (false, out)
  | some (vblist, _) =>
  match berExpect 0x30 vblist with
  -- the PDU of an error can be empty
  | none => (out.errorStatus ≠ 0, out)
  | some (vb, _) =>
  match berExpect 0x06 vb with
  | none => (false, out)
  | some (v, vb) =>
  let out : SnmpValue := { out with oid := snmpBerOidStr trapOidLen v }
  match snmpBerNext vb with
  | none => (false, out)
  | some (tag, v, _) => (true, snmpValueFromTag tag v out)

end Sysmon.Snmp

namespace Sysmon.Packet

open Logged
open Snmp (SnmpValue)
open Trap (trapOidLen hexByte)

section code

variable (mem : Memory)

def snmpValueFromTag (tag : UInt8) (v : BerValue) (out : SnmpValue) : Decode SnmpValue := do
  if tag = 0x02 then
    return { out with
      type := "INTEGER".toList, value := (← snmpBerInt mem v).toUInt64, haveValue := true }
  else if tag = 0x41 then
    return { out with type := "Counter32".toList, value := ← snmpBerUint mem v, haveValue := true }
  else if tag = 0x42 then
    return { out with type := "Gauge32".toList, value := ← snmpBerUint mem v, haveValue := true }
  else if tag = 0x43 then
    return { out with type := "TimeTicks".toList, value := ← snmpBerUint mem v, haveValue := true }
  else if tag = 0x46 then
    return { out with type := "Counter64".toList, value := ← snmpBerUint mem v, haveValue := true }
  else if tag = 0x80 then
    return { out with type := "exception".toList, exception := "noSuchObject".toList }
  else if tag = 0x81 then
    return { out with type := "exception".toList, exception := "noSuchInstance".toList }
  else if tag = 0x82 then
    return { out with type := "exception".toList, exception := "endOfMibView".toList }
  else if tag = 0x04 then return { out with type := "STRING".toList }
  else if tag = 0x40 then return { out with type := "IpAddress".toList }
  else return { out with type := "tag 0x".toList ++ hexByte tag }

def snmpParseResponse (len : Nat) (reqid : UInt64) : Decode (Bool × SnmpValue) := do
  if len = 0 then return (false, .blank)
  let msg ← snmpBerOpen ⟨0, len⟩
  let some (v, _) ← berExpect mem 0x30 msg | return (false, .blank)
  let seq ← snmpBerOpen v
  let some (v, seq) ← berExpect mem 0x02 seq | return (false, .blank)
  let version := (← snmpBerInt mem v).toInt32
  if version ≠ 0 ∧ version ≠ 1 then return (false, .blank)
  let some (_, seq) ← berExpect mem 0x04 seq | return (false, .blank)
  let some (v, _) ← berExpect mem 0xa2 seq | return (false, .blank)
  let pdu ← snmpBerOpen v
  let some (v, pdu) ← berExpect mem 0x02 pdu | return (false, .blank)
  if (← snmpBerInt mem v).toUInt64 ≠ reqid &&& 0x7fffffff then return (false, .blank)
  let some (v, pdu) ← berExpect mem 0x02 pdu | return (false, .blank)
  let out : SnmpValue := { SnmpValue.blank with errorStatus := (← snmpBerInt mem v).toInt32 }
  let some (_, pdu) ← berExpect mem 0x02 pdu | return (false, out)
  let some (v, _) ← berExpect mem 0x30 pdu | return (false, out)
  let vblist ← snmpBerOpen v
  let some (v, _) ← berExpect mem 0x30 vblist | return (out.errorStatus ≠ 0, out)
  let vb ← snmpBerOpen v
  let some (v, vb) ← berExpect mem 0x06 vb | return (false, out)
  let out : SnmpValue := { out with oid := ← snmpBerOidStr mem trapOidLen v }
  let some (tag, v, _) ← snmpBerNext mem vb | return (false, out)
  return (true, ← snmpValueFromTag mem tag v out)

end code

/-! ### Inside the packet -/

section keeps

variable {mem : Memory} {size : Nat}

theorem keeps_snmpValueFromTag (tag : UInt8) {v : BerValue} (h : v.Inside size) (out : SnmpValue) :
    Keeps (InPacket size) (snmpValueFromTag mem tag v out)
      (· = Snmp.snmpValueFromTag tag (v.octets mem) out) := by
  have huint : Keeps (InPacket size) (snmpBerUint mem v) (· = Trap.snmpBerUint (v.octets mem)) :=
    keeps_snmpBerUint h
  refine keeps_ite (fun _ => (keeps_snmpBerInt h).bind fun x hx => keeps_pure (by rw [hx])) fun _ => ?_
  refine keeps_ite (fun _ => huint.bind fun x hx => keeps_pure (by rw [hx])) fun _ => ?_
  refine keeps_ite (fun _ => huint.bind fun x hx => keeps_pure (by rw [hx])) fun _ => ?_
  refine keeps_ite (fun _ => huint.bind fun x hx => keeps_pure (by rw [hx])) fun _ => ?_
  refine keeps_ite (fun _ => huint.bind fun x hx => keeps_pure (by rw [hx])) fun _ => ?_
  refine keeps_ite (fun _ => keeps_pure rfl) fun _ => ?_
  refine keeps_ite (fun _ => keeps_pure rfl) fun _ => ?_
  refine keeps_ite (fun _ => keeps_pure rfl) fun _ => ?_
  refine keeps_ite (fun _ => keeps_pure rfl) fun _ => ?_
  refine keeps_ite (fun _ => keeps_pure rfl) fun _ => ?_
  exact keeps_pure rfl

theorem keeps_snmpParseResponse (mem : Memory) (len : Nat) (reqid : UInt64) :
    Keeps (InPacket len) (snmpParseResponse mem len reqid)
      (· = Snmp.snmpParseResponse (octets mem 0 len) reqid) := by
  rw [snmpParseResponse, Snmp.snmpParseResponse]
  by_cases hempty : len = 0
  · rw [if_pos hempty, hempty]
    exact keeps_pure rfl
  rw [if_neg hempty]
  have hpacket : BerValue.Inside len ⟨0, len⟩ := (Nat.zero_add len).le
  refine (keeps_snmpBerOpen mem hpacket).bind fun msg hmsg => ?_
  obtain ⟨hinside, hrest⟩ := hmsg
  rw [show octets mem 0 len = msg.rest mem from hrest.symm]
  refine (keeps_berExpect 0x30 hinside).bind fun r hr => ?_
  obtain ⟨hinside, hnext⟩ := hr
  rw [hnext]
  cases r with
  | none => exact keeps_pure rfl
  | some r =>
  refine (keeps_snmpBerOpen mem (hinside _ rfl).1).bind fun seq hseq => ?_
  obtain ⟨hinside, hrest⟩ := hseq
  simp only [Option.map_some, ← hrest]
  refine (keeps_berExpect 0x02 hinside).bind fun r hr => ?_
  obtain ⟨hinside, hnext⟩ := hr
  rw [hnext]
  cases r with
  | none => exact keeps_pure rfl
  | some r =>
  obtain ⟨hv, hseq⟩ := hinside _ rfl
  refine (keeps_snmpBerInt hv).bind fun version hversion => ?_
  simp only [Option.map_some, ← hversion]
  refine keeps_ite (fun _ => keeps_pure rfl) fun _ => ?_
  refine (keeps_berExpect 0x04 hseq).bind fun r hr => ?_
  obtain ⟨hinside, hnext⟩ := hr
  rw [hnext]
  cases r with
  | none => exact keeps_pure rfl
  | some r =>
  refine (keeps_berExpect 0xa2 (hinside _ rfl).2).bind fun r hr => ?_
  obtain ⟨hinside, hnext⟩ := hr
  simp only [Option.map_some, hnext]
  cases r with
  | none => exact keeps_pure rfl
  | some r =>
  refine (keeps_snmpBerOpen mem (hinside _ rfl).1).bind fun pdu hpdu => ?_
  obtain ⟨hinside, hrest⟩ := hpdu
  simp only [Option.map_some, ← hrest]
  refine (keeps_berExpect 0x02 hinside).bind fun r hr => ?_
  obtain ⟨hinside, hnext⟩ := hr
  rw [hnext]
  cases r with
  | none => exact keeps_pure rfl
  | some r =>
  obtain ⟨hv, hpdu⟩ := hinside _ rfl
  refine (keeps_snmpBerInt hv).bind fun gotReqid hgot => ?_
  simp only [Option.map_some, ← hgot]
  refine keeps_ite (fun _ => keeps_pure rfl) fun _ => ?_
  refine (keeps_berExpect 0x02 hpdu).bind fun r hr => ?_
  obtain ⟨hinside, hnext⟩ := hr
  rw [hnext]
  cases r with
  | none => exact keeps_pure rfl
  | some r =>
  obtain ⟨hv, hpdu⟩ := hinside _ rfl
  refine (keeps_snmpBerInt hv).bind fun errorStatus herror => ?_
  refine (keeps_berExpect 0x02 hpdu).bind fun r hr => ?_
  obtain ⟨hinside, hnext⟩ := hr
  simp only [Option.map_some, ← herror, hnext]
  cases r with
  | none => exact keeps_pure rfl
  | some r =>
  refine (keeps_berExpect 0x30 (hinside _ rfl).2).bind fun r hr => ?_
  obtain ⟨hinside, hnext⟩ := hr
  simp only [Option.map_some, hnext]
  cases r with
  | none => exact keeps_pure rfl
  | some r =>
  refine (keeps_snmpBerOpen mem (hinside _ rfl).1).bind fun vblist hlist => ?_
  obtain ⟨hinside, hrest⟩ := hlist
  simp only [Option.map_some, ← hrest]
  refine (keeps_berExpect 0x30 hinside).bind fun r hr => ?_
  obtain ⟨hinside, hnext⟩ := hr
  rw [hnext]
  cases r with
  | none => exact keeps_pure rfl
  | some r =>
  refine (keeps_snmpBerOpen mem (hinside _ rfl).1).bind fun vb hvb => ?_
  obtain ⟨hinside, hrest⟩ := hvb
  simp only [Option.map_some, ← hrest]
  refine (keeps_berExpect 0x06 hinside).bind fun r hr => ?_
  obtain ⟨hinside, hnext⟩ := hr
  rw [hnext]
  cases r with
  | none => exact keeps_pure rfl
  | some r =>
  obtain ⟨hv, hvb⟩ := hinside _ rfl
  refine (keeps_snmpBerOidStr hv trapOidLen).bind fun oid hoid => ?_
  refine (keeps_snmpBerNext hvb).bind fun r hr => ?_
  obtain ⟨hinside, hnext⟩ := hr
  simp only [Option.map_some, ← hoid, hnext]
  cases r with
  | none => exact keeps_pure rfl
  | some r =>
  obtain ⟨tag, v, vb⟩ := r
  refine (keeps_snmpValueFromTag tag (hinside _ rfl).1 _).bind fun out hout => keeps_pure ?_
  rw [hout]
  rfl

end keeps

/-- For every packet, whatever lies around it in memory: both decoders come to an end with their
octets and their cursors all inside the packet, and no more than sixteen varbinds are recorded. -/
theorem decoders_in_packet (mem : Memory) (len : Nat) (reqid : UInt64) :
    (∀ access ∈ log (decodeSnmpTrap mem len), InPacket len access) ∧
      (∀ access ∈ log (snmpParseResponse mem len reqid), InPacket len access) ∧
        (Trap.contentOf (result (decodeSnmpTrap mem len))).vb.length ≤ 16 := by
  obtain ⟨htrap, hcontent⟩ := keeps_decodeSnmpTrap mem len
  refine ⟨htrap, (keeps_snmpParseResponse mem len reqid).1, ?_⟩
  rw [hcontent]
  exact Trap.length_vb_decodeSnmpTrap (octets mem 0 len)

end Sysmon.Packet
