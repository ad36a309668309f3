import Sysmon.Packet.Values
import Sysmon.Trap.Translate

/-!
# The trap decoder, read by index

`decode_snmp_trap` with its cursors: one on the packet, one on the message, one on the PDU, one on the
list of varbinds and one on each varbind, every one of them opened on a value that another found. None
of them reads outside the packet, and the record is that of the decoder over lists of bytes.
-/

namespace Sysmon.Trap

/-! ### The varbinds that are recorded -/

theorem length_vb_noteVarbind (out : TrapContent) (b : TrapVarbind) :
    (noteVarbind out b).vb.length = out.vb.length + 1 := by
  have hvb : (noteVarbind out b).vb = out.vb ++ [b] := by
    rw [noteVarbind]
    repeat' split
    all_goals rfl
  rw [hvb, List.length_append, List.length_singleton]

theorem length_vb_varbindLoop (room : Nat) (list : List UInt8) (out : TrapContent) :
    (varbindLoop room list out).vb.length ≤ out.vb.length + room := by
  induction room generalizing list out with
  | zero => exact le_rfl
  | succ room ih =>
      rw [varbindLoop]
      split
      · exact Nat.le_add_right _ _
      next b rest _ =>
        have hstep := ih rest (noteVarbind out (noteStatus b))
        rw [length_vb_noteVarbind] at hstep
        omega

theorem vb_classifyTrap (out : TrapContent) : (classifyTrap out).vb = out.vb := by
  have hrow : (classifyRow out).vb = out.vb := by
    rw [classifyRow]
    split <;> rfl
  have hiface : ∀ c : TrapContent, (classifyIface c).vb = c.vb := by
    intro c
    rw [classifyIface]
    split <;> rfl
  have hlink : ∀ c : TrapContent, (classifyLink c).vb = c.vb := by
    intro c
    rw [classifyLink]
    split <;> rfl
  rw [classifyTrap, hlink, hiface, ← hrow]
  rfl

theorem length_vb_decodeRest (pdu : List UInt8) {out : TrapContent} (h : out.vb = []) :
    (decodeRest pdu out).vb.length ≤ trapMaxVarbind := by
  have hrest : (decodeRest pdu out).vb = (decodeVarbinds pdu out).vb := vb_classifyTrap _
  rw [hrest, decodeVarbinds, h]
  split
  · rw [h]
    exact Nat.zero_le _
  · refine (length_vb_varbindLoop _ _ out).trans ?_
    rw [h]
    exact le_rfl

theorem vb_decodeV1 (pdu : List UInt8) (out : TrapContent) :
    (∀ e, decodeV1 pdu out = .error e → e.vb = out.vb) ∧
      ∀ x, decodeV1 pdu out = .ok x → x.2.vb = out.vb := by
  rw [decodeV1]
  dsimp only
  repeat' split
  all_goals exact ⟨fun e he => by cases he <;> rfl, fun x hx => by cases hx <;> rfl⟩

/-- However many varbinds a packet has, no more of them are recorded than there are places. -/
theorem length_vb_decodeSnmpTrap (buf : List UInt8) :
    (contentOf (decodeSnmpTrap buf)).vb.length ≤ trapMaxVarbind := by
  rw [decodeSnmpTrap]
  dsimp only
  repeat' split
  -- nothing has been recorded before the varbinds
  any_goals exact Nat.zero_le _
  next heq =>
    rw [contentOf, (vb_decodeV1 _ _).1 _ heq]
    exact Nat.zero_le _
  next heq => exact length_vb_decodeRest _ ((vb_decodeV1 _ _).2 _ heq)
  next => exact length_vb_decodeRest _ rfl

end Sysmon.Trap

namespace Sysmon.Packet

open Logged CText
open Trap (TrapVarbind TrapContent trapMaxVarbind trapOidLen trapValLen snprintf hexByte dottedQuad
  nameOid noteVarbind noteStatus classifyTrap undecoded v1TrapOid)

section code

variable (mem : Memory)

/-- The next element, if it has the tag that must come. -/
def berExpect (tag : UInt8) (c : BerCursor) : Decode (Option (BerValue × BerCursor)) := do
  match ← snmpBerNext mem c with
  | some (t, v, c) => return if t = tag then some (v, c) else none
  | none => return none

/-- One varbind of the list, and the list after it. -/
def nextVarbind (list : BerCursor) : Decode (Option (TrapVarbind × BerCursor)) := do
  let some (v, list) ← berExpect mem 0x30 list | return none
  let vb ← snmpBerOpen v
  let some (oid, vb) ← berExpect mem 0x06 vb | return none
  let text ← snmpBerOidStr mem trapOidLen oid
  let some (vtag, vval, _) ← snmpBerNext mem vb | return none
  let (type, value, note) ← berValueStr mem vtag vval
  return some ({ oid := text, name := nameOid text, type, value, note }, list)

/-- The loop of `decode_varbinds`. -/
def varbindLoop (list : BerCursor) (out : TrapContent) : Decode TrapContent := do
  if _ : out.vb.length < trapMaxVarbind then
    match ← nextVarbind mem list with
    | none => return out
    | some (b, list) => varbindLoop list (noteVarbind out (noteStatus b))
  else return out
termination_by trapMaxVarbind - out.vb.length
decreasing_by
  rw [Trap.length_vb_noteVarbind]
  omega

def decodeVarbinds (pdu : BerCursor) (out : TrapContent) : Decode TrapContent := do
  let some (v, _) ← berExpect mem 0x30 pdu | return out
  let list ← snmpBerOpen v
  varbindLoop mem list out

/-- The agent, if what is found is an address. -/
def agentAddr (t : UInt8) (v : BerValue) (agent : List Char) : Decode (List Char) :=
  if t = 0x40 ∧ v.vlen = 4 then dottedQuad <$> v.forEach mem (fun bs b => bs ++ [b]) []
  else return agent

/-- The time, if what is found is one. -/
def timeStamp (t : UInt8) (v : BerValue) (uptime : UInt64) : Decode UInt64 :=
  if t = 0x43 then snmpBerUint mem v else return uptime

/-- The fields before the varbinds of a trap of version 1. -/
def decodeV1 (pdu : BerCursor) (out : TrapContent) :
    Decode (Except TrapContent (BerCursor × TrapContent)) := do
  let some (v, pdu) ← berExpect mem 0x06 pdu | return .error out
  let out : TrapContent := { out with enterprise := ← snmpBerOidStr mem trapOidLen v }
  let some (t, v, pdu) ← snmpBerNext mem pdu | return .error out
  let out : TrapContent := { out with agent := ← agentAddr mem t v out.agent }
  let some (v, pdu) ← berExpect mem 0x02 pdu | return .error out
  let out : TrapContent := { out with generic := (← snmpBerInt mem v).toInt32 }
  let some (v, pdu) ← berExpect mem 0x02 pdu | return .error out
  let out : TrapContent := { out with specific := (← snmpBerInt mem v).toInt32 }
  let some (t, v, pdu) ← snmpBerNext mem pdu | return .error out
  let out : TrapContent := { out with uptime := ← timeStamp mem t v out.uptime }
  return .ok (pdu, { out with trapOid := v1TrapOid out.enterprise out.generic out.specific })

/-- The three integers before the varbinds of a trap of version 2c. -/
def decodeV2 (pdu : BerCursor) : Decode (Option BerCursor) := do
  let some (_, pdu) ← berExpect mem 0x02 pdu | return none
  let some (_, pdu) ← berExpect mem 0x02 pdu | return none
  let some (_, pdu) ← berExpect mem 0x02 pdu | return none
  return some pdu

/-- The varbinds and what the trap means. -/
def decodeRest (pdu : BerCursor) (out : TrapContent) : Decode TrapContent := do
  let out ← decodeVarbinds mem pdu out
  return { classifyTrap out with decoded := true, alertable := true }

/-- `decode_snmp_trap` of a packet of `len` bytes. -/
def decodeSnmpTrap (len : Nat) : Decode (Except TrapContent TrapContent) := do
  if len = 0 then return .error undecoded
  let msg ← snmpBerOpen ⟨0, len⟩
  let some (v, _) ← berExpect mem 0x30 msg | return .error undecoded
  let seq ← snmpBerOpen v
  let some (v, seq) ← berExpect mem 0x02 seq | return .error undecoded
  let out : TrapContent := { undecoded with version := (← snmpBerInt mem v).toInt32 }
  if out.version = 3 then
    return .error { out with
      name := "snmpv3Trap".toList, category := "trap".toList, alertable := true
      description := "SNMPv3 trap received - sysmond does not hold the v3 keys to decode it".toList }
  if out.version ≠ 0 ∧ out.version ≠ 1 then return .error out
  let some (v, seq) ← berExpect mem 0x04 seq | return .error out
  let out : TrapContent := { out with community := ← berStringStr mem 64 v }
  let some (tag, v, _) ← snmpBerNext mem seq | return .error out
  let pdu ← snmpBerOpen v
  if tag = 0xa4 then
    match ← decodeV1 mem pdu out with
    | .error out => return .error out
    | .ok (pdu, out) => return .ok (← decodeRest mem pdu out)
  else if tag = 0xa7 ∨ tag = 0xa6 then
    let out : TrapContent := { out with inform := tag = 0xa6 }
    let some pdu ← decodeV2 mem pdu | return .error out
    return .ok (← decodeRest mem pdu out)
  else
    return .error { out with
      name := "non-trap".toList
      description := snprintf trapValLen ("SNMP PDU type 0x".toList ++ hexByte tag ++
        " on the trap port - not a trap".toList) }

end code

/-! ### Inside the packet -/

section keeps

variable {mem : Memory} {size : Nat}

theorem keeps_berExpect (tag : UInt8) {c : BerCursor} (h : c.Inside size) :
    Keeps (InPacket size) (berExpect mem tag c) fun r =>
      (∀ x ∈ r, x.1.Inside size ∧ x.2.Inside size) ∧
        Trap.berExpect tag (c.rest mem) = r.map fun x => (x.1.octets mem, x.2.rest mem) := by
  rw [berExpect, Trap.berExpect]
  refine (keeps_snmpBerNext h).bind fun r hr => ?_
  obtain ⟨hinside, hnext⟩ := hr
  rw [hnext]
  cases r with
  | none => exact keeps_pure ⟨fun _ hx => absurd hx (Option.not_mem_none _), rfl⟩
  | some r =>
      obtain ⟨t, v, c⟩ := r
      refine keeps_pure ⟨fun x hx => ?_, ?_⟩
      · obtain ⟨-, heq⟩ := Option.ite_none_right_eq_some.mp hx
        obtain rfl := Option.some.inj heq
        exact hinside _ rfl
      · dsimp only [Option.map_some]
        split <;> rfl

theorem keeps_nextVarbind {list : BerCursor} (h : list.Inside size) :
    Keeps (InPacket size) (nextVarbind mem list) fun r =>
      (∀ x ∈ r, x.2.Inside size) ∧
        Trap.nextVarbind (list.rest mem) = r.map fun x => (x.1, x.2.rest mem) := by
  rw [nextVarbind, Trap.nextVarbind]
  refine (keeps_berExpect 0x30 h).bind fun r hr => ?_
  obtain ⟨hinside, hnext⟩ := hr
  rw [hnext]
  cases r with
  | none => exact keeps_pure ⟨fun _ hx => absurd hx (Option.not_mem_none _), rfl⟩
  | some r =>
  obtain ⟨v, list⟩ := r
  obtain ⟨hv, hlist⟩ := hinside _ rfl
  refine (keeps_snmpBerOpen mem hv).bind fun vb hvb => ?_
  obtain ⟨hinside, hrest⟩ := hvb
  simp only [Option.map_some, Option.bind_eq_bind, Option.bind_some, ← hrest]
  refine (keeps_berExpect 0x06 hinside).bind fun r hr => ?_
  obtain ⟨hinside, hnext⟩ := hr
  rw [hnext]
  cases r with
  | none => exact keeps_pure ⟨fun _ hx => absurd hx (Option.not_mem_none _), rfl⟩
  | some r =>
  obtain ⟨oid, vb⟩ := r
  obtain ⟨hoid, hvb⟩ := hinside _ rfl
  refine (keeps_snmpBerOidStr hoid trapOidLen).bind fun text htext => ?_
  refine (keeps_snmpBerNext hvb).bind fun r hr => ?_
  obtain ⟨hinside, hnext⟩ := hr
  simp only [Option.map_some, Option.bind_some, hnext, ← htext]
  cases r with
  | none => exact keeps_pure ⟨fun _ hx => absurd hx (Option.not_mem_none _), rfl⟩
  | some r =>
  obtain ⟨vtag, vval, vb⟩ := r
  refine (keeps_berValueStr vtag (hinside _ rfl).1).bind fun texts htexts => ?_
  simp only [Option.map_some, Option.bind_some, ← htexts]
  refine keeps_pure ⟨fun x hx => ?_, rfl⟩
  obtain rfl := Option.some.inj hx
  exact hlist

theorem keeps_varbindLoop {list : BerCursor} (h : list.Inside size) (out : TrapContent) :
    Keeps (InPacket size) (varbindLoop mem list out)
      (· = Trap.varbindLoop (trapMaxVarbind - out.vb.length) (list.rest mem) out) := by
  induction hroom : trapMaxVarbind - out.vb.length generalizing list out with
  | zero =>
      rw [varbindLoop, dif_neg (by omega)]
      exact keeps_pure rfl
  | succ room ih =>
      rw [varbindLoop, dif_pos (by omega), Trap.varbindLoop]
      refine (keeps_nextVarbind h).bind fun r hr => ?_
      obtain ⟨hinside, hnext⟩ := hr
      rw [hnext]
      cases r with
      | none => exact keeps_pure rfl
      | some r =>
          obtain ⟨b, list⟩ := r
          refine ih (hinside _ rfl) (noteVarbind out (noteStatus b)) ?_
          rw [Trap.length_vb_noteVarbind]
          omega

theorem keeps_decodeVarbinds {pdu : BerCursor} (h : pdu.Inside size) (out : TrapContent) :
    Keeps (InPacket size) (decodeVarbinds mem pdu out)
      (· = Trap.decodeVarbinds (pdu.rest mem) out) := by
  rw [decodeVarbinds, Trap.decodeVarbinds]
  refine (keeps_berExpect 0x30 h).bind fun r hr => ?_
  obtain ⟨hinside, hnext⟩ := hr
  rw [hnext]
  cases r with
  | none => exact keeps_pure rfl
  | some r =>
      refine (keeps_snmpBerOpen mem (hinside _ rfl).1).bind fun list hlist => ?_
      dsimp only [Option.map_some]
      rw [← hlist.2]
      exact keeps_varbindLoop hlist.1 out

theorem keeps_decodeRest {pdu : BerCursor} (h : pdu.Inside size) (out : TrapContent) :
    Keeps (InPacket size) (decodeRest mem pdu out) (· = Trap.decodeRest (pdu.rest mem) out) := by
  refine (keeps_decodeVarbinds h out).bind fun out' hout => keeps_pure ?_
  rw [hout, Trap.decodeRest]

theorem keeps_decodeV2 {pdu : BerCursor} (h : pdu.Inside size) :
    Keeps (InPacket size) (decodeV2 mem pdu) fun r =>
      (∀ c ∈ r, c.Inside size) ∧ Trap.decodeV2 (pdu.rest mem) = r.map fun c => c.rest mem := by
  rw [decodeV2, Trap.decodeV2]
  refine (keeps_berExpect 0x02 h).bind fun r hr => ?_
  obtain ⟨hinside, hnext⟩ := hr
  rw [hnext]
  cases r with
  | none => exact keeps_pure ⟨fun _ hx => absurd hx (Option.not_mem_none _), rfl⟩
  | some r =>
  refine (keeps_berExpect 0x02 (hinside _ rfl).2).bind fun r hr => ?_
  obtain ⟨hinside, hnext⟩ := hr
  simp only [Option.map_some, Option.bind_eq_bind, Option.bind_some, hnext]
  cases r with
  | none => exact keeps_pure ⟨fun _ hx => absurd hx (Option.not_mem_none _), rfl⟩
  | some r =>
  refine (keeps_berExpect 0x02 (hinside _ rfl).2).bind fun r hr => ?_
  obtain ⟨hinside, hnext⟩ := hr
  simp only [Option.map_some, Option.bind_some, hnext]
  cases r with
  | none => exact keeps_pure ⟨fun _ hx => absurd hx (Option.not_mem_none _), rfl⟩
  | some r =>
  refine keeps_pure ⟨fun c hc => ?_, rfl⟩
  obtain rfl := Option.some.inj hc
  exact (hinside _ rfl).2

theorem keeps_agentAddr {v : BerValue} (h : v.Inside size) (t : UInt8) (agent : List Char) :
    Keeps (InPacket size) (agentAddr mem t v agent)
      (· = if t = 0x40 ∧ (v.octets mem).length = 4 then dottedQuad (v.octets mem) else agent) := by
  rw [v.length_octets]
  refine keeps_ite (fun _ => ?_) fun _ => keeps_pure rfl
  refine ((keeps_forEach h _ []).mono fun bytes hbytes => ?_).map
  rw [hbytes, foldl_concat, List.nil_append]

theorem keeps_timeStamp {v : BerValue} (h : v.Inside size) (t : UInt8) (uptime : UInt64) :
    Keeps (InPacket size) (timeStamp mem t v uptime)
      (· = if t = 0x43 then Trap.snmpBerUint (v.octets mem) else uptime) :=
  keeps_ite (fun _ => keeps_snmpBerUint h) fun _ => keeps_pure rfl

theorem keeps_decodeV1 {pdu : BerCursor} (h : pdu.Inside size) (out : TrapContent) :
    Keeps (InPacket size) (decodeV1 mem pdu out) fun r =>
      (∀ x, r = .ok x → x.1.Inside size) ∧
        Trap.decodeV1 (pdu.rest mem) out = r.map fun x => (x.1.rest mem, x.2) := by
  rw [decodeV1, Trap.decodeV1]
  refine (keeps_berExpect 0x06 h).bind fun r hr => ?_
  obtain ⟨hinside, hnext⟩ := hr
  rw [hnext]
  cases r with
  | none => exact keeps_pure ⟨fun _ hx => by contradiction, rfl⟩
  | some r =>
  obtain ⟨hv, hpdu⟩ := hinside _ rfl
  refine (keeps_snmpBerOidStr hv trapOidLen).bind fun enterprise henterprise => ?_
  refine (keeps_snmpBerNext hpdu).bind fun r hr => ?_
  obtain ⟨hinside, hnext⟩ := hr
  simp only [Option.map_some, ← henterprise, hnext]
  cases r with
  | none => exact keeps_pure ⟨fun _ hx => by contradiction, rfl⟩
  | some r =>
  obtain ⟨t, v, pdu⟩ := r
  obtain ⟨hv, hpdu⟩ := hinside _ rfl
  refine (keeps_agentAddr hv t out.agent).bind fun agent hagent => ?_
  refine (keeps_berExpect 0x02 hpdu).bind fun r hr => ?_
  obtain ⟨hinside, hnext⟩ := hr
  simp only [Option.map_some, ← hagent, hnext]
  cases r with
  | none => exact keeps_pure ⟨fun _ hx => by contradiction, rfl⟩
  | some r =>
  obtain ⟨hv, hpdu⟩ := hinside _ rfl
  refine (keeps_snmpBerInt hv).bind fun generic hgeneric => ?_
  refine (keeps_berExpect 0x02 hpdu).bind fun r hr => ?_
  obtain ⟨hinside, hnext⟩ := hr
  simp only [Option.map_some, ← hgeneric, hnext]
  cases r with
  | none => exact keeps_pure ⟨fun _ hx => by contradiction, rfl⟩
  | some r =>
  obtain ⟨hv, hpdu⟩ := hinside _ rfl
  refine (keeps_snmpBerInt hv).bind fun specific hspecific => ?_
  refine (keeps_snmpBerNext hpdu).bind fun r hr => ?_
  obtain ⟨hinside, hnext⟩ := hr
  simp only [Option.map_some, ← hspecific, hnext]
  cases r with
  | none => exact keeps_pure ⟨fun _ hx => by contradiction, rfl⟩
  | some r =>
  obtain ⟨t, v, pdu⟩ := r
  obtain ⟨hv, hpdu⟩ := hinside _ rfl
  refine (keeps_timeStamp hv t out.uptime).bind fun uptime huptime => ?_
  simp only [Option.map_some, ← huptime]
  refine keeps_pure ⟨fun x hx => ?_, rfl⟩
  obtain rfl := Except.ok.inj hx
  exact hpdu

/-- The decoder reads the packet and nothing else, and what it makes of it is what the decoder over
lists of bytes makes of it. -/
theorem keeps_decodeSnmpTrap (mem : Memory) (len : Nat) :
    Keeps (InPacket len) (decodeSnmpTrap mem len) (· = Trap.decodeSnmpTrap (octets mem 0 len)) := by
  rw [decodeSnmpTrap, Trap.decodeSnmpTrap]
  by_cases hempty : len = 0
  · rw [if_pos hempty, hempty]
    exact keeps_pure rfl
  rw [if_neg hempty]
  have hpacket : BerValue.Inside len ⟨0, len⟩ := (Nat.zero_add len).le
  refine (keeps_snmpBerOpen mem hpacket).bind fun msg hmsg => ?_
  obtain ⟨hinside, hrest⟩ := hmsg
  rw [show octets mem 0 len = msg.rest mem from hrest.symm]
  refine (keeps_berExpect 0x30 hinside).bind fun r hr => ?_
  obtain ⟨hinside, hnext⟩ := hr
  rw [hnext]
  cases r with
  | none => exact keeps_pure rfl
  | some r =>
  refine (keeps_snmpBerOpen mem (hinside _ rfl).1).bind fun seq hseq => ?_
  obtain ⟨hinside, hrest⟩ := hseq
  simp only [Option.map_some, ← hrest]
  refine (keeps_berExpect 0x02 hinside).bind fun r hr => ?_
  obtain ⟨hinside, hnext⟩ := hr
  rw [hnext]
  cases r with
  | none => exact keeps_pure rfl
  | some r =>
  obtain ⟨hv, hseq⟩ := hinside _ rfl
  refine (keeps_snmpBerInt hv).bind fun version hversion => ?_
  simp only [Option.map_some, ← hversion]
  refine keeps_ite (fun _ => keeps_pure rfl) fun _ => ?_
  refine keeps_ite (fun _ => keeps_pure rfl) fun _ => ?_
  refine (keeps_berExpect 0x04 hseq).bind fun r hr => ?_
  obtain ⟨hinside, hnext⟩ := hr
  rw [hnext]
  cases r with
  | none => exact keeps_pure rfl
  | some r =>
  obtain ⟨hv, hseq⟩ := hinside _ rfl
  refine (keeps_berStringStr hv (by decide)).bind fun community hcommunity => ?_
  refine (keeps_snmpBerNext hseq).bind fun r hr => ?_
  obtain ⟨hinside, hnext⟩ := hr
  simp only [Option.map_some, ← hcommunity, hnext]
  cases r with
  | none => exact keeps_pure rfl
  | some r =>
  obtain ⟨tag, v, seq⟩ := r
  refine (keeps_snmpBerOpen mem (hinside _ rfl).1).bind fun pdu hpdu => ?_
  obtain ⟨hinside, hrest⟩ := hpdu
  simp only [Option.map_some, ← hrest]
  refine keeps_ite (fun _ => ?_) fun _ => ?_
  · refine (keeps_decodeV1 hinside _).bind fun r hr => ?_
    obtain ⟨hinside, hnext⟩ := hr
    rw [hnext]
    cases r with
    | error out => exact keeps_pure rfl
    | ok r => exact (keeps_decodeRest (hinside _ rfl) r.2).bind fun out hout => keeps_pure (by rw [hout]; rfl)
  refine keeps_ite (fun _ => ?_) fun _ => keeps_pure rfl
  refine (keeps_decodeV2 hinside).bind fun r hr => ?_
  obtain ⟨hinside, hnext⟩ := hr
  rw [hnext]
  cases r with
  | none => exact keeps_pure rfl
  | some pdu => exact (keeps_decodeRest (hinside _ rfl) _).bind fun out hout => keeps_pure (by rw [hout]; rfl)

end keeps

end Sysmon.Packet
