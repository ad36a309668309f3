import Sysmon.Packet.Ber

/-!
# The text of a value, read by index

`snmp_ber_oid_str`, `ber_string_str` and `ber_value_str`. The loops of the first two may stop before
the end of the value: they go over a list of indices, and stop where the code stops.
-/

namespace Sysmon.Packet

open Logged CText
open Trap (snprintf trapMaxSubids trapValLen oidStrFirst printable hexByte ticksNote dottedQuad)

section code

variable (mem : Memory)

/-- The loop of `snmp_ber_oid_str`, over the indices that are left. -/
def oidStrLoop (outlen : Nat) (v : BerValue) :
    List Nat → Nat → Nat → Nat → List Char → Decode (List Char)
  | [], _, _, _, out => return out
  | i :: is, sub, shifted, subids, out =>
      -- the octet is passed over without a look at it
      if 4 < shifted then oidStrLoop outlen v is 0 0 subids out
      else do
        let b ← octet mem (v.val + i)
        let sub := sub * 128 + b.toNat % 128
        if 128 ≤ b.toNat then oidStrLoop outlen v is sub (shifted + 1) subids out
        else if trapMaxSubids < subids + 1 then return out
        else
          let part := '.' :: showNat sub
          if outlen ≤ out.length + part.length + 1 then return out
          else oidStrLoop outlen v is 0 0 (subids + 1) (out ++ part)

def snmpBerOidStr (outlen : Nat) (v : BerValue) : Decode (List Char) := do
  if v.vlen = 0 then return []
  let b ← octet mem v.val
  oidStrLoop mem outlen v (List.range' 1 (v.vlen - 1)) 0 0 0 (snprintf outlen (oidStrFirst b))

/-- The first loop of `ber_string_str`, which stops at the first octet that cannot be printed. -/
def printableLoop (v : BerValue) : List Nat → Decode Bool
  | [] => return true
  | i :: is => do
      let b ← octet mem (v.val + i)
      if printable b then printableLoop v is else return false

/-- The other two loops, as long as there is room for what an octet is written as. -/
def textLoop (outlen room : Nat) (put : UInt8 → List Char) (v : BerValue) :
    List Nat → List Char → Decode (List Char)
  | [], out => return out
  | i :: is, out =>
      if out.length + room < outlen then do
        let b ← octet mem (v.val + i)
        textLoop outlen room put v is (out ++ put b)
      else return out

def berStringStr (outlen : Nat) (v : BerValue) : Decode (List Char) := do
  if ← printableLoop mem v (List.range v.vlen) then
    textLoop mem outlen 1 (fun b => [if b < 0x20 then ' ' else Char.ofNat b.toNat]) v
      (List.range v.vlen) []
  else textLoop mem outlen 3 hexByte v (List.range v.vlen) []

/-- The `switch` of `ber_value_str`. -/
def berValueTexts (tag : UInt8) (v : BerValue) : Decode (List Char × List Char × List Char) := do
  if tag = 0x02 then return ("INTEGER".toList, showInt (← snmpBerInt mem v).toInt, [])
  else if tag = 0x04 then return ("STRING".toList, ← berStringStr mem trapValLen v, [])
  else if tag = 0x05 then return ("NULL".toList, [], [])
  else if tag = 0x06 then return ("OID".toList, ← snmpBerOidStr mem trapValLen v, [])
  else if tag = 0x40 then
    if v.vlen = 4 then
      return ("IpAddress".toList, dottedQuad (← v.forEach mem (fun bs b => bs ++ [b]) []), [])
    else return ("IpAddress".toList, ← berStringStr mem trapValLen v, [])
  else if tag = 0x41 then return ("Counter32".toList, showNat (← snmpBerUint mem v).toNat, [])
  else if tag = 0x42 then return ("Gauge32".toList, showNat (← snmpBerUint mem v).toNat, [])
  else if tag = 0x43 then
    let ticks ← snmpBerUint mem v
    return ("TimeTicks".toList, showNat ticks.toNat, ticksNote ticks.toNat)
  else if tag = 0x46 then return ("Counter64".toList, showNat (← snmpBerUint mem v).toNat, [])
  else if tag = 0x44 then return ("Opaque".toList, ← berStringStr mem trapValLen v, [])
  else if tag = 0x80 then return ("noSuchObject".toList, [], [])
  else if tag = 0x81 then return ("noSuchInstance".toList, [], [])
  else if tag = 0x82 then return ("endOfMibView".toList, [], [])
  else return ("tag 0x".toList ++ hexByte tag, ← berStringStr mem trapValLen v, [])

/-- Type, value and note of a varbind. -/
def berValueStr (tag : UInt8) (v : BerValue) : Decode (List Char × List Char × List Char) := do
  let texts ← berValueTexts mem tag v
  return (snprintf 16 texts.1, snprintf trapValLen texts.2.1, snprintf trapValLen texts.2.2)

end code

/-! ### Inside the packet -/

section keeps

variable {mem : Memory} {size : Nat} {v : BerValue}

/-- The octets at some indices of a value. -/
def BerValue.pick (mem : Memory) (v : BerValue) (is : List Nat) : List UInt8 :=
  is.map fun i => mem (v.val + i)

theorem keeps_octet_index (h : v.Inside size) {i : Nat} (hi : i < v.vlen) :
    Keeps (InPacket size) (octet mem (v.val + i)) (· = mem (v.val + i)) :=
  keeps_octet (lt_of_lt_of_le (Nat.add_lt_add_left hi _) h)

theorem keeps_oidStrLoop (h : v.Inside size) {outlen : Nat} {is : List Nat}
    (his : ∀ i ∈ is, i < v.vlen) (sub shifted subids : Nat) (out : List Char) :
    Keeps (InPacket size) (oidStrLoop mem outlen v is sub shifted subids out)
      (· = Trap.oidStrLoop outlen (v.pick mem is) sub shifted subids out) := by
  induction is generalizing sub shifted subids out with
  | nil => exact keeps_pure rfl
  | cons i is ih =>
      have hrest : ∀ j ∈ is, j < v.vlen := fun j hj => his j (List.mem_cons_of_mem i hj)
      have hpick : v.pick mem (i :: is) = mem (v.val + i) :: v.pick mem is := rfl
      rw [oidStrLoop, hpick, Trap.oidStrLoop]
      by_cases hgiven : 4 < shifted
      · rw [if_pos hgiven, if_pos hgiven]
        exact ih hrest _ _ _ _
      rw [if_neg hgiven, if_neg hgiven]
      refine (keeps_octet_index h (his i List.mem_cons_self)).bind fun b hb => ?_
      rw [hb]
      dsimp only
      generalize mem (v.val + i) = b
      split
      · exact ih hrest _ _ _ _
      split
      · exact keeps_pure rfl
      split
      · exact keeps_pure rfl
      · exact ih hrest _ _ _ _

theorem keeps_snmpBerOidStr (h : v.Inside size) (outlen : Nat) :
    Keeps (InPacket size) (snmpBerOidStr mem outlen v)
      (· = Trap.snmpBerOidStr outlen (v.octets mem)) := by
  rw [snmpBerOidStr]
  by_cases hempty : v.vlen = 0
  · rw [if_pos hempty, BerValue.octets, hempty]
    exact keeps_pure rfl
  rw [if_neg hempty]
  have hcons : v.octets mem = mem v.val :: v.pick mem (List.range' 1 (v.vlen - 1)) := by
    rw [v.octets_eq_map, BerValue.pick, List.range_eq_range', show v.vlen = v.vlen - 1 + 1 by omega]
    rfl
  rw [hcons, Trap.snmpBerOidStr]
  have hfirst : v.val < size := lt_of_lt_of_le (by omega) h
  refine (keeps_octet hfirst).bind fun b hb => ?_
  rw [hb]
  refine keeps_oidStrLoop h (fun i hi => ?_) _ _ _ _
  have := List.mem_range'_1.mp hi
  omega

theorem keeps_printableLoop (h : v.Inside size) {is : List Nat} (his : ∀ i ∈ is, i < v.vlen) :
    Keeps (InPacket size) (printableLoop mem v is) (· = (v.pick mem is).all printable) := by
  induction is with
  | nil => exact keeps_pure rfl
  | cons i is ih =>
      refine (keeps_octet_index h (his i List.mem_cons_self)).bind fun b hb => ?_
      rw [hb]
      have hall : (v.pick mem (i :: is)).all printable =
          (printable (mem (v.val + i)) && (v.pick mem is).all printable) := rfl
      rw [hall]
      cases printable (mem (v.val + i)) with
      | true => exact ih fun j hj => his j (List.mem_cons_of_mem i hj)
      | false => exact keeps_pure rfl

theorem ceilDiv_step {room width : Nat} (hroom : 0 < room) (hwidth : 0 < width) :
    (room + (width - 1)) / width = (room - width + (width - 1)) / width + 1 := by
  rcases Nat.lt_or_ge room width with hlast | hmore
  · have hzero : (room - width + (width - 1)) / width = 0 := Nat.div_eq_of_lt (by omega)
    rw [hzero]
    exact Nat.div_eq_of_lt_le (by omega) (by omega)
  · rw [show room + (width - 1) = room - width + (width - 1) + width by omega,
      Nat.add_div_right _ hwidth]

/-- As many octets are written as there is room for, each of them as wide as the others. -/
theorem keeps_textLoop (h : v.Inside size) {outlen room width : Nat} (hwidth : 0 < width)
    {put : UInt8 → List Char} (hput : ∀ b, (put b).length = width) {is : List Nat}
    (his : ∀ i ∈ is, i < v.vlen) (out : List Char) :
    Keeps (InPacket size) (textLoop mem outlen room put v is out)
      (· = out ++ ((v.pick mem is).take ((outlen - room - out.length + (width - 1)) / width)).flatMap
        put) := by
  induction is generalizing out with
  | nil => exact keeps_pure (by simp [BerValue.pick])
  | cons i is ih =>
      have hpick : v.pick mem (i :: is) = mem (v.val + i) :: v.pick mem is := rfl
      rw [textLoop, hpick]
      by_cases hroom : out.length + room < outlen
      · rw [if_pos hroom]
        refine (keeps_octet_index h (his i List.mem_cons_self)).bind fun b hb => ?_
        rw [hb]
        have hstep := ih (fun j hj => his j (List.mem_cons_of_mem i hj)) (out ++ put (mem (v.val + i)))
        have hcount : (outlen - room - out.length + (width - 1)) / width =
            (outlen - room - (out.length + width) + (width - 1)) / width + 1 := by
          rw [← Nat.sub_sub (outlen - room), ceilDiv_step (by omega) hwidth]
        rw [hcount, List.take_succ_cons, List.flatMap_cons, ← List.append_assoc]
        rwa [List.length_append, hput] at hstep
      · rw [if_neg hroom]
        refine keeps_pure ?_
        have hnone : (outlen - room - out.length + (width - 1)) / width = 0 :=
          Nat.div_eq_of_lt (by omega)
        rw [hnone, List.take_zero, List.flatMap_nil, List.append_nil]

theorem BerValue.pick_range : v.pick mem (List.range v.vlen) = v.octets mem :=
  v.octets_eq_map.symm

theorem keeps_berStringStr (h : v.Inside size) {outlen : Nat} (hout : 2 ≤ outlen) :
    Keeps (InPacket size) (berStringStr mem outlen v)
      (· = Trap.berStringStr outlen (v.octets mem)) := by
  have hall : ∀ i ∈ List.range v.vlen, i < v.vlen := fun _ => List.mem_range.mp
  rw [berStringStr, Trap.berStringStr]
  refine (keeps_printableLoop h hall).bind fun printed hprinted => ?_
  rw [hprinted, v.pick_range]
  cases (v.octets mem).all printable with
  | true =>
      refine (keeps_textLoop h Nat.one_pos (fun _ => rfl) hall []).mono fun out hout => ?_
      rw [hout, v.pick_range, Nat.div_one, if_pos rfl, List.map_eq_flatMap]
      rfl
  | false =>
      refine (keeps_textLoop h Nat.two_pos (fun _ => rfl) hall []).mono fun out hout' => ?_
      have hcount : (outlen - 3 - ([] : List Char).length + (2 - 1)) / 2 = (outlen - 2) / 2 := by
        change (outlen - 3 - 0 + 1) / 2 = _
        omega
      rw [hout', v.pick_range, hcount]
      rfl

theorem foldl_concat (bytes bs : List UInt8) :
    bytes.foldl (fun bs b => bs ++ [b]) bs = bs ++ bytes := by
  induction bytes generalizing bs with
  | nil => exact (List.append_nil bs).symm
  | cons b bytes ih => rw [List.foldl_cons, ih, List.append_assoc, List.singleton_append]

theorem keeps_berValueTexts (tag : UInt8) (h : v.Inside size) :
    ∃ texts, Trap.berValueStr tag (v.octets mem) =
        (snprintf 16 texts.1, snprintf trapValLen texts.2.1, snprintf trapValLen texts.2.2) ∧
      Keeps (InPacket size) (berValueTexts mem tag v) (· = texts) := by
  have hstring : Keeps (InPacket size) (berStringStr mem trapValLen v)
      (· = Trap.berStringStr trapValLen (v.octets mem)) := keeps_berStringStr h (by decide)
  have hoid : Keeps (InPacket size) (snmpBerOidStr mem trapValLen v)
      (· = Trap.snmpBerOidStr trapValLen (v.octets mem)) := keeps_snmpBerOidStr h trapValLen
  have hint : Keeps (InPacket size) (snmpBerInt mem v) (· = Snmp.snmpBerInt (v.octets mem)) :=
    keeps_snmpBerInt h
  have huint : Keeps (InPacket size) (snmpBerUint mem v) (· = Trap.snmpBerUint (v.octets mem)) :=
    keeps_snmpBerUint h
  refine ⟨_, rfl, ?_⟩
  refine keeps_ite (fun _ => hint.bind fun x hx => keeps_pure (by rw [hx])) fun _ => ?_
  refine keeps_ite (fun _ => hstring.bind fun x hx => keeps_pure (by rw [hx])) fun _ => ?_
  refine keeps_ite (fun _ => keeps_pure rfl) fun _ => ?_
  refine keeps_ite (fun _ => hoid.bind fun x hx => keeps_pure (by rw [hx])) fun _ => ?_
  refine keeps_ite (fun _ => ?_) fun _ => ?_
  · rw [v.length_octets]
    split
    · refine (keeps_forEach h _ []).bind fun x hx => keeps_pure ?_
      rw [hx, foldl_concat, List.nil_append]
    · exact hstring.bind fun x hx => keeps_pure (by rw [hx])
  refine keeps_ite (fun _ => huint.bind fun x hx => keeps_pure (by rw [hx])) fun _ => ?_
  refine keeps_ite (fun _ => huint.bind fun x hx => keeps_pure (by rw [hx])) fun _ => ?_
  refine keeps_ite (fun _ => huint.bind fun x hx => keeps_pure (by rw [hx])) fun _ => ?_
  refine keeps_ite (fun _ => huint.bind fun x hx => keeps_pure (by rw [hx])) fun _ => ?_
  refine keeps_ite (fun _ => hstring.bind fun x hx => keeps_pure (by rw [hx])) fun _ => ?_
  refine keeps_ite (fun _ => keeps_pure rfl) fun _ => ?_
  refine keeps_ite (fun _ => keeps_pure rfl) fun _ => ?_
  refine keeps_ite (fun _ => keeps_pure rfl) fun _ => ?_
  exact hstring.bind fun x hx => keeps_pure (by rw [hx])

theorem keeps_berValueStr (tag : UInt8) (h : v.Inside size) :
    Keeps (InPacket size) (berValueStr mem tag v) (· = Trap.berValueStr tag (v.octets mem)) := by
  obtain ⟨texts, htrim, hkeeps⟩ :
      ∃ texts, _ ∧ Keeps (InPacket size) (berValueTexts mem tag v) (· = texts) := keeps_berValueTexts tag h
  refine hkeeps.bind fun texts' htexts => keeps_pure ?_
  rw [htrim, htexts]

end keeps

end Sysmon.Packet
