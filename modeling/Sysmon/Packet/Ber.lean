import Sysmon.Lib.Logged
import Sysmon.Trap.Decode

/-!
# The BER reader at the level of addresses

`snmp_ber_next` and the functions that read a value, as they go over the bytes of a packet by index.
A cursor is a buffer inside the packet, its end and a position; a value is an address and a length.
Every octet that is read is logged, and so is every state a cursor gets into. What lies outside the
packet is memory like any other, so nothing but the checks of the code keeps a read inside. For each
function there is one lemma: its log stays inside the packet, and what it returns is what the reader
over lists of bytes returns.
-/

namespace Sysmon.Packet

open Logged

abbrev Memory := Nat → UInt8

/-- `struct ber_cursor`. Addresses count from the start of the packet. -/
structure BerCursor where
  buf : Nat
  len : Nat
  pos : Nat
  deriving DecidableEq, Repr

/-- The `val` and `vlen` of an element. -/
structure BerValue where
  val : Nat
  vlen : Nat
  deriving DecidableEq, Repr

inductive Access
  | octet (address : Nat)
  | cursor (c : BerCursor)
  deriving DecidableEq, Repr

abbrev Decode := Writer (List Access)

/-! ### The code -/

section code

variable (mem : Memory)

def octet (address : Nat) : Decode UInt8 := do
  tell [.octet address]
  return mem address

def snmpBerOpen (v : BerValue) : Decode BerCursor := do
  tell [.cursor ⟨v.val, v.vlen, 0⟩]
  return ⟨v.val, v.vlen, 0⟩

def BerCursor.advance (c : BerCursor) (n : Nat) : Decode BerCursor := do
  tell [.cursor { c with pos := c.pos + n }]
  return { c with pos := c.pos + n }

/-- `c->buf[c->pos++]`. -/
def BerCursor.take (c : BerCursor) : Decode (UInt8 × BerCursor) := do
  let b ← octet mem (c.buf + c.pos)
  return (b, ← c.advance 1)

/-- The loop over the octets of a long length, at most four of them. -/
def lengthLoop : Nat → Nat → BerCursor → Decode (Nat × BerCursor)
  | 0, l, c => return (l, c)
  | n + 1, l, c => do
      let (b, c) ← c.take mem
      lengthLoop n (l * 256 + b.toNat) c

/-- The length of an element, from its first octet. -/
def berLength (l : UInt8) (c : BerCursor) : Decode (Option (Nat × BerCursor)) :=
  if l &&& 0x80 ≠ 0 then
    let n := (l &&& 0x7f).toNat
    if n = 0 ∨ 4 < n then return none
    else if c.len < c.pos + n then return none
    else some <$> lengthLoop mem n 0 c
  else return some (l.toNat, c)

/-- What is left before the end, in a `size_t`: it would wrap. -/
def BerCursor.left (c : BerCursor) : Nat :=
  if c.pos ≤ c.len then c.len - c.pos else c.len + 2 ^ 64 - c.pos

def snmpBerNext (c : BerCursor) : Decode (Option (UInt8 × BerValue × BerCursor)) := do
  if c.len ≤ c.pos then return none
  let (t, c) ← c.take mem
  if t &&& 0x1f = 0x1f then return none
  if c.len ≤ c.pos then return none
  let (l, c) ← c.take mem
  match ← berLength mem l c with
  | none => return none
  | some (l, c) =>
      if c.left < l then return none
      return some (t, ⟨c.buf + c.pos, l⟩, ← c.advance l)

/-- `for (i = 0; i < vlen; i++)`. -/
def BerValue.forEach {β : Type} (v : BerValue) (f : β → UInt8 → β) (b : β) : Decode β :=
  (List.range v.vlen).foldlM (fun acc i => f acc <$> octet mem (v.val + i)) b

/-- One more octet of a number. -/
def shiftIn (acc : UInt64) (b : UInt8) : UInt64 := (acc <<< 8) ||| b.toUInt64

def snmpBerInt (v : BerValue) : Decode Int64 := do
  if v.vlen = 0 ∨ 8 < v.vlen then return 0
  let first ← octet mem v.val
  let acc ← v.forEach mem shiftIn (if first &&& 0x80 ≠ 0 then ~~~0 else 0)
  return if acc ≤ 0x7fffffffffffffff then acc.toInt64 else -(~~~acc).toInt64 - 1

def snmpBerUint (v : BerValue) : Decode UInt64 := do
  if v.vlen = 0 ∨ 8 < v.vlen then return 0
  v.forEach mem shiftIn 0

end code

/-! ### Inside the packet -/

/-- What a range of addresses holds. -/
def octets (mem : Memory) (address n : Nat) : List UInt8 := (List.range' address n).map mem

theorem octets_succ (mem : Memory) (address n : Nat) :
    octets mem address (n + 1) = mem address :: octets mem (address + 1) n := rfl

theorem length_octets (mem : Memory) (address n : Nat) : (octets mem address n).length = n := by
  rw [octets, List.length_map, List.length_range']

theorem take_octets (mem : Memory) (address : Nat) {k n : Nat} (h : k ≤ n) :
    (octets mem address n).take k = octets mem address k := by
  rw [octets, ← List.map_take, List.take_range'_of_length_ge h, octets]

theorem drop_octets (mem : Memory) (address k n : Nat) :
    (octets mem address n).drop k = octets mem (address + k) (n - k) := by
  rw [octets, ← List.map_drop, List.drop_range', Nat.mul_one, octets]

section bounds

variable (size : Nat)

def BerCursor.Inside (c : BerCursor) : Prop := c.pos ≤ c.len ∧ c.buf + c.len ≤ size

def BerValue.Inside (v : BerValue) : Prop := v.val + v.vlen ≤ size

def InPacket : Access → Prop
  | .octet address => address < size
  | .cursor c => c.Inside size

end bounds

section keeps

variable {mem : Memory} {size : Nat}

/-- What is left of a cursor's buffer. -/
def BerCursor.rest (mem : Memory) (c : BerCursor) : List UInt8 :=
  octets mem (c.buf + c.pos) (c.len - c.pos)

def BerValue.octets (mem : Memory) (v : BerValue) : List UInt8 := Packet.octets mem v.val v.vlen

theorem BerValue.length_octets (v : BerValue) : (v.octets mem).length = v.vlen :=
  Packet.length_octets mem v.val v.vlen

theorem keeps_octet {address : Nat} (h : address < size) :
    Keeps (InPacket size) (octet mem address) (· = mem address) :=
  Keeps.bind (keeps_tell h) fun _ _ => keeps_pure rfl

theorem keeps_snmpBerOpen (mem : Memory) {v : BerValue} (h : v.Inside size) :
    Keeps (InPacket size) (snmpBerOpen v) fun c => c.Inside size ∧ c.rest mem = v.octets mem := by
  have hinside : (⟨v.val, v.vlen, 0⟩ : BerCursor).Inside size := ⟨Nat.zero_le _, h⟩
  exact Keeps.bind (keeps_tell hinside) fun _ _ => keeps_pure ⟨hinside, rfl⟩

theorem keeps_advance {c : BerCursor} {n : Nat} (h : c.Inside size) (hn : c.pos + n ≤ c.len) :
    Keeps (InPacket size) (c.advance n) (· = { c with pos := c.pos + n }) :=
  Keeps.bind (keeps_tell (show BerCursor.Inside size { c with pos := c.pos + n } from ⟨hn, h.2⟩))
    fun _ _ => keeps_pure rfl

theorem keeps_take {c : BerCursor} (h : c.Inside size) (hlt : c.pos < c.len) :
    Keeps (InPacket size) (c.take mem)
      (· = (mem (c.buf + c.pos), { c with pos := c.pos + 1 })) := by
  have haddress : c.buf + c.pos < size := by
    have := h.2
    omega
  refine (keeps_octet haddress).bind fun b hb => (keeps_advance h hlt).bind fun c' hc' => ?_
  rw [hb, hc']
  exact keeps_pure rfl

theorem rest_of_lt {c : BerCursor} (hlt : c.pos < c.len) :
    c.rest mem = mem (c.buf + c.pos) :: BerCursor.rest mem { c with pos := c.pos + 1 } := by
  rw [BerCursor.rest, show c.len - c.pos = c.len - (c.pos + 1) + 1 by omega, octets_succ]
  rfl

theorem keeps_lengthLoop {n l : Nat} {c : BerCursor} (h : c.Inside size) (hn : c.pos + n ≤ c.len) :
    Keeps (InPacket size) (lengthLoop mem n l c)
      (· = ((octets mem (c.buf + c.pos) n).foldl (fun l b => l * 256 + b.toNat) l,
        { c with pos := c.pos + n })) := by
  induction n generalizing l c with
  | zero => exact keeps_pure rfl
  | succ n ih =>
      refine (keeps_take h (by omega)).bind fun r hr => ?_
      rw [hr]
      have hnext : BerCursor.Inside size { c with pos := c.pos + 1 } := ⟨by dsimp only; omega, h.2⟩
      refine (ih hnext (by dsimp only; omega)).mono fun r hr => ?_
      rw [hr, octets_succ, List.foldl_cons, Nat.add_assoc c.buf, Nat.add_assoc c.pos, Nat.add_comm 1]

/-- The length of an element and what follows it, in a list of bytes. -/
def lengthOf (l : UInt8) (rest : List UInt8) : Option (Nat × List UInt8) :=
  if l &&& 0x80 ≠ 0 then
    let n := (l &&& 0x7f).toNat
    if n = 0 ∨ 4 < n ∨ rest.length < n then none
    else some (Snmp.berLength (rest.take n), rest.drop n)
  else some (l.toNat, rest)

theorem snmpBerNext_cons (t l : UInt8) (rest : List UInt8) :
    Snmp.snmpBerNext (t :: l :: rest) =
      if t &&& 0x1f = 0x1f then none
      else (lengthOf l rest).bind fun (len, body) =>
        if body.length < len then none else some (t, body.take len, body.drop len) := by
  rw [Snmp.snmpBerNext, lengthOf]
  by_cases htag : t &&& 0x1f = 0x1f
  · rw [if_pos htag, if_pos htag]
  rw [if_neg htag, if_neg htag]
  by_cases hlong : l &&& 0x80 ≠ 0
  · rw [if_pos hlong, if_pos hlong]
    by_cases hcut : (l &&& 0x7f).toNat = 0 ∨ 4 < (l &&& 0x7f).toNat ∨ rest.length < (l &&& 0x7f).toNat
    · rw [if_pos hcut, if_pos hcut]
      rfl
    · rw [if_neg hcut, if_neg hcut]
      rfl
  · rw [if_neg hlong, if_neg hlong]
    rfl

theorem snmpBerNext_multi {t : UInt8} (h : t &&& 0x1f = 0x1f) (rest : List UInt8) :
    Snmp.snmpBerNext (t :: rest) = none := by
  cases rest with
  | nil => rfl
  | cons l rest => rw [snmpBerNext_cons, if_pos h]

theorem keeps_berLength {l : UInt8} {c : BerCursor} (h : c.Inside size) :
    Keeps (InPacket size) (berLength mem l c) fun r =>
      (∀ x ∈ r, x.2.Inside size) ∧ lengthOf l (c.rest mem) = r.map fun x => (x.1, x.2.rest mem) := by
  rw [berLength, lengthOf]
  by_cases hlong : l &&& 0x80 ≠ 0
  · rw [if_pos hlong, if_pos hlong]
    dsimp only
    generalize (l &&& 0x7f).toNat = n
    have hlength : (c.rest mem).length = c.len - c.pos := length_octets _ _ _
    by_cases hcount : n = 0 ∨ 4 < n
    · rw [if_pos hcount, if_pos (by tauto)]
      exact keeps_pure ⟨fun _ hx => (nomatch hx), rfl⟩
    by_cases hcut : c.len < c.pos + n
    · rw [if_neg hcount, if_pos hcut, if_pos (by omega)]
      exact keeps_pure ⟨fun _ hx => (nomatch hx), rfl⟩
    · have hpos := h.1
      have hfits : c.pos + n ≤ c.len := by omega
      rw [if_neg hcount, if_neg hcut, if_neg (by omega)]
      refine ((keeps_lengthLoop h hfits).mono fun r hr => ?_).map
      subst hr
      refine ⟨fun x hx => ?_, ?_⟩
      · obtain rfl := Option.some.inj hx
        exact ⟨hfits, h.2⟩
      · rw [BerCursor.rest, take_octets mem _ (by omega), drop_octets, Nat.add_assoc, Nat.sub_sub]
        rfl
  · rw [if_neg hlong, if_neg hlong]
    exact keeps_pure ⟨fun x hx => by obtain rfl := Option.some.inj hx; exact h, rfl⟩

/-- An element is found where the reader over lists finds one, and lies inside the packet. -/
theorem keeps_snmpBerNext {c : BerCursor} (h : c.Inside size) :
    Keeps (InPacket size) (snmpBerNext mem c) fun r =>
      (∀ x ∈ r, x.2.1.Inside size ∧ x.2.2.Inside size) ∧
        Snmp.snmpBerNext (c.rest mem) = r.map fun x => (x.1, x.2.1.octets mem, x.2.2.rest mem) := by
  rw [snmpBerNext]
  by_cases hend : c.len ≤ c.pos
  · rw [if_pos hend, BerCursor.rest, Nat.sub_eq_zero_of_le hend]
    exact keeps_pure ⟨fun _ hx => (nomatch hx), rfl⟩
  rw [if_neg hend]
  refine (keeps_take h (by omega)).bind fun r hr => ?_
  obtain ⟨t, tagged⟩ := r
  obtain ⟨ht, htagged⟩ := Prod.mk.inj hr
  have htag : tagged.Inside size := htagged ▸ ⟨by dsimp only; omega, h.2⟩
  rw [rest_of_lt (by omega), ← ht, ← htagged]
  clear hr ht htagged hend h
  dsimp only
  by_cases hmulti : t &&& 0x1f = 0x1f
  · rw [if_pos hmulti, snmpBerNext_multi hmulti]
    exact keeps_pure ⟨fun _ hx => (nomatch hx), rfl⟩
  rw [if_neg hmulti]
  by_cases hend : tagged.len ≤ tagged.pos
  · rw [if_pos hend, BerCursor.rest, Nat.sub_eq_zero_of_le hend]
    exact keeps_pure ⟨fun _ hx => (nomatch hx), rfl⟩
  rw [if_neg hend, rest_of_lt (by omega), snmpBerNext_cons, if_neg hmulti]
  refine (keeps_take htag (by omega)).bind fun r hr => ?_
  subst hr
  have hlen : BerCursor.Inside size { tagged with pos := tagged.pos + 1 } :=
    ⟨by dsimp only; omega, htag.2⟩
  refine (keeps_berLength hlen).bind fun r hr => ?_
  obtain ⟨hinside, hlength⟩ := hr
  rw [hlength]
  cases r with
  | none => exact keeps_pure ⟨fun _ hx => (nomatch hx), rfl⟩
  | some r =>
      obtain ⟨l, c⟩ := r
      have hbody : c.Inside size := hinside _ rfl
      have hleft : c.left = (c.rest mem).length := by
        rw [BerCursor.left, if_pos hbody.1, BerCursor.rest, length_octets]
      dsimp only [Option.map_some, Option.bind_some]
      rw [hleft]
      by_cases hcut : (c.rest mem).length < l
      · rw [if_pos hcut, if_pos hcut]
        exact keeps_pure ⟨fun _ hx => (nomatch hx), rfl⟩
      rw [if_neg hcut, if_neg hcut]
      rw [BerCursor.rest, length_octets] at hcut
      have hpos := hbody.1
      have hsize := hbody.2
      refine (keeps_advance hbody (by omega)).bind fun c' hc' => keeps_pure ?_
      subst hc'
      refine ⟨fun x hx => ?_, ?_⟩
      · obtain rfl := Option.some.inj hx
        exact ⟨show c.buf + c.pos + l ≤ size by omega, ⟨by dsimp only; omega, hsize⟩⟩
      · rw [BerCursor.rest, take_octets mem _ (by omega), drop_octets, Nat.add_assoc, Nat.sub_sub]
        rfl

/-- A length that lies: the octets of the length are read, and nothing after them. -/
example : log (snmpBerNext (fun i => [0x04, 0x81, 0xff].getD i 0) ⟨0, 3, 0⟩) =
    [.octet 0, .cursor ⟨0, 3, 1⟩, .octet 1, .cursor ⟨0, 3, 2⟩, .octet 2, .cursor ⟨0, 3, 3⟩] := by
  decide

theorem BerValue.octets_eq_map (v : BerValue) :
    v.octets mem = (List.range v.vlen).map fun i => mem (v.val + i) := by
  rw [BerValue.octets, Packet.octets, List.range'_eq_map_range, List.map_map]
  rfl

theorem keeps_forEach {β : Type} {v : BerValue} (h : v.Inside size) (f : β → UInt8 → β) (b : β) :
    Keeps (InPacket size) (v.forEach mem f b) (· = (v.octets mem).foldl f b) := by
  rw [v.octets_eq_map, List.foldl_map]
  refine keeps_foldlM (fun acc i hi => ?_) b
  have hlt : v.val + i < size := lt_of_lt_of_le (Nat.add_lt_add_left (List.mem_range.mp hi) _) h
  exact ((keeps_octet hlt).mono fun octet hoctet => congrArg (f acc) hoctet).map

theorem keeps_snmpBerInt {v : BerValue} (h : v.Inside size) :
    Keeps (InPacket size) (snmpBerInt mem v) (· = Snmp.snmpBerInt (v.octets mem)) := by
  rw [snmpBerInt, Snmp.snmpBerInt, v.length_octets]
  by_cases hlen : v.vlen = 0 ∨ 8 < v.vlen
  · rw [if_pos hlen, if_pos hlen]
    exact keeps_pure rfl
  rw [if_neg hlen, if_neg hlen]
  have hpos : v.vlen = v.vlen - 1 + 1 := by omega
  have hfirst : (v.octets mem).headD 0 = mem v.val := by
    rw [BerValue.octets, hpos]
    rfl
  refine (keeps_octet (show v.val < size from lt_of_lt_of_le (by omega) h)).bind fun first hhead => ?_
  rw [hhead]
  refine (keeps_forEach h shiftIn _).bind fun acc hacc => keeps_pure ?_
  rw [hacc, ← hfirst]
  rfl

theorem keeps_snmpBerUint {v : BerValue} (h : v.Inside size) :
    Keeps (InPacket size) (snmpBerUint mem v) (· = Trap.snmpBerUint (v.octets mem)) := by
  rw [snmpBerUint, Trap.snmpBerUint, v.length_octets]
  by_cases hlen : v.vlen = 0 ∨ 8 < v.vlen
  · rw [if_pos hlen, if_pos hlen]
    exact keeps_pure rfl
  · rw [if_neg hlen, if_neg hlen]
    exact keeps_forEach h shiftIn 0

end keeps

end Sysmon.Packet
