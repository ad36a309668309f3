import Mathlib.Algebra.Order.Ring.Int
import Mathlib.Data.List.Basic
import Mathlib.Data.Nat.Bitwise
import Mathlib.Data.UInt
import Sysmon.Lib.Ber

/-!
# The BER reader

`snmp_ber_next` and `snmp_ber_int` of `trapdecode.c`, which the trap decoder and the reader of GET
responses share. A cursor is what is left of the buffer. The reader takes every element that
`Ber.tlv` writes, and a `long` cut down to its shortest two's-complement form reads back as itself.
-/

namespace Sysmon.Snmp

/-! ### Elements -/

/-- The bytes of a long-form length, the first of them the highest. -/
def berLength (bytes : List UInt8) : Nat := bytes.foldl (fun l b => l * 256 + b.toNat) 0

/-- One element: its tag, its contents and what follows it. Anything cut short is refused, and so
are tags of more than one byte, indefinite lengths and lengths of more than four bytes. -/
def snmpBerNext : List UInt8 → Option (UInt8 × List UInt8 × List UInt8)
  | t :: l :: rest =>
      if t &&& 0x1f = 0x1f then none
      else if l &&& 0x80 ≠ 0 then
        let n := (l &&& 0x7f).toNat
        if n = 0 ∨ 4 < n ∨ rest.length < n then none
        else
          let len := berLength (rest.take n)
          let body := rest.drop n
          if body.length < len then none else some (t, body.take len, body.drop len)
      else if rest.length < l.toNat then none
      else some (t, rest.take l.toNat, rest.drop l.toNat)
  | _ => none

/-- The elements the reader finds one after the other, with nothing left at the end. -/
def Reads : List UInt8 → List (UInt8 × List UInt8) → Prop
  | bytes, [] => bytes = []
  | bytes, (tag, content) :: elements =>
      ∃ rest, snmpBerNext bytes = some (tag, content, rest) ∧ Reads rest elements

theorem snmpBerNext_tlv {tag : UInt8} {content : List UInt8} (htag : tag &&& 0x1f ≠ 0x1f)
    (hlen : content.length < 0x10000) (rest : List UInt8) :
    snmpBerNext (Ber.tlv tag content ++ rest) = some (tag, content, rest) := by
  by_cases hshort : content.length < 128
  · have hl : (UInt8.ofNat content.length).toNat = content.length := by
      rw [UInt8.toNat_ofNat']
      omega
    have htop : UInt8.ofNat content.length &&& 0x80 = 0 := by
      apply UInt8.toNat_inj.mp
      rw [UInt8.toNat_and, hl]
      change content.length &&& 2 ^ 7 = 0
      rw [Nat.and_comm, Nat.two_pow_and, Nat.testBit_lt_two_pow hshort]
      rfl
    simp [snmpBerNext, Ber.tlv, Ber.lengthBytes_short hshort, htag, htop, hl]
  · have hhigh : (UInt8.ofNat (content.length / 256)).toNat = content.length / 256 := by
      rw [UInt8.toNat_ofNat']
      omega
    have hlow : (UInt8.ofNat content.length).toNat = content.length % 256 := by
      rw [UInt8.toNat_ofNat']
    have hsum : content.length / 256 * 256 + content.length % 256 = content.length := by omega
    have htwo : ((0x82 : UInt8) &&& 0x7f).toNat = 2 := by decide
    have htop : (0x82 : UInt8) &&& 0x80 ≠ 0 := by decide
    simp [snmpBerNext, Ber.tlv, Ber.lengthBytes_long hshort, htag, htop, htwo, berLength, hhigh,
      hlow, hsum]

theorem reads_nil : Reads [] [] := rfl

theorem Reads.tlv {tag : UInt8} {content rest : List UInt8} {elements : List (UInt8 × List UInt8)}
    (htag : tag &&& 0x1f ≠ 0x1f) (hlen : content.length < 0x10000) (h : Reads rest elements) :
    Reads (Ber.tlv tag content ++ rest) ((tag, content) :: elements) :=
  ⟨rest, snmpBerNext_tlv htag hlen rest, h⟩

theorem reads_tlv {tag : UInt8} {content : List UInt8} (htag : tag &&& 0x1f ≠ 0x1f)
    (hlen : content.length < 0x10000) : Reads (Ber.tlv tag content) [(tag, content)] := by
  rw [← List.append_nil (Ber.tlv tag content)]
  exact Reads.tlv htag hlen reads_nil

theorem Reads.unique {bytes : List UInt8} {es es' : List (UInt8 × List UInt8)} (h : Reads bytes es)
    (h' : Reads bytes es') : es = es' := by
  induction es generalizing bytes es' with
  | nil =>
      obtain rfl : bytes = [] := h
      cases es' with
      | nil => rfl
      | cons e es' =>
          obtain ⟨rest, hnext, -⟩ := h'
          exact nomatch hnext
  | cons e es ih =>
      obtain ⟨rest, hnext, hrest⟩ := h
      cases es' with
      | nil =>
          obtain rfl : bytes = [] := h'
          exact nomatch hnext
      | cons e' es' =>
          obtain ⟨rest', hnext', hrest'⟩ := h'
          obtain ⟨htag, hcontent, rfl⟩ : e.1 = e'.1 ∧ e.2 = e'.2 ∧ rest = rest' := by
            simpa only [hnext, Option.some.injEq, Prod.mk.injEq] using hnext'
          rw [ih hrest hrest', Prod.ext htag hcontent]

/-! ### Integers -/

/-- The loop of `snmp_ber_int`. -/
def berAccumulate (acc : UInt64) (v : List UInt8) : UInt64 :=
  v.foldl (fun acc b => (acc <<< 8) ||| b.toUInt64) acc

/-- The first byte decides the sign. -/
def berSign (v : List UInt8) : UInt64 := if v.headD 0 &&& 0x80 ≠ 0 then ~~~0 else 0

def snmpBerInt (v : List UInt8) : Int64 :=
  if v.length = 0 ∨ 8 < v.length then 0
  else
    let acc := berAccumulate (berSign v) v
    if acc ≤ 0x7fffffffffffffff then acc.toInt64 else -(~~~acc).toInt64 - 1

theorem toNat_shift_or (acc : UInt64) (b : UInt8) :
    ((acc <<< 8) ||| b.toUInt64).toNat = (acc.toNat * 256 + b.toNat) % 2 ^ 64 := by
  have hb : b.toNat < 2 ^ 8 := b.toNat_lt
  have hacc : acc.toNat < 2 ^ 64 := acc.toNat_lt
  have height : (8 : UInt64).toNat % 64 = 8 := rfl
  have hsplit : acc.toNat <<< 8 % 2 ^ 64 = (acc.toNat % 2 ^ 56) <<< 8 := by
    rw [Nat.shiftLeft_eq, Nat.shiftLeft_eq]
    omega
  rw [UInt64.toNat_or, UInt64.toNat_shiftLeft, height, hsplit, UInt8.toNat_toUInt64,
    ← Nat.shiftLeft_add_eq_or_of_lt hb, Nat.shiftLeft_eq]
  omega

theorem toNat_berAccumulate (acc : UInt64) (v : List UInt8) :
    (berAccumulate acc v).toNat =
      (v.foldl (fun l b => l * 256 + b.toNat) acc.toNat) % 2 ^ 64 := by
  have key : ∀ (v : List UInt8) (acc : UInt64) (n : Nat), acc.toNat = n % 2 ^ 64 →
      (berAccumulate acc v).toNat = (v.foldl (fun l b => l * 256 + b.toNat) n) % 2 ^ 64 := by
    intro v
    induction v with
    | nil =>
        intro acc n h
        exact h
    | cons b v ih =>
        intro acc n h
        apply ih
        change ((acc <<< 8) ||| b.toUInt64).toNat = (n * 256 + b.toNat) % 2 ^ 64
        rw [toNat_shift_or, h]
        omega
  exact key v acc acc.toNat (Nat.mod_eq_of_lt acc.toNat_lt).symm

/-- Two's complement undone for every value. -/
theorem neg_not_sub_one (acc : UInt64) : -(~~~acc).toInt64 - 1 = acc.toInt64 := by
  have hnot : (~~~acc).toInt64 = ~~~acc.toInt64 := rfl
  rw [hnot]
  apply Int64.toBitVec_inj.mp
  simp [BitVec.neg_eq_not_add]

theorem snmpBerInt_eq {v : List UInt8} (hne : v ≠ []) (hlen : v.length ≤ 8) :
    snmpBerInt v = (berAccumulate (berSign v) v).toInt64 := by
  have hcond : ¬(v.length = 0 ∨ 8 < v.length) := by
    have := List.length_pos_iff.mpr hne
    omega
  rw [snmpBerInt, if_neg hcond]
  dsimp only
  split
  · rfl
  · exact neg_not_sub_one _

end Sysmon.Snmp
