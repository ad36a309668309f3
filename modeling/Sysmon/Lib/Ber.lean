import Mathlib.Algebra.Order.Ring.Int
import Mathlib.Data.List.Basic
import Mathlib.Data.Nat.Digits.Defs
import Mathlib.Data.UInt

/-!
# Tag, length and value

What an element of the basic encoding rules looks like on the wire, for contents below 64 KiB: the
tag, the length in the short form or in the form with two length bytes, the contents. What a length
in definite form says, and which form is the shortest. And the
numbers in base 128 of which an object identifier is made: seven bits a byte, the highest first,
with the top bit set on every byte but the last. And integers, in two's complement and as few bytes
as will do.
-/

namespace Ber

/-! ### Elements -/

def lengthBytes (n : Nat) : List UInt8 :=
  if n < 128 then [UInt8.ofNat n] else [0x82, UInt8.ofNat (n / 256), UInt8.ofNat n]

def tlv (tag : UInt8) (content : List UInt8) : List UInt8 :=
  tag :: lengthBytes content.length ++ content

theorem lengthBytes_short {n : Nat} (h : n < 128) : lengthBytes n = [UInt8.ofNat n] := if_pos h

theorem lengthBytes_long {n : Nat} (h : ¬n < 128) :
    lengthBytes n = [0x82, UInt8.ofNat (n / 256), UInt8.ofNat n] := if_neg h

theorem length_lt_tlv (tag : UInt8) (content : List UInt8) :
    content.length < (tlv tag content).length := by
  rw [tlv, List.cons_append, List.length_cons, List.length_append]
  omega

/-! ### The shortest length -/

/-- What a length in definite form says: one byte says itself, and otherwise the first has the number of the others, which
make up the number with the highest first. -/
def definiteLength : List UInt8 → Option Nat
  | [] => none
  | b :: rest =>
      if b.toNat < 128 then if rest = [] then some b.toNat else none
      else if b.toNat = 128 + rest.length ∧ rest ≠ [] ∧ b ≠ 0xff then some (Nat.ofDigits 256 (rest.map UInt8.toNat).reverse)
      else none

/-- Nothing shorter says the same. -/
def Shortest (header : List UInt8) (n : Nat) : Prop :=
  definiteLength header = some n ∧ ∀ other, definiteLength other = some n → header.length ≤ other.length

/-- One byte below 128, one more up to 255, and two more above. -/
def shortLength (n : Nat) : List UInt8 :=
  if n < 128 then [UInt8.ofNat n] else if n < 256 then [0x81, UInt8.ofNat n] else lengthBytes n

theorem definiteLength_one {b : UInt8} {n : Nat} : definiteLength [b] = some n ↔ b.toNat < 128 ∧ n = b.toNat := by
  simp only [definiteLength, if_true, ne_eq, not_true_eq_false, false_and, and_false, if_false]
  split
  next h => simp [h, eq_comm]
  next h => simp [h]

theorem definiteLength_more {b : UInt8} {rest : List UInt8} (hrest : rest ≠ []) {n : Nat} :
    definiteLength (b :: rest) = some n ↔
      b.toNat = 128 + rest.length ∧ b ≠ 0xff ∧ n = Nat.ofDigits 256 (rest.map UInt8.toNat).reverse := by
  rw [definiteLength]
  by_cases hshort : b.toNat < 128
  · rw [if_pos hshort, if_neg hrest]
    exact iff_of_false nofun fun h => absurd h.1 (by omega)
  · rw [if_neg hshort]
    by_cases hbyte : b.toNat = 128 + rest.length ∧ rest ≠ [] ∧ b ≠ 0xff
    · rw [if_pos hbyte, Option.some_inj, eq_comm]
      exact ⟨fun h => ⟨hbyte.1, hbyte.2.2, h⟩, fun h => h.2.2⟩
    · rw [if_neg hbyte]
      exact iff_of_false nofun fun h => hbyte ⟨h.1, hrest, h.2.1⟩

theorem definiteLength_two {b c : UInt8} {n : Nat} : definiteLength [b, c] = some n ↔ b = 0x81 ∧ n = c.toNat := by
  rw [definiteLength_more (List.cons_ne_nil _ _)]
  have hdigits : Nat.ofDigits 256 ([c].map UInt8.toNat).reverse = c.toNat := Nat.ofDigits_singleton
  rw [hdigits]
  constructor
  · rintro ⟨hb, -, hn⟩
    exact ⟨UInt8.toNat_inj.mp hb, hn⟩
  · rintro ⟨rfl, hn⟩
    exact ⟨rfl, by decide, hn⟩

theorem definiteLength_three {b c d : UInt8} {n : Nat} :
    definiteLength [b, c, d] = some n ↔ b = 0x82 ∧ n = c.toNat * 256 + d.toNat := by
  rw [definiteLength_more (List.cons_ne_nil _ _)]
  have hdigits : Nat.ofDigits 256 ([c, d].map UInt8.toNat).reverse = c.toNat * 256 + d.toNat := by
    simp [Nat.ofDigits_cons]
    ring
  rw [hdigits]
  constructor
  · rintro ⟨hb, -, hn⟩
    exact ⟨UInt8.toNat_inj.mp hb, hn⟩
  · rintro ⟨rfl, hn⟩
    exact ⟨rfl, by decide, hn⟩

theorem definiteLength_shortLength {n : Nat} (hn : n < 0x10000) : definiteLength (shortLength n) = some n := by
  rw [shortLength]
  split
  · exact definiteLength_one.mpr (by simp only [UInt8.toNat_ofNat']; omega)
  next hlong =>
    split
    · exact definiteLength_two.mpr ⟨rfl, by simp only [UInt8.toNat_ofNat']; omega⟩
    · rw [lengthBytes_long hlong]
      exact definiteLength_three.mpr ⟨rfl, by simp only [UInt8.toNat_ofNat']; omega⟩

/-- As short as it gets, and nothing else of this length says the number. -/
theorem shortLength_le {n : Nat} {header : List UInt8} (h : definiteLength header = some n) (hn : n < 0x10000) :
    (shortLength n).length ≤ header.length ∧ (header.length ≤ (shortLength n).length → header = shortLength n) := by
  have hbyte : ∀ c : UInt8, UInt8.ofNat c.toNat = c := fun c => UInt8.ofNat_toNat
  match header, h with
  | [b], h =>
      obtain ⟨hb, rfl⟩ := definiteLength_one.mp h
      rw [shortLength, if_pos hb, hbyte]
      exact ⟨Nat.le_refl _, fun _ => rfl⟩
  | [b, c], h =>
      obtain ⟨rfl, rfl⟩ := definiteLength_two.mp h
      rw [shortLength]
      split
      · exact ⟨by simp, fun hle => absurd hle (by simp)⟩
      · rw [if_pos c.toNat_lt, hbyte]
        exact ⟨Nat.le_refl _, fun _ => rfl⟩
  | [b, c, d], h =>
      obtain ⟨rfl, rfl⟩ := definiteLength_three.mp h
      have hd := d.toNat_lt
      have hhigh : (c.toNat * 256 + d.toNat) / 256 = c.toNat := by omega
      have hlow : UInt8.ofNat (c.toNat * 256 + d.toNat) = d := by
        rw [← UInt8.toNat_inj, UInt8.toNat_ofNat']
        omega
      rw [shortLength]
      split
      · exact ⟨by simp, fun hle => absurd hle (by simp)⟩
      next hlong =>
        split
        · exact ⟨by simp, fun hle => absurd hle (by simp)⟩
        · rw [lengthBytes_long hlong, hhigh, hbyte, hlow]
          exact ⟨Nat.le_refl _, fun _ => rfl⟩
  | a :: b :: c :: d :: rest, h =>
      have hthree : (shortLength n).length ≤ 3 := by
        rw [shortLength, lengthBytes]
        split
        · simp
        · split <;> simp
      simp only [List.length_cons]
      exact ⟨by omega, fun hle => absurd hle (by omega)⟩

/-- Below 64 KiB the shortest length is this one. -/
theorem shortest_iff {header : List UInt8} {n : Nat} (hn : n < 0x10000) : Shortest header n ↔ header = shortLength n := by
  constructor
  · rintro ⟨hlength, hleast⟩
    exact (shortLength_le hlength hn).2 (hleast _ (definiteLength_shortLength hn))
  · rintro rfl
    exact ⟨definiteLength_shortLength hn, fun other hother => (shortLength_le hother hn).1⟩

/-- The form with two length bytes is too long for one byte's worth. -/
theorem lengthBytes_eq_shortLength_iff (n : Nat) : lengthBytes n = shortLength n ↔ ¬(128 ≤ n ∧ n < 256) := by
  rw [shortLength]
  by_cases hshort : n < 128
  · rw [if_pos hshort, lengthBytes_short hshort]
    exact iff_of_true rfl (by omega)
  · rw [if_neg hshort]
    by_cases hbyte : n < 256
    · rw [if_pos hbyte, lengthBytes_long hshort]
      exact iff_of_false (by simp) (by omega)
    · rw [if_neg hbyte]
      exact iff_of_true rfl (by omega)

/-! ### Base 128 -/

/-- The numbers in a run of bytes, `acc` being what the bytes of an unfinished one have given. -/
def base128 : Nat → List UInt8 → List Nat
  | _, [] => []
  | acc, b :: rest =>
      if b.toNat < 128 then (acc * 128 + b.toNat) :: base128 0 rest
      else base128 (acc * 128 + (b.toNat - 128)) rest

/-- A number from its digits, the lowest first. -/
def base128Bytes : List UInt8 → List UInt8
  | [] => []
  | d :: ds => (ds.map (· ||| 0x80)).reverse ++ [d]

theorem toNat_or_top {d : UInt8} (h : d.toNat < 128) : (d ||| 0x80).toNat = d.toNat + 128 := by
  rw [UInt8.toNat_or]
  have hor := Nat.two_pow_add_eq_or_of_lt (i := 7) h 1
  change d.toNat ||| 128 = d.toNat + 128
  rw [Nat.or_comm, Nat.add_comm, ← hor]

/-- The bytes with the top bit set only add to the number in hand. -/
theorem base128_high {ds : List UInt8} (h : ∀ d ∈ ds, d.toNat < 128) (acc : Nat)
    (tail : List UInt8) :
    base128 acc ((ds.map (· ||| 0x80)).reverse ++ tail) =
      base128 (acc * 128 ^ ds.length + Nat.ofDigits 128 (ds.map UInt8.toNat)) tail := by
  induction ds generalizing tail with
  | nil => simp
  | cons d ds ih =>
      have hd : d.toNat < 128 := h d List.mem_cons_self
      have htop : ¬(d ||| 0x80).toNat < 128 := by
        rw [toNat_or_top hd]
        omega
      rw [List.map_cons, List.reverse_cons, List.append_assoc,
        ih fun e he => h e (List.mem_cons_of_mem _ he), List.singleton_append, base128,
        if_neg htop, toNat_or_top hd, Nat.add_sub_cancel, List.map_cons, Nat.ofDigits_cons,
        List.length_cons, pow_succ]
      congr 1
      ring

theorem base128_bytes {d : UInt8} {ds : List UInt8} (hd : d.toNat < 128)
    (h : ∀ e ∈ ds, e.toNat < 128) (tail : List UInt8) :
    base128 0 (base128Bytes (d :: ds) ++ tail) =
      Nat.ofDigits 128 ((d :: ds).map UInt8.toNat) :: base128 0 tail := by
  rw [base128Bytes, List.append_assoc, base128_high h, List.singleton_append, base128, if_pos hd,
    List.map_cons, Nat.ofDigits_cons]
  congr 1
  ring

/-! ### Integers -/

/-- The contents of an integer: two's complement in as few bytes as will do, the highest first. -/
def integer (x : Int) : List UInt8 :=
  if -128 ≤ x ∧ x < 128 then [UInt8.ofInt x] else integer (x / 256) ++ [UInt8.ofInt x]
termination_by x.natAbs
decreasing_by omega

theorem integer_short {x : Int} (h : -128 ≤ x ∧ x < 128) : integer x = [UInt8.ofInt x] := by
  rw [integer, if_pos h]

theorem integer_long {x : Int} (h : ¬(-128 ≤ x ∧ x < 128)) :
    integer x = integer (x / 256) ++ [UInt8.ofInt x] := by rw [integer, if_neg h]

theorem toNat_ofInt (x : Int) : ((UInt8.ofInt x).toNat : Int) = x % 256 := by
  rw [UInt8.ofInt, UInt8.toNat_ofNat']
  omega

theorem integer_ne_nil (x : Int) : integer x ≠ [] := by
  by_cases h : -128 ≤ x ∧ x < 128
  · rw [integer_short h]
    exact List.cons_ne_nil _ _
  · rw [integer_long h]
    exact List.append_ne_nil_of_right_ne_nil _ (List.cons_ne_nil _ _)

/-- So many bytes hold so large a number. -/
theorem length_integer_le_iff (x : Int) (n : Nat) :
    (integer x).length ≤ n + 1 ↔ -128 * 256 ^ n ≤ x ∧ x < 128 * 256 ^ n := by
  induction n generalizing x with
  | zero =>
      by_cases h : -128 ≤ x ∧ x < 128
      · simp [integer_short h, h]
      · have hpos := List.length_pos_iff.mpr (integer_ne_nil (x / 256))
        rw [integer_long h, List.length_append, List.length_singleton]
        omega
  | succ n ih =>
      have hpow : (256 : Int) ^ (n + 1) = 256 * 256 ^ n := by rw [pow_succ, mul_comm]
      have hone : (1 : Int) ≤ 256 ^ n := one_le_pow₀ (by norm_num)
      rw [hpow]
      by_cases h : -128 ≤ x ∧ x < 128
      · rw [integer_short h, List.length_singleton]
        omega
      · rw [integer_long h, List.length_append, List.length_singleton, Nat.add_le_add_iff_right, ih]
        omega

/-- The first byte tells the sign. -/
theorem head_integer (x : Int) : 128 ≤ ((integer x).headD 0).toNat ↔ x < 0 := by
  induction x using integer.induct with
  | case1 x h =>
      rw [integer_short h, List.headD_cons]
      have hbyte := toNat_ofInt x
      omega
  | case2 x h ih =>
      have hhead : (integer x).headD 0 = (integer (x / 256)).headD 0 := by
        rw [integer_long h]
        cases hrest : integer (x / 256) with
        | nil => exact absurd hrest (integer_ne_nil _)
        | cons b rest => rfl
      rw [hhead, ih]
      omega

/-- Reading the bytes one after the other, from nothing for a number that is not negative and from
all ones for one that is. -/
theorem foldl_integer (x : Int) :
    (integer x).foldl (fun acc b => acc * 256 + (b.toNat : Int)) (if x < 0 then -1 else 0) = x := by
  induction x using integer.induct with
  | case1 x h =>
      rw [integer_short h, List.foldl_cons, List.foldl_nil, toNat_ofInt]
      split <;> omega
  | case2 x h ih =>
      have hsign : (if x < 0 then (-1 : Int) else 0) = if x / 256 < 0 then -1 else 0 := by
        split <;> split <;> omega
      rw [hsign, integer_long h, List.foldl_append, ih, List.foldl_cons, List.foldl_nil, toNat_ofInt]
      omega

end Ber
