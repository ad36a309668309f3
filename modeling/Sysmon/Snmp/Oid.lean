import Mathlib.Tactic.IntervalCases
import Sysmon.Trap.OidText

/-!
# Object identifiers there and back

What `bw_oid` makes of a dotted text, and what `snmp_ber_oid_str` makes of that. A text has as many
numbers as one puts there, each as large as one likes. `bw_oid` has room for 128, takes the largest
`unsigned long` for a number beyond it, allows a first number of up to 6 where the first byte can say
no more than 2, and does not mind a dot at the end. The way back is the same for all that is left,
apart from a text that would just fit the buffer.
-/

namespace Sysmon.Snmp

open CText Trap

/-! ### What a text says -/

/-- Decimal numbers with a dot between two of them. -/
inductive Arcs : List Char → List Nat → Prop
  | last {ds : List Char} (hne : ds ≠ []) (hdigits : ∀ c ∈ ds, c.isDigit = true) :
      Arcs ds [Nat.ofDigitChars 10 ds 0]
  | more {ds rest : List Char} {ns : List Nat} (hne : ds ≠ [])
      (hdigits : ∀ c ∈ ds, c.isDigit = true) (hrest : Arcs rest ns) :
      Arcs (ds ++ '.' :: rest) (Nat.ofDigitChars 10 ds 0 :: ns)

theorem Arcs.dotted {text : List Char} {ns : List Nat} (h : Arcs text ns) : Dotted text ns := by
  induction h with
  | last hne hdigits => exact .last hne hdigits
  | more hne hdigits _ ih => exact .more hne hdigits ih

/-- The text, after one dot, is that of at most 128 numbers that fit an `unsigned long`, the first of
them 0, 1 or 2. -/
def ArcsFit (dotted : List Char) : Prop :=
  ∃ ns, Arcs (afterDot dotted) ns ∧ ns.length ≤ oidMaxSubids ∧ (∀ n ∈ ns, n < 2 ^ 64) ∧
    ∀ n ∈ ns.head?, n ≤ 2

/-! ### The contents `bw_oid` writes -/

def oidContent (dotted : List Char) : Option (List UInt8) :=
  (oidParts dotted).map fun (a, b, subs) => oidBytes a b subs

theorem oidContent_eq_some {dotted : List Char} {content : List UInt8}
    (h : oidContent dotted = some content) :
    ∃ a b subs, oidParts dotted = some (a, b, subs) ∧ content = oidBytes a b subs := by
  obtain ⟨⟨a, b, subs⟩, hparts, heq⟩ := Option.map_eq_some_iff.mp h
  exact ⟨a, b, subs, hparts, heq.symm⟩

/-- An accepted text goes out as one element, if there is room for it. -/
theorem oidContent_of_bwOid {w w' : BerWriter} {dotted : List Char} (h : bwOid w dotted = some w') :
    ∃ content, oidContent dotted = some content ∧ Writes w w' (Ber.tlv 0x06 content) := by
  obtain ⟨a, b, subs, hparts, hwrites⟩ := writes_bwOid h
  exact ⟨_, by rw [oidContent, hparts]; rfl, hwrites⟩

theorem arcs_oidContent_iff {dotted : List Char} {content : List UInt8}
    (h : oidContent dotted = some content) :
    Arcs (afterDot dotted) (oidNumbers content) ↔ ArcsFit dotted := by
  obtain ⟨a, b, subs, hparts, rfl⟩ := oidContent_eq_some h
  constructor
  · exact fun harcs => ⟨_, harcs, fits_of_dotted hparts harcs.dotted⟩
  · rintro ⟨ns, harcs, hlen, hlt, hfirst⟩
    rw [oidNumbers_of_fits hparts harcs.dotted hlen hlt hfirst]
    exact harcs

/-- Of a text that `bw_oid` accepts the element says what the text says exactly when the text fits. -/
theorem bwOid_arcs_iff {w w' : BerWriter} {dotted : List Char} (h : bwOid w dotted = some w') :
    (∃ content, oidContent dotted = some content ∧ Writes w w' (Ber.tlv 0x06 content) ∧
      Arcs (afterDot dotted) (oidNumbers content)) ↔ ArcsFit dotted := by
  obtain ⟨content, hcontent, hwrites⟩ := oidContent_of_bwOid h
  rw [← arcs_oidContent_iff hcontent]
  constructor
  · rintro ⟨content', hcontent', -, harcs⟩
    rw [hcontent] at hcontent'
    rwa [Option.some.inj hcontent']
  · exact fun harcs => ⟨content, hcontent, hwrites, harcs⟩

theorem arcs_internet : Arcs ['1', '.', '3', '.', '6'] [1, 3, 6] := by
  have hsix : Arcs ['6'] [6] := .last (by decide) (by simp [Char.isDigit])
  have hthree : Arcs (['3'] ++ '.' :: ['6']) [3, 6] := .more (by decide) (by simp [Char.isDigit]) hsix
  have hone : Arcs (['1'] ++ '.' :: (['3'] ++ '.' :: ['6'])) [1, 3, 6] :=
    .more (by decide) (by simp [Char.isDigit]) hthree
  exact hone

theorem bwOid_arcs_internet :
    ∃ content, oidContent ['.', '1', '.', '3', '.', '6'] = some content ∧
      Writes (bwInit 16) ((bwOid (bwInit 16) ['.', '1', '.', '3', '.', '6']).getD (bwInit 0))
        (Ber.tlv 0x06 content) ∧ Arcs ['1', '.', '3', '.', '6'] (oidNumbers content) := by
  have hsome : (bwOid (bwInit 16) ['.', '1', '.', '3', '.', '6']).isSome = true := by decide
  obtain ⟨w, hw⟩ := Option.isSome_iff_exists.mp hsome
  rw [hw]
  exact (bwOid_arcs_iff hw).mpr ⟨_, arcs_internet, by decide, by decide, by decide⟩

/-- The first byte of `6.16` would be 256, and goes out as the 0 of `0.0`. -/
theorem bwOid_first_byte_wraps :
    ∃ w, bwOid (bwInit 16) ['6', '.', '1', '6'] = some w ∧
      ¬∃ content, oidContent ['6', '.', '1', '6'] = some content ∧
        Writes (bwInit 16) w (Ber.tlv 0x06 content) ∧ Arcs ['6', '.', '1', '6'] (oidNumbers content) := by
  have hsome : (bwOid (bwInit 16) ['6', '.', '1', '6']).isSome = true := by decide
  obtain ⟨w, hw⟩ := Option.isSome_iff_exists.mp hsome
  refine ⟨w, hw, ?_⟩
  rintro ⟨content, hcontent, -, harcs⟩
  obtain ⟨ns, hns, hlen, hlt, hfirst⟩ := (arcs_oidContent_iff hcontent).mp harcs
  have hparts : oidParts ['6', '.', '1', '6'] = some (6, 16, []) := by decide
  have hvalues := oidParts_of_fits hparts hns.dotted hlen hlt
  rw [← hvalues] at hfirst
  exact absurd (hfirst 6 rfl) (by decide)

/-! ### The text of the contents -/

theorem oidRest_flatMap_subBytes {subs : List UInt64} (h : ∀ v ∈ subs, v.toNat < 128 ^ 5) :
    oidRest (subs.flatMap subBytes) 0 0 = subs.map UInt64.toNat := by
  induction subs with
  | nil => rfl
  | cons v subs ih =>
      rw [List.flatMap_cons, oidRest_subBytes (h v List.mem_cons_self),
        ih fun u hu => h u (List.mem_cons_of_mem v hu), List.map_cons]

/-- Whatever is written comes after what is there. -/
theorem emit_extends (outlen : Nat) (ns : List Nat) (subids : Nat) (out : List Char) :
    ∃ tail, emit outlen ns subids out = out ++ tail := by
  induction ns generalizing subids out with
  | nil => exact ⟨[], (List.append_nil out).symm⟩
  | cons n ns ih =>
      rw [emit]
      split
      · exact ⟨[], (List.append_nil out).symm⟩
      split
      · exact ⟨[], (List.append_nil out).symm⟩
      · obtain ⟨tail, htail⟩ := ih (subids + 1) (out ++ part n)
        exact ⟨part n ++ tail, by rw [htail, List.append_assoc]⟩

/-- All the numbers are written exactly when they leave a place free beside that of the NUL. -/
theorem emit_eq_all_iff {outlen : Nat} {ns : List Nat} (hne : ns ≠ []) {subids : Nat}
    {out : List Char} (hsubids : subids + ns.length ≤ trapMaxSubids) :
    emit outlen ns subids out = out ++ joined ns ↔ (out ++ joined ns).length + 1 < outlen := by
  refine ⟨fun hall => ?_, emit_all hsubids⟩
  obtain ⟨n, ns, rfl⟩ := List.exists_cons_of_ne_nil hne
  rw [← hall]
  by_cases hroom : out.length + 1 < outlen
  · obtain ⟨-, -, -, hlen⟩ := emit_take (n :: ns) hroom (Nat.le_of_add_right_le hsubids)
    exact hlen
  · have hlong : outlen ≤ out.length + (part n).length + 1 := by omega
    have hstop : emit outlen (n :: ns) subids out = out := by
      rw [emit, if_pos hlong, ite_self]
    have hlength := congrArg List.length (hstop.symm.trans hall)
    rw [List.length_append] at hlength
    have hpart : (joined (n :: ns)).length = (part n).length + (joined ns).length := List.length_append
    have hpos : 0 < (part n).length := Nat.succ_pos _
    omega

section text

variable {a b : UInt64} (ha : a.toNat ≤ 6) (hb : b.toNat ≤ 39)

include ha hb

omit ha hb in
theorem toNat_firstByte : ((a * 40 + b).toUInt8).toNat = (a.toNat * 40 + b.toNat) % 256 := by
  rw [UInt64.toNat_toUInt8, UInt64.toNat_add, UInt64.toNat_mul]
  change (a.toNat * 40 % 2 ^ 64 + b.toNat) % 2 ^ 64 % 256 = _
  omega

theorem oidStrFirst_of_le (h : a.toNat ≤ 2) :
    oidStrFirst (a * 40 + b).toUInt8 = joined [a.toNat, b.toNat] := by
  have hpair : joined [a.toNat, b.toNat] = '.' :: showNat a.toNat ++ '.' :: showNat b.toNat := by
    simp [joined, part]
  rw [oidStrFirst, toNat_firstByte, hpair, Nat.mod_eq_of_lt (by omega)]
  split
  next htwo =>
    have h2 : a.toNat = 2 := by omega
    rw [h2, Nat.add_sub_cancel_left]
    rfl
  next hsmall =>
    rw [show (a.toNat * 40 + b.toNat) / 40 = a.toNat by omega,
      show (a.toNat * 40 + b.toNat) % 40 = b.toNat by omega]

omit ha hb in
/-- The text never starts with a number beyond 2. -/
theorem take_oidStrFirst (byte : UInt8) :
    (oidStrFirst byte).take 2 ∈ [['.', '0'], ['.', '1'], ['.', '2']] := by
  rw [oidStrFirst]
  split
  · exact List.mem_of_getElem? (i := 2) rfl
  · have hfirst : byte.toNat / 40 < 2 := by omega
    generalize byte.toNat / 40 = first at hfirst
    interval_cases first
    · exact List.mem_of_getElem? (i := 0) rfl
    · exact List.mem_of_getElem? (i := 1) rfl

omit hb in
theorem take_joined_of_lt (h : 2 < a.toNat) (ns : List Nat) :
    (joined (a.toNat :: ns)).take 2 ∉ [['.', '0'], ['.', '1'], ['.', '2']] := by
  have hdigit : ∀ first ≤ 6, showNat first = [Nat.digitChar first] := by decide
  have hjoined : joined (a.toNat :: ns) = '.' :: Nat.digitChar a.toNat :: joined ns := by
    change '.' :: showNat a.toNat ++ joined ns = _
    rw [hdigit a.toNat ha]
    rfl
  have htake : (joined (a.toNat :: ns)).take 2 = ['.', Nat.digitChar a.toNat] := by
    rw [hjoined, List.take_succ_cons, List.take_succ_cons, List.take_zero]
  rw [htake]
  generalize a.toNat = first at h ha
  interval_cases first <;> decide

end text

/-- For a text that `bw_oid` accepts, of at most as many numbers as are read back, each of 32 bits,
whose text fits the buffer: it comes back in canonical form exactly when its first number is 0, 1 or 2
and one more place is free in the buffer, which two numbers alone do not need. -/
theorem oid_text_iff {w w' : BerWriter} {dotted : List Char} (h : bwOid w dotted = some w')
    {ns : List Nat} (hns : Dotted (afterDot dotted) ns) (hlen : ns.length ≤ trapMaxSubids + 2)
    (hlt : ∀ n ∈ ns, n < 2 ^ 32) {outlen : Nat} (hfits : (joined ns).length < outlen) :
    (∃ content, oidContent dotted = some content ∧ Writes w w' (Ber.tlv 0x06 content) ∧
      snmpBerOidStr outlen content = joined ns) ↔
      (∀ n ∈ ns.head?, n ≤ 2) ∧ (ns.length = 2 ∨ (joined ns).length + 1 < outlen) := by
  obtain ⟨content, hcontent, hwrites⟩ := oidContent_of_bwOid h
  have hsame : (∃ content, oidContent dotted = some content ∧ Writes w w' (Ber.tlv 0x06 content) ∧
      snmpBerOidStr outlen content = joined ns) ↔ snmpBerOidStr outlen content = joined ns := by
    constructor
    · rintro ⟨content', hcontent', -, htext⟩
      rw [hcontent] at hcontent'
      rwa [Option.some.inj hcontent']
    · exact fun htext => ⟨content, hcontent, hwrites, htext⟩
  rw [hsame]
  obtain ⟨a, b, subs, hparts, rfl⟩ := oidContent_eq_some hcontent
  obtain ⟨-, ha, hb⟩ := oidParts_eq_some hparts
  have hmax : trapMaxSubids + 2 ≤ oidMaxSubids := by decide
  obtain rfl := oidParts_of_fits hparts hns (hlen.trans hmax) fun n hn => (hlt n hn).trans (by norm_num)
  have hsubs : oidRest (subs.flatMap subBytes) 0 0 = subs.map UInt64.toNat := by
    refine oidRest_flatMap_subBytes fun v hv => ?_
    have hv32 := hlt v.toNat (List.mem_cons_of_mem _ (List.mem_cons_of_mem _ (List.mem_map_of_mem hv)))
    omega
  have hjoined : joined (a.toNat :: b.toNat :: subs.map UInt64.toNat) =
      joined [a.toNat, b.toNat] ++ joined (subs.map UInt64.toNat) := joined_append [_, _] _
  have hhead : (∀ n ∈ (a.toNat :: b.toNat :: subs.map UInt64.toNat).head?, n ≤ 2) ↔ a.toNat ≤ 2 := by
    simp
  rw [oidBytes, snmpBerOidStr_cons, hsubs, hhead]
  simp only [List.length_cons, List.length_map] at hlen ⊢
  by_cases hsmall : a.toNat ≤ 2
  · rw [oidStrFirst_of_le ha hb hsmall, and_iff_right hsmall]
    rw [hjoined, List.length_append] at hfits
    rw [snprintf_of_length_lt outlen (by omega), hjoined]
    cases subs with
    | nil => simp [emit, joined]
    | cons v subs =>
        rw [emit_eq_all_iff (by simp) (by simpa using hlen)]
        simp only [List.length_cons]
        omega
  · -- the first two characters are already different
    refine iff_of_false (fun htext => ?_) fun hboth => hsmall hboth.1
    obtain ⟨tail, htail⟩ := emit_extends outlen (subs.map UInt64.toNat) 0
      (snprintf outlen (oidStrFirst (a * 40 + b).toUInt8))
    have hroom : 2 ≤ outlen - 1 := by
      have hlength : (joined (a.toNat :: b.toNat :: subs.map UInt64.toNat)).length =
          (part a.toNat).length + ((part b.toNat).length + (joined (subs.map UInt64.toNat)).length) := by
        rw [← List.length_append, ← List.length_append]
        rfl
      have hpart : 0 < (part a.toNat).length ∧ 0 < (part b.toNat).length :=
        ⟨Nat.succ_pos _, Nat.succ_pos _⟩
      omega
    have hstart : ((oidStrFirst (a * 40 + b).toUInt8).take 2).length = 2 := by
      have hmem := take_oidStrFirst (a * 40 + b).toUInt8
      simp only [List.mem_cons, List.not_mem_nil, or_false] at hmem
      obtain heq | heq | heq := hmem <;> rw [heq] <;> rfl
    have htake : (joined (a.toNat :: b.toNat :: subs.map UInt64.toNat)).take 2 =
        (oidStrFirst (a * 40 + b).toUInt8).take 2 := by
      rw [List.length_take] at hstart
      rw [← htext, htail, snprintf, List.take_append_of_le_length, List.take_take,
        Nat.min_eq_left hroom]
      rw [List.length_take]
      omega
    exact take_joined_of_lt ha (by omega) _ (htake ▸ take_oidStrFirst _)

theorem oid_text_internet :
    ∃ content, oidContent ['.', '1', '.', '3', '.', '6'] = some content ∧
      Writes (bwInit 16) ((bwOid (bwInit 16) ['.', '1', '.', '3', '.', '6']).getD (bwInit 0))
        (Ber.tlv 0x06 content) ∧ snmpBerOidStr 192 content = ".1.3.6".toList := by
  have hsome : (bwOid (bwInit 16) ['.', '1', '.', '3', '.', '6']).isSome = true := by decide
  obtain ⟨w, hw⟩ := Option.isSome_iff_exists.mp hsome
  rw [hw]
  exact (oid_text_iff hw arcs_internet.dotted (by decide) (by decide) (by decide)).mpr
    ⟨by decide, Or.inr (by decide)⟩

/-- `3.5` comes back as `.2.45`. -/
theorem oid_text_third_arc :
    ∃ w, bwOid (bwInit 16) ['3', '.', '5'] = some w ∧
      ¬∃ content, oidContent ['3', '.', '5'] = some content ∧ Writes (bwInit 16) w (Ber.tlv 0x06 content) ∧
        snmpBerOidStr 192 content = ".3.5".toList := by
  have hsome : (bwOid (bwInit 16) ['3', '.', '5']).isSome = true := by decide
  obtain ⟨w, hw⟩ := Option.isSome_iff_exists.mp hsome
  refine ⟨w, hw, ?_⟩
  rintro ⟨content, hcontent, -, htext⟩
  have hbytes : oidContent ['3', '.', '5'] = some [125] := by decide
  rw [hbytes] at hcontent
  obtain rfl := Option.some.inj hcontent
  exact absurd htext (by decide)

end Sysmon.Snmp
