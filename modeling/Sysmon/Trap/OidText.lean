import Mathlib.Algebra.Order.Ring.Int
import Mathlib.Data.List.Basic
import Mathlib.Data.UInt
import Sysmon.Snmp.Get
import Sysmon.Trap.Decode

/-!
# The text of an object identifier

`snmp_ber_oid_str` reads numbers off the bytes and writes them out as long as there is room. The two
are taken apart here: the numbers are a function of the bytes alone, and of two encodings put
together they are the numbers of the one and then those of the other; how many of them are written
depends on the limit on sub-identifiers and on the buffer. The text of an enterprise with a suffix
put on, as a trap of version 1 gets its OID, is compared with the text of the longer identifier, as a
trap of version 2c gets it.
-/

namespace Sysmon.Trap

open Snmp CText

/-! ### Numbers and their text -/

/-- The sub-identifiers in the bytes after the first. -/
def oidRest : List UInt8 → Nat → Nat → List Nat
  | [], _, _ => []
  | b :: v, sub, shifted =>
      if 4 < shifted then oidRest v 0 0
      else if 128 ≤ b.toNat then oidRest v (sub * 128 + b.toNat % 128) (shifted + 1)
      else (sub * 128 + b.toNat % 128) :: oidRest v 0 0

def part (n : Nat) : List Char := '.' :: showNat n

def joined (ns : List Nat) : List Char := ns.flatMap part

/-- As many numbers as the limit and the buffer allow. -/
def emit (outlen : Nat) : List Nat → Nat → List Char → List Char
  | [], _, out => out
  | n :: ns, subids, out =>
      if trapMaxSubids < subids + 1 then out
      else if outlen ≤ out.length + (part n).length + 1 then out
      else emit outlen ns (subids + 1) (out ++ part n)

theorem oidStrLoop_eq_emit (outlen : Nat) (v : List UInt8) (sub shifted subids : Nat)
    (out : List Char) :
    oidStrLoop outlen v sub shifted subids out = emit outlen (oidRest v sub shifted) subids out := by
  induction v generalizing sub shifted subids out with
  | nil => rfl
  | cons b v ih =>
      rw [oidStrLoop, oidRest]
      split
      · exact ih _ _ _ _
      · dsimp only
        split
        · exact ih _ _ _ _
        · rw [emit, ih]
          rfl

theorem snmpBerOidStr_cons (outlen : Nat) (b : UInt8) (v : List UInt8) :
    snmpBerOidStr outlen (b :: v) =
      emit outlen (oidRest v 0 0) 0 (snprintf outlen (oidStrFirst b)) :=
  oidStrLoop_eq_emit _ _ _ _ _ _

/-! ### Encodings put together -/

/-- An encoding that ends with a complete sub-identifier leaves the reader as it began. -/
theorem oidRest_append {v : List UInt8} (hend : ∀ b ∈ v.getLast?, b.toNat < 128) (w : List UInt8)
    (sub shifted : Nat) (hstart : v = [] → sub = 0 ∧ shifted = 0) :
    oidRest (v ++ w) sub shifted = oidRest v sub shifted ++ oidRest w 0 0 := by
  induction v generalizing sub shifted with
  | nil =>
      obtain ⟨rfl, rfl⟩ := hstart rfl
      rfl
  | cons b v ih =>
      have hend' : ∀ c ∈ v.getLast?, c.toNat < 128 := by
        intro c hc
        apply hend
        rw [List.getLast?_cons, hc]
        rfl
      rw [List.cons_append, oidRest, oidRest]
      split
      · exact ih hend' 0 0 fun _ => ⟨rfl, rfl⟩
      · split
        · rename_i hmore
          refine ih hend' _ _ fun hnil => ?_
          have := hend b (by rw [hnil]; rfl)
          omega
        · rw [List.cons_append, ih hend' 0 0 fun _ => ⟨rfl, rfl⟩]

theorem oidRest_high {ds : List UInt8} (h : ∀ d ∈ ds, d.toNat < 128) (sub : Nat) {shifted : Nat}
    (hlen : shifted + ds.length ≤ 5) (tail : List UInt8) :
    oidRest ((ds.map (· ||| 0x80)).reverse ++ tail) sub shifted =
      oidRest tail (sub * 128 ^ ds.length + Nat.ofDigits 128 (ds.map UInt8.toNat))
        (shifted + ds.length) := by
  induction ds generalizing tail with
  | nil => simp
  | cons d ds ih =>
      have hd : d.toNat < 128 := h d List.mem_cons_self
      have htop := Ber.toNat_or_top hd
      rw [List.length_cons] at hlen
      rw [List.map_cons, List.reverse_cons, List.append_assoc,
        ih (fun e he => h e (List.mem_cons_of_mem _ he)) (by omega), List.singleton_append, oidRest,
        if_neg (by omega), if_pos (by omega), htop, List.map_cons, Nat.ofDigits_cons,
        List.length_cons, pow_succ]
      rw [show (d.toNat + 128) % 128 = d.toNat by omega, Nat.add_assoc]
      congr 1
      ring

theorem subDigits_length {m : Nat} (k : Nat) {v : UInt64} (hv : v.toNat < 128 ^ (m + 1)) :
    (subDigits k v).length ≤ m + 1 := by
  induction k generalizing m v with
  | zero => exact Nat.zero_le _
  | succ k ih =>
      rw [subDigits, List.length_cons]
      split
      · rename_i hmore
        rw [UInt64.lt_iff_toNat_lt, toNat_shiftRight_seven] at hmore
        change 0 < v.toNat / 128 at hmore
        cases m with
        | zero => omega
        | succ m =>
            have hrest : (v >>> 7).toNat < 128 ^ (m + 1) := by
              rw [toNat_shiftRight_seven]
              exact Nat.div_lt_of_lt_mul (by rwa [pow_succ'] at hv)
            have := ih hrest
            omega
      · exact Nat.succ_le_succ (Nat.zero_le _)

/-- One sub-identifier of up to 35 bits, read back. -/
theorem oidRest_subBytes {v : UInt64} (hv : v.toNat < 128 ^ 5) (tail : List UInt8) :
    oidRest (subBytes v ++ tail) 0 0 = v.toNat :: oidRest tail 0 0 := by
  obtain ⟨d, ds, hdigits, hd, hds, hvalue⟩ :=
    subDigits_spec (k := 9) (v := v) (hv.trans (by norm_num))
  have hlen : (d :: ds).length ≤ 5 := by
    rw [← hdigits]
    exact subDigits_length 10 hv
  rw [List.length_cons] at hlen
  rw [List.map_cons, Nat.ofDigits_cons] at hvalue
  rw [subBytes, hdigits, Ber.base128Bytes, List.append_assoc, oidRest_high hds 0 (by omega),
    List.singleton_append, oidRest, if_neg (by omega), if_neg (by omega), Nat.mod_eq_of_lt hd,
    ← hvalue]
  congr 1
  simp
  ring

/-! ### How much is written -/

theorem joined_append (ns ms : List Nat) : joined (ns ++ ms) = joined ns ++ joined ms :=
  List.flatMap_append

theorem length_joined_take_le (ns : List Nat) {k m : Nat} (h : k ≤ m) :
    (joined (ns.take k)).length ≤ (joined (ns.take m)).length := by
  have hsplit : ns.take m = ns.take k ++ (ns.take m).drop k := by
    have hparts := List.take_append_drop k (ns.take m)
    rw [List.take_take, Nat.min_eq_left h] at hparts
    exact hparts.symm
  rw [hsplit, joined_append, List.length_append]
  omega

theorem length_showNat_le {n k : Nat} (hk : 0 < k) (h : n < 10 ^ k) : (showNat n).length ≤ k :=
  (Nat.length_toDigits_le_iff (by omega) hk).mpr h

theorem emit_all {outlen : Nat} {ns : List Nat} {subids : Nat} {out : List Char}
    (hsubids : subids + ns.length ≤ trapMaxSubids)
    (hlen : (out ++ joined ns).length + 1 < outlen) : emit outlen ns subids out = out ++ joined ns := by
  induction ns generalizing subids out with
  | nil => exact (List.append_nil out).symm
  | cons n ns ih =>
      have hjoined : out ++ joined (n :: ns) = out ++ part n ++ joined ns := by
        rw [List.append_assoc]
        rfl
      rw [hjoined] at hlen ⊢
      rw [List.length_cons] at hsubids
      have hpart : out.length + (part n).length + 1 < outlen := by
        simp only [List.length_append] at hlen
        omega
      rw [emit, if_neg (by omega), if_neg (by omega)]
      exact ih (by omega) hlen

/-- What is written is some of the numbers from the first on, at most as many as the limit. -/
theorem emit_take {outlen : Nat} (ns : List Nat) {subids : Nat} {out : List Char}
    (hout : out.length + 1 < outlen) (hsubids : subids ≤ trapMaxSubids) :
    ∃ k, subids + k ≤ trapMaxSubids ∧ emit outlen ns subids out = out ++ joined (ns.take k) ∧
      (emit outlen ns subids out).length + 1 < outlen := by
  induction ns generalizing subids out with
  | nil => exact ⟨0, hsubids, (List.append_nil out).symm, hout⟩
  | cons n ns ih =>
      rw [emit]
      split
      · exact ⟨0, hsubids, (List.append_nil out).symm, hout⟩
      split
      · exact ⟨0, hsubids, (List.append_nil out).symm, hout⟩
      · rename_i hmore hroom
        have hlonger : (out ++ part n).length + 1 < outlen := by
          rw [List.length_append]
          omega
        have hnext : subids + 1 ≤ trapMaxSubids := by omega
        obtain ⟨k, hk, htext, hlen⟩ := ih hlonger hnext
        refine ⟨k + 1, by omega, ?_, hlen⟩
        rw [htext, List.take_succ_cons, List.append_assoc]
        rfl

/-- Where much room is left, it was only the limit that could stop the writer. -/
theorem emit_of_room {outlen room : Nat} {ns : List Nat} (hns : ∀ n ∈ ns, (part n).length ≤ room)
    {subids : Nat} {out : List Char} (hsubids : subids ≤ trapMaxSubids)
    (hlen : (emit outlen ns subids out).length + room + 1 < outlen) :
    emit outlen ns subids out = out ++ joined (ns.take (trapMaxSubids - subids)) := by
  induction ns generalizing subids out with
  | nil => simp [emit, joined]
  | cons n ns ih =>
      rw [emit] at hlen ⊢
      by_cases hmore : trapMaxSubids < subids + 1
      · rw [if_pos hmore, show trapMaxSubids - subids = 0 by omega]
        exact (List.append_nil out).symm
      · rw [if_neg hmore] at hlen ⊢
        have hn := hns n List.mem_cons_self
        by_cases hroom : outlen ≤ out.length + (part n).length + 1
        · rw [if_pos hroom] at hlen
          omega
        · rw [if_neg hroom] at hlen ⊢
          rw [ih (fun m hm => hns m (List.mem_cons_of_mem _ hm)) (by omega) hlen,
            show trapMaxSubids - subids = (trapMaxSubids - (subids + 1)) + 1 by omega,
            List.take_succ_cons, List.append_assoc]
          rfl

/-! ### The two ways to an OID -/

theorem oidRest_lt {v : List UInt8} {sub shifted : Nat} (hsub : sub < 128 ^ shifted)
    (hshifted : shifted ≤ 5) : ∀ n ∈ oidRest v sub shifted, n < 128 ^ 5 := by
  induction v generalizing sub shifted with
  | nil =>
      intro n hn
      exact nomatch hn
  | cons b v ih =>
      rw [oidRest]
      split
      · exact ih (by norm_num) (by omega)
      · rename_i hmore
        have hnext : sub * 128 + b.toNat % 128 < 128 ^ (shifted + 1) := by
          rw [pow_succ]
          omega
        split
        · exact ih hnext (by omega)
        · intro n hn
          obtain rfl | hn := List.mem_cons.mp hn
          · exact hnext.trans_le (Nat.pow_le_pow_right (by omega) (by omega))
          · exact ih (by norm_num) (by omega) n hn

theorem length_part_oidRest {v : List UInt8} {n : Nat} (hn : n ∈ oidRest v 0 0) :
    (part n).length ≤ 12 := by
  have hlt : n < 10 ^ 11 := (oidRest_lt (by norm_num) (by omega) n hn).trans (by norm_num)
  have := length_showNat_le (by omega) hlt
  rw [part, List.length_cons]
  omega

theorem length_oidStrFirst (b : UInt8) : (oidStrFirst b).length ≤ 8 := by
  have hb : b.toNat < 256 := b.toNat_lt
  rw [oidStrFirst]
  split
  · have h := length_showNat_le (n := b.toNat - 80) (k := 3) (by omega) (by omega)
    rw [List.length_append, show ".2.".toList.length = 3 from rfl]
    omega
  · have h := length_showNat_le (n := b.toNat / 40) (k := 3) (by omega) (by omega)
    have h' := length_showNat_le (n := b.toNat % 40) (k := 3) (by omega) (by omega)
    simp only [List.length_append, List.length_cons]
    omega

/-- The text of the enterprise with `.0.` and the number after it, if nothing were ever cut. -/
def wholeOid (first : UInt8) (rest : List UInt8) (specific : Nat) : List Char :=
  oidStrFirst first ++ joined (oidRest rest 0 0 ++ [0, specific])

/-- The whole text fits where a varbind's value is put, and has no more numbers than are read. -/
def WholeFits (first : UInt8) (rest : List UInt8) (specific : Nat) : Prop :=
  (oidRest rest 0 0).length + 2 ≤ trapMaxSubids ∧
    (wholeOid first rest specific).length + 1 < trapValLen

instance (first : UInt8) (rest : List UInt8) (specific : Nat) :
    Decidable (WholeFits first rest specific) :=
  inferInstanceAs (Decidable (_ ∧ _))

/-- The OID of the translated trap, as the value of a varbind. -/
def translatedText (first : UInt8) (rest : List UInt8) (specific : Nat) : List Char :=
  snprintf trapOidLen (snprintf trapValLen
    (snmpBerOidStr trapValLen (first :: (rest ++ 0 :: subBytes (UInt64.ofNat specific)))))

theorem snprintf_of_length_lt {s : List Char} (size : Nat) (h : s.length < size) :
    snprintf size s = s :=
  List.take_of_length_le (by omega)

section translated

variable (first : UInt8) {rest : List UInt8} {specific : Nat}
  (hend : ∀ b ∈ rest.getLast?, b.toNat < 128) (hspecific : specific < 2 ^ 31)

include hend hspecific

theorem oidRest_translated :
    oidRest (rest ++ 0 :: subBytes (UInt64.ofNat specific)) 0 0 =
      oidRest rest 0 0 ++ [0, specific] := by
  have hvalue : (UInt64.ofNat specific).toNat = specific := by
    rw [UInt64.toNat_ofNat']
    omega
  have hsub : oidRest (subBytes (UInt64.ofNat specific)) 0 0 = [specific] := by
    have h := oidRest_subBytes (v := UInt64.ofNat specific) (by rw [hvalue]; omega) []
    rwa [List.append_nil, hvalue] at h
  rw [oidRest_append hend _ 0 0 fun _ => ⟨rfl, rfl⟩, oidRest, if_neg (by omega), hsub]
  rfl

theorem translatedText_eq :
    translatedText first rest specific =
      emit trapValLen (oidRest rest 0 0 ++ [0, specific]) 0 (oidStrFirst first) ∧
    (translatedText first rest specific).length + 1 < trapValLen := by
  have hval : trapValLen = 160 := rfl
  have hoid : trapOidLen = 192 := rfl
  have hfirst := length_oidStrFirst first
  obtain ⟨k, -, -, hlen⟩ := emit_take (oidRest rest 0 0 ++ [0, specific])
    (show (oidStrFirst first).length + 1 < trapValLen by omega) (Nat.zero_le _)
  have htext : translatedText first rest specific =
      emit trapValLen (oidRest rest 0 0 ++ [0, specific]) 0 (oidStrFirst first) := by
    rw [translatedText, snmpBerOidStr_cons, oidRest_translated hend hspecific,
      snprintf_of_length_lt trapValLen (s := oidStrFirst first) (by omega),
      snprintf_of_length_lt trapValLen (by omega), snprintf_of_length_lt trapOidLen (by omega)]
  exact ⟨htext, by rwa [htext]⟩

omit hend in
/-- `.0.` and the specific number. -/
theorem suffix_eq : snprintf 24 (".0.".toList ++ showInt (Int32.ofNat specific).toInt) =
    joined [0, specific] ∧ (joined [0, specific]).length ≤ 13 := by
  have hint : (Int32.ofNat specific).toInt = specific := Int32.toInt_ofNat_of_lt hspecific
  have hshow : showInt (Int32.ofNat specific).toInt = showNat specific := by
    rw [hint, showInt, if_neg (by omega)]
    rfl
  have hdigits := length_showNat_le (n := specific) (k := 10) (by omega) (by omega)
  have hjoined : joined [0, specific] = ".0.".toList ++ showNat specific := by
    simp [joined, part, showNat]
  have hlen : (joined [0, specific]).length ≤ 13 := by
    rw [hjoined, List.length_append, show ".0.".toList.length = 3 from rfl]
    omega
  exact ⟨by rw [hshow, ← hjoined, snprintf_of_length_lt 24 (by omega)], hlen⟩

omit hend in
theorem v1TrapOid_specific (enterprise : List Char) :
    v1TrapOid enterprise 6 (Int32.ofNat specific) =
      if enterprise.length + (joined [0, specific]).length < trapOidLen then
        enterprise.take 160 ++ joined [0, specific]
      else snprintf trapOidLen enterprise := by
  have hoid : trapOidLen = 192 := rfl
  obtain ⟨hsuffix, hlen⟩ := suffix_eq hspecific
  rw [v1TrapOid, if_pos rfl, hsuffix]
  dsimp only
  split
  · rw [List.take_of_length_le (l := joined [0, specific]) (by omega), snprintf_of_length_lt]
    rw [List.length_append, List.length_take]
    omega
  · rfl

theorem v1TrapOid_eq_of_fits (h : WholeFits first rest specific) :
    v1TrapOid (snmpBerOidStr trapOidLen (first :: rest)) 6 (Int32.ofNat specific) =
      translatedText first rest specific := by
  have hval : trapValLen = 160 := rfl
  have hoid : trapOidLen = 192 := rfl
  have hfirst := length_oidStrFirst first
  obtain ⟨hcount, hlen⟩ := h
  have hwhole : wholeOid first rest specific =
      (oidStrFirst first ++ joined (oidRest rest 0 0)) ++ joined [0, specific] := by
    rw [wholeOid, joined_append, List.append_assoc]
  have hlens := congrArg List.length hwhole
  rw [List.length_append] at hlens
  have henterprise : snmpBerOidStr trapOidLen (first :: rest) =
      oidStrFirst first ++ joined (oidRest rest 0 0) := by
    rw [snmpBerOidStr_cons, snprintf_of_length_lt trapOidLen (by omega)]
    exact emit_all (by omega) (by omega)
  have htranslated : translatedText first rest specific = wholeOid first rest specific := by
    rw [(translatedText_eq first hend hspecific).1]
    refine emit_all ?_ hlen
    rw [List.length_append, List.length_cons, List.length_singleton]
    omega
  rw [henterprise, v1TrapOid_specific hspecific, if_pos (by omega), htranslated, hwhole,
    List.take_of_length_le (by omega)]

theorem fits_of_v1TrapOid_eq
    (h : v1TrapOid (snmpBerOidStr trapOidLen (first :: rest)) 6 (Int32.ofNat specific) =
      translatedText first rest specific) : WholeFits first rest specific := by
  have hval : trapValLen = 160 := rfl
  have hoid : trapOidLen = 192 := rfl
  have hmax : trapMaxSubids = 64 := rfl
  have hfirst := length_oidStrFirst first
  obtain ⟨htext, hshort⟩ := translatedText_eq first hend hspecific
  obtain ⟨-, hsuffix⟩ := suffix_eq hspecific
  have henterprise : snmpBerOidStr trapOidLen (first :: rest) =
      emit trapOidLen (oidRest rest 0 0) 0 (oidStrFirst first) := by
    rw [snmpBerOidStr_cons, snprintf_of_length_lt trapOidLen (by omega)]
  rw [henterprise, v1TrapOid_specific hspecific] at h
  generalize he : emit trapOidLen (oidRest rest 0 0) 0 (oidStrFirst first) = e at h
  have hlens := congrArg List.length h
  -- the translated OID is shorter than what either branch gives for a long enterprise
  have hsmall : e.length + (joined [0, specific]).length < trapOidLen ∧ e.length ≤ 160 := by
    split at hlens
    · rename_i hroom
      rw [List.length_append, List.length_take] at hlens
      omega
    · rw [snprintf, List.length_take] at hlens
      omega
  rw [if_pos hsmall.1, List.take_of_length_le hsmall.2] at h hlens
  rw [List.length_append] at hlens
  have hall : e = oidStrFirst first ++ joined ((oidRest rest 0 0).take trapMaxSubids) := by
    rw [← he]
    exact emit_of_room (fun n hn => length_part_oidRest hn) (Nat.zero_le _) (by rw [he]; omega)
  obtain ⟨k, hk, htake, -⟩ := emit_take (oidRest rest 0 0 ++ [0, specific])
    (show (oidStrFirst first).length + 1 < trapValLen by omega) (Nat.zero_le _)
  rw [htext, htake, hall, List.append_assoc] at h
  have hparts := congrArg List.length (List.append_cancel_left h)
  rw [List.length_append] at hparts
  have hpair : (joined [0, specific]).length = 2 + (part specific).length := by
    rw [show [0, specific] = [0] ++ [specific] from rfl, joined_append, List.length_append]
    simp [joined, part, showNat]
  have hspecificPart : 0 < (part specific).length := Nat.succ_pos _
  have hcount : (oidRest rest 0 0).length + 2 ≤ trapMaxSubids := by
    by_contra hmany
    by_cases hk' : k ≤ (oidRest rest 0 0).length
    · rw [List.take_append_of_le_length hk'] at hparts
      have := length_joined_take_le (oidRest rest 0 0) (show k ≤ trapMaxSubids by omega)
      omega
    · -- only the zero after the enterprise was still written
      have hone : k - (oidRest rest 0 0).length = 1 := by omega
      rw [List.take_append, List.take_of_length_le (by omega), List.take_of_length_le (by omega),
        hone, joined_append, List.length_append] at hparts
      have : (joined ([0, specific].take 1)).length = 2 := by simp [joined, part, showNat]
      omega
  refine ⟨hcount, ?_⟩
  rw [List.take_of_length_le (by omega)] at hall
  rw [wholeOid, joined_append, ← List.append_assoc, ← hall, List.length_append]
  omega

/-- Both ways lead to the same OID exactly when nothing is cut. -/
theorem v1TrapOid_eq_translated_iff :
    v1TrapOid (snmpBerOidStr trapOidLen (first :: rest)) 6 (Int32.ofNat specific) =
      translatedText first rest specific ↔ WholeFits first rest specific :=
  ⟨fits_of_v1TrapOid_eq first hend hspecific, v1TrapOid_eq_of_fits first hend hspecific⟩

end translated

end Sysmon.Trap
