import Mathlib.Data.List.Infix
import Sysmon.Lib.CText

/-!
# Words in a text

`strstr`, as the text before the first occurrence and the text behind it. A word none of whose beginnings is
one of its ends cannot overlap itself: it is found behind a text that does not contain it, wherever that text
stops. The last part is about a number behind a word: what follows it does not matter, and no part of its
digits reads as the number.
-/

namespace CText

/-- What stands before the first occurrence of a word and what stands behind it. -/
def strstr (word : List Char) : List Char → Option (List Char × List Char)
  | [] => if word = [] then some ([], []) else none
  | c :: s =>
      if word.isPrefixOf (c :: s) then some ([], (c :: s).drop word.length)
      else (strstr word s).map fun found => (c :: found.1, found.2)

/-- No beginning of the word is an end of it, but for the empty one and the whole. -/
def Unbordered (word : List Char) : Prop := ∀ part ∈ word.inits, part <:+ word → part = [] ∨ part = word

instance (word : List Char) : Decidable (Unbordered word) :=
  inferInstanceAs (Decidable (∀ part ∈ word.inits, part <:+ word → part = [] ∨ part = word))

variable {word s before behind : List Char}

theorem strstr_eq_none_iff : strstr word s = none ↔ ¬word <:+: s := by
  induction s with
  | nil => simp [strstr]
  | cons c s ih =>
      rw [strstr]
      split
      next hstarts =>
        have hbegin := List.isPrefixOf_iff_prefix.mp hstarts
        exact iff_of_false (by simp) fun hnot => hnot hbegin.isInfix
      next hstarts =>
        have hbegin : ¬word <+: c :: s := fun h => hstarts (List.isPrefixOf_iff_prefix.mpr h)
        rw [Option.map_eq_none_iff, ih, List.infix_cons_iff, not_or]
        exact ⟨fun hrest => ⟨hbegin, hrest⟩, And.right⟩

theorem eq_of_strstr (h : strstr word s = some (before, behind)) : s = before ++ word ++ behind := by
  induction s generalizing before with
  | nil =>
      rw [strstr] at h
      split at h
      next hword =>
        obtain ⟨rfl, rfl⟩ := Prod.mk.inj (Option.some.inj h)
        rw [hword, List.append_nil, List.append_nil]
      next => exact absurd h (by simp)
  | cons c s ih =>
      rw [strstr] at h
      split at h
      next hstarts =>
        obtain ⟨rest, hrest⟩ := List.isPrefixOf_iff_prefix.mp hstarts
        obtain ⟨rfl, rfl⟩ := Prod.mk.inj (Option.some.inj h)
        rw [← hrest, List.drop_left, List.nil_append]
      next =>
        obtain ⟨found, hfound, hsame⟩ := Option.map_eq_some_iff.mp h
        obtain ⟨rfl, rfl⟩ := Prod.mk.inj hsame
        rw [ih hfound, List.cons_append, List.cons_append]

/-- More text does not change what is found. -/
theorem strstr_append (h : strstr word s = some (before, behind)) (rest : List Char) :
    strstr word (s ++ rest) = some (before, behind ++ rest) := by
  induction s generalizing before with
  | nil =>
      rw [strstr] at h
      split at h
      next hword =>
        obtain ⟨rfl, rfl⟩ := Prod.mk.inj (Option.some.inj h)
        subst hword
        cases rest with
        | nil => rfl
        | cons c rest => rfl
      next => exact absurd h (by simp)
  | cons c s ih =>
      rw [strstr] at h
      rw [List.cons_append, strstr]
      split at h
      next hstarts =>
        obtain ⟨rfl, rfl⟩ := Prod.mk.inj (Option.some.inj h)
        have hbegin := List.isPrefixOf_iff_prefix.mp hstarts
        have hmore : word <+: c :: (s ++ rest) := hbegin.trans (List.prefix_append (c :: s) rest)
        rw [if_pos (List.isPrefixOf_iff_prefix.mpr hmore), ← List.cons_append,
          List.drop_append_of_le_length hbegin.length_le]
      next hstarts =>
        obtain ⟨found, hfound, hsame⟩ := Option.map_eq_some_iff.mp h
        obtain ⟨rfl, rfl⟩ := Prod.mk.inj hsame
        have hlength : word.length ≤ (c :: s).length := by
          rw [eq_of_strstr hfound]
          simp only [List.length_append, List.length_cons]
          omega
        have hmore : ¬word.isPrefixOf (c :: (s ++ rest)) = true := fun h =>
          hstarts (List.isPrefixOf_iff_prefix.mpr
            (List.prefix_of_prefix_length_le (List.isPrefixOf_iff_prefix.mp h)
              (List.prefix_append (c :: s) rest) hlength))
        rw [if_neg hmore, ih hfound]
        rfl

section unbordered

variable (hword : Unbordered word)

include hword

/-- The word does not begin in a text without it and end in another copy of itself. -/
theorem not_prefix_of_unbordered {c : Char} (hnot : ¬word <:+: c :: before) (behind : List Char) :
    ¬word <+: c :: before ++ (word ++ behind) := by
  intro h
  have hlong : (c :: before).length < word.length := by
    by_contra hshort
    exact hnot (List.prefix_of_prefix_length_le h (List.prefix_append _ _) (by omega)).isInfix
  obtain ⟨part, hpart⟩ :=
    List.prefix_of_prefix_length_le (List.prefix_append (c :: before) _) h hlong.le
  have hlength : part.length < word.length := by
    rw [← hpart, List.length_append, List.length_cons]
    omega
  -- what is left of the word stands at the beginning of the other copy
  have hleft : part <+: word := by
    have hboth : c :: before ++ part <+: c :: before ++ (word ++ behind) := by rwa [hpart]
    exact List.prefix_of_prefix_length_le ((List.prefix_append_right_inj _).mp hboth)
      (List.prefix_append _ _) hlength.le
  obtain hnone | hwhole := hword part ((List.mem_inits part word).mpr hleft) ⟨c :: before, hpart⟩
  · rw [hnone, List.append_nil] at hpart
    exact absurd (congrArg List.length hpart) hlong.ne
  · exact absurd (congrArg List.length hwhole) hlength.ne

/-- Behind a text that does not contain it, the word is found where it stands. -/
theorem strstr_behind (hne : word ≠ []) (hnot : ¬word <:+: before) (behind : List Char) :
    strstr word (before ++ (word ++ behind)) = some (before, behind) := by
  induction before with
  | nil =>
      cases word with
      | nil => exact absurd rfl hne
      | cons c word =>
          have hstarts : (c :: word).isPrefixOf (c :: (word ++ behind)) = true :=
            List.isPrefixOf_iff_prefix.mpr (List.prefix_append (c :: word) behind)
          rw [List.nil_append, List.cons_append, strstr, if_pos hstarts, ← List.cons_append, List.drop_left]
  | cons c before ih =>
      have hstarts : ¬word.isPrefixOf (c :: (before ++ (word ++ behind))) = true := fun h =>
        not_prefix_of_unbordered hword hnot behind (List.isPrefixOf_iff_prefix.mp h)
      have hrest : ¬word <:+: before := fun h => hnot (List.infix_cons h)
      rw [List.cons_append, strstr, if_neg hstarts, ih hrest]
      rfl

/-- The word is not found where its end is missing. -/
theorem not_infix_append_take (hnot : ¬word <:+: before) {k : Nat} (hk : k < word.length) :
    ¬word <:+: before ++ word.take k := by
  intro hinfix
  have hne : word ≠ [] := List.ne_nil_of_length_pos (Nat.zero_lt_of_lt hk)
  cases hfound : strstr word (before ++ word.take k) with
  | none => exact strstr_eq_none_iff.mp hfound hinfix
  | some found =>
      have hwhole := strstr_append hfound (word.drop k)
      have hbehind := strstr_behind hword hne hnot []
      rw [List.append_assoc, List.take_append_drop] at hwhole
      rw [List.append_nil, hwhole] at hbehind
      have hnil := (Prod.mk.inj (Option.some.inj hbehind)).2
      have hdrop := List.drop_eq_nil_iff.mp (List.append_eq_nil_iff.mp hnil).2
      omega

end unbordered

/-! ### A number behind a word -/

theorem skipSpace_append {c : Char} (hspace : isspace c = false) (s rest : List Char) :
    skipSpace (s ++ c :: rest) = skipSpace s ++ c :: rest := by
  induction s with
  | nil => rw [List.nil_append, skipSpace_cons rest hspace, skipSpace, List.dropWhile_nil, List.nil_append]
  | cons d s ih =>
      cases hd : isspace d with
      | false => rw [List.cons_append, skipSpace_cons _ hd, skipSpace_cons _ hd, List.cons_append]
      | true =>
          have hskip : ∀ t, skipSpace (d :: t) = skipSpace t := fun t => by
            rw [skipSpace, List.dropWhile_cons, hd, if_pos rfl, skipSpace]
          rw [List.cons_append, hskip, hskip, ih]

theorem digits_append_cons {c : Char} (hdigit : c.isDigit = false) (s rest : List Char) :
    digits (s ++ c :: rest) = digits s := by
  have htake : (s ++ c :: rest).takeWhile Char.isDigit = s.takeWhile Char.isDigit := by
    induction s with
    | nil => simp [hdigit]
    | cons d s ih =>
        rw [List.cons_append, List.takeWhile_cons, List.takeWhile_cons, ih]
  rw [digits, digits, htake]

theorem sign_append {c : Char} (hminus : c ≠ '-') (hplus : c ≠ '+') (s rest : List Char) :
    sign (s ++ c :: rest) = ((sign s).1, (sign s).2 ++ c :: rest) := by
  unfold sign
  cases s with
  | nil =>
      split
      next heq => exact absurd (List.cons.inj heq).1 hminus
      next heq => exact absurd (List.cons.inj heq).1 hplus
      next => rfl
  | cons d s =>
      by_cases hd : d = '-'
      · subst hd
        rfl
      · by_cases hd' : d = '+'
        · subst hd'
          rfl
        · split
          next heq => exact absurd (List.cons.inj heq).1 hd
          next heq => exact absurd (List.cons.inj heq).1 hd'
          next =>
            split
            next heq => exact absurd (List.cons.inj heq).1 hd
            next heq => exact absurd (List.cons.inj heq).1 hd'
            next => rfl

/-- `strtoul` stops at a character that is no part of a number. -/
theorem strtoul_append {c : Char} (hspace : isspace c = false) (hdigit : c.isDigit = false) (hminus : c ≠ '-')
    (hplus : c ≠ '+') (s rest : List Char) : strtoul (s ++ c :: rest) = strtoul s := by
  simp only [strtoul, skipSpace_append hspace, sign_append hminus hplus, digits_append_cons hdigit]

/-- A part of the digits of a number is smaller than the number. -/
theorem digits_take_lt {n k : Nat} (hn : n ≠ 0) (hk : k < (showNat n).length) :
    digits ((showNat n).take k) < n := by
  have hall : ((showNat n).take k).takeWhile Char.isDigit = (showNat n).take k :=
    List.takeWhile_eq_self_iff.mpr fun c hc => isDigit_of_mem_showNat (List.mem_of_mem_take hc)
  have hwhole : Nat.ofDigitChars 10 (showNat n) 0 = n := Nat.ofDigitChars_ten_toDigits
  rw [← List.take_append_drop k (showNat n), Nat.ofDigitChars_append, Nat.ofDigitChars_eq_ofDigitChars_zero]
    at hwhole
  have hpow : 10 ^ 1 ≤ 10 ^ ((showNat n).drop k).length :=
    Nat.pow_le_pow_right (by decide) (by rw [List.length_drop]; omega)
  have hmul := Nat.mul_le_mul_right (Nat.ofDigitChars 10 ((showNat n).take k) 0) hpow
  rw [digits, hall]
  omega

theorem strtoul_take_ne {n : UInt64} {k : Nat} (hn : n ≠ 0) (hk : k < (showNat n.toNat).length) :
    strtoul ((showNat n.toNat).take k) ≠ n := by
  have hzero : n.toNat ≠ 0 := fun h => hn (UInt64.toNat_inj.mp h)
  have hless := digits_take_lt hzero hk
  intro h
  cases htake : (showNat n.toNat).take k with
  | nil =>
      rw [htake] at h
      exact hn h.symm
  | cons c s =>
      have hc : c.isDigit = true :=
        isDigit_of_mem_showNat (List.mem_of_mem_take (htake ▸ List.mem_cons_self))
      have hvalue := toNat_strtoul_of_isDigit s hc
      rw [htake] at h hless
      rw [h] at hvalue
      omega

end CText
