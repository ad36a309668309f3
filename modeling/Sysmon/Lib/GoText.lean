import Mathlib.Data.List.DropRight
import Sysmon.Lib.CText
import Sysmon.Lib.GoSpace

/-!
# Text as Go's library reads it

The few functions of `strings` and `strconv` that a line protocol needs, on ASCII text: a line
without its end, its fields, and decimal numbers. A conversion that fails gives 0, or the nearest
number that fits where the text is a number, because callers drop the error. What is printed reads
back as itself, and a printed number that has lost its last digits reads back as another one.
-/

namespace GoText

open CText

/-- `strings.TrimRight` of the characters that end a line. -/
def trimEol (s : List Char) : List Char := s.rdropWhile fun c => c = '\r' || c = '\n'

/-- The space characters of an ASCII text. -/
def asciiSpaces : GoSpace.Spaces Char where
  short := isspace
  wide := []
  nonempty := by decide
  apart := by decide

/-- `strings.TrimSpace`. -/
def trimSpace (s : List Char) : List Char := asciiSpaces.trimSpace s

/-- `strings.Fields`. -/
def fields (s : List Char) : List (List Char) := asciiSpaces.fields s

/-- `strconv.ParseUint`, in base 10 and 64 bits. -/
def parseUint (s : List Char) : UInt64 :=
  if s = [] ∨ s.all Char.isDigit = false then 0
  else if 2 ^ 64 ≤ digits s then 2 ^ 64 - 1
  else UInt64.ofNat (digits s)

/-- A field of a line as a number, 0 where there is none. -/
def uintField (line : List Char) (n : Nat) : UInt64 :=
  match (fields line)[n]? with
  | none => 0
  | some field => if 2 ^ 64 ≤ digits field then 0 else parseUint field

/-- `strconv.Atoi`. -/
def atoi (s : List Char) : Int :=
  let (negative, rest) := sign s
  if rest = [] ∨ rest.all Char.isDigit = false then 0
  else max (- 2 ^ 63) (min (if negative then - digits rest else digits rest) (2 ^ 63 - 1))

/-! ### Lines and fields -/

theorem skip_ascii (s : List Char) : asciiSpaces.skip 0 s = s.dropWhile isspace := by
  induction s with
  | nil => rfl
  | cons c s ih =>
      cases hc : isspace c with
      | true =>
          have hall : [c].all asciiSpaces.short = true := by rwa [List.all_cons, List.all_nil, Bool.and_true]
          rw [List.dropWhile_cons_of_pos hc, ← ih]
          exact GoSpace.Spaces.skip_short hall s
      | false =>
          rw [List.dropWhile_cons_of_neg (Bool.eq_false_iff.mp hc)]
          exact GoSpace.Spaces.skip_of_zero (if_neg (Bool.eq_false_iff.mp hc))

theorem trimSpace_eq (s : List Char) : trimSpace s = (s.dropWhile isspace).rdropWhile isspace := by
  have hback : ∀ s : List Char, asciiSpaces.trimRight s = s.rdropWhile isspace := fun s =>
    congrArg List.reverse (skip_ascii s.reverse)
  rw [trimSpace, GoSpace.Spaces.trimSpace, GoSpace.Spaces.trimLeft, skip_ascii, hback]

theorem modifyHead_nil (words : List (List Char)) : words.modifyHead ([] ++ ·) = words := by cases words <;> rfl

theorem fieldsLoop_ascii (field s : List Char) :
    asciiSpaces.fieldsLoop field 0 s = ((s.splitOnP isspace).modifyHead (field ++ ·)).filter (· ≠ []) := by
  induction s generalizing field with
  | nil => by_cases hfield : field = [] <;> simp [GoSpace.Spaces.fieldsLoop, hfield]
  | cons c s ih =>
      rw [GoSpace.Spaces.fieldsLoop, List.splitOnP_cons_eq_if_modifyHead]
      cases hc : isspace c with
      | true =>
          have hlength : asciiSpaces.length (c :: s) = 1 := GoSpace.Spaces.length_short hc s
          have hrest := ih []
          rw [modifyHead_nil] at hrest
          simp only [hlength, hrest, if_true, List.modifyHead_cons, List.append_nil]
          by_cases hfield : field = [] <;> simp [hfield]
      | false =>
          have hlength : asciiSpaces.length (c :: s) = 0 := if_neg (Bool.eq_false_iff.mp hc)
          simp [hlength, ih, Function.comp_def]

theorem fields_eq (s : List Char) : fields s = (s.splitOnP isspace).filter (· ≠ []) := by
  rw [fields, GoSpace.Spaces.fields, fieldsLoop_ascii, modifyHead_nil]

theorem trimEol_of_not_mem {s : List Char} (hcr : '\r' ∉ s) (hnewline : '\n' ∉ s) : trimEol s = s := by
  rw [trimEol, List.rdropWhile_eq_self_iff]
  intro hne hlast
  simp only [Bool.or_eq_true, decide_eq_true_eq] at hlast
  obtain heq | heq := hlast
  · exact hcr (heq ▸ List.getLast_mem hne)
  · exact hnewline (heq ▸ List.getLast_mem hne)

theorem trimEol_concat_cr (s : List Char) : trimEol (s ++ ['\r']) = trimEol s := by
  rw [trimEol, List.rdropWhile_concat_pos _ _ _ (by decide), trimEol]

theorem trimEol_append {left : List Char} (hcr : '\r' ∉ left) (hnewline : '\n' ∉ left)
    (right : List Char) : trimEol (left ++ right) = left ++ trimEol right := by
  induction right using List.reverseRecOn with
  | nil => rw [List.append_nil, trimEol_of_not_mem hcr hnewline, trimEol, List.rdropWhile_nil,
      List.append_nil]
  | append_singleton right c ih =>
      rw [← List.append_assoc]
      by_cases hc : c = '\r' ∨ c = '\n'
      · rw [trimEol, List.rdropWhile_concat_pos _ _ _ (by simpa using hc), trimEol,
          List.rdropWhile_concat_pos _ _ _ (by simpa using hc)]
        exact ih
      · rw [trimEol, List.rdropWhile_concat_neg _ _ _ (by simpa using hc), trimEol,
          List.rdropWhile_concat_neg _ _ _ (by simpa using hc), List.append_assoc]

variable {word : List Char}

theorem fields_word (hne : word ≠ []) (hword : ∀ c ∈ word, isspace c = false) :
    fields word = [word] := by
  rw [fields_eq, List.splitOnP_eq_singleton hword]
  simp [hne]

theorem fields_blank (left right : List Char) :
    fields (left ++ ' ' :: right) = fields left ++ fields right := by
  rw [fields_eq, List.splitOnP_append_cons left right (by decide), List.filter_append, fields_eq, fields_eq]

theorem fields_cons (hne : word ≠ []) (hword : ∀ c ∈ word, isspace c = false) (rest : List Char) :
    fields (word ++ ' ' :: rest) = word :: fields rest := by
  rw [fields_blank, fields_word hne hword, List.singleton_append]

/-- A line that is cut behind a word. -/
theorem fields_take (hne : word ≠ []) (hword : ∀ c ∈ word, isspace c = false) (rest : List Char) (k : Nat) :
    fields ((word ++ ' ' :: rest).take (word.length + k)) = word :: fields (rest.take (k - 1)) := by
  rw [List.take_length_add_append]
  cases k with
  | zero =>
      rw [List.take_zero, List.append_nil, fields_word hne hword]
      rfl
  | succ k =>
      rw [List.take_succ_cons, fields_cons hne hword]
      rfl

/-- The first field of a line that is cut anywhere. -/
theorem first_field_take (hne : word ≠ []) (hword : ∀ c ∈ word, isspace c = false) (rest : List Char) (k : Nat)
    {field : List Char} (h : (fields ((word ++ ' ' :: rest).take k))[0]? = some field) : field <+: word := by
  by_cases hcut : k < word.length
  · rw [List.take_append_of_le_length (Nat.le_of_lt hcut)] at h
    by_cases hnil : word.take k = []
    · rw [hnil] at h
      exact nomatch h
    · rw [fields_word hnil fun c hc => hword c (List.mem_of_mem_take hc)] at h
      obtain rfl := Option.some.inj h
      exact List.take_prefix _ _
  · obtain ⟨j, rfl⟩ := Nat.exists_eq_add_of_le (Nat.not_lt.mp hcut)
    rw [fields_take hne hword] at h
    obtain rfl := Option.some.inj h
    exact List.prefix_rfl

theorem length_fields_le (hword : ∀ c ∈ word, isspace c = false) : (fields word).length ≤ 1 := by
  rw [fields_eq, List.splitOnP_eq_singleton hword]
  exact List.length_filter_le _ [word]

/-- A start that is a word stays. -/
theorem prefix_trimSpace (hne : word ≠ []) (hword : ∀ c ∈ word, isspace c = false) (rest : List Char) :
    word <+: trimSpace (word ++ rest) := by
  obtain ⟨c, cs, rfl⟩ := List.exists_cons_of_ne_nil hne
  rw [trimSpace_eq, List.cons_append, List.dropWhile_cons_of_neg (by simp [hword c List.mem_cons_self]),
    ← List.cons_append]
  induction rest using List.reverseRecOn with
  | nil =>
      have hlast : ∀ hl : c :: cs ≠ [], ¬isspace ((c :: cs).getLast hl) = true := by
        intro hl
        simp [hword _ (List.getLast_mem hl)]
      rw [List.append_nil, List.rdropWhile_eq_self_iff.mpr hlast]
  | append_singleton rest d ih =>
      rw [← List.append_assoc]
      by_cases hd : isspace d = true
      · rw [List.rdropWhile_concat_pos _ _ _ hd]
        exact ih
      · rw [List.rdropWhile_concat_neg _ _ _ hd, List.append_assoc]
        exact List.prefix_append _ _

theorem trimSpace_isPrefix {c : Char} (hc : isspace c = false) (s : List Char) : trimSpace (c :: s) <+: c :: s := by
  rw [trimSpace_eq, List.dropWhile_cons_of_neg (by simp [hc])]
  exact List.rdropWhile_prefix _ _

theorem fields_cons_space {c : Char} (hc : isspace c = true) (s : List Char) : fields (c :: s) = fields s := by
  rw [fields_eq, fields_eq, List.splitOnP_cons_eq_if_modifyHead, if_pos hc]
  simp

theorem fields_concat_space {c : Char} (hc : isspace c = true) (s : List Char) : fields (s ++ [c]) = fields s := by
  rw [fields_eq, fields_eq, List.splitOnP_append_cons s [] hc, List.filter_append]
  simp

/-- Blanks around a text make no fields. -/
theorem fields_trimSpace (s : List Char) : fields (trimSpace s) = fields s := by
  have hleft : fields (s.dropWhile isspace) = fields s := by
    induction s with
    | nil => rfl
    | cons c s ih =>
        by_cases hc : isspace c = true
        · rw [List.dropWhile_cons_of_pos hc, ih, fields_cons_space hc]
        · rw [List.dropWhile_cons_of_neg hc]
  rw [trimSpace_eq, ← hleft]
  induction s.dropWhile isspace using List.reverseRecOn with
  | nil => rfl
  | append_singleton s c ih =>
      by_cases hc : isspace c = true
      · rw [List.rdropWhile_concat_pos _ _ _ hc, ih, fields_concat_space hc]
      · rw [List.rdropWhile_concat_neg _ _ _ hc]

/-! ### Numbers -/

theorem all_isDigit_showNat (n : Nat) : (showNat n).all Char.isDigit = true := by
  rw [List.all_eq_true]
  exact fun c hc => isDigit_of_mem_showNat hc

theorem digits_of_all {s : List Char} (h : s.all Char.isDigit = true) :
    digits s = Nat.ofDigitChars 10 s 0 := by
  rw [digits, List.takeWhile_eq_self_iff.mpr (List.all_eq_true.mp h)]

theorem digits_showNat (n : Nat) : digits (showNat n) = n := by
  rw [digits_of_all (all_isDigit_showNat _), showNat, Nat.ofDigitChars_ten_toDigits]

/-- The start of a number is not above it. -/
theorem digits_le_showNat {s : List Char} {n : Nat} (h : s <+: showNat n) : digits s ≤ n := by
  have hall : s.all Char.isDigit = true := by
    rw [List.all_eq_true]
    exact fun c hc => isDigit_of_mem_showNat (h.subset hc)
  obtain ⟨rest, hrest⟩ := h
  have hwhole : Nat.ofDigitChars 10 (s ++ rest) 0 = n := by
    rw [hrest, showNat, Nat.ofDigitChars_ten_toDigits]
  rw [Nat.ofDigitChars_append, Nat.ofDigitChars_eq_ofDigitChars_zero] at hwhole
  rw [digits_of_all hall]
  have := Nat.le_mul_of_pos_left (Nat.ofDigitChars 10 s 0) (Nat.pow_pos (n := rest.length) (show 0 < 10 by decide))
  omega

theorem parseUint_showNat (n : UInt64) : parseUint (showNat n.toNat) = n := by
  have hvalue := digits_showNat n.toNat
  have hlt : ¬ 2 ^ 64 ≤ n.toNat := by
    have := n.toNat_lt
    omega
  simp only [parseUint, showNat_ne_nil, all_isDigit_showNat, hvalue, if_neg hlt, Bool.true_eq_false,
    or_self, if_false, UInt64.ofNat_toNat]

theorem toNat_parseUint_le (s : List Char) : (parseUint s).toNat ≤ digits s := by
  rw [parseUint]
  split
  · exact Nat.zero_le _
  · split
    next h => exact Nat.le_trans (Nat.le_of_lt_succ (UInt64.toNat_lt _)) (Nat.le_of_succ_le h)
    · rw [UInt64.toNat_ofNat']
      exact Nat.mod_le _ _

theorem uintField_showNat {line : List Char} {n : Nat} {m : UInt64}
    (h : (fields line)[n]? = some (showNat m.toNat)) : uintField line n = m := by
  simp only [uintField, h]
  have hlt := m.toNat_lt
  rw [digits_showNat, if_neg (by omega), parseUint_showNat]

/-- A number that is cut short is not above what it was. -/
theorem uintField_le {line : List Char} {n : Nat} {m : UInt64}
    (h : ∀ field, (fields line)[n]? = some field → field <+: showNat m.toNat) :
    (uintField line n).toNat ≤ m.toNat := by
  rw [uintField]
  split
  · exact Nat.zero_le _
  next field hfield =>
    split
    · exact Nat.zero_le _
    · exact Nat.le_trans (toNat_parseUint_le field) (digits_le_showNat (h field hfield))

theorem sign_of_all {s : List Char} (h : s.all Char.isDigit = true) : sign s = (false, s) := by
  rw [List.all_eq_true] at h
  rw [sign]
  · rintro rest ⟨rfl, -⟩
    exact absurd (h '-' List.mem_cons_self) (by decide)
  · rintro rest ⟨rfl, -⟩
    exact absurd (h '+' List.mem_cons_self) (by decide)

theorem atoi_of_all {s : List Char} (hne : s ≠ []) (h : s.all Char.isDigit = true) :
    atoi s = min (Nat.ofDigitChars 10 s 0 : Int) (2 ^ 63 - 1) := by
  simp only [atoi, sign_of_all h, hne, h, digits_of_all h, Bool.true_eq_false, or_self, if_false,
    Bool.false_eq_true]
  omega

theorem atoi_showNat {n : Nat} (h : n < 2 ^ 63) : atoi (showNat n) = n := by
  rw [atoi_of_all (showNat_ne_nil n) (all_isDigit_showNat n), showNat, Nat.ofDigitChars_ten_toDigits]
  omega

/-- A number that was cut short is smaller than it was, because it has at least two digits. -/
theorem atoi_take_showNat {n k : Nat} (hk : 0 < k) (hcut : k < (showNat n).length) :
    atoi ((showNat n).take k) < n := by
  have hne : (showNat n).take k ≠ [] := by
    rw [Ne, List.take_eq_nil_iff, not_or]
    exact ⟨by omega, showNat_ne_nil n⟩
  have hall : ((showNat n).take k).all Char.isDigit = true := by
    rw [List.all_eq_true]
    exact fun c hc => isDigit_of_mem_showNat (List.mem_of_mem_take hc)
  have hwhole : Nat.ofDigitChars 10 ((showNat n).take k ++ (showNat n).drop k) 0 = n := by
    rw [List.take_append_drop, showNat, Nat.ofDigitChars_ten_toDigits]
  rw [Nat.ofDigitChars_append, Nat.ofDigitChars_eq_ofDigitChars_zero, List.length_drop] at hwhole
  obtain ⟨j, hj⟩ : ∃ j, (showNat n).length - k = j + 1 := ⟨(showNat n).length - k - 1, by omega⟩
  have hpos : 0 < n := by
    by_contra hzero
    have : n = 0 := by omega
    subst this
    exact absurd hcut (by simp [showNat]; omega)
  have hten : 10 * Nat.ofDigitChars 10 ((showNat n).take k) 0 ≤
      10 ^ (j + 1) * Nat.ofDigitChars 10 ((showNat n).take k) 0 :=
    Nat.mul_le_mul_right _ (by rw [Nat.pow_succ]; have := Nat.one_le_pow j 10 (by decide); omega)
  rw [hj] at hwhole
  rw [atoi_of_all hne hall]
  omega

/-! ### Strings through JSON -/

def inRange (low high : UInt8) : Option UInt8 → Bool
  | some b => low ≤ b && b ≤ high
  | none => false

/-- The length of the UTF-8 sequence some bytes begin with, 0 if they begin with none. -/
def runeLength : List UInt8 → Nat
  | [] => 0
  | a :: s =>
      if a < 0x80 then 1
      else if 0xc2 ≤ a && a ≤ 0xdf && inRange 0x80 0xbf s[0]? then 2
      else if 0xe0 ≤ a && a ≤ 0xef &&
          inRange (if a = 0xe0 then 0xa0 else 0x80) (if a = 0xed then 0x9f else 0xbf) s[0]? &&
          inRange 0x80 0xbf s[1]? then 3
      else if 0xf0 ≤ a && a ≤ 0xf4 &&
          inRange (if a = 0xf0 then 0x90 else 0x80) (if a = 0xf4 then 0x8f else 0xbf) s[0]? &&
          inRange 0x80 0xbf s[1]? && inRange 0x80 0xbf s[2]? then 4
      else 0

/-- The bytes of a string that is read back, with so many of the current sequence still to come. A
byte that is not UTF-8 becomes U+FFFD. -/
def jsonLoop : Nat → List UInt8 → List UInt8
  | _, [] => []
  | left + 1, b :: s => b :: jsonLoop left s
  | 0, b :: s =>
      match runeLength (b :: s) with
      | 0 => 0xef :: 0xbf :: 0xbd :: jsonLoop 0 s
      | left + 1 => b :: jsonLoop left s

/-- What `json.Unmarshal` makes of what `json.Marshal` made of a string. -/
def jsonText (s : List UInt8) : List UInt8 := jsonLoop 0 s

/-- The length of a sequence is decided by its first byte and the bytes it is long. -/
theorem runeLength_congr {a : UInt8} {s s' : List UInt8} {n : Nat} (h : runeLength (a :: s) = n + 1)
    (hsame : ∀ i < n, s'[i]? = s[i]?) : runeLength (a :: s') = n + 1 := by
  simp only [runeLength] at h ⊢
  -- the bounds for the second byte depend on the first only
  generalize (if a = 0xe0 then (0xa0 : UInt8) else 0x80) = low3 at h ⊢
  generalize (if a = 0xed then (0x9f : UInt8) else 0xbf) = high3 at h ⊢
  generalize (if a = 0xf0 then (0x90 : UInt8) else 0x80) = low4 at h ⊢
  generalize (if a = 0xf4 then (0x8f : UInt8) else 0xbf) = high4 at h ⊢
  split at h
  next hone =>
    rw [if_pos hone]
    exact h
  next hone =>
    split at h
    next htwo =>
      obtain rfl : n = 1 := by omega
      rw [hsame 0 (by omega), if_neg hone, if_pos htwo]
    next htwo =>
      split at h
      next hthree =>
        obtain rfl : n = 2 := by omega
        rw [hsame 0 (by omega), hsame 1 (by omega), if_neg hone, if_neg htwo, if_pos hthree]
      next hthree =>
        split at h
        next hfour =>
          obtain rfl : n = 3 := by omega
          rw [hsame 0 (by omega), hsame 1 (by omega), hsame 2 (by omega), if_neg hone, if_neg htwo,
            if_neg hthree, if_pos hfour]
        next => exact absurd h (Nat.succ_ne_zero n).symm

theorem getElem?_jsonLoop {n : Nat} (s : List UInt8) {i : Nat} (h : i < n) : (jsonLoop n s)[i]? = s[i]? := by
  induction s generalizing n i with
  | nil => rw [jsonLoop]
  | cons b s ih =>
      cases n with
      | zero => exact absurd h (Nat.not_lt_zero i)
      | succ n =>
          rw [jsonLoop]
          cases i with
          | zero => rfl
          | succ i => exact ih (Nat.lt_of_succ_lt_succ h)

theorem jsonLoop_jsonLoop (n : Nat) (s : List UInt8) : jsonLoop n (jsonLoop n s) = jsonLoop n s := by
  induction s generalizing n with
  | nil => rw [jsonLoop, jsonLoop]
  | cons b s ih =>
      cases n with
      | succ n => rw [jsonLoop, jsonLoop, ih]
      | zero =>
          cases hlength : runeLength (b :: s) with
          | zero =>
              have hbad : jsonLoop 0 (b :: s) = 0xef :: 0xbf :: 0xbd :: jsonLoop 0 s := by
                rw [jsonLoop, hlength]
              have hmark : runeLength (0xef :: 0xbf :: 0xbd :: jsonLoop 0 s) = 3 := by
                simp [runeLength, inRange]
              rw [hbad, jsonLoop, hmark]
              simp only [jsonLoop, ih]
          | succ left =>
              have hgood : jsonLoop 0 (b :: s) = b :: jsonLoop left s := by rw [jsonLoop, hlength]
              have hagain : runeLength (b :: jsonLoop left s) = left + 1 :=
                runeLength_congr hlength fun i hi => getElem?_jsonLoop s hi
              rw [hgood, jsonLoop, hagain]
              simp only [ih]

/-- What has been through JSON once does not change again. -/
theorem jsonText_jsonText (s : List UInt8) : jsonText (jsonText s) = jsonText s := jsonLoop_jsonLoop 0 s

theorem jsonText_of_ascii {s : List UInt8} (h : ∀ b ∈ s, b < 0x80) : jsonText s = s := by
  rw [jsonText]
  induction s with
  | nil => rw [jsonLoop]
  | cons b s ih =>
      have hone : runeLength (b :: s) = 1 := by
        rw [runeLength, if_pos (h b List.mem_cons_self)]
      rw [jsonLoop, hone]
      simp only [ih fun c hc => h c (List.mem_cons_of_mem b hc)]

example : jsonText [0x61, 0xe3, 0x8e, 0x8f, 0x62] = [0x61, 0xe3, 0x8e, 0x8f, 0x62] := by decide

example : jsonText [0xff, 0x61] = [0xef, 0xbf, 0xbd, 0x61] := by decide

end GoText
