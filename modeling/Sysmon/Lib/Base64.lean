import Mathlib.Algebra.Order.Ring.Int
import Mathlib.Data.List.Basic
import Mathlib.Data.UInt

/-!
# Base64

The standard alphabet with padding, three bytes to four characters. The decoder is the usual loop
over the characters: it passes over those it is told to skip, collects the values of four and puts
out three bytes, or one fewer for each padding character. Padding may only be the third and fourth
character of the last four. What was encoded decodes to itself, also when it was cut into lines on
the way, because the line ends are skipped.
-/

namespace Base64

def alphabet : List Char :=
  "ABCDEFGHIJKLMNOPQRSTUVWXYZabcdefghijklmnopqrstuvwxyz0123456789+/".toList

/-- The character for six bits. -/
def letter (value : Nat) : Char := alphabet.getD (value % 64) 'A'

/-- Three bytes as one number of 24 bits. -/
def number (a b c : UInt8) : Nat := a.toNat * 65536 + b.toNat * 256 + c.toNat

def encode : List UInt8 → List Char
  | a :: b :: c :: rest =>
      let v := number a b c
      letter (v / 262144) :: letter (v / 4096) :: letter (v / 64) :: letter v :: encode rest
  | [a, b] =>
      let v := number a b 0
      [letter (v / 262144), letter (v / 4096), letter (v / 64), '=']
  | [a] =>
      let v := number a 0 0
      [letter (v / 262144), letter (v / 4096), '=', '=']
  | [] => []

/-- The six bits of a character of the alphabet. -/
def value (c : Char) : Option Nat :=
  if 'A' ≤ c ∧ c ≤ 'Z' then some (c.toNat - 'A'.toNat)
  else if 'a' ≤ c ∧ c ≤ 'z' then some (c.toNat - 'a'.toNat + 26)
  else if '0' ≤ c ∧ c ≤ '9' then some (c.toNat - '0'.toNat + 52)
  else if c = '+' then some 62
  else if c = '/' then some 63
  else none

/-- What the decoder holds: the bytes put out, the values of the current four, the padding seen. -/
structure State where
  out : List UInt8
  quad : List Nat
  pad : Nat
  deriving DecidableEq, Repr

/-- A full four goes out as three bytes less the padding. -/
def State.flush (s : State) : State :=
  match s.quad with
  | [a, b, c, d] =>
      let acc := a * 262144 + b * 4096 + c * 64 + d
      let bytes := [UInt8.ofNat (acc / 65536), UInt8.ofNat (acc / 256), UInt8.ofNat acc]
      { s with out := s.out ++ bytes.take (3 - s.pad), quad := [] }
  | _ => s

def step (skip : Char → Bool) (s : State) (c : Char) : Option State :=
  if skip c then some s
  else if c = '=' then
    if s.quad.length < 2 ∨ 2 ≤ s.pad then none
    else some { s with quad := s.quad ++ [0], pad := s.pad + 1 : State }.flush
  else
    match value c with
    | none => none
    | some v => if 0 < s.pad then none else some { s with quad := s.quad ++ [v] : State }.flush

def decode (skip : Char → Bool) (text : List Char) : Option (List UInt8) :=
  match text.foldlM (step skip) ⟨[], [], 0⟩ with
  | some s => if s.quad = [] then some s.out else none
  | none => none

/-! ### Letters -/

theorem letter_mod (v : Nat) : letter (v % 64) = letter v := by rw [letter, letter, Nat.mod_mod]

theorem value_letter (v : Nat) : value (letter v) = some (v % 64) := by
  have hall : ∀ i : Fin 64, value (letter i) = some i.val := by decide +kernel
  rw [← letter_mod]
  exact hall ⟨v % 64, Nat.mod_lt v (by decide)⟩

/-- The characters of encoded text: the alphabet and the padding. -/
def isText (c : Char) : Bool := c = '=' || (value c).isSome

theorem isText_letter (v : Nat) : isText (letter v) = true := by simp [isText, value_letter]

theorem letter_ne_pad (v : Nat) : letter v ≠ '=' := by
  intro heq
  have hvalue := value_letter v
  have hnone : value '=' = none := by decide
  rw [heq, hnone] at hvalue
  exact absurd hvalue (by simp)

theorem isText_of_mem_encode (bytes : List UInt8) : ∀ c ∈ encode bytes, isText c = true := by
  induction bytes using encode.induct with
  | case1 a b c rest ih =>
      intro d hd
      simp only [encode, List.mem_cons] at hd
      obtain rfl | rfl | rfl | rfl | hd := hd
      · exact isText_letter _
      · exact isText_letter _
      · exact isText_letter _
      · exact isText_letter _
      · exact ih d hd
  | case2 a b | case3 a =>
      intro d hd
      simp only [encode, List.mem_cons, List.not_mem_nil, or_false] at hd
      obtain rfl | rfl | rfl | rfl := hd <;> first | exact isText_letter _ | decide
  | case4 => exact fun d hd => absurd hd List.not_mem_nil

theorem not_mem_encode {c : Char} (h : isText c = false) (bytes : List UInt8) : c ∉ encode bytes := by
  intro hmem
  rw [isText_of_mem_encode bytes c hmem] at h
  exact absurd h (by decide)

theorem length_encode (bytes : List UInt8) :
    (encode bytes).length = 4 * ((bytes.length + 2) / 3) := by
  induction bytes using encode.induct with
  | case1 a b c rest ih =>
      simp only [encode, List.length_cons, ih]
      omega
  | case2 a b => simp [encode]
  | case3 a => simp [encode]
  | case4 => rfl

/-- Three bytes in, four characters out, so a cut after a multiple of three bytes is a cut after a
multiple of four characters. -/
theorem drop_encode (bytes : List UInt8) (n : Nat) :
    (encode bytes).drop (4 * n) = encode (bytes.drop (3 * n)) := by
  induction n generalizing bytes with
  | zero => rfl
  | succ n ih =>
      have hfour : 4 * (n + 1) = 4 * n + 1 + 1 + 1 + 1 := by omega
      have hthree : 3 * (n + 1) = 3 * n + 1 + 1 + 1 := by omega
      rw [hfour, hthree]
      match bytes with
      | a :: b :: c :: rest =>
          simp only [encode, List.drop_succ_cons]
          exact ih rest
      | [a, b] | [a] | [] => simp [encode]

/-! ### Decoding -/

theorem foldlM_filter {skip : Char → Bool} (text : List Char) (s : State) :
    text.foldlM (step skip) s = (text.filter fun c => !skip c).foldlM (step skip) s := by
  induction text generalizing s with
  | nil => rfl
  | cons c text ih =>
      cases hskip : skip c with
      | true => simp only [List.foldlM_cons, List.filter_cons, hskip, step, if_true, Bool.not_true,
          Bool.false_eq_true, if_false, Option.bind_eq_bind, Option.bind_some, ih]
      | false =>
          simp only [List.foldlM_cons, List.filter_cons, hskip, Bool.not_false, if_true]
          congr 1
          funext s'
          exact ih s'

theorem decode_filter (skip : Char → Bool) (text : List Char) :
    decode skip text = decode skip (text.filter fun c => !skip c) := by
  rw [decode, decode, foldlM_filter]

theorem number_sextets (a b c : UInt8) :
    number a b c / 262144 % 64 * 262144 + number a b c / 4096 % 64 * 4096 +
      number a b c / 64 % 64 * 64 + number a b c % 64 = number a b c := by
  have ha := a.toNat_lt
  have hb := b.toNat_lt
  have hc := c.toNat_lt
  have hv : number a b c = a.toNat * 65536 + b.toNat * 256 + c.toNat := rfl
  omega

/-- The three bytes that went into a number come out of it. -/
theorem bytes_number (a b c : UInt8) :
    [UInt8.ofNat (number a b c / 65536), UInt8.ofNat (number a b c / 256),
      UInt8.ofNat (number a b c)] = [a, b, c] := by
  have ha := a.toNat_lt
  have hb := b.toNat_lt
  have hc := c.toNat_lt
  have hv : number a b c = a.toNat * 65536 + b.toNat * 256 + c.toNat := rfl
  have hbyte : ∀ (n : Nat) (byte : UInt8), n % 256 = byte.toNat → UInt8.ofNat n = byte := by
    intro n byte h
    rw [← UInt8.toNat_inj, UInt8.toNat_ofNat']
    exact h
  rw [hbyte _ a (by omega), hbyte _ b (by omega), hbyte _ c (by omega)]

/-- Four characters' worth of a number goes out as its bytes, as many as the padding leaves. -/
theorem flush_number (out : List UInt8) (a b c : UInt8) (pad : Nat) :
    State.flush ⟨out, [number a b c / 262144 % 64, number a b c / 4096 % 64,
      number a b c / 64 % 64, number a b c % 64], pad⟩ =
      ⟨out ++ [a, b, c].take (3 - pad), [], pad⟩ := by
  simp only [State.flush, number_sextets, bytes_number]

section roundTrip

variable {skip : Char → Bool} (hskip : ∀ c, isText c = true → skip c = false)

include hskip

theorem step_letter (out : List UInt8) (quad : List Nat) (v : Nat) :
    step skip ⟨out, quad, 0⟩ (letter v) = some (State.flush ⟨out, quad ++ [v % 64], 0⟩) := by
  simp only [step, hskip _ (isText_letter v), Bool.false_eq_true, if_false, letter_ne_pad,
    value_letter, Nat.lt_irrefl]

theorem step_pad {out : List UInt8} {quad : List Nat} {pad : Nat} (hquad : 2 ≤ quad.length)
    (hpad : pad < 2) :
    step skip ⟨out, quad, pad⟩ '=' = some (State.flush ⟨out, quad ++ [0], pad + 1⟩) := by
  have hok : ¬ (quad.length < 2 ∨ 2 ≤ pad) := by omega
  have hplain : skip '=' = false := hskip '=' (by decide)
  simp only [step, hplain, Bool.false_eq_true, if_false, if_true, if_neg hok]

/-- The first two characters of a four. -/
theorem foldlM_two (out : List UInt8) (v w : Nat) (text : List Char) :
    (letter v :: letter w :: text).foldlM (step skip) ⟨out, [], 0⟩ =
      text.foldlM (step skip) ⟨out, [v % 64, w % 64], 0⟩ := by
  simp only [List.foldlM_cons, step_letter hskip, Option.bind_eq_bind, Option.bind_some, State.flush,
    List.nil_append, List.cons_append]

/-- From any point where no four is begun, encoded text adds its bytes. -/
theorem foldlM_encode (bytes out : List UInt8) :
    ∃ pad, (encode bytes).foldlM (step skip) ⟨out, [], 0⟩ = some ⟨out ++ bytes, [], pad⟩ := by
  induction bytes using encode.induct generalizing out with
  | case1 a b c rest ih =>
      obtain ⟨pad, hrest⟩ := ih (out ++ [a, b, c])
      refine ⟨pad, ?_⟩
      rw [encode, foldlM_two hskip, List.foldlM_cons, step_letter hskip, Option.bind_eq_bind,
        Option.bind_some]
      have hthree : State.flush ⟨out, [number a b c / 262144 % 64, number a b c / 4096 % 64] ++
          [number a b c / 64 % 64], 0⟩ = ⟨out, [number a b c / 262144 % 64,
            number a b c / 4096 % 64, number a b c / 64 % 64], 0⟩ := rfl
      rw [hthree, List.foldlM_cons, step_letter hskip, Option.bind_eq_bind, Option.bind_some]
      have hfour := flush_number out a b c 0
      rw [List.cons_append, List.cons_append, List.cons_append, List.nil_append, hfour]
      simpa using hrest
  | case2 a b =>
      refine ⟨1, ?_⟩
      have hzero : number a b 0 % 64 = 0 := by simp only [number, UInt8.toNat_zero]; omega
      have hfour := flush_number out a b 0 1
      rw [hzero] at hfour
      rw [encode, foldlM_two hskip, List.foldlM_cons, step_letter hskip, Option.bind_eq_bind,
        Option.bind_some]
      have hthree : State.flush ⟨out, [number a b 0 / 262144 % 64, number a b 0 / 4096 % 64] ++
          [number a b 0 / 64 % 64], 0⟩ = ⟨out, [number a b 0 / 262144 % 64,
            number a b 0 / 4096 % 64, number a b 0 / 64 % 64], 0⟩ := rfl
      rw [hthree, List.foldlM_cons, step_pad hskip (by simp) (by omega), Option.bind_eq_bind,
        Option.bind_some, List.cons_append, List.cons_append, List.cons_append, List.nil_append,
        hfour]
      rfl
  | case3 a =>
      refine ⟨2, ?_⟩
      have hzero : number a 0 0 % 64 = 0 := by simp only [number, UInt8.toNat_zero]; omega
      have hzero' : number a 0 0 / 64 % 64 = 0 := by simp only [number, UInt8.toNat_zero]; omega
      have hfour := flush_number out a 0 0 2
      rw [hzero, hzero'] at hfour
      rw [encode, foldlM_two hskip, List.foldlM_cons, step_pad hskip (by simp) (by omega),
        Option.bind_eq_bind, Option.bind_some]
      have hthree : State.flush ⟨out, [number a 0 0 / 262144 % 64, number a 0 0 / 4096 % 64] ++
          [0], 1⟩ = ⟨out, [number a 0 0 / 262144 % 64, number a 0 0 / 4096 % 64, 0], 1⟩ := rfl
      rw [hthree, List.foldlM_cons, step_pad hskip (by simp) (by omega), Option.bind_eq_bind,
        Option.bind_some, List.cons_append, List.cons_append, List.cons_append, List.nil_append,
        hfour]
      rfl
  | case4 => exact ⟨0, by simp [encode]⟩

theorem decode_encode (bytes : List UInt8) : decode skip (encode bytes) = some bytes := by
  obtain ⟨pad, hfold⟩ := foldlM_encode hskip bytes []
  rw [decode, hfold]
  rfl

/-- Encoded text with skipped characters anywhere in it. -/
theorem decode_of_filter {text : List Char} {bytes : List UInt8}
    (h : text.filter (fun c => !skip c) = encode bytes) : decode skip text = some bytes := by
  rw [decode_filter, h, decode_encode hskip]

end roundTrip

/-! ### The texts the decoder accepts -/

/-- A complete text: whole fours, and padding only at its end, at most two characters of it. -/
structure WellFormed (text : List Char) : Prop where
  fours : 4 ∣ text.length
  padded : ∃ letters pad, text = letters ++ List.replicate pad '=' ∧ pad ≤ 2 ∧
    ∀ c ∈ letters, (value c).isSome = true

/-- What the decoder's state says of the text it has been through. -/
structure Collected (text : List Char) (s : State) : Prop where
  padded : ∃ letters, text = letters ++ List.replicate s.pad '=' ∧
    ∀ c ∈ letters, (value c).isSome = true
  pad_le : s.pad ≤ 2
  quad_length : s.quad.length = text.length % 4

theorem flush_pad (s : State) : s.flush.pad = s.pad := by
  unfold State.flush
  split <;> rfl

theorem flush_quad_length {s : State} (h : s.quad.length ≤ 4) :
    s.flush.quad.length = s.quad.length % 4 := by
  unfold State.flush
  split
  · rename_i a b c d hquad
    simp [hquad]
  · rename_i hquad
    have hlt : s.quad.length ≠ 4 := fun h4 => by
      obtain ⟨a, b, c, d, hfour⟩ := List.length_eq_four.mp h4
      exact hquad a b c d hfour
    rw [Nat.mod_eq_of_lt (by omega)]

theorem Collected.step {skip : Char → Bool} {text : List Char} {s s' : State} {c : Char}
    (h : Collected text s) (hc : skip c = false) (hstep : step skip s c = some s') :
    Collected (text ++ [c]) s' := by
  obtain ⟨⟨letters, htext, hletters⟩, hpad, hquad⟩ := h
  simp only [Base64.step, hc, Bool.false_eq_true, if_false] at hstep
  by_cases hequals : c = '='
  · rw [if_pos hequals] at hstep
    split at hstep
    · exact absurd hstep (by simp)
    · rename_i hroom
      obtain rfl := Option.some.inj hstep
      refine ⟨⟨letters, ?_, hletters⟩, ?_, ?_⟩
      · rw [flush_pad, htext, hequals, List.append_assoc, List.replicate_succ']
      · rw [flush_pad]
        show s.pad + 1 ≤ 2
        omega
      · rw [flush_quad_length (by simp only [List.length_append, List.length_singleton]; omega)]
        simp only [List.length_append, List.length_singleton, hquad]
        omega
  · rw [if_neg hequals] at hstep
    cases hvalue : value c with
    | none => simp [hvalue] at hstep
    | some v =>
        simp only [hvalue] at hstep
        split at hstep
        · exact absurd hstep (by simp)
        · rename_i hnone
          have hzero : s.pad = 0 := by omega
          obtain rfl := Option.some.inj hstep
          refine ⟨⟨letters ++ [c], ?_, ?_⟩, ?_, ?_⟩
          · rw [flush_pad, htext, hzero]
            simp
          · intro d hd
            obtain hd | hd := List.mem_append.mp hd
            · exact hletters d hd
            · obtain rfl := List.mem_singleton.mp hd
              rw [hvalue]
              rfl
          · rw [flush_pad]
            exact hpad
          · rw [flush_quad_length (by simp only [List.length_append, List.length_singleton]; omega)]
            simp only [List.length_append, List.length_singleton, hquad]
            omega

theorem Collected.foldlM {skip : Char → Bool} {text : List Char} (hskip : ∀ c ∈ text, skip c = false)
    {before : List Char} {s s' : State} (h : Collected before s)
    (hfold : text.foldlM (Base64.step skip) s = some s') : Collected (before ++ text) s' := by
  induction text generalizing before s with
  | nil =>
      obtain rfl := Option.some.inj hfold
      rwa [List.append_nil]
  | cons c text ih =>
      rw [List.foldlM_cons, Option.bind_eq_bind, Option.bind_eq_some_iff] at hfold
      obtain ⟨mid, hstep, hrest⟩ := hfold
      have hmid := h.step (hskip c List.mem_cons_self) hstep
      have hall := ih (fun d hd => hskip d (List.mem_cons_of_mem c hd)) hmid hrest
      rwa [List.append_assoc] at hall

section accepts

variable {skip : Char → Bool} (hskip : ∀ c, isText c = true → skip c = false)

include hskip

theorem step_value {s : State} (hpad : s.pad = 0) {c : Char} {v : Nat} (hv : value c = some v) :
    step skip s c = some { s with quad := s.quad ++ [v] : State }.flush := by
  have hplain : skip c = false := hskip c (by simp [isText, hv])
  have hequals : c ≠ '=' := fun h => by
    have hnone : value '=' = none := by decide
    rw [h, hnone] at hv
    exact absurd hv (by simp)
  simp only [step, hplain, Bool.false_eq_true, if_false, if_neg hequals, hv, hpad, Nat.lt_irrefl]

theorem foldlM_letters {letters : List Char} (h : ∀ c ∈ letters, (value c).isSome = true) {s : State}
    (hpad : s.pad = 0) (hquad : s.quad.length < 4) :
    ∃ s', letters.foldlM (step skip) s = some s' ∧ s'.pad = 0 ∧
      s'.quad.length = (s.quad.length + letters.length) % 4 := by
  induction letters generalizing s with
  | nil => exact ⟨s, rfl, hpad, (Nat.mod_eq_of_lt hquad).symm⟩
  | cons c letters ih =>
      obtain ⟨v, hv⟩ := Option.isSome_iff_exists.mp (h c List.mem_cons_self)
      have hlength : ({ s with quad := s.quad ++ [v] } : State).flush.quad.length =
          (s.quad.length + 1) % 4 := by
        rw [flush_quad_length (by simp only [List.length_append, List.length_singleton]; omega)]
        simp only [List.length_append, List.length_singleton]
      obtain ⟨s', hfold, hpad', hquad'⟩ := ih (fun d hd => h d (List.mem_cons_of_mem c hd))
        (s := ({ s with quad := s.quad ++ [v] } : State).flush) (by rw [flush_pad]; exact hpad)
        (by rw [hlength]; exact Nat.mod_lt _ (by omega))
      refine ⟨s', ?_, hpad', ?_⟩
      · rw [List.foldlM_cons, step_value hskip hpad hv, Option.bind_eq_bind, Option.bind_some, hfold]
      · rw [hquad', hlength, List.length_cons]
        omega

/-- Padding that fills the last four. -/
theorem foldlM_pads {s : State} (hpad : s.pad = 0) {pad : Nat} (hle : pad ≤ 2)
    (hquad : (s.quad.length + pad) % 4 = 0) (hlt : s.quad.length < 4) :
    ∃ s', (List.replicate pad '=').foldlM (step skip) s = some s' ∧ s'.quad = [] := by
  obtain ⟨out, quad, p⟩ := s
  obtain rfl : p = 0 := hpad
  have hquad : (quad.length + pad) % 4 = 0 := hquad
  have hlt : quad.length < 4 := hlt
  match pad, hle with
  | 0, _ => exact ⟨⟨out, quad, 0⟩, rfl, List.length_eq_zero_iff.mp (by omega)⟩
  | 1, _ =>
      have hthree : quad.length = 3 := by omega
      have hstep : step skip ⟨out, quad, 0⟩ '=' = some (State.flush ⟨out, quad ++ [0], 0 + 1⟩) :=
        step_pad hskip (by omega) (by omega)
      refine ⟨_, by rw [List.replicate_one, List.foldlM_cons, hstep]; rfl, ?_⟩
      exact List.length_eq_zero_iff.mp (by rw [flush_quad_length] <;> simp [hthree])
  | 2, _ =>
      have htwo : quad.length = 2 := by omega
      obtain ⟨a, b, rfl⟩ := List.length_eq_two.mp htwo
      have hfirst : step skip ⟨out, [a, b], 0⟩ '=' = some ⟨out, [a, b, 0], 1⟩ :=
        step_pad hskip (by simp) (by omega)
      have hsecond : step skip ⟨out, [a, b, 0], 1⟩ '=' =
          some (State.flush ⟨out, [a, b, 0] ++ [0], 1 + 1⟩) := step_pad hskip (by simp) (by omega)
      exact ⟨_, by
        rw [List.replicate_succ, List.replicate_one, List.foldlM_cons, hfirst, Option.bind_eq_bind,
          Option.bind_some, List.foldlM_cons, hsecond]
        rfl, rfl⟩

theorem decode_isSome_iff (text : List Char) :
    (decode skip text).isSome = true ↔ WellFormed (text.filter fun c => !skip c) := by
  rw [decode_filter]
  have hplain : ∀ c ∈ text.filter (fun c => !skip c), skip c = false := by
    intro c hc
    simpa using (List.mem_filter.mp hc).2
  generalize text.filter (fun c => !skip c) = plain at hplain
  constructor
  · intro h
    unfold decode at h
    split at h
    · rename_i s hfold
      split at h
      · rename_i hquad
        have hstart : Collected [] ⟨[], [], 0⟩ := ⟨⟨[], rfl, by simp⟩, by simp, rfl⟩
        obtain ⟨⟨letters, htext, hletters⟩, hpad, hlength⟩ := hstart.foldlM hplain hfold
        rw [List.nil_append] at htext hlength
        refine ⟨?_, letters, s.pad, htext, hpad, hletters⟩
        rw [hquad, List.length_nil] at hlength
        omega
      · exact absurd h (by simp)
    · exact absurd h (by simp)
  · rintro ⟨hfours, letters, pad, rfl, hpad, hletters⟩
    rw [List.length_append, List.length_replicate] at hfours
    obtain ⟨s, hfold, hzero, hquad⟩ := foldlM_letters hskip hletters (s := ⟨[], [], 0⟩) rfl (by simp)
    rw [List.length_nil, Nat.zero_add] at hquad
    obtain ⟨s', hpads, hdone⟩ := foldlM_pads hskip hzero hpad (by rw [hquad]; omega)
      (by rw [hquad]; exact Nat.mod_lt _ (by omega))
    have hall : (letters ++ List.replicate pad '=').foldlM (step skip) ⟨[], [], 0⟩ = some s' := by
      rw [List.foldlM_append, hfold]
      exact hpads
    simp [decode, hall, hdone]

end accepts

end Base64
