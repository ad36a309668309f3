import Sysmon.Host
import Sysmon.Trap.Decode

/-!
# What an SNMP check concludes

`service_test_snmp` of `snmp.c`, from the value in the response to the verdict. All values arrive in
one `unsigned long`, and so are the configured numbers kept, so the comparisons are those of unsigned
numbers: one side that is negative is taken for the larger. A `Counter64` in the upper half of its
range takes nine bytes, which is more than `snmp_ber_uint` reads. And the range check reports the
values that are in the range.
-/

namespace Sysmon

namespace Result

def badResp : Int16 := 12
def snmpReboot : Int16 := 17
def snmpHigh : Int16 := 18
def snmpLow : Int16 := 19
def snmpOor : Int16 := 20
def snmpNotexact : Int16 := 21
def snmpHighrate : Int16 := 22

end Result

namespace Snmp

open CText

/-! ### Reading a number -/

theorem toNat_berAccumulate_eq {acc : UInt64} {a : Int} (h : (acc.toNat : Int) = a % 2 ^ 64)
    (v : List UInt8) :
    ((berAccumulate acc v).toNat : Int) =
      v.foldl (fun acc b => acc * 256 + (b.toNat : Int)) a % 2 ^ 64 := by
  induction v generalizing acc a with
  | nil => exact h
  | cons b v ih =>
      refine ih ?_
      show (((acc <<< 8 ||| b.toUInt64).toNat : Nat) : Int) = (a * 256 + (b.toNat : Int)) % 2 ^ 64
      rw [toNat_shift_or]
      omega

theorem top_bit_iff (b : UInt8) : b &&& 0x80 ≠ 0 ↔ 128 ≤ b.toNat := by
  have hall : ∀ i : Fin 256, UInt8.ofNat i.val &&& 0x80 ≠ 0 ↔ 128 ≤ i.val := by decide +kernel
  have hb := hall ⟨b.toNat, b.toNat_lt⟩
  rwa [UInt8.ofNat_toNat] at hb


theorem berSign_integer (x : Int) : berSign (Ber.integer x) = if x < 0 then ~~~0 else 0 := by
  rw [berSign]
  by_cases hneg : x < 0
  · rw [if_pos hneg, if_pos ((top_bit_iff _).mpr ((Ber.head_integer x).mpr hneg))]
  · rw [if_neg hneg, if_neg fun htop => hneg ((Ber.head_integer x).mp ((top_bit_iff _).mp htop))]

/-- A number that fits eight bytes is read as itself, up to what a `long` can tell apart. -/
theorem toNat_snmpBerInt_integer {x : Int} (hlow : -2 ^ 63 ≤ x) (hhigh : x < 2 ^ 63) :
    ((snmpBerInt (Ber.integer x)).toUInt64.toNat : Int) = x % 2 ^ 64 := by
  have hlen : (Ber.integer x).length ≤ 7 + 1 := by
    rw [Ber.length_integer_le_iff]
    omega
  rw [snmpBerInt_eq (Ber.integer_ne_nil x) hlen, UInt64.toUInt64_toInt64,
    toNat_berAccumulate_eq (a := if x < 0 then -1 else 0) _ (Ber.integer x), Ber.foldl_integer]
  rw [berSign_integer]
  split <;> decide

theorem toNat_snmpBerUint_integer {x : Int} (hpos : 0 ≤ x) (hhigh : x < 2 ^ 63) :
    ((Trap.snmpBerUint (Ber.integer x)).toNat : Int) = x := by
  have hlen : (Ber.integer x).length ≤ 7 + 1 := by
    rw [Ber.length_integer_le_iff]
    omega
  have hne := List.length_pos_iff.mpr (Ber.integer_ne_nil x)
  have hfold := Ber.foldl_integer x
  rw [if_neg (by omega)] at hfold
  rw [Trap.snmpBerUint, if_neg (by omega), toNat_berAccumulate_eq (a := 0) rfl, hfold]
  omega

/-- A number of nine bytes is not read at all. -/
theorem snmpBerUint_integer_wide {x : Int} (h : 2 ^ 63 ≤ x) : Trap.snmpBerUint (Ber.integer x) = 0 := by
  have hlen : ¬(Ber.integer x).length ≤ 7 + 1 := by
    rw [Ber.length_integer_le_iff]
    omega
  rw [Trap.snmpBerUint, if_pos (by omega)]

/-! ### The value -/

/-- `struct snmp_value`. -/
structure SnmpValue where
  haveValue : Bool
  value : UInt64
  type : CStr
  oid : CStr
  errorStatus : Int32
  exception : CStr
  deriving DecidableEq, Repr

def SnmpValue.blank : SnmpValue := ⟨false, 0, [], [], 0, []⟩

def snmpValueFromTag (tag : UInt8) (v : List UInt8) (out : SnmpValue) : SnmpValue :=
  if tag = 0x02 then
    { out with type := "INTEGER".toList, value := (snmpBerInt v).toUInt64, haveValue := true }
  else if tag = 0x41 then
    { out with type := "Counter32".toList, value := Trap.snmpBerUint v, haveValue := true }
  else if tag = 0x42 then
    { out with type := "Gauge32".toList, value := Trap.snmpBerUint v, haveValue := true }
  else if tag = 0x43 then
    { out with type := "TimeTicks".toList, value := Trap.snmpBerUint v, haveValue := true }
  else if tag = 0x46 then
    { out with type := "Counter64".toList, value := Trap.snmpBerUint v, haveValue := true }
  else if tag = 0x80 then
    { out with type := "exception".toList, exception := "noSuchObject".toList }
  else if tag = 0x81 then
    { out with type := "exception".toList, exception := "noSuchInstance".toList }
  else if tag = 0x82 then
    { out with type := "exception".toList, exception := "endOfMibView".toList }
  else if tag = 0x04 then { out with type := "STRING".toList }
  else if tag = 0x40 then { out with type := "IpAddress".toList }
  else { out with type := "tag 0x".toList ++ Trap.hexByte tag }

/-! ### The check -/

/-- `struct snmpdata`. -/
structure SnmpData where
  reqid : UInt64
  snmpRetval : UInt64
  snmpResponseTime : Time
  snmpResponse : Bool
  deriving DecidableEq, Repr

/-- What `start_test_snmp` leaves. -/
def SnmpData.started (reqid : UInt64) : SnmpData := ⟨reqid, 0, 0, false⟩

/-- What a response does to a check: it may be the end of it, or be kept. -/
def takeResponse (localstruct : SnmpData) (retval : Int16) (now : Time) (value : SnmpValue) :
    SnmpData × Int16 :=
  if value.errorStatus ≠ 0 then (localstruct, Result.badResp)
  else if value.exception ≠ [] then (localstruct, Result.badResp)
  else if !value.haveValue then (localstruct, Result.badResp)
  else
    ({ localstruct with
        snmpRetval := value.value
        snmpResponse := true
        snmpResponseTime := now }, retval)

/-! The three numbers of the rate check. -/

def rateTime (svc : HostInfo) (localstruct : SnmpData) : UInt64 :=
  (localstruct.snmpResponseTime - svc.lastSnmpResptime).toUInt64

def rateTimeVal (svc : HostInfo) (localstruct : SnmpData) : UInt64 :=
  localstruct.snmpRetval - svc.systemUptime

/-- The dividend of the average: octets count as bits. -/
def rateScaled (svc : HostInfo) (localstruct : SnmpData) : UInt64 :=
  if svc.snmpOctets then rateTimeVal svc localstruct * 8 else rateTimeVal svc localstruct

def rateAvgVal (svc : HostInfo) (localstruct : SnmpData) : UInt64 :=
  rateScaled svc localstruct / rateTime svc localstruct

def typeReboot : UInt32 := 1
def typeHigh : UInt32 := 2
def typeLow : UInt32 := 3
def typeRange : UInt32 := 4
def typeExact : UInt32 := 5
def typeCompare : UInt32 := 6
def typeRate : UInt32 := 7

/-- The value is kept as the last one. -/
def stash (svc : HostInfo) (localstruct : SnmpData) : HostInfo :=
  { svc with systemUptime := localstruct.snmpRetval }

/-- The `switch` over the kind of test. -/
def testResponse (svc : HostInfo) (localstruct : SnmpData) (retval : Int16) : HostInfo × Int16 :=
  if svc.snmpTestType = typeReboot then
    (stash svc localstruct,
      if localstruct.snmpRetval < svc.systemUptime then Result.snmpReboot else Result.ok)
  else if svc.snmpTestType = typeHigh then
    (stash svc localstruct,
      if svc.snmpHigh < localstruct.snmpRetval then Result.snmpHigh else Result.ok)
  else if svc.snmpTestType = typeLow then
    (stash svc localstruct,
      if localstruct.snmpRetval < svc.snmpLow then Result.snmpLow else Result.ok)
  else if svc.snmpTestType = typeRange then
    (stash svc localstruct,
      if svc.snmpLow < localstruct.snmpRetval ∧ localstruct.snmpRetval < svc.snmpHigh then
        Result.snmpOor else Result.ok)
  else if svc.snmpTestType = typeExact then
    (stash svc localstruct,
      if svc.snmpExact ≠ localstruct.snmpRetval then Result.snmpNotexact else Result.ok)
  else if svc.snmpTestType = typeCompare then (svc, retval)
  else if svc.snmpTestType = typeRate then
    let sampled := { stash svc localstruct with lastSnmpResptime := localstruct.snmpResponseTime }
    if rateTime svc localstruct = 0 then (sampled, Result.ok)
    else
      (sampled,
        if svc.snmpRate < rateAvgVal svc localstruct then Result.snmpHighrate else Result.ok)
  else (svc, Result.err)

/-- `service_test_snmp`. `response` is what `snmp_read_response` gets, `late` says that the check has
been in the queue for half a minute. -/
def serviceTestSnmp (svc : HostInfo) (localstruct : SnmpData) (retval : Int16)
    (response : Option SnmpValue) (now : Time) (late : Bool) : HostInfo × SnmpData × Int16 :=
  let (localstruct, retval) :=
    match response with
    | some value =>
        if localstruct.snmpResponse then (localstruct, retval)
        else takeResponse localstruct retval now value
    | none => (localstruct, retval)
  if localstruct.snmpResponse then
    let (svc, retval) := testResponse svc localstruct retval
    (svc, localstruct, retval)
  else if retval = -1 ∧ late then (svc, localstruct, Result.noresp)
  else (svc, localstruct, retval)

/-! ### Numeric responses -/

/-- The types a number comes in. -/
inductive Numeric where
  | integer
  | counter32
  | gauge32
  | timeTicks
  | counter64
  deriving DecidableEq, Repr

namespace Numeric

def tag : Numeric → UInt8
  | integer => 0x02
  | counter32 => 0x41
  | gauge32 => 0x42
  | timeTicks => 0x43
  | counter64 => 0x46

/-- The numbers of the type. An `INTEGER` may be as large as a `long`. -/
def Holds : Numeric → Int → Prop
  | integer, x => -2 ^ 63 ≤ x ∧ x < 2 ^ 63
  | counter32, x | gauge32, x | timeTicks, x => 0 ≤ x ∧ x < 2 ^ 32
  | counter64, x => 0 ≤ x ∧ x < 2 ^ 64

instance (t : Numeric) (x : Int) : Decidable (t.Holds x) := by
  cases t <;> exact inferInstanceAs (Decidable (_ ∧ _))

/-- A response that holds the number. -/
def response (t : Numeric) (x : Int) : SnmpValue :=
  snmpValueFromTag t.tag (Ber.integer x) SnmpValue.blank

variable {t : Numeric} {x : Int}

theorem response_ok (t : Numeric) (x : Int) :
    (t.response x).haveValue = true ∧ (t.response x).errorStatus = 0 ∧ (t.response x).exception = [] := by
  cases t <;> exact ⟨rfl, rfl, rfl⟩

/-- What is read is the number, as 64 bits tell it, unless it takes more than eight bytes. -/
theorem value_response (h : t.Holds x) :
    ((t.response x).value.toNat : Int) = if x < 2 ^ 63 then x % 2 ^ 64 else 0 := by
  cases t with
  | integer =>
      obtain ⟨hlow, hhigh⟩ := h
      rw [if_pos hhigh]
      exact toNat_snmpBerInt_integer hlow hhigh
  | counter32 | gauge32 | timeTicks =>
      obtain ⟨hlow, hhigh⟩ := h
      have hread := toNat_snmpBerUint_integer hlow (by omega)
      rw [if_pos (by omega), Int.emod_eq_of_lt hlow (by omega)]
      exact hread
  | counter64 =>
      obtain ⟨hlow, hhigh⟩ := h
      by_cases hwide : x < 2 ^ 63
      · rw [if_pos hwide, Int.emod_eq_of_lt hlow (by omega)]
        exact toNat_snmpBerUint_integer hlow hwide
      · rw [if_neg hwide]
        show ((Trap.snmpBerUint (Ber.integer x)).toNat : Int) = 0
        rw [snmpBerUint_integer_wide (by omega)]
        rfl

/-- A value beyond a `long` is one of a `Counter64`. -/
theorem Holds.bounds (h : t.Holds x) : -2 ^ 63 ≤ x ∧ x < 2 ^ 64 := by
  cases t <;> (obtain ⟨hlow, hhigh⟩ := h; omega)

end Numeric

/-- A check that is started, asks and gets the number. -/
def answered (svc : HostInfo) (reqid : UInt64) (t : Numeric) (x : Int) (now : Time) : HostInfo × Int16 :=
  let (svc, _, retval) := serviceTestSnmp svc (SnmpData.started reqid) (-1) (some (t.response x)) now false
  (svc, retval)

theorem answered_eq (svc : HostInfo) (reqid : UInt64) (t : Numeric) (x : Int) (now : Time) :
    answered svc reqid t x now =
      testResponse svc ⟨reqid, (t.response x).value, now, true⟩ (-1) := by
  obtain ⟨hvalue, hstatus, hexception⟩ := t.response_ok x
  have htaken : takeResponse (SnmpData.started reqid) (-1) now (t.response x) =
      (⟨reqid, (t.response x).value, now, true⟩, -1) := by
    simp [takeResponse, hvalue, hstatus, hexception, SnmpData.started]
  have hfresh : (SnmpData.started reqid).snmpResponse = false := rfl
  simp only [answered, serviceTestSnmp, hfresh, htaken, Bool.false_eq_true, if_false, if_true]

/-! ### Thresholds -/

/-- The configured numbers, as `atol` reads them. -/
structure Limits where
  low : Int64
  high : Int64
  exact : Int64
  deriving DecidableEq, Repr

inductive Kind where
  | high
  | low
  | range
  | exact
  deriving DecidableEq, Repr

def Kind.testType : Kind → UInt32
  | high => typeHigh
  | low => typeLow
  | range => typeRange
  | exact => typeExact

/-- An object with such a test. -/
def configured (svc : HostInfo) (kind : Kind) (limits : Limits) : HostInfo :=
  { svc with
    snmpTestType := kind.testType
    snmpLow := limits.low.toUInt64
    snmpHigh := limits.high.toUInt64
    snmpExact := limits.exact.toUInt64 }

/-- The verdict on the number itself. -/
def Kind.verdict (limits : Limits) (x : Int) : Kind → Int16
  | high => if limits.high.toInt < x then Result.snmpHigh else Result.ok
  | low => if x < limits.low.toInt then Result.snmpLow else Result.ok
  | range => if limits.low.toInt ≤ x ∧ x ≤ limits.high.toInt then Result.ok else Result.snmpOor
  | exact => if x = limits.exact.toInt then Result.ok else Result.snmpNotexact

/-- Where the comparisons come out right. The number fits a `long`, and it and its bound are both
negative or both not; a range is taken for one only when zero is between its ends, or the number is
one of them. A number that does not fit is taken for zero. -/
def Kind.Sound (limits : Limits) (x : Int) : Kind → Prop
  | high => x < 2 ^ 63 ∧ (0 ≤ x ↔ 0 ≤ limits.high.toInt)
  | low => if x < 2 ^ 63 then (0 ≤ x ↔ 0 ≤ limits.low.toInt) else limits.low = 0
  | range =>
      x < 2 ^ 63 ∧
        if limits.high.toInt < limits.low.toInt then
          limits.high.toInt < 0 ∧ 0 ≤ limits.low.toInt ∧
            (limits.low.toInt < x ∨ x < limits.high.toInt)
        else if limits.low.toInt < 0 ∧ 0 ≤ limits.high.toInt then
          limits.low.toInt ≤ x ∧ x ≤ limits.high.toInt
        else x = limits.low.toInt ∨ x = limits.high.toInt
  | exact => x < 2 ^ 63 ∨ limits.exact ≠ 0

theorem toNat_toUInt64 (n : Int64) : (n.toUInt64.toNat : Int) = n.toInt % 2 ^ 64 := by
  have hbits : n.toInt = n.toUInt64.toBitVec.toInt := rfl
  rw [hbits, BitVec.toInt_eq_toNat_cond, UInt64.toNat_toBitVec]
  have hlt := n.toUInt64.toNat_lt
  split <;> omega

theorem ite_eq_ite_iff {p q : Prop} [Decidable p] [Decidable q] {a b : Int16} (h : a ≠ b) :
    (if p then a else b) = (if q then a else b) ↔ (p ↔ q) := by
  by_cases hp : p <;> by_cases hq : q <;> simp [hp, hq, h, h.symm]

/-- Comparing two words, one of which is a `long`. -/
theorem toUInt64_lt_iff (n : Int64) (value : UInt64) :
    n.toUInt64 < value ↔ n.toInt % 2 ^ 64 < (value.toNat : Int) := by
  rw [UInt64.lt_iff_toNat_lt, ← toNat_toUInt64]
  omega

theorem lt_toUInt64_iff (n : Int64) (value : UInt64) :
    value < n.toUInt64 ↔ (value.toNat : Int) < n.toInt % 2 ^ 64 := by
  rw [UInt64.lt_iff_toNat_lt, ← toNat_toUInt64]
  omega

theorem toUInt64_eq_iff (n : Int64) (value : UInt64) :
    n.toUInt64 = value ↔ n.toInt % 2 ^ 64 = (value.toNat : Int) := by
  rw [← UInt64.toNat_inj, ← toNat_toUInt64]
  omega

theorem eq_zero_iff (n : Int64) : n = 0 ↔ n.toInt = 0 := by
  rw [← Int64.toInt_inj]
  rfl

/-- A `long` as an `unsigned long`. -/
theorem emod_word {n : Int} (hlow : -2 ^ 63 ≤ n) (hhigh : n < 2 ^ 63) :
    n % 2 ^ 64 = if n < 0 then n + 2 ^ 64 else n := by
  split <;> omega

/-- The range check says the opposite of what is so, except where a sign misleads it. -/
theorem range_iff {low high x : Int} (hlow : -2 ^ 63 ≤ low ∧ low < 2 ^ 63)
    (hhigh : -2 ^ 63 ≤ high ∧ high < 2 ^ 63) (hx : -2 ^ 63 ≤ x ∧ x < 2 ^ 63) :
    ((low % 2 ^ 64 < x % 2 ^ 64 ∧ x % 2 ^ 64 < high % 2 ^ 64) ↔ ¬(low ≤ x ∧ x ≤ high)) ↔
      if high < low then high < 0 ∧ 0 ≤ low ∧ (low < x ∨ x < high)
      else if low < 0 ∧ 0 ≤ high then low ≤ x ∧ x ≤ high
      else x = low ∨ x = high := by
  have hlow' := emod_word hlow.1 hlow.2
  have hhigh' := emod_word hhigh.1 hhigh.2
  have hx' := emod_word hx.1 hx.2
  generalize low % 2 ^ 64 = lowWord at hlow'
  generalize high % 2 ^ 64 = highWord at hhigh'
  generalize x % 2 ^ 64 = word at hx'
  by_cases hword : lowWord < word ∧ word < highWord <;> by_cases hin : low ≤ x ∧ x ≤ high <;>
    simp only [hword, hin, and_self, not_true, not_false_eq_true, iff_true, true_iff, false_iff] <;>
    split_ifs at hlow' hhigh' hx' ⊢ <;> first | trivial | omega

/-- The verdict of a check is that on the number exactly where the comparisons are sound. -/
theorem verdict_iff (svc : HostInfo) (kind : Kind) (limits : Limits) (t : Numeric) (x : Int)
    (hx : t.Holds x) (reqid : UInt64) (now : Time) :
    (answered (configured svc kind limits) reqid t x now).2 = kind.verdict limits x ↔
      kind.Sound limits x := by
  have hvalue := Numeric.value_response hx
  obtain ⟨hleast, hmost⟩ := hx.bounds
  rw [answered_eq]
  generalize (t.response x).value = value at hvalue
  have hlow := limits.low.toInt_lt
  have hlow' := limits.low.le_toInt
  have hhigh := limits.high.toInt_lt
  have hhigh' := limits.high.le_toInt
  have hexact := limits.exact.toInt_lt
  have hexact' := limits.exact.le_toInt
  cases kind with
  | high =>
      show (if limits.high.toUInt64 < value then Result.snmpHigh else Result.ok) =
        (if limits.high.toInt < x then Result.snmpHigh else Result.ok) ↔ _
      rw [ite_eq_ite_iff (by decide), toUInt64_lt_iff]
      show _ ↔ x < 2 ^ 63 ∧ (0 ≤ x ↔ 0 ≤ limits.high.toInt)
      split at hvalue <;> omega
  | low =>
      show (if value < limits.low.toUInt64 then Result.snmpLow else Result.ok) =
        (if x < limits.low.toInt then Result.snmpLow else Result.ok) ↔ _
      rw [ite_eq_ite_iff (by decide), lt_toUInt64_iff]
      show _ ↔ if x < 2 ^ 63 then (0 ≤ x ↔ 0 ≤ limits.low.toInt) else limits.low = 0
      rw [eq_zero_iff]
      split at hvalue
      next hfits =>
        rw [if_pos hfits]
        omega
      next hwide =>
        rw [if_neg hwide]
        omega
  | range =>
      show (if limits.low.toUInt64 < value ∧ value < limits.high.toUInt64 then Result.snmpOor
          else Result.ok) =
        (if limits.low.toInt ≤ x ∧ x ≤ limits.high.toInt then Result.ok else Result.snmpOor) ↔ _
      rw [← ite_not (limits.low.toInt ≤ x ∧ x ≤ limits.high.toInt), ite_eq_ite_iff (by decide),
        toUInt64_lt_iff, lt_toUInt64_iff]
      rw [Kind.Sound]
      split at hvalue
      next hfits =>
        rw [hvalue, range_iff ⟨hlow', hlow⟩ ⟨hhigh', hhigh⟩ ⟨hleast, hfits⟩, and_iff_right hfits]
      next hwide =>
        -- the number counts as zero, which is below nothing, and it is above every bound
        rw [hvalue]
        exact iff_of_false (by omega) fun h => hwide h.1
  | exact =>
      show (if limits.exact.toUInt64 ≠ value then Result.snmpNotexact else Result.ok) =
        (if x = limits.exact.toInt then Result.ok else Result.snmpNotexact) ↔ _
      rw [← ite_not (x = limits.exact.toInt), ite_eq_ite_iff (by decide), ne_eq, toUInt64_eq_iff]
      show _ ↔ x < 2 ^ 63 ∨ limits.exact ≠ 0
      rw [ne_eq, eq_zero_iff]
      split at hvalue <;> omega

theorem verdict_of_negative :
    (answered (configured .zeroed .low ⟨-5, 0, 0⟩) 0 .integer (-7) 100).2 =
      Kind.low.verdict ⟨-5, 0, 0⟩ (-7) :=
  (verdict_iff .zeroed .low ⟨-5, 0, 0⟩ .integer (-7) (by decide) 0 100).mpr (by unfold Kind.Sound; decide)

/-- A temperature of one degree below zero is not above ten degrees. -/
theorem negative_reported_high :
    ¬ (answered (configured .zeroed .high ⟨0, 10, 0⟩) 0 .integer (-1) 100).2 =
      Kind.high.verdict ⟨0, 10, 0⟩ (-1) := by
  have hbytes : Ber.integer (-1) = [0xff] := Ber.integer_short (by decide)
  rw [answered_eq, Numeric.response, hbytes]
  decide

end Snmp

end Sysmon
