import Sysmon.Snmp.Verdict

/-!
# The rate of a counter

The rate check of `service_test_snmp`. The increase and the time between two samples are differences
of `unsigned long`s, and so is the increase in bits. They are what they should be as long as the clock
has gone forward, a `Counter32` has not gone round, no value of a `Counter64` was too long to be read,
and the increase in bits fits a word. An average of numbers that are right never gives a false alarm.
-/

namespace Sysmon.Snmp

inductive Counter where
  | counter32
  | counter64
  deriving DecidableEq, Repr

def Counter.numeric : Counter → Numeric
  | counter32 => .counter32
  | counter64 => .counter64

/-- How far a counter has gone from one value to the next, perhaps round its end. -/
def Counter.increase : Counter → Int → Int → Int
  | counter32, p, c => (c - p) % 2 ^ 32
  | counter64, p, c => (c - p) % 2 ^ 64

/-- An object with a rate check. -/
def rated (svc : HostInfo) (rate : UInt64) (octets : Bool) : HostInfo :=
  { svc with snmpTestType := typeRate, snmpRate := rate, snmpOctets := octets }

/-- An octet is eight bits. -/
def weight (svc : HostInfo) : Int := if svc.snmpOctets then 8 else 1

/-- What a check holds that was answered. -/
def responded (reqid : UInt64) (t : Counter) (c : Int) (now : Time) : SnmpData :=
  ⟨reqid, (t.numeric.response c).value, now, true⟩

/-- The sample `c` at the time `now`, taken after the sample `p` at the time `before`: a rate that is
not above the configured one raises no alarm, and the numbers it is computed from are the true ones,
so nothing is divided by zero and nothing overflows. -/
structure RateSound (svc : HostInfo) (reqid : UInt64) (t : Counter) (p c : Int) (before now : Time) :
    Prop where
  quiet : before < now →
    weight svc * t.increase p c ≤ svc.snmpRate.toNat * (now.toInt - before.toInt) →
    (answered svc reqid t.numeric c now).2 ≠ Result.snmpHighrate
  divides : rateTime svc (responded reqid t c now) ≠ 0
  time : ((rateTime svc (responded reqid t c now)).toNat : Int) = now.toInt - before.toInt
  val : ((rateTimeVal svc (responded reqid t c now)).toNat : Int) = t.increase p c
  scaled : ((rateScaled svc (responded reqid t c now)).toNat : Int) = weight svc * t.increase p c

/-- Both samples can be read, and a short counter has not gone round. -/
def Counter.Readable : Counter → Int → Int → Prop
  | counter32, p, c => p ≤ c
  | counter64, p, c => p = c ∨ p < 2 ^ 63 ∧ c < 2 ^ 63

/-! ### The three numbers -/

theorem toNat_sub_word (a b : UInt64) : ((a - b).toNat : Int) = ((a.toNat : Int) - b.toNat) % 2 ^ 64 := by
  have ha := a.toNat_lt
  have hb := b.toNat_lt
  rw [UInt64.toNat_sub]
  omega

theorem toNat_sub_time (a b : Time) :
    ((a - b).toUInt64.toNat : Int) = (a.toInt - b.toInt) % 2 ^ 64 := by
  rw [toNat_toUInt64, Int64.toInt_sub, Int.bmod]
  split <;> omega

theorem time_iff {svc : HostInfo} {before : Time} (hbefore : svc.lastSnmpResptime = before)
    (reqid : UInt64) (t : Counter) (c : Int) {now : Time} (hdistinct : before ≠ now) :
    ((rateTime svc (responded reqid t c now)).toNat : Int) = now.toInt - before.toInt ↔
      before < now := by
  have hnow := now.toInt_lt
  have hnow' := now.le_toInt
  have hold := before.toInt_lt
  have hold' := before.le_toInt
  have hne : before.toInt ≠ now.toInt := fun heq => hdistinct (Int64.toInt_inj.mp heq)
  rw [rateTime, hbefore, Int64.lt_iff_toInt_lt]
  show ((now - before).toUInt64.toNat : Int) = _ ↔ _
  rw [toNat_sub_time]
  omega

theorem val_iff {svc : HostInfo} {t : Counter} {p c : Int} (hp : t.numeric.Holds p)
    (hc : t.numeric.Holds c)
    (huptime : (svc.systemUptime.toNat : Int) = if p < 2 ^ 63 then p % 2 ^ 64 else 0) (reqid : UInt64)
    (now : Time) :
    ((rateTimeVal svc (responded reqid t c now)).toNat : Int) = t.increase p c ↔ t.Readable p c := by
  have hvalue := Numeric.value_response hc
  rw [rateTimeVal, toNat_sub_word, huptime]
  show (((t.numeric.response c).value.toNat : Int) - _) % 2 ^ 64 = _ ↔ _
  rw [hvalue]
  cases t with
  | counter32 =>
      obtain ⟨hp0, hp1⟩ := hp
      obtain ⟨hc0, hc1⟩ := hc
      rw [if_pos (by omega), if_pos (by omega), Counter.increase, Counter.Readable]
      omega
  | counter64 =>
      obtain ⟨hp0, hp1⟩ := hp
      obtain ⟨hc0, hc1⟩ := hc
      rw [Counter.increase, Counter.Readable]
      split <;> split <;> omega

/-- The rate check computes what it should exactly when the numbers it starts from are in order. -/
theorem rateSound_iff {svc : HostInfo} (htype : svc.snmpTestType = typeRate) {before : Time}
    (hbefore : svc.lastSnmpResptime = before) {t : Counter} {p c : Int} (hp : t.numeric.Holds p)
    (hc : t.numeric.Holds c)
    (huptime : (svc.systemUptime.toNat : Int) = if p < 2 ^ 63 then p % 2 ^ 64 else 0) (reqid : UInt64)
    {now : Time} (hdistinct : before ≠ now) :
    RateSound svc reqid t p c before now ↔
      before < now ∧ t.Readable p c ∧ weight svc * t.increase p c < 2 ^ 64 := by
  constructor
  · intro h
    refine ⟨(time_iff hbefore reqid t c hdistinct).mp h.time,
      (val_iff hp hc huptime reqid now).mp h.val, ?_⟩
    have hlt := (rateScaled svc (responded reqid t c now)).toNat_lt
    have hscaled := h.scaled
    omega
  · rintro ⟨hforward, hreadable, hfits⟩
    have htime := (time_iff hbefore reqid t c hdistinct).mpr hforward
    have hval := (val_iff hp hc huptime reqid now).mpr hreadable
    have hscaled : ((rateScaled svc (responded reqid t c now)).toNat : Int) =
        weight svc * t.increase p c := by
      rw [rateScaled]
      unfold weight at hfits ⊢
      split at hfits
      next hoctets =>
        rw [if_pos hoctets, if_pos hoctets, UInt64.toNat_mul, ← hval]
        show (((rateTimeVal svc (responded reqid t c now)).toNat * 8 % 2 ^ 64 : Nat) : Int) = _
        omega
      next hoctets =>
        rw [if_neg hoctets, if_neg hoctets, hval, one_mul]
    have hlater : 0 < now.toInt - before.toInt := by
      rw [Int64.lt_iff_toInt_lt] at hforward
      omega
    have hnonzero : rateTime svc (responded reqid t c now) ≠ 0 := by
      intro hzero
      rw [hzero] at htime
      exact absurd htime (by simpa using hlater.ne)
    refine ⟨fun _ hrate => ?_, hnonzero, htime, hval, hscaled⟩
    rw [answered_eq]
    have hresult : (testResponse svc (responded reqid t c now) (-1)).2 =
        if svc.snmpRate < rateAvgVal svc (responded reqid t c now) then Result.snmpHighrate
        else Result.ok := by
      rw [testResponse, htype, if_neg (by decide), if_neg (by decide), if_neg (by decide),
        if_neg (by decide), if_neg (by decide), if_neg (by decide), if_pos rfl]
      simp only
      rw [if_neg hnonzero]
    have haverage : ¬svc.snmpRate < rateAvgVal svc (responded reqid t c now) := by
      rw [UInt64.lt_iff_toNat_lt, rateAvgVal, UInt64.toNat_div, Nat.not_lt]
      refine Nat.div_le_of_le_mul ?_
      rw [mul_comm, ← Int.ofNat_le]
      push_cast
      rw [hscaled, htime]
      exact hrate
    show (testResponse svc (responded reqid t c now) (-1)).2 ≠ _
    rw [hresult, if_neg haverage]
    decide

/-! ### Samples -/

/-- A sample is kept whatever the verdict on it is. -/
theorem answered_rated (svc : HostInfo) (rate : UInt64) (octets : Bool) (reqid : UInt64) (t : Numeric)
    (p : Int) (now : Time) :
    (answered (rated svc rate octets) reqid t p now).1 =
      { rated svc rate octets with
        systemUptime := (t.response p).value
        lastSnmpResptime := now } := by
  rw [answered_eq, testResponse]
  have htype : (rated svc rate octets).snmpTestType = typeRate := rfl
  rw [htype, if_neg (by decide), if_neg (by decide), if_neg (by decide), if_neg (by decide),
    if_neg (by decide), if_neg (by decide), if_pos rfl]
  simp only
  split <;> rfl

/-- Two samples one after the other, at different times, and the first sample of all, before which
the object holds zeros. -/
theorem rate_sound_iff (svc : HostInfo) (rate : UInt64) (octets : Bool) (t : Counter) (c : Int)
    (hc : t.numeric.Holds c) (now : Time) (reqid reqid' : UInt64) :
    (∀ (p : Int) (before : Time), t.numeric.Holds p → before ≠ now →
      (RateSound (answered (rated svc rate octets) reqid t.numeric p before).1 reqid' t p c before now ↔
        before < now ∧ t.Readable p c ∧ weight (rated svc rate octets) * t.increase p c < 2 ^ 64)) ∧
      (svc.systemUptime = 0 → svc.lastSnmpResptime = 0 → now ≠ 0 →
        (RateSound (rated svc rate octets) reqid t 0 c 0 now ↔
          0 < now ∧ t.Readable 0 c ∧ weight (rated svc rate octets) * c < 2 ^ 64)) := by
  refine ⟨fun p before hp hdistinct => ?_, fun huptime hlast hnow => ?_⟩
  · rw [answered_rated]
    exact rateSound_iff rfl rfl hp hc (Numeric.value_response hp) reqid' hdistinct
  · have hzero : t.numeric.Holds 0 := by cases t <;> decide
    have hincrease : t.increase 0 c = c := by
      cases t with
      | counter32 | counter64 =>
          rw [Counter.increase, sub_zero]
          exact Int.emod_eq_of_lt hc.1 hc.2
    have hstart : ((rated svc rate octets).systemUptime.toNat : Int) = 0 := by
      show (svc.systemUptime.toNat : Int) = 0
      rw [huptime]
      rfl
    have htype : (rated svc rate octets).snmpTestType = typeRate := rfl
    have hiff := rateSound_iff htype hlast hzero hc
      (by rw [hstart]; rfl) reqid hnow.symm
    rwa [hincrease] at hiff

theorem rate_sound_two_samples :
    RateSound (answered (rated .zeroed 100 true) 0 .counter64 5 10).1 1 .counter64 5 30 10 12 :=
  ((rate_sound_iff .zeroed 100 true .counter64 30 (by decide) 12 0 1).1 5 10 (by decide)
    (by decide)).mpr ⟨by decide, Or.inr ⟨by decide, by decide⟩, by decide⟩

/-- A `Counter32` goes round its end and gains eleven in a second, where a hundred are allowed. -/
theorem wrap_raises_alarm :
    ¬ RateSound (answered (rated .zeroed 100 false) 0 .counter32 4294967295 10).1 1 .counter32
      4294967295 10 10 11 := by
  intro h
  have hold : (Numeric.counter32.response 4294967295).value = 4294967295 := by
    have hvalue := Numeric.value_response (t := .counter32) (x := 4294967295) (by decide)
    exact UInt64.toNat_inj.mp (Int.ofNat_inj.mp hvalue)
  have hnew : (Numeric.counter32.response 10).value = 10 := by
    have hvalue := Numeric.value_response (t := .counter32) (x := 10) (by decide)
    exact UInt64.toNat_inj.mp (Int.ofNat_inj.mp hvalue)
  refine h.quiet (by decide) ?_ ?_
  · rw [answered_rated]
    decide
  · rw [answered_rated, answered_eq]
    show (testResponse _ ⟨1, (Numeric.counter32.response 10).value, 11, true⟩ (-1)).2 = _
    rw [hold, hnew]
    decide

end Sysmon.Snmp
