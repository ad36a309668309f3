import Mathlib.Data.Int.Order.Basic
import Mathlib.Tactic.Linarith
import Mathlib.Tactic.Ring
import Sysmon.Lib.Run

/-!
# Limiting the rate of requests

`RateLimiter` of `ratelimit.go`. A visitor has a number of tokens; a request takes one, and time gives them back, one
for each period that has gone by since the last time it gave any. What a visitor can still be allowed until some time
is bounded by a credit: its tokens, and the periods until then. No request makes more of the credit than it takes.
Forgetting a visitor does, unless a forgotten visitor would have had all of its tokens back by then.

Times are in nanoseconds and do not go backwards. Nothing is assumed about when the visitors are looked through.
-/

namespace Sysmon.Middleware

/-- `visitor`. -/
structure Visitor where
  tokens : Int
  lastUpdate : Int
  deriving DecidableEq, Repr

/-- `RateLimiter`. -/
structure RateLimiter (Ip : Type) where
  visitors : Ip → Option Visitor
  limit : Int
  window : Int
  cleanup : Int

variable {Ip : Type} [DecidableEq Ip]

/-- `5 * time.Minute`. -/
def cleanupInterval : Int := 5 * 60 * 1000000000

/-- `NewRateLimiter`. -/
def newRateLimiter (limit window : Int) : RateLimiter Ip := ⟨fun _ => none, limit, window, cleanupInterval⟩

def RateLimiter.set (rl : RateLimiter Ip) (ip : Ip) (v : Visitor) : RateLimiter Ip :=
  { rl with visitors := Function.update rl.visitors ip (some v) }

/-- The time that gives back one token. -/
def RateLimiter.period (rl : RateLimiter Ip) : Int := rl.window.tdiv rl.limit

/-- The tokens that time has given back since they were last counted. -/
def RateLimiter.refill (rl : RateLimiter Ip) (now : Int) (v : Visitor) : Visitor :=
  let tokensToAdd := (now - v.lastUpdate).tdiv rl.period
  if 0 < tokensToAdd then
    { tokens := if rl.limit < v.tokens + tokensToAdd then rl.limit else v.tokens + tokensToAdd, lastUpdate := now }
  else v

/-- `allow`. -/
def RateLimiter.allow (rl : RateLimiter Ip) (ip : Ip) (now : Int) : Bool × RateLimiter Ip :=
  match rl.visitors ip with
  | none => (true, rl.set ip ⟨rl.limit - 1, now⟩)
  | some v =>
      let v := rl.refill now v
      if 0 < v.tokens then (true, rl.set ip { v with tokens := v.tokens - 1 }) else (false, rl.set ip v)

/-- `cleanupVisitors`, one tick of it. -/
def RateLimiter.cleanupVisitors (rl : RateLimiter Ip) (now : Int) : RateLimiter Ip :=
  { rl with visitors := fun ip => (rl.visitors ip).filter fun v => !decide (rl.cleanup * 2 < now - v.lastUpdate) }

/-! ### Runs -/

inductive Event (Ip : Type) where
  | request (ip : Ip) (now : Int)
  | cleanup (now : Int)

def Event.time : Event Ip → Int
  | .request _ now | .cleanup now => now

def RateLimiter.step (rl : RateLimiter Ip) : Event Ip → RateLimiter Ip
  | .request ip now => (rl.allow ip now).2
  | .cleanup now => rl.cleanupVisitors now

/-- Whether the event is a request of the client that is allowed between the two times. -/
def RateLimiter.allows (rl : RateLimiter Ip) (client : Ip) (start stop : Int) : Event Ip → Bool
  | .request ip now => ip = client && (decide (start ≤ now) && decide (now ≤ stop)) && (rl.allow ip now).1
  | .cleanup _ => false

/-- How many requests of the client are allowed between the two times. -/
def RateLimiter.allowed (client : Ip) (start stop : Int) : RateLimiter Ip → List (Event Ip) → Nat
  | _, [] => 0
  | rl, event :: events =>
      (rl.allows client start stop event).toNat + RateLimiter.allowed client start stop (rl.step event) events

/-- Events one after the other. -/
def InOrder (events : List (Event Ip)) : Prop := (events.map Event.time).Pairwise (· ≤ ·)

/-- In every stretch of time no more requests of a client are allowed than its tokens and what time gives back. -/
def LimitsRate (Ip : Type) [DecidableEq Ip] (limit window : Int) : Prop :=
  ∀ (events : List (Event Ip)), InOrder events → ∀ client : Ip,
    (∀ start T, 0 ≤ T → ((newRateLimiter limit window).allowed client start (start + T) events : Int) ≤
      limit + T / (window / limit) + 1) ∧
    Run.Always RateLimiter.step (fun rl => ∀ v ∈ rl.visitors client, 0 ≤ v.tokens ∧ v.tokens ≤ limit)
      (newRateLimiter limit window) events

/-! ### One event -/

section step

variable {rl : RateLimiter Ip} {ip client : Ip} {now start stop : Int} {v : Visitor} {event : Event Ip}

/-- What a visitor has when its request comes in. A client that is not known has everything. -/
def RateLimiter.counted (rl : RateLimiter Ip) (now : Int) : Option Visitor → Visitor
  | none => ⟨rl.limit, now⟩
  | some v => rl.refill now v

/-- A request is allowed if there is a token for it, which it takes. -/
theorem allow_eq (hlimit : 0 < rl.limit) : rl.allow ip now =
    let v := rl.counted now (rl.visitors ip)
    if 0 < v.tokens then (true, rl.set ip { v with tokens := v.tokens - 1 }) else (false, rl.set ip v) := by
  rw [RateLimiter.allow]
  cases rl.visitors ip with
  | none => exact (if_pos hlimit).symm
  | some v => rfl

theorem step_config : (rl.step event).limit = rl.limit ∧ (rl.step event).window = rl.window ∧
    (rl.step event).cleanup = rl.cleanup := by
  cases event with
  | cleanup now => exact ⟨rfl, rfl, rfl⟩
  | request ip now =>
      rw [RateLimiter.step, RateLimiter.allow]
      split
      · exact ⟨rfl, rfl, rfl⟩
      · dsimp only
        split <;> exact ⟨rfl, rfl, rfl⟩

theorem step_period : (rl.step event).period = rl.period := by
  rw [RateLimiter.period, step_config.1, step_config.2.1, RateLimiter.period]

/-- A visitor at some time. -/
structure Visitor.Valid (v : Visitor) (limit now : Int) : Prop where
  nonneg : 0 ≤ v.tokens
  le_limit : v.tokens ≤ limit
  past : v.lastUpdate ≤ now

/-- The limiter at some time. -/
structure RateLimiter.Valid (rl : RateLimiter Ip) (now : Int) : Prop where
  limit : 0 < rl.limit
  period : 0 < rl.period
  visitors : ∀ ip v, rl.visitors ip = some v → v.Valid rl.limit now

omit [DecidableEq Ip] in
theorem refill_cases (hperiod : 0 < rl.period) (hpast : v.lastUpdate ≤ now) :
    (now - v.lastUpdate < rl.period ∧ rl.refill now v = v) ∨
      (1 ≤ (now - v.lastUpdate) / rl.period ∧
        rl.refill now v = ⟨min rl.limit (v.tokens + (now - v.lastUpdate) / rl.period), now⟩) := by
  rw [RateLimiter.refill, Int.tdiv_eq_ediv_of_nonneg (Int.sub_nonneg.mpr hpast)]
  by_cases hadd : 0 < (now - v.lastUpdate) / rl.period
  · refine Or.inr ⟨hadd, ?_⟩
    rw [if_pos hadd]
    congr 1
    split <;> omega
  · refine Or.inl ⟨?_, if_neg hadd⟩
    by_contra hlong
    exact hadd ((Int.le_ediv_iff_mul_le hperiod).mpr (by omega))

/-- What a client can still be allowed until a time: its tokens, and what will be given back. -/
def RateLimiter.credit (rl : RateLimiter Ip) (now stop : Int) : Option Visitor → Int
  | none => rl.limit + (stop - now) / rl.period
  | some v => v.tokens + (stop - v.lastUpdate) / rl.period

theorem div_add_div_le {x y p : Int} (hp : 0 < p) : x / p + y / p ≤ (x + y) / p := by
  rw [Int.le_ediv_iff_mul_le hp, add_mul]
  exact add_le_add (Int.ediv_mul_le x hp.ne') (Int.ediv_mul_le y hp.ne')

variable (event) in
/-- What an event can make of a visitor. -/
theorem step_visitors (hlimit : 0 < rl.limit) (client : Ip) :
    ((∀ now, event ≠ .request client now) ∧ (rl.step event).visitors client = rl.visitors client) ∨
    (∃ now v, event = .cleanup now ∧ rl.visitors client = some v ∧ rl.cleanup * 2 < now - v.lastUpdate ∧
      (rl.step event).visitors client = none) ∨
    ∃ now, event = .request client now ∧ (rl.step event).visitors client =
      some { rl.counted now (rl.visitors client) with
        tokens := (rl.counted now (rl.visitors client)).tokens - (rl.allow client now).1.toNat } := by
  cases event with
  | cleanup now =>
      have hstep : (rl.step (.cleanup now)).visitors client =
          (rl.visitors client).filter fun v => !decide (rl.cleanup * 2 < now - v.lastUpdate) := rfl
      rw [hstep]
      cases rl.visitors client with
      | none => exact Or.inl ⟨by simp, rfl⟩
      | some v =>
          rw [Option.filter_some]
          by_cases hold : rl.cleanup * 2 < now - v.lastUpdate
          · exact Or.inr (Or.inl ⟨now, v, rfl, rfl, hold, by rw [decide_eq_true hold]; rfl⟩)
          · exact Or.inl ⟨by simp, by rw [decide_eq_false hold]; rfl⟩
  | request ip now =>
      rw [RateLimiter.step, allow_eq hlimit]
      dsimp only
      by_cases hip : client = ip
      · obtain rfl := hip
        refine Or.inr (Or.inr ⟨now, rfl, ?_⟩)
        rw [allow_eq hlimit]
        dsimp only
        split
        · exact Function.update_self ..
        · simp [RateLimiter.set]
      · refine Or.inl ⟨by simp [Ne.symm hip], ?_⟩
        split <;> exact Function.update_of_ne hip ..

theorem allows_le (hevent : event = .request client now) :
    (rl.allows client start stop event).toNat ≤ (rl.allow client now).1.toNat := by
  rw [hevent, RateLimiter.allows]
  cases (rl.allow client now).1 with
  | false => simp
  | true => exact Bool.toNat_le _

theorem allows_of_ne (hevent : ∀ now, event ≠ .request client now) : rl.allows client start stop event = false := by
  cases event with
  | cleanup now => rfl
  | request ip now =>
      have hip : ip ≠ client := by
        rintro rfl
        exact hevent now rfl
      rw [RateLimiter.allows, decide_eq_false hip]
      rfl

theorem credit_step (now stop : Int) : (rl.step event).credit now stop = rl.credit now stop := by
  funext v
  cases v <;> simp only [RateLimiter.credit, step_config.1, step_period]

section valid

variable {before : Int} (h : rl.Valid before)

include h

omit [DecidableEq Ip] in
theorem counted_valid (hnow : before ≤ now) (ip : Ip) : (rl.counted now (rl.visitors ip)).Valid rl.limit now ∧
    now - (rl.counted now (rl.visitors ip)).lastUpdate < rl.period := by
  have hlimit := h.limit
  have hperiod := h.period
  cases hvisitor : rl.visitors ip with
  | none => exact ⟨⟨hlimit.le, le_rfl, le_rfl⟩, by simpa [RateLimiter.counted] using hperiod⟩
  | some v =>
      have hv := h.visitors ip v hvisitor
      obtain ⟨hsoon, heq⟩ | ⟨hadd, heq⟩ := refill_cases hperiod (hv.past.trans hnow)
      · rw [RateLimiter.counted, heq]
        exact ⟨⟨hv.nonneg, hv.le_limit, hv.past.trans hnow⟩, hsoon⟩
      · rw [RateLimiter.counted, heq]
        refine ⟨⟨?_, min_le_left _ _, le_rfl⟩, by simpa using hperiod⟩
        have hnonneg := hv.nonneg
        exact le_min hlimit.le (by omega)

omit [DecidableEq Ip] in
theorem credit_nonneg (hstop : before ≤ stop) (ip : Ip) : 0 ≤ rl.credit before stop (rl.visitors ip) := by
  have hperiod := h.period
  cases hvisitor : rl.visitors ip with
  | none => exact add_nonneg h.limit.le (Int.ediv_nonneg (by omega) hperiod.le)
  | some v =>
      have hv := h.visitors ip v hvisitor
      exact add_nonneg hv.nonneg (Int.ediv_nonneg (Int.sub_nonneg.mpr (hv.past.trans hstop)) hperiod.le)

omit [DecidableEq Ip] in
/-- Counting makes nothing of the credit. -/
theorem credit_counted (hnow : before ≤ now) (ip : Ip) :
    rl.credit now stop (some (rl.counted now (rl.visitors ip))) ≤ rl.credit before stop (rl.visitors ip) := by
  cases hvisitor : rl.visitors ip with
  | none =>
      have hless : stop - now ≤ stop - before := by omega
      exact Int.add_le_add_left (Int.ediv_le_ediv h.period hless) _
  | some v =>
      obtain ⟨-, heq⟩ | ⟨-, heq⟩ := refill_cases h.period ((h.visitors ip v hvisitor).past.trans hnow)
      · rw [RateLimiter.counted, heq]
        exact le_rfl
      · rw [RateLimiter.counted, heq, RateLimiter.credit, RateLimiter.credit]
        have hsum := div_add_div_le (x := now - v.lastUpdate) (y := stop - now) h.period
        rw [show now - v.lastUpdate + (stop - now) = stop - v.lastUpdate by omega] at hsum
        have hmin := min_le_right rl.limit (v.tokens + (now - v.lastUpdate) / rl.period)
        dsimp only
        omega

omit [DecidableEq Ip] in
/-- Whatever a client had before, what it has at its request is bounded. -/
theorem credit_counted_le (hnow : before ≤ now) (ip : Ip) :
    rl.credit now stop (some (rl.counted now (rl.visitors ip))) ≤ rl.limit + (stop - now) / rl.period + 1 := by
  obtain ⟨⟨-, htokens, -⟩, hsoon⟩ := counted_valid h hnow ip
  rw [RateLimiter.credit]
  generalize rl.counted now (rl.visitors ip) = v at htokens hsoon
  have hone : (stop - v.lastUpdate) / rl.period ≤ (stop - now) / rl.period + 1 := by
    rw [← Int.add_mul_ediv_right _ _ h.period.ne', one_mul]
    exact Int.ediv_le_ediv h.period (by omega)
  omega

/-- A request is allowed only if there is a token. -/
theorem toNat_allow_le (hnow : before ≤ now) (ip : Ip) :
    ((rl.allow ip now).1.toNat : Int) ≤ (rl.counted now (rl.visitors ip)).tokens := by
  have hnonneg := (counted_valid h hnow ip).1.nonneg
  rw [allow_eq h.limit]
  dsimp only
  split
  · simpa using by omega
  · simpa using hnonneg

theorem RateLimiter.Valid.step (hnow : before ≤ event.time) : (rl.step event).Valid event.time where
  limit := by rw [step_config.1]; exact h.limit
  period := by rw [step_period]; exact h.period
  visitors := by
    intro ip v hvisitor
    rw [step_config.1]
    obtain ⟨-, hsame⟩ | ⟨now, old, -, -, -, hnone⟩ | ⟨now, rfl, htaken⟩ := step_visitors event h.limit ip
    · rw [hsame] at hvisitor
      have hv := h.visitors ip v hvisitor
      exact ⟨hv.nonneg, hv.le_limit, hv.past.trans hnow⟩
    · rw [hnone] at hvisitor
      contradiction
    · rw [htaken] at hvisitor
      obtain rfl := Option.some.inj hvisitor
      have hcounted := (counted_valid h hnow ip).1
      have htoken := toNat_allow_le h hnow ip
      exact ⟨Int.sub_nonneg.mpr htoken, (Int.sub_le_self _ (Int.natCast_nonneg _)).trans hcounted.le_limit,
        hcounted.past⟩

omit h in
/-- What is allowed is taken from what there was. -/
theorem credit_request (hlimit : 0 < rl.limit) (now stop : Int) (ip : Ip) :
    ((rl.allow ip now).1.toNat : Int) + rl.credit now stop ((rl.step (.request ip now)).visitors ip) =
      rl.credit now stop (some (rl.counted now (rl.visitors ip))) := by
  obtain ⟨hother, -⟩ | ⟨_, _, hcleanup, -⟩ | ⟨other, hevent, htaken⟩ :=
    step_visitors (.request ip now) hlimit ip
  · exact absurd rfl (hother now)
  · contradiction
  · obtain rfl := (Event.request.inj hevent).2
    rw [htaken]
    simp only [RateLimiter.credit]
    omega

/-- No event makes more of the credit than it takes, if nobody is forgotten before all of the tokens are back. -/
theorem credit_step_le (hforget : rl.limit * rl.period ≤ rl.cleanup * 2 + 1) (hnow : before ≤ event.time) :
    ((rl.allows client start stop event).toNat : Int) +
        (rl.step event).credit event.time stop ((rl.step event).visitors client) ≤
      rl.credit before stop (rl.visitors client) := by
  rw [credit_step]
  obtain ⟨hother, hsame⟩ | ⟨now, v, rfl, hvisitor, hold, hnone⟩ | ⟨now, rfl, -⟩ :=
    step_visitors event h.limit client
  · rw [allows_of_ne hother, hsame]
    cases rl.visitors client with
    | none =>
        have hless : stop - event.time ≤ stop - before := by omega
        have hdiv := Int.ediv_le_ediv h.period hless
        simpa [RateLimiter.credit] using hdiv
    | some v => simp [RateLimiter.credit]
  · -- all of the tokens would have been given back to one that is forgotten
    have hnonneg := (h.visitors client v hvisitor).nonneg
    have hback : (stop - now) / rl.period + rl.limit ≤ (stop - v.lastUpdate) / rl.period := by
      rw [← Int.add_mul_ediv_right _ _ h.period.ne']
      exact Int.ediv_le_ediv h.period (by omega)
    rw [hnone, hvisitor]
    simp only [RateLimiter.allows, RateLimiter.credit, Event.time, Bool.toNat_false]
    omega
  · have hallows : (rl.allows client start stop (.request client now)).toNat ≤ (rl.allow client now).1.toNat :=
      allows_le rfl
    have hcounted : rl.credit now stop (some (rl.counted now (rl.visitors client))) ≤
        rl.credit before stop (rl.visitors client) := credit_counted h hnow client
    have hrequest := credit_request h.limit now stop client
    simp only [Event.time] at hcounted ⊢
    omega

end valid

/-! ### A whole run -/

theorem allowed_eq_zero {events : List (Event Ip)} (hlate : ∀ event ∈ events, stop < event.time) :
    rl.allowed client start stop events = 0 := by
  induction events generalizing rl with
  | nil => rfl
  | cons event events ih =>
      have hnot : rl.allows client start stop event = false := by
        have hfirst := hlate event List.mem_cons_self
        cases event with
        | cleanup now => rfl
        | request ip now =>
            have hstop : ¬now ≤ stop := Int.not_le.mpr hfirst
            rw [RateLimiter.allows, decide_eq_false hstop]
            simp
      rw [RateLimiter.allowed, hnot, ih fun event hevent => hlate event (List.mem_cons_of_mem _ hevent)]
      rfl

omit [DecidableEq Ip] in
theorem inOrder_cons {events : List (Event Ip)} (h : InOrder (event :: events)) :
    (∀ later ∈ events, event.time ≤ later.time) ∧ InOrder events := by
  rw [InOrder, List.map_cons, List.pairwise_cons] at h
  exact ⟨fun later hlater => h.1 _ (List.mem_map_of_mem hlater), h.2⟩

/-- From a time on no more than the credit is allowed. -/
theorem allowed_le_credit {before : Int} (h : rl.Valid before) (hforget : rl.limit * rl.period ≤ rl.cleanup * 2 + 1)
    (hstop : before ≤ stop) {events : List (Event Ip)} (hevents : InOrder events)
    (hbefore : ∀ event ∈ events, before ≤ event.time) :
    (rl.allowed client start stop events : Int) ≤ rl.credit before stop (rl.visitors client) := by
  induction events generalizing rl before with
  | nil => exact credit_nonneg h hstop client
  | cons event events ih =>
      obtain ⟨hlater, hrest⟩ := inOrder_cons hevents
      have hnow := hbefore event List.mem_cons_self
      by_cases hlate : stop < event.time
      · have hnone : rl.allowed client start stop (event :: events) = 0 := by
          refine allowed_eq_zero fun other hother => ?_
          obtain rfl | hother := List.mem_cons.mp hother
          · exact hlate
          · exact hlate.trans_le (hlater other hother)
        rw [hnone]
        exact credit_nonneg h hstop client
      · have hstep : ((rl.allows client start stop event).toNat : Int) +
            (rl.step event).credit event.time stop ((rl.step event).visitors client) ≤
              rl.credit before stop (rl.visitors client) := credit_step_le h hforget hnow
        have hallowed := ih (h.step hnow) (by rw [step_config.1, step_period, step_config.2.2]; exact hforget)
          (Int.not_lt.mp hlate) hrest hlater
        rw [RateLimiter.allowed]
        push_cast
        omega

/-- From the first request of a stretch of time on the credit is bounded, whatever happened before. -/
theorem allowed_le {before : Int} (h : rl.Valid before) (hforget : rl.limit * rl.period ≤ rl.cleanup * 2 + 1)
    (hstop : start ≤ stop) {events : List (Event Ip)} (hevents : InOrder events)
    (hbefore : ∀ event ∈ events, before ≤ event.time) :
    (rl.allowed client start stop events : Int) ≤ rl.limit + (stop - start) / rl.period + 1 := by
  have hroom : 0 ≤ rl.limit + (stop - start) / rl.period + 1 := by
    have hlimit := h.limit
    have hback := Int.ediv_nonneg (Int.sub_nonneg.mpr hstop) h.period.le
    omega
  induction events generalizing rl before with
  | nil => exact hroom
  | cons event events ih =>
      obtain ⟨hlater, hrest⟩ := inOrder_cons hevents
      have hnow := hbefore event List.mem_cons_self
      have hforget' : (rl.step event).limit * (rl.step event).period ≤ (rl.step event).cleanup * 2 + 1 := by
        rw [step_config.1, step_period, step_config.2.2]
        exact hforget
      have hgoOn := ih (h.step hnow) hforget' hrest hlater (by rw [step_config.1, step_period]; exact hroom)
      rw [step_config.1, step_period] at hgoOn
      rw [RateLimiter.allowed]
      cases hallows : rl.allows client start stop event with
      | false => simpa using hgoOn
      | true =>
          cases event with
          | cleanup now => contradiction
          | request ip now =>
              rw [RateLimiter.allows, Bool.and_eq_true, Bool.and_eq_true, Bool.and_eq_true, decide_eq_true_eq,
                decide_eq_true_eq, decide_eq_true_eq] at hallows
              obtain ⟨⟨rfl, hstart, hend⟩, hallow⟩ := hallows
              have hcredit : ((rl.step (.request ip now)).allowed ip start stop events : Int) ≤
                  (rl.step (.request ip now)).credit now stop ((rl.step (.request ip now)).visitors ip) :=
                allowed_le_credit (h.step hnow) hforget' hend hrest hlater
              have hrequest := credit_request h.limit now stop ip
              have hfirst : rl.credit now stop (some (rl.counted now (rl.visitors ip))) ≤
                  rl.limit + (stop - now) / rl.period + 1 := credit_counted_le h hnow ip
              have hspan : stop - now ≤ stop - start := by omega
              have hback := Int.ediv_le_ediv h.period hspan
              rw [credit_step] at hcredit
              simp only [hallow, Bool.toNat_true] at hcredit hrequest ⊢
              push_cast at hrequest ⊢
              omega

/-- The tokens stay within the limit. -/
theorem tokens_always {before : Int} (h : rl.Valid before) {events : List (Event Ip)} (hevents : InOrder events)
    (hbefore : ∀ event ∈ events, before ≤ event.time) :
    Run.Always RateLimiter.step (fun s => ∀ v ∈ s.visitors client, 0 ≤ v.tokens ∧ v.tokens ≤ rl.limit) rl events := by
  have hhere : ∀ v ∈ rl.visitors client, 0 ≤ v.tokens ∧ v.tokens ≤ rl.limit := by
    intro v hv
    exact ⟨(h.visitors client v hv).nonneg, (h.visitors client v hv).le_limit⟩
  induction events generalizing rl before with
  | nil => exact Run.always_nil.mpr hhere
  | cons event events ih =>
      obtain ⟨hlater, hrest⟩ := inOrder_cons hevents
      have hvalid := h.step (hbefore event List.mem_cons_self)
      have hnext := ih hvalid hrest hlater fun v hv =>
        ⟨(hvalid.visitors client v hv).nonneg, (hvalid.visitors client v hv).le_limit⟩
      rw [step_config.1] at hnext
      exact Run.always_cons.mpr ⟨hhere, hnext⟩

/-! ### A client that is forgotten too early -/

theorem allowed_append (events later : List (Event Ip)) : rl.allowed client start stop (events ++ later) =
    rl.allowed client start stop events + (Run.exec RateLimiter.step rl events).allowed client start stop later := by
  induction events generalizing rl with
  | nil => exact (Nat.zero_add _).symm
  | cons event events ih =>
      rw [List.cons_append, RateLimiter.allowed, RateLimiter.allowed, ih, Run.exec_cons, Nat.add_assoc]

theorem exec_config (events : List (Event Ip)) : (Run.exec RateLimiter.step rl events).limit = rl.limit ∧
    (Run.exec RateLimiter.step rl events).cleanup = rl.cleanup := by
  induction events generalizing rl with
  | nil => exact ⟨rfl, rfl⟩
  | cons event events ih =>
      rw [Run.exec_cons, ih.1, ih.2]
      exact ⟨step_config.1, step_config.2.2⟩

/-- All that a client can ask for at once. -/
def burst (client : Ip) (requests : Nat) (now : Int) : List (Event Ip) := List.replicate requests (.request client now)

omit [DecidableEq Ip] in
theorem refill_now (rl : RateLimiter Ip) (tokens now : Int) : rl.refill now ⟨tokens, now⟩ = ⟨tokens, now⟩ := by
  rw [RateLimiter.refill, Int.sub_self, Int.zero_tdiv]
  exact if_neg (lt_irrefl 0)

/-- The tokens are taken one by one. -/
theorem allowed_burst {requests : Nat} (hspan : start ≤ now ∧ now ≤ stop) (hlimit : 0 < rl.limit)
    (hvisitor : rl.counted now (rl.visitors client) = ⟨requests, now⟩) :
    rl.allowed client start stop (burst client requests now) = requests ∧
      (0 < requests → (Run.exec RateLimiter.step rl (burst client requests now)).visitors client = some ⟨0, now⟩) := by
  induction requests generalizing rl with
  | zero => exact ⟨rfl, fun h => absurd h (lt_irrefl 0)⟩
  | succ requests ih =>
      have hallow : rl.allow client now = (true, rl.set client ⟨requests, now⟩) := by
        rw [allow_eq hlimit, hvisitor]
        dsimp only
        rw [if_pos (by omega), Nat.cast_succ, add_sub_cancel_right]
      have hallows : rl.allows client start stop (.request client now) = true := by
        rw [RateLimiter.allows, hallow]
        simp [hspan]
      have hstep : rl.step (.request client now) = rl.set client ⟨requests, now⟩ := congrArg Prod.snd hallow
      have hleft : (rl.set client ⟨requests, now⟩).visitors client = some ⟨requests, now⟩ := Function.update_self ..
      obtain ⟨hallowed, hend⟩ := @ih (rl.set client ⟨requests, now⟩) hlimit
        (by rw [hleft]; exact refill_now _ _ _)
      rw [burst, List.replicate_succ, RateLimiter.allowed, Run.exec_cons, hallows, hstep]
      refine ⟨by rw [← burst, hallowed, Bool.toNat_true, Nat.add_comm], fun _ => ?_⟩
      obtain rfl | hmore := Nat.eq_zero_or_pos requests
      · exact hleft
      · exact hend hmore

/-- Bursts a while apart, each behind a look through the visitors. -/
def bursts (client : Ip) (requests : Nat) (apart : Int) : Nat → Int → List (Event Ip)
  | 0, _ => []
  | rounds + 1, now => .cleanup now :: burst client requests now ++ bursts client requests apart rounds (now + apart)

/-- A client that has been away for so long is not known any more. -/
def Forgotten (rl : RateLimiter Ip) (client : Ip) (now : Int) : Prop :=
  ∀ v ∈ rl.visitors client, rl.cleanup * 2 < now - v.lastUpdate

/-- Each of the bursts is allowed. -/
theorem allowed_bursts {requests rounds : Nat} {apart : Int} (hlimit : rl.limit = requests) (hpos : 0 < requests)
    (hapart : rl.cleanup * 2 < apart) (hnonneg : 0 ≤ apart) (hforgotten : Forgotten rl client now)
    (hstart : start ≤ now) (hstop : now + rounds * apart ≤ stop + apart) :
    rl.allowed client start stop (bursts client requests apart rounds now) = rounds * requests := by
  induction rounds generalizing rl now with
  | zero => simp [bursts, RateLimiter.allowed]
  | succ rounds ih =>
      have hnone : (rl.step (.cleanup now)).visitors client = none := by
        change (rl.visitors client).filter (fun v => !decide (rl.cleanup * 2 < now - v.lastUpdate)) = none
        cases hvisitor : rl.visitors client with
        | none => rfl
        | some v => rw [Option.filter_some, decide_eq_true (hforgotten v hvisitor)]; rfl
      have hnow : now ≤ stop := by
        have hrounds : 0 ≤ (rounds : Int) * apart := by positivity
        push_cast at hstop
        linarith
      obtain ⟨hburst, hend⟩ : (rl.step (.cleanup now)).allowed client start stop (burst client requests now) = requests ∧
          (0 < requests → (Run.exec RateLimiter.step (rl.step (.cleanup now)) (burst client requests now)).visitors client =
            some ⟨0, now⟩) := allowed_burst
        ⟨hstart, hnow⟩ (by rw [step_config.1, hlimit]; exact_mod_cast hpos)
        (by rw [hnone, RateLimiter.counted, step_config.1, hlimit])
      have hrest := @ih (Run.exec RateLimiter.step (rl.step (.cleanup now)) (burst client requests now))
        (now + apart) (by rw [(exec_config _).1, step_config.1, hlimit])
        (by rw [(exec_config _).2, step_config.2.2]; exact hapart)
        (by
          intro v hv
          rw [hend hpos] at hv
          obtain rfl := Option.some.inj hv
          rw [(exec_config _).2, step_config.2.2]
          simpa using hapart)
        (by omega) (by push_cast at hstop; linarith)
      rw [bursts, List.cons_append, RateLimiter.allowed, allowed_append, hburst, hrest]
      simp only [RateLimiter.allows, Bool.toNat_false]
      ring

omit [DecidableEq Ip] in
theorem inOrder_bursts {requests rounds : Nat} {apart : Int} (hnonneg : 0 ≤ apart) :
    InOrder (bursts client requests apart rounds now) ∧
      ∀ event ∈ bursts client requests apart rounds now, now ≤ event.time := by
  induction rounds generalizing now with
  | zero => exact ⟨List.Pairwise.nil, by simp [bursts]⟩
  | succ rounds ih =>
      obtain ⟨hrest, hlater⟩ := @ih (now + apart)
      have hburst : ∀ event ∈ burst client requests now, event.time = now := by
        intro event hevent
        rw [(List.mem_replicate.mp hevent).2]
        rfl
      have hall : ∀ event ∈ bursts client requests apart (rounds + 1) now, now ≤ event.time := by
        intro event hevent
        rw [bursts, List.cons_append, List.mem_cons, List.mem_append] at hevent
        obtain rfl | hevent | hevent := hevent
        · exact le_rfl
        · exact (hburst event hevent).ge
        · have := hlater event hevent
          omega
      refine ⟨?_, hall⟩
      rw [InOrder, List.pairwise_map, bursts, List.cons_append, List.pairwise_cons, List.pairwise_append]
      rw [bursts, List.cons_append] at hall
      refine ⟨fun event hevent => hall event (List.mem_cons_of_mem _ hevent), ?_, List.pairwise_map.mp hrest, ?_⟩
      · refine List.pairwise_of_forall_mem_list fun event hevent other hother => ?_
        rw [hburst event hevent, hburst other hother]
      · intro event hevent later hlate
        rw [hburst event hevent]
        exact (Int.le_add_of_nonneg_right hnonneg).trans (hlater later hlate)

omit [DecidableEq Ip] in
theorem exists_before {events : List (Event Ip)} (h : InOrder events) : ∃ before, ∀ event ∈ events, before ≤ event.time := by
  cases events with
  | nil => exact ⟨0, by simp⟩
  | cons event events =>
      refine ⟨event.time, fun other hother => ?_⟩
      obtain rfl | hother := List.mem_cons.mp hother
      · exact le_rfl
      · exact (inOrder_cons h).1 other hother

end step

/-- Enough bursts are more than time gives back, if it does not give back a whole burst in between. -/
theorem bursts_exceed {requests period : Nat} {apart : Int} (hperiod : (1 : Int) ≤ period)
    (hapart : apart < requests * period) :
    requests + (period + 1) * apart / (period : Int) + 1 < ((period + 2) * requests : Nat) := by
  have hback : ((period : Int) + 1) * apart / period < (period + 1) * requests - 1 := by
    rw [Int.ediv_lt_iff_lt_mul (by omega)]
    have hrounds : ((period : Int) + 1) * (apart + 1) ≤ (period + 1) * (requests * period) :=
      Int.mul_le_mul_of_nonneg_left hapart (by omega)
    linarith
  push_cast
  linarith

omit [DecidableEq Ip] in
theorem newRateLimiter_valid {limit window : Int} (hlimit : 0 < limit) (hperiod : 1 ≤ window / limit)
    (hwindow : 0 ≤ window) (before : Int) : (newRateLimiter limit window : RateLimiter Ip).Valid before where
  limit := hlimit
  period := by
    change 0 < window.tdiv limit
    rw [Int.tdiv_eq_ediv_of_nonneg hwindow]
    exact hperiod
  visitors ip v hv := by contradiction

/-- The rate is limited, in every run, exactly if all of the tokens are back by the time a visitor is forgotten, which
is ten minutes after it was last given some. -/
theorem limitsRate_iff [Inhabited Ip] {limit window : Int} (hlimit : 0 < limit) (hperiod : 1 ≤ window / limit) :
    LimitsRate Ip limit window ↔ limit * (window / limit) ≤ cleanupInterval * 2 + 1 := by
  have hwindow : 0 ≤ window := by
    by_contra hneg
    have := Int.ediv_neg_of_neg_of_pos (Int.not_le.mp hneg) hlimit
    omega
  have hquotient : (newRateLimiter limit window : RateLimiter Ip).period = window / limit :=
    Int.tdiv_eq_ediv_of_nonneg hwindow
  constructor
  · intro h
    by_contra hearly
    obtain ⟨requests, rfl⟩ := Int.eq_ofNat_of_zero_le hlimit.le
    obtain ⟨period, hnat⟩ := Int.eq_ofNat_of_zero_le (zero_le_one.trans hperiod)
    have hnonneg : 0 ≤ cleanupInterval * 2 + 1 := by decide
    have hsorted : InOrder (bursts (default : Ip) requests (cleanupInterval * 2 + 1) (period + 2) 0) :=
      (inOrder_bursts hnonneg).1
    have hall : (newRateLimiter requests window : RateLimiter Ip).allowed default 0
        (0 + (period + 1) * (cleanupInterval * 2 + 1))
        (bursts default requests (cleanupInterval * 2 + 1) (period + 2) 0) = (period + 2) * requests := allowed_bursts rfl
      (by exact_mod_cast hlimit) (show cleanupInterval * 2 < cleanupInterval * 2 + 1 by decide) hnonneg
      (fun v hv => by contradiction) le_rfl (by push_cast; linarith)
    have hbound := (h _ hsorted default).1 0 ((period + 1) * (cleanupInterval * 2 + 1)) (by positivity)
    rw [hall, hnat] at hbound
    rw [hnat] at hearly hperiod
    exact absurd hbound (not_le.mpr (bursts_exceed hperiod (not_le.mp hearly)))
  · intro hforget events hevents client
    obtain ⟨before, hbefore⟩ := exists_before hevents
    have hvalid := @newRateLimiter_valid Ip limit window hlimit hperiod hwindow before
    have hforgets : (newRateLimiter limit window : RateLimiter Ip).limit *
        (newRateLimiter limit window : RateLimiter Ip).period ≤
        (newRateLimiter limit window : RateLimiter Ip).cleanup * 2 + 1 := by
      rw [hquotient]
      exact hforget
    refine ⟨fun start T hT => ?_, tokens_always hvalid hevents hbefore⟩
    have hallowed : ((newRateLimiter limit window : RateLimiter Ip).allowed client start (start + T) events : Int) ≤ _ :=
      allowed_le hvalid hforgets (Int.le_add_of_nonneg_right hT) hevents hbefore
    rwa [hquotient, add_sub_cancel_left] at hallowed

def second : Int := 1000000000

/-- The two limiters that are in use. -/
theorem limiters_limitRate : LimitsRate UInt32 10 (60 * second) ∧ LimitsRate UInt32 300 (60 * second) :=
  ⟨(limitsRate_iff (by decide) (by decide)).mpr (by decide), (limitsRate_iff (by decide) (by decide)).mpr (by decide)⟩

/-- One request an hour: a client that asks a little after each quarter of an hour is forgotten at each. -/
theorem four_requests_in_an_hour :
    ¬∀ limit window : Int, 0 < limit → 1 ≤ window / limit → LimitsRate UInt32 limit window := by
  intro h
  let events : List (Event UInt32) :=
    [.request 167772161 0, .cleanup (900 * second), .request 167772161 (960 * second), .cleanup (1800 * second),
      .request 167772161 (1860 * second), .cleanup (2700 * second), .request 167772161 (2760 * second)]
  have hbound := ((h 1 (3600 * second) (by decide) (by decide) events (by unfold InOrder; decide) 167772161).1 0
    (2760 * second) (by decide))
  exact absurd hbound (by decide)

end Sysmon.Middleware
