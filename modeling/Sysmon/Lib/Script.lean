import Mathlib.Data.List.TakeDrop

/-!
# A conversation by a script

A script is a list of exchanges: what may come before the reply that is waited for, which reply that is, and what is sent
for it. A conversation follows a script if it is its exchanges, one after the other. Who waits for the next exchange has
had those before it, and behind them only what that one lets pass. A conversation may break off with a reply that is not the
one waited for.
-/

namespace Script

variable {ρ σ : Type}

/-- What goes over the line. -/
inductive Event (ρ σ : Type) where
  | received (reply : ρ)
  | sent (line : σ)
  deriving DecidableEq, Repr

structure Exchange (ρ σ : Type) where
  passes : ρ → Prop
  accepts : ρ → Prop
  answers : List σ

/-- One exchange: what passes, the reply, and the answers to it. -/
def Exchange.Took (exchange : Exchange ρ σ) (events : List (Event ρ σ)) : Prop :=
  ∃ (passed : List ρ) (reply : ρ), (∀ p ∈ passed, exchange.passes p) ∧ exchange.accepts reply ∧
    events = passed.map .received ++ .received reply :: exchange.answers.map .sent

/-- All exchanges, in their order. -/
inductive Follows : List (Exchange ρ σ) → List (Event ρ σ) → Prop where
  | nil : Follows [] []
  | cons {exchange script first rest} : exchange.Took first → Follows script rest →
      Follows (exchange :: script) (first ++ rest)

/-- So many exchanges, and after them what the next one lets pass. -/
def Reached (script : List (Exchange ρ σ)) (n : Nat) (events : List (Event ρ σ)) : Prop :=
  ∃ (earlier : List (Event ρ σ)) (passed : List ρ),
    Follows (script.take n) earlier ∧ events = earlier ++ passed.map .received ∧
    ∀ p ∈ passed, ∃ exchange, script[n]? = some exchange ∧ exchange.passes p

/-- A reply that was not the one waited for, and what was sent after it. -/
def Refused (script : List (Exchange ρ σ)) (events : List (Event ρ σ)) : Prop :=
  ∃ (n : Nat) (earlier : List (Event ρ σ)) (exchange : Exchange ρ σ) (reply : ρ) (lines : List σ),
    Reached script n earlier ∧ script[n]? = some exchange ∧ ¬exchange.accepts reply ∧
      events = earlier ++ .received reply :: lines.map .sent

variable {script : List (Exchange ρ σ)} {exchange : Exchange ρ σ} {events first : List (Event ρ σ)} {n : Nat} {reply : ρ}

theorem Follows.snoc (h : Follows script events) (hfirst : exchange.Took first) :
    Follows (script ++ [exchange]) (events ++ first) := by
  induction h with
  | nil =>
      have hone := Follows.cons hfirst Follows.nil
      rwa [List.append_nil] at hone
  | cons htook _ ih =>
      rw [List.append_assoc]
      exact Follows.cons htook ih

theorem reached_zero : Reached script 0 [] := ⟨[], [], Follows.nil, rfl, fun _ hp => absurd hp List.not_mem_nil⟩

theorem Reached.pass (h : Reached script n events) (hnext : script[n]? = some exchange) (hpasses : exchange.passes reply) :
    Reached script n (events ++ [.received reply]) := by
  obtain ⟨earlier, passed, hearlier, hevents, hpassed⟩ := h
  refine ⟨earlier, passed ++ [reply], hearlier, ?_, fun p hp => ?_⟩
  · rw [hevents, List.map_append, List.append_assoc]
    rfl
  · rcases List.mem_append.mp hp with hp | hp
    · exact hpassed p hp
    · rw [List.mem_singleton.mp hp]
      exact ⟨exchange, hnext, hpasses⟩

theorem Reached.accept (h : Reached script n events) (hnext : script[n]? = some exchange)
    (haccepts : exchange.accepts reply) :
    Reached script (n + 1) (events ++ .received reply :: exchange.answers.map .sent) := by
  obtain ⟨earlier, passed, hearlier, hevents, hpassed⟩ := h
  have htook : exchange.Took (passed.map .received ++ .received reply :: exchange.answers.map .sent) := by
    refine ⟨passed, reply, fun p hp => ?_, haccepts, rfl⟩
    obtain ⟨other, hother, hpasses⟩ := hpassed p hp
    rwa [Option.some.inj (hnext.symm.trans hother)]
  refine ⟨_, [], ?_, (List.append_nil _).symm, fun p hp => absurd hp List.not_mem_nil⟩
  rw [List.take_add_one, hnext, hevents, List.append_assoc]
  exact hearlier.snoc htook

/-- Who waits for nothing more has followed the script. -/
theorem Reached.follows (h : Reached script script.length events) : Follows script events := by
  obtain ⟨earlier, passed, hearlier, hevents, hpassed⟩ := h
  have hnone : passed = [] := by
    refine List.eq_nil_iff_forall_not_mem.mpr fun p hp => ?_
    obtain ⟨exchange, hexchange, -⟩ := hpassed p hp
    rw [List.getElem?_eq_none_iff.mpr (Nat.le_refl _)] at hexchange
    exact absurd hexchange (by simp)
  rw [List.take_length] at hearlier
  rwa [hevents, hnone, List.map_nil, List.append_nil]

end Script
