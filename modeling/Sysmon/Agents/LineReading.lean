import Sysmon.Lib.Bufio

/-!
# Lines of an alerter

`readLineBounded` reads a line in the parts that `bufio` hands over and keeps at most 4096 bytes of it. However a line comes
in parts, its first bytes are returned, with a word on whether there were more, and the next line is where it was. What
follows the last newline is read like that as well, unless the stream ends behind a part that is not the last: then there is
the error, and no line.
-/

namespace Sysmon.Alerts

open Bufio

def maxLineBytes : Nat := 4096

/-- A turn of the loop: what is kept of a chunk. -/
def takeChunk (buf : Bytes) (truncated : Bool) (chunk : Bytes) : Bytes × Bool :=
  if buf.length < maxLineBytes then
    let take := if chunk.length < maxLineBytes - buf.length then chunk.length else maxLineBytes - buf.length
    (buf ++ chunk.take take, if take < chunk.length then true else truncated)
  else (buf, if 0 < chunk.length then true else truncated)

variable {σ ε : Type} (r : Reader σ ε)

/-- The loop of `readLineBounded`, for at most so many turns. -/
def readLoop : Nat → σ → Bytes → Bool → Option (Except ε (Bytes × Bool) × σ)
  | 0, _, _, _ => none
  | fuel + 1, s, buf, truncated =>
      match r.readLine s with
      | (.error rerr, s) => some (.error rerr, s)
      | (.ok (chunk, isPrefix), s) =>
          let (buf, truncated) := takeChunk buf truncated chunk
          if isPrefix then readLoop fuel s buf truncated else some (.ok (buf, truncated), s)

/-- The line and whether it was truncated, or the error. There is one turn more than there are bytes. -/
def readLineBounded (s : σ) : Option (Except ε (Bytes × Bool) × σ) := readLoop r ((r.pending s).length + 1) s [] false

/-- What is kept of so many bytes of a line. -/
def kept (line : Bytes) : Bytes × Bool := (line.take maxLineBytes, decide (maxLineBytes < line.length))

/-- The first line of a stream, and what follows it; where no line ends, all of it is one. -/
def nextLine (stream : Bytes) : Bytes × Bytes := (cutLine stream).getD (stream, [])

/-- The next line is consumed and returned. -/
def ReadsLine (s : σ) : Prop :=
  ∃ s', readLineBounded r s = some (.ok (kept (nextLine (r.pending s)).1), s') ∧ r.pending s' = (nextLine (r.pending s)).2

/-! ### What is kept -/

/-- A chunk is kept as if it had come with what came before. -/
theorem takeChunk_kept (seen chunk : Bytes) : takeChunk (kept seen).1 (kept seen).2 chunk = kept (seen ++ chunk) := by
  rw [takeChunk, kept, kept]
  dsimp only
  by_cases hroom : seen.length < maxLineBytes
  · have hseen : seen.take maxLineBytes = seen := List.take_of_length_le (Nat.le_of_lt hroom)
    have hnot : ¬maxLineBytes < seen.length := Nat.not_lt.mpr (Nat.le_of_lt hroom)
    rw [hseen, if_pos hroom, decide_eq_false hnot, List.take_append, hseen, List.length_append]
    by_cases hfits : chunk.length < maxLineBytes - seen.length
    · rw [if_pos hfits, if_neg (Nat.lt_irrefl _), List.take_length, List.take_of_length_le (Nat.le_of_lt hfits),
        decide_eq_false (by omega)]
    · rw [if_neg hfits]
      by_cases hmore : maxLineBytes - seen.length < chunk.length
      · rw [if_pos hmore, decide_eq_true (by omega)]
      · rw [if_neg hmore, decide_eq_false (by omega)]
  · have hfull : (seen.take maxLineBytes).length = maxLineBytes := List.length_take_of_le (Nat.not_lt.mp hroom)
    rw [hfull, if_neg (Nat.lt_irrefl _), List.take_append_of_le_length (Nat.not_lt.mp hroom), List.length_append]
    by_cases hempty : 0 < chunk.length
    · rw [if_pos hempty, decide_eq_true (by omega)]
    · rw [if_neg hempty, Nat.eq_zero_of_not_pos hempty, Nat.add_zero]

/-! ### Reading -/

section reading

variable {r} {s s' : σ} {line rest : Bytes}

theorem readLoop_error {rerr : ε} (h : r.readLine s = (.error rerr, s')) (fuel : Nat) (buf : Bytes) (truncated : Bool) :
    readLoop r (fuel + 1) s buf truncated = some (.error rerr, s') := by
  rw [readLoop, h]

theorem readLoop_ok {chunk : Bytes} {isPrefix : Bool} (h : r.readLine s = (.ok (chunk, isPrefix), s')) (fuel : Nat)
    (seen : Bytes) :
    readLoop r (fuel + 1) s (kept seen).1 (kept seen).2 =
      if isPrefix then readLoop r fuel s' (kept (seen ++ chunk)).1 (kept (seen ++ chunk)).2
      else some (.ok (kept (seen ++ chunk)), s') := by
  rw [readLoop, h]
  dsimp only
  rw [takeChunk_kept]

/-- A line that ends is read, whatever part of it has been seen. -/
theorem readLoop_line {fuel : Nat} (hfuel : (r.pending s).length < fuel) (hcut : cutLine (r.pending s) = some (line, rest))
    (seen : Bytes) :
    ∃ s', readLoop r fuel s (kept seen).1 (kept seen).2 = some (.ok (kept (seen ++ line)), s') ∧ r.pending s' = rest := by
  induction fuel generalizing s seen line with
  | zero => exact absurd hfuel (Nat.not_lt_zero _)
  | succ fuel ih =>
      have hreads := r.reads s
      generalize hread : r.readLine s = read at hreads
      obtain ⟨outcome, s'⟩ := read
      generalize hpending : r.pending s = stream at hreads hcut hfuel
      generalize hafter : r.pending s' = after at hreads
      cases hreads with
      | ended rest' hline =>
          rw [cutLine_ended hline] at hcut
          obtain ⟨rfl, rfl⟩ := Prod.mk.inj (Option.some.inj hcut)
          exact ⟨s', readLoop_ok hread fuel seen, hafter⟩
      | part hchunk hne hcr =>
          rename_i chunk
          rw [cutLine_part hchunk hcr, Option.map_eq_some_iff] at hcut
          obtain ⟨⟨line', rest'⟩, hcut', heq⟩ := hcut
          obtain ⟨rfl, rfl⟩ := Prod.mk.inj heq
          have hless : (r.pending s').length < fuel := by
            have hpos := List.length_pos_iff.mpr hne
            rw [List.length_append] at hfuel
            rw [hafter]
            omega
          obtain ⟨s'', hloop, hend⟩ := ih hless (hafter ▸ hcut') (seen ++ chunk)
          rw [readLoop_ok hread fuel seen, if_pos rfl, ← List.append_assoc]
          exact ⟨s'', hloop, hend⟩
      | last hline hne =>
          rw [cutLine_unended hline] at hcut
          exact nomatch hcut
      | error e => exact nomatch hcut

/-- Where no line ends, what there is is read, or there is an error; nothing is left. -/
theorem readLoop_rest {fuel : Nat} (hfuel : (r.pending s).length < fuel) (hunended : 10 ∉ r.pending s) (seen : Bytes) :
    ∃ outcome s', readLoop r fuel s (kept seen).1 (kept seen).2 = some (outcome, s') ∧ r.pending s' = [] ∧
      (outcome = .ok (kept (seen ++ r.pending s)) ∨ ∃ rerr, outcome = .error rerr) := by
  induction fuel generalizing s seen with
  | zero => exact absurd hfuel (Nat.not_lt_zero _)
  | succ fuel ih =>
      have hreads := r.reads s
      generalize hread : r.readLine s = read at hreads
      obtain ⟨outcome, s'⟩ := read
      generalize hpending : r.pending s = stream at hreads hunended hfuel ⊢
      generalize hafter : r.pending s' = after at hreads
      cases hreads with
      | ended rest' hline => exact absurd (List.mem_append_right _ List.mem_cons_self) hunended
      | part hchunk hne hcr =>
          rename_i chunk
          have hless : (r.pending s').length < fuel := by
            have hpos := List.length_pos_iff.mpr hne
            rw [List.length_append] at hfuel
            rw [hafter]
            omega
          have hrest : 10 ∉ r.pending s' := by
            rw [hafter]
            exact fun hmem => hunended (List.mem_append_right _ hmem)
          obtain ⟨outcome, s'', hloop, hend, houtcome⟩ := ih hless hrest (seen ++ chunk)
          rw [hafter, List.append_assoc] at houtcome
          rw [readLoop_ok hread fuel seen, if_pos rfl]
          exact ⟨outcome, s'', hloop, hend, houtcome⟩
      | last hline hne => exact ⟨_, s', readLoop_ok hread fuel seen, hafter, Or.inl rfl⟩
      | error e => exact ⟨_, s', readLoop_error hread fuel _ _, hafter, Or.inr ⟨e, rfl⟩⟩

end reading

/-- The next line is consumed and returned, however it comes in parts; only where no line ends there may be an error in its
place, and then nothing is left. It comes where the stream ends or breaks behind a part that is not the last, as it does
when the bytes that are left just fill the buffer. -/
theorem readLineBounded_reads (r : Reader σ ε) (s : σ) :
    ReadsLine r s ∨ 10 ∉ r.pending s ∧ ∃ rerr s', readLineBounded r s = some (.error rerr, s') ∧ r.pending s' = [] := by
  have hfuel : (r.pending s).length < (r.pending s).length + 1 := Nat.lt_succ_self _
  by_cases hmem : 10 ∈ r.pending s
  · left
    obtain ⟨line, rest, hsplit, hline⟩ := List.eq_append_cons_of_mem hmem
    have hcut : cutLine (r.pending s) = some (withoutCR line, rest) := by rw [hsplit, cutLine_ended hline]
    obtain ⟨s', hloop, hend⟩ := readLoop_line hfuel hcut []
    have hnext : nextLine (r.pending s) = (withoutCR line, rest) := by rw [nextLine, hcut, Option.getD_some]
    rw [ReadsLine, hnext]
    exact ⟨s', hloop, hend⟩
  · obtain ⟨outcome, s', hloop, hend, houtcome⟩ := readLoop_rest hfuel hmem []
    have hnext : nextLine (r.pending s) = (r.pending s, []) := by rw [nextLine, cutLine_unended hmem, Option.getD_none]
    obtain rfl | ⟨rerr, rfl⟩ := houtcome
    · left
      rw [ReadsLine, hnext]
      exact ⟨s', hloop, hend⟩
    · right
      exact ⟨hmem, rerr, s', hloop, hend⟩

/-- A buffer that is full of a line that nothing ends. -/
theorem readLine_full (size : Nat) : readLine size (List.replicate size 65) = (.ok (List.replicate size 65, true), []) := by
  have hall : (List.replicate size (65 : UInt8)).takeWhile (fun c => decide (c ≠ 10)) = List.replicate size 65 := by
    rw [List.takeWhile_eq_self_iff]
    intro c hc
    rw [List.eq_of_mem_replicate hc]
    decide
  have hcr : withoutCR (List.replicate size (65 : UInt8)) = List.replicate size 65 := by
    rw [withoutCR, if_neg]
    intro hlast
    have hmem := List.mem_of_getLast? hlast
    exact absurd (List.eq_of_mem_replicate hmem) (by decide)
  rw [readLine, hall]
  dsimp only
  rw [if_pos (by rw [List.length_replicate]), List.take_of_length_le (by rw [List.length_replicate]), hcr,
    List.drop_of_length_le (Nat.le_refl _)]

theorem readLineBounded_full {size : Nat} (hsize : 2 ≤ size) :
    readLineBounded (reader size hsize) (List.replicate size 65) = some (.error (), []) := by
  have hfirst : (reader size hsize).readLine (List.replicate size 65) = (.ok (List.replicate size 65, true), []) :=
    readLine_full size
  have hend : (reader size hsize).readLine [] = (.error (), []) := by
    have hpos : ¬size ≤ 0 := by omega
    exact if_neg hpos
  have hlength : ((reader size hsize).pending (List.replicate size 65)).length = size := List.length_replicate
  obtain ⟨fuel, rfl⟩ : ∃ fuel, size = fuel + 1 := ⟨size - 1, by omega⟩
  have hloop := readLoop_ok hfirst (fuel + 1) []
  rw [if_pos rfl, readLoop_error hend fuel] at hloop
  rw [readLineBounded, hlength]
  exact hloop

/-- Of the 4096 bytes that fill the buffer nothing is returned when the stream ends behind them. -/
theorem not_readsLine_full : ¬∀ (σ ε : Type) (r : Reader σ ε) (s : σ), r.pending s ≠ [] → ReadsLine r s := by
  intro h
  have hsize : 2 ≤ 4096 := by decide
  have hne : ∀ {size : Nat} (hsize : 2 ≤ size), (reader size hsize).pending (List.replicate size 65) ≠ [] := by
    intro size hsize hempty
    have hlength : (List.replicate size (65 : UInt8)).length = 0 := congrArg List.length hempty
    rw [List.length_replicate] at hlength
    omega
  obtain ⟨s', hline, -⟩ := h Bytes Unit (reader 4096 hsize) _ (hne hsize)
  rw [readLineBounded_full hsize] at hline
  exact nomatch Option.some.inj hline

end Sysmon.Alerts
