import Mathlib.Data.List.Basic
import Mathlib.Data.List.TakeWhile
import Mathlib.Data.UInt

/-!
# Reading lines from a buffer

A line ends with a newline, or with a carriage return and a newline, and its contents do not. Read through a buffer a line
may come in parts: all but the last say so. The last may be empty, and no part comes between the two bytes of an ending. What
follows the last newline comes as a last part too when the stream ends, unless all of it has come before.
-/

namespace Bufio

abbrev Bytes := List UInt8

/-- Without a carriage return at the end. -/
def withoutCR (line : Bytes) : Bytes := if line.getLast? = some 13 then line.dropLast else line

/-- The contents of the first line that ends, and what follows it. -/
def cutLine (stream : Bytes) : Option (Bytes × Bytes) :=
  match stream.dropWhile (· ≠ 10) with
  | [] => none
  | _ :: rest => some (withoutCR (stream.takeWhile (· ≠ 10)), rest)

/-- A call of `ReadLine`: what there is to read, what it returns (the bytes, and whether they are only a part of a line), and
what there is to read afterwards. -/
inductive ReadLine {ε : Type} : Bytes → Except ε (Bytes × Bool) → Bytes → Prop
  | ended {line : Bytes} (rest : Bytes) (hline : 10 ∉ line) : ReadLine (line ++ 10 :: rest) (.ok (withoutCR line, false)) rest
  | part {chunk rest : Bytes} (hchunk : 10 ∉ chunk) (hne : chunk ≠ [])
      (hcr : chunk.getLast? = some 13 → rest.head? ≠ some 10) : ReadLine (chunk ++ rest) (.ok (chunk, true)) rest
  | last {line : Bytes} (hline : 10 ∉ line) (hne : line ≠ []) : ReadLine line (.ok (line, false)) []
  | error (e : ε) : ReadLine [] (.error e) []

/-- Something that lines are read from. -/
structure Reader (σ ε : Type) where
  readLine : σ → Except ε (Bytes × Bool) × σ
  pending : σ → Bytes
  reads : ∀ s, ReadLine (pending s) (readLine s).1 (pending (readLine s).2)

/-! ### Lines in parts -/

theorem cutLine_ended {line : Bytes} (hline : 10 ∉ line) (rest : Bytes) :
    cutLine (line ++ 10 :: rest) = some (withoutCR line, rest) := by
  have hall : ∀ c ∈ line, decide (c ≠ 10) = true := by
    intro c hc
    simp only [ne_eq, decide_eq_true_eq]
    rintro rfl
    exact hline hc
  rw [cutLine, List.dropWhile_append_of_pos hall, List.takeWhile_append_of_pos hall]
  simp

theorem cutLine_unended {stream : Bytes} (h : 10 ∉ stream) : cutLine stream = none := by
  have hall : stream.dropWhile (fun c => decide (c ≠ 10)) = [] := by
    rw [List.dropWhile_eq_nil_iff]
    intro c hc
    simp only [ne_eq, decide_eq_true_eq]
    rintro rfl
    exact h hc
  rw [cutLine, hall]

/-- A part of a line in front of what follows is a part of the first line. -/
theorem cutLine_part {chunk rest : Bytes} (hchunk : 10 ∉ chunk) (hcr : chunk.getLast? = some 13 → rest.head? ≠ some 10) :
    cutLine (chunk ++ rest) = (cutLine rest).map fun cut => (chunk ++ cut.1, cut.2) := by
  by_cases hend : 10 ∈ rest
  · obtain ⟨line, after, rfl, hline⟩ := List.eq_append_cons_of_mem hend
    have hboth : 10 ∉ chunk ++ line := fun hmem => (List.mem_append.mp hmem).elim hchunk hline
    rw [← List.append_assoc, cutLine_ended hboth, cutLine_ended hline, Option.map_some]
    have hcontents : withoutCR (chunk ++ line) = chunk ++ withoutCR line := by
      obtain rfl | hne := eq_or_ne line []
      · have hno : chunk.getLast? ≠ some 13 := fun hlast => hcr hlast rfl
        rw [List.append_nil, withoutCR, if_neg hno]
        exact (List.append_nil chunk).symm
      · rw [withoutCR, withoutCR, List.getLast?_append_of_ne_nil chunk hne]
        split
        · exact List.dropLast_append_of_ne_nil hne
        · rfl
    rw [hcontents]
  · have hboth : 10 ∉ chunk ++ rest := fun hmem => (List.mem_append.mp hmem).elim hchunk hend
    rw [cutLine_unended hboth, cutLine_unended hend, Option.map_none]

/-! ### A buffer of fixed size -/

/-- A line is handed over in parts of the size of the buffer; a carriage return at the end of one goes back into it. -/
def readLine (size : Nat) (stream : Bytes) : Except Unit (Bytes × Bool) × Bytes :=
  let line := stream.takeWhile (· ≠ 10)
  if size ≤ line.length then
    let chunk := withoutCR (line.take size)
    (.ok (chunk, true), stream.drop chunk.length)
  else
    match stream.dropWhile (· ≠ 10), line with
    | _ :: rest, line => (.ok (withoutCR line, false), rest)
    | [], [] => (.error (), [])
    | [], line => (.ok (line, false), [])

theorem withoutCR_isPrefix (line : Bytes) : withoutCR line <+: line := by
  rw [withoutCR]
  split
  · exact List.dropLast_prefix line
  · exact List.prefix_rfl

/-- A full buffer without a newline in it. -/
theorem reads_full {size : Nat} (hsize : 2 ≤ size) {front stream : Bytes} (hfull : front.length = size) (hfront : 10 ∉ front)
    (hstream : front <+: stream) {ε : Type} :
    ReadLine (ε := ε) stream (.ok (withoutCR front, true)) (stream.drop (withoutCR front).length) := by
  have hchunk := (withoutCR_isPrefix front).trans hstream
  have hparts := List.prefix_iff_eq_append.mp hchunk
  have hreads : ReadLine (ε := ε) (withoutCR front ++ stream.drop (withoutCR front).length) (.ok (withoutCR front, true))
      (stream.drop (withoutCR front).length) := by
    refine .part (fun hmem => hfront ((withoutCR_isPrefix front).subset hmem)) ?_ ?_
    · have hlen : front.length - 1 ≤ (withoutCR front).length := by
        rw [withoutCR]
        split
        · rw [List.length_dropLast]
        · omega
      exact List.ne_nil_of_length_pos (by omega)
    · intro hlast
      -- what was put back is the first byte of what follows
      by_cases hcr : front.getLast? = some 13
      · obtain ⟨before, rfl⟩ := List.getLast?_eq_some_iff.mp hcr
        obtain ⟨after, rfl⟩ := hstream
        rw [withoutCR, if_pos hcr, List.dropLast_concat, List.append_assoc, List.drop_left]
        simp
      · rw [withoutCR, if_neg hcr] at hlast
        exact absurd hlast hcr
  rwa [hparts] at hreads

theorem readLine_reads {size : Nat} (hsize : 2 ≤ size) (stream : Bytes) :
    ReadLine stream (readLine size stream).1 (readLine size stream).2 := by
  have hparts := List.takeWhile_append_dropWhile (p := fun c => decide (c ≠ 10)) (l := stream)
  have hline : 10 ∉ stream.takeWhile fun c => decide (c ≠ 10) := by
    intro hmem
    simpa using List.mem_takeWhile_imp hmem
  have hnewline : ∀ c rest, stream.dropWhile (fun c => decide (c ≠ 10)) = c :: rest → c = 10 := by
    intro c rest hdrop
    have hhead := List.head?_dropWhile_not (fun c : UInt8 => decide (c ≠ 10)) stream
    rw [hdrop] at hhead
    simpa using hhead
  rw [readLine]
  generalize stream.takeWhile (fun c => decide (c ≠ 10)) = line at hparts hline ⊢
  dsimp only
  split
  next hfull =>
    have hfront : line.take size <+: stream := (List.take_prefix size line).trans ⟨_, hparts⟩
    exact reads_full hsize (List.length_take_of_le hfull) (fun hmem => hline (List.mem_of_mem_take hmem)) hfront
  next hshort =>
    split
    next c rest hdrop =>
      obtain rfl := hnewline c rest hdrop
      rw [hdrop] at hparts
      rw [← hparts]
      exact .ended rest hline
    next hdrop =>
      rw [hdrop] at hparts
      rw [← hparts]
      exact .error ()
    next hdrop hne =>
      rw [hdrop, List.append_nil] at hparts
      rw [← hparts]
      exact .last hline hne

/-- What `bufio.NewReaderSize` makes of a stream. -/
def reader (size : Nat) (hsize : 2 ≤ size) : Reader Bytes Unit where
  readLine := readLine size
  pending := id
  reads := readLine_reads hsize

end Bufio
