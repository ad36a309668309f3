import Mathlib.Algebra.Order.Ring.Int
import Mathlib.Data.List.Basic

/-!
# Text in lines

A stream of lines is split at its newlines; what follows the last one is a line too, an empty one if
the stream ends in a newline. Long text is cut into pieces of one width, the last of which may be
shorter, and the pieces make up the text again.
-/

namespace Lines

/-- Lines with their newlines. -/
def joinLines (lines : List (List Char)) : List Char := lines.flatMap (· ++ ['\n'])

@[simp] theorem joinLines_nil : joinLines [] = [] := rfl

@[simp] theorem joinLines_cons (line : List Char) (lines : List (List Char)) :
    joinLines (line :: lines) = line ++ '\n' :: joinLines lines := by simp [joinLines]

@[simp] theorem joinLines_append (left right : List (List Char)) :
    joinLines (left ++ right) = joinLines left ++ joinLines right := by simp [joinLines]

theorem length_flatten_le_joinLines (lines : List (List Char)) :
    lines.flatten.length ≤ (joinLines lines).length := by
  induction lines with
  | nil => exact Nat.le_refl 0
  | cons line lines ih =>
      rw [List.flatten_cons, joinLines_cons, List.length_append, List.length_append, List.length_cons]
      omega

theorem splitOn_joinLines {lines : List (List Char)} (hlines : ∀ line ∈ lines, '\n' ∉ line)
    (rest : List Char) : (joinLines lines ++ rest).splitOn '\n' = lines ++ rest.splitOn '\n' := by
  induction lines with
  | nil => rfl
  | cons line lines ih =>
      rw [joinLines_cons, List.append_assoc, List.cons_append,
        List.splitOn_append_cons_self_of_not_mem (hlines line List.mem_cons_self), List.cons_append,
        ih fun l hl => hlines l (List.mem_cons_of_mem line hl)]

/-- Text without a newline lengthens the first line of what follows it. -/
theorem splitOn_append {text : List Char} (h : '\n' ∉ text) (rest : List Char) :
    ∃ line lines, rest.splitOn '\n' = line :: lines ∧
      (text ++ rest).splitOn '\n' = (text ++ line) :: lines := by
  induction text with
  | nil =>
      obtain ⟨line, lines, hrest⟩ := List.exists_cons_of_ne_nil (List.splitOn_ne_nil '\n' rest)
      exact ⟨line, lines, hrest, hrest⟩
  | cons c text ih =>
      obtain ⟨line, lines, hrest, htext⟩ := ih fun hmem => h (List.mem_cons_of_mem c hmem)
      have hc : ¬ (c == '\n') = true := by
        simpa using fun heq : c = '\n' => h (heq ▸ List.mem_cons_self)
      refine ⟨line, lines, hrest, ?_⟩
      rw [List.cons_append, List.splitOn_cons_eq_if_modifyHead, if_neg hc, htext, List.modifyHead_cons,
        List.cons_append]

theorem newline_not_mem_of_mem_splitOn {text line : List Char} (h : line ∈ text.splitOn '\n') :
    '\n' ∉ line := by
  induction text generalizing line with
  | nil =>
      rw [List.mem_singleton.mp h]
      exact List.not_mem_nil
  | cons c text ih =>
      rw [List.splitOn_cons_eq_if_modifyHead] at h
      split at h
      · obtain rfl | h := List.mem_cons.mp h
        · exact List.not_mem_nil
        · exact ih h
      next hc =>
        obtain ⟨first, lines, hsplit⟩ := List.exists_cons_of_ne_nil (List.splitOn_ne_nil '\n' text)
        rw [hsplit, List.modifyHead_cons] at h
        obtain rfl | h := List.mem_cons.mp h
        · have hfirst := ih (hsplit ▸ List.mem_cons_self)
          simp only [List.mem_cons, not_or]
          exact ⟨fun heq => hc (beq_iff_eq.mpr heq.symm), hfirst⟩
        · exact ih (hsplit ▸ List.mem_cons_of_mem first h)

theorem mem_intercalate_newline {lines : List (List Char)} {c : Char}
    (hmem : c ∈ ['\n'].intercalate lines) : c = '\n' ∨ ∃ line ∈ lines, c ∈ line := by
  induction lines with
  | nil => exact absurd hmem List.not_mem_nil
  | cons line lines ih =>
      cases lines with
      | nil =>
          rw [List.intercalate_singleton] at hmem
          exact Or.inr ⟨line, List.mem_cons_self, hmem⟩
      | cons next lines =>
          rw [List.intercalate_cons_cons, List.mem_append, List.mem_append, List.mem_singleton] at hmem
          obtain (hline | hnewline) | hrest := hmem
          · exact Or.inr ⟨line, List.mem_cons_self, hline⟩
          · exact Or.inl hnewline
          · obtain hnewline | ⟨l, hl, hc⟩ := ih hrest
            · exact Or.inl hnewline
            · exact Or.inr ⟨l, List.mem_cons_of_mem line hl, hc⟩

/-- Without the newlines between them, lines are one text. -/
theorem filter_intercalate_newline {lines : List (List Char)} {p : Char → Bool} (hp : p '\n' = false) :
    (['\n'].intercalate lines).filter p = lines.flatten.filter p := by
  induction lines with
  | nil => rfl
  | cons line lines ih =>
      cases lines with
      | nil => rw [List.intercalate_singleton, List.flatten_cons, List.flatten_nil, List.append_nil]
      | cons next lines =>
          rw [List.intercalate_cons_cons, List.filter_append, List.filter_append, ih,
            List.flatten_cons, List.filter_append]
          simp [hp]

/-! ### Pieces -/

/-- The pieces of one width, from offset 0 in steps of the width. -/
def pieces {α : Type*} (width : Nat) (s : List α) : List (List α) :=
  (List.range ((s.length + (width - 1)) / width)).map fun i => (s.drop (width * i)).take width

variable {α : Type*} {width : Nat} {s piece : List α}

theorem mem_pieces (hwidth : 0 < width) :
    piece ∈ pieces width s ↔ ∃ i, width * i < s.length ∧ piece = (s.drop (width * i)).take width := by
  simp only [pieces, List.mem_map, List.mem_range]
  have hcount : ∀ i, i < (s.length + (width - 1)) / width ↔ width * i < s.length := by
    intro i
    rw [Nat.lt_div_iff_mul_lt hwidth, Nat.mul_comm]
    omega
  constructor
  · rintro ⟨i, hi, rfl⟩
    exact ⟨i, (hcount i).mp hi, rfl⟩
  · rintro ⟨i, hi, rfl⟩
    exact ⟨i, (hcount i).mpr hi, rfl⟩

theorem flatten_pieces (hwidth : 0 < width) (s : List α) : (pieces width s).flatten = s := by
  have hbegins : ∀ n, ((List.range n).map fun i => (s.drop (width * i)).take width).flatten =
      s.take (width * n) := by
    intro n
    induction n with
    | zero => simp
    | succ n ih =>
        rw [List.range_succ, List.map_append, List.flatten_append, ih, Nat.mul_succ, List.take_add]
        simp
  rw [pieces, hbegins, List.take_of_length_le]
  have hceil := Nat.lt_mul_div_succ (s.length + (width - 1)) hwidth
  rw [Nat.mul_succ] at hceil
  omega

theorem mem_of_mem_pieces (hwidth : 0 < width) (hpiece : piece ∈ pieces width s) {a : α}
    (ha : a ∈ piece) : a ∈ s := by
  obtain ⟨i, -, rfl⟩ := (mem_pieces hwidth).mp hpiece
  exact List.mem_of_mem_drop (List.mem_of_mem_take ha)

/-- A text that is made of blocks is cut between blocks, if the width is a number of blocks. -/
theorem dvd_length_of_mem_pieces {block : Nat} (hwidth : 0 < width) (hblock : block ∣ width)
    (hs : block ∣ s.length) (hpiece : piece ∈ pieces width s) : block ∣ piece.length := by
  obtain ⟨i, -, rfl⟩ := (mem_pieces hwidth).mp hpiece
  rw [List.length_take, List.length_drop]
  obtain hle | hlt := Nat.le_total width (s.length - width * i)
  · rwa [min_eq_left hle]
  · rw [min_eq_right hlt]
    exact Nat.dvd_sub hs (Dvd.dvd.mul_right hblock i)

/-- A stream that is cut: it ends in a part of one of the lines, or after all of them. -/
theorem splitOn_take_joinLines {lines : List (List Char)} (hlines : ∀ line ∈ lines, '\n' ∉ line)
    (rest : List Char) (k : Nat) :
    (k < (joinLines lines).length ∧ ∃ before part,
        ((joinLines lines ++ rest).take k).splitOn '\n' = before ++ [part] ∧ before <+: lines ∧
          ∃ line ∈ lines, part <+: line) ∨
      (joinLines lines).length ≤ k ∧ ((joinLines lines ++ rest).take k).splitOn '\n' =
        lines ++ (rest.take (k - (joinLines lines).length)).splitOn '\n' := by
  induction lines generalizing k with
  | nil => exact Or.inr ⟨Nat.zero_le k, rfl⟩
  | cons line lines ih =>
      have hline := hlines line List.mem_cons_self
      rw [joinLines_cons, List.append_assoc, List.cons_append]
      by_cases hcut : k ≤ line.length
      · left
        rw [List.length_append, List.length_cons]
        refine ⟨by omega, [], line.take k, ?_, List.nil_prefix, line, List.mem_cons_self,
          List.take_prefix k line⟩
        rw [List.take_append_of_le_length hcut, List.nil_append]
        exact List.splitOn_eq_singleton fun hmem => hline (List.mem_of_mem_take hmem)
      · have htake : (line ++ '\n' :: (joinLines lines ++ rest)).take k =
            line ++ '\n' :: (joinLines lines ++ rest).take (k - line.length - 1) := by
          rw [List.take_append, List.take_of_length_le (by omega),
            show k - line.length = (k - line.length - 1) + 1 by omega, List.take_succ_cons]
          rfl
        rw [htake, List.splitOn_append_cons_self_of_not_mem hline]
        rw [List.length_append, List.length_cons]
        obtain ⟨hlt, before, part, hsplit, hbefore, other, hmem, hpart⟩ | ⟨hle, hsplit⟩ :=
          ih (fun l hl => hlines l (List.mem_cons_of_mem _ hl)) (k - line.length - 1)
        · refine Or.inl ⟨by omega, line :: before, part, ?_, List.cons_prefix_cons.mpr ⟨rfl, hbefore⟩, other,
            List.mem_cons_of_mem _ hmem, hpart⟩
          rw [hsplit]
          rfl
        · refine Or.inr ⟨by omega, ?_⟩
          · rw [hsplit, List.cons_append,
              show k - line.length - 1 - (joinLines lines).length =
                k - (line.length + ((joinLines lines).length + 1)) by omega]

end Lines
