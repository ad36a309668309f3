import Mathlib.Data.List.Infix
import Mathlib.Data.UInt
import Mathlib.Tactic.IntervalCases
import Sysmon.Lib.GoText
import Sysmon.Srvclient.Xml

/-!
# Reading a reply

The daemon answers a query with a document and a status line of numbers, and the server reads it line
by line: each line of the document is taken up, a refusal and a broken connection make the reply fail,
and the status ends it. A connection that breaks inside the status line still ends it, with what is
left of its numbers.
-/

namespace Sysmon.Monitoring

open CText GoText
open Srvclient (wire)

/-! ### The request -/

/-- What stands behind the name of the command. -/
def request (since : UInt64) : List Char := if 0 < since then ' ' :: showNat since.toNat else []

/-- `parse_since`: what cannot be read asks for all. -/
def parseSince (arg : List Char) : UInt64 := strtoul (arg.dropWhile fun c => c = ' ' || c = '\t')

theorem parseSince_request (since : UInt64) : parseSince (request since) = since := by
  rw [request]
  split
  next hpos =>
    obtain ⟨c, s, hcons, hdigit⟩ := showNat_eq_cons since.toNat
    have hblank : (decide (c = ' ') || decide (c = '\t')) = false := by
      rw [Bool.or_eq_false_iff, decide_eq_false_iff_not, decide_eq_false_iff_not]
      refine ⟨?_, ?_⟩ <;> rintro rfl <;> exact absurd hdigit (by decide)
    rw [parseSince, List.dropWhile_cons_of_pos (by decide), hcons,
      List.dropWhile_cons_of_neg (by simp [hblank]), ← hcons, strtoul_showNat_self]
  next hzero =>
    rw [UInt64.lt_iff_toNat_lt] at hzero
    have hnone : since = 0 := UInt64.toNat_inj.mp (Nat.le_zero.mp (Nat.not_lt.mp hzero))
    rw [hnone]
    decide

/-! ### The reply -/

def parseSeqField (line : List Char) (n : Nat) : UInt64 := uintField line n

/-- What a line of the reply is. -/
inductive ReplyLine where
  | refused
  | status (trimmed : List Char)
  | data
  deriving DecidableEq, Repr

def replyLine (line : List Char) : ReplyLine :=
  let trimmed := trimSpace line
  if "444".toList <+: trimmed ∨ "403".toList <+: trimmed then .refused
  else if "333".toList <+: trimmed then .status trimmed
  else .data

section read

variable {ρ : Type} (take : ρ → List Char → ρ)

/-- The loop over what comes between newlines; the last of it has none. What has been taken, and the
status line. -/
def readReply : ρ → List (List Char) → Option (ρ × List Char)
  | _, [] => none
  | r, [tail] =>
      match replyLine tail with
      | .status trimmed => some (r, trimmed)
      | _ => none
  | r, text :: next :: rest =>
      let line := text ++ ['\n']
      match replyLine line with
      | .refused => none
      | .status trimmed => some (r, trimmed)
      | .data => readReply (take r line) (next :: rest)

/-- A line as the loop gets it. -/
def sentLine (text : List Char) : List Char := text ++ ['\r'] ++ ['\n']

/-- All lines of a document are taken. -/
def takeLines (r : ρ) (lines : List (List Char)) : ρ := lines.foldl (fun r text => take r (sentLine text)) r

/-- What the loop ends with at a line that has no line after it. -/
def ReplyLine.ends (r : ρ) : ReplyLine → Option (ρ × List Char)
  | .status trimmed => some (r, trimmed)
  | _ => none

variable {take}

theorem takeLines_append (r : ρ) (left right : List (List Char)) :
    takeLines take r (left ++ right) = takeLines take (takeLines take r left) right := List.foldl_append

@[simp] theorem takeLines_cons (r : ρ) (text : List Char) (lines : List (List Char)) :
    takeLines take r (text :: lines) = takeLines take (take r (sentLine text)) lines := rfl

@[simp] theorem takeLines_nil (r : ρ) : takeLines take r [] = r := rfl

theorem wire_eq (lines : List (List Char)) : wire lines = lines.flatMap sentLine := by
  rw [wire, Lines.joinLines, List.flatMap_map]
  rfl

/-- A pattern without the characters of the end is looked for in the text before them. -/
theorem infix_of_infix_sentLine {p text : List Char} (hne : p ≠ []) (hcr : '\r' ∉ p) (hnewline : '\n' ∉ p)
    (h : p <:+: sentLine text) : p <:+: text := by
  have hconcat : ∀ (s : List Char) (c : Char), c ∉ p → p <:+: s ++ [c] → p <:+: s := by
    intro s c hc hin
    obtain hsuffix | hin := List.infix_concat_iff.mp hin
    · obtain hnil | ⟨front, rfl, -⟩ := List.suffix_concat_iff.mp hsuffix
      · exact absurd hnil hne
      · exact absurd (List.mem_append_right front (List.mem_singleton_self c)) hc
    · exact hin
  exact hconcat _ _ hcr (hconcat _ _ hnewline h)

/-- A line of a document, and any start of one. -/
theorem replyLine_data {line : List Char} (h : line = [] ∨ ∃ rest, line = '<' :: rest) :
    replyLine line = .data := by
  obtain rfl | ⟨rest, rfl⟩ := h
  · decide
  · have hno : ∀ c p, c ≠ '<' → ¬(c :: p) <+: trimSpace ('<' :: rest) := by
      intro c p hc hword
      exact hc (List.cons_prefix_cons.mp (hword.trans (trimSpace_isPrefix (by decide) rest))).1
    have hrefused := not_or.mpr ⟨hno '4' "44".toList (by decide), hno '4' "03".toList (by decide)⟩
    have hstatus := hno '3' "33".toList (by decide)
    exact (if_neg hrefused).trans (if_neg hstatus)

/-- The lines of the document are read one after the other. -/
theorem readReply_append {lines : List (List Char)} (h : ∀ text ∈ lines, ∃ rest, text = '<' :: rest)
    {rest : List (List Char)} (hrest : rest ≠ []) (r : ρ) :
    readReply take r (lines.map (· ++ ['\r']) ++ rest) = readReply take (takeLines take r lines) rest := by
  induction lines generalizing r with
  | nil => rfl
  | cons text lines ih =>
      obtain ⟨next, more, hmore⟩ := List.exists_cons_of_ne_nil
        (List.append_ne_nil_of_right_ne_nil (lines.map (· ++ ['\r'])) hrest)
      obtain ⟨tail, rfl⟩ := h text List.mem_cons_self
      rw [takeLines_cons, ← ih fun t ht => h t (List.mem_cons_of_mem _ ht), List.map_cons, List.cons_append,
        hmore, readReply]
      have hdata : replyLine ('<' :: tail ++ ['\r'] ++ ['\n']) = .data := replyLine_data (Or.inr ⟨_, rfl⟩)
      rw [hdata]
      rfl

/-- The status may break. -/
theorem readReply_status {text : List Char} (h : '\n' ∉ text) (r : ρ) (k : Nat) :
    readReply take r (((sentLine text).take k).splitOn '\n') = (replyLine ((sentLine text).take k)).ends r := by
  have hnewline : '\n' ∉ text ++ ['\r'] := by simp [h]
  by_cases hwhole : (text ++ ['\r']).length < k
  · have htake : (sentLine text).take k = sentLine text :=
      List.take_of_length_le (by rw [sentLine, List.length_append]; exact hwhole)
    have hpieces : (sentLine text).splitOn '\n' = [text ++ ['\r'], []] :=
      List.splitOn_append_cons_self_of_not_mem hnewline _
    have hempty : replyLine [] = .data := by decide
    have hline : text ++ ['\r'] ++ ['\n'] = sentLine text := rfl
    rw [htake, hpieces, readReply, hline]
    cases replyLine (sentLine text) with
    | refused => rfl
    | status trimmed => rfl
    | data =>
        dsimp only
        rw [readReply, hempty]
        rfl
  · have hpiece : (sentLine text).take k = (text ++ ['\r']).take k :=
      List.take_append_of_le_length (Nat.not_lt.mp hwhole)
    rw [hpiece, List.splitOn_eq_singleton fun hmem => hnewline (List.mem_of_mem_take hmem), readReply]
    cases replyLine ((text ++ ['\r']).take k) with
    | refused => rfl
    | status trimmed => rfl
    | data => rfl

/-- What is read of a reply that may break: the document, when it gets as far as the status. -/
theorem readReply_take {body : List (List Char)} {status : List Char}
    (hbody : ∀ text ∈ body, Srvclient.IsLine text) (hstatus : '\n' ∉ status) (r : ρ) (k : Nat) :
    readReply take r (((wire (body ++ [status])).take k).splitOn '\n') =
      if k < (wire body).length then none
      else (replyLine ((sentLine status).take (k - (wire body).length))).ends (takeLines take r body) := by
  have hlines : ∀ line ∈ body.map (· ++ ['\r']), '\n' ∉ line := by
    intro line hline
    obtain ⟨text, htext, rfl⟩ := List.mem_map.mp hline
    simp [(hbody text htext).newline]
  have hwire : wire (body ++ [status]) = Lines.joinLines (body.map (· ++ ['\r'])) ++ sentLine status := by
    rw [wire, List.map_append, Lines.joinLines_append]
    simp [sentLine]
  have hlength : wire body = Lines.joinLines (body.map (· ++ ['\r'])) := rfl
  rw [hwire, hlength]
  obtain ⟨hlt, before, part, hsplit, hbefore, line, hline, hpart⟩ | ⟨hle, hsplit⟩ :=
    Lines.splitOn_take_joinLines hlines (sentLine status) k
  · obtain ⟨lines, hwhole, rfl⟩ : ∃ lines, lines <+: body ∧ lines.map (· ++ ['\r']) = before := by
      refine ⟨body.take before.length, List.take_prefix _ _, ?_⟩
      rw [List.map_take]
      exact (List.prefix_iff_eq_take.mp hbefore).symm
    obtain ⟨text, htext, rfl⟩ := List.mem_map.mp hline
    obtain ⟨rest, rfl⟩ := (hbody text htext).starts
    have hdata : replyLine part = .data := by
      refine replyLine_data ?_
      cases part with
      | nil => exact Or.inl rfl
      | cons c part =>
          obtain rfl := (List.cons_prefix_cons.mp hpart).1
          exact Or.inr ⟨part, rfl⟩
    rw [if_pos hlt, hsplit, readReply_append (fun t ht => (hbody t (hwhole.subset ht)).starts)
      (List.cons_ne_nil _ _), readReply, hdata]
  · rw [hsplit, if_neg (Nat.not_lt.mpr hle),
      readReply_append (fun t ht => (hbody t ht).starts) (List.splitOn_ne_nil _ _), readReply_status hstatus]

end read

/-! ### The status -/

/-- A status line of two numbers and what follows them. -/
def statusText (first second : UInt64) (third : List Char) : List Char :=
  "333".toList ++ ' ' :: (showNat first.toNat ++ ' ' :: (showNat second.toNat ++ ' ' :: third))

/-- The line as `snprintf` puts it together. -/
theorem statusText_of_word {word : List Char} (h : word = "333".toList ++ [' ']) (first second : UInt64)
    (third : List Char) : word ++ showNat first.toNat ++ ' ' :: showNat second.toNat ++ ' ' :: third =
      statusText first second third := by
  subst h
  rw [statusText]
  simp only [List.append_assoc, List.cons_append, List.nil_append]

theorem isspace_showNat {n : Nat} : ∀ c ∈ showNat n, isspace c = false :=
  fun _ hc => isspace_eq_false_of_isDigit (isDigit_of_mem_showNat hc)

theorem newline_not_mem_statusText (first second : UInt64) {third : List Char} (h : '\n' ∉ third) :
    '\n' ∉ statusText first second third := by
  have hno := fun n => not_mem_showNat (show ('\n' : Char).isDigit = false by decide) n
  simp [statusText, hno, h]

section status

variable (first second : UInt64) (third : List Char) {k : Nat}

theorem replyLine_short (hk : k < 3) : replyLine ((sentLine (statusText first second third)).take k) = .data := by
  have htake : (sentLine (statusText first second third)).take k = "333".toList.take k := by
    rw [sentLine, statusText, List.append_assoc, List.append_assoc]
    exact List.take_append_of_le_length (Nat.le_of_lt hk)
  rw [htake]
  interval_cases k <;> decide

theorem sentLine_statusText (hk : 3 ≤ k) : (sentLine (statusText first second third)).take k = "333".toList ++
    (' ' :: (showNat first.toNat ++ ' ' :: (showNat second.toNat ++ ' ' ::
      (third ++ ['\r', '\n'])))).take (k - 3) := by
  obtain ⟨k, rfl⟩ := Nat.exists_eq_add_of_le hk
  have hline : sentLine (statusText first second third) = "333".toList ++
      (' ' :: (showNat first.toNat ++ ' ' :: (showNat second.toNat ++ ' ' :: (third ++ ['\r', '\n'])))) := by
    simp [sentLine, statusText]
  rw [hline, Nat.add_sub_cancel_left]
  change List.take ("333".toList.length + k) _ = _
  exact List.take_length_add_append k

/-- The beginning of the status that is long enough is taken for one. -/
theorem replyLine_status (hk : 3 ≤ k) : replyLine ((sentLine (statusText first second third)).take k) =
    .status (trimSpace ((sentLine (statusText first second third)).take k)) := by
  rw [sentLine_statusText first second third hk]
  generalize (' ' :: (showNat first.toNat ++ ' ' :: (showNat second.toNat ++ ' ' ::
    (third ++ ['\r', '\n'])))).take (k - 3) = more
  have hstatus : "333".toList <+: trimSpace ("333".toList ++ more) := prefix_trimSpace (by decide) (by decide) more
  have hother : ∀ p : List Char, p.length = 3 → p ≠ "333".toList → ¬p <+: trimSpace ("333".toList ++ more) := by
    intro p hlength hne hword
    exact hne ((List.prefix_of_prefix_length_le hword hstatus (by rw [hlength]; decide)).eq_of_length hlength)
  have hrefused := not_or.mpr ⟨hother "444".toList rfl (by decide), hother "403".toList rfl (by decide)⟩
  exact (if_neg hrefused).trans (if_pos hstatus)

theorem parseSeqField_trimSpace (line : List Char) (n : Nat) : parseSeqField (trimSpace line) n = uintField line n := by
  rw [parseSeqField, uintField, uintField, fields_trimSpace]

theorem fields_status (hk : 3 ≤ k) : fields ((sentLine (statusText first second third)).take k) = "333".toList ::
    fields ((showNat first.toNat ++ ' ' :: (showNat second.toNat ++ ' ' ::
      (third ++ ['\r', '\n']))).take (k - 4)) := by
  have hword : ∀ c ∈ "333".toList, isspace c = false := by decide
  obtain ⟨k, rfl⟩ := Nat.exists_eq_add_of_le hk
  have hline : sentLine (statusText first second third) = "333".toList ++
      (' ' :: (showNat first.toNat ++ ' ' :: (showNat second.toNat ++ ' ' :: (third ++ ['\r', '\n'])))) := by
    simp [sentLine, statusText]
  rw [hline, show 3 + k - 4 = k - 1 by omega]
  exact fields_take (by decide) hword _ k

/-- The first number of a status that is cut anywhere. -/
theorem status_first_le (hk : 3 ≤ k) :
    (uintField ((sentLine (statusText first second third)).take k) 1).toNat ≤ first.toNat := by
  refine uintField_le fun field hfield => ?_
  rw [fields_status first second third hk, List.getElem?_cons_succ] at hfield
  exact first_field_take (showNat_ne_nil _) isspace_showNat _ _ hfield

/-- A status that is cut behind its first number. -/
theorem status_first (hk : 4 + (showNat first.toNat).length ≤ k) :
    uintField ((sentLine (statusText first second third)).take k) 1 = first ∧
      (uintField ((sentLine (statusText first second third)).take k) 2).toNat ≤ second.toNat ∧
      (4 + (showNat first.toNat).length + 1 + (showNat second.toNat).length ≤ k →
        uintField ((sentLine (statusText first second third)).take k) 2 = second) := by
  have hfields := fields_status first second third (show 3 ≤ k by omega)
  obtain ⟨j, rfl⟩ := Nat.exists_eq_add_of_le hk
  rw [show 4 + (showNat first.toNat).length + j - 4 = (showNat first.toNat).length + j by omega,
    fields_take (showNat_ne_nil _) isspace_showNat] at hfields
  refine ⟨uintField_showNat (by rw [hfields]; rfl), uintField_le fun field hfield => ?_, fun hwhole => ?_⟩
  · rw [hfields, List.getElem?_cons_succ, List.getElem?_cons_succ] at hfield
    exact first_field_take (showNat_ne_nil _) isspace_showNat _ _ hfield
  · obtain ⟨i, hi⟩ := Nat.exists_eq_add_of_le (show (showNat second.toNat).length ≤ j - 1 by omega)
    rw [hi, fields_take (showNat_ne_nil _) isspace_showNat] at hfields
    exact uintField_showNat (by rw [hfields]; rfl)

/-- A status that is whole, but perhaps for the end of the line. -/
theorem status_third (third : UInt64) (hk : (statusText first second (showNat third.toNat)).length ≤ k) :
    uintField ((sentLine (statusText first second (showNat third.toNat))).take k) 1 = first ∧
      uintField ((sentLine (statusText first second (showNat third.toNat))).take k) 3 = third := by
  have hlength : (statusText first second (showNat third.toNat)).length = 4 + (showNat first.toNat).length + 1 +
      (showNat second.toNat).length + 1 + (showNat third.toNat).length := by
    simp only [statusText, List.length_append, List.length_cons]
    change 3 + _ = _
    omega
  refine ⟨(status_first first second (showNat third.toNat) (by omega)).1, ?_⟩
  have hfields := fields_status first second (showNat third.toNat) (show 3 ≤ k by omega)
  obtain ⟨j, rfl⟩ := Nat.exists_eq_add_of_le hk
  rw [show (statusText first second (showNat third.toNat)).length + j - 4 = (showNat first.toNat).length +
      (1 + (showNat second.toNat).length + 1 + (showNat third.toNat).length + j) by omega,
    fields_take (showNat_ne_nil _) isspace_showNat,
    show 1 + (showNat second.toNat).length + 1 + (showNat third.toNat).length + j - 1 =
      (showNat second.toNat).length + (1 + (showNat third.toNat).length + j) by omega,
    fields_take (showNat_ne_nil _) isspace_showNat,
    show 1 + (showNat third.toNat).length + j - 1 = (showNat third.toNat).length + j by omega] at hfields
  have hend : fields ((showNat third.toNat ++ ['\r', '\n']).take ((showNat third.toNat).length + j)) =
      [showNat third.toNat] := by
    rw [List.take_length_add_append]
    have hword := fields_word (showNat_ne_nil third.toNat) isspace_showNat
    match j with
    | 0 => rw [List.take_zero, List.append_nil, hword]
    | 1 =>
        rw [show (['\r', '\n'] : List Char).take 1 = ['\r'] by rfl, fields_concat_space (by decide), hword]
    | j + 2 =>
        rw [List.take_of_length_le (by simp), show (['\r', '\n'] : List Char) = ['\r'] ++ ['\n'] by rfl,
          ← List.append_assoc, fields_concat_space (by decide), fields_concat_space (by decide), hword]
  rw [hend] at hfields
  exact uintField_showNat (by rw [hfields]; rfl)

/-- The numbers of a daemon that counts from nothing cannot be cut short. -/
theorem status_zero (hfirst : first = 0) (hsecond : second = 0) (hk : 3 ≤ k) :
    uintField ((sentLine (statusText first second third)).take k) 1 = 0 ∧
      uintField ((sentLine (statusText first second third)).take k) 2 = 0 := by
  by_cases hcut : k ≤ 4
  · have hfields := fields_status first second third hk
    rw [show k - 4 = 0 by omega, List.take_zero] at hfields
    rw [uintField, uintField, hfields]
    exact ⟨rfl, rfl⟩
  · obtain ⟨hone, htwo, -⟩ := status_first first second third (k := k) (by rw [hfirst]; exact Nat.not_le.mp hcut)
    have hzero : second.toNat = 0 := by rw [hsecond]; rfl
    rw [hzero] at htwo
    exact ⟨hone.trans hfirst, UInt64.toNat_inj.mp (Nat.le_zero.mp htwo)⟩

end status

end Sysmon.Monitoring
