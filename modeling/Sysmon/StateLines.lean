import Sysmon.SaveState

/-!
# Damaged lines of a checkpoint

The loop of `read_state` over a line has `next_pair` set `key` and `val` and looks at both after every
call. A call that finds no `=` sets neither. What the loop then looks at is the last pair of the line
once more, or, before the first pair, what the two variables held when the line was begun, which is
nothing that C defines.

A line on which every call sets both is a row of words that ends in a value or in the name. The two
readings of a word, what `next_pair` makes of it and what it looks like, are matched by
`nextPair_eq_some_iff`.
-/

namespace Sysmon

open CText

/-- The text of a line from some point on: blanks, a pair, and what the next call starts from. The
name takes everything; any other value goes as far as the next space. -/
inductive StateWord : CStr → CStr × CStr → Option CStr → Prop
  | name {blanks val : CStr} (hblanks : ∀ c ∈ blanks, c = ' ' ∨ c = '\t') :
      StateWord (blanks ++ (nameKey ++ '=' :: val)) (nameKey, val) none
  | last {blanks key val : CStr} (hblanks : ∀ c ∈ blanks, c = ' ' ∨ c = '\t')
      (hgood : GoodPair (key, val)) : StateWord (blanks ++ (key ++ '=' :: val)) (key, val) none
  | more {blanks key val rest : CStr} (hblanks : ∀ c ∈ blanks, c = ' ' ∨ c = '\t')
      (hgood : GoodPair (key, val)) :
      StateWord (blanks ++ (key ++ '=' :: (val ++ ' ' :: rest))) (key, val) (some rest)

/-- A row of words, and nothing after the last. -/
inductive StateWords : CStr → Prop
  | last {p : CStr} {pair : CStr × CStr} (hword : StateWord p pair none) : StateWords p
  | more {p rest : CStr} {pair : CStr × CStr} (hword : StateWord p pair (some rest))
      (hrest : StateWords rest) : StateWords p

/-! ### One call -/

theorem nextPair_eq_none_iff (p : CStr) : nextPair p = none ↔ '=' ∉ p := by
  have hmem : '=' ∈ p ↔ '=' ∈ p.dropWhile fun c => c = ' ' || c = '\t' := by
    constructor
    · intro h
      rw [← List.takeWhile_append_dropWhile (p := fun c => c = ' ' || c = '\t') (l := p),
        List.mem_append] at h
      refine h.resolve_left fun hblank => ?_
      exact absurd (List.mem_takeWhile_imp hblank) (by decide)
    · exact fun h => (List.dropWhile_sublist _).subset h
  rw [hmem, nextPair]
  generalize p.dropWhile (fun c => c = ' ' || c = '\t') = text
  by_cases hequals : '=' ∈ text
  · obtain ⟨key, rest, rfl, hkey⟩ := List.eq_append_cons_of_mem hequals
    simp only [upTo_append hkey, after_append hkey, hequals, not_true, iff_false]
    split <;> simp
  · simp [upTo, hequals]

theorem dropBlanks {blanks key rest : CStr} (hblanks : ∀ c ∈ blanks, c = ' ' ∨ c = '\t')
    (hstart : ∀ c ∈ key.head?, c ≠ ' ' ∧ c ≠ '\t') :
    (blanks ++ (key ++ '=' :: rest)).dropWhile (fun c => c = ' ' || c = '\t') = key ++ '=' :: rest := by
  rw [List.dropWhile_append_of_pos fun c hc => by simpa using hblanks c hc]
  exact dropBlanks_key hstart

theorem nextPair_of_word {p : CStr} {pair : CStr × CStr} {rest : Option CStr}
    (h : StateWord p pair rest) : nextPair p = some (pair, rest) := by
  cases h with
  | name hblanks =>
      have hkey : '=' ∉ nameKey := by decide
      have hstart : ∀ c ∈ nameKey.head?, c ≠ ' ' ∧ c ≠ '\t' := fun c hc => by
        obtain rfl : 'n' = c := Option.some.inj hc
        exact ⟨by decide, by decide⟩
      simp only [nextPair, dropBlanks hblanks hstart, upTo_append hkey, after_append hkey, if_true]
  | @last blanks key val hblanks hgood =>
      have hspace : ' ' ∉ val := hgood.value
      have hafter : after ' ' val = none := by
        have hall : ∀ c ∈ val, decide (c ≠ ' ') = true := by
          intro c hc
          exact decide_eq_true fun heq => hspace (heq ▸ hc)
        rw [after, List.dropWhile_eq_nil_iff.mpr hall]
      have hup : upTo ' ' val = none := if_neg hspace
      simp only [nextPair, dropBlanks hblanks hgood.start, upTo_append hgood.key,
        after_append hgood.key, if_neg hgood.notName, hafter, hup, Option.getD_none]
  | more hblanks hgood =>
      simp only [nextPair, dropBlanks hblanks hgood.start, upTo_append hgood.key,
        after_append hgood.key, if_neg hgood.notName, upTo_append hgood.value,
        after_append hgood.value, Option.getD_some]

theorem word_of_mem {p : CStr} (h : '=' ∈ p) : ∃ pair rest, StateWord p pair rest := by
  have hsplit := List.takeWhile_append_dropWhile (p := fun c => c = ' ' || c = '\t') (l := p)
  have hblanks : ∀ c ∈ p.takeWhile (fun c => c = ' ' || c = '\t'), c = ' ' ∨ c = '\t' := by
    intro c hc
    simpa using List.mem_takeWhile_imp hc
  have hhead : ∀ c ∈ (p.dropWhile fun c => c = ' ' || c = '\t').head?, c ≠ ' ' ∧ c ≠ '\t' := by
    intro c hc
    have hnot := List.head?_dropWhile_not (fun c => c = ' ' || c = '\t') p
    rw [Option.mem_def] at hc
    rw [hc] at hnot
    simpa using hnot
  revert hsplit hblanks hhead
  generalize p.takeWhile (fun c => c = ' ' || c = '\t') = blanks
  generalize p.dropWhile (fun c => c = ' ' || c = '\t') = text
  rintro rfl hblanks hhead
  have htext : '=' ∈ text := by
    refine (List.mem_append.mp h).resolve_left fun hmem => ?_
    exact absurd (hblanks _ hmem) (by decide)
  obtain ⟨key, val, rfl, hkey⟩ := List.eq_append_cons_of_mem htext
  by_cases hname : key = nameKey
  · subst hname
    exact ⟨_, _, .name hblanks⟩
  · have hstart : ∀ c ∈ key.head?, c ≠ ' ' ∧ c ≠ '\t' := by
      intro c hc
      apply hhead
      rw [Option.mem_def] at hc ⊢
      rw [List.head?_append, hc]
      rfl
    by_cases hspace : ' ' ∈ val
    · obtain ⟨val, rest, rfl, hval⟩ := List.eq_append_cons_of_mem hspace
      exact ⟨(key, val), some rest, .more hblanks ⟨hstart, hkey, hname, hval⟩⟩
    · exact ⟨(key, val), none, .last hblanks ⟨hstart, hkey, hname, hspace⟩⟩

theorem nextPair_eq_some_iff {p : CStr} {pair : CStr × CStr} {rest : Option CStr} :
    nextPair p = some (pair, rest) ↔ StateWord p pair rest := by
  refine ⟨fun h => ?_, nextPair_of_word⟩
  have hmem : '=' ∈ p := by
    by_contra hnone
    rw [(nextPair_eq_none_iff p).mpr hnone] at h
    exact absurd h (by simp)
  obtain ⟨pair', rest', hword⟩ := word_of_mem hmem
  rw [nextPair_of_word hword] at h
  obtain ⟨rfl, rfl⟩ := Prod.mk.inj (Option.some.inj h)
  exact hword

theorem length_nextPair {p rest : CStr} {pair : CStr × CStr} (h : nextPair p = some (pair, some rest)) :
    rest.length < p.length := by
  cases nextPair_eq_some_iff.mp h with
  | more hblanks hgood =>
      simp only [List.length_append, List.length_cons]
      omega

/-! ### The calls on a line -/

/-- What one call after the other sets: a pair, or nothing. -/
def pairCalls (p : CStr) : List (Option (CStr × CStr)) :=
  match _h : nextPair p with
  | none => [none]
  | some (pair, none) => [some pair]
  | some (pair, some rest) => some pair :: pairCalls rest
termination_by p.length
decreasing_by exact length_nextPair _h

theorem pairCalls_none {p : CStr} (h : nextPair p = none) : pairCalls p = [none] := by
  rw [pairCalls]
  split <;> simp_all

theorem pairCalls_last {p : CStr} {pair : CStr × CStr} (h : nextPair p = some (pair, none)) :
    pairCalls p = [some pair] := by
  rw [pairCalls]
  split <;> simp_all

theorem pairCalls_more {p rest : CStr} {pair : CStr × CStr}
    (h : nextPair p = some (pair, some rest)) : pairCalls p = some pair :: pairCalls rest := by
  rw [pairCalls]
  split <;> simp_all

/-- The pair is written on the line. -/
def OnLine (pair : CStr × CStr) (line : CStr) : Prop :=
  ∃ left right, line = left ++ (pair.1 ++ '=' :: (pair.2 ++ right))

theorem StateWord.onLine {p : CStr} {pair : CStr × CStr} {rest : Option CStr}
    (h : StateWord p pair rest) : OnLine pair p := by
  cases h with
  | name hblanks => exact ⟨_, [], by rw [List.append_nil]⟩
  | last hblanks hgood => exact ⟨_, [], by rw [List.append_nil]⟩
  | more hblanks hgood => exact ⟨_, _, rfl⟩

theorem OnLine.of_rest {p rest : CStr} {pair other : CStr × CStr} (hword : StateWord p pair (some rest))
    (h : OnLine other rest) : OnLine other p := by
  obtain ⟨left, right, rfl⟩ := h
  cases hword with
  | @more blanks key val rest hblanks hgood =>
      exact ⟨blanks ++ (key ++ '=' :: (val ++ ' ' :: left)), right, by
        simp only [List.append_assoc, List.cons_append]⟩

/-- The pairs that are set are those of the line. -/
theorem onLine_of_mem_pairCalls (p : CStr) : ∀ pair, some pair ∈ pairCalls p → OnLine pair p := by
  induction p using pairCalls.induct with
  | case1 p hnone => simp [pairCalls_none hnone]
  | case2 p pair hlast =>
      intro other hmem
      rw [pairCalls_last hlast, List.mem_singleton] at hmem
      obtain rfl := Option.some.inj hmem
      exact (nextPair_eq_some_iff.mp hlast).onLine
  | case3 p pair rest hmore ih =>
      intro other hmem
      have hword := nextPair_eq_some_iff.mp hmore
      rw [pairCalls_more hmore, List.mem_cons] at hmem
      obtain hfirst | hmem := hmem
      · obtain rfl := Option.some.inj hfirst
        exact hword.onLine
      · exact (ih other hmem).of_rest hword

theorem none_mem_pairCalls_iff (p : CStr) : none ∉ pairCalls p ↔ StateWords p := by
  constructor
  · induction p using pairCalls.induct with
    | case1 p hnone => simp [pairCalls_none hnone]
    | case2 p pair hlast => exact fun _ => .last (nextPair_eq_some_iff.mp hlast)
    | case3 p pair rest hmore ih =>
        intro h
        rw [pairCalls_more hmore, List.mem_cons, not_or] at h
        exact .more (nextPair_eq_some_iff.mp hmore) (ih h.2)
  · intro h
    induction h with
    | last hword => simp [pairCalls_last (nextPair_of_word hword)]
    | more hword hrest ih => simp [pairCalls_more (nextPair_of_word hword), ih]

/-! ### The loop over a line -/

/-- What the loop does after a call: `held` is what `key` and `val` were left with. -/
def look (held : Option (CStr × CStr) × SavedState) :
    Option (CStr × CStr) → Option (CStr × CStr) × SavedState
  | some pair => (some pair, assign held.2 pair)
  | none => (held.1, (held.1.map (assign held.2)).getD held.2)

/-- The loop makes the calls and ends. -/
theorem readPairs_eq (p : CStr) : ∀ {fuel : Nat}, p.length < fuel →
    ∀ (stale : Option (CStr × CStr)) (s : SavedState),
      readPairs fuel stale (some p) s = ((pairCalls p).foldl look (stale, s)).2 := by
  induction p using pairCalls.induct with
  | case1 p hnone =>
      intro fuel hfuel stale s
      obtain ⟨fuel, rfl⟩ := Nat.exists_eq_add_of_lt hfuel
      rw [readPairs, hnone, pairCalls_none hnone]
      rfl
  | case2 p pair hlast =>
      intro fuel hfuel stale s
      obtain ⟨fuel, rfl⟩ := Nat.exists_eq_add_of_lt hfuel
      rw [readPairs, hlast, pairCalls_last hlast]
      cases p.length + fuel <;> rfl
  | case3 p pair rest hmore ih =>
      intro fuel hfuel stale s
      have hlength := length_nextPair hmore
      obtain ⟨fuel, rfl⟩ := Nat.exists_eq_add_of_lt hfuel
      rw [readPairs, hmore, pairCalls_more hmore]
      exact ih (by omega) (some pair) (assign s pair)

/-- What is in the fields stands on the line. -/
structure FromLine (line : CStr) (s : SavedState) : Prop where
  values : ∀ key v, s.values key = some v → ∃ val, OnLine (key.text, val) line ∧ v = key.convert val
  name : ∀ name, s.name = some name → OnLine (nameKey, name) line

theorem FromLine.assign {line : CStr} {s : SavedState} {pair : CStr × CStr} (h : FromLine line s)
    (hpair : OnLine pair line) : FromLine line (assign s pair) := by
  obtain ⟨word, val⟩ := pair
  unfold Sysmon.assign
  by_cases hname : word = nameKey
  · rw [if_pos hname]
    refine ⟨h.values, fun name heq => ?_⟩
    obtain rfl := Option.some.inj heq
    rw [← hname]
    exact hpair
  · rw [if_neg hname]
    cases hkey : SavedKey.ofText word with
    | none => exact h
    | some key =>
        obtain rfl := SavedKey.ofText_eq_some_iff.mp hkey
        refine ⟨fun other v heq => ?_, h.name⟩
        change Function.update s.values key (some (key.convert val)) other = some v at heq
        by_cases hother : other = key
        · subst hother
          rw [Function.update_self] at heq
          exact ⟨val, hpair, (Option.some.inj heq).symm⟩
        · rw [Function.update_of_ne hother] at heq
          exact h.values other v heq

theorem fromLine_looks {line : CStr} {calls : List (Option (CStr × CStr))}
    (hcalls : ∀ pair, some pair ∈ calls → OnLine pair line) {stale : Option (CStr × CStr)}
    (hstale : ∀ pair, stale = some pair → OnLine pair line) {s : SavedState} (h : FromLine line s) :
    FromLine line (calls.foldl look (stale, s)).2 := by
  induction calls generalizing stale s with
  | nil => exact h
  | cons call calls ih =>
      have hrest : ∀ pair, some pair ∈ calls → OnLine pair line :=
        fun pair hmem => hcalls pair (List.mem_cons_of_mem call hmem)
      cases call with
      | some pair =>
          have hpair := hcalls pair List.mem_cons_self
          refine ih hrest (fun other heq => ?_) (h.assign hpair)
          obtain rfl := Option.some.inj heq
          exact hpair
      | none =>
          refine ih hrest hstale ?_
          cases hheld : stale with
          | none => exact h
          | some pair => exact h.assign (hstale pair hheld)

theorem FromLine.append {line : CStr} {s : SavedState} (h : FromLine line s) (more : CStr) :
    FromLine (line ++ more) s := by
  have honLine : ∀ {pair}, OnLine pair line → OnLine pair (line ++ more) := by
    rintro pair ⟨left, right, rfl⟩
    exact ⟨left, right ++ more, by simp⟩
  refine ⟨fun key v heq => ?_, fun name heq => honLine (h.name name heq)⟩
  obtain ⟨val, hpair, hv⟩ := h.values key v heq
  exact ⟨val, honLine hpair, hv⟩

theorem fromLine_readEntry {line : CStr} {s : SavedState} (h : readEntry line = some s) :
    FromLine line s := by
  unfold readEntry at h
  have hsplit := List.takeWhile_append_dropWhile (p := fun c => decide (c ≠ '\n')) (l := line)
  rw [← hsplit]
  refine FromLine.append ?_ _
  generalize line.takeWhile (fun c => decide (c ≠ '\n')) = text at h
  simp only at h
  split at h
  · exact absurd h (by simp)
  · split at h
    · obtain rfl := Option.some.inj h
      rw [readPairs_eq text (Nat.lt_succ_self _)]
      refine fromLine_looks (onLine_of_mem_pairCalls text) (by simp) ⟨fun key v heq => ?_, fun name heq => ?_⟩
      · exact absurd heq (Option.some_ne_none v).symm
      · exact absurd heq (Option.some_ne_none name).symm
    · exact absurd h (by simp)

/-! ### The lines of a file -/

theorem mem_of_mem_fgets {room : Nat} {text : CStr} {c : Char}
    (h : c ∈ (fgets room text).1 ∨ c ∈ (fgets room text).2) : c ∈ text := by
  induction text generalizing room with
  | nil => cases room <;> exact absurd h (by simp [fgets])
  | cons d text ih =>
      cases room with
      | zero => simpa [fgets] using h
      | succ room =>
          rw [fgets] at h
          split at h
          · simpa using h
          · rw [List.mem_cons] at h ⊢
            exact or_assoc.mp h |>.imp_right ih

theorem mem_of_mem_fgetsAll {room fuel : Nat} {text line : CStr} {c : Char}
    (hline : line ∈ fgetsAll room fuel text) (hc : c ∈ line) : c ∈ text := by
  induction fuel generalizing text with
  | zero => exact absurd hline List.not_mem_nil
  | succ fuel ih =>
      cases text with
      | nil => exact absurd hline List.not_mem_nil
      | cons d text =>
          rw [fgetsAll, List.mem_cons] at hline
          · obtain rfl | hline := hline
            · exact mem_of_mem_fgets (Or.inl hc)
            · exact mem_of_mem_fgets (Or.inr (ih hline))
          · simp

/-- A C string, and of that what stands before the newline. -/
def cLine (line : CStr) : CStr := (line.takeWhile (· ≠ '\x00')).takeWhile (· ≠ '\n')

/-- The lines the loop of `read_state` goes over. -/
def entryLines (text : CStr) (now : Time) : List CStr :=
  match fgetsAll (largeTempbufSize - 1) text.length text with
  | [] => []
  | header :: lines =>
      match scanHeader (header.takeWhile (· ≠ '\x00')) with
      | none => []
      | some (version, written, _) =>
          if version ≠ 1 then []
          else if stateMaxAge < now - written then []
          else lines.map cLine

/-- The loop over the line comes to its end, every pair it looks at was set by the call before and
stands on the line, and so does what is in the fields afterwards. -/
structure Inert (line : CStr) : Prop where
  settles : ∀ fuel, line.length < fuel → ∀ s,
    readPairs fuel none (some line) s = readPairs (line.length + 1) none (some line) s
  own : ∀ call ∈ pairCalls line, ∃ pair, call = some pair ∧ OnLine pair line
  fields : ∀ s, readEntry line = some s → FromLine line s

/-- In a file without a NUL these are the lines that `readState` makes entries of. -/
theorem readState_eq_entryLines {text : CStr} (hnul : '\x00' ∉ text) (now : Time) :
    readState (some text) now = ((entryLines text now).filterMap readEntry).reverse := by
  have hclean : ∀ line ∈ fgetsAll (largeTempbufSize - 1) text.length text, '\x00' ∉ line :=
    fun line hline hmem => hnul (mem_of_mem_fgetsAll hline hmem)
  have hwhole : ∀ line : CStr, '\x00' ∉ line → line.takeWhile (fun c => decide (c ≠ '\x00')) = line := by
    intro line hline
    rw [List.takeWhile_eq_self_iff]
    exact fun c hc => decide_eq_true fun heq => hline (heq ▸ hc)
  unfold readState entryLines
  simp only
  cases hlines : fgetsAll (largeTempbufSize - 1) text.length text with
  | nil => rfl
  | cons header lines =>
      rw [hlines] at hclean
      simp only [hwhole header (hclean header List.mem_cons_self)]
      cases scanHeader header with
      | none => rfl
      | some fields =>
          obtain ⟨version, written, claimed⟩ := fields
          have hread : (lines.map cLine).filterMap readEntry = lines.filterMap readEntry := by
            rw [List.filterMap_map]
            refine List.filterMap_congr fun line hline => ?_
            have hplain := hwhole line (hclean line (List.mem_cons_of_mem header hline))
            have htwice : ∀ s : CStr, (s.takeWhile (· ≠ '\n')).takeWhile (· ≠ '\n') = s.takeWhile (· ≠ '\n') := by
              simp [List.takeWhile_takeWhile]
            rw [Function.comp_apply, cLine, hplain, readEntry, readEntry, htwice]
          simp only
          split
          · rfl
          · split
            · rfl
            · rw [hread]

theorem inert_iff (line : CStr) : Inert line ↔ StateWords line := by
  rw [← none_mem_pairCalls_iff]
  constructor
  · intro h hnone
    obtain ⟨pair, heq, -⟩ := h.own none hnone
    exact absurd heq (by simp)
  · intro hset
    refine ⟨fun fuel hfuel s => ?_, fun call hcall => ?_, fun s hs => ?_⟩
    · rw [readPairs_eq line hfuel, readPairs_eq line (Nat.lt_succ_self _)]
    · cases call with
      | none => exact absurd hcall hset
      | some pair => exact ⟨pair, rfl, onLine_of_mem_pairCalls line pair hcall⟩
    · exact fromLine_readEntry hs

/-- What is read from a checkpoint comes from the lines it is on, and no line is gone over with what
an earlier word or line has left, exactly when every line that is not empty is a row of words. -/
theorem entryLines_inert_iff (text : CStr) (now : Time) :
    (∀ line ∈ entryLines text now, line = [] ∨ Inert line) ↔
      ∀ line ∈ entryLines text now, line = [] ∨ StateWords line := by
  simp only [inert_iff]

/-- A checkpoint of one host, with a line after it that holds no pair. -/
def damagedState : CStr := "sysmon-state 1 0 1\nlastcheck=0 name=gw\ngarbage\n".toList

theorem damaged_line_read :
    ¬ ∀ line ∈ entryLines damagedState 0, line = [] ∨ Inert line := by
  intro h
  have hmem : "garbage".toList ∈ entryLines damagedState 0 := by decide
  obtain hempty | hinert := h _ hmem
  · exact absurd hempty (by decide)
  · have hnone : nextPair "garbage".toList = none := by decide
    have hcall : none ∈ pairCalls "garbage".toList := by
      rw [pairCalls_none hnone]
      exact List.mem_singleton_self none
    obtain ⟨pair, heq, -⟩ := hinert.own none hcall
    exact absurd heq (by simp)

end Sysmon
