import Sysmon.Config.Splice

/-!
# Indices in range

The scanners of `splice.go` with their indices, where one that is out of range panics, and the texts `Parse` gives to
`extractQuoted`. The scanners test every index before they use it. Of the texts a lone quote is fatal.
-/

namespace Sysmon.Config

open GoBytes

/-! ### Slices -/

/-- `b[i]`. -/
def byteAt (b : CStr) (i : Nat) : Except Failure Char :=
  match b[i]? with
  | some c => .ok c
  | none => .error .panicked

/-- `b[start:stop]`. -/
def sliceAt (b : CStr) (start stop : Nat) : Except Failure CStr :=
  if start ≤ stop ∧ stop ≤ b.length then .ok (slice b start stop) else .error .panicked

/-- A loop that passes the bytes of a kind. It fails if its fuel is spent. -/
def passWhile (b : CStr) (p : Char → Bool) : Nat → Nat → Except Failure Nat
  | 0, _ => .error .failed
  | fuel + 1, i =>
      if i < b.length then do
        if p (← byteAt b i) then passWhile b p fuel (i + 1) else return i
      else return i

/-! ### The scanners -/

/-- What stands in a line, as in a comment. -/
@[simp] def inLine (c : Char) : Bool := c ≠ '\n'

/-- What stands between quotes. -/
@[simp] def inQuotes (c : Char) : Bool := c ≠ '"'

/-- `i == 0 || isSep(b[i-1])`. -/
def sepBefore (b : CStr) (i : Nat) : Except Failure Bool :=
  if 0 < i then isSep <$> byteAt b (i - 1) else pure true

/-- `i == len(b) || isSep(b[i])`. -/
def sepAt (b : CStr) (i : Nat) : Except Failure Bool := if i < b.length then isSep <$> byteAt b i else pure true

/-- `isWordStart`. -/
def isWordStart (b : CStr) (i : Nat) (word : String) : Except Failure Bool :=
  let stop := i + word.toList.length
  if b.length < stop then return false
  else do
    if (← sliceAt b i stop) ≠ word.toList then return false
    else do
      if !(← sepBefore b i) then return false
      else sepAt b stop

/-- The blanks behind an object. -/
def indents (c : Char) : Bool := c = ' ' || c = '\t'

/-- The end of an object behind its brace, with one semicolon. -/
def closeObject (b : CStr) (i : Nat) : Except Failure Nat := do
  let i ← passWhile b indents (b.length + 1) i
  if i < b.length then return if (← byteAt b i) = ';' then i + 1 else i
  else return i

/-- What stands before the brace of an object. -/
def inHeader (c : Char) : Bool := c ≠ '\x7b' && c ≠ '\n'

/-- The loop over a block, from a brace to the end of the object, with the number of braces that are open. -/
def scanBlock (b : CStr) : Nat → Nat → Nat → Except Failure (Option Nat × Nat)
  | 0, _, _ => .error .failed
  | fuel + 1, depth, i =>
      if i < b.length then do
        let c ← byteAt b i
        if c = '#' then do
          let i ← passWhile b inLine (b.length + 1) i
          scanBlock b fuel depth i
        else if c = '"' then do
          let i ← passWhile b inQuotes (b.length + 1) (i + 1)
          scanBlock b fuel depth (i + 1)
        else if c = '\x7b' then scanBlock b fuel (depth + 1) (i + 1)
        else if c = '\x7d' then
          if depth - 1 = 0 then do
            let stop ← closeObject b (i + 1)
            return (some stop, stop)
          else scanBlock b fuel (depth - 1) (i + 1)
        else scanBlock b fuel depth (i + 1)
      else return (none, i)

/-- `i < n && b[i] == '\x7b'`. -/
def braceAt (b : CStr) (i : Nat) : Except Failure Bool :=
  if i < b.length then (fun c => decide (c = '\x7b')) <$> byteAt b i else pure false

/-- The loop of `scanObjects`. -/
def scanObjectsFrom (b : CStr) : Nat → Nat → Except Failure (List (Nat × Nat))
  | 0, _ => .error .failed
  | fuel + 1, i =>
      if i < b.length then do
        let c ← byteAt b i
        if c = '#' then do
          let i ← passWhile b inLine (b.length + 1) i
          scanObjectsFrom b fuel i
        else if c = '"' then do
          let i ← passWhile b inQuotes (b.length + 1) (i + 1)
          scanObjectsFrom b fuel (i + 1)
        else if (← isWordStart b i "object") then do
          let brace ← passWhile b inHeader (b.length + 1) (i + "object".toList.length)
          if !(← braceAt b brace) then scanObjectsFrom b fuel brace
          else do
            let (stop, next) ← scanBlock b (b.length + 1) 0 brace
            let objects ← scanObjectsFrom b fuel next
            return (stop.map fun stop => (i, stop)).toList ++ objects
        else scanObjectsFrom b fuel (i + 1)
      else return []

/-- The loop behind the word `include`, with the path that is found. -/
def scanPath (b : CStr) : Nat → Nat → Except Failure (Option CStr × Nat)
  | 0, _ => .error .failed
  | fuel + 1, i =>
      if i < b.length then do
        let c ← byteAt b i
        if c ≠ '\n' && c ≠ ';' then
          if c = '"' then do
            let stop ← passWhile b inQuotes (b.length + 1) (i + 1)
            let path ← sliceAt b (i + 1) stop
            return (some path, stop)
          else scanPath b fuel (i + 1)
        else return (none, i)
      else return (none, i)

/-- The loop of `scanIncludes`. -/
def scanIncludesFrom (b : CStr) : Nat → Nat → Except Failure (List CStr)
  | 0, _ => .error .failed
  | fuel + 1, i =>
      if i < b.length then do
        let c ← byteAt b i
        if c = '#' then do
          let i ← passWhile b inLine (b.length + 1) i
          scanIncludesFrom b fuel i
        else if (← isWordStart b i "include") then do
          let (path, next) ← scanPath b (b.length + 1) (i + "include".toList.length)
          let paths ← scanIncludesFrom b fuel next
          return path.toList ++ paths
        else scanIncludesFrom b fuel (i + 1)
      else return []

/-! ### In range -/

section range

variable {b : CStr}

theorem byteAt_of_lt {i : Nat} (h : i < b.length) : byteAt b i = .ok b[i] := by
  rw [byteAt, List.getElem?_eq_getElem h]

theorem passWhile_eq (p : Char → Bool) (fuel i : Nat) (hfuel : b.length - i < fuel) :
    passWhile b p fuel i = .ok (i + ((b.drop i).takeWhile p).length) := by
  induction fuel generalizing i with
  | zero => omega
  | succ fuel ih =>
      rw [passWhile]
      by_cases hi : i < b.length
      · rw [if_pos hi, byteAt_of_lt hi, List.drop_eq_getElem_cons hi, List.takeWhile_cons]
        by_cases hp : p b[i] = true
        · have hgo := ih (i + 1) (by omega)
          simp only [bind, Except.bind, if_pos hp, hgo, List.length_cons]
          congr 1
          omega
        · simp only [bind, Except.bind, if_neg hp]
          rfl
      · rw [if_neg hi, List.drop_eq_nil_of_le (Nat.le_of_not_lt hi)]
        rfl

theorem sliceAt_of_le {start stop : Nat} (h : start ≤ stop) (hstop : stop ≤ b.length) :
    sliceAt b start stop = .ok (slice b start stop) := if_pos ⟨h, hstop⟩

/-- The character before a position. -/
def before (b : CStr) (i : Nat) : Option Char := if i = 0 then none else b[i - 1]?

theorem isWordStart_eq (word : String) {i : Nat} (hi : i < b.length) :
    isWordStart b i word = .ok (wordStarts word (before b i) (b.drop i)) := by
  rw [isWordStart, wordStarts]
  generalize word.toList = w
  have hprefix : w.isPrefixOf (b.drop i) = decide ((b.drop i).take w.length = w) := by
    rw [Bool.eq_iff_iff, List.isPrefixOf_iff_prefix, List.prefix_iff_eq_take, decide_eq_true_eq]
    exact eq_comm
  by_cases hlong : b.length < i + w.length
  · have hno : (b.drop i).take w.length ≠ w := fun heq => by
      have hlength := congrArg List.length heq
      rw [List.length_take, List.length_drop] at hlength
      omega
    rw [if_pos hlong, hprefix, decide_eq_false hno]
    rfl
  · have hslice : slice b i (i + w.length) = (b.drop i).take w.length := by rw [slice, Nat.add_sub_cancel_left]
    have hbefore : sepBefore b i = .ok ((before b i).all isSep) := by
      rw [sepBefore, before]
      by_cases hzero : i = 0
      · rw [if_neg (by omega), if_pos hzero]
        rfl
      · rw [if_pos (by omega), if_neg hzero, byteAt_of_lt (by omega), List.getElem?_eq_getElem (by omega)]
        rfl
    have hafter : sepAt b (i + w.length) = .ok (((b.drop i).drop w.length).head?.all isSep) := by
      rw [sepAt, List.drop_drop, List.head?_drop]
      split
      · rename_i hlt
        rw [byteAt_of_lt hlt, List.getElem?_eq_getElem hlt]
        rfl
      · rename_i hge
        rw [List.getElem?_eq_none (Nat.le_of_not_lt hge)]
        rfl
    rw [if_neg hlong, sliceAt_of_le (Nat.le_add_right _ _) (Nat.le_of_not_lt hlong), hslice, hprefix]
    simp only [bind, Except.bind, hbefore]
    by_cases hword : (b.drop i).take w.length = w
    · rw [if_neg (not_not_intro hword), decide_eq_true hword, Bool.true_and]
      cases (before b i).all isSep with
      | false => rfl
      | true => exact hafter
    · rw [if_pos hword, decide_eq_false hword]
      rfl

/-! ### Where a loop stops -/

/-- Where the bytes of a kind end. -/
def stopAt (b : CStr) (p : Char → Bool) (i : Nat) : Nat := i + ((b.drop i).takeWhile p).length

variable {p : Char → Bool} {i : Nat}

theorem passWhile_stop (p : Char → Bool) (i : Nat) : passWhile b p (b.length + 1) i = .ok (stopAt b p i) :=
  passWhile_eq p _ i (by omega)

theorem stopAt_succ (hi : i < b.length) (hp : p b[i] = true) : stopAt b p i = stopAt b p (i + 1) := by
  rw [stopAt, List.drop_eq_getElem_cons hi, List.takeWhile_cons_of_pos hp, List.length_cons, stopAt]
  omega

theorem stopAt_self (hp : ∀ h : i < b.length, p b[i] = false) : stopAt b p i = i := by
  by_cases hi : i < b.length
  · rw [stopAt, List.drop_eq_getElem_cons hi, List.takeWhile_cons_of_neg (by rw [hp hi]; decide)]
    rfl
  · rw [stopAt, List.drop_eq_nil_of_le (Nat.le_of_not_lt hi)]
    rfl

/-- An induction over the bytes that are passed. -/
theorem stopAt_induction {P : Nat → Prop} (hstop : ∀ i, (∀ h : i < b.length, p b[i] = false) → P i)
    (hpass : ∀ i (h : i < b.length), p b[i] = true → P (i + 1) → P i) (i : Nat) : P i := by
  by_cases hi : i < b.length
  · cases hp : p b[i] with
    | false => exact hstop i fun _ => hp
    | true => exact hpass i hi hp (stopAt_induction hstop hpass (i + 1))
  · exact hstop i fun h => absurd h hi
termination_by b.length - i

theorem le_stopAt (p : Char → Bool) (i : Nat) : i ≤ stopAt b p i := Nat.le_add_right _ _

theorem stopAt_spec (p : Char → Bool) (i : Nat) (h : stopAt b p i < b.length) : p b[stopAt b p i] = false := by
  revert h
  refine @stopAt_induction b p (fun i => ∀ h : stopAt b p i < b.length, p b[stopAt b p i] = false)
    (fun i hp h => ?_) (fun i hi hp ih h => ?_) i
  · simp only [stopAt_self hp] at h ⊢
    exact hp h
  · simp only [stopAt_succ hi hp] at h ⊢
    exact ih h

/-! ### The same objects -/

/-- What `scanFrom` finds from a position on. -/
def modeAt (b : CStr) (mode : ScanMode) (i : Nat) : List (Nat × Nat) := scanFrom mode i (b.drop i)

def objectsAt (b : CStr) (i : Nat) : List (Nat × Nat) := modeAt b (.outside (before b i)) i

theorem modeAt_of_lt (mode : ScanMode) (hi : i < b.length) :
    modeAt b mode i = mode.found i b[i] ++ modeAt b (mode.next i b[i] (b.drop (i + 1))) (i + 1) := by
  rw [modeAt, List.drop_eq_getElem_cons hi, scanFrom, modeAt]

theorem modeAt_of_ge (mode : ScanMode) (hi : b.length ≤ i) : modeAt b mode i = mode.foundAtEnd i := by
  rw [modeAt, List.drop_eq_nil_of_le hi, scanFrom]

theorem before_succ (hi : i < b.length) : before b (i + 1) = some b[i] := by
  rw [before, if_neg (Nat.succ_ne_zero i), Nat.add_sub_cancel, List.getElem?_eq_getElem hi]

/-- A mode that stays as it is over some bytes. -/
theorem modeAt_stop (p : Char → Bool) (mode : ScanMode) (hfound : ∀ pos c, p c = true → mode.found pos c = [])
    (hnext : ∀ pos c s, p c = true → mode.next pos c s = mode) (i : Nat) :
    modeAt b mode i = modeAt b mode (stopAt b p i) := by
  refine @stopAt_induction b p (fun i => modeAt b mode i = modeAt b mode (stopAt b p i)) (fun i hp => ?_)
    (fun i hi hp ih => ?_) i
  · rw [stopAt_self hp]
  · rw [stopAt_succ hi hp, modeAt_of_lt mode hi, hfound _ _ hp, hnext _ _ _ hp, List.nil_append, ih]

/-- Where a line ends, a comment or the head of an object is as good as nothing. -/
theorem modeAt_newline (mode : ScanMode) (hend : ∀ pos, mode.foundAtEnd pos = [])
    (hfound : ∀ pos, mode.found pos '\n' = []) (hnext : ∀ pos s, mode.next pos '\n' s = .outside (some '\n'))
    (prev : Option Char) (hi : ∀ h : i < b.length, b[i] = '\n') : modeAt b mode i = modeAt b (.outside prev) i := by
  by_cases hlt : i < b.length
  · rw [modeAt_of_lt _ hlt, modeAt_of_lt _ hlt, hi hlt, hfound, hnext]
    rfl
  · rw [modeAt_of_ge _ (Nat.le_of_not_lt hlt), modeAt_of_ge _ (Nat.le_of_not_lt hlt), hend]
    rfl

theorem objectsAt_comment (hi : i < b.length) (hc : b[i] = '#') :
    objectsAt b i = objectsAt b (stopAt b inLine i) := by
  have hstop : ∀ h : stopAt b inLine i < b.length, b[stopAt b inLine i] = '\n' := fun h => by
    simpa using stopAt_spec inLine i h
  rw [objectsAt, modeAt_of_lt _ hi, hc]
  refine (modeAt_stop inLine .comment (fun _ _ _ => rfl)
    (fun _ c _ hp => if_neg (by simpa using hp)) (i + 1)).trans ?_
  rw [← stopAt_succ hi (by simp [hc])]
  exact modeAt_newline .comment (fun _ => rfl) (fun _ => rfl) (fun _ _ => rfl) _ hstop

/-- A closing quote ends what a mode passes, and the mode behind it is the same at the end of the text. -/
theorem modeAt_quote (mode after : ScanMode) (hend : ∀ pos, mode.foundAtEnd pos = [] ∧ after.foundAtEnd pos = [])
    (hfound : ∀ pos c, mode.found pos c = []) (hpass : ∀ pos c s, c ≠ '"' → mode.next pos c s = mode)
    (hnext : ∀ pos s, mode.next pos '"' s = after) (i : Nat) :
    modeAt b mode i = modeAt b after (stopAt b inQuotes i + 1) := by
  rw [modeAt_stop inQuotes mode (fun pos c _ => hfound pos c)
    (fun pos c s hp => hpass pos c s (by simpa using hp)) i]
  by_cases hlt : stopAt b inQuotes i < b.length
  · have hc : b[stopAt b inQuotes i] = '"' := by simpa using stopAt_spec inQuotes i hlt
    rw [modeAt_of_lt _ hlt, hfound, hc, hnext, List.nil_append]
  · rw [modeAt_of_ge _ (Nat.le_of_not_lt hlt), modeAt_of_ge _ (by omega), (hend _).1, (hend _).2]

theorem objectsAt_quote (hi : i < b.length) (hc : b[i] = '"') :
    objectsAt b i = objectsAt b (stopAt b inQuotes (i + 1) + 1) := by
  rw [objectsAt, modeAt_of_lt _ hi, hc]
  refine (modeAt_quote .quoted (.outside (some '"')) (fun _ => ⟨rfl, rfl⟩) (fun _ _ => rfl)
    (fun _ c _ hne => if_neg hne) (fun _ _ => rfl) (i + 1)).trans ?_
  by_cases hlt : stopAt b inQuotes (i + 1) < b.length
  · have hquote : b[stopAt b inQuotes (i + 1)] = '"' := by simpa using stopAt_spec inQuotes (i + 1) hlt
    rw [objectsAt, before_succ hlt, hquote]
  · rw [objectsAt, modeAt_of_ge _ (by omega), modeAt_of_ge _ (by omega)]
    rfl

/-- Where an object ends: blanks and one semicolon belong to it. -/
def closeAt (b : CStr) (i : Nat) : Nat :=
  let blanks := stopAt b indents i
  if b[blanks]? = some ';' then blanks + 1 else blanks

theorem closeObject_eq (i : Nat) : closeObject b i = .ok (closeAt b i) := by
  simp only [closeObject, closeAt, passWhile_stop, bind, Except.bind]
  by_cases hi : stopAt b indents i < b.length
  · rw [if_pos hi, byteAt_of_lt hi, List.getElem?_eq_getElem hi]
    simp only [Option.some.injEq]
    rfl
  · rw [if_neg hi, List.getElem?_eq_none (Nat.le_of_not_lt hi)]
    rfl

theorem modeAt_closing (start : Nat) {prev : Char} (hprev : before b i = some prev) :
    modeAt b (.closing start prev) i = (start, closeAt b i) :: objectsAt b (closeAt b i) := by
  revert prev
  refine @stopAt_induction b indents (fun i => ∀ {prev}, before b i = some prev →
    modeAt b (.closing start prev) i = (start, closeAt b i) :: objectsAt b (closeAt b i)) ?_ ?_ i
  · intro i hp prev hprev
    simp only [closeAt, stopAt_self hp]
    by_cases hi : i < b.length
    · have hblank : ¬(b[i] = ' ' ∨ b[i] = '\t') := by simpa [indents] using hp hi
      rw [modeAt_of_lt _ hi, List.getElem?_eq_getElem hi]
      by_cases hc : b[i] = ';'
      · simp [ScanMode.found, ScanMode.next, hc, objectsAt, before_succ hi]
      · simp [ScanMode.found, ScanMode.next, hc, hblank, objectsAt, hprev, modeAt_of_lt _ hi]
    · rw [modeAt_of_ge _ (Nat.le_of_not_lt hi), List.getElem?_eq_none (Nat.le_of_not_lt hi), objectsAt,
        if_neg (by simp), modeAt_of_ge _ (Nat.le_of_not_lt hi)]
      rfl
  · intro i hi hp ih prev hprev
    have hblank : b[i] = ' ' ∨ b[i] = '\t' := by simpa [indents] using hp
    have hsame : closeAt b i = closeAt b (i + 1) := by simp only [closeAt, stopAt_succ hi hp]
    rw [hsame, modeAt_of_lt _ hi]
    simp only [ScanMode.found, ScanMode.next, if_pos hblank, List.nil_append]
    exact ih (before_succ hi)

theorem le_closeAt (i : Nat) : i ≤ closeAt b i := by
  have hle := le_stopAt (b := b) indents i
  rw [closeAt]
  split <;> omega

section block

variable (start : Nat) {depth : Nat}

theorem modeAt_block_comment (hi : i < b.length) (hc : b[i] = '#') :
    modeAt b (.block start depth) i = modeAt b (.block start depth) (stopAt b inLine i) := by
  have hstop := stopAt_spec (b := b) inLine i
  rw [modeAt_of_lt _ hi, hc]
  refine (modeAt_stop inLine (.blockComment start depth) (fun _ _ _ => rfl)
    (fun _ c _ hp => if_neg (by simpa using hp)) (i + 1)).trans ?_
  rw [← stopAt_succ hi (by simp [hc])]
  by_cases hlt : stopAt b inLine i < b.length
  · have hnewline : b[stopAt b inLine i] = '\n' := by simpa using hstop hlt
    rw [modeAt_of_lt _ hlt, modeAt_of_lt _ hlt, hnewline]
    rfl
  · rw [modeAt_of_ge _ (Nat.le_of_not_lt hlt), modeAt_of_ge _ (Nat.le_of_not_lt hlt)]
    rfl

theorem modeAt_block_quote (hi : i < b.length) (hc : b[i] = '"') :
    modeAt b (.block start depth) i = modeAt b (.block start depth) (stopAt b inQuotes (i + 1) + 1) := by
  rw [modeAt_of_lt _ hi, hc]
  exact modeAt_quote (.blockQuoted start depth) (.block start depth) (fun _ => ⟨rfl, rfl⟩) (fun _ _ => rfl)
    (fun _ c _ hne => if_neg hne) (fun _ _ => rfl) (i + 1)

/-- The loop over a block does what its mode does. -/
theorem scanBlock_eq (fuel : Nat) (hdepth : 0 < depth) (hfuel : b.length - i < fuel) :
    ∃ stop next, scanBlock b fuel depth i = .ok (stop, next) ∧ i ≤ next ∧
      modeAt b (.block start depth) i = (stop.map fun stop => (start, stop)).toList ++ objectsAt b next := by
  induction fuel generalizing depth i with
  | zero => omega
  | succ fuel ih =>
      rw [scanBlock]
      by_cases hi : i < b.length
      · rw [if_pos hi, byteAt_of_lt hi]
        simp only [bind, Except.bind, passWhile_stop]
        have hgo : ∀ {depth' j}, 0 < depth' → i < j →
            modeAt b (.block start depth) i = modeAt b (.block start depth') j →
            ∃ stop next, scanBlock b fuel depth' j = .ok (stop, next) ∧ i ≤ next ∧
              modeAt b (.block start depth) i =
                (stop.map fun stop => (start, stop)).toList ++ objectsAt b next := by
          intro depth' j hdepth' hj hmode
          obtain ⟨stop, next, hscan, hle, heq⟩ := @ih j depth' hdepth' (by omega)
          exact ⟨stop, next, hscan, by omega, hmode.trans heq⟩
        by_cases hcomment : b[i] = '#'
        · rw [if_pos hcomment]
          have hlt : i < stopAt b inLine i := by
            rw [stopAt_succ hi (by simp [hcomment])]
            exact le_stopAt _ _
          exact hgo hdepth hlt (modeAt_block_comment start hi hcomment)
        · rw [if_neg hcomment]
          by_cases hquote : b[i] = '"'
          · rw [if_pos hquote]
            have hle := le_stopAt (b := b) inQuotes (i + 1)
            exact hgo hdepth (by omega) (modeAt_block_quote start hi hquote)
          · rw [if_neg hquote]
            by_cases hopen : b[i] = '\x7b'
            · rw [if_pos hopen]
              refine hgo (Nat.succ_pos depth) (Nat.lt_succ_self i) ?_
              rw [modeAt_of_lt _ hi, hopen]
              rfl
            · rw [if_neg hopen]
              by_cases hclose : b[i] = '\x7d'
              · rw [if_pos hclose]
                by_cases hlast : depth - 1 = 0
                · have hle := le_closeAt (b := b) (i + 1)
                  rw [if_pos hlast, closeObject_eq]
                  refine ⟨some (closeAt b (i + 1)), closeAt b (i + 1), rfl, by omega, ?_⟩
                  have hbefore : before b (i + 1) = some '\x7d' := by rw [before_succ hi, hclose]
                  rw [modeAt_of_lt _ hi, hclose, show depth = 1 by omega]
                  exact modeAt_closing start hbefore
                · rw [if_neg hlast]
                  refine hgo (by omega) (Nat.lt_succ_self i) ?_
                  rw [modeAt_of_lt _ hi, hclose]
                  simp [ScanMode.found, ScanMode.next, show depth ≠ 1 by omega]
              · rw [if_neg hclose]
                refine hgo hdepth (Nat.lt_succ_self i) ?_
                rw [modeAt_of_lt _ hi]
                simp [ScanMode.found, ScanMode.next, hcomment, hquote, hopen, hclose]
      · refine ⟨none, i, if_neg hi, Nat.le_refl i, ?_⟩
        rw [modeAt_of_ge _ (Nat.le_of_not_lt hi), objectsAt, modeAt_of_ge _ (Nat.le_of_not_lt hi)]
        rfl

end block

/-- The characters of a word are passed too. -/
theorem stopAt_word (word : List Char) (hp : ∀ c ∈ word, p c = true) (hword : word.isPrefixOf (b.drop i) = true) :
    stopAt b p (i + word.length) = stopAt b p i := by
  obtain ⟨rest, hrest⟩ := List.isPrefixOf_iff_prefix.mp hword
  have hdrop : b.drop (i + word.length) = rest := by
    rw [← List.drop_drop, ← hrest, List.drop_left]
  rw [stopAt, stopAt, hdrop, ← hrest, List.takeWhile_append_of_pos hp, List.length_append]
  omega

theorem wordStarts_initial {word : String} {prev : Option Char} {s : CStr} (h : wordStarts word prev s = true) :
    word.toList.isPrefixOf s = true := by
  rw [wordStarts, Bool.and_eq_true, Bool.and_eq_true] at h
  exact h.1.1

theorem head_of_append {c : Char} {word : List Char} (hi : i < b.length)
    (h : (c :: word).isPrefixOf (b.drop i) = true) : b[i] = c := by
  rw [List.drop_eq_getElem_cons hi, List.isPrefixOf_cons_cons, Bool.and_eq_true] at h
  exact (beq_iff_eq.mp h.1).symm

/-- Behind the word `object`. -/
theorem objectsAt_word (hi : i < b.length) (hword : wordStarts "object" (before b i) (b.drop i) = true) :
    objectsAt b i = modeAt b (.header i) (stopAt b inHeader (i + "object".toList.length)) ∧
      i < stopAt b inHeader (i + "object".toList.length) := by
  have hprefix := wordStarts_initial hword
  have hc : b[i] = 'o' := head_of_append hi hprefix
  have hheader : ∀ c ∈ "object".toList, inHeader c = true := by decide
  rw [stopAt_word _ hheader hprefix, stopAt_succ hi (by rw [hc]; rfl)]
  refine ⟨?_, le_stopAt inHeader (i + 1)⟩
  rw [List.drop_eq_getElem_cons hi, hc] at hword
  rw [objectsAt, modeAt_of_lt _ hi, hc]
  refine Eq.trans ?_ (modeAt_stop inHeader (.header i) (fun _ _ _ => rfl) (fun _ c _ hp => ?_) (i + 1))
  · simp [ScanMode.found, ScanMode.next, outsideNext, hword]
  · rw [inHeader, Bool.and_eq_true, decide_eq_true_eq, decide_eq_true_eq] at hp
    simp [ScanMode.next, hp.1, hp.2]

theorem braceAt_eq (i : Nat) : braceAt b i = .ok (decide (b[i]? = some '\x7b')) := by
  rw [braceAt]
  by_cases hi : i < b.length
  · rw [if_pos hi, byteAt_of_lt hi, List.getElem?_eq_getElem hi]
    simp only [Option.some.injEq]
    rfl
  · rw [if_neg hi, List.getElem?_eq_none (Nat.le_of_not_lt hi)]
    rfl

theorem scanBlock_open {fuel : Nat} (hi : i < b.length) (hc : b[i] = '\x7b') :
    scanBlock b (fuel + 1) 0 i = scanBlock b fuel 1 (i + 1) := by
  rw [scanBlock, if_pos hi, byteAt_of_lt hi, hc]
  rfl

theorem modeAt_header_open (start : Nat) (hi : i < b.length) (hc : b[i] = '\x7b') :
    modeAt b (.header start) i = modeAt b (.block start 1) (i + 1) := by
  rw [modeAt_of_lt _ hi, hc]
  rfl

theorem modeAt_header_newline (start : Nat) (hstop : ∀ h : i < b.length, inHeader b[i] = false)
    (hc : b[i]? ≠ some '\x7b') : modeAt b (.header start) i = objectsAt b i := by
  refine modeAt_newline (.header start) (fun _ => rfl) (fun _ => rfl) (fun _ _ => rfl) _ fun hi => ?_
  have hopen : b[i] ≠ '\x7b' := fun heq => hc (by rw [List.getElem?_eq_getElem hi, heq])
  simpa [inHeader, hopen] using hstop hi

/-- The loop of `scanObjects` finds what its mode finds. -/
theorem scanObjectsFrom_eq (fuel : Nat) (hfuel : b.length - i < fuel) :
    scanObjectsFrom b fuel i = .ok (objectsAt b i) := by
  induction fuel generalizing i with
  | zero => omega
  | succ fuel ih =>
      rw [scanObjectsFrom]
      by_cases hi : i < b.length
      · rw [if_pos hi, byteAt_of_lt hi, isWordStart_eq _ hi]
        simp only [bind, Except.bind, passWhile_stop, braceAt_eq]
        by_cases hcomment : b[i] = '#'
        · have hlt : i < stopAt b inLine i := by
            rw [stopAt_succ hi (by simp [hcomment])]
            exact le_stopAt _ _
          rw [if_pos hcomment, objectsAt_comment hi hcomment]
          exact ih (by omega)
        · rw [if_neg hcomment]
          by_cases hquote : b[i] = '"'
          · have hle := le_stopAt (b := b) inQuotes (i + 1)
            rw [if_pos hquote, objectsAt_quote hi hquote]
            exact ih (by omega)
          · rw [if_neg hquote]
            by_cases hword : wordStarts "object" (before b i) (b.drop i) = true
            · obtain ⟨hmode, hlt⟩ := objectsAt_word hi hword
              rw [if_pos hword, hmode]
              have hspec := stopAt_spec (b := b) inHeader (i + "object".toList.length)
              generalize stopAt b inHeader (i + "object".toList.length) = brace at hlt hspec
              by_cases hbrace : b[brace]? = some '\x7b'
              · obtain ⟨hlt', hopen⟩ := List.getElem?_eq_some_iff.mp hbrace
                obtain ⟨stop, next, hscan, hle, hblock⟩ :=
                  @scanBlock_eq b (brace + 1) i 1 b.length Nat.one_pos (by omega)
                rw [decide_eq_true hbrace, scanBlock_open hlt' hopen, hscan, modeAt_header_open i hlt' hopen, hblock]
                simp [ih (show b.length - next < fuel by omega), pure, Except.pure]
              · rw [decide_eq_false hbrace, modeAt_header_newline i hspec hbrace]
                exact ih (by omega)
            · rw [if_neg hword, ih (by omega), objectsAt, objectsAt, modeAt_of_lt _ hi, before_succ hi]
              simp [ScanMode.found, ScanMode.next, outsideNext, hcomment, hquote, hword]
      · rw [if_neg hi, objectsAt, modeAt_of_ge _ (Nat.le_of_not_lt hi)]
        rfl

/-! ### The same paths -/

/-- What `includesFrom` finds from a position on. -/
def includesAt (b : CStr) (mode : IncludeMode) (i : Nat) : List CStr := includesFrom mode (b.drop i)

theorem includesAt_of_ge (mode : IncludeMode) (hi : b.length ≤ i) : includesAt b mode i = includesFrom mode [] := by
  rw [includesAt, List.drop_eq_nil_of_le hi]

/-- A byte that begins nothing is passed. -/
theorem includesAt_pass (prev : Option Char) (hi : i < b.length) (hcomment : b[i] ≠ '#')
    (hword : wordStarts "include" prev (b.drop i) = false) :
    includesAt b (.outside prev) i = includesAt b (.outside (some b[i])) (i + 1) := by
  rw [List.drop_eq_getElem_cons hi] at hword
  rw [includesAt, List.drop_eq_getElem_cons hi, includesFrom, if_neg hcomment, hword]
  rfl

theorem wordStarts_of_head {c : Char} (hi : i < b.length) (hc : b[i] = c) (hword : c ≠ 'i') (prev : Option Char) :
    wordStarts "include" prev (b.drop i) = false := by
  rw [Bool.eq_false_iff]
  exact fun h => hword (hc.symm.trans (head_of_append hi (wordStarts_initial h)))

theorem includesAt_comment (prev : Option Char) (i : Nat) :
    includesAt b .comment i = includesAt b (.outside prev) (stopAt b inLine i) := by
  refine @stopAt_induction b inLine (fun i => includesAt b .comment i =
    includesAt b (.outside prev) (stopAt b inLine i)) (fun i hp => ?_) (fun i hi hp ih => ?_) i
  · rw [stopAt_self hp]
    by_cases hi : i < b.length
    · have hc : b[i] = '\n' := by simpa using hp hi
      rw [includesAt_pass prev hi (by rw [hc]; decide) (wordStarts_of_head hi hc (by decide) prev), includesAt,
        List.drop_eq_getElem_cons hi, includesFrom, if_pos hc, includesAt]
    · rw [includesAt_of_ge _ (Nat.le_of_not_lt hi), includesAt_of_ge _ (Nat.le_of_not_lt hi)]
      rfl
  · rw [stopAt_succ hi hp, ← ih, includesAt, List.drop_eq_getElem_cons hi, includesFrom,
      if_neg (by simpa using hp), includesAt]

/-- A path ends at its quote. -/
theorem includesAt_path (text : CStr) (prev : Option Char) (i : Nat) :
    includesAt b (.path text) i = (text ++ (b.drop i).takeWhile inQuotes) ::
      includesAt b (.outside prev) (stopAt b inQuotes i) := by
  revert text
  refine @stopAt_induction b inQuotes (fun i => ∀ text, includesAt b (.path text) i =
    (text ++ (b.drop i).takeWhile inQuotes) ::
      includesAt b (.outside prev) (stopAt b inQuotes i)) (fun i hp text => ?_) (fun i hi hp ih text => ?_) i
  · rw [stopAt_self hp]
    by_cases hi : i < b.length
    · have hc : b[i] = '"' := by simpa using hp hi
      rw [includesAt_pass prev hi (by rw [hc]; decide) (wordStarts_of_head hi hc (by decide) prev), includesAt,
        List.drop_eq_getElem_cons hi, includesFrom, if_pos hc, List.takeWhile_cons_of_neg (by simp [hc]), includesAt,
        List.append_nil]
    · rw [includesAt_of_ge _ (Nat.le_of_not_lt hi), includesAt_of_ge _ (Nat.le_of_not_lt hi),
        List.drop_eq_nil_of_le (Nat.le_of_not_lt hi), List.takeWhile_nil, List.append_nil]
      rfl
  · rw [stopAt_succ hi hp, includesAt, List.drop_eq_getElem_cons hi, includesFrom, if_neg (by simpa using hp),
      List.takeWhile_cons_of_pos hp]
    refine (ih (text ++ [b[i]])).trans ?_
    rw [List.append_assoc, List.singleton_append]

theorem slice_stopAt (i : Nat) : slice b i (stopAt b p i) = (b.drop i).takeWhile p := by
  rw [slice, stopAt, Nat.add_sub_cancel_left]
  exact (List.prefix_iff_eq_take.mp (List.takeWhile_prefix p)).symm

theorem stopAt_le (p : Char → Bool) (hi : i ≤ b.length) : stopAt b p i ≤ b.length := by
  have hlength := (List.takeWhile_prefix p (l := b.drop i)).length_le
  rw [List.length_drop] at hlength
  rw [stopAt]
  omega

/-- The loop behind the word does what its mode does. -/
theorem scanPath_eq (fuel : Nat) (hfuel : b.length - i < fuel) :
    ∃ path next, scanPath b fuel i = .ok (path, next) ∧ i ≤ next ∧
      includesAt b .directive i = path.toList ++ includesAt b (.outside (before b next)) next := by
  induction fuel generalizing i with
  | zero => omega
  | succ fuel ih =>
      rw [scanPath]
      by_cases hi : i < b.length
      · rw [if_pos hi, byteAt_of_lt hi]
        simp only [bind, Except.bind, passWhile_stop]
        have hdirective : includesAt b .directive i =
            if b[i] = '\n' ∨ b[i] = ';' then includesAt b (.outside (some b[i])) (i + 1)
            else if b[i] = '"' then includesAt b (.path []) (i + 1) else includesAt b .directive (i + 1) := by
          rw [includesAt, List.drop_eq_getElem_cons hi, includesFrom]
          rfl
        rw [hdirective]
        by_cases hend : b[i] = '\n' ∨ b[i] = ';'
        · have hne : b[i] ≠ '#' ∧ b[i] ≠ 'i' := by
            obtain hc | hc := hend
            all_goals
              rw [hc]
              decide
          refine ⟨none, i, if_neg (by simpa using fun hnewline => hend.resolve_left hnewline), Nat.le_refl i, ?_⟩
          rw [if_pos hend, includesAt_pass _ hi hne.1 (wordStarts_of_head hi rfl hne.2 _)]
          rfl
        · obtain ⟨hnewline, hsemicolon⟩ := not_or.mp hend
          rw [if_pos (by simp [hnewline, hsemicolon]), if_neg hend]
          by_cases hquote : b[i] = '"'
          · have hle := le_stopAt (b := b) inQuotes (i + 1)
            have hin := stopAt_le (b := b) inQuotes hi
            rw [if_pos hquote, if_pos hquote, sliceAt_of_le hle hin, slice_stopAt]
            exact ⟨_, _, rfl, by omega, includesAt_path [] _ (i + 1)⟩
          · rw [if_neg hquote, if_neg hquote]
            obtain ⟨path, next, hscan, hle, heq⟩ := @ih (i + 1) (by omega)
            exact ⟨path, next, hscan, by omega, heq⟩
      · refine ⟨none, i, if_neg hi, Nat.le_refl i, ?_⟩
        rw [includesAt_of_ge _ (Nat.le_of_not_lt hi), includesAt_of_ge _ (Nat.le_of_not_lt hi)]
        rfl

/-- Behind the word `include`. -/
theorem includesAt_word (hi : i < b.length) (hword : wordStarts "include" (before b i) (b.drop i) = true) :
    includesAt b (.outside (before b i)) i = includesAt b .directive (i + "include".toList.length) := by
  have hpass : ∀ (word rest : CStr), (∀ c ∈ word, c ≠ '\n' ∧ c ≠ ';' ∧ c ≠ '"') →
      includesFrom .directive (word ++ rest) = includesFrom .directive rest := by
    intro word rest hplain
    induction word with
    | nil => rfl
    | cons c word ih =>
        obtain ⟨⟨hnewline, hsemicolon, hquote⟩, hplain⟩ := List.forall_mem_cons.mp hplain
        rw [List.cons_append, includesFrom, if_neg (not_or.mpr ⟨hnewline, hsemicolon⟩), if_neg hquote, ih hplain]
  obtain ⟨rest, hrest⟩ := List.isPrefixOf_iff_prefix.mp (wordStarts_initial hword)
  have hc : b[i] ≠ '#' := by
    rw [head_of_append hi (wordStarts_initial hword)]
    decide
  have htail : b.drop (i + 1) = "nclude".toList ++ rest := by
    rw [← List.drop_drop, ← hrest]
    rfl
  have hdrop : b.drop (i + "include".toList.length) = rest := by rw [← List.drop_drop, ← hrest, List.drop_left]
  rw [includesAt, List.drop_eq_getElem_cons hi] at *
  rw [includesFrom, if_neg hc, if_pos hword, htail, hpass _ rest (by decide), includesAt, hdrop]

/-- The loop of `scanIncludes` finds what its mode finds. -/
theorem scanIncludesFrom_eq (fuel : Nat) (hfuel : b.length - i < fuel) :
    scanIncludesFrom b fuel i = .ok (includesAt b (.outside (before b i)) i) := by
  induction fuel generalizing i with
  | zero => omega
  | succ fuel ih =>
      rw [scanIncludesFrom]
      by_cases hi : i < b.length
      · rw [if_pos hi, byteAt_of_lt hi, isWordStart_eq _ hi]
        simp only [bind, Except.bind, passWhile_stop]
        by_cases hcomment : b[i] = '#'
        · have hlt : i < stopAt b inLine i := by
            rw [stopAt_succ hi (by simp [hcomment])]
            exact le_stopAt _ _
          have hmode : includesAt b (.outside (before b i)) i = includesAt b .comment (i + 1) := by
            rw [includesAt, List.drop_eq_getElem_cons hi, includesFrom, if_pos hcomment, includesAt]
          rw [if_pos hcomment, hmode, includesAt_comment (before b (stopAt b inLine i)),
            ← stopAt_succ hi (by simp [hcomment])]
          exact ih (by omega)
        · rw [if_neg hcomment]
          by_cases hword : wordStarts "include" (before b i) (b.drop i) = true
          · obtain ⟨path, next, hscan, hle, hmode⟩ :=
              @scanPath_eq b (i + "include".toList.length) (b.length + 1) (by omega)
            have hlength : 0 < "include".toList.length := by decide
            rw [if_pos hword, hscan, includesAt_word hi hword, hmode]
            simp [ih (show b.length - next < fuel by omega), pure, Except.pure]
          · rw [if_neg hword, ih (by omega), before_succ hi,
              includesAt_pass _ hi hcomment (Bool.eq_false_iff.mpr hword)]
      · rw [if_neg hi, includesAt_of_ge _ (Nat.le_of_not_lt hi)]
        rfl

end range

/-- The scanners never index out of range, and the objects they find are slices of the text. -/
theorem scanners_ok (b : CStr) :
    scanObjectsFrom b (b.length + 1) 0 = .ok (scanObjects b) ∧
      scanIncludesFrom b (b.length + 1) 0 = .ok (scanIncludes b) :=
  ⟨scanObjectsFrom_eq _ (by omega), scanIncludesFrom_eq _ (by omega)⟩

/-- What a mode remembers lies behind. -/
def ScanMode.Behind (pos : Nat) : ScanMode → Prop
  | .header start | .block start _ | .blockComment start _ | .blockQuoted start _ | .closing start _ => start ≤ pos
  | _ => True

theorem behind_outsideNext (pos : Nat) (prev : Option Char) (c : Char) (s : CStr) :
    (outsideNext pos prev c s).Behind (pos + 1) := by
  rw [outsideNext]
  split_ifs
  all_goals first
    | exact trivial
    | exact Nat.le_succ pos

theorem ScanMode.Behind.next {pos : Nat} {mode : ScanMode} (h : mode.Behind pos) (c : Char) (s : CStr) :
    (mode.next pos c s).Behind (pos + 1) := by
  cases mode with
  | outside prev => exact behind_outsideNext pos prev c s
  | comment | quoted =>
      rw [ScanMode.next]
      split <;> exact trivial
  | header start | blockComment start depth | blockQuoted start depth =>
      have hstart : start ≤ pos := h
      rw [ScanMode.next]
      split_ifs
      all_goals first
        | exact trivial
        | exact Nat.le_succ_of_le hstart
  | block start depth =>
      have hstart : start ≤ pos := h
      rw [ScanMode.next]
      split_ifs
      all_goals exact Nat.le_succ_of_le hstart
  | closing start prev =>
      have hstart : start ≤ pos := h
      rw [ScanMode.next]
      split_ifs
      · exact Nat.le_succ_of_le hstart
      · exact trivial
      · exact behind_outsideNext pos (some prev) c s

/-- Every object that is found is a slice of the text. -/
theorem scanFrom_bounds (s : CStr) {mode : ScanMode} {pos : Nat} (h : mode.Behind pos) :
    ∀ found ∈ scanFrom mode pos s, found.1 ≤ found.2 ∧ found.2 ≤ pos + s.length := by
  induction s generalizing mode pos with
  | nil =>
      intro found hmem
      cases mode with
      | closing start prev =>
          obtain rfl := List.mem_singleton.mp hmem
          exact ⟨h, Nat.le_refl pos⟩
      | _ => exact absurd hmem List.not_mem_nil
  | cons c s ih =>
      intro found hmem
      rw [scanFrom] at hmem
      rw [List.length_cons]
      obtain hmem | hmem := List.mem_append.mp hmem
      · cases mode with
        | closing start prev =>
            have hstart : start ≤ pos := h
            rw [ScanMode.found] at hmem
            split_ifs at hmem
            · exact absurd hmem List.not_mem_nil
            · obtain rfl := List.mem_singleton.mp hmem
              exact ⟨Nat.le_succ_of_le hstart, by omega⟩
            · obtain rfl := List.mem_singleton.mp hmem
              exact ⟨hstart, by omega⟩
        | _ => exact absurd hmem List.not_mem_nil
      · obtain ⟨hle, hstop⟩ := ih (h.next c s) found hmem
        exact ⟨hle, by omega⟩

/-! ### What is read as a quoted text -/

/-- The text of a field that is given to `extractQuoted`. -/
def fieldText (line : CStr) : Option CStr :=
  match directives.find? fun directive => directive.matches line with
  | some (.text words _) => some (trimOpenings words line)
  | some (.quotedNumber word _) => some (trimPrefix (opening word) line)
  | _ => none

/-- Where `Parse` is. -/
structure Place where
  inSpawns : Bool
  inObject : Bool
  deriving DecidableEq, Repr

def ParseState.place (s : ParseState) : Place := ⟨s.inSpawns, s.currentHost.isSome⟩

/-- What a statement gives to `extractQuoted`, and where `Parse` is after it. -/
def Place.statement (place : Place) (line : CStr) : Option CStr × Place :=
  if startsWith "spawns" line ∧ '\x7b' ∈ line then (none, { place with inSpawns := true })
  else if place.inSpawns then (none, if line = ['\x7d'] then { place with inSpawns := false } else place)
  else if startsWith "root" line then (some (rootText line), place)
  else if startsWith "config " line then (configText (trimPrefix "config ".toList line), place)
  else if startsWith "set " line then (none, place)
  else if startsWith "object " line ∧ '\x7b' ∈ line then (none, { place with inObject := true })
  else if !place.inObject then (none, place)
  else if line = ['\x7d'] then (none, { place with inObject := false })
  else (fieldText line, place)

def Place.line (place : Place) (line : CStr) : Option CStr × Place :=
  let line := trimSpace line
  if line = [] ∨ line.head? = some ';' ∨ line.head? = some '#' then (none, place)
  else place.statement (trimSuffix ';' line)

/-- The texts that are given to `extractQuoted`. -/
def quotedTexts : Place → List CStr → List CStr
  | _, [] => []
  | place, line :: lines => (place.line line).1.toList ++ quotedTexts (place.line line).2 lines

/-- Nothing but a quote. -/
def LoneQuote (text : CStr) : Prop := trimSpace text = ['"']

instance (text : CStr) : Decidable (LoneQuote text) := inferInstanceAs (Decidable (_ = _))

/-- A result that depends on a text only in that a lone quote panics. -/
def Reads {α : Type} (text : Option CStr) (P : α → Prop) (result : Except Failure α) : Prop :=
  (∃ t ∈ text, LoneQuote t) ∧ result = .error .panicked ∨
    (∀ t ∈ text, ¬LoneQuote t) ∧ ∃ a, result = .ok a ∧ P a

theorem reads_none {α : Type} {P : α → Prop} {a : α} (h : P a) : Reads none P (.ok a) :=
  .inr ⟨fun _ hmem => (nomatch hmem), a, rfl, h⟩

theorem reads_some {α : Type} {P : α → Prop} (text : CStr) (f : CStr → α) (h : ∀ value, P (f value)) :
    Reads (some text) P (extractQuoted text >>= fun value => .ok (f value)) := by
  by_cases hlone : LoneQuote text
  · have hpanic : extractQuoted text = .error .panicked := by
      rw [extractQuoted, hlone]
      rfl
    exact .inl ⟨⟨text, rfl, hlone⟩, by rw [hpanic]; rfl⟩
  · have hok : ∃ value, extractQuoted text = .ok value := by
      rw [extractQuoted]
      split
      · rename_i hquoted
        refine ⟨_, if_neg fun hlength => hlone ?_⟩
        obtain ⟨c, hc⟩ := List.length_eq_one_iff.mp hlength
        rw [hc] at hquoted
        rw [LoneQuote, hc, Option.some.inj hquoted.1]
      · exact ⟨_, rfl⟩
    obtain ⟨value, hvalue⟩ := hok
    refine .inr ⟨fun t hmem => ?_, f value, by rw [hvalue]; rfl, h value⟩
    obtain rfl := Option.some.inj hmem
    exact hlone

theorem Reads.map {α β : Type} {text : Option CStr} {P : α → Prop} {Q : β → Prop} {result : Except Failure α}
    (h : Reads text P result) (f : α → β) (hf : ∀ a, Q (f a)) :
    Reads text Q (result >>= fun a => .ok (f a)) := by
  obtain ⟨hlone, rfl⟩ | ⟨hnone, a, rfl, -⟩ := h
  · exact .inl ⟨hlone, rfl⟩
  · exact .inr ⟨hnone, f a, rfl, hf a⟩

theorem reads_parseField (host : Host) (line : CStr) :
    Reads (fieldText line) (fun _ => True) (parseField host line) := by
  rw [fieldText, parseField]
  cases directives.find? fun directive => directive.matches line with
  | none => exact reads_none trivial
  | some directive =>
      cases directive with
      | text words set => exact reads_some _ (set host) fun _ => trivial
      | quotedNumber word set => exact reads_some _ (fun value => setNumber set host (atoi value)) fun _ => trivial
      | number | bareNumber | flag => exact reads_none trivial

theorem reads_parseStatement (s : ParseState) (line : CStr) :
    Reads (s.place.statement line).1 (fun s' => s'.place = (s.place.statement line).2) (parseStatement s line) := by
  rw [parseStatement, Place.statement]
  by_cases hspawns : startsWith "spawns" line ∧ '\x7b' ∈ line
  · rw [if_pos hspawns, if_pos hspawns]
    exact reads_none rfl
  rw [if_neg hspawns, if_neg hspawns]
  by_cases hin : s.place.inSpawns = true
  · have hspawns : s.inSpawns = true := hin
    rw [if_pos hin, if_pos hspawns]
    by_cases hclose : line = ['\x7d']
    · rw [if_pos hclose, if_pos hclose]
      exact reads_none rfl
    · rw [if_neg hclose, if_neg hclose]
      exact reads_none rfl
  have hout : ¬s.inSpawns = true := hin
  rw [if_neg hin, if_neg hout]
  by_cases hroot : startsWith "root" line = true
  · rw [if_pos hroot, if_pos hroot]
    exact reads_some (rootText line) (fun _ => s) fun _ => rfl
  rw [if_neg hroot, if_neg hroot]
  by_cases hconfig : startsWith "config " line = true
  · rw [if_pos hconfig, if_pos hconfig]
    cases configText (trimPrefix "config ".toList line) with
    | none => exact reads_none rfl
    | some text => exact reads_some text (fun _ => s) fun _ => rfl
  rw [if_neg hconfig, if_neg hconfig]
  by_cases hset : startsWith "set " line = true
  · rw [if_pos hset, if_pos hset]
    exact reads_none rfl
  rw [if_neg hset, if_neg hset]
  by_cases hobject : startsWith "object " line ∧ '\x7b' ∈ line
  · rw [if_pos hobject, if_pos hobject]
    exact reads_none rfl
  rw [if_neg hobject, if_neg hobject]
  have hplace : s.place.inObject = s.currentHost.isSome := rfl
  rw [hplace]
  cases hhost : s.currentHost with
  | none => exact reads_none rfl
  | some host =>
      rw [Option.isSome_some, if_neg (by decide)]
      by_cases hclose : line = ['\x7d']
      · rw [if_pos hclose]
        exact (congrArg (Reads _ _) (if_pos hclose)).mpr (reads_none rfl)
      · rw [if_neg hclose]
        refine (congrArg (Reads _ _) (if_neg hclose)).mpr ?_
        have hsame : s.place = ⟨s.inSpawns, true⟩ := by rw [ParseState.place, hhost, Option.isSome_some]
        exact Reads.map (Q := fun s' => s'.place = s.place) (reads_parseField host line)
          (fun host => { s with currentHost := some host }) fun _ => hsame.symm

theorem reads_parseLine (s : ParseState) (line : CStr) :
    Reads (s.place.line line).1 (fun s' => s'.place = (s.place.line line).2) (parseLine s line) := by
  rw [parseLine, Place.line]
  by_cases hskip : trimSpace line = [] ∨ (trimSpace line).head? = some ';' ∨ (trimSpace line).head? = some '#'
  · rw [if_pos hskip, if_pos hskip]
    exact reads_none rfl
  · rw [if_neg hskip, if_neg hskip]
    exact reads_parseStatement s _

/-- The first lone quote ends it. -/
theorem foldlM_parseLine (lines : List CStr) (s : ParseState) :
    (∃ text ∈ quotedTexts s.place lines, LoneQuote text) ∧ lines.foldlM parseLine s = .error .panicked ∨
      (∀ text ∈ quotedTexts s.place lines, ¬LoneQuote text) ∧ ∃ s', lines.foldlM parseLine s = .ok s' := by
  induction lines generalizing s with
  | nil => exact .inr ⟨fun text hmem => absurd hmem List.not_mem_nil, s, rfl⟩
  | cons line lines ih =>
      rw [List.foldlM_cons, quotedTexts]
      obtain ⟨⟨text, hmem, hlone⟩, hline⟩ | ⟨hnone, s', hline, hplace⟩ := reads_parseLine s line
      · rw [hline]
        exact .inl ⟨⟨text, List.mem_append_left _ (Option.mem_toList.mpr hmem), hlone⟩, rfl⟩
      · rw [hline, ← hplace]
        obtain ⟨⟨text, hmem, hlone⟩, hlines⟩ | ⟨hrest, hlines⟩ := ih s'
        · exact .inl ⟨⟨text, List.mem_append_right _ hmem, hlone⟩, hlines⟩
        · refine .inr ⟨fun text hmem => ?_, hlines⟩
          obtain hmem | hmem := List.mem_append.mp hmem
          · exact hnone text (Option.mem_toList.mp hmem)
          · exact hrest text hmem

/-- What `Parse` gives to `extractQuoted`, of a whole configuration. -/
def quoted (content : CStr) : List CStr := quotedTexts ⟨false, false⟩ (scanLines (splitStatements content))

theorem parse_ne_panicked_iff (content : CStr) :
    parse content ≠ .error .panicked ↔ ∀ text ∈ quoted content, ¬LoneQuote text := by
  have hfold := foldlM_parseLine (scanLines (splitStatements content)) ParseState.start
  rw [parse]
  obtain ⟨⟨text, hmem, hlone⟩, hlines⟩ | ⟨hnone, s, hlines⟩ := hfold
  · rw [hlines]
    exact iff_of_false (not_not_intro rfl) fun hall => hall text hmem hlone
  · rw [hlines]
    refine iff_of_true (fun heq => ?_) hnone
    simp only [bind, Except.bind] at heq
    split at heq
    · exact nomatch heq
    · exact nomatch Except.error.inj heq

/-- `Parse` panics exactly on a lone quote. The scanners always return, and what they find are slices of the text. -/
theorem neverPanics_iff (content : CStr) :
    (parse content ≠ .error .panicked ∧
      (∃ objects, scanObjectsFrom content (content.length + 1) 0 = .ok objects ∧
        ∀ found ∈ objects, ∃ block, sliceAt content found.1 found.2 = .ok block) ∧
      ∃ paths, scanIncludesFrom content (content.length + 1) 0 = .ok paths) ↔
      ∀ text ∈ quoted content, ¬LoneQuote text := by
  obtain ⟨hobjects, hincludes⟩ := scanners_ok content
  rw [← parse_ne_panicked_iff]
  refine ⟨fun h => h.1, fun h => ⟨h, ⟨_, hobjects, fun found hmem => ?_⟩, _, hincludes⟩⟩
  obtain ⟨hle, hstop⟩ := @scanFrom_bounds content (.outside none) 0 trivial found hmem
  exact ⟨_, sliceAt_of_le hle (by omega)⟩

/-- A quote that nothing follows. -/
theorem parse_lone_quote : parse ['r', 'o', 'o', 't', ' ', '=', ' ', '"'] = .error .panicked := by decide +kernel

end Sysmon.Config
