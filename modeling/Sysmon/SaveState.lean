import Mathlib.Data.List.Induction
import Sysmon.Host
import Sysmon.Lib.CText

/-!
# The checkpoint

`savestate.c`: what `write_state` writes, what `read_state` makes of a file, and what `load_state`
puts back onto the tree. A line is a row of `key=value` words and ends in the object's name, which
may hold anything but a newline, so the reader has to take `name=` as the word that swallows the
rest of the line. The eleven fields are one family: a key, the type of its field, how it is printed
and how it is read.
-/

namespace Sysmon

open CText

/-- The keys of a checkpoint line, in the order they are written. -/
inductive SavedKey where
  | lastcheck | downct | upct | totalchecked | totaldown | contacted | acked
  | lastcontacted | deathtime | lastUp | lastRecovery
  deriving DecidableEq, Repr

namespace SavedKey

def all : List SavedKey :=
  [lastcheck, downct, upct, totalchecked, totaldown, contacted, acked,
    lastcontacted, deathtime, lastUp, lastRecovery]

def text : SavedKey → CStr
  | lastcheck => "lastcheck".toList
  | downct => "downct".toList
  | upct => "upct".toList
  | totalchecked => "totalchecked".toList
  | totaldown => "totaldown".toList
  | contacted => "contacted".toList
  | acked => "acked".toList
  | lastcontacted => "lastcontacted".toList
  | deathtime => "deathtime".toList
  | lastUp => "last_up".toList
  | lastRecovery => "last_recovery".toList

/-- The type of the field. -/
abbrev Value : SavedKey → Type
  | lastcheck => UInt32
  | downct | upct | totalchecked | totaldown => UInt64
  | contacted | acked => Bool
  | lastcontacted | deathtime | lastUp | lastRecovery => Time

def get : (key : SavedKey) → HostInfo → key.Value
  | lastcheck, d => d.lastcheck
  | downct, d => d.downct
  | upct, d => d.upct
  | totalchecked, d => d.totalchecked
  | totaldown, d => d.totaldown
  | contacted, d => d.contacted
  | acked, d => d.acked
  | lastcontacted, d => d.lastcontacted
  | deathtime, d => d.deathtime
  | lastUp, d => d.lastUp
  | lastRecovery, d => d.lastRecovery

def set : (key : SavedKey) → key.Value → HostInfo → HostInfo
  | lastcheck, v, d => { d with lastcheck := v }
  | downct, v, d => { d with downct := v }
  | upct, v, d => { d with upct := v }
  | totalchecked, v, d => { d with totalchecked := v }
  | totaldown, v, d => { d with totaldown := v }
  | contacted, v, d => { d with contacted := v }
  | acked, v, d => { d with acked := v }
  | lastcontacted, v, d => { d with lastcontacted := v }
  | deathtime, v, d => { d with deathtime := v }
  | lastUp, v, d => { d with lastUp := v }
  | lastRecovery, v, d => { d with lastRecovery := v }

/-- `%u`, `%lu`, `%d` of a flag, and `%lld`. -/
def print : (key : SavedKey) → key.Value → CStr
  | lastcheck, v => showNat v.toNat
  | downct, v | upct, v | totalchecked, v | totaldown, v => showNat v.toNat
  | contacted, v | acked, v => showNat (if v then 1 else 0)
  | lastcontacted, v | deathtime, v | lastUp, v | lastRecovery, v => showInt v.toInt

/-- `strtoul`, `strtol` against 0, and `strtoll`. -/
def convert : (key : SavedKey) → CStr → key.Value
  | lastcheck, val => (strtoul val).toUInt32
  | downct, val | upct, val | totalchecked, val | totaldown, val => strtoul val
  | contacted, val | acked, val => strtoll val != 0
  | lastcontacted, val | deathtime, val | lastUp, val | lastRecovery, val => strtoll val

/-- The chain of `strcmp`s: the key a word of the line names, if it is one of ours. -/
def ofText (word : CStr) : Option SavedKey := all.find? fun key => key.text = word

end SavedKey

/-! ### Writing -/

def pairText (pair : CStr × CStr) : CStr := pair.1 ++ '=' :: pair.2 ++ [' ']

def nameKey : CStr := "name".toList

/-- A line without its newline: words, then the name. -/
def lineText (pairs : List (CStr × CStr)) (name : CStr) : CStr :=
  pairs.flatMap pairText ++ nameKey ++ '=' :: name

def savedPairs (d : HostInfo) : List (CStr × CStr) :=
  SavedKey.all.map fun key => (key.text, key.print (key.get d))

def stateLine (e : Element) : CStr := lineText (savedPairs e.data) e.uniqueName

def stateMagic : CStr := "sysmon-state".toList

/-- The first line, without its newline; the version is 1. -/
def stateHeader (written : Time) (count : UInt64) : CStr :=
  stateMagic ++ ' ' :: showNat 1 ++ ' ' :: showInt written.toInt ++ ' ' :: showNat count.toNat

/-- What `write_state` puts into the file at the time `written`. -/
def writeState (written : Time) (tree : List Element) : CStr :=
  (stateHeader written (UInt64.ofNat tree.length) :: tree.map stateLine).flatMap (· ++ ['\n'])

/-! ### Reading -/

/-- A line of the checkpoint as it was read. A field that was seen has its value. -/
structure SavedState where
  name : Option CStr
  values : (key : SavedKey) → Option key.Value

def SavedState.blank : SavedState := ⟨none, fun _ => none⟩

/-- The next word of a line: its key and value, and what follows it. `none` where the function
returns without having set either. -/
def nextPair (p : CStr) : Option ((CStr × CStr) × Option CStr) :=
  let p := p.dropWhile fun c => c = ' ' || c = '\t'
  match upTo '=' p, after '=' p with
  | some key, some rest =>
      if key = nameKey then some ((key, rest), none)
      else some ((key, (upTo ' ' rest).getD rest), after ' ' rest)
  | _, _ => none

def assign (s : SavedState) (pair : CStr × CStr) : SavedState :=
  if pair.1 = nameKey then { s with name := some pair.2 }
  else
    match SavedKey.ofText pair.1 with
    | some key => { s with values := Function.update s.values key (some (key.convert pair.2)) }
    | none => s

/-- The loop over the words of a line. `stale` is what `key` and `val` were left with: a word that
is none makes the loop take the last pair once more. Before the first pair they hold nothing that C
defines, and the model stops there. -/
def readPairs : Nat → Option (CStr × CStr) → Option CStr → SavedState → SavedState
  | 0, _, _, s => s
  | _ + 1, _, none, s => s
  | fuel + 1, stale, some p, s =>
      match nextPair p with
      | some (pair, rest) => readPairs fuel (some pair) rest (assign s pair)
      | none => (stale.map (assign s)).getD s

/-- One line. A blank one and one without a name give nothing. -/
def readEntry (line : CStr) : Option SavedState :=
  let line := line.takeWhile (· ≠ '\n')
  if line = [] then none
  else
    let s := readPairs (line.length + 1) none (some line) SavedState.blank
    if s.name.isSome then some s else none

/-- `sscanf` of the first line: the version, the time it was written, and the count. -/
def scanHeader (line : CStr) : Option (Int32 × Time × UInt64) :=
  if stateMagic.isPrefixOf line then do
    let (version, line) ← scanDecimal (line.drop stateMagic.length)
    let (written, line) ← scanDecimal line
    let (claimed, _) ← scanDecimal line
    return ((strtoll version).toInt32, strtoll written, strtoul claimed)
  else none

def largeTempbufSize : Nat := 4096

def stateMaxAge : Time := 12 * 60 * 60

/-- The saved entries, last line first. `none` is a file that is not there. -/
def readState (file : Option CStr) (now : Time) : List SavedState :=
  match file with
  | none => []
  | some text =>
      match fgetsAll (largeTempbufSize - 1) text.length text with
      | [] => []
      | header :: lines =>
          match scanHeader header with
          | none => []
          | some (version, written, _) =>
              if version ≠ 1 then []
              else if stateMaxAge < now - written then []
              else (lines.filterMap readEntry).reverse

/-- Only what the line carried. -/
def restore (s : SavedState) (d : HostInfo) : HostInfo :=
  SavedKey.all.foldl (fun d key => ((s.values key).map fun v => key.set v d).getD d) d

def loadState (file : Option CStr) (now : Time) (tree : List Element) : List Element :=
  let saved := readState file now
  tree.map fun here =>
    match saved.find? fun s => s.name = some here.uniqueName with
    | some s => { here with data := restore s here.data }
    | none => here

/-! ### The eleven keys -/

namespace SavedKey

theorem mem_all (key : SavedKey) : key ∈ all := by cases key <;> decide

theorem text_injective : Function.Injective text := by
  intro left right h
  revert h
  cases left <;> cases right <;> decide

/-- No key starts with a blank or holds a character of the line's own format. -/
theorem text_clean (key : SavedKey) :
    (∀ c ∈ key.text.head?, c ≠ ' ' ∧ c ≠ '\t') ∧ '=' ∉ key.text ∧ '\n' ∉ key.text := by
  refine ⟨fun c hc => ?_, ?_, ?_⟩
  · cases key <;> (obtain rfl := Option.some.inj hc; decide)
  · cases key <;> decide
  · cases key <;> decide

theorem text_ne_name (key : SavedKey) : key.text ≠ nameKey := by cases key <;> decide

theorem ofText_eq_some_iff {word : CStr} {key : SavedKey} :
    ofText word = some key ↔ word = key.text := by
  constructor
  · intro h
    have hfound : key.text = word := by simpa using List.find?_some h
    exact hfound.symm
  · intro h
    cases hfind : ofText word with
    | none => exact absurd (by simpa using h.symm) (List.find?_eq_none.mp hfind key (mem_all key))
    | some other =>
        have hfound : other.text = word := by simpa using List.find?_some hfind
        rw [text_injective (hfound.trans h)]

theorem get_set_self (key : SavedKey) (v : key.Value) (d : HostInfo) : key.get (key.set v d) = v := by
  cases key <;> rfl

theorem get_set_of_ne {key other : SavedKey} (h : other ≠ key) (v : key.Value) (d : HostInfo) :
    other.get (key.set v d) = other.get d := by
  cases key <;> cases other <;> first | rfl | exact absurd rfl h

/-- What is printed reads back. -/
theorem convert_print (key : SavedKey) (v : key.Value) : key.convert (key.print v) = v := by
  have hnone : ∀ c ∈ ([] : CStr).head?, c.isDigit = false := by simp
  have hlong : ∀ n : UInt64, strtoul (showNat n.toNat) = n := fun n => by
    simpa using strtoul_showNat hnone n
  have htime : ∀ i : Time, strtoll (showInt i.toInt) = i := fun i => by
    simpa using strtoll_showInt hnone i
  have hflag : ∀ b : Bool, (strtoll (showNat (if b then 1 else 0)) != 0) = b := by decide
  cases key with
  | lastcheck =>
      have hword := hlong (UInt32.toUInt64 v)
      rw [UInt32.toNat_toUInt64] at hword
      show (strtoul (showNat v.toNat)).toUInt32 = v
      rw [hword, UInt32.toUInt32_toUInt64]
  | downct | upct | totalchecked | totaldown => exact hlong v
  | contacted | acked => exact hflag v
  | lastcontacted | deathtime | lastUp | lastRecovery => exact htime v

theorem not_mem_print {c : Char} (h : c.isDigit = false) (hminus : c ≠ '-') (key : SavedKey)
    (v : key.Value) : c ∉ key.print v := by
  cases key with
  | lastcontacted | deathtime | lastUp | lastRecovery => exact not_mem_showInt h hminus _
  | _ => exact not_mem_showNat h _

end SavedKey

theorem get_foldl_restore {s : SavedState} {keys : List SavedKey} (hnodup : keys.Nodup)
    (key : SavedKey) (d : HostInfo) :
    key.get (keys.foldl (fun d key => ((s.values key).map fun v => key.set v d).getD d) d) =
      if key ∈ keys then (s.values key).getD (key.get d) else key.get d := by
  induction keys generalizing d with
  | nil => rfl
  | cons first keys ih =>
      obtain ⟨hfirst, hrest⟩ := List.nodup_cons.mp hnodup
      rw [List.foldl_cons, ih hrest]
      by_cases heq : key = first
      · subst heq
        rw [if_neg hfirst, if_pos List.mem_cons_self]
        cases s.values key with
        | none => rfl
        | some v => exact SavedKey.get_set_self key v d
      · have hsame : key.get (((s.values first).map fun v => first.set v d).getD d) = key.get d := by
          cases s.values first with
          | none => rfl
          | some v => exact SavedKey.get_set_of_ne heq v d
        simp [hsame, heq]

theorem get_restore (s : SavedState) (key : SavedKey) (d : HostInfo) :
    key.get (restore s d) = (s.values key).getD (key.get d) := by
  rw [restore, get_foldl_restore (by decide), if_pos (SavedKey.mem_all key)]

/-! ### Reading a line -/

/-- A word that the tokenizer takes as it stands: a key without `=` that starts with no blank and is
not `name`, and a value without a space. -/
structure GoodPair (pair : CStr × CStr) : Prop where
  start : ∀ c ∈ pair.1.head?, c ≠ ' ' ∧ c ≠ '\t'
  key : '=' ∉ pair.1
  notName : pair.1 ≠ nameKey
  value : ' ' ∉ pair.2

theorem dropBlanks_key {key rest : CStr} (hstart : ∀ c ∈ key.head?, c ≠ ' ' ∧ c ≠ '\t') :
    (key ++ '=' :: rest).dropWhile (fun c => c = ' ' || c = '\t') = key ++ '=' :: rest := by
  cases key with
  | nil => rfl
  | cons c key =>
      obtain ⟨hspace, htab⟩ := hstart c rfl
      simp [hspace, htab]

theorem nextPair_pair {pair : CStr × CStr} (h : GoodPair pair) (rest : CStr) :
    nextPair (pairText pair ++ rest) = some (pair, some rest) := by
  have htext : pairText pair ++ rest = pair.1 ++ '=' :: (pair.2 ++ ' ' :: rest) := by
    simp [pairText]
  simp only [nextPair, htext, dropBlanks_key h.start, upTo_append h.key, after_append h.key,
    if_neg h.notName, upTo_append h.value, after_append h.value, Option.getD_some]

theorem nextPair_name (name : CStr) :
    nextPair (nameKey ++ '=' :: name) = some ((nameKey, name), none) := by
  have hkey : '=' ∉ nameKey := by decide
  have hstart : ∀ c ∈ nameKey.head?, c ≠ ' ' ∧ c ≠ '\t' := by
    intro c hc
    obtain rfl := Option.some.inj hc
    decide
  simp only [nextPair, dropBlanks_key hstart, upTo_append hkey, after_append hkey, if_true]

theorem readPairs_line {pairs : List (CStr × CStr)} (hgood : ∀ pair ∈ pairs, GoodPair pair)
    {fuel : Nat} (hfuel : pairs.length < fuel) (stale : Option (CStr × CStr)) (name : CStr)
    (s : SavedState) :
    readPairs fuel stale (some (lineText pairs name)) s =
      { pairs.foldl assign s with name := some name } := by
  induction pairs generalizing fuel stale s with
  | nil =>
      obtain ⟨fuel, rfl⟩ : ∃ n, fuel = n + 1 := ⟨fuel - 1, by simp at hfuel; omega⟩
      have hline : lineText [] name = nameKey ++ '=' :: name := by simp [lineText]
      rw [readPairs, hline, nextPair_name]
      cases fuel <;> simp [readPairs, assign]
  | cons pair pairs ih =>
      obtain ⟨fuel, rfl⟩ : ∃ n, fuel = n + 1 := ⟨fuel - 1, by simp at hfuel; omega⟩
      have hline : lineText (pair :: pairs) name = pairText pair ++ lineText pairs name := by
        simp [lineText]
      rw [readPairs, hline, nextPair_pair (hgood pair List.mem_cons_self)]
      exact ih (fun p hp => hgood p (List.mem_cons_of_mem pair hp)) (by simp at hfuel; omega) _ _

/-- The last value a line gives for a key. -/
def lastValue (key : SavedKey) (pairs : List (CStr × CStr)) : Option CStr :=
  (pairs.reverse.find? fun pair => pair.1 = key.text).map Prod.snd

theorem foldl_assign_values {pairs : List (CStr × CStr)} (hgood : ∀ pair ∈ pairs, GoodPair pair)
    (key : SavedKey) :
    (pairs.foldl assign SavedState.blank).values key = (lastValue key pairs).map key.convert := by
  induction pairs using List.reverseRecOn with
  | nil => rfl
  | append_singleton pairs pair ih =>
      have hpair := hgood pair (by simp)
      have hinit := ih fun p hp => hgood p (List.mem_append_left _ hp)
      rw [List.foldl_concat, assign, if_neg hpair.notName, lastValue, List.reverse_concat,
        List.find?_cons]
      cases hkey : SavedKey.ofText pair.1 with
      | none =>
          have hne : pair.1 ≠ key.text := by
            intro heq
            rw [SavedKey.ofText_eq_some_iff.mpr heq] at hkey
            exact absurd hkey (by simp)
          simpa [hne, lastValue] using hinit
      | some found =>
          have htext := SavedKey.ofText_eq_some_iff.mp hkey
          by_cases heq : found = key
          · subst heq
            simp [htext]
          · have hne : pair.1 ≠ key.text := by
              rw [htext]
              exact fun hsame => heq (SavedKey.text_injective hsame)
            simpa [hne, lastValue, Function.update_of_ne (Ne.symm heq)] using hinit

theorem length_le_lineText (pairs : List (CStr × CStr)) (name : CStr) :
    pairs.length ≤ (lineText pairs name).length := by
  induction pairs with
  | nil => exact Nat.zero_le _
  | cons pair pairs ih =>
      have hline : lineText (pair :: pairs) name = pairText pair ++ lineText pairs name := by
        simp [lineText]
      have hpair : 1 ≤ (pairText pair).length := by
        simp only [pairText, List.length_append, List.length_cons]
        omega
      rw [hline, List.length_append, List.length_cons]
      omega

theorem readEntry_line {pairs : List (CStr × CStr)} {name : CStr}
    (hgood : ∀ pair ∈ pairs, GoodPair pair) (hline : '\n' ∉ lineText pairs name) :
    readEntry (lineText pairs name) =
      some { pairs.foldl assign SavedState.blank with name := some name } := by
  have htake : (lineText pairs name).takeWhile (· ≠ '\n') = lineText pairs name := by
    rw [List.takeWhile_eq_self_iff]
    intro c hc
    simpa using fun heq : c = '\n' => hline (heq ▸ hc)
  have hne : lineText pairs name ≠ [] := by simp [lineText]
  have hlen : pairs.length < (lineText pairs name).length + 1 :=
    Nat.lt_succ_of_le (length_le_lineText pairs name)
  simp only [readEntry, htake, if_neg hne, readPairs_line hgood hlen, Option.isSome_some, if_true]

theorem readEntry_newline {line : CStr} (h : '\n' ∉ line) :
    readEntry (line ++ ['\n']) = readEntry line := by
  have htake : (line ++ ['\n']).takeWhile (· ≠ '\n') = line.takeWhile (· ≠ '\n') := by
    have hself : line.takeWhile (· ≠ '\n') = line := by
      rw [List.takeWhile_eq_self_iff]
      intro c hc
      simpa using fun heq : c = '\n' => h (heq ▸ hc)
    rw [takeWhile_ne_append h, hself]
  simp only [readEntry, htake]

/-! ### Reading the file -/

theorem scanHeader_stateHeader (written : Time) (count : UInt64) :
    scanHeader (stateHeader written count ++ ['\n']) = some (1, written, count) := by
  have hspace : ∀ rest : CStr, ∀ c ∈ (' ' :: rest).head?, c.isDigit = false := by simp
  have hnewline : ∀ c ∈ ['\n'].head?, c.isDigit = false := by simp
  have hend : ∀ c ∈ ([] : CStr).head?, c.isDigit = false := by simp
  have hversion := scanDecimal_showNat
    (hspace (showInt written.toInt ++ ' ' :: showNat count.toNat ++ ['\n'])) 1
  have hwritten := scanDecimal_showInt (hspace (showNat count.toNat ++ ['\n'])) written.toInt
  have hcount := scanDecimal_showNat hnewline count.toNat
  have hone : (strtoll (showNat 1)).toInt32 = 1 := by decide
  have htime : strtoll (showInt written.toInt) = written := by
    simpa using strtoll_showInt hend written
  have hclaimed : strtoul (showNat count.toNat) = count := by
    simpa using strtoul_showNat hend count
  have hmagic : stateHeader written count ++ ['\n'] = stateMagic ++
      (' ' :: showNat 1 ++ ' ' :: (showInt written.toInt ++ ' ' :: showNat count.toNat ++ ['\n'])) := by
    simp [stateHeader]
  have hstarts : stateMagic.isPrefixOf (stateHeader written count ++ ['\n']) = true := by
    rw [hmagic, List.isPrefixOf_iff_prefix]
    exact List.prefix_append _ _
  rw [scanHeader, if_pos hstarts, hmagic, List.drop_left, hversion]
  simp only [List.cons_append] at hwritten hcount
  simp [hwritten, hcount, hone, htime, hclaimed]

theorem length_showNat_lt (n : Nat) (h : n < 10 ^ 20) : (showNat n).length ≤ 20 :=
  (Nat.length_toDigits_le_iff (by decide) (by decide)).mpr h

theorem length_stateHeader (written : Time) (count : UInt64) :
    (stateHeader written count).length < largeTempbufSize - 1 := by
  have hcount : (showNat count.toNat).length ≤ 20 := by
    have := count.toNat_lt
    exact length_showNat_lt _ (by omega)
  have hwritten : (showInt written.toInt).length ≤ 21 := by
    have hlow := written.le_toInt
    have hhigh := written.toInt_lt
    have habs : (showNat written.toInt.natAbs).length ≤ 20 := length_showNat_lt _ (by omega)
    rw [showInt]
    split
    · simp only [List.length_cons]
      omega
    · omega
  have hone : (showNat 1).length = 1 := by decide
  have hmagic : stateMagic.length = 12 := by decide
  simp only [stateHeader, List.length_append, List.length_cons, hone, hmagic, largeTempbufSize]
  omega

theorem newline_not_mem_stateHeader (written : Time) (count : UInt64) :
    '\n' ∉ stateHeader written count := by
  have hmagic : '\n' ∉ stateMagic := by decide
  have hnat : ∀ n, '\n' ∉ showNat n := not_mem_showNat (by decide)
  have hint : '\n' ∉ showInt written.toInt := not_mem_showInt (by decide) (by decide) _
  simp [stateHeader, hmagic, hnat, hint]

/-- A file of a fresh header and lines that fit is read line by line. -/
theorem readState_lines {written now : Time} {count : UInt64} {lines : List CStr}
    (hlines : ∀ line ∈ lines, '\n' ∉ line ∧ line.length < largeTempbufSize)
    (hage : ¬ stateMaxAge < now - written) :
    readState (some ((stateHeader written count :: lines).flatMap (· ++ ['\n']))) now =
      (lines.filterMap readEntry).reverse := by
  set tail := lines.flatMap (· ++ ['\n']) with htail
  set header := stateHeader written count with hheader
  have htext : (header :: lines).flatMap (· ++ ['\n']) = header ++ '\n' :: tail := by simp [htail]
  have hlength : (header ++ '\n' :: tail).length = (header.length + tail.length) + 1 := by
    simp only [List.length_append, List.length_cons]
    omega
  have hread : fgets (largeTempbufSize - 1) (header ++ '\n' :: tail) = (header ++ ['\n'], tail) :=
    fgets_line tail (newline_not_mem_stateHeader written count) (length_stateHeader written count)
  have hentries : (fgetsAll (largeTempbufSize - 1) (header.length + tail.length) tail).filterMap
      readEntry = lines.filterMap readEntry := by
    apply fgetsAll_filterMap (by decide) (by decide)
    · exact fun line hline => readEntry_newline (hlines line hline).1
    · intro line hline
      obtain ⟨hnewline, hlt⟩ := hlines line hline
      exact ⟨hnewline, by rw [largeTempbufSize] at hlt ⊢; omega⟩
    · show tail.length ≤ header.length + tail.length
      omega
  rw [htext, readState, hlength, fgetsAll_cons (by simp) hread]
  simp only [hheader, scanHeader_stateHeader]
  rw [if_neg (by decide), if_neg hage, hentries]

/-! ### The round trip -/

theorem goodPair_savedPairs (d : HostInfo) : ∀ pair ∈ savedPairs d, GoodPair pair := by
  intro pair hpair
  obtain ⟨key, -, rfl⟩ := List.mem_map.mp hpair
  exact {
    start := key.text_clean.1
    key := key.text_clean.2.1
    notName := key.text_ne_name
    value := SavedKey.not_mem_print (by decide) (by decide) key _ }

theorem newline_not_mem_stateLine {e : Element} (h : '\n' ∉ e.uniqueName) : '\n' ∉ stateLine e := by
  have hpairs : '\n' ∉ (savedPairs e.data).flatMap pairText := by
    simp only [List.mem_flatMap, savedPairs, List.mem_map]
    rintro ⟨_, ⟨key, -, rfl⟩, hmem⟩
    have hprint : '\n' ∉ key.print (key.get e.data) :=
      SavedKey.not_mem_print (by decide) (by decide) key _
    simp [pairText, key.text_clean.2.2, hprint] at hmem
  have hname : '\n' ∉ nameKey := by decide
  simp [stateLine, lineText, hpairs, hname, h]

theorem lastValue_savedPairs (key : SavedKey) (d : HostInfo) :
    lastValue key (savedPairs d) = some (key.print (key.get d)) := by
  cases key <;> rfl

/-- The saved fields of one object put onto another: these eleven and no others. -/
def carryOver (old d : HostInfo) : HostInfo :=
  { d with
    lastcheck := old.lastcheck
    downct := old.downct
    upct := old.upct
    totalchecked := old.totalchecked
    totaldown := old.totaldown
    contacted := old.contacted
    acked := old.acked
    lastcontacted := old.lastcontacted
    deathtime := old.deathtime
    lastUp := old.lastUp
    lastRecovery := old.lastRecovery }

theorem restore_eq_carryOver {s : SavedState} {old : HostInfo}
    (h : ∀ key, s.values key = some (key.get old)) (d : HostInfo) :
    restore s d = carryOver old d := by
  simp only [restore, SavedKey.all, List.foldl_cons, List.foldl_nil, h, Option.map_some,
    Option.getD_some, SavedKey.set, SavedKey.get, carryOver]

/-- What the reader makes of the line of an object. -/
def savedOf (e : Element) : SavedState := ⟨some e.uniqueName, fun key => some (key.get e.data)⟩

theorem readEntry_stateLine {e : Element} (h : '\n' ∉ e.uniqueName) :
    readEntry (stateLine e) = some (savedOf e) := by
  have hvalues : ((savedPairs e.data).foldl assign SavedState.blank).values =
      fun key => some (key.get e.data) := by
    funext key
    rw [foldl_assign_values (goodPair_savedPairs e.data), lastValue_savedPairs, Option.map_some,
      SavedKey.convert_print]
  rw [stateLine, readEntry_line (goodPair_savedPairs e.data) (newline_not_mem_stateLine h), savedOf,
    ← hvalues]

theorem readState_writeState {written now : Time} {objs : List Element}
    (hname : ∀ e ∈ objs, '\n' ∉ e.uniqueName)
    (hfit : ∀ e ∈ objs, (stateLine e).length < largeTempbufSize)
    (hage : ¬ stateMaxAge < now - written) :
    readState (some (writeState written objs)) now = (objs.map savedOf).reverse := by
  rw [writeState, readState_lines _ hage]
  · rw [List.filterMap_map, ← List.filterMap_eq_map]
    congr 1
    refine List.filterMap_congr fun e he => ?_
    rw [Function.comp_apply, Function.comp_apply, readEntry_stateLine (hname e he)]
  · intro line hline
    obtain ⟨e, he, rfl⟩ := List.mem_map.mp hline
    exact ⟨newline_not_mem_stateLine (hname e he), hfit e he⟩

/-- Where at most one entry answers, the order of the search does not matter. -/
theorem find?_reverse_of_nodup {objs : List Element} (hnodup : (objs.map Element.uniqueName).Nodup)
    (name : CStr) :
    objs.reverse.find? (fun e => e.uniqueName = name) = objs.find? fun e => e.uniqueName = name := by
  induction objs with
  | nil => rfl
  | cons e objs ih =>
      obtain ⟨hfirst, hrest⟩ := List.nodup_cons.mp hnodup
      rw [List.reverse_cons, List.find?_append, ih hrest, List.find?_cons, List.find?_cons]
      by_cases heq : e.uniqueName = name
      · have hnone : objs.find? (fun e => e.uniqueName = name) = none := by
          rw [List.find?_eq_none]
          intro other hother
          have hne : other.uniqueName ≠ name := by
            intro hsame
            exact hfirst (List.mem_map.mpr ⟨other, hother, hsame.trans heq.symm⟩)
          simpa using hne
        simp [heq, hnone]
      · simp [heq]

/-- The tree a checkpoint of `objs` makes of another tree. -/
def carriedOver (objs : List Element) (here : Element) : Element :=
  match objs.find? fun e => e.uniqueName = here.uniqueName with
  | some e => { here with data := carryOver e.data here.data }
  | none => here

/-- The round trip, on any tree: an object whose name was saved gets its eleven fields back and
nothing else, and every other object is left as it is. And a line is its own: whatever words it
holds, a key of ours takes the last value the line gives for it, and without one the field stays. -/
theorem loadState_writeState {written now : Time} {objs : List Element}
    (hnodup : (objs.map Element.uniqueName).Nodup) (hname : ∀ e ∈ objs, '\n' ∉ e.uniqueName)
    (hfit : ∀ e ∈ objs, (stateLine e).length < largeTempbufSize)
    (hage : ¬ stateMaxAge < now - written) :
    (∀ tree, loadState (some (writeState written objs)) now tree = tree.map (carriedOver objs)) ∧
      ∀ (pairs : List (CStr × CStr)) (name : CStr), (∀ pair ∈ pairs, GoodPair pair) →
        '\n' ∉ lineText pairs name →
        ∃ s, readEntry (lineText pairs name) = some s ∧ s.name = some name ∧
          ∀ (key : SavedKey) (d : HostInfo), key.get (restore s d) =
            ((lastValue key pairs).map key.convert).getD (key.get d) := by
  constructor
  · intro tree
    simp only [loadState, readState_writeState hname hfit hage]
    refine List.map_congr_left fun here _ => ?_
    have hfind : ((objs.map savedOf).reverse.find? fun s => s.name = some here.uniqueName) =
        (objs.find? fun e => e.uniqueName = here.uniqueName).map savedOf := by
      rw [← List.map_reverse, List.find?_map, ← find?_reverse_of_nodup hnodup]
      congr 2
      funext e
      simp [savedOf]
    rw [hfind, carriedOver]
    cases objs.find? fun e => e.uniqueName = here.uniqueName with
    | none => rfl
    | some e =>
        show { here with data := restore (savedOf e) here.data } = _
        rw [restore_eq_carryOver fun _ => rfl]
  · intro pairs name hgood hline
    refine ⟨_, readEntry_line hgood hline, rfl, fun key d => ?_⟩
    rw [get_restore]
    show ((pairs.foldl assign SavedState.blank).values key).getD _ = _
    rw [foldl_assign_values hgood]

/-- Two objects whose names hold the format's own words, saved in the middle of an outage. -/
def savedTree : List Element :=
  [⟨"core router".toList, { HostInfo.zeroed with
      lastcheck := 4, downct := 7, totaldown := 18446744073709551615, contacted := true,
      deathtime := -1 }, []⟩,
    ⟨"a=b name=core".toList, { HostInfo.zeroed with upct := 42, lastUp := 1700000000 }, []⟩]

theorem loadState_writeState_two_objects :
    loadState (some (writeState 1000 savedTree)) 2000
        [⟨"a=b name=core".toList, .zeroed, []⟩, ⟨"new".toList, .zeroed, []⟩,
          ⟨"core router".toList, .zeroed, []⟩] =
      [⟨"a=b name=core".toList, { HostInfo.zeroed with upct := 42, lastUp := 1700000000 }, []⟩,
        ⟨"new".toList, .zeroed, []⟩,
        ⟨"core router".toList, { HostInfo.zeroed with
          lastcheck := 4, downct := 7, totaldown := 18446744073709551615, contacted := true,
          deathtime := -1 }, []⟩] := by
  have hload : ∀ tree, loadState (some (writeState 1000 savedTree)) 2000 tree =
      tree.map (carriedOver savedTree) :=
    (loadState_writeState (by decide) (by decide) (by decide +kernel) (by decide)).1
  rw [hload]
  decide

end Sysmon
