import Sysmon.Lib.GoBytes
import Sysmon.Lib.GoText

/-!
# How long the daemon has been up

The daemon answers `UPTIME` with the days, hours, minutes and seconds since it was started (`send_uptime` of `srvclient.c`,
`str_difftime_sec` of `lib.c`). The web application looks for a number before each of the four letters
(`parseUptimeString` of `service.go`). It reads the very number of seconds, for as long as the daemon's own arithmetic does not
overflow.
-/

namespace Sysmon.Uptime

open CText GoText
open GoSpace.Spaces (trimSpace_append_short trimSpace_of_zero)

/-! ### The daemon -/

/-- A value of an `int`, if it is one. -/
def int (x : Int) : Option Int := if -2 ^ 31 ≤ x ∧ x < 2 ^ 31 then some x else none

/-- `%-2.2d`. -/
def twoDigits (x : Int) : List Char :=
  let digits := if x.natAbs < 10 then '0' :: showNat x.natAbs else showNat x.natAbs
  if x < 0 then '-' :: digits else digits

/-- `str_difftime_sec`. Nothing where an `int` overflows. -/
def strDifftimeSec (timedown now : Int) : Option (List Char) :=
  if timedown = 0 then some "Never".toList
  else do
    let dd ← int (((now - timedown).tdiv 86400).tmod 86400)
    let days ← int (dd * 86400)
    let hh ← int (((now - timedown - days).tdiv 3600).tmod 3600)
    let hours ← int (hh * 3600)
    let past ← int (days + hours)
    let mm ← int (((now - timedown - past).tdiv 60).tmod 60)
    let ss ← int ((now - timedown).tmod 60)
    return twoDigits dd ++ 'd' :: (twoDigits hh ++ 'h' :: (twoDigits mm ++ 'm' :: (twoDigits ss ++ ['s'])))

/-- `send_uptime`. -/
def sendUptime (boottime now : Int) : Option (List Char) :=
  (strDifftimeSec boottime now).map fun text => "Uptime = ".toList ++ text ++ "\r\n".toList

/-! ### The web application -/

/-- What `(\d+)c` finds first, for a character `c`. -/
def findUnit (c : Char) : List Char → Option (List Char)
  | [] => none
  | d :: s =>
      if d.isDigit then
        if (s.dropWhile Char.isDigit).head? = some c then some (d :: s.takeWhile Char.isDigit) else findUnit c s
      else findUnit c s

/-- A unit in seconds, 0 where there is none or the number does not fit. -/
def unitSeconds (c : Char) (factor : Int) (s : List Char) : Int := ((findUnit c s).bind GoBytes.atoi).getD 0 * factor

/-- The four units. The sum is one of `int64`. -/
def totalSeconds (s : List Char) : Int :=
  (unitSeconds 'd' 86400 s + unitSeconds 'h' 3600 s + unitSeconds 'm' 60 s + unitSeconds 's' 1 s).bmod (2 ^ 64)

/-- `parseUptimeString`, the seconds. -/
def parseUptimeString (uptimeStr : List Char) : Int :=
  let s := trimSpace (GoBytes.trimPrefix "Uptime = ".toList uptimeStr)
  match if "sec".toList <:+: s then (fields s).head?.bind GoBytes.atoi else none with
  | some secs => secs
  | none => if 0 < totalSeconds s then totalSeconds s else 0

/-! ### Numbers with two digits -/

/-- `twoDigits` of a number that is not negative. -/
def padded (n : Nat) : List Char := if n < 10 then '0' :: showNat n else showNat n

theorem twoDigits_natCast (n : Nat) : twoDigits n = padded n := by
  rw [twoDigits, if_neg (by omega), Int.natAbs_natCast, padded]

theorem isDigit_of_mem_padded {c : Char} {n : Nat} (h : c ∈ padded n) : c.isDigit = true := by
  rw [padded] at h
  split at h
  · obtain rfl | h := List.mem_cons.mp h
    · decide
    · exact isDigit_of_mem_showNat h
  · exact isDigit_of_mem_showNat h

theorem digits_padded (n : Nat) : digits (padded n) = n := by
  have hshow : digits (showNat n) = n := by
    have happ := @digits_append n [] (by simp)
    rwa [List.append_nil] at happ
  have hzero : digits ('0' :: showNat n) = digits (showNat n) := by
    rw [digits, digits, List.takeWhile_cons_of_pos (by decide), Nat.ofDigitChars_cons]
    rfl
  rw [padded]
  split
  · rw [hzero, hshow]
  · exact hshow

theorem padded_ne_nil (n : Nat) : padded n ≠ [] := by
  rw [padded]
  split
  · simp
  · exact showNat_ne_nil n

theorem atoi_padded {n : Nat} (h : n < 2 ^ 63) : GoBytes.atoi (padded n) = some (n : Int) := by
  have hsign : sign (padded n) = (false, padded n) := by
    cases hpadded : padded n with
    | nil => exact absurd hpadded (padded_ne_nil n)
    | cons c s => exact sign_of_isDigit s (isDigit_of_mem_padded (hpadded ▸ List.mem_cons_self))
  have hall : (padded n).all Char.isDigit = true := List.all_eq_true.mpr fun c hc => isDigit_of_mem_padded hc
  simp only [GoBytes.atoi, hsign, padded_ne_nil, hall, digits_padded, Bool.true_eq_false, or_self, if_false,
    Bool.false_eq_true]
  rw [if_neg (by omega)]

/-! ### Units -/

theorem findUnit_here {word : List Char} (hne : word ≠ []) (hword : ∀ c ∈ word, c.isDigit = true) {c : Char}
    (hc : c.isDigit = false) (rest : List Char) : findUnit c (word ++ c :: rest) = some word := by
  obtain ⟨d, word, rfl⟩ := List.exists_cons_of_ne_nil hne
  have hrest : ∀ e ∈ word, e.isDigit = true := fun e he => hword e (List.mem_cons_of_mem d he)
  rw [List.cons_append, findUnit, if_pos (hword d List.mem_cons_self), List.dropWhile_append_of_pos hrest,
    List.takeWhile_append_of_pos hrest, List.dropWhile_cons_of_neg (by simp [hc]), List.takeWhile_cons_of_neg (by simp [hc])]
  simp

theorem findUnit_skip {word : List Char} (hword : ∀ c ∈ word, c.isDigit = true) {c other : Char}
    (hother : other.isDigit = false) (hne : other ≠ c) (rest : List Char) : findUnit c (word ++ other :: rest) = findUnit c rest := by
  induction word with
  | nil => rw [List.nil_append, findUnit, if_neg (by simp [hother])]
  | cons d word ih =>
      have hrest : ∀ e ∈ word, e.isDigit = true := fun e he => hword e (List.mem_cons_of_mem d he)
      rw [List.cons_append, findUnit, if_pos (hword d List.mem_cons_self), List.dropWhile_append_of_pos hrest,
        List.dropWhile_cons_of_neg (by simp [hother]), if_neg (by simpa using hne)]
      exact ih hrest

/-! ### There and back -/

/-- What the daemon prints of an uptime. -/
def uptimeText (dd hh mm ss : Nat) : List Char :=
  padded dd ++ 'd' :: (padded hh ++ 'h' :: (padded mm ++ 'm' :: (padded ss ++ ['s'])))

/-- Nothing overflows in less than 2 ^ 31 seconds. -/
theorem strDifftimeSec_eq {timedown now : Int} {n : Nat} (hzero : timedown ≠ 0) (hn : now - timedown = n) (hlt : n < 2 ^ 31) :
    strDifftimeSec timedown now = some (uptimeText (n / 86400) (n / 3600 % 24) (n / 60 % 60) (n % 60)) := by
  have hfits : ∀ k : Nat, k < 2 ^ 31 → int k = some (k : Int) := fun k hk => if_pos (by omega)
  have hdd : ((n : Int).tdiv 86400).tmod 86400 = (n / 86400 : Nat) := by
    rw [Int.tdiv_eq_ediv_of_nonneg (by omega), Int.tmod_eq_emod_of_nonneg (by omega)]
    omega
  have hdays : ((n / 86400 : Nat) : Int) * 86400 = (n / 86400 * 86400 : Nat) := by omega
  have hhh : (((n : Int) - (n / 86400 * 86400 : Nat)).tdiv 3600).tmod 3600 = (n / 3600 % 24 : Nat) := by
    rw [Int.tdiv_eq_ediv_of_nonneg (by omega), Int.tmod_eq_emod_of_nonneg (by omega)]
    omega
  have hhours : ((n / 3600 % 24 : Nat) : Int) * 3600 = (n / 3600 % 24 * 3600 : Nat) := by omega
  have hpast : ((n / 86400 * 86400 : Nat) : Int) + (n / 3600 % 24 * 3600 : Nat) = (n / 3600 * 3600 : Nat) := by omega
  have hmm : (((n : Int) - (n / 3600 * 3600 : Nat)).tdiv 60).tmod 60 = (n / 60 % 60 : Nat) := by
    rw [Int.tdiv_eq_ediv_of_nonneg (by omega), Int.tmod_eq_emod_of_nonneg (by omega)]
    omega
  have hss : (n : Int).tmod 60 = (n % 60 : Nat) := by
    rw [Int.tmod_eq_emod_of_nonneg (by omega)]
    omega
  rw [strDifftimeSec, if_neg hzero, hn, hdd]
  simp only [Option.bind_eq_bind]
  rw [hfits (n / 86400) (by omega), Option.bind_some, hdays, hfits (n / 86400 * 86400) (by omega), Option.bind_some, hhh,
    hfits (n / 3600 % 24) (by omega), Option.bind_some, hhours, hfits (n / 3600 % 24 * 3600) (by omega),
    Option.bind_some, hpast,
    hfits (n / 3600 * 3600) (by omega), Option.bind_some, hmm, hfits (n / 60 % 60) (by omega), Option.bind_some, hss,
    hfits (n % 60) (by omega), Option.bind_some, twoDigits_natCast, twoDigits_natCast, twoDigits_natCast, twoDigits_natCast,
    Option.pure_def, uptimeText]

/-- Every unit is read as it was printed. -/
theorem totalSeconds_uptimeText {dd hh mm ss : Nat} (hlt : dd * 86400 + hh * 3600 + mm * 60 + ss < 2 ^ 31) :
    totalSeconds (uptimeText dd hh mm ss) = (dd * 86400 + hh * 3600 + mm * 60 + ss : Nat) := by
  have hdigit : ∀ k : Nat, ∀ c ∈ padded k, c.isDigit = true := fun k c hc => isDigit_of_mem_padded hc
  have hd : findUnit 'd' (uptimeText dd hh mm ss) = some (padded dd) :=
    findUnit_here (padded_ne_nil dd) (hdigit dd) (by decide) _
  have hh' : findUnit 'h' (uptimeText dd hh mm ss) = some (padded hh) := by
    rw [uptimeText, findUnit_skip (hdigit dd) (by decide) (by decide)]
    exact findUnit_here (padded_ne_nil hh) (hdigit hh) (by decide) _
  have hm : findUnit 'm' (uptimeText dd hh mm ss) = some (padded mm) := by
    rw [uptimeText, findUnit_skip (hdigit dd) (by decide) (by decide), findUnit_skip (hdigit hh) (by decide) (by decide)]
    exact findUnit_here (padded_ne_nil mm) (hdigit mm) (by decide) _
  have hs : findUnit 's' (uptimeText dd hh mm ss) = some (padded ss) := by
    rw [uptimeText, findUnit_skip (hdigit dd) (by decide) (by decide), findUnit_skip (hdigit hh) (by decide) (by decide),
      findUnit_skip (hdigit mm) (by decide) (by decide)]
    exact findUnit_here (padded_ne_nil ss) (hdigit ss) (by decide) _
  simp only [totalSeconds, unitSeconds, hd, hh', hm, hs, Option.bind_some, atoi_padded (show dd < 2 ^ 63 by omega),
    atoi_padded (show hh < 2 ^ 63 by omega), atoi_padded (show mm < 2 ^ 63 by omega), atoi_padded (show ss < 2 ^ 63 by omega),
    Option.getD_some]
  rw [Int.bmod_eq_of_le (by omega) (by omega)]
  omega

theorem notMem_uptimeText {c : Char} (hdigit : c.isDigit = false) (hletter : c ∉ ['d', 'h', 'm', 's']) (dd hh mm ss : Nat) :
    c ∉ uptimeText dd hh mm ss := by
  have hpadded : ∀ n : Nat, c ∉ padded n := fun n hc => absurd (isDigit_of_mem_padded hc) (by simp [hdigit])
  simp only [List.mem_cons, List.not_mem_nil, or_false, not_or] at hletter
  simp [uptimeText, hpadded, hletter]

/-- White space around a text that neither begins nor ends with it. -/
theorem trimSpace_between {first last : Char} (hfirst : isspace first = false) (hlast : isspace last = false)
    (between : List Char) {blanks : List Char} (hblanks : ∀ c ∈ blanks, isspace c = true) :
    trimSpace (first :: (between ++ last :: blanks)) = first :: (between ++ [last]) := by
  have hback : (first :: (between ++ [last])).reverse = last :: (between.reverse ++ [first]) := by simp
  have hkept : asciiSpaces.trimSpace (first :: (between ++ [last]) ++ blanks) = first :: (between ++ [last]) := by
    rw [trimSpace_append_short (List.all_eq_true.mpr hblanks)]
    refine trimSpace_of_zero (if_neg (Bool.eq_false_iff.mp hfirst)) ?_
    rw [hback]
    exact if_neg (Bool.eq_false_iff.mp hlast)
  rw [trimSpace, ← hkept]
  simp

/-- Without its last letter. -/
def uptimeFront (dd hh mm ss : Nat) : List Char :=
  padded dd ++ 'd' :: (padded hh ++ 'h' :: (padded mm ++ 'm' :: padded ss))

theorem uptimeText_eq (dd hh mm ss : Nat) : uptimeText dd hh mm ss = uptimeFront dd hh mm ss ++ ['s'] := by
  simp [uptimeText, uptimeFront]

theorem trimSpace_uptimeText (dd hh mm ss : Nat) : trimSpace (uptimeText dd hh mm ss) = uptimeText dd hh mm ss := by
  obtain ⟨c, rest, hrest⟩ := List.exists_cons_of_ne_nil (padded_ne_nil dd)
  have hc : isspace c = false := isspace_eq_false_of_isDigit (isDigit_of_mem_padded (hrest ▸ List.mem_cons_self))
  rw [uptimeText_eq, uptimeFront, hrest]
  simpa using trimSpace_between hc (show isspace 's' = false by decide)
    (rest ++ 'd' :: (padded hh ++ 'h' :: (padded mm ++ 'm' :: padded ss))) (show ∀ c ∈ [], isspace c = true by simp)

/-- The web application reads the seconds the daemon has been up, for 68 years. -/
theorem parseUptimeString_sendUptime {boottime now : Int} (hboot : boottime ≠ 0) (hle : boottime ≤ now)
    (hlt : now - boottime < 2 ^ 31) :
    (sendUptime boottime now).map (fun line => parseUptimeString (trimSpace line)) = some (now - boottime) := by
  obtain ⟨n, hn⟩ : ∃ n : Nat, now - boottime = n := ⟨(now - boottime).toNat, by omega⟩
  obtain ⟨text, htext⟩ : ∃ text, text = uptimeText (n / 86400) (n / 3600 % 24) (n / 60 % 60) (n % 60) := ⟨_, rfl⟩
  have hline : trimSpace ("Uptime = ".toList ++ text ++ "\r\n".toList) = "Uptime = ".toList ++ text := by
    rw [htext, uptimeText_eq]
    simpa using trimSpace_between (show isspace 'U' = false by decide) (show isspace 's' = false by decide)
      ("ptime = ".toList ++ uptimeFront (n / 86400) (n / 3600 % 24) (n / 60 % 60) (n % 60))
      (show ∀ c ∈ "\r\n".toList, isspace c = true by decide)
  have hprefix : GoBytes.trimPrefix "Uptime = ".toList ("Uptime = ".toList ++ text) = text := by
    rw [GoBytes.trimPrefix, if_pos (List.isPrefixOf_iff_prefix.mpr (List.prefix_append _ _)), List.drop_left]
  have hsec : ¬"sec".toList <:+: text := fun hinfix =>
    notMem_uptimeText (by decide) (by decide) _ _ _ _ (htext ▸ hinfix.subset (show 'e' ∈ "sec".toList by decide))
  have htotal : totalSeconds text = n := by
    rw [htext, totalSeconds_uptimeText (by omega)]
    omega
  rw [sendUptime, strDifftimeSec_eq hboot hn (by omega), ← htext]
  simp only [Option.map_some]
  rw [hline, parseUptimeString, hprefix, htext, trimSpace_uptimeText, ← htext, if_neg hsec, htotal, hn]
  dsimp only
  split
  · rfl
  · exact congrArg some (by omega)

theorem parseUptimeString_sendUptime_day :
    (sendUptime 1000 88461).map (fun line => parseUptimeString (trimSpace line)) = some (88461 - 1000) :=
  parseUptimeString_sendUptime (by decide) (by decide) (by decide)

/-- A clock that was set back past the start of the daemon makes it look as if it had just been started. -/
example : (sendUptime 1000 995).map (fun line => parseUptimeString (trimSpace line)) = some 5 := by decide

end Sysmon.Uptime
