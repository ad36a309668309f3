import Sysmon.Parser.Rules

/-!
# Variables in a string

`do_set_replace` of `loadconfig.c`. A variable is a `$` and a name, which ends at white space or a comma. The result of
the last look-up says whether anything was replaced, and a `$` is not copied even if the name behind it is not that of
a variable. So a string with a name that is not set comes out right only if none of its names is set.
-/

namespace Sysmon.Parser

open CText

/-! ### The code -/

/-- What is taken for the name behind a `$`. -/
def nameBehind (rest : CStr) : CStr := rest.takeWhile fun c => !isspace c && c ≠ ','

/-- The names that are looked up, with what is found, after so many characters that are skipped. -/
def lookups (sets : List (CStr × CStr)) : Nat → CStr → List (CStr × Option CStr)
  | _, [] => []
  | skip + 1, _ :: rest => lookups sets skip rest
  | 0, c :: rest =>
      if c = '$' then
        let word := nameBehind rest
        match findValue sets word with
        | some value => (word, some value) :: lookups sets word.length rest
        | none => (word, none) :: lookups sets 0 rest
      else lookups sets 0 rest

/-- `do_set_replace`, with its `NULL` as nothing. A name that does not fit `buff` is copied past its end, which gives no
result that C defines. -/
def setReplace (sets : List (CStr × CStr)) (string : CStr) : Option (Option CStr) :=
  if ∃ lookup ∈ lookups sets 0 string, maxStrlen ≤ lookup.1.length then none
  else some ((replaceFrom sets 0 string [] none).2.map fun _ => (replaceFrom sets 0 string [] none).1)

theorem doSetReplace_eq (sets : List (CStr × CStr)) (string : CStr) {result : Option CStr}
    (h : setReplace sets string = some result) : doSetReplace sets string = result.getD string := by
  rw [setReplace] at h
  split at h
  · exact nomatch h
  · obtain rfl := Option.some.inj h
    rw [doSetReplace]
    rcases replaceFrom sets 0 string [] none with ⟨new, _ | value⟩ <;> rfl

/-! ### What is to come of it -/

/-- Every variable that is set is replaced, and everything else stays. -/
def expandFrom (sets : List (CStr × CStr)) : Nat → CStr → CStr
  | _, [] => []
  | skip + 1, _ :: rest => expandFrom sets skip rest
  | 0, c :: rest =>
      if c = '$' then
        let word := nameBehind rest
        match findValue sets word with
        | some value => value ++ expandFrom sets word.length rest
        | none => c :: expandFrom sets 0 rest
      else c :: expandFrom sets 0 rest

def expand (sets : List (CStr × CStr)) (string : CStr) : CStr := expandFrom sets 0 string

/-- Some variable of the string is set. -/
def HasVariable (sets : List (CStr × CStr)) (string : CStr) : Prop :=
  ∃ lookup ∈ lookups sets 0 string, lookup.2.isSome = true

instance (sets : List (CStr × CStr)) (string : CStr) : Decidable (HasVariable sets string) :=
  inferInstanceAs (Decidable (∃ lookup ∈ lookups sets 0 string, _))

/-! ### The loop -/

section loop

variable {sets : List (CStr × CStr)}

/-- The last look-up decides. -/
theorem replaceFrom_snd (skip : Nat) (string new : CStr) (repl : Option CStr) :
    (replaceFrom sets skip string new repl).2 = ((lookups sets skip string).getLast?.map Prod.snd).getD repl := by
  have hlast : ∀ (first : CStr × Option CStr) (rest : List (CStr × Option CStr)) (repl : Option CStr),
      ((first :: rest).getLast?.map Prod.snd).getD repl = (rest.getLast?.map Prod.snd).getD first.2 := by
    intro first rest repl
    cases rest with
    | nil => rfl
    | cons second rest => rw [List.getLast?_cons_cons, List.getLast?_cons]; rfl
  fun_induction replaceFrom sets skip string new repl with
  | case1 => rfl
  | case2 new repl skip c rest ih => exact ih
  | case3 rest new repl word value hvalue ih =>
      have hfind : findValue sets (nameBehind rest) = some value := hvalue
      simp only [lookups, if_true, hfind]
      rw [hlast]
      exact ih
  | case4 rest new repl word hnone ih =>
      have hfind : findValue sets (nameBehind rest) = none := hnone
      simp only [lookups, if_true, hfind]
      rw [hlast]
      exact ih
  | case5 c rest new repl hc ih => rw [lookups, if_neg hc, ih]

/-- Nothing gets longer, and nothing gets lost only if every variable is set and there is room for all of it. -/
theorem replaceFrom_length (skip : Nat) (string : CStr) {new : CStr} (repl : Option CStr)
    (hnew : new.length < maxStrlen) :
    (replaceFrom sets skip string new repl).1.length ≤ new.length + (expandFrom sets skip string).length ∧
      (new.length + (expandFrom sets skip string).length ≤ (replaceFrom sets skip string new repl).1.length →
        (∀ lookup ∈ lookups sets skip string, lookup.2.isSome = true) ∧
          new.length + (expandFrom sets skip string).length < maxStrlen) := by
  fun_induction replaceFrom sets skip string new repl with
  | case1 => simpa [expandFrom, lookups] using hnew
  | case2 new repl skip c rest ih => exact ih hnew
  | case3 rest new repl word value hvalue ih =>
      change findValue sets (nameBehind rest) = some value at hvalue
      rw [show word = nameBehind rest from rfl] at ih ⊢
      simp only [lookups, expandFrom, if_true, hvalue, List.length_append]
      by_cases hroom : new.length + value.length < maxStrlen
      · simp only [if_pos hroom, List.length_append] at ih ⊢
        obtain ⟨hle, hall⟩ := ih hroom
        refine ⟨by omega, fun hge => ?_⟩
        obtain ⟨hset, hfits⟩ := hall (by omega)
        exact ⟨List.forall_mem_cons.mpr ⟨rfl, hset⟩, by omega⟩
      · simp only [if_neg hroom] at ih ⊢
        obtain ⟨hle, hall⟩ := ih hnew
        have hvalue : maxStrlen ≤ new.length + value.length := Nat.le_of_not_lt hroom
        refine ⟨by omega, fun hge => ?_⟩
        have hfits := (hall (by omega)).2
        omega
  | case4 rest new repl word hnone ih =>
      change findValue sets (nameBehind rest) = none at hnone
      simp only [lookups, expandFrom, if_true, hnone, List.length_cons]
      obtain ⟨hle, -⟩ := ih hnew
      exact ⟨by omega, fun hge => by omega⟩
  | case5 c rest new repl hc ih =>
      simp only [lookups, expandFrom, if_neg hc, List.length_cons]
      by_cases hroom : new.length + 1 < maxStrlen
      · simp only [if_pos hroom, List.length_append, List.length_singleton] at ih ⊢
        obtain ⟨hle, hall⟩ := ih hroom
        refine ⟨by omega, fun hge => ?_⟩
        obtain ⟨hset, hfits⟩ := hall (by omega)
        exact ⟨hset, by omega⟩
      · simp only [if_neg hroom] at ih ⊢
        obtain ⟨hle, -⟩ := ih hnew
        exact ⟨by omega, fun hge => by omega⟩

/-- What the loop comes to if every variable is set and there is room. -/
theorem replaceFrom_of_set (skip : Nat) (string : CStr) {new : CStr} (repl : Option CStr)
    (hset : ∀ lookup ∈ lookups sets skip string, lookup.2.isSome = true)
    (hfits : new.length + (expandFrom sets skip string).length < maxStrlen) :
    (replaceFrom sets skip string new repl).1 = new ++ expandFrom sets skip string := by
  fun_induction replaceFrom sets skip string new repl with
  | case1 => rw [expandFrom, List.append_nil]
  | case2 new repl skip c rest ih => exact ih hset hfits
  | case3 rest new repl word value hvalue ih =>
      change findValue sets (nameBehind rest) = some value at hvalue
      rw [show word = nameBehind rest from rfl] at ih ⊢
      simp only [lookups, expandFrom, if_true, hvalue, List.length_append, List.forall_mem_cons] at hset hfits ⊢
      have hroom : new.length + value.length < maxStrlen := by omega
      simp only [if_pos hroom, List.length_append] at ih ⊢
      rw [ih hset.2 (by omega), List.append_assoc]
  | case4 rest new repl word hnone ih =>
      change findValue sets (nameBehind rest) = none at hnone
      simp only [lookups, if_true, hnone, List.forall_mem_cons] at hset
      exact nomatch hset.1
  | case5 c rest new repl hc ih =>
      simp only [lookups, expandFrom, if_neg hc, List.length_cons] at hset hfits ⊢
      have hroom : new.length + 1 < maxStrlen := by omega
      simp only [if_pos hroom, List.length_append, List.length_singleton] at ih ⊢
      rw [ih hset (by omega), List.append_assoc, List.singleton_append]

/-- Nothing is reported as replaced if no variable is set. -/
theorem replaceFrom_snd_eq_none {string : CStr} (hnone : ¬HasVariable sets string) :
    (replaceFrom sets 0 string [] none).2 = none := by
  rw [replaceFrom_snd]
  cases hget : (lookups sets 0 string).getLast? with
  | none => rfl
  | some lookup =>
      cases hvalue : lookup.2 with
      | none => exact hvalue
      | some value => exact absurd ⟨lookup, List.mem_of_getLast? hget, by rw [hvalue]; rfl⟩ hnone

theorem replaceFrom_snd_isSome {string : CStr} (hsome : HasVariable sets string)
    (hset : ∀ lookup ∈ lookups sets 0 string, lookup.2.isSome = true) :
    (replaceFrom sets 0 string [] none).2.isSome = true := by
  obtain ⟨lookup, hmem, -⟩ := hsome
  obtain ⟨last, hget⟩ := Option.isSome_iff_exists.mp (List.getLast?_isSome.mpr (List.ne_nil_of_mem hmem))
  rw [replaceFrom_snd, hget]
  exact hset last (List.mem_of_getLast? hget)

end loop

/-- The result is right exactly if the names fit the buffer and either none of them is set, or all are and so is what
comes of them. -/
theorem setReplace_iff (sets : List (CStr × CStr)) (string : CStr) :
    setReplace sets string = some (if HasVariable sets string then some (expand sets string) else none) ↔
      (∀ lookup ∈ lookups sets 0 string, lookup.1.length < maxStrlen) ∧
        (¬HasVariable sets string ∨
          (∀ lookup ∈ lookups sets 0 string, lookup.2.isSome = true) ∧ (expand sets string).length < maxStrlen) := by
  rw [setReplace]
  split
  · rename_i hlong
    obtain ⟨lookup, hmem, hlong⟩ := hlong
    refine ⟨fun h => (nomatch h), fun h => ?_⟩
    exact absurd (h.1 lookup hmem) (Nat.not_lt.mpr hlong)
  · rename_i hshort
    have hshort : ∀ lookup ∈ lookups sets 0 string, lookup.1.length < maxStrlen := fun lookup hmem =>
      Nat.lt_of_not_le fun hlong => hshort ⟨lookup, hmem, hlong⟩
    constructor
    · intro h
      refine ⟨hshort, ?_⟩
      by_cases hsome : HasVariable sets string
      · rw [if_pos hsome] at h
        obtain ⟨value, -, hfst⟩ := Option.map_eq_some_iff.mp (Option.some.inj h)
        have hlength := (@replaceFrom_length sets 0 string [] none (by decide)).2
        rw [hfst, List.length_nil, Nat.zero_add] at hlength
        exact .inr (hlength (Nat.le_refl _))
      · exact .inl hsome
    · rintro ⟨-, hright⟩
      by_cases hsome : HasVariable sets string
      · obtain ⟨hset, hfits⟩ := hright.resolve_left (not_not_intro hsome)
        rw [if_pos hsome]
        have hfst := @replaceFrom_of_set sets 0 string [] none hset
          (by rw [List.length_nil, Nat.zero_add]; exact hfits)
        obtain ⟨value, hvalue⟩ := Option.isSome_iff_exists.mp (replaceFrom_snd_isSome hsome hset)
        rw [hvalue, hfst]
        rfl
      · rw [if_neg hsome, replaceFrom_snd_eq_none hsome]
        rfl

/-- The name behind the last `$` is not set, and the variable before it is left alone. -/
theorem setReplace_undefined :
    setReplace [(['a'], ['1'])] ['$', 'a', ' ', '$', 'b'] ≠
      some (if HasVariable [(['a'], ['1'])] ['$', 'a', ' ', '$', 'b']
        then some (expand [(['a'], ['1'])] ['$', 'a', ' ', '$', 'b']) else none) := by decide

end Sysmon.Parser
