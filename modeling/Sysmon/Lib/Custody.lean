import Sysmon.Lib.GoMap

/-!
# Who holds what

Things that must not be lost or doubled are in the hands of calls under way and in the rows of a map. Each
call and each row holds a list of them. What they hold together is counted, thing by thing: a call that goes
on changes the count by what it held and holds, and so does a row that is written or deleted.
-/

namespace Custody

variable {κ α γ β : Type} [DecidableEq κ] [BEq β]

/-! ### Calls -/

theorem count_set (holds : γ → List β) {calls : List γ} {t : Nat} {call : γ} (hget : calls[t]? = some call)
    (call' : γ) (b : β) :
    ((calls.set t call').flatMap holds).count b + (holds call).count b =
      (calls.flatMap holds).count b + (holds call').count b := by
  induction calls generalizing t with
  | nil => exact absurd hget (by simp)
  | cons first calls ih =>
      cases t with
      | zero =>
          obtain rfl : first = call := by simpa using hget
          simp only [List.set_cons_zero, List.flatMap_cons, List.count_append]
          omega
      | succ t =>
          have hrest := ih (by simpa using hget : calls[t]? = some call)
          simp only [List.set_cons_succ, List.flatMap_cons, List.count_append]
          omega

/-! ### Rows -/

/-- What the rows of a map hold. -/
def held (holds : α → List β) (m : AList fun _ : κ => α) : List β := m.entries.flatMap fun e => holds e.2

/-- The rows that fail the test. -/
def failing (test : α → Bool) (m : AList fun _ : κ => α) : List α :=
  (m.entries.filter fun e => !test e.2).map fun e => e.2

variable {holds : α → List β} {m : AList fun _ : κ => α} {key : κ} {value : α}

/-- What is under a key, and the rest. -/
theorem entries_perm (m : AList fun _ : κ => α) (key : κ) :
    m.entries.Perm ((m.lookup key).toList.map (fun value => ⟨key, value⟩) ++ (m.erase key).entries) := by
  cases hlookup : m.lookup key with
  | none =>
      have hnone : (m.erase key).entries = m.entries := List.kerase_of_notMem_keys (AList.lookup_eq_none.mp hlookup)
      rw [hnone]
      exact .refl _
  | some value =>
      have hmem : key ∈ m.entries.keys := GoMap.mem_keys_of_lookup hlookup
      obtain ⟨other, left, right, hleft, hentries, herase⟩ := List.exists_of_kerase hmem
      have hsame : m.lookup key = some other :=
        GoMap.mem_entries_iff.mp (by rw [hentries]; exact List.mem_append_right _ List.mem_cons_self)
      obtain rfl : value = other := Option.some.inj (hlookup.symm.trans hsame)
      have hrest : (m.erase key).entries = left ++ right := herase
      rw [hrest, hentries]
      exact List.perm_middle

theorem count_held_erase (holds : α → List β) (m : AList fun _ : κ => α) (key : κ) (b : β) :
    (held holds (m.erase key)).count b + ((m.lookup key).toList.flatMap holds).count b = (held holds m).count b := by
  have hperm := ((entries_perm m key).flatMap_right fun e => holds e.2).count_eq b
  rw [List.flatMap_append, List.count_append, List.flatMap_map] at hperm
  rw [held, held, hperm, Nat.add_comm]

theorem count_held_insert (holds : α → List β) (m : AList fun _ : κ => α) (key : κ) (value : α) (b : β) :
    (held holds (m.insert key value)).count b + ((m.lookup key).toList.flatMap holds).count b =
      (held holds m).count b + (holds value).count b := by
  have herase := count_held_erase holds m key b
  have hinsert : (m.insert key value).entries = ⟨key, value⟩ :: (m.erase key).entries := rfl
  have hheld : held holds (m.insert key value) = holds value ++ held holds (m.erase key) := by
    rw [held, hinsert, List.flatMap_cons, held]
  rw [hheld, List.count_append]
  omega

omit [DecidableEq κ] in
theorem count_held_keep (holds : α → List β) (test : α → Bool) (m : AList fun _ : κ => α) (b : β) :
    (held holds (GoMap.keep test m)).count b + ((failing test m).flatMap holds).count b = (held holds m).count b := by
  have hperm : (m.entries.filter (fun e => test e.2) ++ m.entries.filter (fun e => !test e.2)).Perm m.entries :=
    List.filter_append_perm _ _
  have hcount := (hperm.flatMap_right fun e => holds e.2).count_eq b
  rw [List.flatMap_append, List.count_append] at hcount
  rw [held, held, failing, List.flatMap_map]
  exact hcount

/-! ### Keys -/

theorem keys_perm (hlookup : m.lookup key = some value) : m.keys.Perm (key :: (m.erase key).keys) := by
  have hperm := (entries_perm m key).map Sigma.fst
  rw [hlookup] at hperm
  exact hperm

theorem keys_erase_sublist (m : AList fun _ : κ => α) (key : κ) : (m.erase key).keys.Sublist m.keys := by
  rw [AList.keys_erase]
  exact List.erase_sublist

theorem keys_insert_sublist (m : AList fun _ : κ => α) (key : κ) (value : α) :
    (m.insert key value).keys.Sublist (key :: m.keys) := by
  rw [AList.keys_insert]
  exact List.erase_sublist.cons_cons key

omit [DecidableEq κ] in
theorem keys_keep_sublist (test : α → Bool) (m : AList fun _ : κ => α) : (GoMap.keep test m).keys.Sublist m.keys :=
  List.filter_sublist.map Sigma.fst

end Custody
