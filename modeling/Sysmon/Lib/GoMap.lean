import Mathlib.Data.List.AList

/-!
# Maps

A map of Go as an association list without duplicate keys: what a loop over it sees in some order, and
what is known of it by its lookups. Three loops are common: one that writes the same value under many
keys, one that deletes many keys, and one that deletes what fails a test.
-/

namespace GoMap

variable {κ α : Type} [DecidableEq κ] {m : AList fun _ : κ => α}

/-- The keys all get the value. -/
def setAll (keys : List κ) (value : α) (m : AList fun _ : κ => α) : AList fun _ : κ => α :=
  keys.foldl (fun m key => m.insert key value) m

/-- The keys are deleted. -/
def eraseAll (keys : List κ) (m : AList fun _ : κ => α) : AList fun _ : κ => α :=
  keys.foldl (fun m key => m.erase key) m

/-- What passes the test stays. -/
def keep (test : α → Bool) (m : AList fun _ : κ => α) : AList fun _ : κ => α :=
  ⟨m.entries.filter fun e => test e.2, m.nodupKeys.sublist (List.filter_sublist)⟩

theorem lookup_setAll (keys : List κ) (value : α) (m : AList fun _ : κ => α) (key : κ) :
    (setAll keys value m).lookup key = if key ∈ keys then some value else m.lookup key := by
  induction keys generalizing m with
  | nil => rfl
  | cons first keys ih =>
      rw [setAll, List.foldl_cons, ← setAll, ih]
      by_cases hkey : key = first
      · subst hkey
        simp
      · simp [hkey, AList.lookup_insert_ne hkey]

theorem lookup_eraseAll (keys : List κ) (m : AList fun _ : κ => α) (key : κ) :
    (eraseAll keys m).lookup key = if key ∈ keys then none else m.lookup key := by
  induction keys generalizing m with
  | nil => rfl
  | cons first keys ih =>
      rw [eraseAll, List.foldl_cons, ← eraseAll, ih]
      by_cases hkey : key = first
      · subst hkey
        simp
      · simp [hkey, AList.lookup_erase_ne hkey]

theorem mem_iff_lookup {key : κ} : key ∈ m ↔ ∃ value, m.lookup key = some value := by
  rw [← AList.lookup_isSome, Option.isSome_iff_exists]

theorem mem_entries_iff {key : κ} {value : α} :
    (⟨key, value⟩ : Sigma fun _ : κ => α) ∈ m.entries ↔ m.lookup key = some value :=
  (AList.mem_lookup_iff).symm

theorem lookup_keep (test : α → Bool) (m : AList fun _ : κ => α) (key : κ) :
    (keep test m).lookup key = (m.lookup key).filter test := by
  apply Option.ext
  intro value
  rw [← mem_entries_iff, keep, List.mem_filter, mem_entries_iff, Option.filter_eq_some_iff]

/-- The values that are made into others, where they can be. -/
def choose {β : Type} (f : α → Option β) (m : AList fun _ : κ => α) : AList fun _ : κ => β :=
  ⟨m.entries.filterMap fun e => (f e.2).map (Sigma.mk e.1), by
    refine List.nodupKeys_iff_pairwise.mpr
      ((List.nodupKeys_iff_pairwise.mp m.nodupKeys).filterMap _ fun a a' hne b hb b' hb' => ?_)
    obtain ⟨value, -, rfl⟩ := Option.map_eq_some_iff.mp hb
    obtain ⟨value', -, rfl⟩ := Option.map_eq_some_iff.mp hb'
    exact hne⟩

theorem lookup_choose {β : Type} (f : α → Option β) (m : AList fun _ : κ => α) (key : κ) :
    (choose f m).lookup key = (m.lookup key).bind f := by
  apply Option.ext
  intro value
  rw [← mem_entries_iff, choose, List.mem_filterMap, Option.bind_eq_some_iff]
  constructor
  · rintro ⟨e, he, hvalue⟩
    obtain ⟨value', hf, heq⟩ := Option.map_eq_some_iff.mp hvalue
    obtain ⟨rfl, hheq⟩ := Sigma.mk.inj heq
    exact ⟨e.2, mem_entries_iff.mp he, hf.trans (congrArg some (eq_of_heq hheq))⟩
  · rintro ⟨old, hold, hf⟩
    exact ⟨⟨key, old⟩, mem_entries_iff.mpr hold, by rw [hf]; rfl⟩

/-- Entries are written, each with the value that its key is to have. -/
theorem lookup_foldl_insert {want : κ → Option α} {fixes : List (κ × α)}
    (hfixes : ∀ fix ∈ fixes, want fix.1 = some fix.2) (m : AList fun _ : κ => α) (key : κ) :
    (fixes.foldl (fun m fix => m.insert fix.1 fix.2) m).lookup key =
      if key ∈ fixes.map Prod.fst then want key else m.lookup key := by
  induction fixes generalizing m with
  | nil => rfl
  | cons first fixes ih =>
      obtain ⟨hfirst, hrest⟩ := List.forall_mem_cons.mp hfixes
      rw [List.foldl_cons, ih hrest, List.map_cons]
      by_cases hlater : key ∈ fixes.map Prod.fst
      · rw [if_pos hlater, if_pos (List.mem_cons_of_mem _ hlater)]
      · rw [if_neg hlater]
        by_cases hsame : key = first.1
        · rw [if_pos (hsame ▸ List.mem_cons_self), hsame, AList.lookup_insert, hfirst]
        · rw [if_neg (List.mem_cons.not.mpr (not_or.mpr ⟨hsame, hlater⟩)), AList.lookup_insert_ne hsame]

/-! ### Values by a key of their own -/

section index

variable {key : α → κ} {items all : List α} {name : κ}

/-- The values are put in one after the other. -/
def insertAll (key : α → κ) (items : List α) (m : AList fun _ : κ => α) : AList fun _ : κ => α :=
  items.foldl (fun m item => m.insert (key item) item) m

/-- The map holds these values, each under its key, and nothing else. -/
def Indexes (key : α → κ) (m : AList fun _ : κ => α) (items : List α) : Prop :=
  ∀ name, m.lookup name = items.find? fun item => key item = name

theorem find?_key_iff (hnodup : (items.map key).Nodup) {item : α} :
    (items.find? fun item => key item = name) = some item ↔ item ∈ items ∧ key item = name := by
  constructor
  · intro h
    have hkey := List.find?_some h
    exact ⟨List.mem_of_find?_eq_some h, of_decide_eq_true hkey⟩
  · rintro ⟨hmem, rfl⟩
    cases hfind : items.find? fun other => key other = key item with
    | none => exact absurd (decide_eq_true rfl) (List.find?_eq_none.mp hfind item hmem)
    | some other =>
        have hkey := List.find?_some hfind
        have hkey : key other = key item := of_decide_eq_true hkey
        rw [List.inj_on_of_nodup_map hnodup (List.mem_of_find?_eq_some hfind) hmem hkey]

theorem lookup_insertAll (hnodup : (items.map key).Nodup) (m : AList fun _ : κ => α) (name : κ) :
    (insertAll key items m).lookup name = (items.find? fun item => key item = name).or (m.lookup name) := by
  induction items generalizing m with
  | nil => rfl
  | cons item items ih =>
      obtain ⟨hnew, hrest⟩ := List.nodup_cons.mp hnodup
      rw [insertAll, List.foldl_cons, ← insertAll, ih hrest]
      by_cases hkey : key item = name
      · subst hkey
        have hnone : (items.find? fun other => key other = key item) = none := by
          rw [List.find?_eq_none]
          intro other hother hsame
          exact hnew (List.mem_map.mpr ⟨other, hother, of_decide_eq_true hsame⟩)
        simp [hnone]
      · simp [hkey, AList.lookup_insert_ne (Ne.symm hkey)]

theorem lookup_insertAll_of_mem (hnodup : (items.map key).Nodup) {item : α} (hitem : item ∈ items) :
    (insertAll key items m).lookup (key item) = some item := by
  rw [lookup_insertAll hnodup, (find?_key_iff hnodup).mpr ⟨hitem, rfl⟩]
  rfl

theorem Indexes.empty : Indexes key (∅ : AList fun _ : κ => α) [] := fun _ => rfl

theorem Indexes.of_empty (hnodup : (items.map key).Nodup) : Indexes key (insertAll key items ∅) items := by
  intro name
  rw [lookup_insertAll hnodup]
  simp

/-- To put in again what is there changes nothing. -/
theorem Indexes.insertAll (h : Indexes key m all) (hall : (all.map key).Nodup) (hsub : items.Sublist all) :
    Indexes key (GoMap.insertAll key items m) all := by
  intro name
  have hitems : (items.map key).Nodup := hall.sublist (hsub.map key)
  rw [lookup_insertAll hitems, h name]
  cases hfind : items.find? fun item => key item = name with
  | none => rfl
  | some item =>
      obtain ⟨hmem, hkey⟩ := (find?_key_iff hitems).mp hfind
      exact ((find?_key_iff hall).mpr ⟨hsub.subset hmem, hkey⟩).symm

theorem mem_keys_of_lookup {value : α} (h : m.lookup name = some value) : name ∈ m.keys :=
  mem_iff_lookup.mpr ⟨value, h⟩

theorem Indexes.length_keys (h : Indexes key m items) (hnodup : (items.map key).Nodup) :
    m.keys.length = items.length := by
  have hperm : m.keys.Perm (items.map key) := by
    refine (List.perm_ext_iff_of_nodup m.keys_nodup hnodup).mpr fun name => ?_
    have hmem : name ∈ m.keys ↔ ∃ value, m.lookup name = some value := mem_iff_lookup
    rw [hmem, h name, List.mem_map]
    constructor
    · rintro ⟨value, hvalue⟩
      exact ⟨value, (find?_key_iff hnodup).mp hvalue⟩
    · rintro ⟨value, hvalue⟩
      exact ⟨value, (find?_key_iff hnodup).mpr hvalue⟩
  rw [hperm.length_eq, List.length_map]

/-- A map that has all the values, and is not larger. -/
theorem Indexes.of_length (hall : (all.map key).Nodup) (h : ∀ item ∈ all, m.lookup (key item) = some item)
    (hlength : m.keys.length ≤ all.length) : Indexes key m all := by
  have hsub : all.map key ⊆ m.keys := by
    intro name hname
    obtain ⟨item, hitem, rfl⟩ := List.mem_map.mp hname
    exact mem_keys_of_lookup (h item hitem)
  have hperm : (all.map key).Perm m.keys :=
    (List.subperm_of_subset hall hsub).perm_of_length_le (by rw [List.length_map]; exact hlength)
  intro name
  cases hlookup : m.lookup name with
  | none =>
      refine (List.find?_eq_none.mpr fun item hitem hkey => ?_).symm
      have hkey : key item = name := of_decide_eq_true hkey
      rw [← hkey, h item hitem] at hlookup
      exact nomatch hlookup
  | some value =>
      obtain ⟨item, hitem, rfl⟩ := List.mem_map.mp (hperm.mem_iff.mpr (mem_keys_of_lookup hlookup))
      rw [← hlookup, h item hitem]
      exact ((find?_key_iff hall).mpr ⟨hitem, rfl⟩).symm

end index

end GoMap
