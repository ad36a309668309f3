import Sysmon.Fleet.Hash
import Sysmon.Host
import Sysmon.Lib.GoText
import Sysmon.Lib.Run

/-!
# The server's generations

The two buckets of `generations.go`: the desired record of a site, and the files of its generations by
number. A generation is never deleted. The number of a new one is one more than the larger of the
record's `HighWater` and its `Generation`, so numbers are not used twice as long as this larger of the
two stays above everything that was ever stored or poisoned.
-/

namespace Sysmon.Fleet

open GoText

/-- `Desired`, as far as it is read again. The map of poisoned generations is a list of its entries. -/
structure Desired where
  generation : UInt64 := 0
  hash : CStr := []
  adopted : Bool := false
  highWater : UInt64 := 0
  poisoned : List (UInt64 × CStr) := []
  deriving DecidableEq, Repr

/-- What the bucket has for a site. A record that does not parse makes every operation fail. -/
inductive Record where
  | absent
  | unreadable
  | held (desired : Desired)
  deriving DecidableEq, Repr

structure Store where
  desired : CStr → Record
  files : CStr → UInt64 → Option (List GenFile)

inductive StoreError where
  | unreadable
  | keyRequired
  deriving DecidableEq, Repr

/-- The record an operation starts from. -/
def Store.read (s : Store) (site : CStr) : Except StoreError Desired :=
  match s.desired site with
  | .absent => .ok {}
  | .unreadable => .error .unreadable
  | .held desired => .ok desired

/-- A bucket takes no empty key, and the transaction fails with it. -/
def Store.write (s : Store) (site : CStr) (desired : Desired) : Except StoreError Store :=
  if site = [] then .error .keyRequired
  else .ok { s with desired := Function.update s.desired site (.held desired) }

/-- The largest number the record knows of. -/
def Desired.top (d : Desired) : UInt64 := if d.highWater < d.generation then d.generation else d.highWater

/-- A file as it is read back. Contents travel in base64, names as they are. -/
def GenFile.stored (f : GenFile) : GenFile := ⟨jsonText f.name, f.content⟩

def putGeneration (s : Store) (site : CStr) (files : List GenFile) (hash : CStr) :
    Except StoreError (UInt64 × Store) := do
  let cur ← s.read site
  let gen := cur.top + 1
  let s ← s.write site ⟨gen, hash, true, gen, cur.poisoned⟩
  .ok (gen, { s with
    files := Function.update s.files site
      (Function.update (s.files site) gen (some (files.map GenFile.stored))) })

def getDesired (s : Store) (site : CStr) : Option Desired :=
  match s.desired site with
  | .held desired => some desired
  | _ => none

def getGenerationFiles (s : Store) (site : CStr) (gen : UInt64) : Option (List GenFile) := s.files site gen

def setDesiredGeneration (s : Store) (site : CStr) (gen : UInt64) (hash : CStr) : Except StoreError Store := do
  let d ← s.read site
  s.write site { d with
    generation := gen
    hash := hash
    adopted := true
    highWater := if d.highWater < gen then gen else d.highWater }

def unadopt (s : Store) (site : CStr) : Except StoreError Store := do
  let d ← s.read site
  s.write site { d with adopted := false, generation := 0, hash := [] }

def poisonGeneration (s : Store) (site : CStr) (gen : UInt64) (why : CStr) : Except StoreError Store := do
  let d ← s.read site
  s.write site { d with poisoned := (gen, why) :: d.poisoned.filter (·.1 ≠ gen) }

/-! ### Runs -/

inductive StoreOp where
  | put (site : CStr) (files : List GenFile) (hash : CStr)
  | set (site : CStr) (gen : UInt64) (hash : CStr)
  | unadopt (site : CStr)
  | poison (site : CStr) (gen : UInt64) (why : CStr)
  deriving DecidableEq, Repr

/-- A transaction that fails leaves the store as it was. -/
def Store.step (s : Store) : StoreOp → Store
  | .put site files hash => ((putGeneration s site files hash).toOption.map Prod.snd).getD s
  | .set site gen hash => (setDesiredGeneration s site gen hash).toOption.getD s
  | .unadopt site => (Fleet.unadopt s site).toOption.getD s
  | .poison site gen why => (poisonGeneration s site gen why).toOption.getD s

def Store.Holds (s : Store) (site : CStr) (gen : UInt64) : Prop := (s.files site gen).isSome = true

def Desired.Poisons (d : Desired) (gen : UInt64) : Prop := gen ∈ d.poisoned.map Prod.fst

instance (d : Desired) (gen : UInt64) : Decidable (d.Poisons gen) :=
  inferInstanceAs (Decidable (gen ∈ d.poisoned.map Prod.fst))

/-- The numbers that are taken: of what is held, and of what is poisoned. -/
def Store.Taken (s : Store) (site : CStr) (d : Desired) (gen : UInt64) : Prop :=
  s.Holds site gen ∨ d.Poisons gen

/-- The record of every site knows of a number as large as any that is taken. -/
def Covered (s : Store) : Prop := ∀ site d, s.read site = .ok d → ∀ gen, s.Taken site d gen → gen ≤ d.top

/-! ### One operation -/

def StoreOp.site : StoreOp → CStr
  | .put site _ _ | .set site _ _ | .unadopt site | .poison site _ _ => site

/-- The record an operation leaves. -/
def StoreOp.desired (d : Desired) : StoreOp → Desired
  | .put _ _ hash => ⟨d.top + 1, hash, true, d.top + 1, d.poisoned⟩
  | .set _ gen hash =>
      { d with
        generation := gen
        hash := hash
        adopted := true
        highWater := if d.highWater < gen then gen else d.highWater }
  | .unadopt _ => { d with adopted := false, generation := 0, hash := [] }
  | .poison _ gen why => { d with poisoned := (gen, why) :: d.poisoned.filter (·.1 ≠ gen) }

/-- The number under which an operation stores files, and the files. -/
def StoreOp.stores (d : Desired) : StoreOp → Option (UInt64 × List GenFile)
  | .put _ files _ => some (d.top + 1, files.map GenFile.stored)
  | _ => none

variable {s s' : Store} {site : CStr} {d : Desired} {gen : UInt64} {hash : CStr} {files : List GenFile}

theorem read_ok (h : s.read site = .ok d) : s.desired site = .held d ∨ d = {} := by
  rw [Store.read] at h
  cases hrecord : s.desired site with
  | absent =>
      rw [hrecord] at h
      exact Or.inr (Except.ok.inj h).symm
  | unreadable =>
      rw [hrecord] at h
      exact absurd h (by simp)
  | held desired =>
      rw [hrecord] at h
      rw [Except.ok.inj h]
      exact Or.inl rfl

theorem write_ok (h : s.write site d = .ok s') :
    s' = { s with desired := Function.update s.desired site (.held d) } := by
  rw [Store.write] at h
  split at h
  · exact absurd h (by simp)
  · exact (Except.ok.inj h).symm

theorem putGeneration_ok (h : putGeneration s site files hash = .ok (gen, s')) :
    ∃ cur, s.read site = .ok cur ∧ gen = cur.top + 1 ∧ s' =
      ⟨Function.update s.desired site (.held ⟨gen, hash, true, gen, cur.poisoned⟩),
        Function.update s.files site
          (Function.update (s.files site) gen (some (files.map GenFile.stored)))⟩ := by
  cases hread : s.read site with
  | error e =>
      rw [putGeneration, hread] at h
      exact absurd h (by simp [bind, Except.bind])
  | ok cur =>
      cases hwrite : s.write site ⟨cur.top + 1, hash, true, cur.top + 1, cur.poisoned⟩ with
      | error e =>
          rw [putGeneration, hread] at h
          simp only [bind, Except.bind, hwrite] at h
          exact absurd h (by simp)
      | ok next =>
          rw [putGeneration, hread] at h
          simp only [bind, Except.bind, hwrite, Except.ok.injEq, Prod.mk.injEq] at h
          obtain ⟨rfl, rfl⟩ := h
          rw [write_ok hwrite]
          exact ⟨cur, rfl, rfl, rfl⟩

/-- An operation that reads the record and writes it back changed. -/
theorem update_ok {f : Desired → Desired}
    (h : (do let d ← s.read site; s.write site (f d)) = .ok s') :
    ∃ d, s.read site = .ok d ∧
      s' = { s with desired := Function.update s.desired site (.held (f d)) } := by
  cases hread : s.read site with
  | error e =>
      rw [hread] at h
      exact absurd h (by simp [bind, Except.bind])
  | ok d =>
      rw [hread] at h
      exact ⟨d, rfl, write_ok h⟩

/-- The files after an operation that stores some, or none. -/
def Store.filesWith (s : Store) (site : CStr) :
    Option (UInt64 × List GenFile) → CStr → UInt64 → Option (List GenFile)
  | none => s.files
  | some (gen, files) =>
      Function.update s.files site (Function.update (s.files site) gen (some files))

/-- What an operation can do: nothing, or write the record of its site and perhaps one generation. -/
theorem step_cases (s : Store) (op : StoreOp) : s.step op = s ∨ ∃ d, s.read op.site = .ok d ∧
    s.step op = ⟨Function.update s.desired op.site (.held (op.desired d)),
      s.filesWith op.site (op.stores d)⟩ := by
  cases op with
  | put site files hash =>
      cases hput : putGeneration s site files hash with
      | error e => exact Or.inl (by simp [Store.step, hput, Except.toOption])
      | ok result =>
          obtain ⟨gen, next⟩ := result
          obtain ⟨cur, hread, rfl, rfl⟩ := putGeneration_ok hput
          refine Or.inr ⟨cur, hread, ?_⟩
          rw [Store.step, hput]
          rfl
  | set site gen hash =>
      cases hset : setDesiredGeneration s site gen hash with
      | error e => exact Or.inl (by simp [Store.step, hset, Except.toOption])
      | ok next =>
          obtain ⟨d, hread, rfl⟩ := update_ok hset
          refine Or.inr ⟨d, hread, ?_⟩
          rw [Store.step, hset]
          rfl
  | unadopt site =>
      cases hunadopt : Fleet.unadopt s site with
      | error e => exact Or.inl (by simp [Store.step, hunadopt, Except.toOption])
      | ok next =>
          obtain ⟨d, hread, rfl⟩ := update_ok hunadopt
          refine Or.inr ⟨d, hread, ?_⟩
          rw [Store.step, hunadopt]
          rfl
  | poison site gen why =>
      cases hpoison : poisonGeneration s site gen why with
      | error e => exact Or.inl (by simp [Store.step, hpoison, Except.toOption])
      | ok next =>
          obtain ⟨d, hread, rfl⟩ := update_ok hpoison
          refine Or.inr ⟨d, hread, ?_⟩
          rw [Store.step, hpoison]
          rfl

theorem holds_filesWith {stored : Option (UInt64 × List GenFile)} {desired : CStr → Record} {other : CStr} :
    Store.Holds ⟨desired, s.filesWith site stored⟩ other gen ↔
      s.Holds other gen ∨ other = site ∧ stored.map Prod.fst = some gen := by
  cases stored with
  | none => simp [Store.Holds, Store.filesWith]
  | some p =>
      by_cases hsite : other = site
      · by_cases hgen : gen = p.1
        · simp [Store.Holds, Store.filesWith, hsite, hgen]
        · have hne : p.1 ≠ gen := fun heq => hgen heq.symm
          simp [Store.Holds, Store.filesWith, hsite, Function.update_of_ne hgen, hne]
      · simp [Store.Holds, Store.filesWith, hsite]

/-- Nothing is ever deleted. -/
theorem holds_step (h : s.Holds site gen) (op : StoreOp) : (s.step op).Holds site gen := by
  obtain hsame | ⟨d, -, hstep⟩ := step_cases s op
  · rwa [hsame]
  · rw [hstep, holds_filesWith]
    exact Or.inl h

theorem read_update {files : CStr → UInt64 → Option (List GenFile)} {other : CStr} :
    Store.read ⟨Function.update s.desired site (.held d), files⟩ other =
      if other = site then .ok d else s.read other := by
  by_cases hsite : other = site
  · simp [Store.read, hsite]
  · simp [Store.read, hsite]

/-! ### The record keeps up -/

/-- What keeps the record of a site above every number that is taken: the counter is not at its end,
the record is not lowered below a number that is taken, and no number is poisoned that was not given
out. -/
def KeepsUp (s : Store) : StoreOp → Prop
  | .put site _ _ => ∀ d, s.read site = .ok d → d.top.toNat + 1 < 2 ^ 64
  | .set site gen _ => ∀ d, s.read site = .ok d → ∀ n, s.Taken site d n → n ≤ gen ∨ n ≤ d.highWater
  | .unadopt site => ∀ d, s.read site = .ok d → ∀ n, s.Taken site d n → n ≤ d.highWater
  | .poison site gen _ => ∀ d, s.read site = .ok d → gen ≤ d.top

theorem le_top_iff {n : UInt64} : n ≤ d.top ↔ n ≤ d.highWater ∨ n ≤ d.generation := by
  simp only [Desired.top, UInt64.le_iff_toNat_le, UInt64.lt_iff_toNat_lt]
  split <;> omega

theorem top_lt_next (h : d.top.toNat + 1 < 2 ^ 64) : (d.top + 1).toNat = d.top.toNat + 1 := by
  have hone : (1 : UInt64).toNat = 1 := rfl
  rw [UInt64.toNat_add, hone]
  omega

theorem covered_step (hs : Covered s) (op : StoreOp) (hop : KeepsUp s op) : Covered (s.step op) := by
  obtain hsame | ⟨d, hread, hstep⟩ := step_cases s op
  · rwa [hsame]
  · rw [hstep]
    intro site d' hread' n htaken
    rw [read_update] at hread'
    rw [Store.Taken, holds_filesWith] at htaken
    by_cases hsite : site = op.site
    · subst hsite
      rw [if_pos rfl] at hread'
      obtain rfl := Except.ok.inj hread'
      have hold : s.Taken op.site d n → n ≤ d.top := hs op.site d hread n
      cases op with
      | put site files hash =>
          have hnext := top_lt_next (hop d hread)
          have hle : n ≤ d.top + 1 := by
            rw [UInt64.le_iff_toNat_le]
            obtain (hheld | ⟨-, hnew⟩) | hpoisoned := htaken
            · have := UInt64.le_iff_toNat_le.mp (hold (Or.inl hheld))
              omega
            · rw [← Option.some.inj hnew]
            · have := UInt64.le_iff_toNat_le.mp (hold (Or.inr hpoisoned))
              omega
          exact le_top_iff.mpr (Or.inl hle)
      | set site gen hash =>
          have hle : n ≤ gen ∨ n ≤ d.highWater := by
            refine hop d hread n ?_
            obtain (hheld | ⟨-, hnew⟩) | hpoisoned := htaken
            · exact Or.inl hheld
            · exact absurd hnew (by simp [StoreOp.stores])
            · exact Or.inr hpoisoned
          refine le_top_iff.mpr (hle.symm.imp_left fun hhigh => ?_)
          simp only [StoreOp.desired, UInt64.le_iff_toNat_le, UInt64.lt_iff_toNat_lt] at hhigh ⊢
          split <;> omega
      | unadopt site =>
          refine le_top_iff.mpr (Or.inl (hop d hread n ?_))
          obtain (hheld | ⟨-, hnew⟩) | hpoisoned := htaken
          · exact Or.inl hheld
          · exact absurd hnew (by simp [StoreOp.stores])
          · exact Or.inr hpoisoned
      | poison site gen why =>
          show n ≤ d.top
          obtain (hheld | ⟨-, hnew⟩) | hpoisoned := htaken
          · exact hold (Or.inl hheld)
          · exact absurd hnew (by simp [StoreOp.stores])
          · obtain hgen | hpoisoned := List.mem_cons.mp hpoisoned
            · rw [hgen]
              exact hop d hread
            · refine hold (Or.inr ?_)
              obtain ⟨p, hp, hpn⟩ := List.mem_map.mp hpoisoned
              exact List.mem_map.mpr ⟨p, List.mem_of_mem_filter hp, hpn⟩
    · rw [if_neg hsite] at hread'
      refine hs site d' hread' n (htaken.imp_left ?_)
      rintro (hheld | ⟨heq, -⟩)
      · exact hheld
      · exact absurd heq hsite

/-! ### Numbers are given out once -/

/-- The numbers an operation gives out for a site. -/
def StoreOp.gives (s : Store) (site : CStr) : StoreOp → List UInt64
  | .put other files hash =>
      if other = site then (putGeneration s other files hash).toOption.toList.map Prod.fst else []
  | _ => []

/-- The numbers a run gives out for a site. -/
def issued (site : CStr) : Store → List StoreOp → List UInt64
  | _, [] => []
  | s, op :: ops => op.gives s site ++ issued site (s.step op) ops

theorem holds_of_gives {op : StoreOp} (h : gen ∈ op.gives s site) : (s.step op).Holds site gen := by
  cases op with
  | put other files hash =>
      rw [StoreOp.gives] at h
      split at h
      next heq =>
        subst heq
        cases hput : putGeneration s other files hash with
        | error e =>
            rw [hput] at h
            exact absurd h List.not_mem_nil
        | ok result =>
            rw [hput] at h
            obtain rfl := List.mem_singleton.mp h
            obtain ⟨cur, -, -, hnext⟩ := putGeneration_ok hput
            rw [Store.step, hput, Store.Holds]
            show (result.2.files other result.1).isSome = true
            rw [hnext]
            simp
      next => exact absurd h List.not_mem_nil
  | set _ _ _ | unadopt _ | poison _ _ _ => exact absurd h List.not_mem_nil

/-- A number that was given out is held from then on. -/
theorem holds_of_issued {ops : List StoreOp} (h : gen ∈ issued site s ops ∨ s.Holds site gen) :
    (Run.exec Store.step s ops).Holds site gen := by
  induction ops generalizing s with
  | nil => exact h.resolve_left List.not_mem_nil
  | cons op ops ih =>
      rw [Run.exec_cons]
      obtain h | hheld := h
      · obtain hnow | hlater := List.mem_append.mp h
        · exact ih (Or.inr (holds_of_gives hnow))
        · exact ih (Or.inl hlater)
      · exact ih (Or.inr (holds_step hheld op))

/-- A number that a PutGeneration may return: larger than all that are held or were given out, and not
one under which there are files or that is poisoned. -/
structure Fresh (s : Store) (site : CStr) (given : List UInt64) (gen : UInt64) : Prop where
  above : ∀ n, s.Holds site n ∨ n ∈ given → n < gen
  unheld : s.files site gen = none
  unpoisoned : ∀ d, s.read site = .ok d → ¬ d.Poisons gen

/-- Every PutGeneration of the run that succeeds returns a fresh number. -/
def NeverReused (s : Store) (ops : List StoreOp) : Prop :=
  ∀ pre site files hash, pre ++ [.put site files hash] <+: ops → ∀ gen next,
    putGeneration (Run.exec Store.step s pre) site files hash = .ok (gen, next) →
      Fresh (Run.exec Store.step s pre) site (issued site s pre) gen

/-- One PutGeneration, from a store whose records have kept up. -/
theorem fresh_put (hs : Covered s) (hroom : KeepsUp s (.put site files hash)) {next : Store}
    (hput : putGeneration s site files hash = .ok (gen, next)) : Fresh s site [] gen := by
  obtain ⟨cur, hread, rfl, -⟩ := putGeneration_ok hput
  have hnext := top_lt_next (hroom cur hread)
  have hbelow : ∀ n, s.Taken site cur n → n < cur.top + 1 := by
    intro n htaken
    have hle := UInt64.le_iff_toNat_le.mp (hs site cur hread n htaken)
    rw [UInt64.lt_iff_toNat_lt]
    omega
  constructor
  · intro n hn
    exact hbelow n (Or.inl (hn.resolve_right List.not_mem_nil))
  · by_contra hheld
    exact absurd (hbelow _ (Or.inl (Option.isSome_iff_ne_none.mpr hheld))) (UInt64.lt_irrefl _)
  · intro d hd hpoisoned
    rw [hread] at hd
    obtain rfl := Except.ok.inj hd
    exact absurd (hbelow _ (Or.inr hpoisoned)) (UInt64.lt_irrefl _)

/-- From a store whose records have kept up, a run whose operations all let them keep up gives out
every number once. -/
theorem neverReused_of_keepsUp {ops : List StoreOp} (hs : Covered s)
    (hops : Run.Guarded Store.step KeepsUp s ops) : NeverReused s ops := by
  intro pre site files hash hpre gen next hput
  have hstep : ∀ s op, Covered s → KeepsUp s op → Covered (Store.step s op) :=
    fun s op hs hop => covered_step hs op hop
  have hcovered : Covered (Run.exec Store.step s pre) :=
    Run.always_of_guarded hstep hs hops pre ((List.prefix_append pre _).trans hpre)
  have hfresh := fresh_put hcovered (hops pre _ hpre) hput
  refine ⟨fun n hn => ?_, hfresh.unheld, hfresh.unpoisoned⟩
  refine hfresh.above n (Or.inl ?_)
  obtain hheld | hissued := hn
  · exact hheld
  · exact holds_of_issued (Or.inl hissued)

def emptyStore : Store where
  desired := fun _ => .absent
  files := fun _ _ => none

/-- A generation, the site is let go, and another. -/
theorem neverReused_new_site :
    NeverReused emptyStore [.put ['a'] [] [], .unadopt ['a'], .put ['a'] [] []] := by
  apply neverReused_of_keepsUp
  · rintro site d hread gen (hheld | hpoisoned)
    · exact absurd hheld (by simp [Store.Holds, emptyStore])
    · obtain rfl : ({} : Desired) = d := Except.ok.inj hread
      exact absurd hpoisoned List.not_mem_nil
  · refine Run.guarded_cons.mpr ⟨fun d hread => ?_, Run.guarded_cons.mpr ⟨fun d hread n htaken => ?_,
      Run.guarded_cons.mpr ⟨fun d hread => ?_, Run.guarded_nil⟩⟩⟩
    · obtain rfl : ({} : Desired) = d := Except.ok.inj hread
      decide
    · obtain rfl : (⟨1, [], true, 1, []⟩ : Desired) = d := Except.ok.inj hread
      obtain hheld | hpoisoned := htaken
      · by_cases hone : n = 1
        · rw [hone]
          decide
        · exact absurd hheld (by
            simp [Store.Holds, Store.step, emptyStore, putGeneration, Store.read, Store.write, bind,
              Except.bind, Except.toOption, Desired.top, hone])
      · exact absurd hpoisoned List.not_mem_nil
    · obtain rfl : (⟨0, [], false, 1, []⟩ : Desired) = d := Except.ok.inj hread
      decide

/-- A store from before `HighWater`, with three generations. -/
def oldStore : Store where
  desired := fun site => if site = ['a'] then .held { generation := 3, adopted := true } else .absent
  files := fun site gen => if site = ['a'] ∧ 1 ≤ gen ∧ gen ≤ 3 then some [] else none

/-- After an Unadopt the next number is 1 again, and the files of generation 1 are overwritten. -/
theorem old_record_reused :
    ¬ NeverReused oldStore [.unadopt ['a'], .put ['a'] [⟨[97], []⟩] []] := by
  intro h
  have hfresh := h [.unadopt ['a']] ['a'] [⟨[97], []⟩] [] (by decide) 1 _ rfl
  exact absurd hfresh.unheld (by decide)

end Sysmon.Fleet
