import Sysmon.ConfGen.Rollback
import Sysmon.Parser.Files
import Sysmon.Reload

/-!
# What a delivery is checked for

`validate_config` parses the staged copy in a child process and looks at three things: the flag
`badconfig`, which one rule sets, the list of objects, and whether the root is among them. Everything
else the parser has to complain about goes to the log. The last part says when a delivery that is not
understood as a whole is turned down all the same.
-/

open Sysmon.Parser

namespace Sysmon.ConfGen

/-! ### `validate_config` -/

/-- The daemon that forks, and what the child finds: the resolver has names to compare with, so many
files may still be opened, and there is a child at all. -/
structure Validator where
  daemon : Reload.Daemon
  env : Env
  cached : Bool
  descriptors : Nat
  forks : Bool

/-- The child clears `badconfig` before it parses. -/
def Validator.child (v : Validator) : Reload.Daemon :=
  { v.daemon with scratch := { v.daemon.scratch with badconfig := false } }

/-- The variables the parse starts from. -/
def Validator.start (v : Validator) : Scratch := v.child.scratch.fresh

/-- The entry file of a directory with its includes, if it can be opened. -/
def Validator.reading (v : Validator) (dir : Dir) (mainname : CStr) : Option (List Piece) :=
  (dir.find? fun file => file.name = mainname).map fun main => pieces dir v.descriptors main.data

def Piece.readable : Piece → Bool
  | .unreadable _ => false
  | _ => true

/-- The child does not die of what it reads. -/
structure Validator.Survives (v : Validator) (pieces : List Piece) : Prop where
  readable : ∀ piece ∈ pieces, Piece.readable piece = true
  tokens : Run.Guarded (Token.step v.env) (fun s token => token.survives v.cached s = true) v.start
    (tokensOf pieces)

instance (v : Validator) (pieces : List Piece) : Decidable (v.Survives pieces) :=
  decidable_of_iff ((∀ piece ∈ pieces, Piece.readable piece = true) ∧
    Run.Guarded (Token.step v.env) (fun s token => token.survives v.cached s = true) v.start
      (tokensOf pieces)) ⟨fun h => ⟨h.1, h.2⟩, fun h => ⟨h.readable, h.tokens⟩⟩

/-- `validate_config` of the entry file of a directory. -/
def validates (v : Validator) (dir : Dir) (mainname : CStr) : Bool :=
  let found := v.reading dir mainname
  let (loaded, tree) := Reload.loadconfig v.child v.env (found.map tokensOf)
  v.forks && decide (v.Survives (found.getD [])) && !loaded.scratch.badconfig && !tree.isEmpty &&
    loaded.configedRoot.isSome

/-- What the parse comes to. -/
def Validator.parsed (v : Validator) (pieces : List Piece) : Scratch :=
  yylex v.env v.start (tokensOf pieces)

/-- All that is asked of a configuration. -/
structure Passes (v : Validator) (pieces : List Piece) : Prop where
  forks : v.forks = true
  survives : v.Survives pieces
  sitenames : (tokensOf pieces).any Reload.objectionable = false
  rooted : ∃ element ∈ (v.parsed pieces).head, (v.parsed pieces).root = some element.uniqueName

theorem findObjectByName_isSome_iff (heap : Reload.Heap) (next : Reload.Ref) (elements : List Element)
    (name : Option CStr) :
    (Reload.findObjectByName (Reload.allocate heap next elements)
        (List.range' next elements.length) name).isSome = true ↔
      ∃ element ∈ elements, name = some element.uniqueName := by
  have hcells := Reload.map_allocate heap next elements
  cases name with
  | none => simp [Reload.findObjectByName]
  | some text =>
      simp only [Reload.findObjectByName, Option.bind_some, List.find?_isSome, Option.some.injEq]
      constructor
      · rintro ⟨r, hr, hfound⟩
        cases hcell : Reload.allocate heap next elements r with
        | none =>
            rw [hcell] at hfound
            exact absurd hfound (by simp)
        | some element =>
            rw [hcell] at hfound
            have hmem : some element ∈ elements.map some := by
              rw [← hcells, ← hcell]
              exact List.mem_map_of_mem hr
            exact ⟨element, by simpa using hmem, (by simpa using hfound : element.uniqueName = text).symm⟩
      · rintro ⟨element, hmem, hname⟩
        have hcell : some element ∈
            (List.range' next elements.length).map (Reload.allocate heap next elements) := by
          rw [hcells]
          exact List.mem_map_of_mem hmem
        obtain ⟨r, hr, hheap⟩ := List.mem_map.mp hcell
        exact ⟨r, hr, by simp [hheap, hname]⟩

theorem validates_iff (v : Validator) (dir : Dir) (mainname : CStr) :
    validates v dir mainname = true ↔
      Passes v ((v.reading dir mainname).getD [.missing mainname]) := by
  cases hfound : v.reading dir mainname with
  | none =>
      constructor
      · intro h
        simp [validates, hfound, Reload.loadconfig] at h
      · intro h
        obtain ⟨element, hmem, -⟩ := h.rooted
        exact absurd hmem List.not_mem_nil
  | some pieces =>
      rw [Option.getD_some]
      have hbad : (v.parsed pieces).badconfig = (tokensOf pieces).any Reload.objectionable := by
        rw [Validator.parsed, Reload.badconfig_yylex]
        rfl
      have hroot := findObjectByName_isSome_iff v.child.heap v.child.next (v.parsed pieces).head
        (v.parsed pieces).root
      have hvalidates : validates v dir mainname = (v.forks && decide (v.Survives pieces) &&
          !(v.parsed pieces).badconfig &&
          !(List.range' v.child.next (v.parsed pieces).head.length).isEmpty &&
          (Reload.findObjectByName
            (Reload.allocate v.child.heap v.child.next (v.parsed pieces).head)
            (List.range' v.child.next (v.parsed pieces).head.length)
            (v.parsed pieces).root).isSome) := by
        rw [validates, hfound]
        rfl
      rw [hvalidates]
      simp only [Bool.and_eq_true, decide_eq_true_eq, Bool.not_eq_true', hroot, hbad]
      constructor
      · rintro ⟨⟨⟨⟨hforks, hsurvives⟩, hnames⟩, -⟩, hrooted⟩
        exact ⟨hforks, hsurvives, hnames, hrooted⟩
      · rintro ⟨hforks, hsurvives, hnames, hrooted⟩
        refine ⟨⟨⟨⟨hforks, hsurvives⟩, hnames⟩, ?_⟩, hrooted⟩
        obtain ⟨element, hmem, -⟩ := hrooted
        have hpos : 0 < (v.parsed pieces).head.length := List.length_pos_of_mem hmem
        rw [List.isEmpty_eq_false_iff, Ne, List.range'_eq_nil_iff]
        exact Nat.ne_of_gt hpos

/-! ### `confgen_apply` -/

variable {seedName : CStr} {d : Daemon} {g : UInt64} {files : List File} {env : ApplyEnv}
  {v : Validator}

/-- The file a delivery is read from. -/
def entryOf (seedName : CStr) (d : Daemon) : CStr := if d.mainname = [] then seedName else d.mainname

/-- The system, with the verdict of the validator on what has been staged. -/
def judged (seedName : CStr) (d : Daemon) (g : UInt64) (files : List File) (env : ApplyEnv)
    (v : Validator) : ApplyEnv :=
  let staged := ((d.disk.exec (stagedOps d g files env)).gens g).getD []
  { env with verdict := validates v staged (entryOf seedName d) }

/-- `confgen_apply` with its validation. -/
def confgenApply (seedName : CStr) (d : Daemon) (g : UInt64) (files : List File) (env : ApplyEnv)
    (v : Validator) : Outcome :=
  apply seedName d g files (judged seedName d g files env v)

/-- What the parser reads of a delivery. -/
def delivered (seedName : CStr) (d : Daemon) (files : List File) (v : Validator) : List Piece :=
  (v.reading (dirOf files) (entryOf seedName d)).getD [.missing (entryOf seedName d)]

theorem stageError_verdict (env : ApplyEnv) (files : List File) :
    stageError env files = none ↔
      stageError { env with verdict := true } files = none ∧ env.verdict = true := by
  simp only [stageError]
  repeat' split
  all_goals simp_all

theorem judged_verdict (hr : refusal seedName d g files = none)
    (hs : stageError { env with verdict := true } files = none) :
    (judged seedName d g files env v).verdict = true ↔
      Passes v (delivered seedName d files v) := by
  -- what is staged does not depend on the verdict
  have hstaged : (d.disk.exec (stagedOps d g files { env with verdict := true })).gens g =
      some (dirOf files) := exec_stagedOps hr hs
  have hsame : stagedOps d g files { env with verdict := true } = stagedOps d g files env := rfl
  rw [hsame] at hstaged
  simp only [judged, hstaged, Option.getD_some]
  exact validates_iff v (dirOf files) (entryOf seedName d)

/-- Nothing stands in the way of the delivery: it is not refused, it can be staged and linked, and it
passes what it is checked for. -/
structure GoesThrough (seedName : CStr) (d : Daemon) (g : UInt64) (files : List File) (env : ApplyEnv)
    (v : Validator) : Prop where
  admitted : refusal seedName d g files = none
  staged : stageError { env with verdict := true } files = none
  passes : Passes v (delivered seedName d files v)
  linked : env.current.ok = true

theorem error_confgenApply_iff :
    (confgenApply seedName d g files env v).error = none ↔
      GoesThrough seedName d g files env v := by
  constructor
  · intro h
    obtain ⟨hr, hs, hok⟩ := apply_ok h
    obtain ⟨hstaged, hverdict⟩ := (stageError_verdict _ files).mp hs
    exact ⟨hr, hstaged, (judged_verdict hr hstaged).mp hverdict, hok⟩
  · rintro ⟨hr, hstaged, hpasses, hok⟩
    have hs : stageError (judged seedName d g files env v) files = none :=
      (stageError_verdict _ files).mpr ⟨hstaged, (judged_verdict hr hstaged).mpr hpasses⟩
    have hlink : (judged seedName d g files env v).current.ok = true := hok
    rw [confgenApply, apply_staged hr hs, if_pos hlink]

/-! ### When what is not understood is refused -/

/-- A delivery that is not understood as a whole fails and changes nothing. -/
def RefusesMisread (seedName : CStr) (d : Daemon) (g : UInt64) (files : List File) (env : ApplyEnv)
    (v : Validator) : Prop :=
  ¬ Understood v.env v.start (delivered seedName d files v) →
    (confgenApply seedName d g files env v).error ≠ none ∧
      Unchanged d ((confgenApply seedName d g files env v).done d)

/-- The delivery fails over something that is checked, and its failure costs nothing: it is refused at
once; or its number is not one that a link names on disk, and it cannot be staged, or does not pass,
or cannot be linked when there is no new `previous` to write either. -/
def FailsCleanly (seedName : CStr) (d : Daemon) (g : UInt64) (files : List File) (env : ApplyEnv)
    (v : Validator) : Prop :=
  refusal seedName d g files ≠ none ∨
    (∀ link, d.disk.link link = some g → d.disk.gens g = none) ∧
      (stageError { env with verdict := true } files ≠ none ∨
        ¬ Passes v (delivered seedName d files v) ∨
        env.current.ok = false ∧
          (d.running = 0 ∨ env.previous.ok = false ∨ d.disk.link .previous = some d.running))

theorem failsCleanly_iff :
    ¬ GoesThrough seedName d g files env v ∧
        CostsNothing seedName d g files (judged seedName d g files env v) ↔
      FailsCleanly seedName d g files env v := by
  by_cases hr : refusal seedName d g files = none
  case neg => exact ⟨fun _ => Or.inl hr, fun _ => ⟨fun h => hr h.admitted, Or.inl hr⟩⟩
  by_cases hs : stageError { env with verdict := true } files = none
  case neg =>
    have hstage : stageError (judged seedName d g files env v) files ≠ none :=
      fun h => hs ((stageError_verdict _ files).mp h).1
    constructor
    · rintro ⟨-, hcosts⟩
      exact Or.inr ⟨(hcosts.resolve_left fun h => h hr).1, Or.inl hs⟩
    · intro hfails
      exact ⟨fun h => hs h.staged, Or.inr ⟨(hfails.resolve_left fun h => h hr).1, Or.inl hstage⟩⟩
  by_cases hpasses : Passes v (delivered seedName d files v)
  case neg =>
    have hstage : stageError (judged seedName d g files env v) files ≠ none :=
      fun h => hpasses ((judged_verdict hr hs).mp ((stageError_verdict _ files).mp h).2)
    constructor
    · rintro ⟨-, hcosts⟩
      exact Or.inr ⟨(hcosts.resolve_left fun h => h hr).1, Or.inr (Or.inl hpasses)⟩
    · intro hfails
      exact ⟨fun h => hpasses h.passes,
        Or.inr ⟨(hfails.resolve_left fun h => h hr).1, Or.inl hstage⟩⟩
  have hstage : stageError (judged seedName d g files env v) files = none :=
    (stageError_verdict _ files).mpr ⟨hs, (judged_verdict hr hs).mpr hpasses⟩
  constructor
  · rintro ⟨hnot, hcosts⟩
    obtain ⟨hnames, hswap⟩ := hcosts.resolve_left fun h => h hr
    have hok : env.current.ok = false :=
      eq_false_of_ne_true fun hok => hnot ⟨hr, hs, hpasses, hok⟩
    exact Or.inr ⟨hnames, Or.inr (Or.inr ⟨hok, hswap.resolve_left fun h => h hstage⟩)⟩
  · intro hfails
    obtain ⟨hnames, hwhy⟩ := hfails.resolve_left fun h => h hr
    obtain ⟨hok, hswap⟩ := (hwhy.resolve_left fun h => h hs).resolve_left fun h => h hpasses
    refine ⟨fun h => ?_, Or.inr ⟨hnames, Or.inr hswap⟩⟩
    rw [h.linked] at hok
    exact absurd hok (by decide)

/-- What a delivery that is understood is accepted for: its objects are those its blocks name. -/
theorem objects_of_understood (hspawns : v.daemon.scratch.shared.inSpawns = false)
    (h : Understood v.env v.start (delivered seedName d files v)) :
    (v.parsed (delivered seedName d files v)).head.map Element.uniqueName =
      (declared false none (tokensOf (delivered seedName d files v))).reverse := by
  have hnames := names_of_taken h.taken
  have hinside : v.start.shared.inSpawns = false := hspawns
  have hname : v.start.name = none := rfl
  have hhead : v.start.head = [] := rfl
  rw [hinside, hname, hhead, List.map_nil, List.append_nil] at hnames
  exact hnames

/-- The complaints of the parser do not count: a delivery is refused for them exactly when there are
none, or when it fails over one of the few things that are checked and its failure costs nothing. One without any is
accepted for the objects that its blocks name. -/
theorem refusesMisread_iff :
    (RefusesMisread seedName d g files env v ↔
      Understood v.env v.start (delivered seedName d files v) ∨
        FailsCleanly seedName d g files env v) ∧
      (v.daemon.scratch.shared.inSpawns = false → Understood v.env v.start (delivered seedName d files v) →
        (v.parsed (delivered seedName d files v)).head.map Element.uniqueName =
          (declared false none (tokensOf (delivered seedName d files v))).reverse) := by
  refine ⟨?_, objects_of_understood⟩
  rw [RefusesMisread, ← failsCleanly_iff, ← error_confgenApply_iff]
  constructor
  · intro h
    by_cases hunderstood : Understood v.env v.start (delivered seedName d files v)
    · exact Or.inl hunderstood
    · obtain ⟨herror, hunchanged⟩ := h hunderstood
      exact Or.inr ⟨herror, (unchanged_done_iff herror).mp hunchanged⟩
  · rintro (hunderstood | ⟨herror, hcosts⟩) hmisread
    · exact absurd hunderstood hmisread
    · exact ⟨herror, (unchanged_done_iff herror).mpr hcosts⟩

/-! ### Four deliveries that are accepted -/

def healthyValidator : Validator where
  daemon := Reload.Daemon.unstarted
  env := resolving
  cached := false
  descriptors := 8
  forks := true

/-- One file: a root, its object, and something more. -/
def oneObjectAnd (more : String) : List File :=
  [⟨entryName, "root \"a\";object a \x7bip \"h\";type ping;\x7d;".toList ++ more.toList⟩]

/-- A character that no rule knows, a description without quotes, an include that is not there, and an
object of no known type: each is accepted, and a new generation runs. -/
theorem misread_accepted :
    ¬ RefusesMisread entryName runningOne 2 (oneObjectAnd "!") healthyApply healthyValidator ∧
      ¬ RefusesMisread entryName runningOne 2 (oneObjectAnd "desc b;") healthyApply
        healthyValidator ∧
      ¬ RefusesMisread entryName runningOne 2 (oneObjectAnd "include \"b\";") healthyApply
        healthyValidator ∧
      ¬ RefusesMisread entryName runningOne 2 (oneObjectAnd "object b \x7btype b;\x7d;") healthyApply
        healthyValidator := by
  -- evaluated together, so that the rules of the scanner are unfolded once
  have haccepted : ∀ more ∈ ["!", "desc b;", "include \"b\";", "object b \x7btype b;\x7d;"],
      ¬ Understood resolving healthyValidator.start
          (delivered entryName runningOne (oneObjectAnd more) healthyValidator) ∧
        (confgenApply entryName runningOne 2 (oneObjectAnd more) healthyApply
          healthyValidator).error = none := by
    decide +kernel
  have hnot : ∀ more ∈ ["!", "desc b;", "include \"b\";", "object b \x7btype b;\x7d;"],
      ¬ RefusesMisread entryName runningOne 2 (oneObjectAnd more) healthyApply healthyValidator := by
    intro more hmore hrefuses
    obtain ⟨hmisread, hok⟩ := haccepted more hmore
    exact (hrefuses hmisread).1 hok
  exact ⟨hnot _ (by simp), hnot _ (by simp), hnot _ (by simp), hnot _ (by simp)⟩

end Sysmon.ConfGen
