import Sysmon.Host
import Sysmon.Lib.Run

/-!
# The generation directory

What `confgen.c` keeps on disk, and the system calls it makes there. A generation is a flat
directory of files; `current` and `previous` are symbolic links, known by the generation they name;
`main` holds the name of the entry file. A symbolic link and the `main` file are replaced by writing
`<name>.new` and renaming it, so the `.new` files are part of the disk too. Every system call that
changes the disk is an `FsOp`, files are written byte by byte, and an operation of the daemon is the
list of calls it makes: a crash is then a prefix of the list.
-/

namespace Sysmon.ConfGen

/-- `struct confgen_file`, and a file of a generation directory. -/
structure File where
  name : CStr
  data : CStr
  deriving DecidableEq, Repr

abbrev Dir := List File

inductive Link where
  | current
  | previous
  deriving DecidableEq, Repr

structure Store where
  gens : UInt64 → Option Dir
  link : Link → Option UInt64
  linkNew : Link → Option UInt64
  main : Option CStr
  mainNew : Option CStr

inductive FsOp where
  | unlinkFile (gen : UInt64) (name : CStr)
  | rmdir (gen : UInt64)
  | mkdir (gen : UInt64)
  | create (gen : UInt64) (name : CStr)
  | append (gen : UInt64) (name : CStr) (byte : Char)
  | unlinkLink (link : Link)
  | unlinkNew (link : Link)
  | symlinkNew (link : Link) (gen : UInt64)
  | renameNew (link : Link)
  | createMainNew
  | appendMainNew (byte : Char)
  | unlinkMainNew
  | renameMainNew
  deriving DecidableEq, Repr

/-- `fopen` for writing: an empty file of that name, in its place if it was there. -/
def createIn (name : CStr) (dir : Dir) : Dir :=
  if name ∈ dir.map File.name then dir.map fun f => if f.name = name then { f with data := [] } else f
  else dir ++ [⟨name, []⟩]

def appendIn (name : CStr) (byte : Char) (dir : Dir) : Dir :=
  dir.map fun f => if f.name = name then { f with data := f.data ++ [byte] } else f

def Store.updateDir (s : Store) (gen : UInt64) (f : Dir → Dir) : Store :=
  { s with gens := Function.update s.gens gen ((s.gens gen).map f) }

def Store.step (s : Store) : FsOp → Store
  | .unlinkFile gen name => s.updateDir gen fun dir => dir.filter fun f => f.name ≠ name
  | .rmdir gen => { s with gens := Function.update s.gens gen none }
  | .mkdir gen => { s with gens := Function.update s.gens gen (some []) }
  | .create gen name => s.updateDir gen (createIn name)
  | .append gen name byte => s.updateDir gen (appendIn name byte)
  | .unlinkLink link => { s with link := Function.update s.link link none }
  | .unlinkNew link => { s with linkNew := Function.update s.linkNew link none }
  | .symlinkNew link gen => { s with linkNew := Function.update s.linkNew link (some gen) }
  | .renameNew link =>
      { s with
        link := Function.update s.link link (s.linkNew link)
        linkNew := Function.update s.linkNew link none }
  | .createMainNew => { s with mainNew := some [] }
  | .appendMainNew byte => { s with mainNew := s.mainNew.map (· ++ [byte]) }
  | .unlinkMainNew => { s with mainNew := none }
  | .renameMainNew => { s with main := s.mainNew, mainNew := none }

/-- The disk after a list of calls. -/
def Store.exec (s : Store) (ops : List FsOp) : Store := Run.exec Store.step s ops

theorem Store.exec_append (s : Store) (left right : List FsOp) :
    s.exec (left ++ right) = (s.exec left).exec right := Run.exec_append _ _ _ _

@[simp] theorem Store.exec_nil (s : Store) : s.exec [] = s := rfl

@[simp] theorem Store.exec_cons (s : Store) (op : FsOp) (ops : List FsOp) :
    s.exec (op :: ops) = (s.step op).exec ops := rfl

/-! ### What a call leaves alone -/

/-- The generation directory a call works in, if it works in one. -/
def FsOp.gen : FsOp → Option UInt64
  | .unlinkFile gen _ | .rmdir gen | .mkdir gen | .create gen _ | .append gen _ _ => some gen
  | _ => none

/-- The link a call sets or removes. A link that is only being prepared does not count. -/
def FsOp.writes : FsOp → Option Link
  | .unlinkLink link | .renameNew link => some link
  | _ => none

theorem Store.step_gens {s : Store} {op : FsOp} {gen : UInt64} (h : op.gen ≠ some gen) :
    (s.step op).gens gen = s.gens gen := by
  cases op with
  | unlinkFile g _ | rmdir g | mkdir g | create g _ | append g _ _ =>
      have hne : gen ≠ g := fun heq => h (by simp [FsOp.gen, heq])
      simp [Store.step, Store.updateDir, Function.update_of_ne hne]
  | _ => rfl

theorem Store.step_link {s : Store} {op : FsOp} {link : Link} (h : op.writes ≠ some link) :
    (s.step op).link link = s.link link := by
  cases op with
  | unlinkLink l | renameNew l =>
      have hne : link ≠ l := fun heq => h (by simp [FsOp.writes, heq])
      simp [Store.step, Function.update_of_ne hne]
  | _ => rfl

theorem Store.exec_gens {s : Store} {ops : List FsOp} {gen : UInt64}
    (h : ∀ op ∈ ops, op.gen ≠ some gen) : (s.exec ops).gens gen = s.gens gen := by
  induction ops generalizing s with
  | nil => rfl
  | cons op ops ih =>
      rw [Store.exec_cons, ih fun o ho => h o (List.mem_cons_of_mem op ho),
        Store.step_gens (h op List.mem_cons_self)]

theorem Store.exec_link {s : Store} {ops : List FsOp} {link : Link}
    (h : ∀ op ∈ ops, op.writes ≠ some link) : (s.exec ops).link link = s.link link := by
  induction ops generalizing s with
  | nil => rfl
  | cons op ops ih =>
      rw [Store.exec_cons, ih fun o ho => h o (List.mem_cons_of_mem op ho),
        Store.step_link (h op List.mem_cons_self)]

/-! ### The pieces an operation is made of -/

/-- `remove_gen_dir`: a generation directory holds plain files and nothing else, so all of them go
and the directory after them. -/
def removeGenDirOps (s : Store) (gen : UInt64) : List FsOp :=
  match s.gens gen with
  | none => []
  | some dir => dir.map (fun f => .unlinkFile gen f.name) ++ [.rmdir gen]

/-- `write_whole`. A write that fails has made the first `k` of its calls, none if the file could
not even be opened. -/
def writeWholeOps (gen : UInt64) (file : File) (failed : Option Nat) : List FsOp :=
  let whole := .create gen file.name :: file.data.map (.append gen file.name)
  match failed with
  | none => whole
  | some k => whole.take k

/-- What the two calls of `point_link` that can fail answer. -/
structure LinkEnv where
  symlink : Bool
  rename : Bool
  deriving DecidableEq, Repr

def LinkEnv.ok (env : LinkEnv) : Bool := env.symlink && env.rename

def pointLinkOps (env : LinkEnv) (link : Link) (gen : UInt64) : List FsOp :=
  if !env.symlink then [.unlinkNew link]
  else if !env.rename then [.unlinkNew link, .symlinkNew link gen, .unlinkNew link]
  else [.unlinkNew link, .symlinkNew link gen, .renameNew link]

/-- What the calls of `save_mainname` answer. -/
structure MainEnv where
  open_ : Bool
  /-- `fclose` failed, with so many bytes written. -/
  close : Option Nat
  rename : Bool
  deriving DecidableEq, Repr

def saveMainnameOps (env : MainEnv) (mainname : CStr) : List FsOp :=
  let text := (mainname ++ ['\n']).map FsOp.appendMainNew
  if !env.open_ then []
  else
    match env.close with
    | some k => .createMainNew :: text.take k
    | none =>
        .createMainNew :: text ++ if env.rename then [.renameMainNew] else [.unlinkMainNew]

def generationsKept : UInt64 := 5

/-- The generations `prune_generations` leaves: those the links name, and the last few. -/
def kept (cur prev gen : UInt64) : Bool :=
  gen = 0 || gen = cur || gen = prev || (generationsKept < cur && cur - generationsKept ≤ gen)

/-- `linked_generation`. -/
def Store.linkedGeneration (s : Store) (link : Link) : UInt64 := (s.link link).getD 0

/-- The loop of `prune_generations`. `readdir` names the generations in whatever order; each one
that is not kept goes. -/
def pruneLoopOps (cur prev : UInt64) (s : Store) : List UInt64 → List FsOp
  | [] => []
  | gen :: rest =>
      let ops := if kept cur prev gen then [] else removeGenDirOps s gen
      ops ++ pruneLoopOps cur prev (s.exec ops) rest

def pruneOps (s : Store) (readdir : List UInt64) : List FsOp :=
  pruneLoopOps (s.linkedGeneration .current) (s.linkedGeneration .previous) s readdir

/-! ### What the pieces touch -/

theorem gen_removeGenDirOps {s : Store} {gen : UInt64} {op : FsOp} (h : op ∈ removeGenDirOps s gen) :
    op.gen = some gen := by
  rw [removeGenDirOps] at h
  split at h
  · exact absurd h List.not_mem_nil
  · simp only [List.mem_append, List.mem_map, List.mem_singleton] at h
    obtain ⟨f, -, rfl⟩ | rfl := h <;> rfl

theorem gen_writeWholeOps {gen : UInt64} {file : File} {failed : Option Nat} {op : FsOp}
    (h : op ∈ writeWholeOps gen file failed) : op.gen = some gen := by
  have hwhole : ∀ op ∈ (.create gen file.name :: file.data.map (.append gen file.name) : List FsOp),
      op.gen = some gen := by
    intro op hop
    simp only [List.mem_cons, List.mem_map] at hop
    obtain rfl | ⟨byte, -, rfl⟩ := hop <;> rfl
  cases failed with
  | none => exact hwhole op h
  | some k => exact hwhole op (List.mem_of_mem_take h)

/-- A call that works in a generation directory sets no link. -/
theorem writes_of_gen {op : FsOp} {gen : UInt64} (h : op.gen = some gen) : op.writes = none := by
  cases op <;> first | rfl | exact absurd h (by simp [FsOp.gen])

theorem gen_pointLinkOps {env : LinkEnv} {link : Link} {gen : UInt64} {op : FsOp}
    (h : op ∈ pointLinkOps env link gen) : op.gen = none := by
  simp only [pointLinkOps] at h
  split at h
  · rw [List.mem_singleton.mp h]
    rfl
  · split at h <;>
    · simp only [List.mem_cons, List.not_mem_nil, or_false] at h
      obtain rfl | rfl | rfl := h <;> rfl

theorem saveMainnameOps_frame {env : MainEnv} {mainname : CStr} {op : FsOp}
    (h : op ∈ saveMainnameOps env mainname) : op.gen = none ∧ op.writes = none := by
  have htext : ∀ op ∈ (mainname ++ ['\n']).map FsOp.appendMainNew, op.gen = none ∧ op.writes = none := by
    intro op hop
    obtain ⟨byte, -, rfl⟩ := List.mem_map.mp hop
    exact ⟨rfl, rfl⟩
  simp only [saveMainnameOps] at h
  split at h
  · exact absurd h List.not_mem_nil
  · split at h
    · obtain rfl | hmem := List.mem_cons.mp h
      · exact ⟨rfl, rfl⟩
      · exact htext op (List.mem_of_mem_take hmem)
    · simp only [List.cons_append, List.mem_cons, List.mem_append] at h
      obtain rfl | hmem | hlast := h
      · exact ⟨rfl, rfl⟩
      · exact htext op hmem
      · split at hlast <;> rw [List.mem_singleton.mp hlast] <;> exact ⟨rfl, rfl⟩

theorem gen_pruneLoopOps {cur prev : UInt64} {s : Store} {readdir : List UInt64} {op : FsOp}
    (h : op ∈ pruneLoopOps cur prev s readdir) :
    ∃ gen, op.gen = some gen ∧ kept cur prev gen = false := by
  induction readdir generalizing s with
  | nil => exact absurd h List.not_mem_nil
  | cons gen rest ih =>
      simp only [pruneLoopOps, List.mem_append] at h
      obtain hmem | hmem := h
      · by_cases hkept : kept cur prev gen = true
        · rw [if_pos hkept] at hmem
          exact absurd hmem List.not_mem_nil
        · rw [if_neg hkept] at hmem
          exact ⟨gen, gen_removeGenDirOps hmem, eq_false_of_ne_true hkept⟩
      · exact ih hmem

/-- Pruning keeps its hands off what the links name. -/
theorem gen_pruneOps {s : Store} {readdir : List UInt64} {op : FsOp} {link : Link} {gen : UInt64}
    (h : op ∈ pruneOps s readdir) (hlink : s.link link = some gen) : op.gen ≠ some gen := by
  obtain ⟨pruned, hop, hkept⟩ := gen_pruneLoopOps h
  intro heq
  have hsame : pruned = gen := Option.some.inj (hop.symm.trans heq)
  have hlinked : s.linkedGeneration link = gen := by rw [Store.linkedGeneration, hlink]; rfl
  cases link <;> simp [kept, hsame, hlinked] at hkept

theorem writes_pruneOps {s : Store} {readdir : List UInt64} {op : FsOp}
    (h : op ∈ pruneOps s readdir) : op.writes = none := by
  obtain ⟨gen, hop, -⟩ := gen_pruneLoopOps h
  exact writes_of_gen hop

/-! ### What the pieces do -/

theorem exec_removeGenDirOps (s : Store) (gen : UInt64) :
    (s.exec (removeGenDirOps s gen)).gens gen = none := by
  rw [removeGenDirOps]
  split
  case h_1 hnone => exact hnone
  case h_2 =>
    rw [Store.exec_append]
    simp [Store.step]

theorem exec_pointLinkOps (env : LinkEnv) (link : Link) (gen : UInt64) (s : Store) :
    (s.exec (pointLinkOps env link gen)).link =
      if env.ok then Function.update s.link link (some gen) else s.link := by
  rw [pointLinkOps]
  cases hsymlink : env.symlink <;> cases hrename : env.rename <;>
    simp [LinkEnv.ok, hsymlink, hrename, Store.step]

end Sysmon.ConfGen
