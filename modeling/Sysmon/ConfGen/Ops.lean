import Sysmon.ConfGen.Store

/-!
# Apply, roll back, revert

The three operations a `sysmon-web` can ask for, with the pruning that ends a delivery, and
`confgen_active_config`, which reads the disk back. Each operation is given as the calls it makes in
order, what it leaves in memory, and its answer. Where it can fail it fails as the environment says,
and the source's own cleanup follows.
-/

namespace Sysmon.ConfGen

def orderFile : CStr := ".order".toList

def flatName (name : CStr) : Bool :=
  !name.isEmpty && !name.contains '/' && name.head? != some '.' && name.length < 128

/-- What the daemon knows: the disk, `running_generation` and `gen_mainname`. -/
structure Daemon where
  disk : Store
  running : UInt64
  mainname : CStr

/-- `confgen_active_config`, apart from the entry name: the generation to load, 0 for the seed. The
candidate is looked up through the link, so the directory it names must be there and hold the entry
file. -/
def activeGeneration (disk : Store) (mainname : CStr) : UInt64 :=
  match disk.link .current with
  | none => 0
  | some gen =>
      if gen ≠ 0 ∧ mainname ∈ ((disk.gens gen).getD []).map File.name then gen else 0

/-- The entry name after `confgen_active_config`: what `main` says, if that is a plain name. -/
def readMainname (seedName : CStr) (disk : Store) (mainname : CStr) : CStr :=
  let read := ((disk.main.map fun text => text.takeWhile (· ≠ '\n'))).getD mainname
  if flatName read then read else seedName

/-- The daemon asks again which configuration is live. -/
def Daemon.reload (seedName : CStr) (d : Daemon) : Daemon :=
  let mainname := readMainname seedName d.disk d.mainname
  { d with mainname := mainname, running := activeGeneration d.disk mainname }

/-- The same from a fresh process, which remembers nothing. -/
def Daemon.restart (seedName : CStr) (disk : Store) : Daemon :=
  Daemon.reload seedName ⟨disk, 0, []⟩

/-! ### Apply -/

inductive OpError where
  | noFiles
  | generationZero
  | notPlain (name : CStr)
  | twice (name : CStr)
  | noMain (mainname : CStr)
  | cannotCreate
  | cannotWrite
  | cannotWriteOrder
  | rejected
  | cannotPoint
  | noPrevious
  | runningSeed
  | seedRejected
  | cannotRemove
  deriving DecidableEq, Repr

/-- What the system answers during one delivery. -/
structure ApplyEnv where
  mkdir : Bool
  /-- The file that fails to be written, if one does, and the calls made on it by then. -/
  write : Nat → Option Nat
  order : Option Nat
  /-- `validate_config` of the staged copy. -/
  verdict : Bool
  previous : LinkEnv
  main : MainEnv
  current : LinkEnv
  readdir : List UInt64

/-- The loop over the names: the first that is not plain, or has come before. -/
def nameError (earlier : List File) : List File → Option OpError
  | [] => none
  | file :: files =>
      if !flatName file.name then some (.notPlain file.name)
      else if file.name ∈ earlier.map File.name then some (.twice file.name)
      else nameError (earlier ++ [file]) files

/-- The checks made before anything is touched. An entry name that is not known yet is taken from
the seed's. -/
def refusal (seedName : CStr) (d : Daemon) (generation : UInt64) (files : List File) :
    Option OpError :=
  let mainname := if d.mainname = [] then seedName else d.mainname
  if files = [] then some .noFiles
  else if generation = 0 then some .generationZero
  else
    match nameError [] files with
    | some err => some err
    | none => if mainname ∈ files.map File.name then none else some (.noMain mainname)

def writeFilesOps (gen : UInt64) (write : Nat → Option Nat) : Nat → List File → List FsOp
  | _, [] => []
  | i, file :: files =>
      match write i with
      | none => writeWholeOps gen file none ++ writeFilesOps gen write (i + 1) files
      | some k => writeWholeOps gen file (some k)

def orderText (files : List File) : CStr := files.flatMap fun f => f.name ++ ['\n']

def orderOf (files : List File) : File := ⟨orderFile, orderText files⟩

/-- The first thing that goes wrong while the delivery is staged. -/
def stageError (env : ApplyEnv) (files : List File) : Option OpError :=
  if !env.mkdir then some .cannotCreate
  else if ((List.range files.length).any fun i => (env.write i).isSome) then some .cannotWrite
  else if env.order.isSome then some .cannotWriteOrder
  else if !env.verdict then some .rejected
  else none

/-- The calls made while the delivery is staged, before its cleanup if it fails. -/
def stageOps (env : ApplyEnv) (gen : UInt64) (files : List File) : List FsOp :=
  if !env.mkdir then []
  else
    .mkdir gen :: writeFilesOps gen env.write 0 files ++
      if (List.range files.length).any fun i => (env.write i).isSome then []
      else writeWholeOps gen (orderOf files) env.order

/-- `previous` first: if the machine dies in between, `current` is still what was running. -/
def swapOps (env : ApplyEnv) (d : Daemon) (mainname : CStr) : List FsOp :=
  (if 0 < d.running then pointLinkOps env.previous .previous d.running else []) ++
    saveMainnameOps env.main mainname

/-- What an operation did: its calls, the daemon's memory after it, its answer, and after how many
calls `validate_config` had passed the configuration it is about to make live. -/
structure Outcome where
  ops : List FsOp
  running : UInt64
  mainname : CStr
  error : Option OpError
  validated : Option Nat

def apply (seedName : CStr) (d : Daemon) (generation : UInt64) (files : List File)
    (env : ApplyEnv) : Outcome :=
  let mainname := if d.mainname = [] then seedName else d.mainname
  match refusal seedName d generation files with
  | some (.noMain _) => ⟨[], d.running, mainname, some (.noMain mainname), none⟩
  | some err => ⟨[], d.running, d.mainname, some err, none⟩
  | none =>
      let staged := removeGenDirOps d.disk generation ++ stageOps env generation files
      match stageError env files with
      | some .cannotCreate => ⟨staged, d.running, mainname, some .cannotCreate, none⟩
      | some err =>
          ⟨staged ++ removeGenDirOps (d.disk.exec staged) generation, d.running, mainname,
            some err, none⟩
      | none =>
          let swapped := staged ++ (swapOps env d mainname ++
            pointLinkOps env.current .current generation)
          if env.current.ok then
            ⟨swapped ++ pruneOps (d.disk.exec swapped) env.readdir, generation, mainname, none,
              some staged.length⟩
          else
            ⟨swapped ++ removeGenDirOps (d.disk.exec swapped) generation, d.running, mainname,
              some .cannotPoint, some staged.length⟩

/-! ### Roll back, revert, prune -/

structure RollbackEnv where
  verdict : Bool
  current : LinkEnv
  previous : LinkEnv
  deriving DecidableEq, Repr

/-- `validate_config` of an entry file: one that cannot be opened never passes. -/
def validateConfig (disk : Store) (gen : UInt64) (mainname : CStr) (verdict : Bool) : Bool :=
  decide (mainname ∈ ((disk.gens gen).getD []).map File.name) && verdict

def rollback (d : Daemon) (env : RollbackEnv) : Outcome :=
  let cur := d.running
  let prev := d.disk.linkedGeneration .previous
  if prev = 0 ∨ prev = cur then ⟨[], d.running, d.mainname, some .noPrevious, none⟩
  else if !validateConfig d.disk prev d.mainname env.verdict then
    ⟨[], d.running, d.mainname, some .rejected, none⟩
  else if !env.current.ok then
    ⟨pointLinkOps env.current .current prev, d.running, d.mainname, some .cannotPoint, none⟩
  else
    ⟨pointLinkOps env.current .current prev ++
        if 0 < cur then pointLinkOps env.previous .previous cur else [],
      prev, d.mainname, none, none⟩

structure RevertEnv where
  /-- `validate_config` of the seed. -/
  verdict : Bool
  /-- The link is gone afterwards, or was not there. -/
  unlink : Bool
  deriving DecidableEq, Repr

def revert (d : Daemon) (env : RevertEnv) : Outcome :=
  if d.running = 0 then ⟨[], d.running, d.mainname, some .runningSeed, none⟩
  else if !env.verdict then ⟨[], d.running, d.mainname, some .seedRejected, none⟩
  else if !env.unlink then ⟨[], d.running, d.mainname, some .cannotRemove, none⟩
  else ⟨[.unlinkLink .current], 0, d.mainname, none, none⟩

def prune (d : Daemon) (readdir : List UInt64) : Outcome :=
  ⟨pruneOps d.disk readdir, d.running, d.mainname, none, none⟩

/-! ### Runs -/

inductive Op where
  | apply (generation : UInt64) (files : List File) (env : ApplyEnv)
  | rollback (env : RollbackEnv)
  | revert (env : RevertEnv)
  | prune (readdir : List UInt64)

def Op.outcome (seedName : CStr) (d : Daemon) : Op → Outcome
  | .apply generation files env => ConfGen.apply seedName d generation files env
  | .rollback env => ConfGen.rollback d env
  | .revert env => ConfGen.revert d env
  | .prune readdir => ConfGen.prune d readdir

def Outcome.done (o : Outcome) (d : Daemon) : Daemon where
  disk := d.disk.exec o.ops
  running := o.running
  mainname := o.mainname

/-- An operation runs to its end, the machine dies after some of its calls and comes up again, or
the main loop reloads. -/
inductive Event where
  | op (op : Op)
  | crash (op : Op) (calls : Nat)
  | reload

def Daemon.step (seedName : CStr) (d : Daemon) : Event → Daemon
  | .op op => (op.outcome seedName d).done d
  | .crash op calls => Daemon.restart seedName (d.disk.exec ((op.outcome seedName d).ops.take calls))
  | .reload => d.reload seedName

/-- A box that has never been managed. -/
def emptyStore : Store where
  gens := fun _ => none
  link := fun _ => none
  linkNew := fun _ => none
  main := none
  mainNew := none

end Sysmon.ConfGen
