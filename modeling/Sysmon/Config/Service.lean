import Sysmon.Config.Splice
import Sysmon.Lib.Run

/-!
# The configuration service

`service.go`, and the two readers of `parser.go` that follow `include` lines. The service hands out snapshots of the
configuration, each with a version, and takes them back changed. A version is the SHA-256 of a text, which is a
parameter here. What a call does to the files and to the backups is its second result, so that a call that fails has
one as well. The second in which a call backs the configuration up comes with the call. The audit log and the signal
to the daemon are left out, and so are writes that fail.
-/

namespace Sysmon.Config

open GoBytes

/-! ### Includes -/

/-- The path in a line that is an `include`. -/
def includeLine (line : CStr) : Except Failure (Option CStr) :=
  let line := trimSuffix ';' (trimSpace line)
  if startsWith "include " line then do
    let incPath ← extractQuoted (trimPrefix "include ".toList line)
    return if incPath = [] then none else some incPath
  else return none

/-- What an included file adds to what is there: nothing, if it could not be read. -/
def merge {α : Type} (all : List α) : Except Failure (List α) → Except Failure (List α)
  | .ok more => .ok (all ++ more)
  | .error .failed => .ok all
  | .error .panicked => .error .panicked

/-- A line of a file, of which an `include` is followed. -/
def mergeLine {α : Type} (one : CStr → Except Failure (List α)) (path : CStr) (all : List α) (line : CStr) :
    Except Failure (List α) := do
  match ← includeLine line with
  | none => return all
  | some inc => merge all (one (includePath path inc))

/-- The included files of a text, in the order of its lines. -/
def mergeIncludes {α : Type} (one : CStr → Except Failure (List α)) (path content : CStr) (all : List α) :
    Except Failure (List α) := (scanLines content).foldlM (mergeLine one path) all

/-- `collectIncludes`, with so many levels left. -/
def collectIncludes (disk : Files) : Nat → CStr → Except Failure CStr
  | 0, _ => .ok []
  | levels + 1, path =>
      match disk path with
      | none => .error .failed
      | some content => mergeIncludes (collectIncludes disk levels) path content content

/-- `parseWithIncludes`, of the file of this path. -/
def parseWithIncludes (disk : Files) : Nat → CStr → Except Failure (List Host)
  | 0, _ => .error .failed
  | levels + 1, path =>
      match disk path with
      | none => .error .failed
      | some content => do mergeIncludes (parseWithIncludes disk levels) path content (← parse content)

/-- `CollectAllContent`. -/
def collectAllContent (disk : Files) (path : CStr) : Except Failure CStr := collectIncludes disk includeLevels path

/-- `ParseFile`. -/
def parseFile (disk : Files) (path : CStr) : Except Failure (List Host) := parseWithIncludes disk includeLevels path

/-! ### The service -/

section Service

variable {V : Type} [DecidableEq V] (sha : CStr → V) (configPath : CStr)

/-- `models.ConfigSnapshot`, and `models.ConfigUpdate`. -/
structure Snapshot (V : Type) where
  version : V
  hosts : List Host
  deriving DecidableEq, Repr

/-- `GetConfig`. -/
def getConfig (disk : Files) : Except Failure (Snapshot V) := do
  let allContent ← collectAllContent disk configPath
  let hosts ← parseFile disk configPath
  return ⟨sha allContent, hosts⟩

/-- `getCurrentVersion`. -/
def getCurrentVersion (disk : Files) : Option V := (disk configPath).map sha

/-- `getConfigUnlocked`. -/
def getConfigUnlocked (disk : Files) : Except Failure (Snapshot V) :=
  match disk configPath with
  | none => .error .failed
  | some content => do return ⟨sha content, ← parse content⟩

/-- The files, and the backups by their names. -/
structure State where
  disk : Files
  backups : Files

/-- What a call answers. -/
inductive Answer (V : Type) where
  | snapshot (s : Snapshot V)
  | version (v : V)
  | done
  /-- `VersionConflictError`, with `Current` where there is one. -/
  | conflict (current : Option (Snapshot V))
  | failure (f : Failure)
  deriving DecidableEq, Repr

/-- The call has not returned an error. -/
def Answer.succeeded {V : Type} : Answer V → Bool
  | .snapshot _ | .version _ | .done => true
  | .conflict _ | .failure _ => false

/-- The name of a backup of this second. -/
def backupName (stamp : CStr) : CStr := "sysmon-".toList ++ stamp ++ ".conf".toList

/-- `backupConfig`. A backup of the same name is written over. -/
def State.backup (st : State) (stamp : CStr) : Option State :=
  (st.disk configPath).map fun content => { st with backups := st.backups.set (backupName stamp) content }

def answerOf {V : Type} (f : Snapshot V → Answer V) : Except Failure (Snapshot V) → Answer V
  | .ok s => f s
  | .error failure => .failure failure

/-- What `UpdateConfig` does once it has backed the configuration up. -/
def State.splice (st : State) (hosts : List Host) : Answer V × State :=
  match loadDocument st.disk configPath with
  | none => (.failure .failed, st)
  | some doc =>
      match doc.apply hosts with
      | .error failure => (.failure failure, st)
      | .ok applied =>
          let disk := applied.doc.save st.disk
          (answerOf .snapshot (getConfigUnlocked sha configPath disk), { st with disk := disk })

/-- `UpdateConfig`. -/
def updateConfig (stamp : CStr) (update : Snapshot V) (st : State) : Answer V × State :=
  match getCurrentVersion sha configPath st.disk with
  | none => (.failure .failed, st)
  | some current =>
      if update.version ≠ current then
        (answerOf (fun current => .conflict (some current)) (getConfigUnlocked sha configPath st.disk), st)
      else if validate update.hosts then
        match st.backup configPath stamp with
        | none => (.failure .failed, st)
        | some st => st.splice sha configPath update.hosts
      else (.failure .failed, st)

/-- What is left to do once a text is found to be a configuration: the one there is is backed up, then written
over. -/
def State.overwrite (st : State) (stamp content : CStr) (answer : Answer V) : Answer V × State :=
  match st.backup configPath stamp with
  | none => (.failure .failed, st)
  | some st => (answer, { st with disk := st.disk.set configPath content })

/-- `UpdateRawConfig`. -/
def updateRawConfig (stamp content : CStr) (version : V) (st : State) : Answer V × State :=
  match getCurrentVersion sha configPath st.disk with
  | none => (.failure .failed, st)
  | some current =>
      if version ≠ current then (.conflict none, st)
      else
        match parse content with
        | .error failure => (.failure failure, st)
        | .ok _ => st.overwrite configPath stamp content (.version (sha content))

/-- The file names that lead nowhere else. -/
def safeName (filename : CStr) : Bool := filename ≠ [] ∧ '/' ∉ filename ∧ ¬"..".toList <:+: filename

/-- `RestoreBackup`. -/
def restoreBackup (stamp filename : CStr) (st : State) : Answer V × State :=
  if safeName filename then
    match st.backups filename with
    | none => (.failure .failed, st)
    | some content =>
        match parse content with
        | .error failure => (.failure failure, st)
        | .ok _ => st.overwrite configPath stamp content .done
  else (.failure .failed, st)

/-! ### Calls -/

/-- The calls that write. -/
inductive Call (V : Type) where
  | updateConfig (update : Snapshot V)
  | updateRawConfig (content : CStr) (version : V)
  | restoreBackup (filename : CStr)

def Call.run (stamp : CStr) (st : State) : Call V → Answer V × State
  | .updateConfig update => Config.updateConfig sha configPath stamp update st
  | .updateRawConfig content version => Config.updateRawConfig sha configPath stamp content version st
  | .restoreBackup filename => Config.restoreBackup configPath stamp filename st

@[simp] theorem Call.run_updateConfig (stamp : CStr) (st : State) (update : Snapshot V) :
    (Call.updateConfig update).run sha configPath stamp st = Config.updateConfig sha configPath stamp update st := rfl

@[simp] theorem Call.run_updateRawConfig (stamp : CStr) (st : State) (content : CStr) (version : V) :
    (Call.updateRawConfig content version).run sha configPath stamp st =
      Config.updateRawConfig sha configPath stamp content version st := rfl

@[simp] theorem Call.run_restoreBackup (stamp : CStr) (st : State) (filename : CStr) :
    (Call.restoreBackup filename).run sha configPath stamp st = Config.restoreBackup configPath stamp filename st := rfl

/-- A call in some second, or a file that is written or removed from outside. -/
inductive Event (V : Type) where
  | call (stamp : CStr) (call : Call V)
  | edit (path : CStr) (content : Option CStr)

def step (st : State) : Event V → State
  | .call stamp call => (call.run sha configPath stamp st).2
  | .edit path content => { st with disk := fun p => if p = path then content else st.disk p }

end Service

end Sysmon.Config
