import Sysmon.Config.Parse

/-!
# The global settings of a configuration

What `Parse` collects beside the hosts: the name of the `root` object and the settings of the `config` lines. The
texts of these lines are the ones `configText` tells, so that the hosts are those of `parse`. The contacts and the
commands are left out still.
-/

namespace Sysmon.Config

open GoBytes

/-- `models.GlobalSettings`, less `From` and `Includes`, which `Parse` never sets. -/
structure GlobalSettings where
  checkInterval : Int
  numFailures : Int
  minNumFailures : Int
  flapTime : Int
  clientPort : Int
  pageInterval : Int
  sender : CStr
  subject : CStr
  replyTo : CStr
  errorsTo : CStr
  noSubject : Bool
  pMsg : CStr
  upColor : CStr
  downColor : CStr
  recentColor : CStr
  htmlRefresh : Int
  dateFormat : CStr
  showUpAlso : Bool
  statusFile : CStr
  statusFileType : CStr
  statusTempDir : CStr
  cssFile : CStr
  pidFile : CStr
  logging : CStr
  outputJSON : CStr
  dnsLog : Int
  dnsExpire : Int
  maxQueued : Int
  noHeartbeat : Bool
  noLogConnects : Bool
  snmpTrap : Bool
  authKey : CStr
  saveState : CStr
  deriving DecidableEq, Repr

/-- The settings `Parse` begins with. -/
def GlobalSettings.initial : GlobalSettings where
  checkInterval := 300
  numFailures := 0
  minNumFailures := 0
  flapTime := 0
  clientPort := 1345
  pageInterval := 0
  sender := []
  subject := []
  replyTo := []
  errorsTo := []
  noSubject := false
  pMsg := []
  upColor := []
  downColor := []
  recentColor := []
  htmlRefresh := 0
  dateFormat := []
  showUpAlso := false
  statusFile := []
  statusFileType := []
  statusTempDir := []
  cssFile := []
  pidFile := []
  logging := []
  outputJSON := []
  dnsLog := 0
  dnsExpire := 0
  maxQueued := 0
  noHeartbeat := false
  noLogConnects := false
  snmpTrap := false
  authKey := []
  saveState := []

/-! ### The lines behind `config` -/

/-- Those that are one word. -/
def flagSettings : List (String × (GlobalSettings → GlobalSettings)) :=
  [("noheartbeat", fun global => { global with noHeartbeat := true }),
    ("nologconnects", fun global => { global with noLogConnects := true }),
    ("showupalso", fun global => { global with showUpAlso := true }),
    ("snmp-trap", fun global => { global with snmpTrap := true }),
    ("nosubject", fun global => { global with noSubject := true })]

/-- Those with a number, which is the second field. -/
def numberSettings : List (List String × (GlobalSettings → Int → GlobalSettings)) :=
  [(["queuetime ", "checkinterval "], fun global value => { global with checkInterval := value }),
    (["numfailures "], fun global value => { global with numFailures := value }),
    (["minnumfailures "], fun global value => { global with minNumFailures := value }),
    (["flaptime "], fun global value => { global with flapTime := value }),
    (["clientport "], fun global value => { global with clientPort := value }),
    (["maxqueued "], fun global value => { global with maxQueued := value }),
    (["pageinterval "], fun global value => { global with pageInterval := value }),
    (["dnsexpire "], fun global value => { global with dnsExpire := value }),
    (["dnslog "], fun global value => { global with dnsLog := value })]

/-- Those with a text, less `statusfile`. -/
def textSettings : List (List String × (GlobalSettings → CStr → GlobalSettings)) :=
  [(["statustempdir "], fun global value => { global with statusTempDir := value }),
    (["sender ", "from "], fun global value => { global with sender := value }),
    (["subject "], fun global value => { global with subject := value }),
    (["replyto "], fun global value => { global with replyTo := value }),
    (["errorsto "], fun global value => { global with errorsTo := value }),
    (["authkey "], fun global value => { global with authKey := value }),
    (["savestate "], fun global value => { global with saveState := value }),
    (["pidfile "], fun global value => { global with pidFile := value }),
    (["cssfile "], fun global value => { global with cssFile := value }),
    (["outputjson "], fun global value => { global with outputJSON := value }),
    (["logging file "], fun global value => { global with logging := "file ".toList ++ value }),
    (["logging syslog "], fun global value => { global with logging := "syslog ".toList ++ value }),
    (["date ", "dateformat "], fun global value => { global with dateFormat := value }),
    (["pmesg ", "pmesg="], fun global value => { global with pMsg := value }),
    (["upcolor "], fun global value => { global with upColor := value }),
    (["downcolor "], fun global value => { global with downColor := value }),
    (["recentcolor "], fun global value => { global with recentColor := value })]

/-- The first branch for a line, told by the words it begins with. -/
def settingOf {α : Type} (table : List (List String × α)) (line : CStr) : Option α :=
  (table.find? fun setting => setting.1.any fun word => startsWith word line).map Prod.snd

/-- A number, where there is one. -/
def setGlobal (set : GlobalSettings → Int → GlobalSettings) (global : GlobalSettings) (value : Option Int) :
    GlobalSettings :=
  match value with
  | some value => set global value
  | none => global

/-- A line that gives no text to `extractQuoted`. -/
def setPlain (global : GlobalSettings) (line : CStr) : GlobalSettings :=
  match flagSettings.find? fun setting => setting.1.toList = line with
  | some (_, set) => set global
  | none =>
      match settingOf numberSettings line with
      | some set => setGlobal set global ((fields line)[1]?.bind atoi)
      | none =>
          if startsWith "htmlrefresh " line || startsWith "html refresh " line then
            if 2 ≤ (fields line).length then
              setGlobal (fun global value => { global with htmlRefresh := value }) global
                ((fields line).getLast?.bind atoi)
            else global
          else if startsWith "logging " line then
            { global with logging := trimSpace (trimPrefix "logging ".toList line) }
          else global

/-- A line that does, with what it gave back. -/
def setText (global : GlobalSettings) (line value : CStr) : GlobalSettings :=
  if startsWith "statusfile " line then
    { global with statusFileType := (fields line)[1]?.getD [], statusFile := value }
  else
    match settingOf textSettings line with
    | some set => set global value
    | none => global

/-! ### The whole configuration -/

/-- `models.Config`, as far as it is modelled. -/
structure Settled where
  global : GlobalSettings
  root : CStr
  hosts : List Host
  deriving DecidableEq, Repr

/-- Where `Parse` is, and the settings so far. -/
structure Reading where
  parsed : ParseState
  global : GlobalSettings
  root : CStr
  deriving DecidableEq, Repr

def Reading.start : Reading := ⟨ParseState.start, GlobalSettings.initial, []⟩

/-- `parseStatement`, and what the line sets. -/
def readStatement (r : Reading) (line : CStr) : Except Failure Reading := do
  let parsed ← parseStatement r.parsed line
  if startsWith "spawns" line ∧ '\x7b' ∈ line ∨ r.parsed.inSpawns then return { r with parsed }
  else if startsWith "root" line then
    let root ← extractQuoted (rootText line)
    return { r with parsed, root }
  else if startsWith "config " line then
    let line := trimPrefix "config ".toList line
    match configText line with
    | some text => do
        let value ← extractQuoted text
        return { r with parsed, global := setText r.global line value }
    | none => return { r with parsed, global := setPlain r.global line }
  else return { r with parsed }

def readLine (r : Reading) (line : CStr) : Except Failure Reading :=
  let line := trimSpace line
  if line = [] ∨ line.head? = some ';' ∨ line.head? = some '#' then return r
  else readStatement r (trimSuffix ';' line)

/-- `Parse`. -/
def parseConfig (content : CStr) : Except Failure Settled := do
  let statements := splitStatements content
  let r ← (scanLines statements).foldlM readLine Reading.start
  if scanOk statements then return ⟨r.global, r.root, r.parsed.hosts⟩ else throw .failed

/-! ### Its hosts -/

theorem readStatement_parsed (r : Reading) (line : CStr) :
    (readStatement r line).map Reading.parsed = parseStatement r.parsed line := by
  unfold readStatement parseStatement
  by_cases hspawns : startsWith "spawns" line ∧ '\x7b' ∈ line
  · simp only [if_pos hspawns, if_pos (Or.inl hspawns : _ ∨ r.parsed.inSpawns = true)]
    rfl
  · simp only [if_neg hspawns]
    by_cases hin : r.parsed.inSpawns = true
    · simp only [if_pos hin, if_pos (Or.inr hin : (startsWith "spawns" line = true ∧ '\x7b' ∈ line) ∨ _)]
      rfl
    · simp only [if_neg hin, if_neg (not_or_intro hspawns hin)]
      by_cases hroot : startsWith "root" line = true
      · simp only [if_pos hroot]
        cases extractQuoted (rootText line) <;> rfl
      · simp only [if_neg hroot]
        by_cases hconfig : startsWith "config " line = true
        · simp only [if_pos hconfig]
          cases configText (trimPrefix "config ".toList line) with
          | none => rfl
          | some text =>
              dsimp only
              cases extractQuoted text <;> rfl
        · simp only [if_neg hconfig]
          generalize (if startsWith "set " line then _ else _ : Except Failure ParseState) = parsed
          cases parsed <;> rfl

theorem readLine_parsed (r : Reading) (line : CStr) : (readLine r line).map Reading.parsed = parseLine r.parsed line := by
  unfold readLine parseLine
  dsimp only
  split
  · rfl
  · exact readStatement_parsed r _

theorem foldlM_readLine (lines : List CStr) (r : Reading) :
    (lines.foldlM readLine r).map Reading.parsed = lines.foldlM parseLine r.parsed := by
  induction lines generalizing r with
  | nil => rfl
  | cons line lines ih =>
      rw [List.foldlM_cons, List.foldlM_cons, ← readLine_parsed]
      cases readLine r line with
      | error failure => rfl
      | ok next => exact ih next

/-- The hosts are those of `parse`. -/
theorem hosts_parseConfig (content : CStr) : (parseConfig content).map Settled.hosts = parse content := by
  rw [parseConfig, parse]
  have h := foldlM_readLine (scanLines (splitStatements content)) Reading.start
  rw [show Reading.start.parsed = ParseState.start from rfl] at h
  rw [← h]
  cases (scanLines (splitStatements content)).foldlM readLine Reading.start with
  | error failure => rfl
  | ok r =>
      simp only [bind, Except.bind, Except.map]
      cases scanOk (splitStatements content) <;> rfl

example : (parseConfig "config numfailures 5; config logging syslog \"local1\";\n".toList).map
    (fun settled => (settled.global.numFailures, settled.global.logging)) = .ok (5, "syslog local1".toList) := by
  decide +kernel

end Sysmon.Config
