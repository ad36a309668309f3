import Mathlib.Algebra.Order.Ring.Rat
import Sysmon.Host
import Sysmon.Lib.GoBytes

/-!
# The web interface reads a configuration

`Parse` of `parser.go`, as far as the objects go. It reads a line at a time, after `splitStatements` has put each
statement on a line of its own, and knows where it is by three flags: inside the `spawns` block, inside one of its
definitions, inside an object. The global settings, the contacts and the commands it collects on the way are left
out: nothing here reads them. Text is UTF-8.
-/

namespace Sysmon.Config

open GoBytes

/-- `models.Check`. -/
structure Check where
  id : CStr
  type : CStr
  port : Int
  interval : Int
  deriving DecidableEq, Repr

/-- `models.Host`. A slice that is `nil` is told from one that is empty. -/
structure Host where
  id : CStr
  hostname : CStr
  ip : CStr
  contact : CStr
  notes : CStr
  paused : Bool
  spawn : CStr
  pageInterval : Int
  contactOn : CStr
  type : CStr
  port : Int
  minPings : Int
  sendPings : Int
  packetLossThreshold : Rat
  rttThreshold : Int
  jitterThreshold : Int
  rttSamples : Int
  rttInterval : Int
  trapAlert : Bool
  snmpCommunity : CStr
  snmpOid : CStr
  snmpOidSec : CStr
  snmpUpMsg : CStr
  snmpDownMsg : CStr
  snmpType : CStr
  snmpVersion : CStr
  snmpHigh : Int
  snmpLow : Int
  snmpExact : Int
  snmpRate : Int
  snmpOctets : Bool
  dnsQuery : CStr
  dnsAA : Bool
  dnsRecursion : Bool
  username : CStr
  password : CStr
  secret : CStr
  url : CStr
  urlText : CStr
  header : CStr
  headerVal : CStr
  queueTime : Int
  numFailures : Int
  pMsg : CStr
  command : CStr
  group : CStr
  pktLossTolerance : Int
  pktLossHistoryHours : Int
  reverse : Bool
  dependencies : CStr
  checks : Option (List Check)
  deriving DecidableEq, Repr

/-- `generateID`, of an ASCII name. -/
def generateID (s : CStr) : CStr := s.map fun c => if c = ' ' then '-' else c.toLower

/-- The host that an `object` line begins. -/
def newHost (objectName : CStr) : Host where
  id := generateID objectName
  hostname := objectName
  ip := []
  contact := []
  notes := []
  paused := false
  spawn := []
  pageInterval := 0
  contactOn := []
  type := []
  port := 0
  minPings := 0
  sendPings := 0
  packetLossThreshold := 0
  rttThreshold := 0
  jitterThreshold := 0
  rttSamples := 0
  rttInterval := 0
  trapAlert := false
  snmpCommunity := []
  snmpOid := []
  snmpOidSec := []
  snmpUpMsg := []
  snmpDownMsg := []
  snmpType := []
  snmpVersion := []
  snmpHigh := 0
  snmpLow := 0
  snmpExact := 0
  snmpRate := 0
  snmpOctets := false
  dnsQuery := []
  dnsAA := false
  dnsRecursion := false
  username := []
  password := []
  secret := []
  url := []
  urlText := []
  header := []
  headerVal := []
  queueTime := 0
  numFailures := 0
  pMsg := []
  command := []
  group := []
  pktLossTolerance := 0
  pktLossHistoryHours := 0
  reverse := false
  dependencies := []
  checks := some []

/-! ### Statements -/

/-- Where `splitStatements` is in a line. -/
structure SplitState where
  inQuote : Bool
  inComment : Bool
  blank : Bool
  deriving DecidableEq, Repr

def SplitState.lineStart : SplitState := ⟨false, false, true⟩

/-- What is written for one character, and the state after it. -/
def SplitState.next (s : SplitState) (c : Char) : CStr × SplitState :=
  if c = '\n' then ([c], SplitState.lineStart)
  else if s.inComment then ([c], s)
  else if s.inQuote then ([c], if c = '"' then { s with inQuote := false } else s)
  else if c = '"' then ([c], ⟨true, false, false⟩)
  else if c = '#' then ([c], ⟨false, true, false⟩)
  else if c = ';' then if s.blank then ([c], { s with inComment := true }) else ([c, '\n'], { s with blank := true })
  else if c = '\x7b' ∨ c = '\x7d' then ([c, '\n'], { s with blank := true })
  else if c = ' ' ∨ c = '\t' ∨ c = '\r' then ([c], s)
  else ([c], { s with blank := false })

def splitFrom : SplitState → CStr → CStr
  | _, [] => []
  | s, c :: content => (s.next c).1 ++ splitFrom (s.next c).2 content

/-- `splitStatements`. -/
def splitStatements (content : CStr) : CStr := splitFrom SplitState.lineStart content

/-! ### The fields of an object -/

/-- What keeps a call from giving a result: it panics, or it returns an error. -/
inductive Failure where
  | panicked
  | failed
  deriving DecidableEq, Repr

/-- `extractQuoted`. A lone quote is both the first and the last character, and the slice between them is out of
range. -/
def extractQuoted (s : CStr) : Except Failure CStr :=
  let s := trimSpace s
  if s.head? = some '"' ∧ s.getLast? = some '"' then
    if s.length = 1 then .error .panicked else .ok s.tail.dropLast
  else .ok s

/-- How a directive is told by its line, and what it sets. -/
inductive Directive where
  /-- One of these words and a blank, then a text. -/
  | text (words : List String) (set : Host → CStr → Host)
  /-- A word and a blank; the second field of the line is a number. -/
  | number (word : String) (set : Host → Int → Host)
  /-- A word and a blank, then a number that may be quoted. -/
  | quotedNumber (word : String) (set : Host → Int → Host)
  /-- A word and a blank, then a number. -/
  | bareNumber (word : String) (set : Host → Int → Host)
  /-- One of these words alone. -/
  | flag (words : List String) (set : Host → Host)

/-- `word`, and the blank behind it. -/
def opening (word : String) : CStr := word.toList ++ [' ']

/-- The line with each of the words taken off, in turn. -/
def trimOpenings (words : List String) (line : CStr) : CStr :=
  words.foldl (fun line word => trimPrefix (opening word) line) line

def Directive.matches (line : CStr) : Directive → Bool
  | .text words _ => words.any fun word => (opening word).isPrefixOf line
  | .number word _ | .quotedNumber word _ | .bareNumber word _ => (opening word).isPrefixOf line
  | .flag words _ => words.any fun word => word.toList = line

/-- A number, where there is one. -/
def setNumber (set : Host → Int → Host) (host : Host) (value : Option Int) : Host :=
  match value with
  | some value => set host value
  | none => host

def Directive.apply (host : Host) (line : CStr) : Directive → Except Failure Host
  | .text words set => do return set host (← extractQuoted (trimOpenings words line))
  | .number _ set => return setNumber set host ((fields line)[1]?.bind atoi)
  | .quotedNumber word set => do
      return setNumber set host (atoi (← extractQuoted (trimPrefix (opening word) line)))
  | .bareNumber word set => return setNumber set host (atoi (trimSpace (trimPrefix (opening word) line)))
  | .flag _ set => return set host

/-- `dep` lines accumulate. -/
def addDep (host : Host) (deps : CStr) : Host :=
  if deps = [] then host
  else if host.dependencies = [] then { host with dependencies := deps }
  else { host with dependencies := host.dependencies ++ ", ".toList ++ deps }

def alsoNotify (host : Host) (extra : CStr) : Host :=
  if host.contact ≠ [] ∧ extra ≠ [] then { host with contact := host.contact ++ ',' :: extra }
  else if extra ≠ [] then { host with contact := extra }
  else host

/-- The branches for an object's fields, in their order. -/
def directives : List Directive :=
  [.text ["ip"] fun host value => { host with ip := value },
    .text ["type"] fun host value => { host with type := value },
    .text ["desc"] fun host value => { host with notes := value },
    .text ["notes"] fun host value => { host with notes := value },
    .text ["contact"] fun host value => { host with contact := value },
    .text ["dep"] addDep,
    .text ["spawn"] fun host value => { host with spawn := value },
    .number "port" fun host value => { host with port := value },
    .text ["group"] fun host value => { host with group := value },
    .flag ["pause"] fun host => { host with paused := true },
    .flag ["reverse"] fun host => { host with reverse := true },
    .number "pageinterval" fun host value => { host with pageInterval := value },
    .number "queuetime" fun host value => { host with queueTime := value },
    .text ["contact_on"] fun host value => { host with contactOn := value },
    .number "numfailures" fun host value => { host with numFailures := value },
    .flag ["trap_alert", "trapalert"] fun host => { host with trapAlert := true },
    .number "send_pings" fun host value => { host with sendPings := value },
    .number "min_pings" fun host value => { host with minPings := value },
    .number "rtt_threshold" fun host value => { host with rttThreshold := value },
    .number "jitter_threshold" fun host value => { host with jitterThreshold := value },
    .text ["snmp-community", "snmpcommunity", "community"] fun host value => { host with snmpCommunity := value },
    .text ["snmp-oid", "snmpoid", "oid"] fun host value => { host with snmpOid := value },
    .text ["snmp-oid-sec"] fun host value => { host with snmpOidSec := value },
    .text ["snmp-upmsg"] fun host value => { host with snmpUpMsg := value },
    .text ["snmp-downmsg"] fun host value => { host with snmpDownMsg := value },
    .text ["snmp-version"] fun host value => { host with snmpVersion := value },
    .text ["snmp-type"] fun host value => { host with snmpType := value },
    .quotedNumber "snmp-high" fun host value => { host with snmpHigh := value },
    .quotedNumber "snmp-low" fun host value => { host with snmpLow := value },
    .quotedNumber "snmp-exact" fun host value => { host with snmpExact := value },
    .quotedNumber "snmp-rate" fun host value => { host with snmpRate := value },
    .flag ["snmp-octets", "snmpoctets"] fun host => { host with snmpOctets := true },
    .text ["dns-query"] fun host value => { host with dnsQuery := value },
    .flag ["dns-aa"] fun host => { host with dnsAA := true },
    .flag ["dns-recursion"] fun host => { host with dnsRecursion := true },
    .text ["username"] fun host value => { host with username := value },
    .text ["password"] fun host value => { host with password := value },
    .text ["secret"] fun host value => { host with secret := value },
    .text ["url"] fun host value => { host with url := value },
    .text ["urltext"] fun host value => { host with urlText := value },
    .text ["header"] fun host value => { host with header := value },
    .text ["headerval"] fun host value => { host with headerVal := value },
    .text ["page"] fun host value => { host with contact := value },
    .text ["child"] fun host value => { host with dependencies := value },
    .text ["also-notify"] alsoNotify,
    .text ["pmesg"] fun host value => { host with pMsg := value },
    .bareNumber "rtt_samples" fun host value => { host with rttSamples := value },
    .bareNumber "rtt_interval" fun host value => { host with rttInterval := value },
    .bareNumber "pktloss_tolerance" fun host value => { host with pktLossTolerance := value },
    .bareNumber "pkt_loss_history_hours" fun host value => { host with pktLossHistoryHours := value }]

/-- A line inside an object. -/
def parseField (host : Host) (line : CStr) : Except Failure Host :=
  match directives.find? fun directive => directive.matches line with
  | some directive => directive.apply host line
  | none => return host

/-! ### Outside of objects -/

def startsWith (word : String) (line : CStr) : Bool := word.toList.isPrefixOf line

/-- The `config` directives with a number, which read no quoted text. -/
def numberWords : List String :=
  ["queuetime ", "checkinterval ", "numfailures ", "minnumfailures ", "flaptime ", "clientport ", "maxqueued ",
    "pageinterval ", "dnsexpire ", "dnslog ", "htmlrefresh ", "html refresh "]

/-- Those with a text, by the prefixes that are taken off. -/
def textWords : List (List String) :=
  [["statustempdir "], ["sender ", "from "], ["subject "], ["replyto "], ["errorsto "], ["authkey "], ["savestate "],
    ["pidfile "], ["cssfile "], ["outputjson "]]

def colorWords : List (List String) :=
  [["pmesg ", "pmesg="], ["upcolor "], ["downcolor "], ["recentcolor "]]

def trimWords (words : List String) (line : CStr) : CStr :=
  words.foldl (fun line word => trimPrefix word.toList line) line

/-- The text of a directive of one of these kinds, if the line is one. -/
def textOfWords (kinds : List (List String)) (line : CStr) : Option CStr :=
  (kinds.find? fun words => words.any fun word => startsWith word line).map fun words => trimWords words line

/-- What a `config` line gives to `extractQuoted`. The settings themselves are not kept. -/
def configText (line : CStr) : Option CStr :=
  if numberWords.any fun word => startsWith word line then none
  else if startsWith "statusfile " line then
    if 3 ≤ (fields line).length then some ([' '].intercalate ((fields line).drop 2)) else none
  else
    match textOfWords textWords line with
    | some text => some text
    | none =>
        if startsWith "logging " line then
          textOfWords [["file "], ["syslog "]] (trimPrefix "logging ".toList line)
        else if startsWith "date " line || startsWith "dateformat " line then
          some (trimWords ["dateformat ", "date "] line)
        else textOfWords colorWords line

/-- `root` and its value. -/
def rootText (line : CStr) : CStr := (trimPrefix "root".toList line).dropWhile fun c => c = ' ' || c = '='

/-! ### Parsing -/

/-- Where `Parse` is, and the hosts so far. `inObject` is set exactly when there is a current host. -/
structure ParseState where
  hosts : List Host
  currentHost : Option Host
  inSpawns : Bool
  deriving DecidableEq, Repr

def ParseState.start : ParseState := ⟨[], none, false⟩

/-- The name in an `object` line. -/
def lineName (line : CStr) : CStr := trimSpace (trimSuffix '\x7b' ((fields line)[1]?.getD []))

/-- A line that is no comment, without blanks around it and without the semicolon at its end. The closing brace of a
definition inside the `spawns` block is taken for that of the block. -/
def parseStatement (s : ParseState) (line : CStr) : Except Failure ParseState :=
  if startsWith "spawns" line ∧ '\x7b' ∈ line then return { s with inSpawns := true }
  else if s.inSpawns then return if line = ['\x7d'] then { s with inSpawns := false } else s
  else if startsWith "root" line then do
    let _ ← extractQuoted (rootText line)
    return s
  else if startsWith "config " line then
    match configText (trimPrefix "config ".toList line) with
    | some text => do
        let _ ← extractQuoted text
        return s
    | none => return s
  else if startsWith "set " line then return s
  else if startsWith "object " line ∧ '\x7b' ∈ line then return { s with currentHost := some (newHost (lineName line)) }
  else
    match s.currentHost with
    | none => return s
    | some host =>
        if line = ['\x7d'] then return { s with hosts := s.hosts ++ [host], currentHost := none }
        else do return { s with currentHost := some (← parseField host line) }

def parseLine (s : ParseState) (line : CStr) : Except Failure ParseState :=
  let line := trimSpace line
  if line = [] ∨ line.head? = some ';' ∨ line.head? = some '#' then return s
  else parseStatement s (trimSuffix ';' line)

/-- `Parse`, the hosts of the configuration. -/
def parse (content : CStr) : Except Failure (List Host) := do
  let statements := splitStatements content
  let s ← (scanLines statements).foldlM parseLine ParseState.start
  if scanOk statements then return s.hosts else throw .failed

example : (parse "object a \x7b ip \"1.2.3.4\"; dep \"b\"; type ping; \x7d;\n".toList).map
    (fun hosts => hosts.map Host.ip) = .ok ["1.2.3.4".toList] := by decide

end Sysmon.Config
