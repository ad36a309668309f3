import Sysmon.Host
import Sysmon.Lib.CText

/-!
# The rules of the config parser

The lexer of `parser.l` keeps everything it has read in global variables, and `add_object` builds an
object from them when its block closes. Here is that scratch space with what each rule does to it. A
token is a rule that has matched with the text it matched, `yytext`; an `include` is the tokens of
the file it names. Of each variable the part that is read again is kept: where the text of a number
only matters for being there or not, it is a flag or the `none` of the number. Variables that are
set and never read (`parser_child`, `parser_page`, `parser_also`, the colours and the mail headers)
are left out, and the rules that set them do nothing here.
-/

namespace Sysmon.Parser

open CText

/-- The strings that a directive of an object sets. -/
inductive StrCell where
  | ip
  | desc
  | group
  | pmesg
  | dnsQuery
  | secret
  | url
  | urltext
  | password
  | username
  | community
  | oid
  | snmpOidSec
  | contact
  | spawn
  deriving DecidableEq, Repr

/-- `snmp-low`, `snmp-high`, `snmp-exact` and `snmp-rate`. -/
inductive Limit where
  | low
  | high
  | exact
  | rate
  deriving DecidableEq, Repr

/-- The numbers that the `object` rule puts back to their defaults. -/
inductive Knob where
  | pktlossTolerance
  | rttThreshold
  | jitterThreshold
  | rttSamples
  | rttInterval
  deriving DecidableEq, Repr

inductive Flag where
  | reverse
  | snmpOctets
  | trapAlert
  | dnsAa
  | dnsRecursion
  deriving DecidableEq, Repr

/-- The rules for what stands inside an object. Three of them are spelled `config ...` and may stand
outside too, where they set the default. -/
inductive Attr where
  | flag (flag : Flag)
  | text (cell : StrCell)
  | type
  | port
  | knob (knob : Knob)
  | snmpVersion
  | snmpType
  | limit (limit : Limit)
  | contactOn
  | dep
  | queuetime
  | pageinterval
  | numfailures
  /-- A rule that sets nothing that is read, white space, a comment, or text no rule knows. -/
  | ignored
  deriving DecidableEq, Repr

inductive Rule where
  | attr (attr : Attr)
  | set
  | root
  | spawns
  | spawnDef
  | sitename
  | object
  | close
  deriving DecidableEq, Repr

structure Token where
  rule : Rule
  yytext : CStr
  deriving DecidableEq, Repr

/-! ### Reading a value -/

/-- Between the first quote and the next. -/
def quoted (yytext : CStr) : Option CStr := between '"' '"' yytext

/-- `strcasecmp(...) == 0`. -/
def sameIgnoringCase (left right : CStr) : Bool := left.map Char.toLower = right.map Char.toLower

/-- The number after the first space, as an `int`. -/
def intAfterSpace (yytext : CStr) : Option Int32 :=
  (between ' ' ';' yytext).map fun text => (atol text).toInt32

/-- The number after the last space. -/
def intAfterLastSpace (yytext : CStr) : Option Int32 :=
  ((afterLast ' ' yytext).bind (upTo ';')).map fun text => (atol text).toInt32

/-- The number after the first quote: the closing quote ends it. -/
def quotedUlong (yytext : CStr) : Option UInt64 :=
  (between '"' ';' yytext).map fun text => (atol text).toUInt64

namespace CheckType

def tcp : Int32 := 1
def udp : Int32 := 2
def ping : Int32 := 3
def snmp : Int32 := 4
def nntp : Int32 := 5
def smtp : Int32 := 6
def imap : Int32 := 7
def pop3 : Int32 := 8
def x500 : Int32 := 9
def pop2 : Int32 := 10
def bootp : Int32 := 11
def dns : Int32 := 12
def www : Int32 := 13
def radius : Int32 := 14
def sysm : Int32 := 16
def sshd : Int32 := 17
def ircd : Int32 := 18
def pingLatency : Int32 := 19
def pingv6 : Int32 := 20
def pktloss : Int32 := 22

end CheckType

/-- The names `name_to_type` knows, by the length it switches on, and those it wants ICMP for. The
two spellings of `ping6` are filed under a length they do not have. -/
def typeNames (disableIcmp : Bool) : List (Nat × String × Int32) :=
  let icmp := fun row : Nat × String × Int32 => if disableIcmp then [] else [row]
  [(3, "tcp", CheckType.tcp), (3, "udp", CheckType.udp), (3, "dns", CheckType.dns),
    (3, "www", CheckType.www), (3, "ssh", CheckType.sshd)] ++
  icmp (3, "rtt", CheckType.pingLatency) ++
  [(4, "imap", CheckType.imap), (4, "http", CheckType.www)] ++
  icmp (4, "ping", CheckType.ping) ++ icmp (4, "ping6", CheckType.pingv6) ++
  icmp (4, "icmp6", CheckType.pingv6) ++
  [(4, "snmp", CheckType.snmp), (4, "nntp", CheckType.nntp), (4, "pop2", CheckType.pop2),
    (4, "smtp", CheckType.smtp), (4, "pop3", CheckType.pop3), (4, "ircd", CheckType.ircd),
    (5, "bootp", CheckType.bootp), (6, "radius", CheckType.radius), (6, "sysmon", CheckType.sysm)] ++
  icmp (6, "pingv6", CheckType.pingv6) ++ icmp (6, "pingv4", CheckType.ping) ++
  icmp (7, "pktloss", CheckType.pktloss) ++
  [(9, "umichx500", CheckType.x500)]

/-- A name up to its colon, looked up by length and spelling; -1 if it is not there. -/
def lookupName (table : List (Nat × String × Int32)) (sentType : CStr) : Int32 :=
  let type := sentType.takeWhile (· ≠ ':')
  match table.find? fun row => row.1 = type.length ∧ row.2.1.toList = type with
  | some row => row.2.2
  | none => -1

def nameToType (disableIcmp : Bool) (sentType : CStr) : Int32 :=
  lookupName (typeNames disableIcmp) sentType

def snmpReboot : Int32 := 1

def snmpTypeNames : List (Nat × String × Int32) :=
  [(3, "low", 3), (4, "high", 2), (4, "rate", 7), (5, "exact", 5), (5, "range", 4),
    (6, "reboot", snmpReboot), (7, "compare", 6)]

def nameToSnmpType (sentType : CStr) : Int32 := lookupName snmpTypeNames sentType

def validSitename (name : CStr) : Bool :=
  !name.isEmpty && name.all fun c =>
    ('a' ≤ c && c ≤ 'z') || ('A' ≤ c && c ≤ 'Z') || ('0' ≤ c && c ≤ '9') || c = '-' || c = '_'

/-! ### Variables and spawn commands -/

/-- What the `set` and `spawns` directives of a file build up. -/
structure Shared where
  sets : List (CStr × CStr)
  spawnDefs : List (CStr × CStr)
  inSpawns : Bool
  deriving DecidableEq, Repr

/-- `find_value`: the latest of that name. -/
def findValue (sets : List (CStr × CStr)) (name : CStr) : Option CStr :=
  (sets.find? fun row => row.1 = name).map Prod.snd

def maxStrlen : Nat := 32768

/-- The loop of `do_set_replace`: the characters still to skip, the rest of the string, what has
been put together so far, and the last variable looked up. A `$` whose variable is not set is
dropped, and its name is copied as ordinary text. -/
def replaceFrom (sets : List (CStr × CStr)) : Nat → CStr → CStr → Option CStr → CStr × Option CStr
  | _, [], new, repl => (new, repl)
  | skip + 1, _ :: rest, new, repl => replaceFrom sets skip rest new repl
  | 0, c :: rest, new, repl =>
      if c = '$' then
        let word := rest.takeWhile fun d => !isspace d && d ≠ ','
        match findValue sets word with
        | some value =>
            replaceFrom sets word.length rest
              (if new.length + value.length < maxStrlen then new ++ value else new) (some value)
        | none => replaceFrom sets 0 rest new none
      else
        replaceFrom sets 0 rest (if new.length + 1 < maxStrlen then new ++ [c] else new) repl

/-- `do_set_replace`, and what its callers do with a `NULL`: keep the string they had. -/
def doSetReplace (sets : List (CStr × CStr)) (string : CStr) : CStr :=
  match replaceFrom sets 0 string [] none with
  | (new, some _) => new
  | (_, none) => string

/-- `add_spawn_def`: a name that is there gets the new command. -/
def addSpawnDef (defs : List (CStr × CStr)) (name command : CStr) : List (CStr × CStr) :=
  if name ∈ defs.map Prod.fst then
    defs.map fun row => if row.1 = name then (row.1, command) else row
  else (name, command) :: defs

def lookupSpawnCommand (defs : List (CStr × CStr)) (name : CStr) : Option CStr :=
  (defs.find? fun row => row.1 = name).map Prod.snd

/-- The `set` rule. A directive with one space only sends the source through a `NULL`. -/
def Shared.set (shared : Shared) (yytext : CStr) : Shared :=
  match quoted yytext, between ' ' ' ' yytext with
  | some eq, some value => { shared with sets := (value, eq) :: shared.sets }
  | _, _ => shared

def Shared.spawnDef (shared : Shared) (yytext : CStr) : Shared :=
  if !shared.inSpawns then shared
  else
    match quoted yytext with
    | some command =>
        let name := yytext.takeWhile fun c => !isspace c
        { shared with spawnDefs := addSpawnDef shared.spawnDefs name command }
    | none => shared

/-- What a string directive sets its variable to, if its text is in order. -/
def textOf (shared : Shared) (cell : StrCell) (yytext : CStr) : Option CStr :=
  match cell with
  | .contact => (quoted yytext).map (doSetReplace shared.sets)
  | .spawn =>
      if '"' ∈ yytext then quoted yytext
      else
        let name := ((yytext.drop 6).dropWhile isspace).takeWhile fun c => !isspace c && c ≠ ';'
        lookupSpawnCommand shared.spawnDefs name
  | _ => quoted yytext

/-! ### Numbers -/

namespace Knob

def dflt : Knob → Int32
  | .pktlossTolerance => -1
  | .rttThreshold => 0
  | .jitterThreshold => 0
  | .rttSamples => 5
  | .rttInterval => 100

/-- What becomes of a number that is out of range. -/
def checked : Knob → Int32 → Int32
  | .pktlossTolerance, value => if value < 0 then 0 else value
  | .rttThreshold, value => if value < 0 then 0 else value
  | .jitterThreshold, value => value
  | .rttSamples, value => if value < 1 then 5 else value
  | .rttInterval, value => if value < 10 ∨ 5000 < value then 100 else value

end Knob

def snmpVersion1 : Int32 := 0
def snmpVersion2c : Int32 := 1

def readSnmpVersion (text : CStr) : Int32 :=
  if sameIgnoringCase text "1".toList || sameIgnoringCase text "v1".toList then snmpVersion1
  else snmpVersion2c

/-- `contact_on`: a word that is not known changes nothing. -/
def readWhen (yytext : CStr) : Option Int32 :=
  ((after ' ' yytext).bind fun rest => upTo ';' (rest.dropWhile isspace)).bind fun word =>
    if sameIgnoringCase word "up".toList || sameIgnoringCase word "recover".toList then
      some Contact.up
    else if sameIgnoringCase word "down".toList || sameIgnoringCase word "fail".toList then
      some Contact.down
    else if sameIgnoringCase word "both".toList || sameIgnoringCase word "all".toList then
      some (Contact.down ||| Contact.up)
    else none

end Sysmon.Parser
