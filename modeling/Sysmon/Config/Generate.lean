import Sysmon.Config.Parse

/-!
# The web interface writes an object

`GenerateHost` and `Validate` of `generator.go`. A block is a list of statements, each on a line of its own; a
statement is one of a few kinds, and each kind is written for a value that is set. A value in quotes loses its
quotes and control characters on the way; the name, the address and the type are written as they are.
-/

namespace Sysmon.Config

open GoBytes

/-- `q`: the characters that could break out of the quotes are left out. -/
def q (s : CStr) : CStr := (runes s).filter fun c => c ≠ '"' && ' ' ≤ c

/-! ### Statements -/

/-- A statement: a word alone, one with a value behind it, or one with a value in quotes. -/
inductive Statement where
  | flag (word : String)
  | bare (word : String) (value : CStr)
  | quoted (word : String) (value : CStr)
  deriving DecidableEq, Repr

def Statement.text : Statement → CStr
  | .flag word => word.toList
  | .bare word value => opening word ++ value
  | .quoted word value => opening word ++ '"' :: value ++ ['"']

/-- The first check, from which a host without a type or a port of its own takes them. -/
def firstCheck (host : Host) : Option Check := host.checks.bind List.head?

/-- The type that is written, as it is. -/
def writtenType (host : Host) : Option CStr := if host.type ≠ [] then some host.type else (firstCheck host).map Check.type

def writtenPort (host : Host) : Int := if 0 < host.port then host.port else ((firstCheck host).map Check.port).getD 0

/-- The address, as it is. -/
def ipStatement (ip : CStr) : List Statement := if ip = [] then [] else [.quoted "ip" ip]

def typeStatement (host : Host) : List Statement := (writtenType host).toList.map fun type => .bare "type" type

/-- The fields that are written in one of a few ways, each where it is set. -/
inductive Field where
  /-- In quotes, without what could break out of them. -/
  | text (word : String) (value : CStr)
  /-- A number that is positive. -/
  | number (word : String) (value : Int)
  /-- A number in quotes, other than 0. -/
  | limit (word : String) (value : Int)
  | flag (word : String) (value : Bool)
  | contactOn (value : CStr)
  | snmpVersion (value : CStr)
  deriving DecidableEq, Repr

def Field.statements : Field → List Statement
  | .text word value => if value = [] then [] else [.quoted word (q value)]
  | .number word value => if 0 < value then [.bare word (showInt value)] else []
  | .limit word value => if value = 0 then [] else [.quoted word (showInt value)]
  | .flag word value => if value then [.flag word] else []
  | .contactOn value => if value = [] then [] else [.bare "contact_on" (q value)]
  | .snmpVersion value => if value = ['1'] then [.quoted "snmp-version" ['1']] else []

/-- The names in the comma-separated list, of which each has a statement of its own. -/
def depNames (host : Host) : List CStr := (host.dependencies.splitOn ',').map trimSpace

/-- The fields behind the address and the type, in the order they are written. -/
def fieldsOf (host : Host) : List Field :=
  [Field.number "port" (writtenPort host),
    Field.text "desc" host.notes,
    Field.text "contact" host.contact] ++
  (depNames host).map (Field.text "dep") ++
  [Field.text "group" host.group,
    Field.flag "reverse" host.reverse,
    Field.flag "trap_alert" host.trapAlert,
    Field.number "queuetime" host.queueTime,
    Field.number "numfailures" host.numFailures,
    Field.number "pageinterval" host.pageInterval,
    Field.contactOn host.contactOn,
    Field.text "spawn" host.spawn,
    Field.text "pmesg" host.pMsg,
    Field.number "rtt_threshold" host.rttThreshold,
    Field.number "jitter_threshold" host.jitterThreshold,
    Field.number "rtt_samples" host.rttSamples,
    Field.number "rtt_interval" host.rttInterval,
    Field.number "pktloss_tolerance" host.pktLossTolerance,
    Field.text "community" host.snmpCommunity,
    Field.text "oid" host.snmpOid,
    Field.text "snmp-oid-sec" host.snmpOidSec,
    Field.snmpVersion host.snmpVersion,
    Field.text "snmp-type" host.snmpType,
    Field.limit "snmp-high" host.snmpHigh,
    Field.limit "snmp-low" host.snmpLow,
    Field.limit "snmp-rate" host.snmpRate,
    Field.limit "snmp-exact" host.snmpExact,
    Field.flag "snmp-octets" host.snmpOctets,
    Field.text "dns-query" host.dnsQuery,
    Field.flag "dns-aa" host.dnsAA,
    Field.flag "dns-recursion" host.dnsRecursion,
    Field.text "url" host.url,
    Field.text "urltext" host.urlText,
    Field.text "username" host.username,
    Field.text "password" host.password,
    Field.text "secret" host.secret]

/-- The statements of a block. -/
def statements (host : Host) : List Statement :=
  ipStatement host.ip ++ typeStatement host ++ (fieldsOf host).flatMap Field.statements

/-- A statement on its line. -/
def Statement.line (statement : Statement) : CStr := '\t' :: statement.text ++ [';', '\n']

/-- The line that begins a block, as far as the brace. -/
def header (host : Host) : CStr := "object ".toList ++ host.hostname ++ " \x7b".toList

/-- `GenerateHost`. -/
def generateHost (host : Host) : CStr :=
  header host ++ '\n' :: (statements host).flatMap Statement.line ++ "\x7d;\n".toList

/-- `Validate`, which is to return nil. -/
def validate (hosts : List Host) : Bool :=
  hosts ≠ [] && (hosts.map Host.hostname).all (· ≠ []) && decide (hosts.map Host.hostname).Nodup

end Sysmon.Config
