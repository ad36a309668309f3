import Sysmon.Lib.Run
import Sysmon.Parser.Rules

/-!
# Objects

The scratch variables as a whole, what one token does to them, and `add_object`, which turns them
into a `struct hostinfo` when a block closes. The `object` rule puts a few of them back to their
defaults and `add_object` uses up a few; the others keep what the last object to set them has put
there.
-/

namespace Sysmon.Parser

open CText

/-- The parser's global variables, `parser_head` and `badconfig` among them. -/
structure Scratch where
  name : Option CStr
  root : Option CStr
  str : StrCell → Option CStr
  limit : Limit → Option UInt64
  knob : Knob → Int32
  flag : Flag → Bool
  iType : Int32
  port : Option Int32
  /-- `parser_snmp_type` is there; its value is read whether it is or not. -/
  snmpTypeSet : Bool
  iSnmpType : Int32
  snmpVersion : Int32
  when : Int32
  queuetimeSet : Bool
  iQueuetime : Int32
  objIQueuetime : Int32
  objIPageinterval : Int32
  numfailuresSet : Bool
  iNumfailures : Int32
  objINumfailures : Int32
  dep : List CStr
  shared : Shared
  head : List Element
  badconfig : Bool

/-- The rest of the daemon, as far as the parser asks it: the resolver with the dotted address it
gives if it has one, the defaults in force, and the ids `gen_unique_id` hands out. -/
structure Env where
  gethostbyname : CStr → Option (Option CStr)
  disableIcmp : Bool
  queuetime : UInt64
  numfailures : Int32
  uniqueId : Nat → CStr

/-! ### Directives -/

/-- `config queuetime`. Inside an object the number is the object's own; but a default that was set
before is lost. -/
def Scratch.setQueuetime (s : Scratch) (value : Int32) : Scratch :=
  { s with
    queuetimeSet := true
    iQueuetime :=
      if s.name.isSome then if s.queuetimeSet then -1 else s.iQueuetime else value
    objIQueuetime := if s.name.isSome then value else -1 }

def Scratch.setPageinterval (s : Scratch) (value : Int32) : Scratch :=
  { s with
    objIPageinterval := if s.name.isSome then if value < 0 then -1 else value else -1 }

/-- `config numfailures` sets the default in any case. -/
def Scratch.setNumfailures (s : Scratch) (value : Int32) : Scratch :=
  { s with
    numfailuresSet := true
    iNumfailures := value
    objINumfailures := if s.name.isSome then value else -1 }

def Attr.step (env : Env) (s : Scratch) (attr : Attr) (yytext : CStr) : Scratch :=
  match attr with
  | .flag f => { s with flag := Function.update s.flag f true }
  | .text c =>
      match textOf s.shared c yytext with
      | some value => { s with str := Function.update s.str c (some value) }
      | none => s
  | .type =>
      match between ' ' ';' yytext with
      | some value => { s with iType := nameToType env.disableIcmp value }
      | none => s
  | .port =>
      match intAfterSpace yytext with
      | some value => { s with port := some value }
      | none => s
  | .knob k =>
      match intAfterSpace yytext with
      | some value => { s with knob := Function.update s.knob k (k.checked value) }
      | none => s
  | .snmpVersion =>
      match quoted yytext with
      | some value => { s with snmpVersion := readSnmpVersion value }
      | none => s
  | .snmpType =>
      match quoted yytext with
      | some value => { s with snmpTypeSet := true, iSnmpType := nameToSnmpType value }
      | none => s
  | .limit l =>
      match quotedUlong yytext with
      | some value => { s with limit := Function.update s.limit l (some value) }
      | none => s
  | .contactOn =>
      match readWhen yytext with
      | some value => { s with when := value }
      | none => s
  | .dep =>
      match quoted yytext with
      | some name => { s with dep := name :: s.dep }
      | none => s
  | .queuetime =>
      match intAfterLastSpace yytext with
      | some value => s.setQueuetime value
      | none => s
  | .pageinterval =>
      match intAfterLastSpace yytext with
      | some value => s.setPageinterval value
      | none => s
  | .numfailures =>
      match intAfterLastSpace yytext with
      | some value => s.setNumfailures value
      | none => s
  | .ignored => s

/-- The `object` rule: the scratch variables it resets, and the name. -/
def Scratch.openObject (s : Scratch) (yytext : CStr) : Scratch :=
  let name := ((yytext.drop 6).dropWhile isspace).takeWhile fun c => !isspace c
  { s with
    flag := fun f => if f = .reverse ∨ f = .snmpOctets ∨ f = .trapAlert then false else s.flag f
    snmpVersion := snmpVersion2c
    knob := Knob.dflt
    name := some name
    port := none }

/-! ### `add_object` -/

/-- The checks `add_object` makes before it takes an object. -/
def validObject (env : Env) (s : Scratch) : Bool :=
  (match s.str .ip with
    | none => false
    | some ip => (env.gethostbyname ip).isSome) &&
  s.iType != -1 &&
  (s.iType != CheckType.www || ((s.str .url).isSome && (s.str .urltext).isSome)) &&
  (!(s.iType == CheckType.imap || s.iType == CheckType.pop3 || s.iType == CheckType.pop2 ||
      s.iType == CheckType.radius) ||
    ((s.str .username).isSome && (s.str .password).isSome)) &&
  (s.iType != CheckType.radius || (s.str .secret).isSome) &&
  (s.iType != CheckType.dns || (s.str .dnsQuery).isSome) &&
  (s.iType != CheckType.snmp ||
    (((s.str .oid).isSome || s.iSnmpType == snmpReboot) && s.iSnmpType != -1 &&
      (s.str .community).isSome))

def snmpSystemSysuptime : CStr := ".1.3.6.1.2.1.1.3.0".toList

/-- The port of an object that names none. -/
def defaultPort (type : Int32) : Int32 :=
  if type = CheckType.radius then 1645 else if type = CheckType.www then 80 else 0

/-- The check interval: the object's own, or the default that is in force. -/
def queuetimeOf (env : Env) (s : Scratch) : UInt64 :=
  if s.queuetimeSet then
    (if s.objIQueuetime ≠ -1 then s.objIQueuetime else s.iQueuetime).toInt64.toUInt64
  else if s.iQueuetime = -1 then env.queuetime
  else s.iQueuetime.toInt64.toUInt64

def numfailuresOf (env : Env) (s : Scratch) : Int32 :=
  if s.numfailuresSet then
    if s.objINumfailures = -1 then s.iNumfailures else s.objINumfailures
  else env.numfailures

/-- `int` to `unsigned long`. -/
def asUlong (value : Int32) : UInt64 := value.toInt64.toUInt64

/-- The `struct hostinfo` that `add_object` fills in. -/
def hostinfoOf (env : Env) (s : Scratch) : HostInfo :=
  { HostInfo.zeroed with
    hostname := s.str .ip
    ipv4Str := ((s.str .ip).bind env.gethostbyname).join
    type := s.iType.toUInt32
    port := (s.port.getD (defaultPort s.iType)).toUInt32
    reverse := s.flag .reverse
    snmpOctets := s.flag .snmpOctets
    trapAlert := s.flag .trapAlert
    rttThreshold := (s.knob .rttThreshold).toUInt32
    jitterThreshold := (s.knob .jitterThreshold).toUInt32
    rttSamples := (s.knob .rttSamples).toUInt32
    rttInterval := (s.knob .rttInterval).toUInt32
    contactWhen := s.when
    uniqueId := some (env.uniqueId s.head.length)
    message := s.str .desc
    group := s.str .group
    pmesg := s.str .pmesg
    queuetime := queuetimeOf env s
    pageinterval := s.objIPageinterval
    sendPings := 7
    minPings := 1
    contact := s.str .contact
    secret := if s.iType = CheckType.radius then s.str .secret else none
    pktlossTolerance := if s.iType = CheckType.pktloss ∧ 0 ≤ s.knob .pktlossTolerance then
      (s.knob .pktlossTolerance).toUInt32 else 0
    pktlossHistoryHours := if s.iType = CheckType.pktloss then 24 else 0
    snmpTestType := if s.snmpTypeSet then s.iSnmpType.toUInt32 else 0
    snmpVersion := s.snmpVersion
    -- a reboot test has its own oid, and one failure is enough
    snmpOid := if s.iSnmpType = snmpReboot then some snmpSystemSysuptime
      else if s.iType = CheckType.snmp then s.str .oid else none
    maxDown := if s.iSnmpType = snmpReboot then 1 else asUlong (numfailuresOf env s)
    snmpOidSec := if s.iType = CheckType.snmp then s.str .snmpOidSec else none
    snmpHigh := (s.limit .high).getD 0
    snmpLow := (s.limit .low).getD 0
    snmpExact := (s.limit .exact).getD 0
    snmpRate := (s.limit .rate).getD 0
    snmpCommunity := s.str .community
    dnsQuery := s.str .dnsQuery
    dnsAa := s.flag .dnsAa
    dnsRecursion := s.flag .dnsRecursion
    username := s.str .username
    password := s.str .password
    url := s.str .url
    urlText := s.str .urltext
    command := s.str .spawn }

/-- The strings that are gone once an object has taken them. -/
def usedUp (type : Int32) : StrCell → Bool
  | .contact | .community | .dnsQuery | .password | .url | .urltext | .spawn => true
  | .secret => type = CheckType.radius
  | .oid | .snmpOidSec => type = CheckType.snmp
  | _ => false

/-- The object that the block has built, if it is one the daemon will monitor. -/
def built (env : Env) (s : Scratch) : Option Element :=
  match s.name with
  | none => none
  | some name => if validObject env s then some ⟨name, hostinfoOf env s, s.dep⟩ else none

def addObject (env : Env) (s : Scratch) : Scratch :=
  if s.name = none then s
  else
    match built env s with
    | none => { s with dep := [] }
    | some element =>
        { s with
          name := none
          head := element :: s.head
          str := fun c => if usedUp s.iType c then none else s.str c
          objINumfailures := -1
          dep := [] }

/-! ### Parsing -/

/-- What the end of a block builds. A brace that closes the `spawns` block builds nothing. -/
def closes (env : Env) (s : Scratch) : Option Element :=
  if s.shared.inSpawns then none else built env s

def Token.step (env : Env) (s : Scratch) (token : Token) : Scratch :=
  match token.rule with
  | .attr attr => attr.step env s token.yytext
  | .set => { s with shared := s.shared.set token.yytext }
  | .root =>
      match quoted token.yytext with
      | some value => { s with root := some (doSetReplace s.shared.sets value) }
      | none => s
  | .spawns => { s with shared.inSpawns := true }
  | .spawnDef => { s with shared := s.shared.spawnDef token.yytext }
  | .sitename =>
      match quoted token.yytext with
      | some name => if validSitename name then s else { s with badconfig := true }
      | none => s
  | .object => s.openObject token.yytext
  | .close =>
      if s.shared.inSpawns then { s with shared.inSpawns := false } else addObject env s

/-- `sysmon_conf_yylex` over the whole file. -/
def yylex (env : Env) (s : Scratch) (tokens : List Token) : Scratch :=
  Run.exec (Token.step env) s tokens

/-- `initalize_parser`. The type, the snmp type, the rate limit, `contact_on` and the default check
interval are not among what it resets. -/
def Scratch.initalizeParser (s : Scratch) : Scratch :=
  { s with
    name := none
    root := none
    str := fun _ => none
    limit := fun l => if l = .rate then s.limit l else none
    knob := fun k => if k = .pktlossTolerance then s.knob k else k.dflt
    flag := fun f => if f = .reverse ∨ f = .snmpOctets then s.flag f else false
    port := none
    snmpTypeSet := false
    snmpVersion := snmpVersion2c
    queuetimeSet := false
    objIQueuetime := -1
    objIPageinterval := -1
    numfailuresSet := false
    objINumfailures := -1 }

/-- What `loadconfig` hands to the lexer. -/
def Scratch.fresh (globals : Scratch) : Scratch := { globals.initalizeParser with head := [] }

/-- The variables as a process starts with them. -/
def Scratch.atStart : Scratch where
  name := none
  root := none
  str := fun _ => none
  limit := fun _ => none
  knob := Knob.dflt
  flag := fun _ => false
  iType := 0
  port := none
  snmpTypeSet := false
  iSnmpType := -1
  snmpVersion := snmpVersion2c
  when := Contact.down ||| Contact.up
  queuetimeSet := false
  iQueuetime := -1
  objIQueuetime := -1
  objIPageinterval := -1
  numfailuresSet := false
  iNumfailures := -1
  objINumfailures := -1
  dep := []
  shared := ⟨[], [], false⟩
  head := []
  badconfig := false

/-- A box whose resolver knows every name. -/
def resolving : Env where
  gethostbyname := fun name => some (some name)
  disableIcmp := false
  queuetime := 60
  numfailures := 3
  uniqueId := fun _ => []

end Sysmon.Parser
