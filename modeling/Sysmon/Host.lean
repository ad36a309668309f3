import Mathlib.Algebra.Order.Ring.Int
import Mathlib.Data.List.Basic

/-!
# What sysmond keeps about a monitored object

`struct hostinfo` of `config.h`, field for field, with the machine types of the source: an
`unsigned int` is a `UInt32`, an `unsigned long` a `UInt64`, an `int` an `Int32`, a `time_t` an
`Int64` and a `bool` (a `char` holding `TRUE` or `FALSE`) a `Bool`. A `char *` that may be `NULL` is
an optional string. The four `double` figures of the last rtt check are kept as their bit patterns:
nothing modelled here computes with them, they are only copied.
-/

namespace Sysmon

/-- A C string without its terminating NUL. Every function here compares and copies characters and
never looks inside one, so a byte is a `Char`. -/
abbrev CStr := List Char

instance : LawfulBEq CStr := inferInstance

/-- `time_t`. -/
abbrev Time := Int64

/-! ### Check results

`SYSM_OK` and the failure kinds. A result travels as `short int retval` and is kept as
`unsigned int lastcheck`. -/

namespace Result

def err : Int16 := -2
def ok : Int16 := 0
def connref : Int16 := 1
def netunrch : Int16 := 2
def hostdown : Int16 := 3
def timedout : Int16 := 4
def nodns : Int16 := 5
def unpingable : Int16 := 6
def noresp : Int16 := 9
def badAuth : Int16 := 11
def killed : Int16 := 14

end Result

/-- The conversion C makes where a `retval` meets a `lastcheck`: sign extension to `int`, then the
same bits as `unsigned int`. -/
def asLastcheck (retval : Int16) : UInt32 := retval.toInt32.toUInt32

theorem asLastcheck_injective : Function.Injective asLastcheck := by
  intro left right h
  have h32 : left.toInt32 = right.toInt32 := Int32.toBitVec.inj (congrArg UInt32.toBitVec h)
  have hint : left.toInt32.toInt = right.toInt32.toInt := congrArg Int32.toInt h32
  rw [Int16.toInt_toInt32, Int16.toInt_toInt32] at hint
  exact Int16.toInt_inj.mp hint

@[simp] theorem asLastcheck_ok : asLastcheck Result.ok = 0 := by decide

theorem asLastcheck_eq_zero {retval : Int16} : asLastcheck retval = 0 ↔ retval = Result.ok := by
  rw [← asLastcheck_ok, asLastcheck_injective.eq_iff]

/-! ### When to contact

`contact_when` is a set of these bits. A trap pages under `SYSM_SNMP_TRAP`, a check result that is
used as if it were one of them. -/

namespace Contact

def down : Int32 := 1
def up : Int32 := 2
def snmpTrap : Int32 := 24

end Contact

/-- `struct hostinfo`. -/
structure HostInfo where
  hostname : Option CStr
  ipv4Str : Option CStr
  type : UInt32
  port : UInt32
  message : Option CStr
  contact : Option CStr
  snmpCommunity : Option CStr
  snmpVersion : Int32
  snmpOid : Option CStr
  snmpOidSec : Option CStr
  snmpUpMsg : Option CStr
  snmpDownMsg : Option CStr
  pmesg : Option CStr
  snmpTestType : UInt32
  snmpLow : UInt64
  snmpHigh : UInt64
  snmpExact : UInt64
  snmpRate : UInt64
  snmpOctets : Bool
  systemUptime : UInt64
  lastSnmpResptime : Time
  dnsQuery : Option CStr
  dnsAa : Bool
  dnsRecursion : Bool
  lastcheck : UInt32
  username : Option CStr
  password : Option CStr
  hdr : Option CStr
  hdrval : Option CStr
  secret : Option CStr
  lastmsgid : Option CStr
  uniqueId : Option CStr
  url : Option CStr
  urlText : Option CStr
  command : Option CStr
  group : Option CStr
  notes : Option CStr
  totalchecked : UInt64
  totaldown : UInt64
  downct : UInt64
  upct : UInt64
  maxDown : UInt64
  queuetime : UInt64
  nextQueuetime : Time
  pageinterval : Int32
  sendPings : UInt32
  minPings : UInt32
  pktlossTolerance : UInt32
  pktlossHistoryHours : UInt32
  pktlossLastCheck : Time
  rttThreshold : UInt32
  jitterThreshold : UInt32
  rttSamples : UInt32
  rttInterval : UInt32
  rttLastMin : UInt64
  rttLastAvg : UInt64
  rttLastMax : UInt64
  rttLastJitter : UInt64
  rttLastReplies : UInt32
  rttLastProbes : UInt32
  pktlossLastSent : UInt32
  pktlossLastRecv : UInt32
  trapAlert : Bool
  changeSeq : UInt64
  maxWakeupRetries : UInt32
  reverse : Bool
  contacted : Bool
  acked : Bool
  lastcontacted : Time
  contactWhen : Int32
  queued : Bool
  warnlog : Bool
  trace : Bool
  lchecktime : Time
  checkStart : Time
  deathtime : Time
  lastUp : Time
  lastRecovery : Time
  deriving DecidableEq, Repr

/-- `MALLOC` of a `struct hostinfo`: `MALLOC` clears what it hands out. -/
def HostInfo.zeroed : HostInfo where
  hostname := none
  ipv4Str := none
  type := 0
  port := 0
  message := none
  contact := none
  snmpCommunity := none
  snmpVersion := 0
  snmpOid := none
  snmpOidSec := none
  snmpUpMsg := none
  snmpDownMsg := none
  pmesg := none
  snmpTestType := 0
  snmpLow := 0
  snmpHigh := 0
  snmpExact := 0
  snmpRate := 0
  snmpOctets := false
  systemUptime := 0
  lastSnmpResptime := 0
  dnsQuery := none
  dnsAa := false
  dnsRecursion := false
  lastcheck := 0
  username := none
  password := none
  hdr := none
  hdrval := none
  secret := none
  lastmsgid := none
  uniqueId := none
  url := none
  urlText := none
  command := none
  group := none
  notes := none
  totalchecked := 0
  totaldown := 0
  downct := 0
  upct := 0
  maxDown := 0
  queuetime := 0
  nextQueuetime := 0
  pageinterval := 0
  sendPings := 0
  minPings := 0
  pktlossTolerance := 0
  pktlossHistoryHours := 0
  pktlossLastCheck := 0
  rttThreshold := 0
  jitterThreshold := 0
  rttSamples := 0
  rttInterval := 0
  rttLastMin := 0
  rttLastAvg := 0
  rttLastMax := 0
  rttLastJitter := 0
  rttLastReplies := 0
  rttLastProbes := 0
  pktlossLastSent := 0
  pktlossLastRecv := 0
  trapAlert := false
  changeSeq := 0
  maxWakeupRetries := 0
  reverse := false
  contacted := false
  acked := false
  lastcontacted := 0
  contactWhen := 0
  queued := false
  warnlog := false
  trace := false
  lchecktime := 0
  checkStart := 0
  deathtime := 0
  lastUp := 0
  lastRecovery := 0

instance : Inhabited HostInfo := ⟨HostInfo.zeroed⟩

/-- Is anybody named to be contacted? `contact` is neither `NULL` nor empty. -/
def HostInfo.hasContact (svc : HostInfo) : Bool :=
  match svc.contact with
  | none => false
  | some name => !name.isEmpty

/-- A `struct graph_elements` as the parser leaves it, before its neighbours are looked up. -/
structure Element where
  uniqueName : CStr
  data : HostInfo
  depTxtName : List CStr
  deriving DecidableEq, Repr

end Sysmon
