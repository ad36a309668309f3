import Sysmon.Check.Events
import Sysmon.Srvclient.Xml
import Sysmon.Trap.History
import Sysmon.Trap.Translate

/-!
# A trap that tells somebody

`process_snmp_trap` of `snmp.c`, from the packet to the history. The history says of each trap whether an alert was
sent, and it says so as soon as `send_trap_alert` has been called. But that goes through `page_someone` under
`SYSM_SNMP_TRAP`, which is a result of a check and none of the bits of `contact_when`, so nothing is sent at all with
any mask that a configuration can ask for.
-/

namespace Sysmon.Trap

/-! ### The code -/

/-- The objects, the notifications sent so far, and what `trap_history_add` has been called with. -/
structure Receiver where
  objects : List Element
  globChangeSeq : UInt64
  notices : List Notice
  received : List TrapArrival

/-- The object accepts traps from this address. -/
def isTrapSource (ip : CStr) (obj : Element) : Bool :=
  obj.data.trapAlert && (obj.data.ipv4Str = some ip || obj.data.hostname = some ip)

/-- `find_trap_source`, as the place of the object. -/
def findTrapSource (objects : List Element) (ip : CStr) : Option Nat := objects.findIdx? (isTrapSource ip)

/-- The text that `send_trap_alert` pages with. -/
def trapPagemsg (svc : HostInfo) (source : CStr) (trap : TrapContent) : CStr :=
  if trap.name ≠ [] then
    snprintf Srvclient.largeTempbufSize
      (svc.message.getD [] ++ (if svc.message.isSome then " - ".toList else []) ++ "SNMP trap ".toList ++ trap.name ++
        " (".toList ++ trap.severity ++ ")".toList ++ (if trap.iface ≠ [] then " on ".toList else []) ++ trap.iface ++
        " from ".toList ++ source ++ ": ".toList ++ trap.description)
  else snprintf Srvclient.largeTempbufSize ("SNMP trap from ".toList ++ source)

/-- The object after the trap, with `alert_sent`. -/
def alertTrap (donotify : Bool) (env : PageEnv) (ip : CStr) (trap : TrapContent) (w : ObjState) : ObjState × Bool :=
  if trap.alertable then (sendTrapAlert donotify (trapPagemsg w.svc ip trap) env w, true) else (w, false)

/-- `process_snmp_trap`, with what `recvfrom` has given. -/
def processSnmpTrap (donotify : Bool) (env : PageEnv) (now : Time) (ip : CStr) (packet : List UInt8) (d : Receiver) :
    Receiver :=
  match findTrapSource d.objects ip with
  | none => d
  | some place =>
      match d.objects[place]? with
      | none => d
      | some obj =>
          let trap := contentOf (decodeSnmpTrap packet)
          let (w, alertSent) := alertTrap donotify env ip trap ⟨obj.data, d.globChangeSeq, d.notices⟩
          { objects := d.objects.set place { obj with data := w.svc }
            globChangeSeq := w.globChangeSeq
            notices := w.notices
            received := d.received ++ [⟨ip, now, Int32.ofNat packet.length, obj.uniqueName, true, alertSent, trap⟩] }

/-! ### Who is told -/

/-- A page about a trap reaches somebody. -/
def TrapReaches (donotify : Bool) (env : PageEnv) (svc : HostInfo) : Prop :=
  donotify = true ∧ svc.wants Contact.snmpTrap = true ∧ env.handover svc = .sent

theorem sendTrapAlert_notices (donotify : Bool) (pagemsg : CStr) (env : PageEnv) (w : ObjState) :
    (sendTrapAlert donotify pagemsg env w).notices ≠ w.notices ↔ TrapReaches donotify env w.svc :=
  pageSomeone_tells_iff donotify env Contact.snmpTrap { w with svc := { w.svc with message := some pagemsg } }

/-- The masks that the parser gives have no bit in common with the result. -/
theorem not_trapReaches (donotify : Bool) (env : PageEnv) {svc : HostInfo}
    (hmask : svc.contactWhen ∈ [Contact.down, Contact.up, Contact.down ||| Contact.up]) :
    ¬TrapReaches donotify env svc := by
  intro h
  have hwants := h.2.1
  rw [HostInfo.wants] at hwants
  simp only [List.mem_cons, List.not_mem_nil, or_false] at hmask
  obtain hdown | hup | hboth := hmask
  · rw [hdown] at hwants
    exact absurd hwants (by decide)
  · rw [hup] at hwants
    exact absurd hwants (by decide)
  · rw [hboth] at hwants
    exact absurd hwants (by decide)

/-- The flag in the history is right exactly if the packet is no trap to alert about, or the page does go out; and it
never does with a mask that can be configured. -/
theorem alertSent_iff (donotify : Bool) (env : PageEnv) (now : Time) (ip : CStr) (packet : List UInt8) (d : Receiver)
    {place : Nat} {obj : Element} (hsource : findTrapSource d.objects ip = some place)
    (hobj : d.objects[place]? = some obj) :
    ∃ r, trapHistoryGet (history (processSnmpTrap donotify env now ip packet d).received) 0 = some r ∧
      ((r.trap.alertSent = true ↔ (processSnmpTrap donotify env now ip packet d).notices ≠ d.notices) ↔
        ((contentOf (decodeSnmpTrap packet)).alertable = true → TrapReaches donotify env obj.data)) ∧
      (obj.data.contactWhen ∈ [Contact.down, Contact.up, Contact.down ||| Contact.up] →
        ¬TrapReaches donotify env obj.data) := by
  set trap := contentOf (decodeSnmpTrap packet) with htrap
  set alerted := alertTrap donotify env ip trap ⟨obj.data, d.globChangeSeq, d.notices⟩ with halerted
  set arrival : TrapArrival := ⟨ip, now, Int32.ofNat packet.length, obj.uniqueName, true, alerted.2, trap⟩
  have hprocess : processSnmpTrap donotify env now ip packet d =
      { objects := d.objects.set place { obj with data := alerted.1.svc }
        globChangeSeq := alerted.1.globChangeSeq
        notices := alerted.1.notices
        received := d.received ++ [arrival] } := by
    rw [processSnmpTrap, hsource]
    simp only [hobj]
    rfl
  rw [hprocess]
  have hheld : 0 < min (d.received ++ [arrival]).length trapHistoryMax := by simp [trapHistoryMax]
  obtain ⟨a, ha, hget⟩ := trapHistoryGet_history _ hheld
  simp only [List.length_append, List.length_singleton, Nat.add_sub_cancel, Nat.sub_zero,
    List.getElem?_concat_length, Option.some.injEq] at ha
  refine ⟨_, hget, ?_, not_trapReaches donotify env⟩
  rw [← ha]
  show (alerted.2 = true ↔ alerted.1.notices ≠ d.notices) ↔ _
  rw [halerted, alertTrap]
  cases halertable : trap.alertable with
  | false => simp
  | true =>
      have htold := sendTrapAlert_notices donotify (trapPagemsg obj.data ip trap) env
        ⟨obj.data, d.globChangeSeq, d.notices⟩
      simpa using htold

/-- An object that takes traps from one address, with somebody to tell about everything there is to tell. -/
def trapHost : Element where
  uniqueName := ['r']
  data :=
    { HostInfo.zeroed with
      trapAlert := true, ipv4Str := some ['1'], contact := some ['o'], contactWhen := Contact.down ||| Contact.up }
  depTxtName := []

def working : PageEnv := ⟨true, true, true, true, true, 0, []⟩

theorem alertSent_junk :
    ∃ r, trapHistoryGet (history (processSnmpTrap true working 0 ['1'] [] ⟨[trapHost], 0, [], []⟩).received) 0 = some r ∧
      ((r.trap.alertSent = true ↔ (processSnmpTrap true working 0 ['1'] [] ⟨[trapHost], 0, [], []⟩).notices ≠ []) ↔
        ((contentOf (decodeSnmpTrap [])).alertable = true → TrapReaches true working trapHost.data)) ∧
      (trapHost.data.contactWhen ∈ [Contact.down, Contact.up, Contact.down ||| Contact.up] →
        ¬TrapReaches true working trapHost.data) :=
  @alertSent_iff true working 0 ['1'] [] ⟨[trapHost], 0, [], []⟩ 0 trapHost rfl rfl

/-- A linkDown trap of version 1. -/
def linkDownPacket : List UInt8 :=
  [0x30, 27, 0x02, 1, 0, 0x04, 0, 0xa4, 20, 0x06, 1, 0x2b, 0x40, 4, 10, 0, 0, 1, 0x02, 1, 2, 0x02, 1, 0,
    0x43, 1, 0, 0x30, 0]

/-- A link is down, everybody wants to know and could be told, nobody is, and the history says the opposite. -/
theorem alertSent_untold :
    (trapHistoryGet
        (history (processSnmpTrap true working 0 ['1'] linkDownPacket ⟨[trapHost], 0, [], []⟩).received) 0).map
      (fun r => r.trap.alertSent) = some true ∧
    (processSnmpTrap true working 0 ['1'] linkDownPacket ⟨[trapHost], 0, [], []⟩).notices = [] := by
  decide +kernel

end Sysmon.Trap
