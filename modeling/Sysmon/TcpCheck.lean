import Sysmon.UdpCheck
import Sysmon.Lib.Script

/-!
# The checks that talk to a server

`tcp.c`, `smtp.c`, `pop3.c`, `imap.c`, `ssh.c`, `nntp.c`, `umichX500.c`, `http.c` and `sysmon.c`: how each check is started,
what a service call does in each of its states, and how it is stopped, with what becomes of its memory and of its socket.
The conversation is kept beside the entry of the queue. What a read delivers is in the buffer up to its first NUL.
-/

namespace Sysmon.TcpCheck

open UdpCheck (Errno Opening shortOf)

/-- A character is a byte. -/
abbrev Text := List Char

def badResp : Int16 := 12

def x500Wedged : Int16 := 13

/-- `globtimeout`. -/
def globtimeout : Int := 30

inductive Protocol where
  | tcp
  | smtp
  | pop3
  | imap
  | sshd
  | nntp
  | x500
  | www
  | sysmon
  deriving DecidableEq, Repr

/-- The fields of `struct hostinfo` the checks use. -/
structure Checkent where
  hostname : Text
  username : Text
  password : Text
  url : Text
  urlText : Text
  deriving DecidableEq, Repr

/-- The states of all checks. Each goes through some of them. -/
inductive State where
  | connect
  | waitban
  | sentUser
  | sentPass
  | sentAuth
  | sentQuit
  | gotBye
  deriving DecidableEq, Repr

/-- What `read` gives, or what `getline_tcp` has put into the buffer. -/
inductive Reply where
  | eof
  | error
  | text (bytes : Text)
  deriving DecidableEq, Repr

/-- What comes over the line: first that it is open, then replies. -/
inductive Heard where
  | opened
  | reply (reply : Reply)
  deriving DecidableEq, Repr

abbrev Events := List (Script.Event Heard Text)

/-- The structures `smtpdata` and so on. `kept` is the result NNTP keeps, `timesblank` the empty lines of WWW in a row. -/
structure Data where
  state : State
  start : Int
  lastact : Int
  kept : Option Int16
  timesblank : Nat
  deriving DecidableEq, Repr

/-- What `is_open` finds. -/
inductive IsOpen where
  | undecided
  | failed (errno : Errno)
  | ok
  deriving DecidableEq, Repr

/-- What a service call finds: how far the first one comes, whether the socket is open, the time, and what there is to be
read. -/
structure Call where
  opening : Opening
  isOpen : IsOpen
  now : Int
  waiting : List Reply
  deriving DecidableEq, Repr

inductive Fault where
  | useAfterFree
  | doubleFree
  | closedTwice
  | outOfBounds
  | neverReturns
  deriving DecidableEq, Repr

/-- What a service call makes of the memory, the result if there is one now, and what went over the line. -/
structure Turn where
  data : Data
  retval : Option Int16
  events : Events
  deriving DecidableEq, Repr

def line (s : String) : Text := s.toList

def heard (reply : Reply) : Script.Event Heard Text := .received (.reply reply)

def stay (data : Data) : Turn := ⟨data, none, []⟩

/-! ### Reading -/

/-- What a string function sees of a buffer. -/
def cString (buffer : Text) : Text := buffer.takeWhile (· ≠ '\x00')

/-- `buffer[strlen(buffer)-1] = 0`, where something has been read. Nothing for the byte before the buffer. -/
def chopped : Reply → Option Text
  | .text bytes => if cString bytes = [] then none else some (cString bytes).dropLast
  | _ => some []

/-- A buffer of `PROTO_RESPONSE_SIZE + 1` bytes after a read. -/
def bufferOf (bytes : Text) : Text :=
  bytes.take 255 ++ List.replicate (256 - (bytes.take 255).length) '\x00'

/-- `strncpy(buffer, retptr + 1, PROTO_RESPONSE_SIZE - 5)`. The bytes are those that were there before. -/
def copied (buffer : Text) (start : Nat) : Text :=
  let source := (cString (buffer.drop start)).take 250
  source ++ List.replicate (250 - source.length) '\x00' ++ buffer.drop 250

/-- The loop at `doover`, for at most so many turns. -/
def doover : Nat → Text → Option Text
  | 0, _ => none
  | fuel + 1, buffer =>
      if (cString buffer).head? = some '*' then
        if '\n' ∈ cString buffer then doover fuel (copied buffer ((cString buffer).idxOf '\n' + 1)) else some buffer
      else some buffer

/-! ### Servicing -/

/-- The state `CONNECT`. -/
def connecting (call : Call) (data : Data) (next : State) (lines : List Text) : Turn :=
  match call.isOpen with
  | .undecided => stay data
  | .failed errno => ⟨{ data with lastact := call.now }, errno.retval, []⟩
  | .ok => ⟨{ data with lastact := call.now, state := next }, none, .received .opened :: lines.map .sent⟩

/-- The check took too long to connect. -/
def hurried (call : Call) (turn : Turn) : Turn :=
  if turn.retval = none ∧ globtimeout ≤ call.now - turn.data.start then { turn with retval := some Result.timedout }
  else turn

/-- A state that waits for a reply. -/
def replied (call : Call) (data : Data) (answer : Reply → Turn) : Turn :=
  match call.waiting with
  | [] => stay data
  | reply :: _ => answer reply

/-- A reply that must be there. -/
def present (data : Data) (answer : Text → Turn) : Reply → Turn
  | .eof => ⟨data, some Result.connref, [heard .eof]⟩
  | .error => ⟨data, some badResp, [heard .error]⟩
  | .text bytes => answer bytes

def serviceTestTcp (call : Call) (data : Data) : Turn :=
  match call.isOpen with
  | .undecided => hurried call (stay data)
  | .failed errno => ⟨data, errno.retval, []⟩
  | .ok => ⟨data, some Result.ok, [.received .opened]⟩

/-- A state of `smtp.c`, `ssh.c` or `sysmon.c` that waits for a reply, once the buffer has been chopped. -/
def repliedChopped (call : Call) (data : Data) (answer : Reply → Text → Turn) : Except Fault Turn :=
  match call.waiting with
  | [] => .ok (stay data)
  | reply :: _ =>
      match chopped reply with
      | none => .error .outOfBounds
      | some buffer => .ok (answer reply buffer)

def serviceTestSmtp (call : Call) (data : Data) : Except Fault Turn :=
  match data.state with
  | .connect => .ok (hurried call (connecting call data .waitban []))
  | .waitban => repliedChopped call data fun reply buffer =>
      if line "220" <+: buffer then ⟨{ data with state := .sentQuit }, none, [heard reply, .sent (line "QUIT")]⟩
      else ⟨data, some badResp, [heard reply, .sent (line "QUIT")]⟩
  | .sentQuit => repliedChopped call data fun reply buffer =>
      if line "221 " <+: buffer then ⟨{ data with state := .gotBye }, none, [heard reply]⟩
      else ⟨data, some badResp, [heard reply]⟩
  | .gotBye => .ok ⟨data, some Result.ok, []⟩
  | _ => .ok (stay data)

def sshClivers : Text := line "SSH-2.0-Sysmon"

def serviceTestSshd (call : Call) (data : Data) : Except Fault Turn :=
  match data.state with
  | .connect => .ok (hurried call (connecting call data .waitban []))
  | .waitban => repliedChopped call data fun reply buffer =>
      if line "SSH" <+: buffer then ⟨data, some Result.ok, [heard reply, .sent sshClivers]⟩
      else ⟨data, some badResp, [heard reply]⟩
  | _ => .ok (stay data)

/-- A line of `snprintf` in a buffer of 256 bytes. -/
def snprintf (text : Text) : Text := text.take 255

def serviceTestPop3 (checkent : Checkent) (call : Call) (data : Data) : Turn :=
  match data.state with
  | .connect => connecting call data .waitban []
  | .waitban => replied call data <| present data fun bytes =>
      if line "+OK" <+: bytes then
        ⟨{ data with state := .sentUser }, none,
          [heard (.text bytes), .sent (snprintf (line "USER " ++ checkent.username))]⟩
      else ⟨data, some badResp, [heard (.text bytes)]⟩
  | .sentUser => replied call data <| present data fun bytes =>
      if line "+OK" <+: bytes then
        ⟨{ data with state := .sentPass }, none,
          [heard (.text bytes), .sent (snprintf (line "PASS " ++ checkent.password))]⟩
      else ⟨data, some badResp, [heard (.text bytes)]⟩
  | .sentPass => replied call data <| present data fun bytes =>
      let retval :=
        if line "+OK" <+: bytes then Result.ok else if line "-ERR" <+: bytes then Result.badAuth else badResp
      ⟨{ data with state := .sentQuit }, some retval, [heard (.text bytes), .sent (line "QUIT")]⟩
  | .sentQuit => replied call data <| present data fun bytes =>
      if line "+OK" <+: bytes then ⟨{ data with state := .gotBye }, none, [heard (.text bytes)]⟩
      else ⟨data, none, [heard (.text bytes)]⟩
  | _ => stay data

/-- The reply to the login, without what the server says before it. -/
def answerImap (data : Data) (bytes buffer : Text) : Turn :=
  let retval :=
    if line "A100 OK" <+: buffer then Result.ok else if line "A100 NO" <+: buffer then Result.badAuth else badResp
  ⟨{ data with state := .sentQuit }, some retval, [heard (.text bytes), .sent (line "A102 LOGOUT")]⟩

def serviceTestImap (fuel : Nat) (checkent : Checkent) (call : Call) (data : Data) : Except Fault Turn :=
  match data.state with
  | .connect => .ok (connecting call data .waitban [])
  | .waitban => .ok <| replied call data <| present data fun bytes =>
      if line "* OK" <+: bytes then
        ⟨{ data with state := .sentAuth }, none,
          [heard (.text bytes), .sent (snprintf (line "A100 LOGIN " ++ checkent.username ++ ' ' :: checkent.password))]⟩
      else ⟨data, some badResp, [heard (.text bytes)]⟩
  | .sentAuth =>
      match call.waiting with
      | .text bytes :: _ =>
          match doover fuel (bufferOf bytes) with
          | none => .error .neverReturns
          | some buffer => .ok (answerImap data bytes buffer)
      | _ => .ok <| replied call data <| present data fun _ => stay data
  | .sentQuit => .ok <| replied call data <| present data fun bytes =>
      if line "A102 OK" <+: bytes then ⟨{ data with state := .gotBye }, some Result.ok, [heard (.text bytes)]⟩
      else ⟨data, some badResp, [heard (.text bytes)]⟩
  | _ => .ok (stay data)

/-- What is in the buffer after `getline_tcp`, whatever it returns. -/
def Reply.buffer : Reply → Text
  | .text bytes => bytes
  | _ => []

/-- No answer after 25 seconds. -/
def unanswered (call : Call) (turn : Turn) : Turn :=
  if 25 < call.now - turn.data.lastact then { turn with retval := some Result.noresp } else turn

def serviceTestNntp (call : Call) (data : Data) : Turn :=
  match data.state with
  | .connect => connecting call data .waitban []
  | .waitban => unanswered call <| replied call data fun reply =>
      if line "200 " <+: reply.buffer then
        ⟨{ data with state := .sentQuit, kept := some Result.ok }, none, [heard reply, .sent (line "QUIT")]⟩
      else ⟨{ data with state := .sentQuit }, some badResp, [heard reply, .sent (line "QUIT")]⟩
  | .sentQuit => unanswered call <| replied call data fun reply =>
      let state := if line "205 " <+: reply.buffer then State.gotBye else data.state
      ⟨{ data with state }, some (data.kept.getD badResp), [heard reply]⟩
  | .gotBye => ⟨data, some Result.ok, []⟩
  | _ => stay data

def serviceTestX500 (call : Call) (data : Data) : Turn :=
  match data.state with
  | .connect => connecting call data .waitban []
  | .waitban => replied call data <| present data fun bytes =>
      if line "replication okay" <+: bytes then ⟨data, some Result.ok, [heard (.text bytes)]⟩
      else ⟨data, some x500Wedged, [heard (.text bytes)]⟩
  | _ => stay data

/-- The loop of `service_test_www` over the lines that wait. -/
def readLines (checkent : Checkent) (now : Int) : List Reply → Nat → Data → Turn
  | [], _, data => stay data
  | reply :: rest, timesRead, data =>
      let data := { data with lastact := now }
      if reply.buffer = [] then
        let data := { data with timesblank := data.timesblank + 1 }
        ⟨data, if 10 < data.timesblank then some badResp else none, [heard reply]⟩
      else
        let data := { data with timesblank := 0 }
        let more (turn : Turn) : Turn := { turn with events := heard reply :: turn.events }
        if reply.buffer.length < checkent.urlText.length then more (readLines checkent now rest (timesRead + 1) data)
        else if checkent.urlText <:+: reply.buffer then ⟨data, some Result.ok, [heard reply]⟩
        else if 25 < timesRead + 1 then ⟨data, none, [heard reply]⟩
        else more (readLines checkent now rest (timesRead + 1) data)

/-- What a WWW check sends. -/
def request (checkent : Checkent) : List Text :=
  [(line "GET " ++ checkent.url ++ line " HTTP/1.0").take 1023, line "User-Agent: sysmond/http.c",
    (line "Host: " ++ checkent.hostname).take 1023, []]

def serviceTestWww (checkent : Checkent) (call : Call) (data : Data) : Turn :=
  match data.state with
  | .connect => connecting call data .waitban (request checkent)
  | .waitban => unanswered call (readLines checkent call.now call.waiting 0 data)
  | _ => stay data

def serviceCheckSysmon (call : Call) (data : Data) : Except Fault Turn :=
  match data.state with
  | .connect => .ok (connecting call data .waitban [])
  | .waitban =>
      match call.waiting with
      | [] =>
          if globtimeout ≤ call.now - data.start then .ok ⟨data, some Result.noresp, []⟩ else .ok (stay data)
      | .text _ :: _ => repliedChopped call data fun reply buffer =>
          if line "111 " <+: buffer then ⟨{ data with state := .sentQuit }, none, [heard reply, .sent (line "QUIT")]⟩
          else ⟨data, some badResp, [heard reply, .sent (line "QUIT")]⟩
      | _ => .ok <| replied call data <| present data fun _ => stay data
  | .sentQuit =>
      match call.waiting with
      | .text _ :: _ => repliedChopped call data fun reply buffer =>
          if line "333 " <+: buffer then ⟨{ data with state := .gotBye }, none, [heard reply]⟩
          else ⟨data, some badResp, [heard reply]⟩
      | _ => .ok <| replied call data <| present data fun _ => stay data
  | .gotBye => .ok ⟨data, some Result.ok, []⟩
  | _ => .ok (stay data)

/-- What a service call does where the memory is there. -/
def serve (fuel : Nat) (protocol : Protocol) (checkent : Checkent) (call : Call) (data : Data) : Except Fault Turn :=
  match protocol with
  | .tcp => .ok (serviceTestTcp call data)
  | .smtp => serviceTestSmtp call data
  | .pop3 => .ok (serviceTestPop3 checkent call data)
  | .imap => serviceTestImap fuel checkent call data
  | .sshd => serviceTestSshd call data
  | .nntp => .ok (serviceTestNntp call data)
  | .x500 => .ok (serviceTestX500 call data)
  | .www => .ok (serviceTestWww checkent call data)
  | .sysmon => serviceCheckSysmon call data

/-! ### The entry of the queue -/

/-- What the reference leads to. -/
inductive Local where
  | null
  | held (data : Data)
  | dangling
  deriving DecidableEq, Repr

inductive Socket where
  | unopened
  | opened
  | closed
  deriving DecidableEq, Repr

/-- `struct monitorent`, with the conversation. -/
structure Monitorent where
  started : Bool
  retval : Int16
  monitordata : Local
  socket : Socket
  lastcheck : UInt32
  queued : Bool
  fault : Option Fault
  events : Events
  deriving DecidableEq, Repr

/-- What `queue_check` makes. -/
def queueCheck (lastcheck : UInt32) : Monitorent := ⟨false, -1, .null, .unopened, lastcheck, true, none, []⟩

/-- `close(here->filedes)`. A number that has been closed may be that of another socket by now. -/
def Monitorent.close (here : Monitorent) : Monitorent :=
  match here.socket with
  | .unopened => here
  | .opened => { here with socket := .closed }
  | .closed => { here with fault := some .closedTwice }

/-- `x500` and `sysmon` free the memory of a check that does not come to its `connect` and keep the reference. -/
def Protocol.keepsReference : Protocol → Bool
  | .x500 | .sysmon => true
  | _ => false

/-- What an early end of the start leaves of the reference. -/
def Protocol.left (protocol : Protocol) : Local := if protocol.keepsReference then .dangling else .null

/-- The start of each check. `pop3` does not look at what `connect` returns. -/
def startTest (protocol : Protocol) (call : Call) (here : Monitorent) : Monitorent :=
  let data : Data := ⟨.connect, call.now, call.now, none, 0⟩
  match call.opening with
  | .noSocket => { here with retval := shortOf here.lastcheck, monitordata := protocol.left }
  | .nodns => { here with retval := Result.nodns, monitordata := protocol.left, socket := .opened }
  | .refused errno =>
      if protocol = .pop3 then { here with monitordata := .held data, socket := .opened }
      else { here with retval := errno.retval.getD here.retval, socket := .closed }
  | .connected => { here with monitordata := .held data, socket := .opened }

/-- A turn, with the clean-up of a check that has its result. -/
def Monitorent.took (here : Monitorent) (turn : Turn) : Monitorent :=
  let after := { here with monitordata := .held turn.data, events := here.events ++ turn.events }
  match turn.retval with
  | none => after
  | some retval => { after with retval, monitordata := .null }.close

/-- All service calls look whether there is a reference. -/
def serviceTest (fuel : Nat) (protocol : Protocol) (checkent : Checkent) (call : Call) (here : Monitorent) : Monitorent :=
  match here.monitordata with
  | .null => here
  | .dangling => { here with fault := some .useAfterFree }
  | .held data =>
      match serve fuel protocol checkent call data with
      | .error fault => { here with fault := some fault }
      | .ok turn => here.took turn

/-- `sysmon` closes its socket whether there is a reference or not. -/
def stopTest (protocol : Protocol) (here : Monitorent) : Monitorent :=
  match here.monitordata with
  | .null => if protocol = .sysmon then here.close else here
  | .held _ => { here with monitordata := .null }.close
  | .dangling => { here with fault := some .doubleFree }

/-- `service_this`. -/
def serviceThis (fuel : Nat) (protocol : Protocol) (checkent : Checkent) (call : Call) (here : Monitorent) : Monitorent :=
  if here.started then serviceTest fuel protocol checkent call here
  else { startTest protocol call here with started := true }

/-- As in the checks over UDP. -/
inductive QueueEvent where
  | service (call : Call)
  | handle
  | wakeup (permanently : Bool)
  | cleanup
  deriving DecidableEq, Repr

/-- What `fast_cleanup_checks` does with one entry. -/
def fastCleanupCheck (protocol : Protocol) (here : Monitorent) : Monitorent :=
  if here.started then
    { (if here.monitordata = .null then here else stopTest protocol here) with queued := false }
  else { here with retval := shortOf here.lastcheck, queued := false }

/-- Nothing follows a fault, and an entry that has left the queue is freed. -/
def step (fuel : Nat) (protocol : Protocol) (checkent : Checkent) (here : Monitorent) (event : QueueEvent) : Monitorent :=
  if here.queued ∧ here.fault = none then
    match event with
    | .service call => if here.retval = -1 then serviceThis fuel protocol checkent call here else here
    | .handle => if here.retval = -1 then here else { here with queued := false }
    | .wakeup permanently =>
        { stopTest protocol here with retval := if permanently then Result.killed else Result.timedout }
    | .cleanup => fastCleanupCheck protocol here
  else here

end Sysmon.TcpCheck
