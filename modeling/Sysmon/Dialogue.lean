import Sysmon.TcpMemory
import Sysmon.Lib.CText
import Mathlib.Data.List.TakeWhile

/-!
# What the checks hear before they have a result

Each check of `TcpCheck.lean` has a script: the connection, the replies it waits for, and what it sends for each. A check
that is all right has gone through its whole script, and one that finds a bad response, a bad password or a wedged server has
heard a reply that its script does not accept. The loop of the IMAP check over the lines before the answer ends if the reply
has at most 251 bytes.
-/

namespace Sysmon.TcpCheck

open Script

/-! ### The scripts -/

/-- The connection, and what is sent on it. -/
def opens (lines : List Text) : Exchange Heard Text := ⟨fun _ => False, (· = .opened), lines⟩

/-- A reply of a kind, and the answers to it. -/
def awaits (accepts : Text → Prop) (lines : List Text) : Exchange Heard Text :=
  ⟨fun _ => False, fun h => ∃ bytes, h = .reply (.text bytes) ∧ accepts bytes, lines⟩

/-- Without its last byte, the reply begins so. -/
def BeginsChopped (start : String) (bytes : Text) : Prop := line start <+: (cString bytes).dropLast

def Begins (start : String) (bytes : Text) : Prop := line start <+: bytes

/-- What is behind the informational lines begins so. -/
def LoggedIn (bytes : Text) : Prop := ∃ fuel buffer, doover fuel (bufferOf bytes) = some buffer ∧ line "A100 OK" <+: buffer

/-- A line of a page with the text in it. -/
def Found (checkent : Checkent) (reply : Reply) : Prop := reply.buffer ≠ [] ∧ checkent.urlText <:+: reply.buffer

def script (protocol : Protocol) (checkent : Checkent) : List (Exchange Heard Text) :=
  match protocol with
  | .tcp => [opens []]
  | .smtp => [opens [], awaits (BeginsChopped "220") [line "QUIT"], awaits (BeginsChopped "221 ") []]
  | .pop3 =>
      [opens [], awaits (Begins "+OK") [snprintf (line "USER " ++ checkent.username)],
        awaits (Begins "+OK") [snprintf (line "PASS " ++ checkent.password)], awaits (Begins "+OK") [line "QUIT"]]
  | .imap =>
      [opens [],
        awaits (Begins "* OK") [snprintf (line "A100 LOGIN " ++ checkent.username ++ ' ' :: checkent.password)],
        awaits LoggedIn [line "A102 LOGOUT"]]
  | .sshd => [opens [], awaits (BeginsChopped "SSH") [sshClivers]]
  | .nntp =>
      [opens [], ⟨fun _ => False, fun h => ∃ reply, h = .reply reply ∧ line "200 " <+: reply.buffer, [line "QUIT"]⟩,
        ⟨fun _ => False, fun h => ∃ reply, h = .reply reply, []⟩]
  | .x500 => [opens [], awaits (Begins "replication okay") []]
  | .www =>
      [opens (request checkent),
        ⟨fun h => ∃ reply, h = .reply reply ∧ ¬Found checkent reply,
          fun h => ∃ reply, h = .reply reply ∧ Found checkent reply, []⟩]
  | .sysmon => [opens [], awaits (BeginsChopped "111 ") [line "QUIT"], awaits (BeginsChopped "333 ") []]

/-- How many exchanges are over in each state a check goes through. -/
def Protocol.place : Protocol → State → Option Nat
  | _, .connect => some 0
  | .tcp, _ => none
  | _, .waitban => some 1
  | .pop3, .sentUser | .imap, .sentAuth | .smtp, .sentQuit | .nntp, .sentQuit | .sysmon, .sentQuit => some 2
  | .pop3, .sentPass | .smtp, .gotBye | .sysmon, .gotBye => some 3
  | _, _ => none

/-! ### Along the script -/

/-- The results that say something about a reply. -/
def Blames (retval : Int16) : Prop := retval = badResp ∨ retval = Result.badAuth ∨ retval = x500Wedged

/-- The results that say nothing about a conversation. -/
def Silent (retval : Int16) : Prop := retval ≠ Result.ok ∧ ¬Blames retval

instance (retval : Int16) : Decidable (Blames retval) := inferInstanceAs (Decidable (_ ∨ _))

instance (retval : Int16) : Decidable (Silent retval) := inferInstanceAs (Decidable (_ ∧ _))

/-- The conversation gives the reason for the result. -/
structure Explains (protocol : Protocol) (checkent : Checkent) (events : Events) (retval : Int16) : Prop where
  ok : retval = Result.ok → Follows (script protocol checkent) events
  refused : Blames retval → Refused (script protocol checkent) events

/-- A check without a result has come as far in the script as its state says. -/
structure Along (protocol : Protocol) (checkent : Checkent) (events : Events) (data : Data) : Prop where
  place : ∃ n, protocol.place data.state = some n ∧ Reached (script protocol checkent) n events
  kept : protocol = .nntp → data.state = .sentQuit → data.kept = some Result.ok

/-- What a turn leaves, behind what was said before. -/
def Turn.Sound (protocol : Protocol) (checkent : Checkent) (events : Events) (turn : Turn) : Prop :=
  match turn.retval with
  | none => Along protocol checkent (events ++ turn.events) turn.data
  | some retval => Explains protocol checkent (events ++ turn.events) retval

variable {protocol : Protocol} {checkent : Checkent} {events : Events} {data : Data} {call : Call} {turn : Turn} {fuel n : Nat}
  {lines : List Text}

theorem sound_none {data' : Data} {said : Events} (h : Along protocol checkent (events ++ said) data') :
    Turn.Sound protocol checkent events ⟨data', none, said⟩ := h

theorem sound_some {data' : Data} {said : Events} {retval : Int16}
    (h : Explains protocol checkent (events ++ said) retval) :
    Turn.Sound protocol checkent events ⟨data', some retval, said⟩ := h

/-- A result that is not about a reply. -/
theorem explains_silent {retval : Int16} (h : Silent retval) : Explains protocol checkent events retval :=
  ⟨fun hok => absurd hok h.1, fun hblames => absurd hblames h.2⟩

theorem explains_refused {exchange : Exchange Heard Text} {heard : Heard} {retval : Int16} (hok : retval ≠ Result.ok)
    (h : Reached (script protocol checkent) n events) (hnext : (script protocol checkent)[n]? = some exchange)
    (hrefused : ¬exchange.accepts heard) (lines : List Text) :
    Explains protocol checkent (events ++ .received heard :: lines.map .sent) retval :=
  ⟨fun hretval => absurd hretval hok, fun _ => ⟨n, events, exchange, heard, lines, h, hnext, hrefused, rfl⟩⟩

/-- The last exchange. -/
theorem explains_ok {exchange : Exchange Heard Text} {heard : Heard} (h : Reached (script protocol checkent) n events)
    (hnext : (script protocol checkent)[n]? = some exchange) (hlast : (script protocol checkent).length = n + 1)
    (haccepts : exchange.accepts heard) :
    Explains protocol checkent (events ++ .received heard :: exchange.answers.map .sent) Result.ok := by
  refine ⟨fun _ => ?_, fun hblames => absurd hblames (by decide)⟩
  have hdone := h.accept hnext haccepts
  rw [← hlast] at hdone
  exact hdone.follows

theorem sound_stay (h : Along protocol checkent events data) : (stay data).Sound protocol checkent events := by
  rw [stay]
  refine sound_none ?_
  rwa [List.append_nil]

theorem errno_retval {errno : UdpCheck.Errno} {retval : Int16} (h : errno.retval = some retval) : Silent retval := by
  cases errno <;> simp only [UdpCheck.Errno.retval, Option.some.injEq, reduceCtorEq] at h <;> subst h <;> decide

/-- A connection that fails does so with a result of its own. -/
theorem sound_failed {errno : UdpCheck.Errno} {data' : Data} (h : Along protocol checkent events data') :
    Turn.Sound protocol checkent events ⟨data', errno.retval, []⟩ := by
  cases hretval : errno.retval with
  | none =>
      refine sound_none ?_
      rwa [List.append_nil]
  | some retval => exact sound_some (explains_silent (errno_retval hretval))

theorem Along.reached (h : Along protocol checkent events data) (hstate : protocol.place data.state = some n) :
    Reached (script protocol checkent) n events := by
  obtain ⟨m, hplace, hreached⟩ := h.place
  rwa [Option.some.inj (hstate.symm.trans hplace)]

/-- A check without a result is in one of its states. -/
theorem Along.unplaced (h : Along protocol checkent events data) (hstate : protocol.place data.state = none) : False := by
  obtain ⟨n, hplace, -⟩ := h.place
  cases hstate.symm.trans hplace

theorem sound_connecting (h : Along protocol checkent events data) (hstate : data.state = .connect)
    (hscript : (script protocol checkent)[0]? = some (opens lines)) (hplace : protocol.place .waitban = some 1) :
    (connecting call data .waitban lines).Sound protocol checkent events := by
  have hreached : Reached (script protocol checkent) 0 events := h.reached (by rw [hstate, Protocol.place])
  rw [connecting]
  cases call.isOpen with
  | undecided => exact sound_stay h
  | failed errno => exact sound_failed ⟨h.place, h.kept⟩
  | ok =>
      refine sound_none ⟨⟨1, hplace, ?_⟩, by simp⟩
      exact hreached.accept hscript rfl

theorem sound_hurried (h : turn.Sound protocol checkent events) : (hurried call turn).Sound protocol checkent events := by
  rw [hurried]
  split
  · exact explains_silent (by decide)
  · exact h

theorem sound_unanswered (h : turn.Sound protocol checkent events) :
    (unanswered call turn).Sound protocol checkent events := by
  rw [unanswered]
  split
  · exact explains_silent (by decide)
  · exact h

theorem sound_replied {answer : Reply → Turn} (h : Along protocol checkent events data)
    (hanswer : ∀ reply, (answer reply).Sound protocol checkent events) :
    (replied call data answer).Sound protocol checkent events := by
  rw [replied]
  cases call.waiting with
  | nil => exact sound_stay h
  | cons reply rest => exact hanswer reply

theorem sound_repliedChopped {answer : Reply → Text → Turn} (h : Along protocol checkent events data)
    (hserve : repliedChopped call data answer = .ok turn)
    (hanswer : ∀ reply buffer, chopped reply = some buffer → (answer reply buffer).Sound protocol checkent events) :
    turn.Sound protocol checkent events := by
  rw [repliedChopped] at hserve
  cases hwaiting : call.waiting with
  | nil =>
      rw [hwaiting] at hserve
      exact Except.ok.inj hserve ▸ sound_stay h
  | cons reply rest =>
      simp only [hwaiting] at hserve
      cases hchopped : chopped reply with
      | none =>
          rw [hchopped] at hserve
          cases hserve
      | some buffer =>
          rw [hchopped] at hserve
          exact Except.ok.inj hserve ▸ hanswer reply buffer hchopped

/-- A reply that has to be there. An end of the connection has a result of its own. -/
theorem sound_present {answer : Text → Turn} {accepts : Text → Prop} (h : Along protocol checkent events data)
    (hplace : protocol.place data.state = some n) (hnext : (script protocol checkent)[n]? = some (awaits accepts lines))
    (hanswer : ∀ bytes, (answer bytes).Sound protocol checkent events) (reply : Reply) :
    (present data answer reply).Sound protocol checkent events := by
  cases reply with
  | eof => exact sound_some (explains_silent (by decide))
  | error =>
      refine sound_some (explains_refused (by decide) (h.reached hplace) hnext (fun ⟨bytes, heq, _⟩ => ?_) [])
      cases heq
  | text bytes => exact hanswer bytes

/-- One exchange of the script, or a bad response. -/
theorem sound_ite (answers lines : List Text) {goes : Prop} [Decidable goes] {exchange : Exchange Heard Text} {reply : Reply}
    {data' data'' : Data} (h : Along protocol checkent events data) (hplace : protocol.place data.state = some n)
    (hnext : (script protocol checkent)[n]? = some exchange) (haccepts : goes ↔ exchange.accepts (.reply reply))
    (hanswers : exchange.answers = answers) (hafter : protocol.place data'.state = some (n + 1))
    (hkept : protocol = .nntp → data'.state = .sentQuit → data'.kept = some Result.ok) :
    Turn.Sound protocol checkent events (if goes then ⟨data', none, heard reply :: answers.map .sent⟩
      else ⟨data'', some badResp, heard reply :: lines.map .sent⟩) := by
  subst hanswers
  split
  · rename_i hgoes
    exact sound_none ⟨⟨n + 1, hafter, (h.reached hplace).accept hnext (haccepts.mp hgoes)⟩, hkept⟩
  · rename_i hgoes
    exact sound_some (explains_refused (by decide) (h.reached hplace) hnext (fun hacc => hgoes (haccepts.mpr hacc)) lines)

/-- The last exchange of the script, or a result that blames the reply. -/
theorem sound_last (answers lines : List Text) {goes : Prop} [Decidable goes] {exchange : Exchange Heard Text} {reply : Reply}
    {data' : Data} {retval : Int16} (h : Along protocol checkent events data) (hplace : protocol.place data.state = some n)
    (hnext : (script protocol checkent)[n]? = some exchange) (hlast : (script protocol checkent).length = n + 1)
    (haccepts : goes ↔ exchange.accepts (.reply reply)) (hanswers : exchange.answers = answers)
    (hretval : retval ≠ Result.ok) :
    Turn.Sound protocol checkent events (if goes then ⟨data', some Result.ok, heard reply :: answers.map .sent⟩
      else ⟨data', some retval, heard reply :: lines.map .sent⟩) := by
  subst hanswers
  split
  · rename_i hgoes
    exact sound_some (explains_ok (h.reached hplace) hnext hlast (haccepts.mp hgoes))
  · rename_i hgoes
    exact sound_some (explains_refused hretval (h.reached hplace) hnext (fun hacc => hgoes (haccepts.mpr hacc)) lines)

/-- A result of the last reply, whatever it is. -/
theorem sound_verdict (answers : List Text) {goes : Prop} [Decidable goes] {exchange : Exchange Heard Text} {reply : Reply}
    {data' : Data} {retval : Int16} (h : Along protocol checkent events data) (hplace : protocol.place data.state = some n)
    (hnext : (script protocol checkent)[n]? = some exchange) (hlast : (script protocol checkent).length = n + 1)
    (haccepts : goes ↔ exchange.accepts (.reply reply)) (hanswers : exchange.answers = answers)
    (hretval : retval ≠ Result.ok) :
    Turn.Sound protocol checkent events
      ⟨data', some (if goes then Result.ok else retval), heard reply :: answers.map .sent⟩ := by
  have hlastTurn := @sound_last protocol checkent events data n answers answers goes _ exchange reply data' retval h hplace
    hnext hlast haccepts hanswers hretval
  split
  · rename_i hgoes
    rwa [if_pos hgoes] at hlastTurn
  · rename_i hgoes
    rwa [if_neg hgoes] at hlastTurn

theorem awaits_text {accepts : Text → Prop} {bytes : Text} :
    accepts bytes ↔ (awaits accepts lines).accepts (.reply (.text bytes)) := by
  constructor
  · exact fun h => ⟨bytes, rfl, h⟩
  · rintro ⟨other, heq, h⟩
    cases heq
    exact h

theorem awaits_chopped {start : String} {reply : Reply} {buffer : Text} (hstart : line start ≠ [])
    (hchopped : chopped reply = some buffer) :
    line start <+: buffer ↔ (awaits (BeginsChopped start) lines).accepts (.reply reply) := by
  cases reply with
  | text bytes =>
      rw [← awaits_text, BeginsChopped]
      rw [chopped] at hchopped
      split at hchopped
      · cases hchopped
      · rw [Option.some.inj hchopped]
  | _ =>
      rw [← Option.some.inj hchopped, List.prefix_nil]
      refine iff_of_false hstart ?_
      rintro ⟨bytes, heq, -⟩
      cases heq

/-- A state in which there is only the result left. -/
theorem sound_done (h : Along protocol checkent events data) (hplace : protocol.place data.state = some n)
    (hlast : (script protocol checkent).length = n) : Turn.Sound protocol checkent events ⟨data, some Result.ok, []⟩ := by
  have hreached := h.reached hplace
  rw [← hlast] at hreached
  refine sound_some ⟨fun _ => ?_, fun hblames => absurd hblames (by decide)⟩
  rw [List.append_nil]
  exact hreached.follows

/-! ### Each check -/

theorem sound_tcp (h : Along .tcp checkent events data) : (serviceTestTcp call data).Sound .tcp checkent events := by
  have hstate : data.state = .connect := by
    obtain ⟨n, hplace, -⟩ := h.place
    cases hstate : data.state with
    | connect => rfl
    | _ =>
        rw [hstate] at hplace
        cases hplace
  rw [serviceTestTcp]
  cases call.isOpen with
  | undecided => exact sound_hurried (sound_stay h)
  | failed errno => exact sound_failed h
  | ok =>
      have hreached : Reached (script .tcp checkent) 0 events := h.reached (by rw [hstate, Protocol.place])
      exact sound_some (@explains_ok .tcp checkent events 0 (opens []) .opened hreached rfl rfl rfl)

theorem sound_smtp (h : Along .smtp checkent events data) (hserve : serviceTestSmtp call data = .ok turn) :
    turn.Sound .smtp checkent events := by
  rw [serviceTestSmtp] at hserve
  cases hstate : data.state with
  | connect =>
      simp only [hstate] at hserve
      exact Except.ok.inj hserve ▸ sound_hurried (sound_connecting h hstate rfl rfl)
  | waitban =>
      simp only [hstate] at hserve
      refine sound_repliedChopped h hserve fun reply buffer hchopped => ?_
      exact sound_ite [line "QUIT"] [line "QUIT"] h (by rw [hstate]; rfl) rfl (awaits_chopped (by decide) hchopped) rfl rfl
        (by simp)
  | sentQuit =>
      simp only [hstate] at hserve
      refine sound_repliedChopped h hserve fun reply buffer hchopped => ?_
      exact sound_ite [] [] h (by rw [hstate]; rfl) rfl (awaits_chopped (by decide) hchopped) rfl rfl (by simp)
  | gotBye =>
      simp only [hstate] at hserve
      exact Except.ok.inj hserve ▸ sound_done h (by rw [hstate]; rfl) rfl
  | _ =>
      simp only [hstate] at hserve
      exact Except.ok.inj hserve ▸ sound_stay h

theorem sound_sshd (h : Along .sshd checkent events data) (hserve : serviceTestSshd call data = .ok turn) :
    turn.Sound .sshd checkent events := by
  rw [serviceTestSshd] at hserve
  cases hstate : data.state with
  | connect =>
      simp only [hstate] at hserve
      exact Except.ok.inj hserve ▸ sound_hurried (sound_connecting h hstate rfl rfl)
  | waitban =>
      simp only [hstate] at hserve
      refine sound_repliedChopped h hserve fun reply buffer hchopped => ?_
      exact sound_last [sshClivers] [] h (by rw [hstate]; rfl) rfl rfl (awaits_chopped (by decide) hchopped) rfl (by decide)
  | _ =>
      simp only [hstate] at hserve
      exact Except.ok.inj hserve ▸ sound_stay h

theorem sound_pop3 (h : Along .pop3 checkent events data) :
    (serviceTestPop3 checkent call data).Sound .pop3 checkent events := by
  rw [serviceTestPop3]
  cases hstate : data.state with
  | connect => exact sound_connecting h hstate rfl rfl
  | waitban =>
      refine sound_replied h (sound_present h (by rw [hstate]; rfl) rfl fun bytes => ?_)
      exact sound_ite [_] [] h (by rw [hstate]; rfl) rfl awaits_text rfl rfl (by simp)
  | sentUser =>
      refine sound_replied h (sound_present h (by rw [hstate]; rfl) rfl fun bytes => ?_)
      exact sound_ite [_] [] h (by rw [hstate]; rfl) rfl awaits_text rfl rfl (by simp)
  | sentPass =>
      have hplace : Protocol.pop3.place data.state = some 3 := by rw [hstate]; rfl
      refine sound_replied h (sound_present h hplace rfl fun bytes => ?_)
      exact sound_verdict [line "QUIT"] h hplace rfl rfl awaits_text rfl (by split <;> decide)
  | sentQuit => exact (h.unplaced (by rw [hstate]; rfl)).elim
  | _ => exact sound_stay h

/-- More turns of the loop do not change what it has come to. -/
theorem doover_mono {fuel more : Nat} {buffer result : Text} (hle : fuel ≤ more) (h : doover fuel buffer = some result) :
    doover more buffer = some result := by
  induction fuel generalizing buffer more with
  | zero => cases h
  | succ fuel ih =>
      obtain ⟨more, rfl⟩ : ∃ k, more = k + 1 := ⟨more - 1, by omega⟩
      rw [doover] at h ⊢
      split
      · rename_i hstar
        rw [if_pos hstar] at h
        split
        · rename_i hline
          rw [if_pos hline] at h
          exact ih (Nat.le_of_succ_le_succ hle) h
        · rename_i hline
          rwa [if_neg hline] at h
      · rename_i hstar
        rwa [if_neg hstar] at h

theorem loggedIn_iff {bytes buffer : Text} (h : doover fuel (bufferOf bytes) = some buffer) :
    line "A100 OK" <+: buffer ↔ LoggedIn bytes := by
  constructor
  · exact fun hbegins => ⟨fuel, buffer, h, hbegins⟩
  · rintro ⟨other, result, hother, hbegins⟩
    have hleft := doover_mono (Nat.le_max_left fuel other) h
    have hright := doover_mono (Nat.le_max_right fuel other) hother
    rwa [Option.some.inj (hleft.symm.trans hright)]

theorem sound_imap (h : Along .imap checkent events data) (hserve : serviceTestImap fuel checkent call data = .ok turn) :
    turn.Sound .imap checkent events := by
  rw [serviceTestImap] at hserve
  cases hstate : data.state with
  | connect =>
      simp only [hstate] at hserve
      exact Except.ok.inj hserve ▸ sound_connecting h hstate rfl rfl
  | waitban =>
      simp only [hstate] at hserve
      refine Except.ok.inj hserve ▸ sound_replied h (sound_present h (by rw [hstate]; rfl) rfl fun bytes => ?_)
      exact sound_ite [_] [] h (by rw [hstate]; rfl) rfl awaits_text rfl rfl (by simp)
  | sentAuth =>
      have hplace : Protocol.imap.place data.state = some 2 := by rw [hstate]; rfl
      simp only [hstate] at hserve
      split at hserve
      · rename_i bytes rest hwaiting
        cases hloop : doover fuel (bufferOf bytes) with
        | none =>
            rw [hloop] at hserve
            cases hserve
        | some buffer =>
            rw [hloop] at hserve
            refine Except.ok.inj hserve ▸ ?_
            exact sound_verdict [line "A102 LOGOUT"] h hplace rfl rfl ((loggedIn_iff hloop).trans awaits_text) rfl
              (by split <;> decide)
      · exact Except.ok.inj hserve ▸ sound_replied h (sound_present h hplace rfl fun bytes => sound_stay h)
  | sentQuit => exact (h.unplaced (by rw [hstate]; rfl)).elim
  | _ =>
      simp only [hstate] at hserve
      exact Except.ok.inj hserve ▸ sound_stay h

theorem sound_nntp (h : Along .nntp checkent events data) : (serviceTestNntp call data).Sound .nntp checkent events := by
  rw [serviceTestNntp]
  cases hstate : data.state with
  | connect => exact sound_connecting h hstate rfl rfl
  | waitban =>
      refine sound_unanswered (sound_replied h fun reply => ?_)
      refine sound_ite [line "QUIT"] [line "QUIT"] h (by rw [hstate]; rfl) rfl ?_ rfl rfl fun _ _ => rfl
      constructor
      · exact fun hbegins => ⟨reply, rfl, hbegins⟩
      · rintro ⟨other, heq, hbegins⟩
        cases heq
        exact hbegins
  | sentQuit =>
      refine sound_unanswered (sound_replied h fun reply => ?_)
      rw [h.kept rfl hstate]
      have hreached : Reached (script .nntp checkent) 2 events := h.reached (by rw [hstate]; rfl)
      exact sound_some (explains_ok hreached rfl rfl ⟨reply, rfl⟩)
  | gotBye => exact (h.unplaced (by rw [hstate]; rfl)).elim
  | _ => exact sound_stay h

theorem sound_x500 (h : Along .x500 checkent events data) : (serviceTestX500 call data).Sound .x500 checkent events := by
  rw [serviceTestX500]
  cases hstate : data.state with
  | connect => exact sound_connecting h hstate rfl rfl
  | waitban =>
      refine sound_replied h (sound_present h (by rw [hstate]; rfl) rfl fun bytes => ?_)
      exact sound_last [] [] h (by rw [hstate]; rfl) rfl rfl awaits_text rfl (by decide)
  | _ => exact sound_stay h

/-- A line that goes before what is heard later. -/
theorem sound_cons {said : Script.Event Heard Text} (h : turn.Sound protocol checkent (events ++ [said])) :
    Turn.Sound protocol checkent events { turn with events := said :: turn.events } := by
  rw [Turn.Sound] at h ⊢
  cases hretval : turn.retval with
  | none =>
      rw [hretval] at h
      dsimp only at h ⊢
      rwa [List.append_assoc] at h
  | some retval =>
      rw [hretval] at h
      dsimp only at h ⊢
      rwa [List.append_assoc] at h

/-- The lines up to the one with the text are passed over. -/
theorem sound_readLines {replies : List Reply} {timesRead : Nat} {now : Int} (h : Along .www checkent events data)
    (hstate : data.state = .waitban) : (readLines checkent now replies timesRead data).Sound .www checkent events := by
  induction replies generalizing timesRead data events with
  | nil => exact sound_stay h
  | cons reply rest ih =>
      have hreached : Reached (script .www checkent) 1 events := h.reached (by rw [hstate]; rfl)
      have hpass : ¬Found checkent reply → Reached (script .www checkent) 1 (events ++ [heard reply]) := fun hfound =>
        hreached.pass rfl ⟨reply, rfl, hfound⟩
      have hmore : ∀ data' : Data, data'.state = .waitban → ¬Found checkent reply →
          Along .www checkent (events ++ [heard reply]) data' := fun data' hdata' hfound =>
        ⟨⟨1, by rw [hdata']; rfl, hpass hfound⟩, by simp⟩
      rw [readLines]
      dsimp only
      split
      · rename_i hblank
        have hfound : ¬Found checkent reply := fun hfound => hfound.1 hblank
        split
        · refine sound_some (explains_refused (by decide) hreached rfl (fun ⟨other, heq, hother⟩ => ?_) [])
          cases heq
          exact hfound hother
        · exact sound_none (hmore _ hstate hfound)
      · rename_i hline
        split
        · rename_i hshort
          have hfound : ¬Found checkent reply := fun hfound => absurd hfound.2.length_le (Nat.not_le_of_lt hshort)
          exact sound_cons (ih (hmore _ hstate hfound) hstate)
        · split
          · rename_i htext
            exact sound_some (explains_ok hreached rfl rfl ⟨reply, rfl, hline, htext⟩)
          · rename_i htext
            have hfound : ¬Found checkent reply := fun hfound => htext hfound.2
            split
            · exact sound_none (hmore _ hstate hfound)
            · exact sound_cons (ih (hmore _ hstate hfound) hstate)

theorem sound_www (h : Along .www checkent events data) : (serviceTestWww checkent call data).Sound .www checkent events := by
  rw [serviceTestWww]
  cases hstate : data.state with
  | connect => exact sound_connecting h hstate rfl rfl
  | waitban => exact sound_unanswered (sound_readLines h hstate)
  | _ => exact sound_stay h

theorem sound_sysmon (h : Along .sysmon checkent events data) (hserve : serviceCheckSysmon call data = .ok turn) :
    turn.Sound .sysmon checkent events := by
  rw [serviceCheckSysmon] at hserve
  cases hstate : data.state with
  | connect =>
      simp only [hstate] at hserve
      exact Except.ok.inj hserve ▸ sound_connecting h hstate rfl rfl
  | waitban =>
      have hplace : Protocol.sysmon.place data.state = some 1 := by rw [hstate]; rfl
      simp only [hstate] at hserve
      split at hserve
      · split at hserve
        · exact Except.ok.inj hserve ▸ sound_some (explains_silent (by decide))
        · exact Except.ok.inj hserve ▸ sound_stay h
      · refine sound_repliedChopped h hserve fun reply buffer hchopped => ?_
        exact sound_ite [line "QUIT"] [line "QUIT"] h hplace rfl (awaits_chopped (by decide) hchopped) rfl rfl (by simp)
      · exact Except.ok.inj hserve ▸ sound_replied h (sound_present h hplace rfl fun bytes => sound_stay h)
  | sentQuit =>
      have hplace : Protocol.sysmon.place data.state = some 2 := by rw [hstate]; rfl
      simp only [hstate] at hserve
      split at hserve
      · refine sound_repliedChopped h hserve fun reply buffer hchopped => ?_
        exact sound_ite [] [] h hplace rfl (awaits_chopped (by decide) hchopped) rfl rfl (by simp)
      · exact Except.ok.inj hserve ▸ sound_replied h (sound_present h hplace rfl fun bytes => sound_stay h)
  | gotBye =>
      simp only [hstate] at hserve
      exact Except.ok.inj hserve ▸ sound_done h (by rw [hstate]; rfl) rfl
  | _ =>
      simp only [hstate] at hserve
      exact Except.ok.inj hserve ▸ sound_stay h

/-- Every service call goes on by the script. -/
theorem sound_serve (h : Along protocol checkent events data)
    (hserve : serve fuel protocol checkent call data = .ok turn) : turn.Sound protocol checkent events := by
  cases protocol with
  | tcp => exact Except.ok.inj hserve ▸ sound_tcp h
  | smtp => exact sound_smtp h hserve
  | pop3 => exact Except.ok.inj hserve ▸ sound_pop3 h
  | imap => exact sound_imap h hserve
  | sshd => exact sound_sshd h hserve
  | nntp => exact Except.ok.inj hserve ▸ sound_nntp h
  | x500 => exact Except.ok.inj hserve ▸ sound_x500 h
  | www => exact Except.ok.inj hserve ▸ sound_www h
  | sysmon => exact sound_sysmon h hserve

/-! ### A whole run -/

/-- The result was there before, or the conversation gives the reason for it. -/
def Reasoned (protocol : Protocol) (checkent : Checkent) (here : Monitorent) : Prop :=
  (here.retval = UdpCheck.shortOf here.lastcheck ∧ here.events = []) ∨ Explains protocol checkent here.events here.retval

/-- What every step keeps. -/
structure Told (protocol : Protocol) (checkent : Checkent) (lastcheck : UInt32) (here : Monitorent) : Prop where
  lastcheck : here.lastcheck = lastcheck
  quiet : here.started = false → here.events = [] ∧ here.monitordata = .null
  held : ∀ data, here.monitordata = .held data → Along protocol checkent here.events data ∧ here.socket = .opened
  reasoned : Reasoned protocol checkent here

variable {here : Monitorent} {lastcheck : UInt32}

/-- A result that is not about a reply needs no reason. -/
theorem reasoned_silent {entry : Monitorent} {retval : Int16} (hretval : entry.retval = retval) (h : Silent retval) :
    Reasoned protocol checkent entry := Or.inr (explains_silent (hretval ▸ h))

theorem told_start (h : Told protocol checkent lastcheck here) (hstarted : here.started = false) :
    Told protocol checkent lastcheck { startTest protocol call here with started := true } := by
  obtain ⟨hquiet, hlocal⟩ := h.quiet hstarted
  have hleft : ∀ data, protocol.left ≠ .held data := by
    intro data
    rw [Protocol.left]
    split <;> simp
  obtain ⟨-, heq⟩ | ⟨-, heq⟩ | ⟨-, -, ⟨errno, heq⟩ | ⟨data, hdata, heq⟩⟩ :=
    startTest_cases protocol call here <;> rw [heq]
  · exact ⟨h.lastcheck, by simp, fun data hheld => absurd hheld (hleft data), Or.inl ⟨rfl, hquiet⟩⟩
  · exact ⟨h.lastcheck, by simp, fun data hheld => absurd hheld (hleft data),
      reasoned_silent rfl (show Silent Result.nodns by decide)⟩
  · refine ⟨h.lastcheck, by simp, fun data hheld => absurd (hlocal.symm.trans hheld) (by simp), ?_⟩
    cases hretval : errno.retval with
    | none => exact h.reasoned
    | some retval => exact reasoned_silent rfl (errno_retval hretval)
  · refine ⟨h.lastcheck, by simp, fun data' hheld => ?_, h.reasoned⟩
    rw [← Local.held.inj hheld]
    refine ⟨⟨⟨0, by rw [hdata, Protocol.place], ?_⟩, by simp [hdata]⟩, rfl⟩
    dsimp only
    rw [hquiet]
    exact reached_zero

theorem told_service (h : Told protocol checkent lastcheck here) (hstarted : here.started = true) (hretval : here.retval = -1) :
    Told protocol checkent lastcheck (serviceTest fuel protocol checkent call here) := by
  cases hlocal : here.monitordata with
  | null =>
      have hsame : serviceTest fuel protocol checkent call here = here := by rw [serviceTest, hlocal]
      rwa [hsame]
  | dangling =>
      rw [serviceTest_dangling hlocal]
      exact ⟨h.lastcheck, h.quiet, h.held, h.reasoned⟩
  | held data =>
      obtain ⟨halong, hopen⟩ := h.held data hlocal
      obtain ⟨fault, -, heq⟩ | ⟨turn, hserve, heq⟩ :=
        @serviceTest_held fuel protocol checkent here call data hlocal <;> rw [heq]
      · exact ⟨h.lastcheck, h.quiet, h.held, h.reasoned⟩
      · have hsound := sound_serve halong hserve
        rw [Turn.Sound] at hsound
        obtain ⟨hturn, htook⟩ | ⟨retval, hturn, htook⟩ := took_cases turn hopen <;> rw [htook] <;> rw [hturn] at hsound
        · refine ⟨h.lastcheck, by simp [hstarted], fun data' hheld => ?_, reasoned_silent hretval (by decide)⟩
          rw [← Local.held.inj hheld]
          exact ⟨hsound, hopen⟩
        · exact ⟨h.lastcheck, by simp [hstarted], by simp, Or.inr hsound⟩

/-- A check that was stopped, with a result that needs no reason or the one it had. -/
theorem told_stop (h : Told protocol checkent lastcheck here) (hconsistent : Consistent here) {retval : Int16} {queued : Bool}
    (hretval : retval = here.retval ∨ Silent retval) :
    Told protocol checkent lastcheck { stopTest protocol here with retval, queued } := by
  obtain ⟨hstarted, hsame, hlast, hevents⟩ := stopTest_frame protocol here
  refine ⟨hlast.trans h.lastcheck, fun hno => ?_, fun data hheld => absurd hheld (stopTest_not_held protocol here data), ?_⟩
  · dsimp only at hno ⊢
    rw [stopTest_unstarted hconsistent (hstarted.symm.trans hno)]
    exact h.quiet (hstarted.symm.trans hno)
  · obtain rfl | hsilent := hretval
    · rw [Reasoned]
      dsimp only
      rw [hlast, hevents]
      exact h.reasoned
    · exact reasoned_silent rfl hsilent

theorem told_step (event : QueueEvent) (hconsistent : Consistent here) (h : Told protocol checkent lastcheck here) :
    Told protocol checkent lastcheck (step fuel protocol checkent here event) := by
  unfold step
  split
  · cases event with
    | service call =>
        dsimp only
        split
        · rename_i hretval
          rw [serviceThis]
          cases hstarted : here.started with
          | false => exact told_start h hstarted
          | true => exact told_service h hstarted hretval
        · exact h
    | handle =>
        dsimp only
        split
        · exact h
        · exact ⟨h.lastcheck, h.quiet, h.held, h.reasoned⟩
    | wakeup permanently =>
        refine told_stop h hconsistent (Or.inr ?_)
        cases permanently <;> decide
    | cleanup =>
        dsimp only
        rw [fastCleanupCheck]
        split
        · split
          · exact ⟨h.lastcheck, h.quiet, h.held, h.reasoned⟩
          · exact told_stop h hconsistent (Or.inl (stopTest_frame protocol here).2.1)
        · rename_i hstarted
          have hquiet := h.quiet (Bool.eq_false_iff.mpr hstarted)
          exact ⟨h.lastcheck, h.quiet, h.held, Or.inl ⟨rfl, hquiet.1⟩⟩
  · exact h

/-- What is left of a text without the lines at its beginning that start with a star. -/
inductive Untagged : Text → Text → Prop where
  | plain {text} : text.head? ≠ some '*' ∨ '\n' ∉ text → Untagged text text
  | line {words rest result} : '\n' ∉ words → Untagged rest result → Untagged ('*' :: words ++ '\n' :: rest) result

theorem nul_notMem_cString (buffer : Text) : '\x00' ∉ cString buffer := by
  intro h
  have hnul := List.mem_takeWhile_imp h
  simp at hnul

theorem cString_drop {buffer : Text} (h : n ≤ (cString buffer).length) :
    cString (buffer.drop n) = (cString buffer).drop n := by
  induction n generalizing buffer with
  | zero => rfl
  | succ n ih =>
      cases buffer with
      | nil => rfl
      | cons c rest =>
          by_cases hc : c = '\x00'
          · rw [hc] at h
            simp [cString] at h
          · have hcons : cString (c :: rest) = c :: cString rest := List.takeWhile_cons_of_pos (by simpa using hc)
            rw [hcons] at h ⊢
            exact ih (Nat.le_of_succ_le_succ h)

theorem cString_bufferOf {bytes : Text} (h : bytes.length ≤ 255) : cString (bufferOf bytes) = cString bytes := by
  have hspace : 256 - bytes.length = (255 - bytes.length) + 1 := by omega
  rw [bufferOf, List.take_of_length_le h, hspace, List.replicate_succ, cString, cString, List.takeWhile_append]
  split
  · rename_i hall
    have hself := (List.takeWhile_prefix _).eq_of_length hall
    simpa using hself.symm
  · rfl

/-- Copying a line on that is short enough leaves that line. -/
theorem cString_copied {buffer : Text} (hle : n ≤ (cString buffer).length) (hshort : (cString buffer).length - n < 250) :
    cString (copied buffer n) = (cString buffer).drop n := by
  have hlen : ((cString buffer).drop n).length < 250 := by rwa [List.length_drop]
  have hspace : 250 - ((cString buffer).drop n).length = (249 - ((cString buffer).drop n).length) + 1 := by omega
  have hnul : '\x00' ∉ (cString buffer).drop n := fun h => nul_notMem_cString buffer (List.mem_of_mem_drop h)
  rw [copied, cString_drop hle]
  rw [List.take_of_length_le (Nat.le_of_lt hlen), hspace, List.replicate_succ, List.append_assoc, List.cons_append]
  exact CText.takeWhile_ne_append hnul

theorem doover_untagged {buffer : Text} (hlen : (cString buffer).length ≤ 251) (hfuel : (cString buffer).length < fuel) :
    ∃ result, doover fuel buffer = some result ∧ Untagged (cString buffer) (cString result) := by
  induction fuel generalizing buffer with
  | zero => exact absurd hfuel (Nat.not_lt_zero _)
  | succ fuel ih =>
      rw [doover]
      split
      · rename_i hstar
        split
        · rename_i hline
          -- the text is a star, the rest of its line, and what is copied to the beginning
          obtain ⟨words, rest, htext, hwords⟩ :
              ∃ words rest, cString buffer = '*' :: words ++ '\n' :: rest ∧ '\n' ∉ words := by
            obtain ⟨tail, htail⟩ : ∃ tail, cString buffer = '*' :: tail := by
              cases htext : cString buffer with
              | nil => rw [htext] at hline; cases hline
              | cons c tail =>
                  rw [htext] at hstar
                  exact ⟨tail, by rw [Option.some.inj hstar]⟩
            rw [htail] at hline
            obtain ⟨words, rest, heq, hwords⟩ := List.eq_append_cons_of_mem (List.mem_of_ne_of_mem (by decide) hline)
            exact ⟨words, rest, by rw [htail, heq, List.cons_append], hwords⟩
          have hindex : (cString buffer).idxOf '\n' = words.length + 1 := by
            rw [htext, List.idxOf_append_of_notMem (by simpa using hwords), List.idxOf_cons_self, List.length_cons,
              Nat.add_zero]
          have hlength : (cString buffer).length = words.length + 1 + (rest.length + 1) := by
            rw [htext, List.length_append, List.length_cons, List.length_cons]
          have hcopied : cString (copied buffer ((cString buffer).idxOf '\n' + 1)) = rest := by
            rw [cString_copied (by omega) (by omega), hindex, htext]
            simp [List.drop_append]
          obtain ⟨result, hresult, huntagged⟩ :=
            @ih (copied buffer ((cString buffer).idxOf '\n' + 1)) (by rw [hcopied]; omega)
            (by rw [hcopied]; omega)
          refine ⟨result, hresult, ?_⟩
          rw [htext]
          rw [hcopied] at huntagged
          exact Untagged.line hwords huntagged
        · rename_i hline
          exact ⟨buffer, rfl, Untagged.plain (Or.inr hline)⟩
      · rename_i hstar
        exact ⟨buffer, rfl, Untagged.plain (Or.inl hstar)⟩

/-- A full buffer of informational lines of nothing but a star. -/
def stars : Text := (List.replicate 127 ['*', '\n']).flatten ++ ['*']

/-- The check never comes to the end of these. The copy leaves the end of the buffer where it was. -/
theorem doover_stars (fuel : Nat) : doover fuel (bufferOf stars) = none := by
  have hcopied : copied (bufferOf stars) ((cString (bufferOf stars)).idxOf '\n' + 1) = bufferOf stars := by decide +kernel
  have hstar : (cString (bufferOf stars)).head? = some '*' := by decide
  have hline : '\n' ∈ cString (bufferOf stars) := by decide
  induction fuel with
  | zero => rfl
  | succ fuel ih => rw [doover, if_pos hstar, if_pos hline, hcopied, ih]

end Sysmon.TcpCheck
