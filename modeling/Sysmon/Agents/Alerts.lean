import Sysmon.Agents.History
import Sysmon.Agents.Registry

/-!
# Alerts

An alerter sends alert lines down its connection, and a line is accepted by writing a row of the
history (`handleAlertLine`). Three things want the lock of acceptance `acceptMu`: a line that is to be
accepted, a new connection of the same name that replaces the old one, and `DisconnectSite`. Each of
them is a thread here, with one event for each step of one thread, as in the registry. The state keeps
a log of what happened, in the order it happened in.
-/

namespace Sysmon.Alerts

open GoText
open GoSpace (byteSpaces)
open Fleet (ascii)
open Agents (GoString Tid validSiteName)

/-! ### Text -/

/-- `strings.TrimSpace`. -/
def trimSpace (s : GoString) : GoString := byteSpaces.trimSpace s

/-- `strings.SplitN` at single blanks. -/
def splitN : Nat → GoString → List GoString
  | 0, _ => []
  | 1, s => [s]
  | n + 2, s =>
      match s.dropWhile (· ≠ 32) with
      | [] => [s]
      | _ :: rest => s.takeWhile (· ≠ 32) :: splitN (n + 1) rest

/-- `strings.ToUpper`, as far as it can make an ASCII letter: of the small ASCII letters, of the
dotless i and of the long s. Any other text beyond ASCII stays beyond it. -/
def toUpper : GoString → GoString
  | 0xc4 :: 0xb1 :: s => 73 :: toUpper s
  | 0xc5 :: 0xbf :: s => 83 :: toUpper s
  | b :: s => (if 97 ≤ b && b ≤ 122 then b - 32 else b) :: toUpper s
  | [] => []

/-- The runes of a text, with the bytes of the current one that are still to come. A byte that is not
UTF-8 becomes U+FFFD. -/
def runesLoop (rune : GoString) : Nat → GoString → List GoString
  | _, [] => if rune = [] then [] else [rune]
  | left + 1, b :: s => runesLoop (rune ++ [b]) left s
  | 0, b :: s =>
      let done := if rune = [] then [] else [rune]
      match runeLength (b :: s) with
      | 0 => done ++ [0xef, 0xbf, 0xbd] :: runesLoop [] 0 s
      | left + 1 => done ++ runesLoop [b] left s

def runes (s : GoString) : List GoString := runesLoop [] 0 s

/-- `TruncateRunes`. -/
def truncateRunes (s : GoString) (n : Nat) : GoString :=
  if (runes s).length ≤ n then s else ((runes s).take n).flatten

/-! ### Lines -/

structure Alert where
  status : GoString
  object : GoString
  text : GoString
  deriving DecidableEq, Repr

inductive Reply where
  | ok
  | pong
  | bye
  | refused (message : GoString)
  deriving DecidableEq, Repr

/-- The number that a reply begins with. -/
def Reply.code : Reply → Nat
  | .ok | .pong | .bye => 333
  | .refused _ => 444

def maxAlertText : Nat := 512

def statuses : List GoString := [ascii "CRITICAL", ascii "WARNING", ascii "OK"]

/-- What `handleAlertLine` does before it needs anything of the alerter. -/
def parseAlert (name line : GoString) : Except GoString Alert :=
  let fields := splitN 4 line
  if fields.length < 3 then .error (ascii "usage: ALERT <CRITICAL|WARNING|OK> <object> <text>")
  else
    let status := toUpper (fields.getD 1 [])
    let object := fields.getD 2 []
    if status ∉ statuses then .error (ascii "status must be CRITICAL, WARNING or OK")
    else if validSiteName object = false then
      .error (ascii "object name: letters, digits, - and _ only, max 64")
    else
      let text := truncateRunes (trimSpace (fields.getD 3 [])) maxAlertText
      .ok {
        status, object
        text := if text = [] then name ++ ascii " reports " ++ object ++ [32] ++ status else text }

/-- The first word of a line, in capitals. -/
def lineVerb (line : GoString) : GoString := toUpper (line.takeWhile (· ≠ 32))

/-- What the loop of `runAlerter` makes of a line: nothing, a reply, or an alert to be accepted. -/
inductive Reading where
  | blank
  | reply (reply : Reply)
  | alert (alert : Alert)
  deriving DecidableEq, Repr

/-- A line of `readLineBounded`, when the server has a history or has none. -/
def readLine (name text : GoString) (truncated hist : Bool) : Reading :=
  if truncated then .reply (.refused (ascii "line too long - maximum 4096 bytes"))
  else
    let line := trimSpace text
    if line = [] then .blank
    else if lineVerb line = ascii "PING" then .reply .pong
    else if lineVerb line = ascii "QUIT" then .reply .bye
    else if lineVerb line = ascii "ALERT" then
      match parseAlert name line with
      | .error message => .reply (.refused message)
      | .ok alert =>
          if hist then .alert alert
          else .reply (.refused (ascii "alert history unavailable on this server - alert not accepted"))
    else .reply (.refused (ascii "unknown command (ALERT/PING/QUIT)"))

/-- The line is an alert line: one that is too long, or one that begins with the word. -/
def isAlertLine (text : GoString) (truncated : Bool) : Bool :=
  truncated || lineVerb (trimSpace text) = ascii "ALERT"

/-! ### The bucket -/

/-- The arithmetic that is done in `float64`. -/
structure Floats (R : Type) where
  /-- `alertRateBurst`. -/
  burst : R
  /-- The tokens after some time. -/
  refill : R → Instant → Instant → R
  exceeds : R → R → Bool
  /-- There is a whole token. -/
  ready : R → Bool
  take : R → R
  /-- The whole seconds between two times. -/
  seconds : Instant → Instant → Int

variable {R : Type}

/-! ### Threads -/

/-- How far a connection is. From `holding` on it has the lock of acceptance. -/
inductive ConnStage where
  | greeted
  /-- It holds the lock of the registry. -/
  | checking
  | waiting
  | swapping
  | swapped
  | reading
  | parsed (line : Nat) (alert : Alert)
  | holding (line : Nat) (alert : Alert)
  | accepted (line : Nat) (alert : Alert) (prev : GoString)
  | written (line : Nat) (alert : Alert)
  | done (line : Nat)
  | refusing (line : Nat) (message : GoString)
  | gone
  deriving DecidableEq, Repr

/-- How far a call of `DisconnectSite` is, in its alerter half. -/
inductive CutStage where
  | called
  | waiting
  | holding
  | cut
  | leaving
  | returned
  deriving DecidableEq, Repr

inductive Thread where
  | conn (stage : ConnStage)
  | cut (stage : CutStage)
  deriving DecidableEq, Repr

/-- The thread has the lock of acceptance. -/
def Thread.holds : Thread → Bool
  | .conn .swapping | .conn .swapped | .conn (.holding ..) | .conn (.accepted ..) | .conn (.written ..)
  | .conn (.done _) | .conn (.refusing ..) | .cut .holding | .cut .cut => true
  | _ => false

/-- The record of the alerter. -/
structure Alerter (R : Type) where
  conn : Option Tid
  connected : Bool
  lastStatus : GoString → GoString
  alerts : Nat
  lastAlert : GoString
  rateTokens : R
  rateStamp : Instant

/-- What happened. -/
inductive Mark where
  | registered (c : Tid)
  | called (d : Tid)
  | returned (d : Tid)
  | read (line : Nat) (c : Tid) (text : GoString) (truncated : Bool)
  | committed (line : Nat) (c : Tid) (row : HistoryEvent)
  | answered (line : Nat) (reply : Reply)
  deriving DecidableEq, Repr

structure State (R : Type) where
  record : Option (Alerter R)
  /-- Who holds `alertersMu`, and `acceptMu`. -/
  registry : Option Tid
  accept : Option Tid
  history : HistoryStore
  threads : List Thread
  lines : Nat
  log : List Mark

def State.goto (st : State R) (t : Tid) (stage : ConnStage) : State R :=
  { st with threads := st.threads.set t (.conn stage) }

def State.advance (st : State R) (t : Tid) (stage : CutStage) : State R :=
  { st with threads := st.threads.set t (.cut stage) }

def State.note (st : State R) (mark : Mark) : State R := { st with log := st.log ++ [mark] }

/-! ### Steps -/

/-- The record of a name that is seen for the first time. -/
def newAlerter (fl : Floats R) (t : Tid) (now : Instant) : Alerter R where
  conn := some t
  connected := true
  lastStatus := fun _ => []
  alerts := 0
  lastAlert := []
  rateTokens := fl.burst
  rateStamp := now

/-- A new connection takes the place of the old one. -/
def swap (t : Tid) (a : Alerter R) : Alerter R := { a with conn := some t, connected := true }

def cutOff (a : Alerter R) : Alerter R := { a with conn := none, connected := false }

/-- Only the current connection of the record may say that it is not connected any more. -/
def gone (t : Tid) (a : Alerter R) : Alerter R := if a.conn = some t then { a with connected := false } else a

/-- The bucket before a token is taken. -/
def refilled (fl : Floats R) (a : Alerter R) (now : Instant) : R :=
  let tokens := fl.refill a.rateTokens a.rateStamp now
  if fl.exceeds tokens fl.burst then fl.burst else tokens

/-- The first section of the acceptance under `mu`. -/
def inspect (fl : Floats R) (a : Alerter R) (t : Tid) (now : Instant) : Alerter R :=
  let tokens := refilled fl a now
  { a with
    rateTokens := if fl.ready tokens && a.conn = some t then fl.take tokens else tokens
    rateStamp := now }

/-- What that section decides. -/
def verdict (fl : Floats R) (a : Alerter R) (t : Tid) (now : Instant) (line : Nat) (alert : Alert) : ConnStage :=
  if a.conn ≠ some t then
    .refusing line (ascii "connection superseded by a newer one - alert not accepted")
  else if fl.ready (refilled fl a now) = false then
    .refusing line (ascii "rate limited - too many alerts, slow down")
  else .accepted line alert (a.lastStatus alert.object)

/-- The row of an alert. -/
def rowFor (name : GoString) (alert : Alert) (prev : GoString) : HistoryEvent where
  id := 0
  timestamp := 0
  objectName := name ++ [58] ++ alert.object
  site := name
  localName := alert.object
  hostname := []
  description := alert.text
  prevStatus := prev
  newStatus := alert.status
  prevDuration := 0

/-- The second section under `mu`, when the row is committed. -/
def noteAlert (alert : Alert) (a : Alerter R) : Alerter R :=
  { a with
    lastStatus := Function.update a.lastStatus alert.object alert.status
    alerts := a.alerts + 1
    lastAlert := alert.status ++ [32] ++ alert.object ++ ascii ": " ++ alert.text }

/-- One step of a connection. What is told from outside: the time, whether the epoch is current or the
transaction commits, and whether the pruning does. -/
def connStep (fl : Floats R) (name : GoString) (st : State R) (t : Tid) (stage : ConnStage) (now : Instant)
    (works prunes : Bool) : State R :=
  match stage with
  | .greeted => if st.registry = none then { st with registry := some t }.goto t .checking else st
  | .checking =>
      if works then
        match st.record with
        | none =>
            ({ st with record := some (newAlerter fl t now), registry := none }.goto t .reading).note
              (.registered t)
        | some _ => st.goto t .waiting
      else { st with registry := none }.goto t .gone
  | .waiting => if st.accept = none then { st with accept := some t }.goto t .swapping else st
  | .swapping =>
      ({ st with record := st.record.map (swap t) }.goto t .swapped).note (.registered t)
  | .swapped => { st with accept := none, registry := none }.goto t .reading
  | .parsed line alert =>
      if st.accept = none then { st with accept := some t }.goto t (.holding line alert) else st
  | .holding line alert =>
      match st.record with
      | some a => { st with record := some (inspect fl a t now) }.goto t (verdict fl a t now line alert)
      | none => st
  | .accepted line alert prev =>
      match append fl.seconds st.history [rowFor name alert prev] now works prunes with
      | (history, some rows) =>
          { st with
            history := history
            log := st.log ++ rows.map (Mark.committed line t) }.goto t (.written line alert)
      | (history, none) =>
          { st with history := history }.goto t (.refusing line (ascii "could not record the alert - try again"))
  | .written line alert =>
      { st with record := st.record.map (noteAlert alert) }.goto t (.done line)
  | .done line => ({ st with accept := none }.goto t .reading).note (.answered line .ok)
  | .refusing line message =>
      ({ st with accept := none }.goto t .reading).note (.answered line (.refused message))
  | .reading | .gone => st

/-- One step of `DisconnectSite`. -/
def cutStep (st : State R) (t : Tid) (stage : CutStage) : State R :=
  match stage with
  | .called =>
      if st.registry = none then st.advance t (if st.record.isSome then .waiting else .leaving) else st
  | .waiting => if st.accept = none then { st with accept := some t }.advance t .holding else st
  | .holding =>
      { st with record := st.record.map cutOff }.advance t .cut
  | .cut => { st with accept := none }.advance t .leaving
  | .leaving => (st.advance t .returned).note (.returned t)
  | .returned => st

/-- The deferred function of `runAlerter`. -/
def State.leave (st : State R) (t : Tid) : State R :=
  { st with record := st.record.map (gone t) }.goto t .gone

/-- A connection has a line to read. -/
def State.receive (name : GoString) (st : State R) (t : Tid) (text : GoString) (truncated hist : Bool) :
    State R :=
  let st' := { st with lines := st.lines + 1 }.note (.read st.lines t text truncated)
  match readLine name text truncated hist with
  | .blank => st'
  | .reply .bye => (st'.note (.answered st.lines .bye)).leave t
  | .reply reply => st'.note (.answered st.lines reply)
  | .alert alert => st'.goto t (.parsed st.lines alert)

inductive Event where
  /-- A connection of the name has been let in. -/
  | greet
  /-- `DisconnectSite` is called. -/
  | disconnect
  | line (t : Tid) (text : GoString) (truncated hist : Bool)
  | run (t : Tid) (now : Instant) (works prunes : Bool)
  /-- Nothing more can be read, or the epoch was found stale after the registration. -/
  | lost (t : Tid)
  /-- The poller appends what it has observed. -/
  | observe (events : List HistoryEvent) (now : Instant) (commits prunes : Bool)
  | pruneNow (now : Instant) (commits : Bool)
  deriving DecidableEq, Repr

def State.step (fl : Floats R) (name : GoString) (st : State R) : Event → State R
  | .greet => { st with threads := st.threads ++ [.conn .greeted] }
  | .disconnect => { st with threads := st.threads ++ [Thread.cut .called] }.note (.called st.threads.length)
  | .line t text truncated hist =>
      match st.threads[t]? with
      | some (.conn .reading) => st.receive name t text truncated hist
      | _ => st
  | .run t now works prunes =>
      match st.threads[t]? with
      | some (.conn stage) => connStep fl name st t stage now works prunes
      | some (.cut stage) => cutStep st t stage
      | none => st
  | .lost t =>
      match st.threads[t]? with
      | some (.conn .reading) => st.leave t
      | _ => st
  | .observe events now commits prunes =>
      { st with history := (append fl.seconds st.history events now commits prunes).1 }
  | .pruneNow now commits => { st with history := prune st.history now commits }

/-- Nobody has connected yet. -/
def State.start (history : HistoryStore) : State R where
  record := none
  registry := none
  accept := none
  history := history
  threads := []
  lines := 0
  log := []

/-! ### What a step can do -/

/-- A thread moves without the lock of acceptance. -/
inductive Plain (record : Option (Alerter R)) : Thread → Thread → Prop
  | check : Plain record (.conn .greeted) (.conn .checking)
  | wait : Plain record (.conn .checking) (.conn .waiting)
  | refuse : Plain record (.conn .checking) (.conn .gone)
  | find : Plain record (.cut .called) (.cut .waiting)
  | miss (h : record = none) : Plain record (.cut .called) (.cut .leaving)

/-- A thread gets that lock. -/
inductive Takes : Thread → Thread → Prop
  | swap : Takes (.conn .waiting) (.conn .swapping)
  | accept (line : Nat) (alert : Alert) : Takes (.conn (.parsed line alert)) (.conn (.holding line alert))
  | cut : Takes (.cut .waiting) (.cut .holding)

/-- A connection answers a line and lets the lock go. -/
inductive Answers (line : Nat) : ConnStage → Reply → Prop
  | ok : Answers line (.done line) .ok
  | refused (message : GoString) : Answers line (.refusing line message) (.refused message)

inductive Step (fl : Floats R) (name : GoString) (st : State R) : State R → Prop
  | history (h : HistoryStore) : Step fl name st { st with history := h }
  | greet : Step fl name st { st with threads := st.threads ++ [.conn .greeted] }
  | call : Step fl name st
      ({ st with threads := st.threads ++ [Thread.cut .called] }.note (.called st.threads.length))
  | move (t : Tid) (th th' : Thread) (registry : Option Tid) (hget : st.threads[t]? = some th)
      (hplain : Plain st.record th th') :
      Step fl name st { st with registry := registry, threads := st.threads.set t th' }
  | create (t : Tid) (now : Instant) (hget : st.threads[t]? = some (.conn .checking))
      (hrecord : st.record = none) :
      Step fl name st
        (({ st with record := some (newAlerter fl t now), registry := none }.goto t .reading).note
          (.registered t))
  | take (t : Tid) (th th' : Thread) (hget : st.threads[t]? = some th) (hfree : st.accept = none)
      (htakes : Takes th th') :
      Step fl name st { st with accept := some t, threads := st.threads.set t th' }
  | swap (t : Tid) (hget : st.threads[t]? = some (.conn .swapping)) :
      Step fl name st
        (({ st with record := st.record.map (swap t) }.goto t .swapped).note (.registered t))
  | free (t : Tid) (hget : st.threads[t]? = some (.conn .swapped)) :
      Step fl name st ({ st with accept := none, registry := none }.goto t .reading)
  | inspect (t : Tid) (line : Nat) (alert : Alert) (now : Instant) (a : Alerter R)
      (hget : st.threads[t]? = some (.conn (.holding line alert))) (hrecord : st.record = some a) :
      Step fl name st
        ({ st with record := some (inspect fl a t now) }.goto t (verdict fl a t now line alert))
  | commit (t : Tid) (line : Nat) (alert : Alert) (prev : GoString) (history : HistoryStore)
      (row : HistoryEvent) (hget : st.threads[t]? = some (.conn (.accepted line alert prev)))
      (hobject : row.localName = alert.object) (hprev : row.prevStatus = prev)
      (hnew : row.newStatus = alert.status) :
      Step fl name st
        (({ st with history := history }.note (.committed line t row)).goto t (.written line alert))
  | fail (t : Tid) (line : Nat) (alert : Alert) (prev message : GoString) (history : HistoryStore)
      (hget : st.threads[t]? = some (.conn (.accepted line alert prev))) :
      Step fl name st ({ st with history := history }.goto t (.refusing line message))
  | settle (t : Tid) (line : Nat) (alert : Alert)
      (hget : st.threads[t]? = some (.conn (.written line alert))) :
      Step fl name st ({ st with record := st.record.map (noteAlert alert) }.goto t (.done line))
  | answer (t : Tid) (line : Nat) (stage : ConnStage) (reply : Reply)
      (hget : st.threads[t]? = some (.conn stage)) (hanswers : Answers line stage reply) :
      Step fl name st (({ st with accept := none }.goto t .reading).note (.answered line reply))
  | cut (t : Tid) (hget : st.threads[t]? = some (.cut .holding)) :
      Step fl name st ({ st with record := st.record.map cutOff }.advance t .cut)
  | release (t : Tid) (hget : st.threads[t]? = some (.cut .cut)) :
      Step fl name st ({ st with accept := none }.advance t .leaving)
  | giveBack (t : Tid) (hget : st.threads[t]? = some (.cut .leaving)) :
      Step fl name st ((st.advance t .returned).note (.returned t))
  | leave (t : Tid) (hget : st.threads[t]? = some (.conn .reading)) : Step fl name st (st.leave t)
  | skip (t : Tid) (text : GoString) (truncated : Bool)
      (hget : st.threads[t]? = some (.conn .reading)) :
      Step fl name st ({ st with lines := st.lines + 1 }.note (.read st.lines t text truncated))
  | reply (t : Tid) (text : GoString) (truncated : Bool) (reply : Reply)
      (hget : st.threads[t]? = some (.conn .reading)) (hok : reply ≠ .ok)
      (halert : isAlertLine text truncated = true → reply.code = 444) :
      Step fl name st
        (({ st with lines := st.lines + 1 }.note (.read st.lines t text truncated)).note
          (.answered st.lines reply))
  | quit (t : Tid) (text : GoString) (truncated : Bool) (reply : Reply)
      (hget : st.threads[t]? = some (.conn .reading)) (hok : reply ≠ .ok)
      (halert : isAlertLine text truncated = true → reply.code = 444) :
      Step fl name st
        ((({ st with lines := st.lines + 1 }.note (.read st.lines t text truncated)).note
          (.answered st.lines reply)).leave t)
  | parse (t : Tid) (text : GoString) (truncated : Bool) (alert : Alert)
      (hget : st.threads[t]? = some (.conn .reading)) :
      Step fl name st
        (({ st with lines := st.lines + 1 }.note (.read st.lines t text truncated)).goto t
          (.parsed st.lines alert))

variable {fl : Floats R} {name : GoString} {st st' : State R} {t : Tid}

/-- A single row is committed with what it says, or it is an error. -/
theorem append_single (seconds : Instant → Instant → Int) (h : HistoryStore) (ev : HistoryEvent) (now : Instant)
    (commits prunes : Bool) : (append seconds h [ev] now commits prunes).2 = none ∨
      ∃ row, (append seconds h [ev] now commits prunes).2 = some [row] ∧ row.localName = ev.localName ∧
        row.prevStatus = ev.prevStatus ∧ row.newStatus = ev.newStatus := by
  cases commits with
  | false => exact Or.inl rfl
  | true => exact Or.inr ⟨_, rfl, rfl, rfl, rfl⟩

/-- What is not an alert to be accepted is answered at once, and with 444 if it is an alert line. -/
theorem readLine_reply {text : GoString} {truncated hist : Bool} {reply : Reply}
    (h : readLine name text truncated hist = .reply reply) :
    reply ≠ .ok ∧ (isAlertLine text truncated = true → reply.code = 444) := by
  have hping : ascii "ALERT" ≠ ascii "PING" := by decide
  have hquit : ascii "ALERT" ≠ ascii "QUIT" := by decide
  rw [readLine] at h
  split at h
  next =>
    obtain rfl := Reading.reply.inj h
    exact ⟨by simp, fun _ => rfl⟩
  next htruncated =>
    have hverb : isAlertLine text truncated = true → lineVerb (trimSpace text) = ascii "ALERT" := by
      simp [isAlertLine, htruncated]
    dsimp only at h
    split at h
    · exact absurd h (by simp)
    · split at h
      next hping' =>
        obtain rfl := Reading.reply.inj h
        exact ⟨by simp, fun halert => absurd ((hverb halert).symm.trans hping') hping⟩
      · split at h
        next hquit' =>
          obtain rfl := Reading.reply.inj h
          exact ⟨by simp, fun halert => absurd ((hverb halert).symm.trans hquit') hquit⟩
        · split at h
          · split at h
            · obtain rfl := Reading.reply.inj h
              exact ⟨by simp, fun _ => rfl⟩
            · split at h
              · exact absurd h (by simp)
              · obtain rfl := Reading.reply.inj h
                exact ⟨by simp, fun _ => rfl⟩
          · obtain rfl := Reading.reply.inj h
            exact ⟨by simp, fun _ => rfl⟩

theorem step_receive {text : GoString} {truncated hist : Bool}
    (hget : st.threads[t]? = some (.conn .reading)) :
    Step fl name st (st.receive name t text truncated hist) := by
  simp only [State.receive]
  split
  next => exact .skip t text truncated hget
  next hreply =>
    obtain ⟨hok, halert⟩ := readLine_reply hreply
    exact .quit t text truncated .bye hget hok halert
  next reply _ hreply =>
    obtain ⟨hok, halert⟩ := readLine_reply hreply
    exact .reply t text truncated reply hget hok halert
  next alert _ => exact .parse t text truncated alert hget

theorem step_conn {stage : ConnStage} (hget : st.threads[t]? = some (.conn stage)) (now : Instant)
    (works prunes : Bool) : Step fl name st (connStep fl name st t stage now works prunes) := by
  cases stage with
  | greeted =>
      simp only [connStep]
      split
      · exact .move t _ _ (some t) hget .check
      · exact .history st.history
  | checking =>
      simp only [connStep]
      split
      · split
        next hrecord => exact .create t now hget hrecord
        next => exact .move t _ _ st.registry hget .wait
      · exact .move t _ _ none hget .refuse
  | waiting =>
      simp only [connStep]
      split
      next hfree => exact .take t _ _ hget hfree .swap
      next => exact .history st.history
  | swapping => exact .swap t hget
  | swapped => exact .free t hget
  | parsed line alert =>
      simp only [connStep]
      split
      next hfree => exact .take t _ _ hget hfree (.accept line alert)
      next => exact .history st.history
  | holding line alert =>
      simp only [connStep]
      split
      next a hrecord => exact .inspect t line alert now a hget hrecord
      next => exact .history st.history
  | accepted line alert prev =>
      simp only [connStep]
      split
      next history rows happend =>
        obtain hnone | ⟨row, hrow, hobject, hprev, hnew⟩ :=
          append_single fl.seconds st.history (rowFor name alert prev) now works prunes
        · rw [happend] at hnone
          exact absurd hnone (by simp)
        · rw [happend] at hrow
          obtain rfl := Option.some.inj hrow
          exact .commit t line alert prev history row hget hobject hprev hnew
      next history happend => exact .fail t line alert prev _ history hget
  | written line alert => exact .settle t line alert hget
  | done line => exact .answer t line _ .ok hget .ok
  | refusing line message => exact .answer t line _ (.refused message) hget (.refused message)
  | reading => exact .history st.history
  | gone => exact .history st.history

theorem step_cut {stage : CutStage} (hget : st.threads[t]? = some (.cut stage)) :
    Step fl name st (cutStep st t stage) := by
  cases stage with
  | called =>
      simp only [cutStep]
      split
      · cases hrecord : st.record with
        | none => exact .move t _ _ st.registry hget (.miss hrecord)
        | some a => exact .move t _ _ st.registry hget .find
      · exact .history st.history
  | waiting =>
      simp only [cutStep]
      split
      next hfree => exact .take t _ _ hget hfree .cut
      next => exact .history st.history
  | holding => exact .cut t hget
  | cut => exact .release t hget
  | leaving => exact .giveBack t hget
  | returned => exact .history st.history

theorem step_step (st : State R) (e : Event) : Step fl name st (st.step fl name e) := by
  cases e with
  | greet => exact .greet
  | disconnect => exact .call
  | line t text truncated hist =>
      simp only [State.step]
      split
      next hget => exact step_receive hget
      next => exact .history st.history
  | run t now works prunes =>
      simp only [State.step]
      split
      next stage hget => exact step_conn hget now works prunes
      next stage hget => exact step_cut hget
      next => exact .history st.history
  | lost t =>
      simp only [State.step]
      split
      next hget => exact .leave t hget
      next => exact .history st.history
  | observe events now commits prunes => exact .history _
  | pruneNow now commits => exact .history _

end Sysmon.Alerts
