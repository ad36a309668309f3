import Mathlib.Data.List.OfFn
import Sysmon.Push.Watch

/-!
# Subscriptions

The devices that get pushes are rows under their tokens. The app subscribes its token again and again, an
account may take a device over from another, and the outcome of every push is written to the row; a token that the
transport has called dead is left out of the next fan-outs. A fan-out takes its list of rows first and sends
then, so that all this may happen while one is under way. One event is one transaction or one send.
-/

namespace Sysmon.Push.Subscriptions

open Agents (GoString)
open Fleet (ascii)

/-! ### Rows -/

structure Subscription where
  deviceToken : GoString
  platform : GoString
  label : GoString
  apiKey : GoString
  owner : GoString
  createdAt : GoString
  lastSeen : GoString
  lastPushAt : GoString
  lastPushStatus : GoString
  pushCount : Nat
  failCount : Nat
  /-- The transport has said that there is no such token any more. -/
  unregistered : Bool
  unregisteredAt : GoString
  ipAddress : GoString
  userAgent : GoString
  deriving DecidableEq, Repr

abbrev Bucket := AList fun _ : GoString => Subscription

def platformIOS : GoString := ascii "ios"

def platformAndroid : GoString := ascii "android"

/-- `generateAPIKey`, of 16 random bytes. -/
def generateAPIKey (random : Fin 16 → UInt8) : GoString :=
  let digit (value : UInt8) : UInt8 := if value < 10 then 48 + value else 87 + value
  (List.ofFn random).flatMap fun b => [digit (b / 16), digit (b % 16)]

/-- The row that a subscription starts from. -/
def Subscription.empty : Subscription :=
  ⟨[], [], [], [], [], [], [], [], [], 0, 0, false, [], [], []⟩

/-- The row that `Subscribe` stores, over the one that is there. -/
def subscribed (existing : Option Subscription) (token platform label owner ipAddr userAgent now key : GoString) :
    Subscription :=
  let sub := existing.getD .empty
  let ownerChanged := sub.owner ≠ [] ∧ sub.owner ≠ owner
  { sub with
    deviceToken := token
    platform := platform
    label := label
    apiKey := if sub.apiKey ≠ [] ∧ ¬ownerChanged then sub.apiKey else key
    owner := owner
    createdAt := if sub.createdAt = [] then now else sub.createdAt
    lastSeen := now
    ipAddress := ipAddr
    userAgent := userAgent }

/-- The row that `TouchLastSeen` stores. -/
def touched (sub : Subscription) (ipAddr now : GoString) : Subscription :=
  { sub with lastSeen := now, ipAddress := if ipAddr ≠ [] then ipAddr else sub.ipAddress }

/-! ### Sending -/

inductive SendError where
  | fcm (reason : GoString)
  | apns (reason : GoString)
  | keyRejected
  | other
  deriving DecidableEq, Repr

def isUnregistered : SendError → Bool
  | .fcm reason => reason = ascii "UNREGISTERED"
  | .apns reason => reason = ascii "Unregistered"
  | _ => false

/-- `strings.ToLower`, of ASCII. -/
def toLower (s : GoString) : GoString := s.map fun c => if 65 ≤ c && c ≤ 90 then c + 32 else c

def pushFailStatus : SendError → GoString
  | .fcm reason =>
      if reason = ascii "UNREGISTERED" then ascii "failed: token dead"
      else if reason = ascii "SENDER_ID_MISMATCH" then ascii "failed: project mismatch"
      else if reason ≠ [] then ascii "failed: " ++ toLower reason
      else ascii "failed"
  | .apns reason =>
      if reason = ascii "Unregistered" then ascii "failed: token dead"
      else if reason = ascii "BadDeviceToken" then ascii "failed: bad device token (env mismatch?)"
      else if reason ≠ [] then ascii "failed: " ++ toLower reason
      else ascii "failed"
  | .keyRejected => ascii "failed: key rejected"
  | .other => ascii "failed"

/-- What is recorded of a send. -/
structure Outcome where
  success : Bool
  status : GoString
  unregistered : Bool
  deriving DecidableEq, Repr

def outcome : Option SendError → Outcome
  | none => ⟨true, ascii "ok", false⟩
  | some err => ⟨false, pushFailStatus err, isUnregistered err⟩

/-- The row that `RecordPush` stores. -/
def recorded (sub : Subscription) (o : Outcome) (now : GoString) : Subscription :=
  if o.success then
    { sub with
      lastPushAt := now, pushCount := sub.pushCount + 1, unregistered := false, unregisteredAt := []
      lastPushStatus := o.status }
  else
    { sub with
      lastPushAt := now, failCount := sub.failCount + 1
      unregistered := sub.unregistered || o.unregistered
      unregisteredAt := if o.unregistered && !sub.unregistered then now else sub.unregisteredAt
      lastPushStatus := o.status }

inductive Transport where
  | fcm
  | apns
  deriving DecidableEq, Repr

/-- The clients that are configured. -/
structure Clients where
  fcm : Bool
  apns : Bool
  deriving DecidableEq, Repr

def looksLikeAPNsToken (token : GoString) : Bool :=
  32 ≤ token.length && token.length % 2 = 0 &&
    token.all fun c => (48 ≤ c && c ≤ 57) || (97 ≤ c && c ≤ 102) || (65 ≤ c && c ≤ 70)

/-- The transport for a token, if there is one. -/
def route (clients : Clients) (platform token : GoString) : Option Transport :=
  if platform = platformIOS then
    if clients.apns && (!clients.fcm || looksLikeAPNsToken token) then some .apns
    else if clients.fcm then some .fcm
    else none
  else if platform = platformAndroid then if clients.fcm then some .fcm else none
  else none

/-! ### The service -/

/-- What has been done. -/
inductive Mark where
  /-- The owner has been given the key, and has been told whether the token is dead. -/
  | subscribed (token owner apiKey : GoString) (tokenDead : Bool)
  | removed (token : GoString)
  | recorded (token : GoString) (o : Outcome)
  /-- A fan-out has sent an alert; what had been done when it took its list. -/
  | alerted (token : GoString) (transport : Transport) (before : List Mark)

/-- A `notifyAll` under way. -/
structure FanOut where
  clients : Clients
  /-- The rows it has still to send to. -/
  rest : List Subscription
  sent : Nat
  /-- What had been done when it took its list. -/
  before : List Mark

inductive Call where
  | sending (f : FanOut)
  /-- The outcome of a send is about to be recorded, and perhaps a fan-out goes on then. -/
  | recording (token : GoString) (o : Outcome) (next : Option FanOut)
  | done

/-- Where a call is when the outcome is recorded. -/
def Call.after : Option FanOut → Call
  | none => .done
  | some f => .sending f

structure State where
  db : Bucket
  clients : Clients
  stopped : Bool
  calls : List Call
  /-- The newest first. -/
  log : List Mark

inductive Event where
  | subscribe (token platform label owner ipAddr userAgent now : GoString) (random : Fin 16 → UInt8) (ok : Bool)
  | touchLastSeen (token ipAddr now : GoString) (ok : Bool)
  /-- `Unsubscribe` or `AdminRemove`. -/
  | remove (token : GoString) (ok : Bool)
  | notifyAll
  /-- A fan-out comes to its next row, and this is what a send would end with. -/
  | send (t : Nat) (err : Option SendError)
  /-- `SendTest`, up to its record. -/
  | sendTest (token platform : GoString) (err : Option SendError)
  | recordPush (t : Nat) (now : GoString) (ok : Bool)
  | reconfigure (clients : Clients)
  | stop

namespace State

/-- A transaction that changes a row that is there. -/
def update (st : State) (token : GoString) (ok : Bool) (change : Subscription → Subscription) (mark : List Mark) :
    State :=
  match if st.stopped || !ok then none else st.db.lookup token with
  | none => st
  | some sub => { st with db := st.db.insert token (change sub), log := mark ++ st.log }

def subscribe (st : State) (token platform label owner ipAddr userAgent now : GoString) (random : Fin 16 → UInt8)
    (ok : Bool) : State :=
  if st.stopped || !ok || (platform ≠ platformIOS && platform ≠ platformAndroid) || token = [] then st
  else
    let existing := st.db.lookup token
    let sub := subscribed existing token platform label owner ipAddr userAgent now (generateAPIKey random)
    { st with
      db := st.db.insert token sub
      log := .subscribed token owner sub.apiKey ((existing.map Subscription.unregistered).getD false) :: st.log }

def remove (st : State) (token : GoString) (ok : Bool) : State :=
  match if st.stopped || !ok then none else st.db.lookup token with
  | none => st
  | some _ => { st with db := st.db.erase token, log := .removed token :: st.log }

/-- `ListSubscriptions`. -/
def listSubscriptions (st : State) : List Subscription :=
  if st.stopped then [] else st.db.entries.map fun row => row.2

/-- A fan-out comes to its next row. -/
def send (st : State) (t : Nat) (f : FanOut) (err : Option SendError) : State :=
  match f.rest with
  | [] => st
  | sub :: rest =>
      match if sub.unregistered then none else route f.clients sub.platform sub.deviceToken with
      | none => { st with calls := st.calls.set t (.sending { f with rest := rest }) }
      | some transport =>
          let sent := if err.isNone then f.sent + 1 else f.sent
          { st with
            calls := st.calls.set t (.recording sub.deviceToken (outcome err) (some { f with rest, sent }))
            log := .alerted sub.deviceToken transport f.before :: st.log }

def sendTest (st : State) (token platform : GoString) (err : Option SendError) : State :=
  if st.stopped then st
  else
    let err := if (route st.clients platform token).isNone then some .other else err
    let o := outcome err
    { st with calls := st.calls ++ [.recording token { o with status := o.status ++ ascii " (test)" } none] }

def step (st : State) : Event → State
  | .subscribe token platform label owner ipAddr userAgent now random ok =>
      st.subscribe token platform label owner ipAddr userAgent now random ok
  | .touchLastSeen token ipAddr now ok => st.update token ok (touched · ipAddr now) []
  | .remove token ok => st.remove token ok
  | .notifyAll => { st with calls := st.calls ++ [.sending ⟨st.clients, st.listSubscriptions, 0, st.log⟩] }
  | .send t err =>
      match st.calls[t]? with
      | some (.sending f) => st.send t f err
      | _ => st
  | .sendTest token platform err => st.sendTest token platform err
  | .recordPush t now ok =>
      match st.calls[t]? with
      | some (.recording token o next) =>
          { st.update token ok (recorded · o now) [.recorded token o] with calls := st.calls.set t (.after next) }
      | _ => st
  | .reconfigure clients => { st with clients := clients }
  | .stop => { st with stopped := true }

end State

/-- A service with an empty database. -/
def State.start (clients : Clients) : State := ⟨∅, clients, false, [], []⟩

/-! ### Dead tokens -/

variable {st : State} {token : GoString} {sub : Subscription} {log : List Mark} {f : FanOut}

/-- Since the row was made, or since a send to it has succeeded, a transport has called the token dead. -/
def deadIn (token : GoString) : List Mark → Bool
  | [] => false
  | .recorded other o :: log =>
      if other = token then !o.success && (o.unregistered || deadIn token log) else deadIn token log
  | .removed other :: log => other ≠ token && deadIn token log
  | .subscribed _ _ _ _ :: log | .alerted _ _ _ :: log => deadIn token log

/-- What a call knows of the rows it has still to send to. -/
def Call.Sound (log : List Mark) : Call → Prop
  | .sending f | .recording _ _ (some f) =>
      f.before <:+ log ∧ ∀ sub ∈ f.rest, sub.unregistered = deadIn sub.deviceToken f.before
  | .recording _ _ none | .done => True

/-- The flag of a row is what the log says of the token, and a fan-out goes by the log it began with. -/
structure Sound (st : State) : Prop where
  key : ∀ token sub, st.db.lookup token = some sub → sub.deviceToken = token
  flag : ∀ token, deadIn token st.log = ((st.db.lookup token).map Subscription.unregistered).getD false
  calls : ∀ call ∈ st.calls, call.Sound st.log
  alerted : ∀ token transport before, .alerted token transport before ∈ st.log →
    before <:+ st.log ∧ deadIn token before = false

theorem Call.Sound.mono {call : Call} {log' : List Mark} (h : call.Sound log) (hsuffix : log <:+ log') :
    call.Sound log' := by
  cases call with
  | sending f => exact ⟨h.1.trans hsuffix, h.2⟩
  | recording token o next =>
      cases next with
      | none => trivial
      | some f => exact ⟨h.1.trans hsuffix, h.2⟩
  | done => trivial

theorem Call.Sound.after {o : Outcome} {next : Option FanOut} (h : Call.Sound log (.recording token o next)) :
    (Call.after next).Sound log := by
  cases next with
  | none => trivial
  | some f => exact h

/-- A call of the list is another one, that knows what it has to know. -/
theorem Sound.setCall (h : Sound st) {t : Nat} {call : Call} (hcall : call.Sound st.log) :
    Sound { st with calls := st.calls.set t call } := by
  refine ⟨h.key, h.flag, fun call' hcall' => ?_, h.alerted⟩
  obtain ⟨i, hi⟩ := List.mem_iff_getElem?.mp hcall'
  obtain ⟨-, rfl⟩ | ⟨-, hold⟩ := Run.getElem?_of_set hi
  · exact hcall
  · exact h.calls call' (List.mem_of_getElem? hold)

theorem Sound.addCall (h : Sound st) {call : Call} (hcall : call.Sound st.log) :
    Sound { st with calls := st.calls ++ [call] } := by
  refine ⟨h.key, h.flag, fun call' hcall' => ?_, h.alerted⟩
  rcases List.mem_append.mp hcall' with hold | hnew
  · exact h.calls call' hold
  · rw [List.mem_singleton.mp hnew]
    exact hcall

/-- A mark, and what it says of the row it is about. -/
theorem Sound.mark (h : Sound st) {mark : Mark} {db : Bucket}
    (hkey : ∀ token sub, db.lookup token = some sub → sub.deviceToken = token)
    (hflag : ∀ token, deadIn token (mark :: st.log) = ((db.lookup token).map Subscription.unregistered).getD false)
    (halerted : ∀ token transport before, mark = .alerted token transport before →
      before <:+ st.log ∧ deadIn token before = false) :
    Sound { st with db := db, log := mark :: st.log } := by
  have hsuffix : st.log <:+ mark :: st.log := List.suffix_cons _ _
  refine ⟨hkey, hflag, fun call hcall => (h.calls call hcall).mono hsuffix, fun token transport before hmem => ?_⟩
  rcases List.mem_cons.mp hmem with hnew | hold
  · obtain ⟨hbefore, hdead⟩ := halerted token transport before hnew.symm
    exact ⟨hbefore.trans hsuffix, hdead⟩
  · obtain ⟨hbefore, hdead⟩ := h.alerted token transport before hold
    exact ⟨hbefore.trans hsuffix, hdead⟩

theorem Sound.subscribe (h : Sound st) (token platform label owner ipAddr userAgent now : GoString)
    (random : Fin 16 → UInt8) (ok : Bool) :
    Sound (st.subscribe token platform label owner ipAddr userAgent now random ok) := by
  rw [State.subscribe]
  split
  · exact h
  · refine h.mark (fun other sub hother => ?_) (fun other => ?_) fun _ _ _ hmark => by cases hmark
    · by_cases hsame : other = token
      · subst hsame
        rw [AList.lookup_insert] at hother
        rw [← Option.some.inj hother]
        rfl
      · rw [AList.lookup_insert_ne hsame] at hother
        exact h.key other sub hother
    · rw [deadIn]
      by_cases hsame : other = token
      · subst hsame
        rw [AList.lookup_insert, h.flag]
        cases st.db.lookup other <;> rfl
      · rw [AList.lookup_insert_ne hsame, h.flag]

theorem Sound.remove (h : Sound st) (token : GoString) (ok : Bool) : Sound (st.remove token ok) := by
  rw [State.remove]
  split
  · exact h
  · refine h.mark (fun other sub hother => ?_) (fun other => ?_) fun _ _ _ hmark => by cases hmark
    · by_cases hsame : other = token
      · subst hsame
        rw [AList.lookup_erase] at hother
        cases hother
      · rw [AList.lookup_erase_ne hsame] at hother
        exact h.key other sub hother
    · rw [deadIn]
      by_cases hsame : other = token
      · subst hsame
        rw [AList.lookup_erase]
        simp
      · rw [AList.lookup_erase_ne hsame, h.flag]
        simp [Ne.symm hsame]

theorem lookup_of_update {stopped ok : Bool} {existing : Option Subscription}
    (h : (if stopped || !ok then none else existing) = some sub) : existing = some sub := by
  split at h
  · cases h
  · exact h

theorem Sound.touch (h : Sound st) (token ipAddr now : GoString) (ok : Bool) :
    Sound (st.update token ok (touched · ipAddr now) []) := by
  rw [State.update]
  split
  · exact h
  · rename_i sub hsub
    have hlookup := lookup_of_update hsub
    refine ⟨fun other sub' hother => ?_, fun other => ?_, h.calls, h.alerted⟩
    · by_cases hsame : other = token
      · subst hsame
        rw [AList.lookup_insert] at hother
        rw [← Option.some.inj hother]
        exact h.key other sub hlookup
      · rw [AList.lookup_insert_ne hsame] at hother
        exact h.key other sub' hother
    · change deadIn other st.log = _
      by_cases hsame : other = token
      · subst hsame
        rw [AList.lookup_insert, h.flag, hlookup]
        rfl
      · rw [AList.lookup_insert_ne hsame, h.flag]

theorem recorded_unregistered (sub : Subscription) (o : Outcome) (now : GoString) :
    (recorded sub o now).unregistered = (!o.success && (o.unregistered || sub.unregistered)) := by
  rw [recorded]
  cases o.success with
  | true => rfl
  | false => exact Bool.or_comm _ _

theorem recorded_deviceToken (sub : Subscription) (o : Outcome) (now : GoString) :
    (recorded sub o now).deviceToken = sub.deviceToken := by
  rw [recorded]
  split <;> rfl

theorem Sound.recordPush (h : Sound st) (token : GoString) (o : Outcome) (now : GoString) (ok : Bool) :
    Sound (st.update token ok (recorded · o now) [.recorded token o]) := by
  rw [State.update]
  split
  · exact h
  · rename_i sub hsub
    have hlookup := lookup_of_update hsub
    refine h.mark (fun other sub' hother => ?_) (fun other => ?_) fun _ _ _ hmark => by cases hmark
    · by_cases hsame : other = token
      · subst hsame
        rw [AList.lookup_insert] at hother
        rw [← Option.some.inj hother, recorded_deviceToken]
        exact h.key other sub hlookup
      · rw [AList.lookup_insert_ne hsame] at hother
        exact h.key other sub' hother
    · rw [deadIn]
      by_cases hsame : other = token
      · subst hsame
        rw [if_pos rfl, AList.lookup_insert, h.flag, hlookup]
        exact (recorded_unregistered sub o now).symm
      · rw [if_neg (Ne.symm hsame), AList.lookup_insert_ne hsame, h.flag]

theorem log_suffix_update (st : State) (token : GoString) (ok : Bool) (change : Subscription → Subscription)
    (marks : List Mark) : st.log <:+ (st.update token ok change marks).log := by
  rw [State.update]
  split
  · exact List.suffix_refl _
  · exact List.suffix_append _ _

theorem Sound.send (h : Sound st) {t : Nat} (hcall : Call.Sound st.log (.sending f)) (err : Option SendError) :
    Sound (st.send t f err) := by
  obtain ⟨hbefore, hrest⟩ := hcall
  rw [State.send]
  split
  · exact h
  · rename_i sub rest hf
    have htail : ∀ sub' ∈ rest, sub'.unregistered = deadIn sub'.deviceToken f.before :=
      fun sub' hsub' => hrest sub' (hf ▸ List.mem_cons_of_mem _ hsub')
    split
    · exact h.setCall ⟨hbefore, htail⟩
    · rename_i transport hroute
      have halive : sub.unregistered = false := by
        cases hflag : sub.unregistered with
        | false => rfl
        | true =>
            rw [hflag] at hroute
            cases hroute
      have hdead : deadIn sub.deviceToken f.before = false :=
        (hrest sub (hf ▸ List.mem_cons_self)).symm.trans halive
      have hmarked := @Sound.mark _ h (.alerted sub.deviceToken transport f.before) _ h.key h.flag
        fun token' transport' before hmark => by
          cases hmark
          exact ⟨hbefore, hdead⟩
      exact hmarked.setCall ⟨hbefore.trans (List.suffix_cons _ _), htail⟩

theorem Sound.step (h : Sound st) (event : Event) : Sound (st.step event) := by
  cases event with
  | subscribe token platform label owner ipAddr userAgent now random ok =>
      exact h.subscribe token platform label owner ipAddr userAgent now random ok
  | touchLastSeen token ipAddr now ok => exact h.touch token ipAddr now ok
  | remove token ok => exact h.remove token ok
  | notifyAll =>
      refine h.addCall ⟨List.suffix_refl _, fun sub hsub => ?_⟩
      simp only [State.listSubscriptions] at hsub
      split at hsub
      · exact absurd hsub List.not_mem_nil
      · obtain ⟨row, hrow, rfl⟩ := List.mem_map.mp hsub
        have hlookup : st.db.lookup row.1 = some row.2 := GoMap.mem_entries_iff.mp hrow
        rw [h.key row.1 row.2 hlookup, h.flag, hlookup]
        rfl
  | send t err =>
      rw [State.step]
      split
      · rename_i f hget
        exact h.send (h.calls _ (List.mem_of_getElem? hget)) err
      · exact h
  | sendTest token platform err =>
      rw [State.step, State.sendTest]
      split
      · exact h
      · exact h.addCall trivial
  | recordPush t now ok =>
      rw [State.step]
      split
      · rename_i token o next hget
        have hcall := h.calls _ (List.mem_of_getElem? hget)
        have hcalls : (st.update token ok (recorded · o now) [.recorded token o]).calls = st.calls := by
          rw [State.update]
          split <;> rfl
        rw [← hcalls]
        exact (h.recordPush token o now ok).setCall (hcall.after.mono (log_suffix_update _ _ _ _ _))
      · exact h
  | reconfigure clients => exact ⟨h.key, h.flag, h.calls, h.alerted⟩
  | stop => exact ⟨h.key, h.flag, h.calls, h.alerted⟩

theorem sound_start (clients : Clients) : Sound (.start clients) := by
  refine ⟨fun token sub hsub => ?_, fun token => rfl, fun call hcall => ?_, fun token transport before hmem => ?_⟩
  · cases hsub
  · cases hcall
  · cases hmem

/-- No alert goes to a token that had been called dead when its fan-out began, unless a later send to it had
succeeded; and the flag of a row says at each moment whether it is dead. -/
theorem alerted_run (clients : Clients) (es : List Event) :
    Run.Always State.step (fun st =>
      (∀ token transport before, .alerted token transport before ∈ st.log →
          before <:+ st.log ∧ deadIn token before = false) ∧
        ∀ token sub, st.db.lookup token = some sub → sub.unregistered = deadIn token st.log) (.start clients) es := by
  have hsound := @Run.always_of_guarded _ _ State.step Sound (fun _ _ => True) (.start clients) es
    (fun _ event h _ => h.step event) (sound_start clients) fun _ _ _ => trivial
  intro pre hpre
  have h := hsound pre hpre
  refine ⟨h.alerted, fun token sub hsub => ?_⟩
  rw [h.flag, hsub]
  rfl

/-! ### Keys -/

variable {keys : List GoString}

theorem generateAPIKey_ne_nil (random : Fin 16 → UInt8) : generateAPIKey random ≠ [] := by
  rw [generateAPIKey, List.ofFn_succ, List.flatMap_cons]
  exact List.cons_ne_nil _ _

/-- The key that is drawn for a subscription, whether it takes it or not. -/
def Event.draws : Event → List GoString
  | .subscribe _ _ _ _ _ _ _ random _ => [generateAPIKey random]
  | _ => []

/-- A key is given to one owner with a name, for one token. -/
def KeysApart (log : List Mark) : Prop :=
  ∀ token token' owner owner' key dead dead', .subscribed token owner key dead ∈ log →
    .subscribed token' owner' key dead' ∈ log → token = token' ∧ (owner = owner' ∨ owner = [] ∨ owner' = [])

/-- Nobody else has been given the key of the row, but who subscribed without a name. -/
def Subscription.KeyOwn (log : List Mark) (token : GoString) (sub : Subscription) : Prop :=
  ∀ token' owner dead, .subscribed token' owner sub.apiKey dead ∈ log →
    token' = token ∧ (owner = sub.owner ∨ owner = [])

structure KeysSound (keys : List GoString) (st : State) : Prop where
  drawn : ∀ token owner key dead, .subscribed token owner key dead ∈ st.log → key ∈ keys
  rows : ∀ token sub, st.db.lookup token = some sub → sub.apiKey ≠ [] ∧ sub.apiKey ∈ keys ∧
    (∃ owner dead, .subscribed token owner sub.apiKey dead ∈ st.log) ∧ sub.KeyOwn st.log token
  apart : KeysApart st.log

/-- Marks of other kinds, and rows whose keys and owners are those of before. -/
theorem KeysSound.keep (h : KeysSound keys st) {st' : State}
    (hlog : ∀ token owner key dead,
      .subscribed token owner key dead ∈ st'.log ↔ .subscribed token owner key dead ∈ st.log)
    (hrows : ∀ token sub, st'.db.lookup token = some sub →
      ∃ old, st.db.lookup token = some old ∧ sub.apiKey = old.apiKey ∧ sub.owner = old.owner) :
    KeysSound keys st' := by
  refine ⟨fun token owner key dead hmem => h.drawn token owner key dead ((hlog _ _ _ _).mp hmem),
    fun token sub hsub => ?_, fun token token' owner owner' key dead dead' hmem hmem' => ?_⟩
  · obtain ⟨old, hold, hkey, howner⟩ := hrows token sub hsub
    obtain ⟨hne, hdrawn, ⟨owner, dead, hgiven⟩, hown⟩ := h.rows token old hold
    rw [hkey]
    refine ⟨hne, hdrawn, ⟨owner, dead, (hlog _ _ _ _).mpr hgiven⟩, fun token' owner' dead' hmem => ?_⟩
    rw [hkey] at hmem
    rw [howner]
    exact hown token' owner' dead' ((hlog _ _ _ _).mp hmem)
  · exact h.apart token token' owner owner' key dead dead' ((hlog _ _ _ _).mp hmem) ((hlog _ _ _ _).mp hmem')

theorem KeysSound.update (h : KeysSound keys st) (token : GoString) (ok : Bool)
    {change : Subscription → Subscription} {marks : List Mark}
    (hchange : ∀ sub, (change sub).apiKey = sub.apiKey ∧ (change sub).owner = sub.owner)
    (hmarks : ∀ token owner key dead, .subscribed token owner key dead ∉ marks) :
    KeysSound keys (st.update token ok change marks) := by
  rw [State.update]
  split
  · exact h
  · rename_i sub hsub
    have hlookup := lookup_of_update hsub
    refine h.keep (fun token owner key dead => ?_) fun other sub' hother => ?_
    · rw [List.mem_append]
      exact or_iff_right (hmarks token owner key dead)
    · by_cases hsame : other = token
      · subst hsame
        rw [AList.lookup_insert] at hother
        rw [← Option.some.inj hother]
        exact ⟨sub, hlookup, hchange sub⟩
      · rw [AList.lookup_insert_ne hsame] at hother
        exact ⟨sub', hother, rfl, rfl⟩

/-- A row is stored with a key that is good for it, and the owner is given the key. -/
theorem KeysSound.give (h : KeysSound keys st) {token owner : GoString} {sub : Subscription} {dead : Bool}
    (hne : sub.apiKey ≠ []) (hdrawn : sub.apiKey ∈ keys) (howner : sub.owner = owner)
    (hown : sub.KeyOwn st.log token)
    (hrows : ∀ other old, other ≠ token → st.db.lookup other = some old → old.apiKey ≠ sub.apiKey) :
    KeysSound keys { st with
      db := st.db.insert token sub, log := .subscribed token owner sub.apiKey dead :: st.log } := by
  have hnew : sub.KeyOwn (.subscribed token owner sub.apiKey dead :: st.log) token := by
    intro token' owner' dead' hmem
    rcases List.mem_cons.mp hmem with hmark | hold
    · obtain ⟨rfl, rfl, -, -⟩ := Mark.subscribed.inj hmark
      exact ⟨rfl, Or.inl howner.symm⟩
    · exact hown token' owner' dead' hold
  refine ⟨fun token' owner' key dead' hmem => ?_, fun other old hother => ?_,
    fun token₁ token₂ owner₁ owner₂ key dead₁ dead₂ hmem₁ hmem₂ => ?_⟩
  · rcases List.mem_cons.mp hmem with hmark | hold
    · obtain ⟨-, -, rfl, -⟩ := Mark.subscribed.inj hmark
      exact hdrawn
    · exact h.drawn token' owner' key dead' hold
  · by_cases hsame : other = token
    · subst hsame
      rw [AList.lookup_insert] at hother
      obtain rfl := Option.some.inj hother
      exact ⟨hne, hdrawn, ⟨owner, dead, List.mem_cons_self⟩, hnew⟩
    · rw [AList.lookup_insert_ne hsame] at hother
      obtain ⟨hne', hdrawn', ⟨owner', dead', hgiven⟩, hown'⟩ := h.rows other old hother
      refine ⟨hne', hdrawn', ⟨owner', dead', List.mem_cons_of_mem _ hgiven⟩, fun token' owner'' dead'' hmem => ?_⟩
      rcases List.mem_cons.mp hmem with hmark | hold
      · exact absurd (Mark.subscribed.inj hmark).2.2.1 (hrows other old hsame hother)
      · exact hown' token' owner'' dead'' hold
  · rcases List.mem_cons.mp hmem₁ with hmark₁ | hold₁ <;> rcases List.mem_cons.mp hmem₂ with hmark₂ | hold₂
    · obtain ⟨rfl, rfl, -, -⟩ := Mark.subscribed.inj hmark₁
      obtain ⟨rfl, rfl, -, -⟩ := Mark.subscribed.inj hmark₂
      exact ⟨rfl, Or.inl rfl⟩
    · obtain ⟨rfl, rfl, rfl, -⟩ := Mark.subscribed.inj hmark₁
      obtain ⟨rfl, hsame | hnobody⟩ := hown token₂ owner₂ dead₂ hold₂
      · exact ⟨rfl, Or.inl (hsame.trans howner).symm⟩
      · exact ⟨rfl, Or.inr (Or.inr hnobody)⟩
    · obtain ⟨rfl, rfl, rfl, -⟩ := Mark.subscribed.inj hmark₂
      obtain ⟨rfl, hsame | hnobody⟩ := hown token₁ owner₁ dead₁ hold₁
      · exact ⟨rfl, Or.inl (hsame.trans howner)⟩
      · exact ⟨rfl, Or.inr (Or.inl hnobody)⟩
    · exact h.apart token₁ token₂ owner₁ owner₂ key dead₁ dead₂ hold₁ hold₂

theorem KeysSound.more (h : KeysSound keys st) (new : List GoString) : KeysSound (keys ++ new) st :=
  ⟨fun token owner key dead hmem => List.mem_append_left _ (h.drawn token owner key dead hmem),
    fun token sub hsub => ⟨(h.rows token sub hsub).1, List.mem_append_left _ (h.rows token sub hsub).2.1,
      (h.rows token sub hsub).2.2⟩, h.apart⟩

theorem KeysSound.subscribe (h : KeysSound keys st) (token platform label owner ipAddr userAgent now : GoString)
    (random : Fin 16 → UInt8) (ok : Bool) (hfresh : generateAPIKey random ∉ keys) :
    KeysSound (keys ++ [generateAPIKey random])
      (st.subscribe token platform label owner ipAddr userAgent now random ok) := by
  rw [State.subscribe]
  split
  · exact h.more _
  · have hdraw : generateAPIKey random ∈ keys ++ [generateAPIKey random] :=
      List.mem_append_right _ (List.mem_singleton_self _)
    dsimp only
    generalize hsub : subscribed (st.db.lookup token) token platform label owner ipAddr userAgent now
      (generateAPIKey random) = sub
    have howner : sub.owner = owner := by rw [← hsub, subscribed]
    have hkey : sub.apiKey = if ((st.db.lookup token).getD .empty).apiKey ≠ [] ∧
        ¬(((st.db.lookup token).getD .empty).owner ≠ [] ∧ ((st.db.lookup token).getD .empty).owner ≠ owner)
        then ((st.db.lookup token).getD .empty).apiKey else generateAPIKey random := by
      rw [← hsub, subscribed]
    split at hkey
    · -- the row keeps its key, so it is there, and its owner is the same or had no name
      rename_i hkeeps
      obtain ⟨hne, hsame⟩ := hkeeps
      cases hlookup : st.db.lookup token with
      | none =>
          rw [hlookup] at hne
          exact absurd rfl hne
      | some old =>
          rw [hlookup] at hne hsame hkey
          obtain ⟨-, hdrawn, -, hown⟩ := h.rows token old hlookup
          have hkey : sub.apiKey = old.apiKey := hkey
          refine (h.more _).give (hkey ▸ hne) (hkey ▸ List.mem_append_left _ hdrawn) howner ?_ ?_
          · intro token' owner' dead' hmem
            rw [hkey] at hmem
            obtain ⟨htoken, hold | hnobody⟩ := hown token' owner' dead' hmem
            · refine ⟨htoken, ?_⟩
              rw [howner, hold]
              by_cases hempty : old.owner = []
              · exact Or.inr hempty
              · by_contra hnot
                exact hsame ⟨hempty, fun heq => hnot (Or.inl heq)⟩
            · exact ⟨htoken, Or.inr hnobody⟩
          · intro other old' hother hold' heq
            obtain ⟨-, -, ⟨owner', dead', hgiven⟩, -⟩ := h.rows other old' hold'
            rw [heq, hkey] at hgiven
            exact hother (hown other owner' dead' hgiven).1
    · -- a key that nobody has
      have hkey : sub.apiKey = generateAPIKey random := hkey
      refine (h.more _).give (hkey ▸ generateAPIKey_ne_nil random) (hkey ▸ hdraw) howner ?_ ?_
      · intro token' owner' dead' hmem
        rw [hkey] at hmem
        exact absurd (h.drawn token' owner' _ dead' hmem) hfresh
      · intro other old hother hold heq
        rw [hkey] at heq
        exact hfresh (heq ▸ (h.rows other old hold).2.1)

theorem KeysSound.step (h : KeysSound keys st) {event : Event} (hnodup : (keys ++ event.draws).Nodup) :
    KeysSound (keys ++ event.draws) (st.step event) := by
  cases event with
  | subscribe token platform label owner ipAddr userAgent now random ok =>
      refine h.subscribe token platform label owner ipAddr userAgent now random ok fun hmem => ?_
      exact List.disjoint_of_nodup_append hnodup hmem (List.mem_singleton_self _)
  | touchLastSeen token ipAddr now ok =>
      exact (h.more _).update token ok (fun _ => ⟨rfl, rfl⟩) fun _ _ _ _ hmem => by cases hmem
  | remove token ok =>
      refine (h.more _).keep (fun token' owner key dead => ?_) fun other sub hother => ?_
      · rw [State.step, State.remove]
        split
        · rfl
        · simp
      · rw [State.step, State.remove] at hother
        split at hother
        · exact ⟨sub, hother, rfl, rfl⟩
        · by_cases hsame : other = token
          · subst hsame
            rw [AList.lookup_erase] at hother
            cases hother
          · rw [AList.lookup_erase_ne hsame] at hother
            exact ⟨sub, hother, rfl, rfl⟩
  | notifyAll => exact (h.more _).keep (fun _ _ _ _ => Iff.rfl) fun _ sub hother => ⟨sub, hother, rfl, rfl⟩
  | send t err =>
      refine (h.more _).keep (fun token owner key dead => ?_) fun other sub hother => ⟨sub, ?_, rfl, rfl⟩
      · rw [State.step]
        split
        · rw [State.send]
          split
          · rfl
          · split
            · rfl
            · simp
        · rfl
      · rw [State.step] at hother
        split at hother
        · rw [State.send] at hother
          split at hother
          · exact hother
          · split at hother <;> exact hother
        · exact hother
  | sendTest token platform err =>
      refine (h.more _).keep (fun token owner key dead => ?_) fun other sub hother => ⟨sub, ?_, rfl, rfl⟩
      · rw [State.step, State.sendTest]
        split <;> rfl
      · rw [State.step, State.sendTest] at hother
        split at hother <;> exact hother
  | recordPush t now ok =>
      rw [State.step]
      split
      · rename_i token o next _
        have hsame : ∀ sub, (recorded sub o now).apiKey = sub.apiKey ∧ (recorded sub o now).owner = sub.owner := by
          intro sub
          rw [recorded]
          split <;> exact ⟨rfl, rfl⟩
        have hupdate := @KeysSound.update _ _ (h.more []) token ok (recorded · o now) [.recorded token o] hsame
          fun _ _ _ _ hmem => by simp at hmem
        exact ⟨hupdate.drawn, hupdate.rows, hupdate.apart⟩
      · exact h.more _
  | reconfigure clients => exact (h.more _).keep (fun _ _ _ _ => Iff.rfl) fun _ sub hother => ⟨sub, hother, rfl, rfl⟩
  | stop => exact (h.more _).keep (fun _ _ _ _ => Iff.rfl) fun _ sub hother => ⟨sub, hother, rfl, rfl⟩

theorem KeysSound.exec {es : List Event} (h : KeysSound keys st) (hnodup : (keys ++ es.flatMap Event.draws).Nodup) :
    KeysSound (keys ++ es.flatMap Event.draws) (Run.exec State.step st es) := by
  induction es generalizing st keys with
  | nil => simpa using h
  | cons event es ih =>
      rw [List.flatMap_cons, ← List.append_assoc] at hnodup ⊢
      rw [Run.exec_cons]
      exact ih (h.step (hnodup.sublist (List.sublist_append_left _ _))) hnodup

/-- An account that has had to give up a device knows no key that is good for a device: a key is given to one
owner with a name, and the key of a row to no other than its owner, if no key is drawn twice. -/
theorem keys_run (clients : Clients) (es : List Event) (hnodup : (es.flatMap Event.draws).Nodup) :
    KeysApart (Run.exec State.step (.start clients) es).log ∧
      ∀ token sub, (Run.exec State.step (.start clients) es).db.lookup token = some sub →
        sub.KeyOwn (Run.exec State.step (.start clients) es).log token := by
  have hstart : KeysSound [] (.start clients) := by
    refine ⟨fun _ _ _ _ hmem => ?_, fun _ _ hsub => ?_, fun _ _ _ _ _ _ _ hmem => ?_⟩
    · cases hmem
    · cases hsub
    · cases hmem
  have h := @KeysSound.exec _ _ es hstart hnodup
  exact ⟨h.apart, fun token sub hsub => (h.rows token sub hsub).2.2.2⟩

/-- A device that one account takes over from another. -/
theorem keys_run_takeover :
    let es : List Event :=
      [.subscribe [1] platformIOS [] [97] [] [] [48] (fun _ => 0) true,
        .subscribe [1] platformIOS [] [98] [] [] [49] (fun _ => 1) true]
    (es.flatMap Event.draws).Nodup ∧ KeysApart (Run.exec State.step (.start ⟨true, false⟩) es).log :=
  ⟨by decide, (keys_run _ _ (by decide)).1⟩

/-! ### Platforms -/

def Subscription.Routable (sub : Subscription) : Prop := sub.platform = platformIOS ∨ sub.platform = platformAndroid

instance (sub : Subscription) : Decidable sub.Routable :=
  inferInstanceAs (Decidable (sub.platform = platformIOS ∨ sub.platform = platformAndroid))

/-- What early builds for Android said they were. -/
def platformLegacy : GoString := ascii "fcm"

/-- The subscriptions as they are stored, each as `json.Unmarshal` reads it. There may be rows that it refuses. -/
abbrev Stored := AList fun _ : GoString => Option Subscription

/-- What is written over a row. -/
def rewritten (row : Option Subscription) : Option Subscription :=
  (row.filter fun sub => sub.platform = platformLegacy).map fun sub => { sub with platform := platformAndroid }

/-- Whether a row is garbage: one that cannot be read, or that is for nobody. -/
def garbage (row : Option Subscription) : Bool :=
  row.all fun sub => ¬sub.Routable ∧ sub.platform ≠ platformLegacy

/-- The migration of `NewService`. -/
def migrate (db : Stored) : Stored :=
  let rewrites := db.entries.filterMap fun row => (rewritten row.2).map fun sub => (row.1, some sub)
  let deletes := (db.entries.filter fun row => garbage row.2).map fun row => row.1
  GoMap.eraseAll deletes (rewrites.foldl (fun m fix => m.insert fix.1 fix.2) db)

/-- What the migration has to make of one row. -/
def Subscription.migrated (sub : Subscription) : Option Subscription :=
  if sub.platform = platformLegacy then some { sub with platform := platformAndroid }
  else if sub.Routable then some sub else none

theorem routable_of_migrated {old : Subscription} (h : old.migrated = some sub) : sub.Routable := by
  rw [Subscription.migrated] at h
  split at h
  · rw [← Option.some.inj h]
    exact Or.inr rfl
  · split at h
    · rename_i hroutable
      rw [← Option.some.inj h]
      exact hroutable
    · cases h

/-- The two passes over the rows do to each of them what has to be done. No row is left that cannot be read. -/
theorem lookup_migrate (db : Stored) (token : GoString) :
    (migrate db).lookup token = (((db.lookup token).bind id).bind Subscription.migrated).map some := by
  have hrewrites : ∀ fix ∈ db.entries.filterMap (fun row => (rewritten row.2).map fun sub => (row.1, some sub)),
      ((db.lookup fix.1).bind rewritten).map some = some fix.2 := by
    intro fix hfix
    obtain ⟨row, hrow, hmap⟩ := List.mem_filterMap.mp hfix
    obtain ⟨sub, hsub, rfl⟩ := Option.map_eq_some_iff.mp hmap
    rw [GoMap.mem_entries_iff.mp hrow, Option.bind_some, hsub, Option.map_some]
  have hwritten : token ∈ (db.entries.filterMap fun row =>
      (rewritten row.2).map fun sub => (row.1, some sub)).map Prod.fst ↔ ((db.lookup token).bind rewritten).isSome := by
    rw [Option.isSome_iff_exists]
    constructor
    · intro h
      obtain ⟨fix, hfix, rfl⟩ := List.mem_map.mp h
      obtain ⟨sub, hsub, -⟩ := Option.map_eq_some_iff.mp (hrewrites fix hfix)
      exact ⟨sub, hsub⟩
    · rintro ⟨sub, hsub⟩
      obtain ⟨row, hlookup, hrow⟩ := Option.bind_eq_some_iff.mp hsub
      exact List.mem_map.mpr ⟨(token, some sub), List.mem_filterMap.mpr
        ⟨⟨token, row⟩, GoMap.mem_entries_iff.mpr hlookup, by rw [hrow]; rfl⟩, rfl⟩
  have hdeleted : token ∈ (db.entries.filter fun row => garbage row.2).map (fun row => row.1) ↔
      ∃ row, db.lookup token = some row ∧ garbage row := by
    constructor
    · intro h
      obtain ⟨⟨key, row⟩, hrow, rfl⟩ := List.mem_map.mp h
      obtain ⟨hentry, hgarbage⟩ := List.mem_filter.mp hrow
      exact ⟨row, GoMap.mem_entries_iff.mp hentry, hgarbage⟩
    · rintro ⟨row, hlookup, hgarbage⟩
      exact List.mem_map.mpr ⟨⟨token, row⟩, List.mem_filter.mpr ⟨GoMap.mem_entries_iff.mpr hlookup, hgarbage⟩, rfl⟩
  rw [migrate, GoMap.lookup_eraseAll,
    @GoMap.lookup_foldl_insert _ _ _ (fun key => ((db.lookup key).bind rewritten).map some) _ hrewrites]
  simp only [hwritten, hdeleted]
  cases hlookup : db.lookup token with
  | none => simp
  | some row =>
      cases row with
      | none => simp [garbage]
      | some sub =>
          by_cases hlegacy : sub.platform = platformLegacy
          · simp [Subscription.migrated, rewritten, garbage, hlegacy]
          · by_cases hroutable : sub.Routable <;>
              simp [Subscription.migrated, rewritten, garbage, hlegacy, hroutable]

theorem routable_update {ok : Bool} {change : Subscription → Subscription} {marks : List Mark} {target : GoString}
    (h : ∀ token sub, st.db.lookup token = some sub → sub.Routable)
    (hchange : ∀ sub, (change sub).platform = sub.platform)
    (hsub : (st.update target ok change marks).db.lookup token = some sub) : sub.Routable := by
  rw [State.update] at hsub
  split at hsub
  · exact h token sub hsub
  · rename_i old hold
    by_cases hsame : token = target
    · rw [hsame, AList.lookup_insert] at hsub
      rw [← Option.some.inj hsub, Subscription.Routable, hchange]
      exact h target old (lookup_of_update hold)
    · rw [AList.lookup_insert_ne hsame] at hsub
      exact h token sub hsub

theorem routable_step (h : ∀ token sub, st.db.lookup token = some sub → sub.Routable) (event : Event) :
    ∀ token sub, (st.step event).db.lookup token = some sub → sub.Routable := by
  intro token sub hsub
  cases event with
  | subscribe target platform label owner ipAddr userAgent now random ok =>
      rw [State.step, State.subscribe] at hsub
      split at hsub
      · exact h token sub hsub
      · rename_i hchecks
        by_cases hsame : token = target
        · rw [hsame, AList.lookup_insert] at hsub
          rw [← Option.some.inj hsub]
          by_contra hnot
          obtain ⟨hios, handroid⟩ := not_or.mp hnot
          refine hchecks ?_
          have hplatform : (platform ≠ platformIOS && platform ≠ platformAndroid) = true := by
            rw [Bool.and_eq_true]
            exact ⟨decide_eq_true hios, decide_eq_true handroid⟩
          rw [hplatform, Bool.or_true, Bool.true_or]
        · rw [AList.lookup_insert_ne hsame] at hsub
          exact h token sub hsub
  | touchLastSeen target ipAddr now ok => exact routable_update h (fun _ => by rw [touched]) hsub
  | remove target ok =>
      rw [State.step, State.remove] at hsub
      split at hsub
      · exact h token sub hsub
      · by_cases hsame : token = target
        · rw [hsame, AList.lookup_erase] at hsub
          cases hsub
        · rw [AList.lookup_erase_ne hsame] at hsub
          exact h token sub hsub
  | notifyAll => exact h token sub hsub
  | send t err =>
      rw [State.step] at hsub
      split at hsub
      · rw [State.send] at hsub
        split at hsub
        · exact h token sub hsub
        · split at hsub <;> exact h token sub hsub
      · exact h token sub hsub
  | sendTest target platform err =>
      rw [State.step, State.sendTest] at hsub
      split at hsub <;> exact h token sub hsub
  | recordPush t now ok =>
      rw [State.step] at hsub
      split at hsub
      · refine routable_update h (fun old => ?_) hsub
        rw [recorded]
        split <;> rfl
      · exact h token sub hsub
  | reconfigure clients => exact h token sub hsub
  | stop => exact h token sub hsub

/-- The fan-out a call is part of. -/
def Call.fanOut : Call → Option FanOut
  | .sending f | .recording _ _ (some f) => some f
  | .recording _ _ none | .done => none

/-- Alerts can be sent to the platform of every row, and to that of every row that a fan-out has still to send to: it
never comes to its `default` branch. -/
structure Deliverable (st : State) : Prop where
  rows : ∀ token sub, st.db.lookup token = some sub → sub.Routable
  fanOuts : ∀ call ∈ st.calls, ∀ f, call.fanOut = some f → ∀ sub ∈ f.rest, sub.Routable

theorem Deliverable.setCall (h : Deliverable st) {t : Nat} {call : Call}
    (hcall : ∀ f, call.fanOut = some f → ∀ sub ∈ f.rest, sub.Routable) (call' : Call)
    (hcall' : call' ∈ st.calls.set t call) : ∀ f, call'.fanOut = some f → ∀ sub ∈ f.rest, sub.Routable := by
  obtain ⟨i, hi⟩ := List.mem_iff_getElem?.mp hcall'
  obtain ⟨-, rfl⟩ | ⟨-, hold⟩ := Run.getElem?_of_set hi
  · exact hcall
  · exact h.fanOuts call' (List.mem_of_getElem? hold)

theorem Deliverable.addCall (h : Deliverable st) {call : Call}
    (hcall : ∀ f, call.fanOut = some f → ∀ sub ∈ f.rest, sub.Routable) (call' : Call)
    (hcall' : call' ∈ st.calls ++ [call]) : ∀ f, call'.fanOut = some f → ∀ sub ∈ f.rest, sub.Routable := by
  rcases List.mem_append.mp hcall' with hold | hnew
  · exact h.fanOuts call' hold
  · rw [List.mem_singleton.mp hnew]
    exact hcall

theorem Deliverable.listSubscriptions (h : Deliverable st) : ∀ sub ∈ st.listSubscriptions, sub.Routable := by
  intro sub hsub
  rw [State.listSubscriptions] at hsub
  split at hsub
  · cases hsub
  · obtain ⟨row, hrow, rfl⟩ := List.mem_map.mp hsub
    exact h.rows row.1 row.2 (GoMap.mem_entries_iff.mp hrow)

theorem Deliverable.step (h : Deliverable st) (event : Event) : Deliverable (st.step event) := by
  refine ⟨routable_step h.rows event, fun call hcall => ?_⟩
  cases event with
  | subscribe token platform label owner ipAddr userAgent now random ok =>
      rw [State.step, State.subscribe] at hcall
      split at hcall <;> exact h.fanOuts call hcall
  | touchLastSeen token ipAddr now ok =>
      rw [State.step, State.update] at hcall
      split at hcall <;> exact h.fanOuts call hcall
  | remove token ok =>
      rw [State.step, State.remove] at hcall
      split at hcall <;> exact h.fanOuts call hcall
  | notifyAll =>
      refine h.addCall (fun f hf => ?_) call hcall
      cases hf
      exact h.listSubscriptions
  | send t err =>
      rw [State.step] at hcall
      split at hcall
      · rename_i f hget
        have hrest := h.fanOuts _ (List.mem_of_getElem? hget) f rfl
        rw [State.send] at hcall
        split at hcall
        · exact h.fanOuts call hcall
        · rename_i sub rest hcons
          rw [hcons] at hrest
          split at hcall
          all_goals
            refine h.setCall (fun f' hf' => ?_) call hcall
            cases hf'
            exact fun sub hsub => hrest sub (List.mem_cons_of_mem _ hsub)
      · exact h.fanOuts call hcall
  | sendTest token platform err =>
      rw [State.step, State.sendTest] at hcall
      split at hcall
      · exact h.fanOuts call hcall
      · refine h.addCall (fun f hf => ?_) call hcall
        cases hf
  | recordPush t now ok =>
      rw [State.step] at hcall
      split at hcall
      · rename_i token o next hget
        have hrest := h.fanOuts _ (List.mem_of_getElem? hget)
        refine h.setCall (fun f hf => hrest f ?_) call hcall
        cases next with
        | none => cases hf
        | some next => exact hf
      · exact h.fanOuts call hcall
  | reconfigure clients => exact h.fanOuts call hcall
  | stop => exact h.fanOuts call hcall

/-- Whatever the database has held before the service was started, the migration rewrites the rows of the early
builds, drops those that cannot be read or are of no platform that alerts can be sent to, and leaves the others alone.
From there on every row is of such a platform, and so is every row that a fan-out comes to. -/
theorem routable_run (legacy : Stored) (clients : Clients) (es : List Event) :
    (∀ token, (migrate legacy).lookup token =
        (((legacy.lookup token).bind id).bind Subscription.migrated).map some) ∧
      Run.Always State.step Deliverable { State.start clients with db := GoMap.choose id (migrate legacy) } es := by
  refine ⟨lookup_migrate legacy, ?_⟩
  refine @Run.always_of_guarded _ _ State.step _ (fun _ _ => True) _ es (fun _ event h _ => h.step event) ?_
    fun _ _ _ => trivial
  refine ⟨fun token sub hsub => ?_, fun _ hcall => absurd hcall List.not_mem_nil⟩
  obtain ⟨row, hrow, hread⟩ := Option.bind_eq_some_iff.mp ((GoMap.lookup_choose id (migrate legacy) token).symm.trans hsub)
  obtain ⟨new, hnew, rfl⟩ := Option.map_eq_some_iff.mp ((lookup_migrate legacy token).symm.trans hrow)
  obtain ⟨old, -, hold⟩ := Option.bind_eq_some_iff.mp hnew
  exact Option.some.inj hread ▸ routable_of_migrated hold

end Sysmon.Push.Subscriptions
