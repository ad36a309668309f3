import Sysmon.Agents.Tokens

/-!
# The registry of connections

Boxes and alerters dial in, and an administrator revokes and mints tokens, all at once. A handshake
checks its token, claims its kind, takes the lock of its registry, checks its epoch once more, puts its
connection into the registry, and checks its epoch a last time. A revoke or a mint writes the store and
then closes what is registered. The poller asks every box for its site and writes down the answer.
Each of them is a thread here, and one event is one step of one thread: what is done under one mutex
that nothing else can see half done is one step. A connection has the number of its handshake.
-/

namespace Sysmon.Agents

open Fleet

abbrev Tid := Nat

/-! ### Threads -/

/-- The word of the greeting. -/
inductive Verb where
  | hello
  | alerter
  deriving DecidableEq, Repr

def Verb.kind : Verb → GoString
  | .hello => kindSysmond
  | .alerter => kindAlerter

/-- How far a handshake is. -/
inductive Stage where
  | greeting
  | authed
  | claimed
  /-- It holds the lock of its registry. -/
  | locked
  /-- It still does, and its epoch has been found current. -/
  | checked
  | registered
  /-- The last check has found its epoch stale. -/
  | stale
  | live
  | gone
  deriving DecidableEq, Repr

structure Handshake where
  verb : Verb
  site : GoString
  token : GoString
  remote : GoString
  /-- What `CheckAgentToken` returned, once it has said yes. -/
  epoch : Option GoString
  stage : Stage
  deriving DecidableEq, Repr

def Handshake.credId (h : Handshake) : GoString := h.epoch.getD []

inductive AdminOp where
  | revoke (site : GoString)
  | mint (site label kind : GoString) (replace : Bool) (draw : Draw)
  deriving DecidableEq, Repr

def AdminOp.site : AdminOp → GoString
  | .revoke site | .mint site .. => site

inductive AdminStage where
  | asked
  | written
  /-- The daemon half of `DisconnectSite` is done. -/
  | swept
  /-- The alerter half has found a record. -/
  | found
  | finished
  deriving DecidableEq, Repr

inductive Thread where
  | handshake (h : Handshake)
  | admin (op : AdminOp) (stage : AdminStage)
  deriving DecidableEq, Repr

/-! ### State -/

/-- An entry of `daemons`. -/
structure Entry where
  site : GoString
  conn : Option Tid
  deriving DecidableEq, Repr

/-- An entry of `alerters`. -/
structure Alerter where
  conn : Option Tid
  connected : Bool
  deriving DecidableEq, Repr

structure State where
  store : Store
  fleet : List Entry
  alerters : GoString → Option Alerter
  /-- Who holds `fleetMu`, and `alertersMu`. -/
  locks : Verb → Option Tid
  closed : List Tid
  threads : List Thread

def State.goto (st : State) (t : Tid) (h : Handshake) (stage : Stage) : State :=
  { st with threads := st.threads.set t (.handshake { h with stage := stage }) }

/-- The connection is closed and the handshake is over. -/
def State.hangUp (st : State) (t : Tid) (h : Handshake) : State :=
  { st.goto t h .gone with closed := t :: st.closed }

def State.setLock (st : State) (verb : Verb) (holder : Option Tid) : State :=
  { st with locks := Function.update st.locks verb holder }

def State.advance (st : State) (t : Tid) (op : AdminOp) (stage : AdminStage) : State :=
  { st with threads := st.threads.set t (.admin op stage) }

/-! ### Operations -/

def isSiteChar (b : UInt8) : Bool :=
  (97 ≤ b && b ≤ 122) || (65 ≤ b && b ≤ 90) || (48 ≤ b && b ≤ 57) || b = 45 || b = 95

/-- `ValidSiteName`. -/
def validSiteName (site : GoString) : Bool :=
  !site.isEmpty && decide (site.length ≤ 64) && site.all isSiteChar

/-- The epoch of the site's credential, if there is one and it is not revoked. -/
def epochOf (s : Store) (site : GoString) : Option GoString :=
  (getAgentToken s site).bind fun r => if r.revoked then none else some r.credentialId

def credentialCurrent (s : Store) (site credId : GoString) : Bool := epochOf s site = some credId

/-- The loop of `adoptAgent`: the first entry of the site gets the connection, or a new one does. -/
def adopt (site : GoString) (t : Tid) : List Entry → List Entry
  | [] => [⟨site, some t⟩]
  | d :: ds => if d.site = site then { d with conn := some t } :: ds else d :: adopt site t ds

/-- The connection that loop closes. -/
def adopted (site : GoString) (fleet : List Entry) : Option Tid :=
  (fleet.find? fun d => d.site = site).bind Entry.conn

/-- `registerAlerter`, of the record that was there. -/
def superseded : Option Alerter → Option Tid
  | some a => if a.connected then a.conn else none
  | none => none

/-- The connection is put into the registry. -/
def State.install (st : State) (t : Tid) (h : Handshake) : State :=
  match h.verb with
  | .hello =>
      { st with fleet := adopt h.site t st.fleet, closed := (adopted h.site st.fleet).toList ++ st.closed }
  | .alerter =>
      { st with
        alerters := Function.update st.alerters h.site (some ⟨some t, true⟩)
        closed := (superseded (st.alerters h.site)).toList ++ st.closed }

/-- `detachDaemonConn`. -/
def detach (site : GoString) (t : Tid) (fleet : List Entry) : List Entry :=
  fleet.map fun d => if d.site = site ∧ d.conn = some t then { d with conn := none } else d

/-- The deferred function of `runAlerter`: only the current connection of the record may say that it is
not connected any more. -/
def leave (t : Tid) (a : Alerter) : Alerter := if a.conn = some t then { a with connected := false } else a

/-- A connection goes and takes itself out of the registry. -/
def State.withdraw (st : State) (t : Tid) (h : Handshake) : State :=
  match h.verb with
  | .hello => { st with fleet := detach h.site t st.fleet }
  | .alerter => { st with alerters := Function.update st.alerters h.site ((st.alerters h.site).map (leave t)) }

/-- The daemon half of `DisconnectSite`. -/
def State.sweep (st : State) (site : GoString) : State :=
  { st with
    fleet := st.fleet.map fun d => if d.site = site then { d with conn := none } else d
    closed := (st.fleet.filter fun d => d.site = site).filterMap Entry.conn ++ st.closed }

/-- The alerter half. -/
def State.disconnect (st : State) (site : GoString) : State :=
  { st with
    alerters := Function.update st.alerters site ((st.alerters site).map fun _ => ⟨none, false⟩)
    closed := ((st.alerters site).bind Alerter.conn).toList ++ st.closed }

/-! ### Steps -/

/-- One step of a handshake, when the store works or does not. -/
def handshakeStep (sha : List UInt8 → Digest) (st : State) (t : Tid) (h : Handshake) (now : Time)
    (works : Bool) : State :=
  match h.stage with
  | .greeting =>
      if validSiteName h.site then
        match checkAgentToken sha st.store h.site h.token h.remote now works with
        | (store, some (some credId)) =>
            { st with store := store }.goto t { h with epoch := some credId } .authed
        | (store, _) => { st with store := store }.hangUp t h
      else st.hangUp t h
  | .authed =>
      match claimAgentKind st.store h.site h.verb.kind works with
      | (store, some []) => { st with store := store }.goto t h .claimed
      | (store, _) => { st with store := store }.hangUp t h
  | .claimed => if st.locks h.verb = none then (st.setLock h.verb (some t)).goto t h .locked else st
  | .locked =>
      if works && credentialCurrent st.store h.site h.credId then st.goto t h .checked
      else (st.setLock h.verb none).hangUp t h
  | .checked => ((st.install t h).setLock h.verb none).goto t h .registered
  | .registered =>
      if works && credentialCurrent st.store h.site h.credId then st.goto t h .live
      else st.goto t h .stale
  | .stale =>
      -- an alerter needs no lock of the registry for that
      if h.verb = .alerter ∨ st.locks .hello = none then (st.withdraw t h).hangUp t h else st
  | .live | .gone => st

/-- One step of a revoke or of a mint. Only a mint that replaces disconnects the site. -/
def adminStep (sha : List UInt8 → Digest) (st : State) (t : Tid) (op : AdminOp) (stage : AdminStage)
    (works : Bool) : State :=
  match stage with
  | .asked =>
      match op with
      | .revoke site =>
          match revokeAgentToken st.store site works with
          | (store, some ()) => { st with store := store }.advance t op .written
          | (store, none) => { st with store := store }.advance t op .finished
      | .mint site label kind replace draw =>
          match mintAgentToken sha st.store site label kind replace draw works with
          | (store, some _) =>
              { st with store := store }.advance t op (if replace then .written else .finished)
          | (store, none) => { st with store := store }.advance t op .finished
  | .written => if st.locks .hello = none then (st.sweep op.site).advance t op .swept else st
  | .swept =>
      if st.locks .alerter = none then
        st.advance t op (if (st.alerters op.site).isSome then .found else .finished)
      else st
  | .found => (st.disconnect op.site).advance t op .finished
  | .finished => st

inductive Event where
  /-- A connection sends its greeting. -/
  | greet (verb : Verb) (site token remote : GoString)
  | ask (op : AdminOp)
  | run (t : Tid) (now : Time) (works : Bool)
  /-- A poll of an entry writes down what the SITE exchange gave. -/
  | poll (i : Nat) (answer : GoString)
  /-- `dropConnection` of the connection that an entry has. -/
  | drop (i : Nat)
  /-- The peer is gone: the welcome cannot be sent, or the read loop of an alerter ends. -/
  | lost (t : Tid)
  deriving DecidableEq, Repr

def State.spawn (st : State) (thread : Thread) : State := { st with threads := st.threads ++ [thread] }

def lostStep (st : State) (t : Tid) (h : Handshake) : State :=
  match h.stage, h.verb with
  | .claimed, _ => st.hangUp t h
  | .live, .alerter => (st.withdraw t h).hangUp t h
  | _, _ => st

def State.step (sha : List UInt8 → Digest) (st : State) : Event → State
  | .greet verb site token remote => st.spawn (.handshake ⟨verb, site, token, remote, none, .greeting⟩)
  | .ask op => st.spawn (.admin op .asked)
  | .run t now works =>
      match st.threads[t]? with
      | some (.handshake h) => handshakeStep sha st t h now works
      | some (.admin op stage) => adminStep sha st t op stage works
      | none => st
  | .poll i answer => { st with fleet := st.fleet.modify i fun d => { d with site := answer } }
  | .drop i =>
      { st with
        fleet := st.fleet.modify i fun d => { d with conn := none }
        closed := (st.fleet[i]?.bind Entry.conn).toList ++ st.closed }
  | .lost t =>
      match st.threads[t]? with
      | some (.handshake h) => lostStep st t h
      | _ => st

/-- Nobody has connected yet. -/
def State.start (store : Store) : State where
  store := store
  fleet := []
  alerters := fun _ => none
  locks := fun _ => none
  closed := []
  threads := []

/-! ### What is registered -/

/-- The connection is in the registry of its kind, under that site. -/
def Held (st : State) (verb : Verb) (site : GoString) (c : Tid) : Prop :=
  match verb with
  | .hello => ∃ d ∈ st.fleet, d.site = site ∧ d.conn = some c
  | .alerter => ∃ a, st.alerters site = some a ∧ a.conn = some c ∧ a.connected = true

variable {st st' : State} {t c : Tid} {h h' : Handshake} {verb : Verb} {site : GoString}

/-- Only the two registries matter. -/
theorem held_congr (hfleet : st'.fleet = st.fleet) (halerters : st'.alerters = st.alerters) :
    Held st' verb site c ↔ Held st verb site c := by
  cases verb with
  | hello => rw [Held, Held, hfleet]
  | alerter => rw [Held, Held, halerters]

theorem mem_adopt {fleet : List Entry} {d : Entry} (hd : d ∈ adopt site t fleet) :
    d ∈ fleet ∨ d.site = site ∧ d.conn = some t := by
  induction fleet with
  | nil =>
      rw [List.mem_singleton.mp hd]
      exact Or.inr ⟨rfl, rfl⟩
  | cons first fleet ih =>
      rw [adopt] at hd
      split at hd
      next hfirst =>
        obtain rfl | hmem := List.mem_cons.mp hd
        · exact Or.inr ⟨hfirst, rfl⟩
        · exact Or.inl (List.mem_cons_of_mem first hmem)
      next =>
        obtain rfl | hmem := List.mem_cons.mp hd
        · exact Or.inl List.mem_cons_self
        · exact (ih hmem).imp_left fun h => List.mem_cons_of_mem first h

theorem mem_adopt_of_ne {fleet : List Entry} {d : Entry} (hd : d ∈ fleet) (hne : d.site ≠ site) :
    d ∈ adopt site t fleet := by
  induction fleet with
  | nil => exact absurd hd List.not_mem_nil
  | cons first fleet ih =>
      rw [adopt]
      obtain rfl | hmem := List.mem_cons.mp hd
      · rw [if_neg hne]
        exact List.mem_cons_self
      · split
        · exact List.mem_cons_of_mem _ hmem
        · exact List.mem_cons_of_mem _ (ih hmem)

/-- The sites stay as they are, or the new one comes last. -/
theorem sites_adopt (site : GoString) (t : Tid) (fleet : List Entry) :
    (adopt site t fleet).map Entry.site = fleet.map Entry.site ∨
      site ∉ fleet.map Entry.site ∧
        (adopt site t fleet).map Entry.site = fleet.map Entry.site ++ [site] := by
  induction fleet with
  | nil => exact Or.inr ⟨List.not_mem_nil, rfl⟩
  | cons first fleet ih =>
      rw [adopt]
      split
      next => exact Or.inl rfl
      next hfirst =>
        obtain hsame | ⟨hnew, hlast⟩ := ih
        · exact Or.inl (by rw [List.map_cons, List.map_cons, hsame])
        · refine Or.inr ⟨?_, by rw [List.map_cons, List.map_cons, hlast, List.cons_append]⟩
          rw [List.map_cons, List.mem_cons, not_or]
          exact ⟨fun heq => hfirst heq.symm, hnew⟩

theorem held_install (hheld : Held (st.install t h) verb site c) :
    Held st verb site c ∨ verb = h.verb ∧ site = h.site ∧ c = t := by
  cases hverb : h.verb with
  | hello =>
      simp only [State.install, hverb] at hheld
      cases verb with
      | hello =>
          obtain ⟨d, hd, hsite, hconn⟩ := hheld
          obtain hmem | ⟨hnew, hinstalled⟩ := mem_adopt hd
          · exact Or.inl ⟨d, hmem, hsite, hconn⟩
          · exact Or.inr ⟨rfl, hsite.symm.trans hnew, Option.some.inj (hconn.symm.trans hinstalled)⟩
      | alerter => exact Or.inl hheld
  | alerter =>
      simp only [State.install, hverb] at hheld
      cases verb with
      | hello => exact Or.inl hheld
      | alerter =>
          obtain ⟨a, ha, hconn, hconnected⟩ := hheld
          dsimp only at ha
          by_cases hsite : site = h.site
          · subst hsite
            rw [Function.update_self] at ha
            obtain rfl := Option.some.inj ha
            exact Or.inr ⟨rfl, rfl, (Option.some.inj hconn).symm⟩
          · rw [Function.update_of_ne hsite] at ha
            exact Or.inl ⟨a, ha, hconn, hconnected⟩

theorem held_withdraw (hheld : Held (st.withdraw t h) verb site c) :
    Held st verb site c ∧ ¬(verb = h.verb ∧ site = h.site ∧ c = t) := by
  cases hverb : h.verb with
  | hello =>
      simp only [State.withdraw, hverb] at hheld
      cases verb with
      | hello =>
          obtain ⟨d, hd, hsite, hconn⟩ := hheld
          obtain ⟨d', hmem, rfl⟩ := List.mem_map.mp hd
          split at hsite
          next hmine =>
            rw [if_pos hmine] at hconn
            exact absurd hconn (by simp)
          next hother =>
            rw [if_neg hother] at hconn
            refine ⟨⟨d', hmem, hsite, hconn⟩, ?_⟩
            rintro ⟨-, rfl, rfl⟩
            exact hother ⟨hsite, hconn⟩
      | alerter => exact ⟨hheld, by simp⟩
  | alerter =>
      simp only [State.withdraw, hverb] at hheld
      cases verb with
      | hello => exact ⟨hheld, by simp⟩
      | alerter =>
          obtain ⟨a, ha, hconn, hconnected⟩ := hheld
          dsimp only at ha
          by_cases hsite : site = h.site
          · subst hsite
            rw [Function.update_self] at ha
            obtain ⟨a', ha', rfl⟩ := Option.map_eq_some_iff.mp ha
            rw [leave] at hconn hconnected
            split at hconn
            next hmine =>
              rw [if_pos hmine] at hconnected
              exact absurd hconnected (by simp)
            next hother =>
              rw [if_neg hother] at hconnected
              refine ⟨⟨a', ha', hconn, hconnected⟩, ?_⟩
              rintro ⟨-, -, rfl⟩
              exact hother hconn
          · rw [Function.update_of_ne hsite] at ha
            exact ⟨⟨a, ha, hconn, hconnected⟩, fun hmine => hsite hmine.2.1⟩

theorem held_sweep {swept : GoString} (hheld : Held (st.sweep swept) verb site c) :
    Held st verb site c ∧ ¬(verb = .hello ∧ site = swept) := by
  cases verb with
  | hello =>
      obtain ⟨d, hd, hsite, hconn⟩ := hheld
      obtain ⟨d', hmem, rfl⟩ := List.mem_map.mp hd
      split at hsite
      next hmine =>
        rw [if_pos hmine] at hconn
        exact absurd hconn (by simp)
      next hother =>
        rw [if_neg hother] at hconn
        refine ⟨⟨d', hmem, hsite, hconn⟩, ?_⟩
        rintro ⟨-, rfl⟩
        exact hother hsite
  | alerter => exact ⟨hheld, by simp⟩

theorem held_disconnect {cut : GoString} (hheld : Held (st.disconnect cut) verb site c) :
    Held st verb site c ∧ ¬(verb = .alerter ∧ site = cut) := by
  cases verb with
  | hello => exact ⟨hheld, by simp⟩
  | alerter =>
      obtain ⟨a, ha, hconn, hconnected⟩ := hheld
      dsimp only [State.disconnect] at ha
      by_cases hsite : site = cut
      · subst hsite
        rw [Function.update_self] at ha
        obtain ⟨a', -, rfl⟩ := Option.map_eq_some_iff.mp ha
        exact absurd hconn (by simp)
      · rw [Function.update_of_ne hsite] at ha
        exact ⟨⟨a, ha, hconn, hconnected⟩, fun hmine => hsite hmine.2⟩

/-! ### What a step can do -/

/-- Every way a step can go, apart from a poll that is told another site, when what is asked for is of
some kind. -/
inductive Step (sha : List UInt8 → Digest) (asks : AdminOp → Prop) (st : State) : State → Prop
  | idle : Step sha asks st st
  | greet (h : Handshake) (hstage : h.stage = .greeting) (hepoch : h.epoch = none) :
      Step sha asks st (st.spawn (.handshake h))
  | ask (op : AdminOp) (hop : asks op) : Step sha asks st (st.spawn (.admin op .asked))
  | quit (t : Tid) (h : Handshake) (hget : st.threads[t]? = some (.handshake h))
      (hstage : h.stage = .greeting ∨ h.stage = .authed ∨ h.stage = .claimed) :
      Step sha asks st (st.hangUp t h)
  | auth (t : Tid) (h : Handshake) (now : Time) (works : Bool) (store : Store) (credId : GoString)
      (hget : st.threads[t]? = some (.handshake h)) (hstage : h.stage = .greeting)
      (hvalid : validSiteName h.site = true)
      (hcheck : checkAgentToken sha st.store h.site h.token h.remote now works = (store, some (some credId))) :
      Step sha asks st ({ st with store := store }.goto t { h with epoch := some credId } .authed)
  | claim (t : Tid) (h : Handshake) (works : Bool) (hget : st.threads[t]? = some (.handshake h))
      (hstage : h.stage = .authed) :
      Step sha asks st ({ st with store := (claimAgentKind st.store h.site h.verb.kind works).1 }.goto t h
        .claimed)
  | lock (t : Tid) (h : Handshake) (hget : st.threads[t]? = some (.handshake h))
      (hstage : h.stage = .claimed) (hfree : st.locks h.verb = none) :
      Step sha asks st ((st.setLock h.verb (some t)).goto t h .locked)
  | check (t : Tid) (h : Handshake) (hget : st.threads[t]? = some (.handshake h))
      (hstage : h.stage = .locked) (hcurrent : epochOf st.store h.site = some h.credId) :
      Step sha asks st (st.goto t h .checked)
  | refuse (t : Tid) (h : Handshake) (hget : st.threads[t]? = some (.handshake h))
      (hstage : h.stage = .locked) : Step sha asks st ((st.setLock h.verb none).hangUp t h)
  | install (t : Tid) (h : Handshake) (hget : st.threads[t]? = some (.handshake h))
      (hstage : h.stage = .checked) :
      Step sha asks st (((st.install t h).setLock h.verb none).goto t h .registered)
  | settle (t : Tid) (h : Handshake) (hget : st.threads[t]? = some (.handshake h))
      (hstage : h.stage = .registered) (hcurrent : epochOf st.store h.site = some h.credId) :
      Step sha asks st (st.goto t h .live)
  | expire (t : Tid) (h : Handshake) (hget : st.threads[t]? = some (.handshake h))
      (hstage : h.stage = .registered) : Step sha asks st (st.goto t h .stale)
  | withdraw (t : Tid) (h : Handshake) (hget : st.threads[t]? = some (.handshake h))
      (hstage : h.stage = .stale ∨ h.stage = .live) : Step sha asks st ((st.withdraw t h).hangUp t h)
  | giveUp (t : Tid) (op : AdminOp) (hget : st.threads[t]? = some (.admin op .asked)) :
      Step sha asks st (st.advance t op .finished)
  | revoke (t : Tid) (site : GoString) (works : Bool) (store : Store)
      (hget : st.threads[t]? = some (.admin (.revoke site) .asked))
      (hrevoke : revokeAgentToken st.store site works = (store, some ())) :
      Step sha asks st ({ st with store := store }.advance t (.revoke site) .written)
  | mint (t : Tid) (site label kind : GoString) (replace : Bool) (draw : Draw) (works : Bool)
      (store : Store) (token : GoString)
      (hget : st.threads[t]? = some (.admin (.mint site label kind replace draw) .asked))
      (hmint : mintAgentToken sha st.store site label kind replace draw works = (store, some token)) :
      Step sha asks st ({ st with store := store }.advance t (.mint site label kind replace draw)
        (if replace then .written else .finished))
  | sweep (t : Tid) (op : AdminOp) (hget : st.threads[t]? = some (.admin op .written))
      (hfree : st.locks .hello = none) : Step sha asks st ((st.sweep op.site).advance t op .swept)
  | lookup (t : Tid) (op : AdminOp) (hget : st.threads[t]? = some (.admin op .swept)) :
      Step sha asks st (st.advance t op (if (st.alerters op.site).isSome then .found else .finished))
  | disconnect (t : Tid) (op : AdminOp) (hget : st.threads[t]? = some (.admin op .found)) :
      Step sha asks st ((st.disconnect op.site).advance t op .finished)
  | drop (i : Nat) : Step sha asks st
      { st with
        fleet := st.fleet.modify i fun d => { d with conn := none }
        closed := (st.fleet[i]?.bind Entry.conn).toList ++ st.closed }

variable {sha : List UInt8 → Digest} {asks : AdminOp → Prop}

theorem step_handshake (hget : st.threads[t]? = some (.handshake h)) (now : Time) (works : Bool) :
    Step sha asks st (handshakeStep sha st t h now works) := by
  have hsame : ∀ store, store = st.store → { st with store := store } = st := by
    rintro store rfl
    rfl
  cases hstage : h.stage with
  | greeting =>
      simp only [handshakeStep, hstage]
      split
      next hvalid =>
        split
        next store credId hcheck => exact .auth t h now works store credId hget hstage hvalid hcheck
        next store answer hno hcheck =>
          obtain ⟨hstore, -⟩ | ⟨stored, -, -, -, heq⟩ := check_cases
          · rw [hcheck] at hstore
            rw [hsame store hstore]
            exact .quit t h hget (Or.inl hstage)
          · rw [hcheck] at heq
            exact absurd (Prod.mk.inj heq).2 (hno _)
      next => exact .quit t h hget (Or.inl hstage)
  | authed =>
      simp only [handshakeStep, hstage]
      split
      next store hclaim =>
        have hstore : store = (claimAgentKind st.store h.site h.verb.kind works).1 := by rw [hclaim]
        rw [hstore]
        exact .claim t h works hget hstage
      next store answer hno hclaim =>
        obtain hstore | ⟨members, -, -, heq⟩ := claim_cases
        · rw [hclaim] at hstore
          rw [hsame store hstore]
          exact .quit t h hget (Or.inr (Or.inl hstage))
        · rw [hclaim] at heq
          exact absurd (Prod.mk.inj heq).2 hno
  | claimed =>
      simp only [handshakeStep, hstage]
      split
      next hfree => exact .lock t h hget hstage hfree
      next => exact .idle
  | locked =>
      simp only [handshakeStep, hstage]
      split
      next hcurrent =>
        rw [Bool.and_eq_true, credentialCurrent, decide_eq_true_eq] at hcurrent
        exact .check t h hget hstage hcurrent.2
      next => exact .refuse t h hget hstage
  | checked =>
      simp only [handshakeStep, hstage]
      exact .install t h hget hstage
  | registered =>
      simp only [handshakeStep, hstage]
      split
      next hcurrent =>
        rw [Bool.and_eq_true, credentialCurrent, decide_eq_true_eq] at hcurrent
        exact .settle t h hget hstage hcurrent.2
      next => exact .expire t h hget hstage
  | stale =>
      simp only [handshakeStep, hstage]
      split
      next => exact .withdraw t h hget (Or.inl hstage)
      next => exact .idle
  | live | gone =>
      simp only [handshakeStep, hstage]
      exact .idle

theorem step_admin {op : AdminOp} {stage : AdminStage} (hget : st.threads[t]? = some (.admin op stage))
    (works : Bool) : Step sha asks st (adminStep sha st t op stage works) := by
  have hsame : ∀ store, store = st.store → { st with store := store } = st := by
    rintro store rfl
    rfl
  cases stage with
  | asked =>
      cases op with
      | revoke site =>
          simp only [adminStep]
          split
          next store hrevoke => exact .revoke t site works store hget hrevoke
          next store hrevoke =>
            obtain heq | ⟨members, -, heq⟩ := revoke_cases
            · rw [hrevoke] at heq
              rw [hsame store (Prod.mk.inj heq).1]
              exact .giveUp t _ hget
            · rw [hrevoke] at heq
              exact absurd (Prod.mk.inj heq).2 (by simp)
      | mint site label kind replace draw =>
          simp only [adminStep]
          split
          next store token hmint =>
            exact .mint t site label kind replace draw works store token hget hmint
          next store hmint =>
            obtain heq | ⟨-, -, heq⟩ := mint_cases
            · rw [hmint] at heq
              rw [hsame store (Prod.mk.inj heq).1]
              exact .giveUp t _ hget
            · rw [hmint] at heq
              exact absurd (Prod.mk.inj heq).2 (by simp)
  | written =>
      simp only [adminStep]
      split
      next hfree => exact .sweep t op hget hfree
      next => exact .idle
  | swept =>
      simp only [adminStep]
      split
      next => exact .lookup t op hget
      next => exact .idle
  | found => exact .disconnect t op hget
  | finished => exact .idle

/-- The poll of an entry is told the site that the entry has. -/
def Honest (st : State) : Event → Prop
  | .poll i answer => ∀ d ∈ st.fleet[i]?, d.site = answer
  | _ => True

theorem step_of_honest {e : Event} (he : Honest st e) (hasks : ∀ op, e = .ask op → asks op) :
    Step sha asks st (st.step sha e) := by
  cases e with
  | greet verb site token remote => exact .greet _ rfl rfl
  | ask op => exact .ask op (hasks op rfl)
  | run t now works =>
      simp only [State.step]
      split
      next h hget => exact step_handshake hget now works
      next op stage hget => exact step_admin hget works
      next => exact .idle
  | poll i answer =>
      have hsame : st.fleet.modify i (fun d => { d with site := answer }) = st.fleet := by
        apply List.ext_getElem?
        intro j
        rw [List.getElem?_modify]
        cases hj : st.fleet[j]? with
        | none => rfl
        | some d =>
            by_cases hij : i = j
            · subst hij
              have hsite := he d hj
              simp [← hsite]
            · simp [hij]
      simp only [State.step, hsame]
      exact .idle
  | drop i => exact .drop i
  | lost t =>
      simp only [State.step]
      split
      next h hget =>
        rw [lostStep]
        split
        next hstage => exact .quit t h hget (Or.inr (Or.inr hstage))
        next hstage _ => exact .withdraw t h hget (Or.inr hstage)
        next => exact .idle
      next => exact .idle

/-! ### Sites -/

/-- The handshake of a connection was let in with a token of the site. -/
def AuthenticatedFor (st : State) (c : Tid) (site : GoString) : Prop :=
  ∃ h : Handshake, st.threads[c]? = some (.handshake h) ∧ h.site = site ∧ h.epoch.isSome = true

/-- A connection of the handshake may be in the registry. -/
def Handshake.Registered (h : Handshake) : Prop :=
  h.stage = .registered ∨ h.stage = .stale ∨ h.stage = .live

/-- What every state keeps: a handshake under way has been let in, to a site with a name; what is in a
registry is there for the site it was let in to; and the entries of the fleet have different sites. -/
structure Sound (st : State) : Prop where
  let_in : ∀ (t : Tid) (h : Handshake), st.threads[t]? = some (.handshake h) → h.stage ≠ .greeting → h.stage ≠ .gone →
    h.epoch.isSome = true ∧ validSiteName h.site = true
  held : ∀ (verb : Verb) (site : GoString) (c : Tid), Held st verb site c →
    ∃ h : Handshake, st.threads[c]? = some (.handshake h) ∧ h.verb = verb ∧ h.site = site ∧ h.Registered
  distinct : (st.fleet.map Entry.site).Nodup
  named : ∀ d ∈ st.fleet, validSiteName d.site = true

/-- A handshake moves on, and the registries lose nothing but perhaps connections. -/
theorem Sound.move (hs : Sound st) (hget : st.threads[t]? = some (.handshake h))
    (hthreads : st'.threads = st.threads.set t (.handshake h'))
    (hverb : h'.verb = h.verb) (hsite : h'.site = h.site)
    (hletIn : h'.stage ≠ .greeting → h'.stage ≠ .gone →
      h'.epoch.isSome = true ∧ validSiteName h'.site = true)
    (hheld : ∀ verb site c, Held st' verb site c → Held st verb site c ∧
      (c = t → verb = h.verb → site = h.site → h.Registered → h'.Registered))
    (hsites : st'.fleet.map Entry.site = st.fleet.map Entry.site) : Sound st' := by
  refine ⟨fun i hi hgeti hgreeting hgone => ?_, fun verb site c hc => ?_, ?_, fun d hd => ?_⟩
  · rw [hthreads] at hgeti
    by_cases hit : i = t
    · subst hit
      rw [Run.getElem?_set_self' hget] at hgeti
      obtain rfl : h' = hi := by simpa using hgeti
      exact hletIn hgreeting hgone
    · rw [List.getElem?_set_ne (Ne.symm hit)] at hgeti
      exact hs.let_in i hi hgeti hgreeting hgone
  · obtain ⟨hbefore, hmine⟩ := hheld verb site c hc
    obtain ⟨hc, hgetc, hverbc, hsitec, hregistered⟩ := hs.held verb site c hbefore
    rw [hthreads]
    by_cases hct : c = t
    · subst hct
      obtain rfl : h = hc := by simpa using hget.symm.trans hgetc
      exact ⟨h', Run.getElem?_set_self' hget, hverb.trans hverbc, hsite.trans hsitec,
        hmine rfl hverbc.symm hsitec.symm hregistered⟩
    · exact ⟨hc, by rw [List.getElem?_set_ne (Ne.symm hct), hgetc], hverbc, hsitec, hregistered⟩
  · rw [hsites]
    exact hs.distinct
  · have hmem : d.site ∈ st.fleet.map Entry.site := hsites ▸ List.mem_map_of_mem hd
    obtain ⟨d', hd', hsame⟩ := List.mem_map.mp hmem
    rw [← hsame]
    exact hs.named d' hd'

/-- A revoke or a mint moves on. -/
theorem Sound.advance (hs : Sound st) {op : AdminOp} {stage stage' : AdminStage}
    (hget : st.threads[t]? = some (.admin op stage))
    (hthreads : st'.threads = st.threads.set t (.admin op stage'))
    (hheld : ∀ verb site c, Held st' verb site c → Held st verb site c)
    (hsites : st'.fleet.map Entry.site = st.fleet.map Entry.site) : Sound st' := by
  have hother : ∀ (i : Tid) (hi : Handshake), st'.threads[i]? = some (.handshake hi) ↔ st.threads[i]? = some (.handshake hi) := by
    intro i hi
    rw [hthreads]
    by_cases hit : i = t
    · subst hit
      rw [Run.getElem?_set_self' hget, hget]
      simp
    · rw [List.getElem?_set_ne (Ne.symm hit)]
  refine ⟨fun i hi hgeti => ?_, fun verb site c hc => ?_, ?_, fun d hd => ?_⟩
  · exact hs.let_in i hi ((hother i hi).mp hgeti)
  · obtain ⟨hc', hgetc, hrest⟩ := hs.held verb site c (hheld verb site c hc)
    exact ⟨hc', (hother c hc').mpr hgetc, hrest⟩
  · rw [hsites]
    exact hs.distinct
  · have hmem : d.site ∈ st.fleet.map Entry.site := hsites ▸ List.mem_map_of_mem hd
    obtain ⟨d', hd', hsame⟩ := List.mem_map.mp hmem
    rw [← hsame]
    exact hs.named d' hd'

theorem Sound.spawn (hs : Sound st) {thread : Thread}
    (hfresh : ∀ h, thread = .handshake h → h.stage = .greeting) : Sound (st.spawn thread) := by
  have hheld : ∀ verb site c, Held (st.spawn thread) verb site c ↔ Held st verb site c :=
    fun verb site c => held_congr rfl rfl
  refine ⟨fun i hi hgeti hgreeting hgone => ?_, fun verb site c hc => ?_, hs.distinct, hs.named⟩
  · rw [State.spawn, List.getElem?_append] at hgeti
    split at hgeti
    · exact hs.let_in i hi hgeti hgreeting hgone
    · have hlast := List.mem_of_getElem? hgeti
      exact absurd (hfresh hi (List.mem_singleton.mp hlast).symm) hgreeting
  · obtain ⟨h, hgetc, hrest⟩ := hs.held verb site c ((hheld verb site c).mp hc)
    obtain ⟨hlt, -⟩ := List.getElem?_eq_some_iff.mp hgetc
    exact ⟨h, by rw [State.spawn, List.getElem?_append_left hlt, hgetc], hrest⟩

theorem Sound.install (hs : Sound st) (hget : st.threads[t]? = some (.handshake h))
    (hstage : h.stage = .checked) :
    Sound (((st.install t h).setLock h.verb none).goto t h .registered) := by
  obtain ⟨hepoch, hvalid⟩ := hs.let_in t h hget (by simp [hstage]) (by simp [hstage])
  have hheld : ∀ verb site c,
      Held (((st.install t h).setLock h.verb none).goto t h .registered) verb site c →
        Held st verb site c ∨ verb = h.verb ∧ site = h.site ∧ c = t :=
    fun verb site c hc => held_install ((held_congr rfl rfl).mp hc)
  have hthreads : (((st.install t h).setLock h.verb none).goto t h .registered).threads =
      st.threads.set t (.handshake { h with stage := .registered }) := by
    simp only [State.goto, State.setLock, State.install]
    split <;> rfl
  have hfleet : (((st.install t h).setLock h.verb none).goto t h .registered).fleet =
      if h.verb = .hello then adopt h.site t st.fleet else st.fleet := by
    simp only [State.goto, State.setLock, State.install]
    split
    next hverb => rw [if_pos hverb]
    next hverb => rw [if_neg (by simp [hverb])]
  refine ⟨fun i hi hgeti hgreeting hgone => ?_, fun verb site c hc => ?_, ?_, fun d hd => ?_⟩
  · rw [hthreads] at hgeti
    by_cases hit : i = t
    · subst hit
      rw [Run.getElem?_set_self' hget] at hgeti
      obtain rfl := Thread.handshake.inj (Option.some.inj hgeti)
      exact ⟨hepoch, hvalid⟩
    · rw [List.getElem?_set_ne (Ne.symm hit)] at hgeti
      exact hs.let_in i hi hgeti hgreeting hgone
  · rw [hthreads]
    obtain hbefore | ⟨rfl, rfl, rfl⟩ := hheld verb site c hc
    · obtain ⟨hc', hgetc, hverbc, hsitec, hregistered⟩ := hs.held verb site c hbefore
      have hct : c ≠ t := by
        rintro rfl
        obtain rfl : h = hc' := by simpa using hget.symm.trans hgetc
        simp [Handshake.Registered, hstage] at hregistered
      exact ⟨hc', by rw [List.getElem?_set_ne (Ne.symm hct), hgetc], hverbc, hsitec, hregistered⟩
    · exact ⟨_, Run.getElem?_set_self' hget, rfl, rfl, Or.inl rfl⟩
  · rw [hfleet]
    split
    · obtain hsame | ⟨hnew, hlast⟩ := sites_adopt h.site t st.fleet
      · rw [hsame]
        exact hs.distinct
      · rw [hlast]
        exact List.nodup_append.mpr ⟨hs.distinct, by simp, by
          rintro a ha b hb rfl
          exact hnew (List.mem_singleton.mp hb ▸ ha)⟩
    · exact hs.distinct
  · rw [hfleet] at hd
    split at hd
    · obtain hmem | ⟨hsite, -⟩ := mem_adopt hd
      · exact hs.named d hmem
      · rw [hsite]
        exact hvalid
    · exact hs.named d hd

theorem sites_detach (site : GoString) (t : Tid) (fleet : List Entry) :
    (detach site t fleet).map Entry.site = fleet.map Entry.site := by
  rw [detach, List.map_map]
  apply List.map_congr_left
  intro d _
  rw [Function.comp_apply]
  split <;> rfl

theorem sites_withdraw (st : State) (t : Tid) (h : Handshake) :
    (st.withdraw t h).fleet.map Entry.site = st.fleet.map Entry.site := by
  rw [State.withdraw]
  split
  · exact sites_detach h.site t st.fleet
  · rfl

theorem sites_sweep (st : State) (site : GoString) :
    (st.sweep site).fleet.map Entry.site = st.fleet.map Entry.site := by
  rw [State.sweep, List.map_map]
  apply List.map_congr_left
  intro d _
  rw [Function.comp_apply]
  split <;> rfl

theorem threads_withdraw (st : State) (t : Tid) (h : Handshake) :
    (st.withdraw t h).threads = st.threads := by
  rw [State.withdraw]
  split <;> rfl

theorem mem_drop {i : Nat} {d : Entry} {fleet : List Entry}
    (hd : d ∈ fleet.modify i fun d => { d with conn := none }) :
    ∃ d' ∈ fleet, d'.site = d.site ∧ (d.conn = d'.conn ∨ d.conn = none) := by
  obtain ⟨j, hj⟩ := List.mem_iff_getElem?.mp hd
  rw [List.getElem?_modify] at hj
  obtain ⟨d', hd', rfl⟩ := Option.map_eq_some_iff.mp hj
  refine ⟨d', List.mem_of_getElem? hd', ?_⟩
  by_cases hij : i = j
  · simp [hij]
  · simp [hij]

theorem Sound.drop (hs : Sound st) (i : Nat) :
    Sound { st with
      fleet := st.fleet.modify i fun d => { d with conn := none }
      closed := (st.fleet[i]?.bind Entry.conn).toList ++ st.closed } := by
  have hsites : (st.fleet.modify i fun d => { d with conn := none }).map Entry.site =
      st.fleet.map Entry.site := by
    apply List.ext_getElem?
    intro j
    rw [List.getElem?_map, List.getElem?_map, List.getElem?_modify]
    cases st.fleet[j]? with
    | none => rfl
    | some d => by_cases hij : i = j <;> simp [hij]
  refine ⟨hs.let_in, fun verb site c hc => ?_, ?_, fun d hd => ?_⟩
  · cases verb with
    | hello =>
        obtain ⟨d, hd, hsite, hconn⟩ := hc
        obtain ⟨d', hmem, hsame, hkept | hnone⟩ := mem_drop hd
        · exact hs.held .hello site c ⟨d', hmem, hsame.trans hsite, hkept.symm.trans hconn⟩
        · rw [hnone] at hconn
          exact absurd hconn (by simp)
    | alerter => exact hs.held .alerter site c hc
  · exact hsites ▸ hs.distinct
  · obtain ⟨d', hmem, hsame, -⟩ := mem_drop hd
    rw [← hsame]
    exact hs.named d' hmem

/-- A handshake that is not yet in the registry, or not any more, moves on. -/
theorem Sound.goto (hs : Sound st) (hget : st.threads[t]? = some (.handshake h))
    (hthreads : st'.threads = st.threads.set t (.handshake h'))
    (hfleet : st'.fleet = st.fleet) (halerters : st'.alerters = st.alerters)
    (hverb : h'.verb = h.verb) (hsite : h'.site = h.site)
    (hletIn : h'.stage ≠ .greeting → h'.stage ≠ .gone →
      h'.epoch.isSome = true ∧ validSiteName h'.site = true)
    (hstage : h.Registered → h'.Registered) : Sound st' := by
  refine hs.move hget hthreads hverb hsite hletIn (fun verb site c hc => ?_) (by rw [hfleet])
  exact ⟨(held_congr hfleet halerters).mp hc, fun _ _ _ => hstage⟩

theorem sound_step (hs : Sound st) (hstep : Step sha asks st st') : Sound st' := by
  cases hstep with
  | idle => exact hs
  | greet h hstage hepoch => exact hs.spawn fun h' heq => Thread.handshake.inj heq ▸ hstage
  | ask op hop => exact hs.spawn (by simp)
  | quit t h hget hstage =>
      refine hs.goto hget rfl rfl rfl rfl rfl (fun _ hgone => absurd rfl hgone) fun hregistered => ?_
      rcases hstage with hstage | hstage | hstage <;> simp [Handshake.Registered, hstage] at hregistered
  | auth t h now works store credId hget hstage hvalid hcheck =>
      refine hs.goto hget rfl rfl rfl rfl rfl (fun _ _ => ⟨rfl, hvalid⟩) fun hregistered => ?_
      simp [Handshake.Registered, hstage] at hregistered
  | claim t h works hget hstage =>
      refine hs.goto hget rfl rfl rfl rfl rfl (fun _ _ => ?_) fun hregistered => ?_
      · exact hs.let_in t h hget (by simp [hstage]) (by simp [hstage])
      · simp [Handshake.Registered, hstage] at hregistered
  | lock t h hget hstage hfree =>
      refine hs.goto hget rfl rfl rfl rfl rfl (fun _ _ => ?_) fun hregistered => ?_
      · exact hs.let_in t h hget (by simp [hstage]) (by simp [hstage])
      · simp [Handshake.Registered, hstage] at hregistered
  | check t h hget hstage hcurrent =>
      refine hs.goto hget rfl rfl rfl rfl rfl (fun _ _ => ?_) fun hregistered => ?_
      · exact hs.let_in t h hget (by simp [hstage]) (by simp [hstage])
      · simp [Handshake.Registered, hstage] at hregistered
  | refuse t h hget hstage =>
      refine hs.goto hget rfl rfl rfl rfl rfl (fun _ hgone => absurd rfl hgone) fun hregistered => ?_
      simp [Handshake.Registered, hstage] at hregistered
  | install t h hget hstage => exact hs.install hget hstage
  | settle t h hget hstage hcurrent =>
      refine hs.goto hget rfl rfl rfl rfl rfl (fun _ _ => ?_) fun _ => Or.inr (Or.inr rfl)
      exact hs.let_in t h hget (by simp [hstage]) (by simp [hstage])
  | expire t h hget hstage =>
      refine hs.goto hget rfl rfl rfl rfl rfl (fun _ _ => ?_) fun _ => Or.inr (Or.inl rfl)
      exact hs.let_in t h hget (by simp [hstage]) (by simp [hstage])
  | withdraw t h hget hstage =>
      have hthreads : ((st.withdraw t h).hangUp t h).threads =
          st.threads.set t (.handshake { h with stage := .gone }) := by
        rw [State.hangUp, State.goto, threads_withdraw]
      refine hs.move hget hthreads rfl rfl (fun _ hgone => absurd rfl hgone) (fun verb site c hc => ?_) ?_
      · obtain ⟨hbefore, hother⟩ := held_withdraw ((held_congr rfl rfl).mp hc)
        exact ⟨hbefore, fun hct hverb hsite => absurd ⟨hverb, hsite, hct⟩ hother⟩
      · exact sites_withdraw st t h
  | giveUp t op hget => exact hs.advance hget rfl (fun verb site c hc => (held_congr rfl rfl).mp hc) rfl
  | revoke t site works store hget hrevoke =>
      exact hs.advance hget rfl (fun verb site c hc => (held_congr rfl rfl).mp hc) rfl
  | mint t site label kind replace draw works store token hget hmint =>
      exact hs.advance hget rfl (fun verb site c hc => (held_congr rfl rfl).mp hc) rfl
  | sweep t op hget hfree =>
      refine hs.advance hget rfl (fun verb site c hc => ?_) (sites_sweep st op.site)
      exact (held_sweep ((held_congr rfl rfl).mp hc)).1
  | lookup t op hget => exact hs.advance hget rfl (fun verb site c hc => (held_congr rfl rfl).mp hc) rfl
  | disconnect t op hget =>
      refine hs.advance hget rfl (fun verb site c hc => ?_) rfl
      have hcut : Held (st.disconnect op.site) verb site c := (held_congr rfl rfl).mp hc
      exact (held_disconnect hcut).1
  | drop i => exact hs.drop i

theorem sound_start (store : Store) : Sound (State.start store) := by
  refine ⟨fun t h hget => absurd hget (by simp [State.start]), fun verb site c hc => ?_, List.nodup_nil,
    fun d hd => absurd hd List.not_mem_nil⟩
  cases verb with
  | hello =>
      obtain ⟨d, hd, -⟩ := hc
      exact absurd hd List.not_mem_nil
  | alerter =>
      obtain ⟨a, ha, -⟩ := hc
      exact absurd ha (by simp [State.start])

/-- `daemonFor`. -/
def daemonFor (st : State) (site : GoString) : Option Entry :=
  st.fleet.find? fun d => d.site = site || (d.site = [] && site = ascii "local")

/-- The connections that `DisconnectSite` closes in the fleet. -/
def sweptConns (st : State) (site : GoString) : List Tid :=
  (st.fleet.filter fun d => d.site = site).filterMap Entry.conn

/-- Whose site an entry has is settled by the handshake of its connection, and by nothing else. -/
structure SiteFollows (st : State) : Prop where
  entries : ∀ d ∈ st.fleet, ∀ c, d.conn = some c → AuthenticatedFor st c d.site
  distinct : (st.fleet.map Entry.site).Nodup
  delivery : ∀ site d, daemonFor st site = some d → ∀ c, d.conn = some c → AuthenticatedFor st c site
  disconnected : ∀ site, ∀ c ∈ sweptConns st site, AuthenticatedFor st c site

theorem Sound.siteFollows (hs : Sound st) : SiteFollows st := by
  have hentries : ∀ d ∈ st.fleet, ∀ c, d.conn = some c → AuthenticatedFor st c d.site := by
    intro d hd c hconn
    obtain ⟨h, hget, -, hsite, hregistered⟩ := hs.held .hello d.site c ⟨d, hd, rfl, hconn⟩
    obtain ⟨hepoch, -⟩ := hs.let_in c h hget
      (by rcases hregistered with hstage | hstage | hstage <;> simp [hstage])
      (by rcases hregistered with hstage | hstage | hstage <;> simp [hstage])
    exact ⟨h, hget, hsite, hepoch⟩
  refine ⟨hentries, hs.distinct, fun site d hfound c hconn => ?_, fun site c hc => ?_⟩
  · have hd := List.mem_of_find?_eq_some hfound
    have hmatch := List.find?_some hfound
    have hnamed : d.site ≠ [] := by
      intro hnil
      have := hs.named d hd
      rw [hnil] at this
      exact absurd this (by decide)
    have hsite : d.site = site := by simpa [hnamed] using hmatch
    exact hsite ▸ hentries d hd c hconn
  · obtain ⟨d, hd, hconn⟩ := List.mem_filterMap.mp hc
    obtain ⟨hmem, hsite⟩ := List.mem_filter.mp hd
    exact of_decide_eq_true hsite ▸ hentries d hmem c hconn

/-- In a run whose polls are all told the site of the entry they poll, every entry has the site that
its connection was let in to, in every state. -/
theorem siteFollows_run (sha : List UInt8 → Digest) (store : Store) (events : List Event)
    (hhonest : Run.Guarded (State.step sha) Honest (State.start store) events) :
    Run.Always (State.step sha) SiteFollows (State.start store) events := by
  intro pre hpre
  have hstep : ∀ st e, Sound st → Honest st e → Sound (st.step sha e) := by
    intro st e hs he
    have hnext : Step sha (fun _ => True) st (st.step sha e) := step_of_honest he fun _ _ => trivial
    exact sound_step hs hnext
  have hsound := Run.always_of_guarded hstep (sound_start store) hhonest
  exact (hsound pre hpre).siteFollows

/-! ### Two boxes -/

/-- A hash for short strings: the string itself, filled up. -/
def padded (s : GoString) : Digest := ⟨(s ++ List.replicate 32 0).take 32, by simp⟩

/-- A token is minted for a site, in two steps of the thread `t`. -/
def mintFor (t : Tid) (site : GoString) (raw : UInt8) : List Event :=
  [.ask (.mint site [] kindSysmond false ⟨[raw], [raw], 1⟩), .run t 1 true]

/-- A box dials in with its token, and its handshake `t` runs to the end. -/
def dialIn (t : Tid) (site : GoString) (raw : UInt8) : List Event :=
  .greet .hello site (hexString [raw]) [] :: List.replicate 6 (.run t 1 true)

/-- The boxes `a` and `b` are connected, and the poll of the first is answered. -/
def polled (answer : GoString) : List Event :=
  mintFor 0 [97] 1 ++ mintFor 1 [98] 2 ++ dialIn 2 [97] 1 ++ dialIn 3 [98] 2 ++ [.poll 0 answer]

instance (st : State) (e : Event) : Decidable (Honest st e) :=
  match e with
  | .poll i answer => inferInstanceAs (Decidable (∀ d ∈ st.fleet[i]?, d.site = answer))
  | .greet .. | .ask _ | .run .. | .drop _ | .lost _ => isTrue trivial

theorem siteFollows_polled :
    Run.Guarded (State.step padded) Honest (State.start emptyStore) (polled [97]) ∧
      Run.Always (State.step padded) SiteFollows (State.start emptyStore) (polled [97]) := by
  have hhonest : Run.Guarded (State.step padded) Honest (State.start emptyStore) (polled [97]) := by
    decide
  exact ⟨hhonest, siteFollows_run padded emptyStore (polled [97]) hhonest⟩

/-- A box that calls itself by the other's name gets its entry: two entries have one site, and what is
meant for `b` goes to the box with the token of `a`. -/
theorem site_taken_over :
    (Run.exec (State.step padded) (State.start emptyStore) (polled [98])).fleet =
        [⟨[98], some 2⟩, ⟨[98], some 3⟩] ∧
      ¬Run.Always (State.step padded) SiteFollows (State.start emptyStore) (polled [98]) := by
  have hfleet : (Run.exec (State.step padded) (State.start emptyStore) (polled [98])).fleet =
      [⟨[98], some 2⟩, ⟨[98], some 3⟩] := by decide
  refine ⟨hfleet, fun halways => ?_⟩
  have hdistinct := (halways _ (List.prefix_refl _)).distinct
  rw [hfleet] at hdistinct
  exact absurd hdistinct (by decide)

end Sysmon.Agents
