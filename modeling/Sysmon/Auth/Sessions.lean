import Sysmon.Agents.Tokens
import Sysmon.Lib.GoMap
import Sysmon.Lib.Run

/-!
# Local accounts and their sessions

The database has a bucket of users and one of sessions, and each operation is a few transactions on
them. A login reads the user and compares the password, writes down the time, and stores a session; a
validation reads the session and extends it; the rest are one transaction each, and a change of a user
takes the user's sessions along. One event is one transaction of one call, with the computation that
leads to the next one. The sessions here are those of local users, without a grant.
-/

namespace Sysmon.Auth

open Fleet (ascii)
open Agents (GoString)

/-! ### The database -/

abbrev Bucket (α : Type) := AList fun _ : GoString => α

structure User where
  passHash : GoString
  role : GoString
  createdAt : Int
  lastLogin : Option Int
  deriving DecidableEq, Repr

/-- What `ExpiresAt` says. -/
inductive Stamp where
  | missing
  /-- A text that is not a time. -/
  | unreadable
  | at (time : Int)
  deriving DecidableEq, Repr

/-- It is a time, and it is still to come. -/
def Stamp.isAfter (stamp : Stamp) (now : Int) : Bool :=
  match stamp with
  | .at time => now < time
  | _ => false

structure Session where
  token : GoString
  username : GoString
  role : GoString
  createdAt : Int
  expiresAt : Stamp
  deriving DecidableEq, Repr

structure Db where
  users : Bucket User
  sessions : Bucket Session

def roleAdmin : GoString := ascii "admin"

def roleUser : GoString := ascii "user"

/-- A second, in the nanoseconds times are counted in. -/
def second : Int := 1000000000

def sessionIdleTTL : Int := 30 * 24 * 3600 * second

def sessionExtendStep : Int := 24 * 3600 * second

/-- `Format(time.RFC3339)`: the time without its fraction of a second. -/
def format (time : Int) : Int := time / second * second

/-- Of `golang.org/x/crypto/bcrypt`; what is drawn for a hash is an argument. -/
structure Bcrypt where
  generate : GoString → GoString → Option GoString
  compare : GoString → GoString → Bool

/-- The sessions of the user are deleted. -/
def Db.revoke (db : Db) (username : GoString) : Db :=
  { db with sessions := GoMap.keep (fun session => session.username ≠ username) db.sessions }

/-- The transaction of `CreateUser`; `none` is an error, that rolls it back. -/
def createUser (db : Db) (username hash role : GoString) (now : Int) : Option Db :=
  if username ∈ db.users then none
  else some { db with users := db.users.insert username ⟨hash, role, format now, none⟩ }

/-- The transaction of `DeleteUser`. -/
def deleteUser (db : Db) (username : GoString) : Option Db :=
  if username ∈ db.users then some (Db.revoke { db with users := db.users.erase username } username)
  else none

/-- The transaction of `ChangePassword`. -/
def changePassword (db : Db) (username hash : GoString) : Option Db :=
  (db.users.lookup username).map fun u =>
    Db.revoke { db with users := db.users.insert username { u with passHash := hash } } username

/-- The transaction of `ChangeRole`. -/
def changeRole (db : Db) (username role : GoString) : Option Db :=
  (db.users.lookup username).map fun u =>
    Db.revoke { db with users := db.users.insert username { u with role := role } } username

/-- The second transaction of `Login`. -/
def stampLogin (db : Db) (username : GoString) (now : Int) : Db :=
  match db.users.lookup username with
  | none => db
  | some u => { db with users := db.users.insert username { u with lastLogin := some (format now) } }

/-- The session that a login stores. -/
def newSession (token username : GoString) (user : User) (now : Int) : Session where
  token := token
  username := username
  role := user.role
  createdAt := format now
  expiresAt := .at (format (now + sessionIdleTTL))

def Db.putSession (db : Db) (token : GoString) (session : Session) : Db :=
  { db with sessions := db.sessions.insert token session }

/-- The transaction of `Logout`. -/
def logout (db : Db) (token : GoString) : Db := { db with sessions := db.sessions.erase token }

/-- The end of a validation: the session is over, extended if it is there still, or left as it is. -/
def finishValidation (db : Db) (oidc : Bool) (token : GoString) (session : Session) (now : Int) : Db :=
  let extend := if token ∈ db.sessions then
    db.putSession token { session with expiresAt := .at (format (now + sessionIdleTTL)) } else db
  if oidc then logout db token
  else
    match session.expiresAt with
    | .at expires =>
        if expires < now then logout db token
        else if now + sessionIdleTTL - expires < sessionExtendStep then db
        else extend
    | _ => extend

/-! ### Calls under way -/

/-- Where a call is that has more than one transaction. -/
inductive Call where
  | idle
  /-- A login whose password is the one of the user that was read. -/
  | checked (username password : GoString) (user : User)
  | stamped (username password : GoString) (user : User)
  /-- A validation that has read its session. -/
  | found (token : GoString) (session : Session)
  deriving DecidableEq, Repr

/-- A login that has stored its session: the password and the hash it was compared with. -/
structure Login where
  token : GoString
  username : GoString
  password : GoString
  hash : GoString
  deriving DecidableEq, Repr

structure State where
  db : Db
  calls : Nat → Call
  /-- How many tokens have been drawn. -/
  drawn : Nat
  logins : List Login

def State.goto (st : State) (t : Nat) (call : Call) : State :=
  { st with calls := Function.update st.calls t call }

/-- A transaction that is not committed leaves the database as it is. -/
def State.commit (st : State) (ok : Bool) (db : Option Db) : State :=
  if ok then { st with db := db.getD st.db } else st

/-- One transaction of a call; the flag says whether it is committed. -/
inductive Event where
  | readUser (t : Nat) (username password : GoString)
  | stampLogin (t : Nat) (now : Int) (ok : Bool)
  | storeSession (t : Nat) (now : Int) (ok : Bool)
  | readSession (t : Nat) (token : GoString)
  | finishValidation (t : Nat) (now : Int) (ok : Bool)
  | logout (token : GoString) (ok : Bool)
  | changePassword (username password salt : GoString) (ok : Bool)
  | changeRole (username role : GoString) (ok : Bool)
  | createUser (username password role salt : GoString) (now : Int) (ok : Bool)
  | deleteUser (username : GoString) (ok : Bool)
  deriving DecidableEq, Repr

section Step

variable (bcrypt : Bcrypt) (draw : Nat → GoString) (oidc : Bool)

def State.step (st : State) : Event → State
  | .readUser t username password =>
      match st.calls t, st.db.users.lookup username with
      | .idle, some user =>
          if !oidc && bcrypt.compare user.passHash password then st.goto t (.checked username password user)
          else st
      | _, _ => st
  | .stampLogin t now ok =>
      match st.calls t with
      | .checked username password user =>
          (st.commit ok (some (Auth.stampLogin st.db username now))).goto t (.stamped username password user)
      | _ => st
  | .storeSession t now ok =>
      match st.calls t with
      | .stamped username password user =>
          let token := draw st.drawn
          let st' := st.commit ok (some (st.db.putSession token (newSession token username user now)))
          { st'.goto t .idle with
            drawn := st.drawn + 1
            logins := ⟨token, username, password, user.passHash⟩ :: st.logins }
      | _ => st
  | .readSession t token =>
      match st.calls t, st.db.sessions.lookup token with
      | .idle, some session =>
          if token = [] ∨ session.token = [] then st else st.goto t (.found token session)
      | _, _ => st
  | .finishValidation t now ok =>
      match st.calls t with
      | .found token session =>
          (st.commit ok (some (Auth.finishValidation st.db oidc token session now))).goto t .idle
      | _ => st
  | .logout token ok => st.commit ok (some (Auth.logout st.db token))
  | .changePassword username password salt ok =>
      st.commit ok ((bcrypt.generate password salt).bind (Auth.changePassword st.db username))
  | .changeRole username role ok =>
      if role ≠ roleAdmin ∧ role ≠ roleUser then st else st.commit ok (Auth.changeRole st.db username role)
  | .createUser username password role salt now ok =>
      if username = [] ∨ password = [] ∨ role ≠ roleAdmin ∧ role ≠ roleUser then st
      else st.commit ok
        ((bcrypt.generate password salt).bind fun hash => Auth.createUser st.db username hash role now)
  | .deleteUser username ok => st.commit ok (Auth.deleteUser st.db username)

end Step

/-! ### What a transaction does -/

variable {db db' : Db} {username token : GoString} {session : Session}

/-- Sessions go and are extended, none comes; the user of one that stays keeps its hash and its role. -/
def Shrinks (db db' : Db) : Prop :=
  ∀ token session', db'.sessions.lookup token = some session' →
    ∃ session, db.sessions.lookup token = some session ∧
      session'.username = session.username ∧ session'.role = session.role ∧
      ∀ user, db.users.lookup session.username = some user →
        ∃ user', db'.users.lookup session.username = some user' ∧
          user'.passHash = user.passHash ∧ user'.role = user.role

theorem Shrinks.refl (db : Db) : Shrinks db db :=
  fun _ session' h => ⟨session', h, rfl, rfl, fun user huser => ⟨user, huser, rfl, rfl⟩⟩

/-- What happens to one user does not matter when all sessions of the user go. -/
theorem shrinks_revoke {users : Bucket User}
    (hothers : ∀ name, name ≠ username → users.lookup name = db.users.lookup name) :
    Shrinks db (Db.revoke { db with users := users } username) := by
  intro token session' h
  rw [Db.revoke, GoMap.lookup_keep, Option.filter_eq_some_iff] at h
  obtain ⟨hsession, htest⟩ := h
  have hne : session'.username ≠ username := of_decide_eq_true htest
  refine ⟨session', hsession, rfl, rfl, fun user huser => ⟨user, ?_, rfl, rfl⟩⟩
  exact (hothers _ hne).trans huser

/-- A user that is written with the same hash and role as before, or that was not there. -/
theorem shrinks_insert {user' : User}
    (hsame : ∀ user, db.users.lookup username = some user →
      user'.passHash = user.passHash ∧ user'.role = user.role) :
    Shrinks db { db with users := db.users.insert username user' } := by
  intro token session' h
  refine ⟨session', h, rfl, rfl, fun user huser => ?_⟩
  by_cases hname : session'.username = username
  · rw [hname] at huser ⊢
    exact ⟨user', AList.lookup_insert _, hsame user huser⟩
  · exact ⟨user, (AList.lookup_insert_ne hname).trans huser, rfl, rfl⟩

theorem shrinks_deleteUser (h : deleteUser db username = some db') : Shrinks db db' := by
  rw [deleteUser] at h
  split at h
  next =>
    obtain rfl := Option.some.inj h
    exact shrinks_revoke fun name hne => AList.lookup_erase_ne hne
  next => exact absurd h (by simp)

theorem shrinks_changePassword {hash : GoString} (h : changePassword db username hash = some db') :
    Shrinks db db' := by
  obtain ⟨u, -, rfl⟩ := Option.map_eq_some_iff.mp h
  exact shrinks_revoke fun name hne => AList.lookup_insert_ne hne

theorem shrinks_changeRole {role : GoString} (h : changeRole db username role = some db') :
    Shrinks db db' := by
  obtain ⟨u, -, rfl⟩ := Option.map_eq_some_iff.mp h
  exact shrinks_revoke fun name hne => AList.lookup_insert_ne hne

theorem shrinks_createUser {hash role : GoString} {now : Int}
    (h : createUser db username hash role now = some db') : Shrinks db db' := by
  rw [createUser] at h
  split at h
  next => exact absurd h (by simp)
  next hnew =>
    obtain rfl := Option.some.inj h
    refine shrinks_insert fun user huser => absurd ?_ hnew
    exact GoMap.mem_iff_lookup.mpr ⟨user, huser⟩

theorem shrinks_stampLogin (db : Db) (username : GoString) (now : Int) :
    Shrinks db (stampLogin db username now) := by
  rw [stampLogin]
  split
  next => exact Shrinks.refl db
  next u hu =>
    refine shrinks_insert fun user huser => ?_
    obtain rfl := Option.some.inj (hu.symm.trans huser)
    exact ⟨rfl, rfl⟩

theorem shrinks_logout (db : Db) (token : GoString) : Shrinks db (logout db token) := by
  intro other session' h
  by_cases hother : other = token
  · subst hother
    exact absurd h (by simp [logout])
  · rw [logout, AList.lookup_erase_ne hother] at h
    exact Shrinks.refl db other session' h

/-- A session that is there is written again, with its user and role. -/
theorem shrinks_putSession {old : Session} (hold : db.sessions.lookup token = some old)
    (husername : session.username = old.username) (hrole : session.role = old.role) :
    Shrinks db (db.putSession token session) := by
  intro other session' h
  by_cases hother : other = token
  · subst hother
    rw [Db.putSession, AList.lookup_insert] at h
    obtain rfl := Option.some.inj h
    exact ⟨old, hold, husername, hrole, fun user huser => ⟨user, huser, rfl, rfl⟩⟩
  · rw [Db.putSession, AList.lookup_insert_ne hother] at h
    exact Shrinks.refl db other session' h

theorem shrinks_finishValidation (oidc : Bool) (now : Int)
    (hread : ∀ old, db.sessions.lookup token = some old →
      session.username = old.username ∧ session.role = old.role) :
    Shrinks db (finishValidation db oidc token session now) := by
  have hextend : Shrinks db (if token ∈ db.sessions then
      db.putSession token { session with expiresAt := .at (format (now + sessionIdleTTL)) } else db) := by
    split
    next hmem =>
      obtain ⟨old, hold⟩ := GoMap.mem_iff_lookup.mp hmem
      exact shrinks_putSession hold (hread old hold).1 (hread old hold).2
    next => exact Shrinks.refl db
  rw [finishValidation]
  split
  · exact shrinks_logout db token
  · split
    · split
      · exact shrinks_logout db token
      · split
        · exact Shrinks.refl db
        · exact hextend
    · exact hextend

/-! ### Steps -/

section Run

variable {bcrypt : Bcrypt} {draw : Nat → GoString} {oidc : Bool} {st : State} {e : Event}

/-- A token that has been drawn. -/
def State.Drawn (draw : Nat → GoString) (st : State) (token : GoString) : Prop :=
  ∃ i < st.drawn, draw i = token

/-- What a call has read still says who a session belongs to. -/
def Call.Sound (bcrypt : Bcrypt) (draw : Nat → GoString) (st : State) : Call → Prop
  | .idle => True
  | .checked _ password user | .stamped _ password user => bcrypt.compare user.passHash password = true
  | .found token session => st.Drawn draw token ∧ ∀ old, st.db.sessions.lookup token = some old →
      session.username = old.username ∧ session.role = old.role

/-- What holds in every state, whatever the order of the calls. -/
structure State.Sound (bcrypt : Bcrypt) (draw : Nat → GoString) (st : State) : Prop where
  stored : ∀ token ∈ st.db.sessions, st.Drawn draw token
  logged : ∀ login ∈ st.logins, st.Drawn draw login.token ∧ bcrypt.compare login.hash login.password = true
  calls : ∀ t, (st.calls t).Sound bcrypt draw st

/-- Every session is of an existing user, has the role of that user, and comes from a login whose
password was compared with the hash the user has. -/
def Lawful (bcrypt : Bcrypt) (st : State) : Prop :=
  ∀ token session, st.db.sessions.lookup token = some session →
    ∃ user, st.db.users.lookup session.username = some user ∧ session.role = user.role ∧
      ∃ login ∈ st.logins, login.token = token ∧ login.username = session.username ∧
        bcrypt.compare login.hash login.password = true ∧ login.hash = user.passHash

theorem shrinks_commit (ok : Bool) (new : Option Db) (h : ∀ db', new = some db' → Shrinks st.db db') :
    ∃ db', st.commit ok new = { st with db := db' } ∧ Shrinks st.db db' := by
  rw [State.commit]
  cases ok with
  | false => exact ⟨st.db, rfl, Shrinks.refl _⟩
  | true =>
      cases new with
      | none => exact ⟨st.db, rfl, Shrinks.refl _⟩
      | some db' => exact ⟨db', rfl, h db' rfl⟩

/-- A step other than the last one of a login takes sessions away and moves one call on; the last one of
a login stores a session under the next token. -/
theorem step_cases (oidc : Bool) (hs : st.Sound bcrypt draw) (e : Event) :
    (∃ t call db', st.step bcrypt draw oidc e = { st.goto t call with db := db' } ∧ Shrinks st.db db' ∧
        call.Sound bcrypt draw st) ∨
      ∃ t now ok username password user, e = .storeSession t now ok ∧
        st.calls t = .stamped username password user ∧
        st.step bcrypt draw oidc e = { st.goto t .idle with
          db := if ok then st.db.putSession (draw st.drawn) (newSession (draw st.drawn) username user now)
            else st.db
          drawn := st.drawn + 1
          logins := ⟨draw st.drawn, username, password, user.passHash⟩ :: st.logins } := by
  -- a transaction of a call that has no other one
  have hsingle : ∀ ok new, st.step bcrypt draw oidc e = st.commit ok new →
      (∀ db', new = some db' → Shrinks st.db db') →
      ∃ t call db', st.step bcrypt draw oidc e = { st.goto t call with db := db' } ∧ Shrinks st.db db' ∧
        call.Sound bcrypt draw st := by
    intro ok new hstep hnew
    obtain ⟨db', heq, hdb⟩ := shrinks_commit ok new hnew
    refine ⟨0, st.calls 0, db', ?_, hdb, hs.calls 0⟩
    rw [hstep, heq, State.goto, Function.update_eq_self]
  have hquiet : st.step bcrypt draw oidc e = st →
      ∃ t call db', st.step bcrypt draw oidc e = { st.goto t call with db := db' } ∧ Shrinks st.db db' ∧
        call.Sound bcrypt draw st := by
    intro hstep
    exact hsingle false none hstep (by simp)
  cases e with
  | readUser t username password =>
      left
      by_cases hok : st.calls t = .idle ∧ ∃ user, st.db.users.lookup username = some user ∧
          (!oidc && bcrypt.compare user.passHash password) = true
      · obtain ⟨hidle, user, huser, htest⟩ := hok
        refine ⟨t, .checked username password user, st.db, ?_, Shrinks.refl _, (Bool.and_eq_true_iff.mp htest).2⟩
        simp only [State.step, hidle, huser, htest, if_true]
        rfl
      · refine hquiet ?_
        rw [State.step]
        split
        next user hidle huser =>
          rw [if_neg fun htest => hok ⟨hidle, user, huser, htest⟩]
        next => rfl
  | stampLogin t now ok =>
      left
      by_cases hchecked : ∃ username password user, st.calls t = .checked username password user
      · obtain ⟨username, password, user, hcall⟩ := hchecked
        obtain ⟨db', heq, hdb⟩ := shrinks_commit ok (some (stampLogin st.db username now))
          fun db' h => Option.some.inj h ▸ shrinks_stampLogin _ _ _
        have hcompare := hs.calls t
        rw [hcall] at hcompare
        refine ⟨t, .stamped username password user, db', ?_, hdb, hcompare⟩
        simp only [State.step, hcall, heq]
        rfl
      · refine hquiet ?_
        rw [State.step]
        split
        next username password user hcall => exact absurd ⟨username, password, user, hcall⟩ hchecked
        next => rfl
  | storeSession t now ok =>
      by_cases hstamped : ∃ username password user, st.calls t = .stamped username password user
      · obtain ⟨username, password, user, hcall⟩ := hstamped
        refine Or.inr ⟨t, now, ok, username, password, user, rfl, hcall, ?_⟩
        simp only [State.step, hcall, State.commit]
        cases ok <;> rfl
      · refine Or.inl (hquiet ?_)
        rw [State.step]
        split
        next username password user hcall => exact absurd ⟨username, password, user, hcall⟩ hstamped
        next => rfl
  | readSession t token =>
      left
      by_cases hok : st.calls t = .idle ∧ ∃ session, st.db.sessions.lookup token = some session ∧
          ¬(token = [] ∨ session.token = [])
      · obtain ⟨hidle, session, hsession, htoken⟩ := hok
        refine ⟨t, .found token session, st.db, ?_, Shrinks.refl _, ?_, fun old hold => ?_⟩
        · simp only [State.step, hidle, hsession, if_neg htoken]
          rfl
        · exact hs.stored token (GoMap.mem_iff_lookup.mpr ⟨session, hsession⟩)
        · obtain rfl := Option.some.inj (hsession.symm.trans hold)
          exact ⟨rfl, rfl⟩
      · refine hquiet ?_
        rw [State.step]
        split
        next session hidle hsession =>
          split
          · rfl
          next htoken => exact absurd ⟨hidle, session, hsession, htoken⟩ hok
        next => rfl
  | finishValidation t now ok =>
      left
      by_cases hfound : ∃ token session, st.calls t = .found token session
      · obtain ⟨token, session, hcall⟩ := hfound
        have hread := hs.calls t
        rw [hcall] at hread
        obtain ⟨db', heq, hdb⟩ := shrinks_commit ok (some (finishValidation st.db oidc token session now))
          fun db' h => Option.some.inj h ▸ shrinks_finishValidation oidc now hread.2
        refine ⟨t, .idle, db', ?_, hdb, trivial⟩
        simp only [State.step, hcall, heq]
        rfl
      · refine hquiet ?_
        rw [State.step]
        split
        next token session hcall => exact absurd ⟨token, session, hcall⟩ hfound
        next => rfl
  | logout token ok => exact Or.inl (hsingle _ _ rfl fun db' h => Option.some.inj h ▸ shrinks_logout _ _)
  | changePassword username password salt ok =>
      refine Or.inl (hsingle _ _ rfl fun db' h => ?_)
      obtain ⟨hash, -, hdb⟩ := Option.bind_eq_some_iff.mp h
      exact shrinks_changePassword hdb
  | changeRole username role ok =>
      left
      by_cases hrole : role ≠ roleAdmin ∧ role ≠ roleUser
      · exact hquiet (if_pos hrole)
      · exact hsingle _ _ (if_neg hrole) fun db' h => shrinks_changeRole h
  | createUser username password role salt now ok =>
      left
      by_cases hrefused : username = [] ∨ password = [] ∨ role ≠ roleAdmin ∧ role ≠ roleUser
      · exact hquiet (if_pos hrefused)
      · refine hsingle _ _ (if_neg hrefused) fun db' h => ?_
        obtain ⟨hash, -, hdb⟩ := Option.bind_eq_some_iff.mp h
        exact shrinks_createUser hdb
  | deleteUser username ok => exact Or.inl (hsingle _ _ rfl fun db' h => shrinks_deleteUser h)

theorem State.Drawn.mono {st' : State} (h : st.Drawn draw token) (hle : st.drawn ≤ st'.drawn) :
    st'.Drawn draw token := by
  obtain ⟨i, hi, heq⟩ := h
  exact ⟨i, lt_of_lt_of_le hi hle, heq⟩

theorem State.Drawn.ne_next (hdraw : Function.Injective draw) (h : st.Drawn draw token) :
    token ≠ draw st.drawn := by
  rintro rfl
  obtain ⟨i, hi, heq⟩ := h
  exact absurd (hdraw heq) (ne_of_lt hi)

theorem State.Sound.stored_lookup (hs : st.Sound bcrypt draw)
    (h : st.db.sessions.lookup token = some session) : st.Drawn draw token :=
  hs.stored token (GoMap.mem_iff_lookup.mpr ⟨session, h⟩)

theorem Call.Sound.shrinks {call : Call} {st' : State} (hcall : call.Sound bcrypt draw st)
    (hdb : Shrinks st.db st'.db) (hdrawn : st'.drawn = st.drawn) : call.Sound bcrypt draw st' := by
  cases call with
  | idle => trivial
  | checked username password user => exact hcall
  | stamped username password user => exact hcall
  | found token session =>
      obtain ⟨htoken, hread⟩ := hcall
      refine ⟨htoken.mono (le_of_eq hdrawn.symm), fun old hold => ?_⟩
      obtain ⟨before, hbefore, husername, hrole, -⟩ := hdb token old hold
      exact ⟨(hread before hbefore).1.trans husername.symm, (hread before hbefore).2.trans hrole.symm⟩

/-- A session that comes has a token that no call has read. -/
theorem Call.Sound.stored {call : Call} {st' : State} (hcall : call.Sound bcrypt draw st)
    (hother : ∀ token, token ≠ draw st.drawn →
      st'.db.sessions.lookup token = st.db.sessions.lookup token)
    (hdraw : Function.Injective draw) (hdrawn : st.drawn ≤ st'.drawn) : call.Sound bcrypt draw st' := by
  cases call with
  | idle => trivial
  | checked username password user => exact hcall
  | stamped username password user => exact hcall
  | found token session =>
      obtain ⟨htoken, hread⟩ := hcall
      refine ⟨htoken.mono hdrawn, fun old hold => ?_⟩
      rw [hother token (htoken.ne_next hdraw)] at hold
      exact hread old hold

theorem lookup_stored (ok : Bool) {token : GoString} (hne : token ≠ draw st.drawn) (session : Session) :
    (if ok then st.db.putSession (draw st.drawn) session else st.db).sessions.lookup token =
      st.db.sessions.lookup token := by
  cases ok with
  | false => rfl
  | true => exact AList.lookup_insert_ne hne

theorem State.Sound.step (hdraw : Function.Injective draw) (hs : st.Sound bcrypt draw) (e : Event) :
    (st.step bcrypt draw oidc e).Sound bcrypt draw := by
  obtain ⟨t, call, db', hstep, hdb, hcall⟩ | ⟨t, now, ok, username, password, user, -, hcall, hstep⟩ :=
    step_cases oidc hs e
  · rw [hstep]
    refine ⟨fun token hmem => ?_, hs.logged, fun t' => ?_⟩
    · obtain ⟨session, hsession⟩ := GoMap.mem_iff_lookup.mp hmem
      obtain ⟨old, hold, -⟩ := hdb token session hsession
      exact hs.stored_lookup hold
    · have hupdate : (Function.update st.calls t call t').Sound bcrypt draw st := by
        by_cases heq : t' = t
        · rw [heq, Function.update_self]
          exact hcall
        · rw [Function.update_of_ne heq]
          exact hs.calls t'
      exact hupdate.shrinks hdb rfl
  · rw [hstep]
    have hgrown : st.drawn ≤ st.drawn + 1 := Nat.le_succ _
    refine ⟨fun token hmem => ?_, fun login hlogin => ?_, fun t' => ?_⟩
    · by_cases hnew : token = draw st.drawn
      · exact ⟨st.drawn, Nat.lt_succ_self _, hnew.symm⟩
      · obtain ⟨session, hsession⟩ := GoMap.mem_iff_lookup.mp hmem
        dsimp only at hsession
        rw [lookup_stored ok hnew] at hsession
        exact (hs.stored_lookup hsession).mono hgrown
    · obtain rfl | hold := List.mem_cons.mp hlogin
      · have hcompare := hs.calls t
        rw [hcall] at hcompare
        exact ⟨⟨st.drawn, Nat.lt_succ_self _, rfl⟩, hcompare⟩
      · exact ⟨(hs.logged login hold).1.mono hgrown, (hs.logged login hold).2⟩
    · have hupdate : (Function.update st.calls t .idle t').Sound bcrypt draw st := by
        by_cases heq : t' = t
        · rw [heq, Function.update_self]
          trivial
        · rw [Function.update_of_ne heq]
          exact hs.calls t'
      exact hupdate.stored (fun token hne => lookup_stored ok hne _) hdraw hgrown

/-- A login stores its session while its user still has the hash and the role it has read. -/
def Unraced (st : State) : Event → Prop
  | .storeSession t _ ok => ok = true → ∀ username password user, st.calls t = .stamped username password user →
      ∃ user', st.db.users.lookup username = some user' ∧ user'.passHash = user.passHash ∧ user'.role = user.role
  | _ => True

/-- Sessions that go or are extended leave the rest as it should be. -/
theorem Lawful.shrinks {st' : State} (hl : Lawful bcrypt st) (hdb : Shrinks st.db st'.db)
    (hlogins : st'.logins = st.logins) : Lawful bcrypt st' := by
  intro token session' hsession'
  obtain ⟨session, hsession, husername, hrole, hkept⟩ := hdb token session' hsession'
  obtain ⟨user, huser, hrole', login, hlogin, htoken, hname, hcompare, hhash⟩ := hl token session hsession
  obtain ⟨user', huser', hhash', hrole''⟩ := hkept user huser
  rw [husername, hrole, hlogins]
  exact ⟨user', huser', hrole'.trans hrole''.symm, login, hlogin, htoken, hname, hcompare,
    hhash.trans hhash'.symm⟩

/-- The last step of a login keeps the law exactly when it is not raced. -/
theorem lawful_step (hdraw : Function.Injective draw) (hs : st.Sound bcrypt draw) (hl : Lawful bcrypt st)
    (e : Event) : Lawful bcrypt (st.step bcrypt draw oidc e) ↔ Unraced st e := by
  obtain ⟨t, call, db', hstep, hdb, -⟩ | ⟨t, now, ok, username, password, user, rfl, hcall, hstep⟩ :=
    step_cases oidc hs e
  · rw [hstep]
    refine iff_of_true (hl.shrinks hdb rfl) ?_
    cases e with
    | storeSession t' now ok =>
        intro hok username password user hcall
        -- a store that is committed counts one more token
        have hdrawn := congrArg State.drawn hstep
        simp [State.step, hcall, State.goto] at hdrawn
    | _ => trivial
  · rw [hstep]
    cases ok with
    | false =>
        refine iff_of_true ?_ fun hok => absurd hok (by decide)
        intro token session hsession
        obtain ⟨user', huser', hrole, login, hlogin, hrest⟩ := hl token session hsession
        exact ⟨user', huser', hrole, login, List.mem_cons_of_mem _ hlogin, hrest⟩
    | true =>
        have hcompare := hs.calls t
        rw [hcall] at hcompare
        constructor
        · intro hlaw _ username' password' user'' hcall'
          obtain ⟨rfl, rfl, rfl⟩ := Call.stamped.inj (hcall.symm.trans hcall')
          obtain ⟨user', huser', hrole, login, hlogin, htoken, -, -, hhash⟩ :=
            hlaw (draw st.drawn) _ (AList.lookup_insert _)
          obtain rfl | hold := List.mem_cons.mp hlogin
          · exact ⟨user', huser', hhash.symm, hrole.symm⟩
          · exact absurd htoken ((hs.logged login hold).1.ne_next hdraw)
        · intro hunraced token session hsession
          obtain ⟨user', huser', hhash, hrole⟩ := hunraced rfl username password user hcall
          by_cases hnew : token = draw st.drawn
          · subst hnew
            obtain rfl := Option.some.inj ((AList.lookup_insert _).symm.trans hsession)
            exact ⟨user', huser', hrole.symm, _, List.mem_cons_self, rfl, rfl, hcompare, hhash.symm⟩
          · have hold : st.db.sessions.lookup token = some session :=
              (lookup_stored true hnew _).symm.trans hsession
            obtain ⟨user'', huser'', hrole'', login, hlogin, hrest⟩ := hl token session hold
            exact ⟨user'', huser'', hrole'', login, List.mem_cons_of_mem _ hlogin, hrest⟩

/-- What is stored after a step was stored before, or is what a login has just stored. -/
theorem mem_step (oidc : Bool) (hs : st.Sound bcrypt draw) (e : Event) :
    st.drawn ≤ (st.step bcrypt draw oidc e).drawn ∧
      ∀ token ∈ (st.step bcrypt draw oidc e).db.sessions, token ∈ st.db.sessions ∨ token = draw st.drawn := by
  obtain ⟨t, call, db', hstep, hdb, -⟩ | ⟨t, now, ok, username, password, user, rfl, hcall, hstep⟩ :=
    step_cases oidc hs e
  · rw [hstep]
    refine ⟨le_refl _, fun token hmem => Or.inl ?_⟩
    obtain ⟨session, hsession⟩ := GoMap.mem_iff_lookup.mp hmem
    obtain ⟨old, hold, -⟩ := hdb token session hsession
    exact GoMap.mem_iff_lookup.mpr ⟨old, hold⟩
  · rw [hstep]
    refine ⟨Nat.le_succ _, fun token hmem => ?_⟩
    by_cases hnew : token = draw st.drawn
    · exact Or.inr hnew
    · obtain ⟨session, hsession⟩ := GoMap.mem_iff_lookup.mp hmem
      dsimp only at hsession
      rw [lookup_stored ok hnew] at hsession
      exact Or.inl (GoMap.mem_iff_lookup.mpr ⟨session, hsession⟩)

theorem State.Sound.exec (oidc : Bool) (hdraw : Function.Injective draw) (hs : st.Sound bcrypt draw)
    (events : List Event) :
    (Run.exec (State.step bcrypt draw oidc) st events).Sound bcrypt draw := by
  induction events generalizing st with
  | nil => exact hs
  | cons e events ih => exact ih (hs.step hdraw e)

/-- A drawn token that is not stored is never stored. -/
theorem not_mem_exec (hdraw : Function.Injective draw) (hs : st.Sound bcrypt draw)
    (htoken : st.Drawn draw token) (hnot : token ∉ st.db.sessions) (events : List Event) :
    token ∉ (Run.exec (State.step bcrypt draw oidc) st events).db.sessions := by
  induction events generalizing st with
  | nil => exact hnot
  | cons e events ih =>
      obtain ⟨hdrawn, hmem⟩ := mem_step oidc hs e
      refine ih (hs.step hdraw e) (htoken.mono hdrawn) fun hback => ?_
      obtain hold | hnew := hmem token hback
      · exact hnot hold
      · exact htoken.ne_next hdraw hnew

/-- Every session is that of a current user in every state of a run exactly when no login is raced by a
change of its user; a session that is gone never comes back. -/
theorem sessions_lawful (bcrypt : Bcrypt) (draw : Nat → GoString) (oidc : Bool)
    (hdraw : Function.Injective draw) (st : State) (hs : st.Sound bcrypt draw) (hl : Lawful bcrypt st)
    (events : List Event) :
    (Run.Always (State.step bcrypt draw oidc) (Lawful bcrypt) st events ↔
        Run.Guarded (State.step bcrypt draw oidc) Unraced st events) ∧
      ∀ first second third token, events = first ++ second ++ third →
        token ∈ (Run.exec (State.step bcrypt draw oidc) st first).db.sessions →
        token ∉ (Run.exec (State.step bcrypt draw oidc) st (first ++ second)).db.sessions →
        token ∉ (Run.exec (State.step bcrypt draw oidc) st events).db.sessions := by
  constructor
  · exact Run.always_iff_guarded (fun st e (h : st.Sound bcrypt draw) => h.step hdraw e)
      (fun st e h hlaw => lawful_step hdraw h hlaw e) hs hl
  · rintro first second third token rfl hstored hgone
    rw [Run.exec_append]
    refine not_mem_exec hdraw (hs.exec oidc hdraw _) ?_ hgone third
    have hfirst := hs.exec oidc hdraw first
    -- the tokens that are drawn stay drawn
    have hdrawn : ∀ (st : State) (events : List Event), st.Sound bcrypt draw →
        st.drawn ≤ (Run.exec (State.step bcrypt draw oidc) st events).drawn := by
      intro st events hst
      induction events generalizing st with
      | nil => exact le_refl _
      | cons e events ih => exact le_trans (mem_step oidc hst e).1 (ih _ (hst.step hdraw e))
    rw [Run.exec_append]
    exact (hfirst.stored token hstored).mono (hdrawn _ second hfirst)

end Run

section Example

/-- A hash that shows its salt and its password, for passwords as long as may be. -/
def plainBcrypt : Bcrypt where
  generate := fun password salt => if password.length ≤ 72 then some (salt ++ 36 :: password) else none
  compare := fun hash password => (hash.dropWhile (· ≠ 36)).tail = password

/-- The first tokens have the 64 characters of a real one. -/
def plainDraw (i : Nat) : GoString := List.replicate i 97 ++ List.replicate (64 - i) 98

theorem plainDraw_injective : Function.Injective plainDraw := by
  have hcount : ∀ i, (plainDraw i).count 97 = i := by
    intro i
    rw [plainDraw, List.count_append, List.count_replicate_self, List.count_replicate]
    simp
  intro i j h
  rw [← hcount i, h, hcount j]

def adminUser : User := ⟨ascii "1$sysmon", roleAdmin, 0, none⟩

/-- One user, and nobody is logged in. -/
def freshStart : State where
  db := ⟨AList.singleton (ascii "admin") adminUser, ∅⟩
  calls := fun _ => .idle
  drawn := 0
  logins := []

theorem freshStart_sound : freshStart.Sound plainBcrypt plainDraw := by
  refine ⟨fun token hmem => absurd hmem (AList.notMem_empty token), fun login hlogin => ?_, fun _ => trivial⟩
  exact absurd hlogin List.not_mem_nil

theorem freshStart_lawful : Lawful plainBcrypt freshStart := by
  intro token session hsession
  exact absurd hsession (by simp [freshStart])

/-- A login, a change of its password, and a login with the new one. -/
def changeAndLogin : List Event :=
  [.readUser 0 (ascii "admin") (ascii "sysmon"), .stampLogin 0 0 true, .storeSession 0 0 true,
    .changePassword (ascii "admin") (ascii "other") (ascii "2") true,
    .readUser 0 (ascii "admin") (ascii "other"), .stampLogin 0 0 true, .storeSession 0 0 true]

theorem sessions_lawful_changeAndLogin :
    Run.Always (State.step plainBcrypt plainDraw false) (Lawful plainBcrypt) freshStart changeAndLogin := by
  refine (sessions_lawful plainBcrypt plainDraw false plainDraw_injective freshStart freshStart_sound
    freshStart_lawful changeAndLogin).1.mpr ?_
  have hpass : ((Run.exec (State.step plainBcrypt plainDraw false) freshStart
        (changeAndLogin.take 2)).calls 0 = .stamped (ascii "admin") (ascii "sysmon") adminUser ∧
      ∃ user, (Run.exec (State.step plainBcrypt plainDraw false) freshStart
        (changeAndLogin.take 2)).db.users.lookup (ascii "admin") = some user ∧
          user.passHash = adminUser.passHash ∧ user.role = adminUser.role) :=
    ⟨by decide, { adminUser with lastLogin := some 0 }, by decide, rfl, rfl⟩
  have hother : ((Run.exec (State.step plainBcrypt plainDraw false) freshStart
        (changeAndLogin.take 6)).calls 0 = .stamped (ascii "admin") (ascii "other")
          { adminUser with passHash := ascii "2$other", lastLogin := some 0 } ∧
      ∃ user, (Run.exec (State.step plainBcrypt plainDraw false) freshStart
        (changeAndLogin.take 6)).db.users.lookup (ascii "admin") = some user ∧
          user.passHash = ascii "2$other" ∧ user.role = roleAdmin) :=
    ⟨by decide, { adminUser with passHash := ascii "2$other", lastLogin := some 0 },
      by decide, rfl, rfl⟩
  simp only [changeAndLogin, Run.guarded_cons]
  refine ⟨trivial, trivial, fun _ username password user hcall => ?_, trivial, trivial, trivial,
    fun _ username password user hcall => ?_, Run.guarded_nil⟩
  · obtain ⟨rfl, -, rfl⟩ := Call.stamped.inj (hpass.1.symm.trans hcall)
    exact hpass.2
  · obtain ⟨rfl, -, rfl⟩ := Call.stamped.inj (hother.1.symm.trans hcall)
    exact hother.2

/-- A password is changed while a login is between its comparison and its session. -/
def changeDuringLogin : List Event :=
  [.readUser 0 (ascii "admin") (ascii "sysmon"), .stampLogin 0 0 true,
    .changePassword (ascii "admin") (ascii "other") (ascii "2") true, .storeSession 0 0 true]

theorem not_lawful_changeDuringLogin :
    ¬∀ (bcrypt : Bcrypt) (draw : Nat → GoString), Function.Injective draw → ∀ st : State,
      st.Sound bcrypt draw → Lawful bcrypt st → ∀ events : List Event,
        (∀ t, (Run.exec (State.step bcrypt draw false) st events).calls t = .idle) →
          Lawful bcrypt (Run.exec (State.step bcrypt draw false) st events) := by
  intro hall
  have hlaw := hall plainBcrypt plainDraw plainDraw_injective freshStart freshStart_sound freshStart_lawful
    changeDuringLogin ?_
  · have hdb : ((Run.exec (State.step plainBcrypt plainDraw false) freshStart
          changeDuringLogin).db.sessions.lookup (plainDraw 0)).map Session.username = some (ascii "admin") ∧
        ((Run.exec (State.step plainBcrypt plainDraw false) freshStart
          changeDuringLogin).db.users.lookup (ascii "admin")).map User.passHash = some (ascii "2$other") ∧
        ∀ login ∈ (Run.exec (State.step plainBcrypt plainDraw false) freshStart changeDuringLogin).logins,
          login.hash ≠ ascii "2$other" := by decide
    obtain ⟨session, hsession, hname⟩ := Option.map_eq_some_iff.mp hdb.1
    obtain ⟨user, huser, -, login, hlogin, -, -, -, hhash⟩ := hlaw _ _ hsession
    rw [hname] at huser
    have hpass := hdb.2.1
    rw [huser] at hpass
    exact hdb.2.2 login hlogin (hhash.trans (Option.some.inj hpass))
  · intro t
    have hcalls : (Run.exec (State.step plainBcrypt plainDraw false) freshStart changeDuringLogin).calls =
        Function.update (Function.update (Function.update (fun _ => Call.idle) 0
          (.checked (ascii "admin") (ascii "sysmon") adminUser)) 0
          (.stamped (ascii "admin") (ascii "sysmon") adminUser)) 0 .idle := rfl
    rw [hcalls]
    by_cases hzero : t = 0
    · rw [hzero, Function.update_self]
    · rw [Function.update_of_ne hzero, Function.update_of_ne hzero, Function.update_of_ne hzero]

end Example

end Sysmon.Auth
