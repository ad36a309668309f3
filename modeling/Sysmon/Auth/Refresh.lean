import Sysmon.Auth.Sessions
import Sysmon.Lib.RefLock

/-!
# A session of the provider

A session that the provider has granted is refreshed when its grant runs out. Many requests can find
that at once, so the refresh is done under a lock of the session, and it is marked in the database before
its token goes out: a session whose mark is found again under the lock is given up. Here is one such
session: validations, logouts and sweeps as threads that take one step an event, a step being one
transaction, one call of the provider or one operation on the locks. A crash takes all threads and locks
with it and leaves the database.
-/

namespace Sysmon.Auth.OIDC

open RefLock (Table Stake)
open Agents (GoString)
open Fleet (ascii)

/-! ### The session -/

structure OIDCIdentity where
  issuer : GoString
  clientID : GoString
  subject : GoString
  displayName : GoString
  role : GoString
  refreshToken : GoString
  expiresAt : Int
  deriving DecidableEq, Repr

structure OIDCSession extends Session where
  oidcGrant : OIDCIdentity
  refreshInFlight : Bool
  refreshRetryAt : Stamp
  deriving DecidableEq, Repr

/-- What the operations read of the `OIDCClient`. -/
structure OIDCClient where
  issuer : GoString
  clientID : GoString
  /-- Whether there is a revocation endpoint. -/
  revocation : Bool
  deriving DecidableEq, Repr

def oidcOutageGrace : Int := 5 * 60 * second

def oidcRefreshRetry : Int := 30 * second

/-- How long before its end a grant is refreshed. -/
def refreshMargin : Int := 15 * second

/-- The grant was given by the provider, to the client, that there is now. -/
def isOurs (client : Option OIDCClient) (grant : OIDCIdentity) : Bool :=
  client.any fun c => grant.issuer = c.issuer && grant.clientID = c.clientID

def validOIDCSession (client : Option OIDCClient) (s : OIDCSession) (now : Int) : Bool :=
  isOurs client s.oidcGrant && s.expiresAt.isAfter now

/-- `sessionExpired`, of a session with a grant. -/
def sessionExpired (s : OIDCSession) (now : Int) : Bool := !s.expiresAt.isAfter now

/-! ### The provider -/

/-- What comes of a request with a refresh token. -/
inductive Answer where
  /-- An error that `retryable` finds temporary. -/
  | unavailable
  | refused
  /-- The refresh token, which is the old one where the answer has none; the role and the expiry of the
  access token, if that passes its checks; and whether the ID token is missing or of the same subject. -/
  | tokens (refreshToken : GoString) (access : Option (GoString × Int)) (sameSubject : Bool)
  deriving DecidableEq, Repr

/-- The end of `Refresh`: the error to retry, the identity, or the token that it revokes for an error. -/
inductive Refreshed where
  | retryable
  | failed (revoke : Option GoString)
  | identity (grant : OIDCIdentity)
  deriving DecidableEq, Repr

/-- `Refresh`. -/
def refresh (clientID : GoString) (old : OIDCIdentity) : Answer → Refreshed
  | .unavailable => .retryable
  | .refused => .failed none
  | .tokens refreshToken access sameSubject =>
      match access with
      | none => .failed (some refreshToken)
      | some (role, expiresAt) =>
          if refreshToken = [] ∨ refreshToken = old.refreshToken ∨ !sameSubject then .failed (some refreshToken)
          else .identity ⟨old.issuer, clientID, old.subject, old.displayName, role, refreshToken, expiresAt⟩

/-! ### Threads -/

inductive Purpose where
  | validate
  | sweep
  deriving DecidableEq, Repr

/-- What a call does before it is through. -/
inductive Todo where
  | logout
  | revokeGrant (grant : OIDCIdentity)
  /-- `client.Revoke`, which `Refresh` calls by itself. -/
  | revoke (refreshToken : GoString)
  deriving DecidableEq, Repr

/-- What a validation returns. -/
inductive Result where
  | ended
  | valid (s : OIDCSession)
  | providerUnavailable
  deriving DecidableEq, Repr

/-- Where a call is. -/
inductive Call where
  | validating
  /-- The session that `validateSession` has read. -/
  | seen (s : OIDCSession)
  | scanning
  | entering (purpose : Purpose)
  | waiting (purpose : Purpose) (id : Nat)
  /-- It holds the lock. -/
  | locked (purpose : Purpose) (id : Nat)
  /-- The session that it has read under the lock. -/
  | current (id : Nat) (s : OIDCSession)
  /-- The mark is about to be saved. -/
  | marking (id : Nat) (s : OIDCSession)
  | refreshing (id : Nat) (s : OIDCSession)
  /-- The request is out. -/
  | awaiting (id : Nat) (s : OIDCSession)
  /-- The session is about to be saved without its mark. -/
  | retrying (id : Nat) (s : OIDCSession)
  /-- The session is about to be saved with its new grant. -/
  | rotated (id : Nat) (s : OIDCSession)
  /-- It has some things to do, then gives back the lock, if it holds it, and revokes a last grant. -/
  | ending (todos : List Todo) (lock : Option Nat) (last : Option OIDCIdentity) (result : Result)
  | unlocked (id : Nat) (last : Option OIDCIdentity) (result : Result)
  deriving DecidableEq, Repr

/-- What can be seen of the run from outside, and crashes. -/
inductive Mark where
  | presented (refreshToken : GoString)
  /-- A refresh with the token has ended in the retryable error. -/
  | retryable (refreshToken : GoString)
  /-- The provider has given a new token. -/
  | issued (refreshToken : GoString)
  /-- The session has been saved with the token. -/
  | saved (refreshToken : GoString)
  | revoked (refreshToken : GoString)
  | crashed
  deriving DecidableEq, Repr

structure State where
  session : Option OIDCSession
  client : Option OIDCClient
  locks : Table
  calls : List Call
  /-- The newest first. -/
  log : List Mark

/-- What a step of a call leaves behind: the session, an operation on the locks, the marks it makes, and
where the call is then. -/
structure Effect where
  session : Option OIDCSession
  lock : RefLock.Op
  marks : List Mark
  call : Call

namespace State

/-- The call goes on, and nothing else happens. -/
def goto (st : State) (call : Call) : Effect := ⟨st.session, .stay, [], call⟩

/-- The call ends with what it has to do, and without the lock. -/
def finish (st : State) (todos : List Todo) (result : Result) : Effect :=
  st.goto (.ending todos none none result)

/-- The call ends with what it has to do, and with the lock. -/
def unlockAfter (st : State) (todos : List Todo) (id : Nat) (result : Result) : Effect :=
  st.goto (.ending todos (some id) none result)

/-- `saveOIDCSession` finds the session, and its transaction is committed. -/
def canSave (st : State) (ok : Bool) : Bool := ok && st.session.isSome

/-- `client.Revoke`. -/
def revoke (st : State) (refreshToken : GoString) : List Mark :=
  if st.client.any OIDCClient.revocation ∧ refreshToken ≠ [] then [.revoked refreshToken] else []

def revokeGrant (st : State) (grant : OIDCIdentity) : List Mark :=
  if isOurs st.client grant then st.revoke grant.refreshToken else []

/-- One step of `validateOIDCSessionResult`, of `Logout` or of the sweep. A step may look at the time
twice; the flag says whether its transaction is committed. -/
def next (st : State) (now now' : Int) (ok : Bool) : Call → Effect
  | .validating =>
      match st.session with
      | none => st.finish [] .ended
      | some s => st.goto (.seen s)
  | .seen s =>
      if !validOIDCSession st.client s now then st.finish [.logout] .ended
      else if !s.refreshInFlight && now' + refreshMargin < s.oidcGrant.expiresAt then st.finish [] (.valid s)
      else st.goto (.entering .validate)
  | .scanning =>
      if st.session.any (sessionExpired · now) then st.goto (.entering .sweep) else st.finish [] .ended
  | .entering purpose => ⟨st.session, .enter, [], .waiting purpose st.locks.entry⟩
  | .waiting purpose id =>
      if (st.locks.mutex id).holder = none then ⟨st.session, .acquire id, [], .locked purpose id⟩
      else st.goto (.waiting purpose id)
  | .locked .validate id =>
      match st.session with
      | none => st.unlockAfter [] id .ended
      | some s => st.goto (.current id s)
  | .locked .sweep id =>
      match st.session with
      | none => st.unlockAfter [] id .ended
      | some s =>
          if ok && sessionExpired s now then ⟨none, .stay, [], .ending [] (some id) (some s.oidcGrant) .ended⟩
          else st.unlockAfter [] id .ended
  | .current id s =>
      if s.refreshInFlight || !validOIDCSession st.client s now then st.unlockAfter [.logout] id .ended
      else if now + refreshMargin < s.oidcGrant.expiresAt then st.unlockAfter [] id (.valid s)
      else if s.refreshRetryAt.isAfter now then
        st.unlockAfter [] id
          (if now < s.oidcGrant.expiresAt + oidcOutageGrace then .valid s else .providerUnavailable)
      else st.goto (.marking id { s with refreshInFlight := true })
  | .marking id s =>
      if st.canSave ok then ⟨some s, .stay, [], .refreshing id s⟩ else st.unlockAfter [] id .ended
  | .refreshing id s => ⟨st.session, .stay, [.presented s.oidcGrant.refreshToken], .awaiting id s⟩
  | .awaiting id s => st.goto (.awaiting id s)
  | .retrying id s =>
      if st.canSave ok then
        ⟨some s, .stay, [], .ending [] (some id) none
          (if now < s.oidcGrant.expiresAt + oidcOutageGrace && validOIDCSession st.client s now'
            then .valid s else .providerUnavailable)⟩
      else st.unlockAfter [.logout] id .ended
  | .rotated id s =>
      if st.canSave ok then
        ⟨some s, .stay, [.saved s.oidcGrant.refreshToken], .ending [] (some id) none (.valid s)⟩
      else st.unlockAfter [.logout, .revokeGrant s.oidcGrant] id .ended
  | .ending (.logout :: todos) lock last result =>
      match if ok then st.session else none with
      | some s => ⟨none, .stay, [], .ending (.revokeGrant s.oidcGrant :: todos) lock last result⟩
      | none => st.goto (.ending todos lock last result)
  | .ending (.revokeGrant grant :: todos) lock last result =>
      ⟨st.session, .stay, st.revokeGrant grant, .ending todos lock last result⟩
  | .ending (.revoke refreshToken :: todos) lock last result =>
      ⟨st.session, .stay, st.revoke refreshToken, .ending todos lock last result⟩
  | .ending [] (some id) last result => ⟨st.session, .release id, [], .unlocked id last result⟩
  | .ending [] none (some grant) result => st.finish [.revokeGrant grant] result
  | .ending [] none none result => st.finish [] result
  | .unlocked id last result => ⟨st.session, .leave id, [], .ending [] none last result⟩

/-- What the provider has given away, if the token is not the one that was presented. -/
def given (presented refreshToken : GoString) : List Mark :=
  if refreshToken = [] ∨ refreshToken = presented then [] else [.issued refreshToken]

/-- The provider answers a refresh. -/
def answered (st : State) (id : Nat) (s : OIDCSession) (now : Int) (a : Answer) : Effect :=
  let presented := s.oidcGrant.refreshToken
  match refresh ((st.client.map OIDCClient.clientID).getD []) s.oidcGrant a with
  | .retryable =>
      let s' := { s with refreshInFlight := false, refreshRetryAt := .at (now + oidcRefreshRetry) }
      ⟨st.session, .stay, [.retryable presented], .retrying id s'⟩
  | .failed none => st.unlockAfter [.logout] id .ended
  | .failed (some refreshToken) =>
      ⟨st.session, .stay, given presented refreshToken,
        .ending [.revoke refreshToken, .logout] (some id) none .ended⟩
  | .identity grant =>
      let s' := { s with
        role := grant.role, oidcGrant := grant, refreshInFlight := false, refreshRetryAt := .missing }
      ⟨st.session, .stay, given presented grant.refreshToken,
        if validOIDCSession st.client s' now then .rotated id s'
        else .ending [.logout, .revokeGrant grant] (some id) none .ended⟩

def apply (st : State) (t : Nat) (e : Effect) : State where
  session := e.session
  client := st.client
  locks := st.locks.apply t e.lock
  calls := st.calls.set t e.call
  log := e.marks ++ st.log

end State

/-- A call that comes in. -/
inductive Request where
  | validate
  | logout
  | sweep
  deriving DecidableEq, Repr

def Request.call : Request → Call
  | .validate => .validating
  | .logout => .ending [.logout] none none .ended
  | .sweep => .scanning

inductive Event where
  | call (request : Request)
  | advance (t : Nat) (now now' : Int) (ok : Bool)
  | answer (t : Nat) (now : Int) (a : Answer)
  /-- The process dies, and one with another configuration may start. -/
  | crash (client : Option OIDCClient)
  deriving DecidableEq, Repr

def State.step (st : State) : Event → State
  | .call request => { st with calls := st.calls ++ [request.call] }
  | .advance t now now' ok =>
      match st.calls[t]? with
      | none => st
      | some call => st.apply t (st.next now now' ok call)
  | .answer t now a =>
      match st.calls[t]? with
      | some (.awaiting id s) => st.apply t (st.answered id s now a)
      | _ => st
  | .crash client => ⟨st.session, client, .empty, [], .crashed :: st.log⟩

/-- The session as it was created, in a process that has just started. -/
def State.start (client : Option OIDCClient) (s : OIDCSession) : State := ⟨some s, client, .empty, [], []⟩

/-! ### The lock -/

/-- What a call has to do with the lock. -/
def Call.stake : Call → Stake
  | .waiting _ id => .waits id
  | .locked _ id | .current id _ | .marking id _ | .refreshing id _ | .awaiting id _ | .retrying id _
  | .rotated id _ | .ending _ (some id) _ _ => .holds id
  | .unlocked id _ _ => .released id
  | _ => .out

variable {st : State} {t : Nat} {call : Call} {now now' : Int} {ok : Bool} {tok : GoString}

theorem next_move (st : State) (now now' : Int) (ok : Bool) (call : Call) :
    RefLock.Move st.locks (st.next now now' ok call).lock call.stake (st.next now now' ok call).call.stake := by
  cases call with
  | validating =>
      rw [State.next]
      split <;> exact .stay _
  | seen s =>
      rw [State.next]
      split
      · exact .stay _
      · split <;> exact .stay _
  | scanning =>
      rw [State.next]
      split <;> exact .stay _
  | entering purpose => exact .enter
  | waiting purpose id =>
      rw [State.next]
      split
      next hfree => exact .acquire id hfree
      next => exact .stay _
  | locked purpose id =>
      cases purpose with
      | validate =>
          rw [State.next]
          split <;> exact .stay _
      | sweep =>
          rw [State.next]
          split
          · exact .stay _
          · split <;> exact .stay _
  | current id s =>
      rw [State.next]
      split
      · exact .stay _
      · split
        · exact .stay _
        · split <;> exact .stay _
  | marking id s =>
      rw [State.next]
      split <;> exact .stay _
  | refreshing id s => exact .stay _
  | awaiting id s => exact .stay _
  | retrying id s =>
      rw [State.next]
      split <;> exact .stay _
  | rotated id s =>
      rw [State.next]
      split <;> exact .stay _
  | ending todos lock last result =>
      cases todos with
      | cons todo todos =>
          cases todo with
          | logout =>
              rw [State.next]
              split <;> cases lock <;> exact .stay _
          | revokeGrant grant => cases lock <;> exact .stay _
          | revoke refreshToken => cases lock <;> exact .stay _
      | nil =>
          cases lock with
          | some id => exact .release id
          | none => cases last <;> exact .stay _
  | unlocked id last result => exact .leave id

theorem answered_move (st : State) (id : Nat) (s : OIDCSession) (now : Int) (a : Answer) :
    RefLock.Move st.locks (st.answered id s now a).lock (.holds id) (st.answered id s now a).call.stake := by
  rw [State.answered]
  dsimp only
  split
  · exact .stay _
  · exact .stay _
  · exact .stay _
  · dsimp only
    split <;> exact .stay _

/-! ### The mark -/

/-- The token has gone out, and since then neither has a refresh with it ended in the retryable error nor
has the provider given it away again. -/
def Spent (tok : GoString) : List Mark → Prop
  | [] => False
  | .presented other :: log => other = tok ∨ Spent tok log
  | .retryable other :: log | .issued other :: log => other ≠ tok ∧ Spent tok log
  | .saved _ :: log | .revoked _ :: log | .crashed :: log => Spent tok log

/-- What a call that holds the lock knows of its session. -/
def Call.Clear (session : Option OIDCSession) (log : List Mark) : Call → Prop
  | .current _ s => s.refreshInFlight = false → ¬Spent s.oidcGrant.refreshToken log
  | .marking _ s => s.refreshInFlight = true ∧ ¬Spent s.oidcGrant.refreshToken log
  | .refreshing _ s => ¬Spent s.oidcGrant.refreshToken log ∧
      ∀ stored, session = some stored → stored.refreshInFlight = true
  | .retrying _ s | .rotated _ s => ¬Spent s.oidcGrant.refreshToken log
  | _ => True

/-- A session without its mark has a token that may go out. -/
def Unspent (session : Option OIDCSession) (log : List Mark) : Prop :=
  ∀ s, session = some s → s.refreshInFlight = false → ¬Spent s.oidcGrant.refreshToken log

theorem clear_of_not_holds (h : ∀ id, call.stake ≠ .holds id) (session : Option OIDCSession)
    (log : List Mark) : call.Clear session log := by
  cases call with
  | current id s => exact absurd rfl (h id)
  | marking id s => exact absurd rfl (h id)
  | refreshing id s => exact absurd rfl (h id)
  | retrying id s => exact absurd rfl (h id)
  | rotated id s => exact absurd rfl (h id)
  | _ => trivial

/-- What others do leaves it so: no token goes out, and the session stays or goes. -/
theorem Call.Clear.keep {session session' : Option OIDCSession} {log log' : List Mark}
    (h : call.Clear session log) (hlog : ∀ tok, Spent tok log' → Spent tok log)
    (hsession : ∀ s, session' = some s → session = some s) : call.Clear session' log' := by
  cases call with
  | current id s => exact fun hflight hspent => h hflight (hlog _ hspent)
  | marking id s => exact ⟨h.1, fun hspent => h.2 (hlog _ hspent)⟩
  | refreshing id s => exact ⟨fun hspent => h.1 (hlog _ hspent), fun s hs => h.2 s (hsession s hs)⟩
  | retrying id s => exact fun hspent => h (hlog _ hspent)
  | rotated id s => exact fun hspent => h (hlog _ hspent)
  | _ => trivial

theorem Unspent.keep {session session' : Option OIDCSession} {log log' : List Mark}
    (h : Unspent session log) (hlog : ∀ tok, Spent tok log' → Spent tok log)
    (hsession : ∀ s, session' = some s → session = some s) : Unspent session' log' :=
  fun s hs hflight hspent => h s (hsession s hs) hflight (hlog _ hspent)

theorem spent_revoke {st : State} {other : GoString} {log : List Mark} (tok : GoString)
    (h : Spent tok (st.revoke other ++ log)) : Spent tok log := by
  rw [State.revoke] at h
  split at h <;> exact h

theorem spent_revokeGrant {st : State} {grant : OIDCIdentity} {log : List Mark} (tok : GoString)
    (h : Spent tok (st.revokeGrant grant ++ log)) : Spent tok log := by
  rw [State.revokeGrant] at h
  split at h
  · exact spent_revoke tok h
  · exact h

theorem spent_given {presented other : GoString} {log : List Mark} (tok : GoString)
    (h : Spent tok (State.given presented other ++ log)) : Spent tok log := by
  rw [State.given] at h
  split at h
  · exact h
  · exact h.2

/-- No token goes out, and the session stays or goes. -/
def Effect.Quiet (st : State) (e : Effect) : Prop :=
  (∀ tok, Spent tok (e.marks ++ st.log) → Spent tok st.log) ∧ ∀ s, e.session = some s → st.session = some s

theorem quiet_goto (st : State) (call : Call) : (st.goto call).Quiet st :=
  ⟨fun _ h => h, fun _ h => h⟩

theorem quiet_ending (st : State) (now now' : Int) (ok : Bool) (todos : List Todo) (lock : Option Nat)
    (last : Option OIDCIdentity) (result : Result) :
    (st.next now now' ok (.ending todos lock last result)).Quiet st := by
  cases todos with
  | cons todo todos =>
      cases todo with
      | logout =>
          rw [State.next]
          split
          · exact ⟨fun _ h => h, fun s h => absurd h (by simp)⟩
          · exact quiet_goto st _
      | revokeGrant grant => exact ⟨fun tok h => spent_revokeGrant tok h, fun _ h => h⟩
      | revoke refreshToken => exact ⟨fun tok h => spent_revoke tok h, fun _ h => h⟩
  | nil =>
      cases lock with
      | some id => exact ⟨fun _ h => h, fun _ h => h⟩
      | none => cases last <;> exact quiet_goto st _

/-- A call that does more than that holds the lock. -/
theorem quiet_or_holds (st : State) (now now' : Int) (ok : Bool) (call : Call) :
    (st.next now now' ok call).Quiet st ∨ ∃ id, call.stake = .holds id := by
  cases call with
  | validating =>
      rw [State.next]
      split <;> exact Or.inl (quiet_goto st _)
  | seen s =>
      rw [State.next]
      split
      · exact Or.inl (quiet_goto st _)
      · split <;> exact Or.inl (quiet_goto st _)
  | scanning =>
      rw [State.next]
      split <;> exact Or.inl (quiet_goto st _)
  | entering purpose => exact Or.inl ⟨fun _ h => h, fun _ h => h⟩
  | waiting purpose id =>
      rw [State.next]
      split <;> exact Or.inl ⟨fun _ h => h, fun _ h => h⟩
  | ending todos lock last result => exact Or.inl (quiet_ending st now now' ok todos lock last result)
  | unlocked id last result => exact Or.inl ⟨fun _ h => h, fun _ h => h⟩
  | locked purpose id => exact Or.inr ⟨id, rfl⟩
  | current id s => exact Or.inr ⟨id, rfl⟩
  | marking id s => exact Or.inr ⟨id, rfl⟩
  | refreshing id s => exact Or.inr ⟨id, rfl⟩
  | awaiting id s => exact Or.inr ⟨id, rfl⟩
  | retrying id s => exact Or.inr ⟨id, rfl⟩
  | rotated id s => exact Or.inr ⟨id, rfl⟩

/-- A step of a call with what it knows: it knows what it has to know then, a session without its mark has
a token that may go out, and so has what does go out. -/
def Effect.Safe (st : State) (e : Effect) : Prop :=
  e.call.Clear e.session (e.marks ++ st.log) ∧ Unspent e.session (e.marks ++ st.log) ∧
    (e.marks = [] ∨ ∃ m, e.marks = [m] ∧ ∀ tok, m = .presented tok → ¬Spent tok st.log)

theorem safe_goto (hstored : Unspent st.session st.log) (hcall : call.Clear st.session st.log) :
    (st.goto call).Safe st :=
  ⟨hcall, hstored, Or.inl rfl⟩

/-- A step with at most the mark of a revocation. -/
theorem safe_revoke (hstored : Unspent st.session st.log) {refreshToken : GoString} {marks : List Mark}
    (hmarks : marks = [] ∨ marks = [.revoked refreshToken]) (todos : List Todo) (lock : Option Nat)
    (last : Option OIDCIdentity) (result : Result) :
    Effect.Safe st ⟨st.session, .stay, marks, .ending todos lock last result⟩ := by
  obtain rfl | rfl := hmarks
  · exact ⟨trivial, hstored, Or.inl rfl⟩
  · exact ⟨trivial, hstored, Or.inr ⟨_, rfl, fun tok h => absurd h (by simp)⟩⟩

theorem revoke_cases (st : State) (refreshToken : GoString) :
    st.revoke refreshToken = [] ∨ st.revoke refreshToken = [.revoked refreshToken] := by
  rw [State.revoke]
  split
  · exact Or.inr rfl
  · exact Or.inl rfl

theorem safe_ending (hstored : Unspent st.session st.log) (todos : List Todo) (lock : Option Nat)
    (last : Option OIDCIdentity) (result : Result) :
    (st.next now now' ok (.ending todos lock last result)).Safe st := by
  have hgone : Unspent none st.log := fun s h => absurd h (by simp)
  cases todos with
  | cons todo todos =>
      cases todo with
      | logout =>
          rw [State.next]
          split
          · exact ⟨trivial, hgone, Or.inl rfl⟩
          · exact safe_goto hstored trivial
      | revokeGrant grant =>
          have hcases : st.revokeGrant grant = [] ∨ st.revokeGrant grant = [.revoked grant.refreshToken] := by
            rw [State.revokeGrant]
            split
            · exact revoke_cases st _
            · exact Or.inl rfl
          exact safe_revoke hstored hcases todos lock last result
      | revoke refreshToken => exact safe_revoke hstored (revoke_cases st _) todos lock last result
  | nil =>
      cases lock with
      | some id => exact safe_goto hstored trivial
      | none => cases last <;> exact safe_goto hstored trivial

theorem safe_next (hstored : Unspent st.session st.log) (hcall : call.Clear st.session st.log) :
    (st.next now now' ok call).Safe st := by
  have hgone : Unspent none st.log := fun s h => absurd h (by simp)
  cases call with
  | validating =>
      rw [State.next]
      split <;> exact safe_goto hstored trivial
  | seen s =>
      rw [State.next]
      split
      · exact safe_goto hstored trivial
      · split <;> exact safe_goto hstored trivial
  | scanning =>
      rw [State.next]
      split <;> exact safe_goto hstored trivial
  | entering purpose => exact safe_goto hstored trivial
  | waiting purpose id =>
      rw [State.next]
      split <;> exact safe_goto hstored trivial
  | locked purpose id =>
      cases purpose with
      | validate =>
          rw [State.next]
          split
          · exact safe_goto hstored trivial
          next s hs => exact safe_goto hstored (hstored s hs)
      | sweep =>
          rw [State.next]
          split
          · exact safe_goto hstored trivial
          · split
            · exact ⟨trivial, hgone, Or.inl rfl⟩
            · exact safe_goto hstored trivial
  | current id s =>
      rw [State.next]
      split
      · exact safe_goto hstored trivial
      next hvalid =>
        have hflight : s.refreshInFlight = false := by
          cases hmark : s.refreshInFlight with
          | false => rfl
          | true => exact absurd (by simp [hmark]) hvalid
        split
        · exact safe_goto hstored trivial
        · split
          · exact safe_goto hstored trivial
          · exact safe_goto hstored ⟨rfl, hcall hflight⟩
  | marking id s =>
      rw [State.next]
      split
      · refine ⟨⟨hcall.2, fun stored h => Option.some.inj h ▸ hcall.1⟩, fun stored h hflight => ?_, Or.inl rfl⟩
        exact absurd ((Option.some.inj h ▸ hcall.1).symm.trans hflight) (by simp)
      · exact safe_goto hstored trivial
  | refreshing id s =>
      refine ⟨trivial, fun stored h hflight => ?_, Or.inr ⟨_, rfl, fun tok h => ?_⟩⟩
      · exact absurd ((hcall.2 stored h).symm.trans hflight) (by simp)
      · exact Mark.presented.inj h ▸ hcall.1
  | awaiting id s => exact safe_goto hstored trivial
  | retrying id s =>
      rw [State.next]
      split
      · exact ⟨trivial, fun stored h _ => Option.some.inj h ▸ hcall, Or.inl rfl⟩
      · exact safe_goto hstored trivial
  | rotated id s =>
      rw [State.next]
      split
      · exact ⟨trivial, fun stored h _ => Option.some.inj h ▸ hcall,
          Or.inr ⟨_, rfl, fun tok h => absurd h (by simp)⟩⟩
      · exact safe_goto hstored trivial
  | ending todos lock last result => exact safe_ending hstored todos lock last result
  | unlocked id last result => exact safe_goto hstored trivial

theorem given_cases (presented other : GoString) :
    State.given presented other = [] ∨ State.given presented other = [.issued other] := by
  rw [State.given]
  split
  · exact Or.inl rfl
  · exact Or.inr rfl

theorem refresh_identity {clientID : GoString} {old grant : OIDCIdentity} {a : Answer}
    (h : refresh clientID old a = .identity grant) :
    State.given old.refreshToken grant.refreshToken = [.issued grant.refreshToken] ∧
      grant.issuer = old.issuer ∧ grant.clientID = clientID := by
  cases a with
  | tokens refreshToken access sameSubject =>
      cases access with
      | none => exact absurd h (by simp [refresh])
      | some access =>
          obtain ⟨role, expiresAt⟩ := access
          rw [refresh] at h
          split at h
          next => exact absurd h (by simp)
          next hgood =>
            obtain rfl := Refreshed.identity.inj h
            rw [not_or, not_or] at hgood
            refine ⟨if_neg ?_, rfl, rfl⟩
            rw [not_or]
            exact ⟨hgood.1, hgood.2.1⟩
  | unavailable => exact absurd h (by simp [refresh])
  | refused => exact absurd h (by simp [refresh])

theorem safe_answered (hstored : Unspent st.session st.log) (id : Nat) (s : OIDCSession) (now : Int)
    (a : Answer) : (st.answered id s now a).Safe st := by
  have hgiven : ∀ todos result presented other,
      Effect.Safe st ⟨st.session, .stay, State.given presented other, .ending todos (some id) none result⟩ := by
    intro todos result presented other
    refine ⟨trivial, hstored.keep (fun tok => spent_given tok) fun _ h => h, ?_⟩
    obtain hnone | hissued := given_cases presented other
    · exact Or.inl hnone
    · exact Or.inr ⟨_, hissued, fun tok h => absurd h (by simp)⟩
  rw [State.answered]
  dsimp only
  split
  · refine ⟨fun hspent => hspent.1 rfl, hstored.keep (fun tok h => h.2) fun _ h => h, ?_⟩
    exact Or.inr ⟨_, rfl, fun tok h => absurd h (by simp)⟩
  · exact safe_goto hstored trivial
  · exact hgiven _ _ _ _
  next grant hgrant =>
    split
    · obtain ⟨hissued, -⟩ := refresh_identity hgrant
      obtain ⟨-, hunspent, hmarks⟩ := hgiven [] .ended s.oidcGrant.refreshToken grant.refreshToken
      refine ⟨?_, hunspent, hmarks⟩
      rw [hissued]
      exact fun hspent => hspent.1 rfl
    · exact hgiven _ _ _ _

/-- No token of the log has gone out spent. -/
def SingleUse (log : List Mark) : Prop :=
  ∀ newer older tok, log = newer ++ .presented tok :: older → ¬Spent tok older

theorem singleUse_cons {m : Mark} {log : List Mark} (hlog : SingleUse log)
    (hm : ∀ tok, m = .presented tok → ¬Spent tok log) : SingleUse (m :: log) := by
  intro newer older tok h
  cases newer with
  | nil =>
      obtain ⟨rfl, rfl⟩ := List.cons.inj h
      exact hm tok rfl
  | cons first newer =>
      obtain ⟨-, hrest⟩ := List.cons.inj h
      exact hlog newer older tok hrest

structure State.Sound (st : State) : Prop where
  fair : RefLock.Fair st.locks (st.calls.map Call.stake)
  stored : Unspent st.session st.log
  calls : ∀ (t : Nat) (call : Call), st.calls[t]? = some call → call.Clear st.session st.log
  single : SingleUse st.log

/-- One step of a call, when no other call that holds the lock can see it. -/
theorem State.Sound.apply (hs : st.Sound) (hget : st.calls[t]? = some call) {e : Effect}
    (hmove : RefLock.Move st.locks e.lock call.stake e.call.stake)
    (hquiet : e.Quiet st ∨ ∃ id, call.stake = .holds id) (hsafe : e.Safe st) : (st.apply t e).Sound := by
  obtain ⟨hclear, hunspent, hmarks⟩ := hsafe
  have hstake : (st.calls.map Call.stake)[t]? = some call.stake := by
    rw [List.getElem?_map, hget]
    rfl
  refine ⟨?_, hunspent, fun i other hother => ?_, ?_⟩
  · have hfair := hs.fair.move hstake hmove
    rw [← List.map_set] at hfair
    exact hfair
  · obtain ⟨rfl, rfl⟩ | ⟨hne, hold⟩ := Run.getElem?_of_set hother
    · exact hclear
    · obtain ⟨hlog, hsession⟩ | ⟨id, hholds⟩ := hquiet
      · exact (hs.calls i other hold).keep hlog hsession
      · refine clear_of_not_holds (fun id' hholds' => hne ?_) _ _
        have hother' : (st.calls.map Call.stake)[i]? = some (.holds id') := by
          rw [List.getElem?_map, hold, ← hholds']
          rfl
        rw [hholds] at hstake
        exact hs.fair.exclusive hother' hstake
  · obtain hnone | ⟨m, hm, hpresented⟩ := hmarks
    · rw [State.apply, hnone]
      exact hs.single
    · rw [State.apply, hm]
      exact singleUse_cons hs.single hpresented

theorem State.Sound.step (hs : st.Sound) (event : Event) : (st.step event).Sound := by
  cases event with
  | call request =>
      have hstart : request.call.stake = .out ∧ ∀ session log, request.call.Clear session log := by
        cases request with
        | validate => exact ⟨rfl, fun _ _ => trivial⟩
        | logout => exact ⟨rfl, fun _ _ => trivial⟩
        | sweep => exact ⟨rfl, fun _ _ => trivial⟩
      refine ⟨?_, hs.stored, fun i other hother => ?_, hs.single⟩
      · rw [State.step, List.map_append, List.map_singleton, hstart.1]
        exact hs.fair.concat
      · obtain hold | ⟨-, rfl⟩ := Run.getElem?_of_append hother
        · exact hs.calls i other hold
        · exact hstart.2 _ _
  | advance t now now' ok =>
      rw [State.step]
      split
      · exact hs
      next call hget =>
        exact hs.apply hget (next_move st now now' ok call) (quiet_or_holds st now now' ok call)
          (safe_next hs.stored (hs.calls t call hget))
  | answer t now a =>
      rw [State.step]
      split
      next id s hget =>
        exact hs.apply hget (answered_move st id s now a) (Or.inr ⟨id, rfl⟩)
          (safe_answered hs.stored id s now a)
      · exact hs
  | crash client =>
      refine ⟨RefLock.fair_nil, hs.stored, fun i other hother => ?_, ?_⟩
      · exact absurd hother (by simp [State.step])
      · exact singleUse_cons hs.single fun tok h => absurd h (by simp)

theorem sound_start (client : Option OIDCClient) (s : OIDCSession) : (State.start client s).Sound := by
  refine ⟨RefLock.fair_nil, fun _ _ _ hspent => hspent, fun i other hother => ?_, fun newer older tok h => ?_⟩
  · exact absurd hother (by simp [State.start])
  · exact absurd h (by simp [State.start])

/-! ### New grants -/

/-- The call will save the session with the token, or revoke the token. -/
def Call.Owes (client : Option OIDCClient) (tok : GoString) : Call → Prop
  | .rotated _ s => s.oidcGrant.refreshToken = tok ∧ isOurs client s.oidcGrant = true
  | .ending todos _ _ _ => .revoke tok ∈ todos ∨
      ∃ grant, .revokeGrant grant ∈ todos ∧ grant.refreshToken = tok ∧ isOurs client grant = true
  | _ => False

/-- The token is in the database, has been revoked, cannot be revoked or was lost in a crash. -/
def Settled (st : State) (tok : GoString) (newer : List Mark) : Prop :=
  .saved tok ∈ newer ∨ .revoked tok ∈ newer ∨ .crashed ∈ newer ∨ st.client.any OIDCClient.revocation = false

/-- Each new token is settled, or a call still owes that. -/
def Owed (st : State) : Prop :=
  ∀ newer older tok, st.log = newer ++ .issued tok :: older →
    tok ≠ [] ∧ (Settled st tok newer ∨ ∃ call ∈ st.calls, call.Owes st.client tok)

theorem revoke_settles (htok : tok ≠ []) :
    .revoked tok ∈ st.revoke tok ∨ st.client.any OIDCClient.revocation = false := by
  rw [State.revoke]
  cases hclient : st.client.any OIDCClient.revocation with
  | true =>
      rw [if_pos ⟨rfl, htok⟩]
      exact Or.inl List.mem_cons_self
  | false => exact Or.inr rfl

theorem next_owes (howes : call.Owes st.client tok) (htok : tok ≠ []) :
    (st.next now now' ok call).call.Owes st.client tok ∨ .saved tok ∈ (st.next now now' ok call).marks ∨
      .revoked tok ∈ (st.next now now' ok call).marks ∨ st.client.any OIDCClient.revocation = false := by
  cases call with
  | rotated id s =>
      obtain ⟨rfl, hours⟩ := howes
      rw [State.next]
      split
      · exact Or.inr (Or.inl List.mem_cons_self)
      · exact Or.inl (Or.inr ⟨_, List.mem_cons_of_mem _ List.mem_cons_self, rfl, hours⟩)
  | ending todos lock last result =>
      cases todos with
      | nil =>
          obtain hnone | ⟨_, hnone, -⟩ := howes
          · exact absurd hnone List.not_mem_nil
          · exact absurd hnone List.not_mem_nil
      | cons todo todos =>
          have hlater : ∀ todos', (∀ todo ∈ todos, todo ∈ todos') →
              (Call.ending todos lock last result).Owes st.client tok →
              (Call.ending todos' lock last result).Owes st.client tok := by
            rintro todos' hsub (hrevoke | ⟨grant, hgrant, hrest⟩)
            · exact Or.inl (hsub _ hrevoke)
            · exact Or.inr ⟨grant, hsub _ hgrant, hrest⟩
          cases todo with
          | logout =>
              have hrest : (Call.ending todos lock last result).Owes st.client tok := by
                obtain hrevoke | ⟨grant, hgrant, hrest⟩ := howes
                · exact Or.inl (List.mem_of_ne_of_mem (by simp) hrevoke)
                · exact Or.inr ⟨grant, List.mem_of_ne_of_mem (by simp) hgrant, hrest⟩
              rw [State.next]
              split
              · exact Or.inl (hlater _ (fun todo h => List.mem_cons_of_mem _ h) hrest)
              · exact Or.inl hrest
          | revokeGrant grant =>
              obtain hrevoke | ⟨grant', hgrant, rfl, hours⟩ := howes
              · exact Or.inl (Or.inl (List.mem_of_ne_of_mem (by simp) hrevoke))
              · obtain hfirst | hmem := List.mem_cons.mp hgrant
                · obtain rfl := Todo.revokeGrant.inj hfirst
                  rw [State.next, State.revokeGrant, if_pos hours]
                  exact Or.inr (Or.inr (revoke_settles htok))
                · exact Or.inl (Or.inr ⟨grant', hmem, rfl, hours⟩)
          | revoke refreshToken =>
              obtain hrevoke | ⟨grant, hgrant, hrest⟩ := howes
              · obtain hfirst | hmem := List.mem_cons.mp hrevoke
                · obtain rfl := Todo.revoke.inj hfirst
                  exact Or.inr (Or.inr (revoke_settles htok))
                · exact Or.inl (Or.inl hmem)
              · exact Or.inl (Or.inr ⟨grant, List.mem_of_ne_of_mem (by simp) hgrant, hrest⟩)
  | _ => exact absurd howes id

/-- The call that gets a new token owes it. -/
theorem answered_owes {id : Nat} {s : OIDCSession} {a : Answer}
    (hours : isOurs st.client s.oidcGrant = true)
    (hissued : .issued tok ∈ (st.answered id s now a).marks) :
    tok ≠ [] ∧ (st.answered id s now a).call.Owes st.client tok := by
  have hgiven : ∀ presented other, .issued tok ∈ State.given presented other → tok ≠ [] ∧ other = tok := by
    intro presented other h
    rw [State.given] at h
    split at h
    next => exact absurd h List.not_mem_nil
    next hnew =>
      obtain rfl := Mark.issued.inj (List.mem_singleton.mp h)
      exact ⟨fun hnone => hnew (Or.inl hnone), rfl⟩
  rw [State.answered] at hissued ⊢
  dsimp only at hissued ⊢
  split at hissued
  · exact absurd (List.mem_singleton.mp hissued) (by simp)
  · exact absurd hissued List.not_mem_nil
  · obtain ⟨htok, rfl⟩ := hgiven _ _ hissued
    exact ⟨htok, Or.inl List.mem_cons_self⟩
  next grant hgrant =>
    obtain ⟨-, hissuer, hclient⟩ := refresh_identity hgrant
    obtain ⟨htok, rfl⟩ := hgiven _ _ hissued
    refine ⟨htok, ?_⟩
    have hmine : isOurs st.client grant = true := by
      cases hc : st.client with
      | none =>
          rw [hc] at hours
          exact absurd hours (by simp [isOurs])
      | some c =>
          rw [hc] at hours hclient
          simp only [isOurs, Option.any_some, Bool.and_eq_true, decide_eq_true_eq] at hours ⊢
          exact ⟨hissuer.trans hours.1, hclient⟩
    split
    · exact ⟨rfl, hmine⟩
    · exact Or.inr ⟨grant, List.mem_cons_of_mem _ List.mem_cons_self, rfl, hmine⟩

/-- The grant that is refreshed is one of the provider there is. -/
def Call.Ours (client : Option OIDCClient) : Call → Prop
  | .marking _ s | .refreshing _ s | .awaiting _ s => isOurs client s.oidcGrant = true
  | _ => True

theorem ours_ending (st : State) (now now' : Int) (ok : Bool) (todos : List Todo) (lock : Option Nat)
    (last : Option OIDCIdentity) (result : Result) :
    (st.next now now' ok (.ending todos lock last result)).call.Ours st.client := by
  cases todos with
  | cons todo todos =>
      cases todo with
      | logout =>
          rw [State.next]
          split <;> trivial
      | revokeGrant grant => trivial
      | revoke refreshToken => trivial
  | nil =>
      cases lock with
      | some id => trivial
      | none => cases last <;> trivial

theorem next_ours (h : call.Ours st.client) : (st.next now now' ok call).call.Ours st.client := by
  cases call with
  | validating =>
      rw [State.next]
      split <;> trivial
  | seen s =>
      rw [State.next]
      split
      · trivial
      · split <;> trivial
  | scanning =>
      rw [State.next]
      split <;> trivial
  | entering purpose => trivial
  | waiting purpose id =>
      rw [State.next]
      split <;> trivial
  | locked purpose id =>
      cases purpose with
      | validate =>
          rw [State.next]
          split <;> trivial
      | sweep =>
          rw [State.next]
          split
          · trivial
          · split <;> trivial
  | current id s =>
      rw [State.next]
      split
      · trivial
      next hvalid =>
        split
        · trivial
        · split
          · trivial
          · rw [Bool.or_eq_true, not_or, Bool.not_eq_true', Bool.not_eq_false, validOIDCSession,
              Bool.and_eq_true] at hvalid
            exact hvalid.2.1
  | marking id s =>
      rw [State.next]
      split
      · exact h
      · trivial
  | refreshing id s => exact h
  | awaiting id s => exact h
  | retrying id s =>
      rw [State.next]
      split <;> trivial
  | rotated id s =>
      rw [State.next]
      split <;> trivial
  | ending todos lock last result => exact ours_ending st now now' ok todos lock last result
  | unlocked id last result => trivial

theorem answered_ours (st : State) (id : Nat) (s : OIDCSession) (now : Int) (a : Answer) :
    (st.answered id s now a).call.Ours st.client := by
  rw [State.answered]
  dsimp only
  split
  · trivial
  · trivial
  · trivial
  · dsimp only
    split <;> trivial

/-- A mark is among the newest or among the old ones. -/
theorem issued_split {marks log newer older : List Mark} (h : marks ++ log = newer ++ .issued tok :: older) :
    (∃ before, newer = marks ++ before ∧ log = before ++ .issued tok :: older) ∨ .issued tok ∈ marks := by
  obtain ⟨before, hnewer, hlog⟩ | ⟨rest, hmarks, hrest⟩ := List.append_eq_append_iff.mp h
  · exact Or.inl ⟨before, hnewer, hlog⟩
  · cases rest with
    | nil => exact Or.inl ⟨[], by simpa using hmarks.symm, hrest.symm⟩
    | cons first rest =>
        obtain ⟨rfl, -⟩ := List.cons.inj hrest
        exact Or.inr (hmarks ▸ List.mem_append_right _ List.mem_cons_self)

structure State.Kept (st : State) : Prop where
  ours : ∀ call ∈ st.calls, call.Ours st.client
  owed : Owed st

/-- One step of a call, that owes what it owed or settles it, and owes what it is given. -/
theorem State.Kept.apply (hk : st.Kept) (hget : st.calls[t]? = some call) {e : Effect}
    (hours : e.call.Ours st.client)
    (hnew : ∀ tok, .issued tok ∈ e.marks → tok ≠ [] ∧ e.call.Owes st.client tok)
    (howes : ∀ tok, tok ≠ [] → call.Owes st.client tok → e.call.Owes st.client tok ∨ .saved tok ∈ e.marks ∨
      .revoked tok ∈ e.marks ∨ st.client.any OIDCClient.revocation = false) : (st.apply t e).Kept := by
  have hmine : e.call ∈ (st.apply t e).calls := List.mem_of_getElem? (Run.getElem?_set_self' hget)
  refine ⟨fun other hother => ?_, fun newer older tok hlog => ?_⟩
  · obtain ⟨i, hi⟩ := List.mem_iff_getElem?.mp hother
    obtain ⟨-, rfl⟩ | ⟨-, hold⟩ := Run.getElem?_of_set hi
    · exact hours
    · exact hk.ours other (List.mem_of_getElem? hold)
  · obtain ⟨before, rfl, hold⟩ | hmem := issued_split hlog
    · -- the token was given before this step
      obtain ⟨htok, hsettled⟩ := hk.owed before older tok hold
      refine ⟨htok, ?_⟩
      obtain (hsaved | hrevoked | hcrashed | hnone) | ⟨other, hother, howed⟩ := hsettled
      · exact Or.inl (Or.inl (List.mem_append_right _ hsaved))
      · exact Or.inl (Or.inr (Or.inl (List.mem_append_right _ hrevoked)))
      · exact Or.inl (Or.inr (Or.inr (Or.inl (List.mem_append_right _ hcrashed))))
      · exact Or.inl (Or.inr (Or.inr (Or.inr hnone)))
      · obtain ⟨i, hi⟩ := List.mem_iff_getElem?.mp hother
        by_cases hit : i = t
        · obtain rfl := Option.some.inj (hget.symm.trans (hit ▸ hi))
          obtain hstill | hsaved | hrevoked | hnone := howes tok htok howed
          · exact Or.inr ⟨e.call, hmine, hstill⟩
          · exact Or.inl (Or.inl (List.mem_append_left _ hsaved))
          · exact Or.inl (Or.inr (Or.inl (List.mem_append_left _ hrevoked)))
          · exact Or.inl (Or.inr (Or.inr (Or.inr hnone)))
        · refine Or.inr ⟨other, List.mem_of_getElem? (i := i) ?_, howed⟩
          rw [State.apply, List.getElem?_set_ne (Ne.symm hit)]
          exact hi
    · obtain ⟨htok, howed⟩ := hnew tok hmem
      exact ⟨htok, Or.inr ⟨e.call, hmine, howed⟩⟩

/-- Only an answer gives a token away. -/
theorem not_issued_next (st : State) (now now' : Int) (ok : Bool) (call : Call) (tok : GoString) :
    .issued tok ∉ (st.next now now' ok call).marks := by
  have hrevoke : ∀ other, .issued tok ∉ st.revoke other := by
    intro other h
    obtain hnone | hone := revoke_cases st other
    · exact absurd (hnone ▸ h) List.not_mem_nil
    · exact absurd (List.mem_singleton.mp (hone ▸ h)) (by simp)
  cases call with
  | refreshing id s => exact fun h => absurd (List.mem_singleton.mp h) (by simp)
  | rotated id s =>
      rw [State.next]
      split
      · exact fun h => absurd (List.mem_singleton.mp h) (by simp)
      · exact List.not_mem_nil
  | ending todos lock last result =>
      cases todos with
      | cons todo todos =>
          cases todo with
          | logout =>
              rw [State.next]
              split <;> exact List.not_mem_nil
          | revokeGrant grant =>
              rw [State.next, State.revokeGrant]
              split
              · exact hrevoke _
              · exact List.not_mem_nil
          | revoke refreshToken => exact hrevoke _
      | nil =>
          cases lock with
          | some id => exact List.not_mem_nil
          | none => cases last <;> exact List.not_mem_nil
  | locked purpose id =>
      cases purpose <;> rw [State.next] <;> repeat' split
      all_goals exact List.not_mem_nil
  | _ =>
      rw [State.next]
      repeat' split
      all_goals exact List.not_mem_nil

theorem State.Kept.step (hk : st.Kept) (event : Event) : (st.step event).Kept := by
  cases event with
  | call request =>
      have hstart : request.call.Ours st.client := by
        cases request with
        | validate => trivial
        | logout => trivial
        | sweep => trivial
      refine ⟨fun other hother => ?_, fun newer older tok hlog => ?_⟩
      · obtain hold | hnew := List.mem_append.mp hother
        · exact hk.ours other hold
        · exact List.mem_singleton.mp hnew ▸ hstart
      · obtain ⟨htok, hsettled⟩ := hk.owed newer older tok hlog
        refine ⟨htok, hsettled.imp_right ?_⟩
        rintro ⟨other, hother, howed⟩
        exact ⟨other, List.mem_append_left _ hother, howed⟩
  | advance t now now' ok =>
      rw [State.step]
      split
      · exact hk
      next call hget =>
        refine hk.apply hget (next_ours (hk.ours call (List.mem_of_getElem? hget))) (fun tok hissued => ?_)
          fun tok htok howes => next_owes howes htok
        exact absurd hissued (not_issued_next st now now' ok call tok)
  | answer t now a =>
      rw [State.step]
      split
      next id s hget =>
        have hours := hk.ours _ (List.mem_of_getElem? hget)
        exact hk.apply hget (answered_ours st id s now a) (fun tok hissued => answered_owes hours hissued)
          fun tok _ howes => absurd howes (fun h => h)
      · exact hk
  | crash client =>
      refine ⟨fun other hother => absurd hother List.not_mem_nil, fun newer older tok hlog => ?_⟩
      cases newer with
      | nil => exact absurd (List.cons.inj hlog).1 (by simp)
      | cons first newer =>
          obtain ⟨rfl, hold⟩ := List.cons.inj hlog
          exact ⟨(hk.owed newer older tok hold).1, Or.inl (Or.inr (Or.inr (Or.inl List.mem_cons_self)))⟩

/-! ### Runs -/

/-- A session that is gone is not stored again. -/
theorem next_none (h : st.session = none) : (st.next now now' ok call).session = none := by
  have hsave : st.canSave ok = false := by
    rw [State.canSave, h]
    exact Bool.and_false ok
  cases call with
  | marking id s =>
      rw [State.next, if_neg (by simp [hsave])]
      exact h
  | retrying id s =>
      rw [State.next, if_neg (by simp [hsave])]
      exact h
  | rotated id s =>
      rw [State.next, if_neg (by simp [hsave])]
      exact h
  | ending todos lock last result =>
      have hquiet := (quiet_ending st now now' ok todos lock last result).2
      rw [h] at hquiet
      exact Option.eq_none_iff_forall_ne_some.mpr fun s hs => absurd (hquiet s hs) (by simp)
  | locked purpose id =>
      cases purpose <;> rw [State.next, h] <;> exact h
  | _ =>
      rw [State.next]
      repeat' split
      all_goals exact h

theorem State.step_none (h : st.session = none) (event : Event) : (st.step event).session = none := by
  cases event with
  | advance t now now' ok =>
      rw [State.step]
      split
      · exact h
      · exact next_none h
  | answer t now a =>
      rw [State.step]
      split
      next id s _ =>
        have hsame : (st.answered id s now a).session = st.session := by
          rw [State.answered]
          dsimp only
          split <;> rfl
        exact hsame.trans h
      · exact h
  | _ => exact h

/-- In every run, a refresh token goes out again only after a refresh with it has ended in the retryable
error, or after the provider has given it away again; a session that is gone is never stored again; and a
new token is saved, or revoked where that can be done, or a call still owes it, unless the process has
crashed since. -/
theorem refresh_single_use (client : Option OIDCClient) (s : OIDCSession) (events : List Event) :
    let st := Run.exec State.step (State.start client s) events
    (∀ newer older tok, st.log = newer ++ .presented tok :: older → ¬Spent tok older) ∧
      (∀ pre later, events = pre ++ later →
        (Run.exec State.step (State.start client s) pre).session = none → st.session = none) ∧
      ∀ newer older tok, st.log = newer ++ .issued tok :: older →
        Settled st tok newer ∨ ∃ call ∈ st.calls, call.Owes st.client tok := by
  have hrun : ∀ events, (Run.exec State.step (State.start client s) events).Sound ∧
      (Run.exec State.step (State.start client s) events).Kept := by
    intro events
    induction events using List.reverseRecOn with
    | nil =>
        refine ⟨sound_start client s, fun _ hmem => absurd hmem List.not_mem_nil, fun newer older tok h => ?_⟩
        exact absurd h (by simp [State.start])
    | append_singleton events event ih =>
        rw [Run.exec_concat]
        exact ⟨ih.1.step event, ih.2.step event⟩
  refine ⟨(hrun events).1.single, ?_, fun newer older tok h => ((hrun events).2.owed newer older tok h).2⟩
  rintro pre later rfl hgone
  rw [Run.exec_append]
  generalize Run.exec State.step (State.start client s) pre = st at hgone
  induction later generalizing st with
  | nil => exact hgone
  | cons event later ih => exact ih _ (State.step_none hgone event)

section Example

def provider : OIDCClient := ⟨ascii "https://id", ascii "sysmon", true⟩

/-- A session whose grant has run out. -/
def oldSession : OIDCSession where
  token := ascii "t"
  username := ascii "authd:1"
  role := roleUser
  createdAt := 0
  expiresAt := .at sessionIdleTTL
  oidcGrant := ⟨ascii "https://id", ascii "sysmon", ascii "1", ascii "one", roleUser, ascii "R1", 0⟩
  refreshInFlight := false
  refreshRetryAt := .missing

/-- A validation, and the token the provider answers it with. -/
def refreshRound (t : Nat) (tok : GoString) : List Event :=
  Event.call .validate :: List.replicate 8 (Event.advance t 0 0 true) ++
    [Event.answer t 0 (.tokens tok (some (roleUser, 0)) true)] ++ List.replicate 3 (Event.advance t 0 0 true)

/-- A save that fails, and all that is done then. -/
def refreshUnsaved (tok : GoString) : List Event :=
  (refreshRound 0 tok).take 10 ++ Event.advance 0 0 0 false :: List.replicate 6 (Event.advance 0 0 0 true)

/-- Each new token has been saved or revoked once all calls are through. -/
def AllSettled (st : State) : Prop :=
  (∀ call ∈ st.calls, call = .ending [] none none .ended) →
    ∀ tok, .issued tok ∈ st.log → .saved tok ∈ st.log ∨ .revoked tok ∈ st.log

/-- A provider may give an old token away again, a crash may come before the new one is saved, and there
may be nowhere to revoke it. -/
theorem reissued_and_lost :
    (¬∀ (client : Option OIDCClient) (s : OIDCSession) (events : List Event) (newer older : List Mark)
        (tok : GoString), (Run.exec State.step (State.start client s) events).log =
          newer ++ .presented tok :: older → .presented tok ∈ older → .retryable tok ∈ older) ∧
      (¬∀ (client : OIDCClient) (s : OIDCSession) (events : List Event), client.revocation = true →
        AllSettled (Run.exec State.step (State.start (some client) s) (events ++ [.crash (some client)]))) ∧
      ¬∀ (client : OIDCClient) (s : OIDCSession) (events : List Event),
        .crashed ∉ (Run.exec State.step (State.start (some client) s) events).log →
        AllSettled (Run.exec State.step (State.start (some client) s) events) := by
  refine ⟨fun hall => ?_, fun hall => ?_, fun hall => ?_⟩
  · have hlog : (Run.exec State.step (State.start (some provider) oldSession)
        (refreshRound 0 (ascii "R2") ++ refreshRound 1 (ascii "R1") ++
          (refreshRound 2 (ascii "R2")).take 9)).log =
        [] ++ .presented (ascii "R1") :: [.saved (ascii "R1"), .issued (ascii "R1"), .presented (ascii "R2"),
          .saved (ascii "R2"), .issued (ascii "R2"), .presented (ascii "R1")] := by decide
    exact absurd (hall _ _ _ _ _ _ hlog (by decide)) (by decide)
  · have hrun : (Run.exec State.step (State.start (some provider) oldSession)
          ((refreshRound 0 (ascii "R2")).take 10 ++ [.crash (some provider)])).calls = [] ∧
        (Run.exec State.step (State.start (some provider) oldSession)
          ((refreshRound 0 (ascii "R2")).take 10 ++ [.crash (some provider)])).log =
          [.crashed, .issued (ascii "R2"), .presented (ascii "R1")] := by decide
    obtain ⟨hcalls, hlog⟩ := hrun
    have hsettled := hall provider oldSession ((refreshRound 0 (ascii "R2")).take 10) rfl
      (by rw [hcalls]; exact fun call h => absurd h List.not_mem_nil) (ascii "R2")
    rw [hlog] at hsettled
    exact absurd (hsettled (by decide)) (by decide)
  · have hrun : (Run.exec State.step (State.start (some { provider with revocation := false }) oldSession)
          (refreshUnsaved (ascii "R2"))).calls = [.ending [] none none .ended] ∧
        (Run.exec State.step (State.start (some { provider with revocation := false }) oldSession)
          (refreshUnsaved (ascii "R2"))).log = [.issued (ascii "R2"), .presented (ascii "R1")] := by
      decide
    obtain ⟨hcalls, hlog⟩ := hrun
    have hsettled := hall { provider with revocation := false } oldSession (refreshUnsaved (ascii "R2"))
      (by rw [hlog]; decide) (by simp [hcalls]) (ascii "R2")
    rw [hlog] at hsettled
    exact absurd (hsettled (by decide)) (by decide)

end Example

end Sysmon.Auth.OIDC
