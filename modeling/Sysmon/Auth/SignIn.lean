import Sysmon.Auth.Refresh
import Sysmon.Lib.Base64
import Sysmon.Lib.Custody

/-!
# Signing in at the provider

A login stores a flow and sends the browser to the provider. The callback takes the flow out again and
exchanges the code for tokens, and the grant that comes of it becomes a session, or for the app a handoff: it
is stored under a code, which the app gives back with the verifier to the challenge it began with. A grant that
becomes nothing is revoked. One event is one transaction or one call of the provider, with the computation that
leads to the next one. Sessions are only created here, and what becomes of one is `Sysmon.Auth.OIDC`.
-/

namespace Sysmon.Auth.SignIn

open Agents (GoString)
open Fleet (ascii)
open OIDC (OIDCIdentity OIDCClient OIDCSession isOurs)

/-! ### Challenges -/

/-- `base64.RawURLEncoding.EncodeToString`. -/
def rawURLEncode (bytes : List UInt8) : GoString :=
  ((Base64.encode bytes).filter fun c => c ≠ '=').map fun c =>
    if c = '+' then 45 else if c = '/' then 95 else UInt8.ofNat c.toNat

/-- `base64.RawURLEncoding.DecodeString`, which passes over line ends. -/
def rawURLDecode (text : GoString) : Option (List UInt8) :=
  let text := text.filter fun c => c ≠ 13 && c ≠ 10
  let letters := text.map fun c => if c = 45 then '+' else if c = 95 then '/' else Char.ofNat c.toNat
  if text.any fun c => c = 43 || c = 47 || c = 61 then none
  else Base64.decode (fun _ => false) (letters ++ List.replicate ((4 - letters.length % 4) % 4) '=')

def validMobileChallenge (raw : GoString) : Bool :=
  match rawURLDecode raw with
  | none => false
  | some decoded => decoded.length = 32 && rawURLEncode decoded = raw

/-! ### What is stored -/

structure OIDCFlow where
  state : GoString
  nonce : GoString
  verifier : GoString
  mobileChallenge : GoString
  expiresAt : Int
  deriving DecidableEq, Repr

structure MobileHandoff where
  identity : OIDCIdentity
  challenge : GoString
  expiresAt : Int
  deriving DecidableEq, Repr

structure Store where
  oidcFlows : Bucket OIDCFlow
  mobileHandoffs : Bucket MobileHandoff
  sessions : Bucket OIDCSession

def flowTTL : Int := 10 * 60 * second

def handoffTTL : Int := 60 * second

/-! ### The provider -/

def scopeRead : GoString := ascii "sysmon.read"

def scopeManage : GoString := ascii "sysmon.manage"

/-- An access token that is an `at+jwt` and verifies. -/
structure AccessToken where
  issuer : GoString
  subject : GoString
  clientID : GoString
  /-- The words of the scope. -/
  scope : List GoString
  expiresAt : Int
  deriving DecidableEq, Repr

/-- An ID token that verifies, which is to say that it is of the client's provider. -/
structure IdToken where
  subject : GoString
  nonce : GoString
  /-- It has no hash of the access token, or the right one. -/
  hashMatches : Bool
  /-- `preferred_username`, `name` and `email` without white space around them, if the claims can be read. -/
  profile : Option (GoString × GoString × GoString)
  deriving DecidableEq, Repr

/-- What the provider gives for a code. -/
structure Tokens where
  refreshToken : GoString
  idToken : Option IdToken
  access : Option AccessToken
  deriving DecidableEq, Repr

attribute [local instance] Agents.decidableMemStrings

def identityFromAccess (c : OIDCClient) (access : Option AccessToken) (issuer subject : GoString) :
    Option OIDCIdentity :=
  match access with
  | none => none
  | some access =>
      if access.issuer ≠ issuer ∨ access.subject = [] ∨ access.subject ≠ subject then none
      else if access.clientID ≠ c.clientID then none
      else if scopeRead ∉ access.scope then none
      else some ⟨issuer, c.clientID, subject, [],
        if scopeManage ∈ access.scope then roleAdmin else roleUser, [], access.expiresAt⟩

def displayName (subject : GoString) : GoString × GoString × GoString → GoString
  | (username, name, email) =>
      if username ≠ [] then username else if name ≠ [] then name else if email ≠ [] then email else subject

/-- `Exchange`, from the tokens on. -/
def exchange (c : OIDCClient) (flow : OIDCFlow) (tokens : Tokens) : Option OIDCIdentity :=
  match tokens.idToken with
  | none => none
  | some id =>
      if flow.nonce = [] ∨ id.nonce ≠ flow.nonce then none
      else if !id.hashMatches then none
      else
        match identityFromAccess c tokens.access c.issuer id.subject, id.profile with
        | some identity, some profile =>
            if tokens.refreshToken = [] then none
            else some { identity with
              displayName := displayName identity.subject profile, refreshToken := tokens.refreshToken }
        | _, _ => none

/-! ### Calls -/

/-- A revocation that is still to be done. -/
structure Todo where
  /-- It is that of `revokeGrant`, which leaves a grant of another provider or client alone. -/
  checked : Bool
  refreshToken : GoString
  issuer : GoString
  clientID : GoString
  deriving DecidableEq, Repr

def revokeGrant (grant : OIDCIdentity) : Todo := ⟨true, grant.refreshToken, grant.issuer, grant.clientID⟩

def revokeIdentity (identity : OIDCIdentity) : Todo :=
  ⟨false, identity.refreshToken, identity.issuer, identity.clientID⟩

/-- To whom `Revoke` sends the token. -/
def Todo.sentTo (todo : Todo) (client : Option OIDCClient) : Option OIDCClient :=
  client.filter fun c => c.revocation && todo.refreshToken ≠ [] &&
    (!todo.checked || todo.issuer = c.issuer && todo.clientID = c.clientID)

/-- Where a call is. -/
inductive Call where
  /-- The request for tokens is out. -/
  | exchanging (id : GoString) (flow : OIDCFlow)
  | granted (id : GoString) (flow : OIDCFlow) (identity : OIDCIdentity)
  /-- The app has given back the code, with this verifier. -/
  | redeemed (entry : MobileHandoff) (verifier : GoString)
  /-- Grants are to be revoked, and then perhaps a handoff is to be stored. -/
  | revoking (todos : List Todo) (next : Option (GoString × MobileHandoff))
  deriving DecidableEq, Repr

def Call.done : Call := .revoking [] none

/-- `Exchange` revokes the token of a grant that it does not accept. -/
def afterExchange (c : OIDCClient) (id : GoString) (flow : OIDCFlow) (tokens : Tokens) : Call :=
  match exchange c flow tokens with
  | none => .revoking [⟨false, tokens.refreshToken, c.issuer, c.clientID⟩] none
  | some identity => .granted id flow identity

/-- What has been done. -/
inductive Mark where
  | started (id : GoString) (flow : OIDCFlow) (now : Int)
  /-- A callback has taken out the flow, with the state that came back. -/
  | taken (id : GoString) (flow : OIDCFlow) (state : GoString) (now : Int)
  | issued (flow : OIDCFlow) (c : OIDCClient) (tokens : Tokens)
  | handedOff (entry : MobileHandoff) (now : Int)
  | redeemed (entry : MobileHandoff) (verifier : GoString) (c : OIDCClient) (now : Int)
  /-- There is a session, for the app if it has a verifier. -/
  | created (session : OIDCSession) (verifier : Option GoString)
  /-- A revocation has been done, and the token has been sent there. -/
  | ended (todo : Todo) (sentTo : Option OIDCClient)
  /-- Nobody holds the grant with this token any more. -/
  | lost (refreshToken : GoString)
  deriving DecidableEq, Repr

structure State where
  db : Store
  client : Option OIDCClient
  calls : List Call
  /-- The newest first. -/
  log : List Mark

/-- What a step of a call leaves behind. -/
structure Effect where
  db : Store
  marks : List Mark
  call : Call

inductive Event where
  /-- `handleOIDCLogin`, with what is drawn for it. -/
  | login (challenge id state nonce verifier : GoString) (now now' : Int) (ok : Bool)
  /-- `handleOIDCCallback`. -/
  | callback (id state error code : GoString) (now : Int) (ok : Bool)
  /-- `handleMobileExchange`. -/
  | redeem (code verifier : GoString) (now : Int) (ok : Bool)
  | sweep (now : Int) (ok : Bool)
  /-- The provider answers, with an error or with tokens. -/
  | answer (t : Nat) (tokens : Option Tokens)
  /-- A call puts its identity away, under something drawn. -/
  | store (t : Nat) (draw : GoString) (now now' : Int) (ok : Bool)
  | advance (t : Nat) (ok : Bool)
  /-- The process dies, and one with another configuration may start. -/
  | restart (client : Option OIDCClient)
  deriving DecidableEq, Repr

section Step

variable (sum256 : GoString → List UInt8)

def oidcUsername (identity : OIDCIdentity) : GoString :=
  let digit (value : UInt8) : UInt8 := if value < 10 then 48 + value else 87 + value
  ascii "authd:" ++ ((sum256 (identity.issuer ++ 0 :: identity.subject)).take 16).flatMap fun b =>
    [digit (b / 16), digit (b % 16)]

/-- `CreateOIDCSession`, up to its transaction. -/
def createOIDCSession (client : Option OIDCClient) (identity : OIDCIdentity) (token : GoString) (now now' : Int) :
    Option OIDCSession :=
  if !isOurs client identity || identity.subject = [] || identity.refreshToken = [] ||
      !(now < identity.expiresAt) || (identity.role ≠ roleUser && identity.role ≠ roleAdmin) then none
  else some
    { token := token, username := oidcUsername sum256 identity, role := identity.role, createdAt := format now',
      expiresAt := .at (format (now' + sessionIdleTTL)), oidcGrant := identity, refreshInFlight := false,
      refreshRetryAt := .missing }

/-- The challenge to a verifier. -/
def challengeOf (verifier : GoString) : GoString := rawURLEncode (sum256 verifier)

namespace State

/-- The transaction of `CreateOIDCSession`, and the revocation for an error. -/
def create (st : State) (identity : OIDCIdentity) (verifier : Option GoString) (draw : GoString) (now now' : Int)
    (ok : Bool) : Effect :=
  match if ok then createOIDCSession sum256 st.client identity draw now now' else none with
  | none => ⟨st.db, [], .revoking [revokeIdentity identity] none⟩
  | some session =>
      ⟨{ st.db with sessions := st.db.sessions.insert draw session },
        .created session verifier ::
          (st.db.sessions.lookup draw).toList.map fun old => .lost old.oidcGrant.refreshToken,
        .done⟩

/-- The transaction of `sweepExpiredMobileHandoffs`: what it leaves, and what is to be revoked. -/
def sweepExpiredMobileHandoffs (st : State) (now : Int) (ok : Bool) : Bucket MobileHandoff × List Todo :=
  if ok then
    (GoMap.keep (fun entry => now < entry.expiresAt) st.db.mobileHandoffs,
      (Custody.failing (fun entry => now < entry.expiresAt) st.db.mobileHandoffs).map fun entry =>
        revokeGrant entry.identity)
  else (st.db.mobileHandoffs, [])

/-- `StartMobileHandoff`, up to the transaction that stores the handoff. -/
def startMobileHandoff (st : State) (identity : OIDCIdentity) (challenge draw : GoString) (now now' : Int)
    (ok : Bool) : Effect :=
  if !validMobileChallenge challenge then ⟨st.db, [], .revoking [revokeIdentity identity] none⟩
  else
    let entry : MobileHandoff := ⟨identity, challenge, now + handoffTTL⟩
    let swept := st.sweepExpiredMobileHandoffs now' ok
    ⟨{ st.db with mobileHandoffs := swept.1 }, [.handedOff entry now], .revoking swept.2 (some (draw, entry))⟩

/-- A call puts its identity away. -/
def store (st : State) (draw : GoString) (now now' : Int) (ok : Bool) : Call → Effect
  | .granted _ flow identity =>
      if flow.mobileChallenge ≠ [] then st.startMobileHandoff identity flow.mobileChallenge draw now now' ok
      else st.create sum256 identity none draw now now' ok
  | .redeemed entry verifier => st.create sum256 entry.identity (some verifier) draw now now' ok
  | call => ⟨st.db, [], call⟩

/-- A call does the next of its revocations, or stores its handoff. -/
def advance (st : State) (ok : Bool) : Call → Effect
  | .revoking (todo :: todos) next => ⟨st.db, [.ended todo (todo.sentTo st.client)], .revoking todos next⟩
  | .revoking [] (some (code, entry)) =>
      if ok then
        ⟨{ st.db with mobileHandoffs := st.db.mobileHandoffs.insert code entry },
          (st.db.mobileHandoffs.lookup code).toList.map fun old => .lost old.identity.refreshToken, .done⟩
      else ⟨st.db, [], .revoking [revokeIdentity entry.identity] none⟩
  | call => ⟨st.db, [], call⟩

/-- The provider answers. -/
def answered (st : State) (tokens : Option Tokens) : Call → Effect
  | .exchanging id flow =>
      match st.client, tokens with
      | some c, some tokens => ⟨st.db, [.issued flow c tokens], afterExchange c id flow tokens⟩
      | _, _ => ⟨st.db, [], .done⟩
  | call => ⟨st.db, [], call⟩

def apply (st : State) (t : Nat) (e : Effect) : State :=
  { st with db := e.db, calls := st.calls.set t e.call, log := e.marks ++ st.log }

/-- The call takes a step, if there is one. -/
def go (st : State) (t : Nat) (step : Call → Effect) : State :=
  match st.calls[t]? with
  | none => st
  | some call => st.apply t (step call)

/-- `StartOIDCFlow`. -/
def startOIDCFlow (st : State) (challenge id state nonce verifier : GoString) (now now' : Int) (ok : Bool) : State :=
  if st.client.isNone || challenge ≠ [] && !validMobileChallenge challenge || !ok then st
  else
    let flow : OIDCFlow := ⟨state, nonce, verifier, challenge, now + flowTTL⟩
    let kept := GoMap.keep (fun old => !(old.expiresAt < now')) st.db.oidcFlows
    { st with db := { st.db with oidcFlows := kept.insert id flow }, log := .started id flow now :: st.log }

/-- The callback up to its request, with `ConsumeOIDCFlow`. -/
def consumeOIDCFlow (st : State) (id state error code : GoString) (now : Int) (ok : Bool) : State :=
  match if st.client.isNone || !ok then none else st.db.oidcFlows.lookup id with
  | none => st
  | some flow =>
      { st with
        db := { st.db with oidcFlows := st.db.oidcFlows.erase id }
        calls := if flow.expiresAt < now ∨ flow.state ≠ state ∨ error ≠ [] ∨ code = [] then st.calls
          else st.calls ++ [.exchanging id flow]
        log := .taken id flow state now :: st.log }

/-- `ConsumeMobileHandoff`. -/
def consumeMobileHandoff (st : State) (code verifier : GoString) (now : Int) (ok : Bool) : State :=
  match st.client with
  | none => st
  | some c =>
      if code.length ≠ 43 ∨ verifier.length < 43 ∨ 128 < verifier.length ∨ !ok then st
      else
        match st.db.mobileHandoffs.lookup code with
        | none => st
        | some entry =>
            let db := { st.db with mobileHandoffs := st.db.mobileHandoffs.erase code }
            if entry.expiresAt < now ∨ challengeOf sum256 verifier ≠ entry.challenge then
              { st with db := db, calls := st.calls ++ [.revoking [revokeGrant entry.identity] none] }
            else
              { st with
                db := db
                calls := st.calls ++ [.redeemed entry verifier]
                log := .redeemed entry verifier c now :: st.log }

end State

/-- What a call holds. -/
def Call.tokens : Call → List GoString
  | .exchanging _ _ => []
  | .granted _ _ identity => [identity.refreshToken]
  | .redeemed entry _ => [entry.identity.refreshToken]
  | .revoking todos next =>
      todos.map Todo.refreshToken ++ next.toList.map fun pair => pair.2.identity.refreshToken

def State.step (st : State) : Event → State
  | .login challenge id state nonce verifier now now' ok =>
      st.startOIDCFlow challenge id state nonce verifier now now' ok
  | .callback id state error code now ok => st.consumeOIDCFlow id state error code now ok
  | .redeem code verifier now ok => st.consumeMobileHandoff sum256 code verifier now ok
  | .sweep now ok =>
      let swept := st.sweepExpiredMobileHandoffs now ok
      { st with db := { st.db with mobileHandoffs := swept.1 }, calls := st.calls ++ [.revoking swept.2 none] }
  | .answer t tokens => st.go t (st.answered tokens)
  | .store t draw now now' ok => st.go t (st.store sum256 draw now now' ok)
  | .advance t ok => st.go t (st.advance ok)
  | .restart client => ⟨st.db, client, [], (st.calls.flatMap Call.tokens).map .lost ++ st.log⟩

end Step

/-- A process that has just started, with an empty database. -/
def State.start (client : Option OIDCClient) : State := ⟨⟨∅, ∅, ∅⟩, client, [], []⟩

/-! ### What comes of an exchange -/

variable {sum256 : GoString → List UInt8} {st : State} {t : Nat} {call : Call} {e : Effect} {c : OIDCClient}
  {flow : OIDCFlow} {identity : OIDCIdentity}

theorem identityFromAccess_some {access : Option AccessToken} {issuer subject : GoString}
    (h : identityFromAccess c access issuer subject = some identity) :
    identity.issuer = issuer ∧ identity.clientID = c.clientID ∧ identity.subject ≠ [] ∧
      ∃ token, access = some token ∧ scopeRead ∈ token.scope ∧
        identity.role = (if scopeManage ∈ token.scope then roleAdmin else roleUser) ∧
        identity.expiresAt = token.expiresAt := by
  unfold identityFromAccess at h
  split at h
  · cases h
  · rename_i token
    split at h
    · cases h
    · rename_i hsubject
      split at h
      · cases h
      · split at h
        · cases h
        · rename_i hread
          cases h
          have hnonempty : subject ≠ [] := by
            rintro rfl
            exact hsubject (by by_cases hempty : token.subject = [] <;> simp [hempty])
          exact ⟨rfl, rfl, hnonempty, token, rfl, not_not.mp hread, rfl, rfl⟩

/-- The grant is of the provider and the client that were asked, its token is the one that was given, and its
role is what the scope allows. -/
theorem exchange_some {tokens : Tokens} (h : exchange c flow tokens = some identity) :
    identity.refreshToken = tokens.refreshToken ∧ tokens.refreshToken ≠ [] ∧ isOurs (some c) identity = true ∧
      (∃ id, tokens.idToken = some id ∧ id.nonce = flow.nonce ∧ flow.nonce ≠ []) ∧
      ∃ token, tokens.access = some token ∧ scopeRead ∈ token.scope ∧
        identity.role = (if scopeManage ∈ token.scope then roleAdmin else roleUser) ∧
        identity.expiresAt = token.expiresAt := by
  rw [exchange] at h
  split at h
  · cases h
  · rename_i id hid
    split at h
    · cases h
    · rename_i hnonce
      obtain ⟨hnonempty, hsame⟩ := not_or.mp hnonce
      split at h
      · cases h
      · split at h
        · rename_i found profile hfound _
          split at h
          · cases h
          · rename_i htoken
            cases h
            obtain ⟨hissuer, hclient, -, token, haccess, hread, hrole, hexpires⟩ := identityFromAccess_some hfound
            refine ⟨rfl, htoken, ?_, ⟨id, hid, not_not.mp hsame, hnonempty⟩, token, haccess, hread, hrole, hexpires⟩
            simp [isOurs, hissuer, hclient]
        · cases h

theorem createOIDCSession_some {client : Option OIDCClient} {draw : GoString} {now now' : Int} {session : OIDCSession}
    (h : createOIDCSession sum256 client identity draw now now' = some session) :
    session.oidcGrant = identity ∧ session.role = identity.role ∧ isOurs client identity = true ∧
      now < identity.expiresAt := by
  rw [createOIDCSession] at h
  split at h
  · cases h
  · rename_i hchecks
    cases h
    simp only [Bool.or_eq_true, not_or, Bool.not_eq_true', Bool.not_eq_false, decide_eq_true_eq] at hchecks
    exact ⟨rfl, rfl, hchecks.1.1.1.1, hchecks.1.2⟩

end Sysmon.Auth.SignIn
