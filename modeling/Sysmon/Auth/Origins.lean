import Sysmon.Auth.SignIn
import Sysmon.Lib.Run

/-!
# Where a session comes from

A session is created only at the end of a sign-in that was begun here, and the marks of its steps are in the
log: the flow was started and taken out with its state while it was good, the provider gave tokens for it, and
if the flow was one of the app, the app has come with the verifier in time. The other thing to know of a grant
is where its token is sent when it is given up.
-/

namespace Sysmon.Auth.SignIn

open Agents (GoString)
open OIDC (OIDCIdentity OIDCClient OIDCSession isOurs)

variable {sum256 : GoString → List UInt8} {st : State} {t : Nat} {call : Call} {c : OIDCClient} {flow : OIDCFlow}
  {identity : OIDCIdentity} {entry : MobileHandoff} {log log' : List Mark}

/-! ### The steps of a sign-in -/

/-- The flow was started, and a callback that came with its state took it while it was good. -/
def Begun (log : List Mark) (flow : OIDCFlow) : Prop :=
  ∃ id start now, .started id flow start ∈ log ∧ .taken id flow flow.state now ∈ log ∧ now ≤ start + flowTTL

/-- The identity came of the exchange for the flow. -/
def Obtained (log : List Mark) (flow : OIDCFlow) (identity : OIDCIdentity) : Prop :=
  Begun log flow ∧ ∃ c tokens, .issued flow c tokens ∈ log ∧ exchange c flow tokens = some identity

/-- The handoff was made of a flow of the app. -/
def HandedOff (log : List Mark) (entry : MobileHandoff) : Prop :=
  (∃ flow, Obtained log flow entry.identity ∧ flow.mobileChallenge = entry.challenge ∧ entry.challenge ≠ []) ∧
    ∃ made, .handedOff entry made ∈ log ∧ entry.expiresAt = made + handoffTTL

/-- The app came with the verifier in time. -/
def Redeemed (sum256 : GoString → List UInt8) (log : List Mark) (entry : MobileHandoff) (verifier : GoString) : Prop :=
  HandedOff log entry ∧ challengeOf sum256 verifier = entry.challenge ∧
    ∃ c now, .redeemed entry verifier c now ∈ log ∧ now ≤ entry.expiresAt

/-- A session of the browser is of a flow without a challenge, one of the app of a handoff. -/
def Origin (sum256 : GoString → List UInt8) (log : List Mark) (session : OIDCSession) : Option GoString → Prop
  | none => ∃ flow, Obtained log flow session.oidcGrant ∧ flow.mobileChallenge = []
  | some verifier => ∃ entry, Redeemed sum256 log entry verifier ∧ entry.identity = session.oidcGrant

theorem Begun.mono (h : Begun log flow) (hsub : log ⊆ log') : Begun log' flow := by
  obtain ⟨id, start, now, hstarted, htaken, hnow⟩ := h
  exact ⟨id, start, now, hsub hstarted, hsub htaken, hnow⟩

theorem Obtained.mono (h : Obtained log flow identity) (hsub : log ⊆ log') : Obtained log' flow identity := by
  obtain ⟨hbegun, c, tokens, hissued, hexchange⟩ := h
  exact ⟨hbegun.mono hsub, c, tokens, hsub hissued, hexchange⟩

theorem HandedOff.mono (h : HandedOff log entry) (hsub : log ⊆ log') : HandedOff log' entry := by
  obtain ⟨⟨flow, hobtained, hflow⟩, made, hmade, hexpires⟩ := h
  exact ⟨⟨flow, hobtained.mono hsub, hflow⟩, made, hsub hmade, hexpires⟩

theorem Redeemed.mono {verifier : GoString} (h : Redeemed sum256 log entry verifier) (hsub : log ⊆ log') :
    Redeemed sum256 log' entry verifier := by
  obtain ⟨hentry, hchallenge, c, now, hredeemed, hnow⟩ := h
  exact ⟨hentry.mono hsub, hchallenge, c, now, hsub hredeemed, hnow⟩

theorem Origin.mono {session : OIDCSession} {verifier : Option GoString} (h : Origin sum256 log session verifier)
    (hsub : log ⊆ log') : Origin sum256 log' session verifier := by
  cases verifier with
  | none =>
      obtain ⟨flow, hobtained, hflow⟩ := h
      exact ⟨flow, hobtained.mono hsub, hflow⟩
  | some verifier =>
      obtain ⟨entry, hredeemed, hidentity⟩ := h
      exact ⟨entry, hredeemed.mono hsub, hidentity⟩

/-- A token goes to the provider that gave it, or the grant was redeemed by the app. -/
def Proper (log : List Mark) (todo : Todo) (c : OIDCClient) : Prop :=
  (todo.issuer = c.issuer ∧ todo.clientID = c.clientID) ∨
    ∃ entry verifier now, .redeemed entry verifier c now ∈ log ∧ HandedOff log entry ∧
      todo = revokeIdentity entry.identity

theorem Proper.mono {todo : Todo} (h : Proper log todo c) (hsub : log ⊆ log') : Proper log' todo c := by
  obtain hown | ⟨entry, verifier, now, hredeemed, hentry, htodo⟩ := h
  · exact Or.inl hown
  · exact Or.inr ⟨entry, verifier, now, hsub hredeemed, hentry.mono hsub, htodo⟩

/-- What is known of a call. -/
def Call.Sound (sum256 : GoString → List UInt8) (client : Option OIDCClient) (log : List Mark) : Call → Prop
  | .exchanging _ flow => Begun log flow
  | .granted _ flow identity => Obtained log flow identity ∧ isOurs client identity = true
  | .redeemed entry verifier => Redeemed sum256 log entry verifier ∧
      ∀ c, client = some c → ∃ now, .redeemed entry verifier c now ∈ log
  | .revoking todos next => (∀ todo ∈ todos, ∀ c, todo.sentTo client = some c → Proper log todo c) ∧
      ∀ pair, next = some pair → HandedOff log pair.2 ∧ isOurs client pair.2.identity = true

theorem Call.Sound.mono {client : Option OIDCClient} (h : call.Sound sum256 client log) (hsub : log ⊆ log') :
    call.Sound sum256 client log' := by
  cases call with
  | exchanging id flow => exact Begun.mono h hsub
  | granted id flow identity => exact ⟨h.1.mono hsub, h.2⟩
  | redeemed entry verifier =>
      refine ⟨h.1.mono hsub, fun c hc => ?_⟩
      obtain ⟨now, hnow⟩ := h.2 c hc
      exact ⟨now, hsub hnow⟩
  | revoking todos next =>
      exact ⟨fun todo htodo c hc => (h.1 todo htodo c hc).mono hsub,
        fun pair hpair => ⟨(h.2 pair hpair).1.mono hsub, (h.2 pair hpair).2⟩⟩

/-- The identifiers of the flows that were started, and of those that were taken. -/
def startedIds (log : List Mark) : List GoString :=
  log.filterMap fun
    | .started id _ _ => some id
    | _ => none

def takenIds (log : List Mark) : List GoString :=
  log.filterMap fun
    | .taken id _ _ _ => some id
    | _ => none

theorem takenIds_append (left right : List Mark) : takenIds (left ++ right) = takenIds left ++ takenIds right :=
  List.filterMap_append

theorem startedIds_append (left right : List Mark) :
    startedIds (left ++ right) = startedIds left ++ startedIds right := List.filterMap_append

structure Sound (sum256 : GoString → List UInt8) (st : State) : Prop where
  flows : ∀ id flow, st.db.oidcFlows.lookup id = some flow →
    ∃ start, .started id flow start ∈ st.log ∧ flow.expiresAt = start + flowTTL
  handoffs : ∀ code entry, st.db.mobileHandoffs.lookup code = some entry → HandedOff st.log entry
  calls : ∀ call ∈ st.calls, call.Sound sum256 st.client st.log
  sessions : ∀ token session, st.db.sessions.lookup token = some session →
    ∃ verifier, Mark.created session verifier ∈ st.log ∧ Origin sum256 st.log session verifier
  sent : ∀ todo c, .ended todo (some c) ∈ st.log → Proper st.log todo c
  once : ∀ id, (takenIds st.log).count id + st.db.oidcFlows.keys.count id ≤ (startedIds st.log).count id

/-- A step of a call that knows what it has to know leaves all in order. -/
structure Effect.Sound (sum256 : GoString → List UInt8) (st : State) (e : Effect) : Prop where
  flows : e.db.oidcFlows = st.db.oidcFlows
  handoffs : ∀ code entry, e.db.mobileHandoffs.lookup code = some entry → HandedOff (e.marks ++ st.log) entry
  call : e.call.Sound sum256 st.client (e.marks ++ st.log)
  sessions : ∀ token session, e.db.sessions.lookup token = some session →
    ∃ verifier, Mark.created session verifier ∈ e.marks ++ st.log ∧ Origin sum256 (e.marks ++ st.log) session verifier
  sent : ∀ todo c, .ended todo (some c) ∈ e.marks → Proper (e.marks ++ st.log) todo c
  taken : takenIds e.marks = []
  started : startedIds e.marks = []

theorem Sound.go {step : Call → Effect} (h : Sound sum256 st)
    (hstep : ∀ call, st.calls[t]? = some call → (step call).Sound sum256 st) : Sound sum256 (st.go t step) := by
  rw [State.go]
  cases hget : st.calls[t]? with
  | none => exact h
  | some call =>
      have he := hstep call hget
      have hsub : st.log ⊆ (step call).marks ++ st.log := List.subset_append_right _ _
      refine ⟨fun id flow hflow => ?_, he.handoffs, fun call' hcall' => ?_, he.sessions, fun todo c hsent => ?_, ?_⟩
      · obtain ⟨start, hstarted, hexpires⟩ := h.flows id flow (he.flows ▸ hflow)
        exact ⟨start, hsub hstarted, hexpires⟩
      · obtain ⟨i, hi⟩ := List.mem_iff_getElem?.mp hcall'
        obtain ⟨-, rfl⟩ | ⟨-, hold⟩ := Run.getElem?_of_set hi
        · exact he.call
        · exact (h.calls call' (List.mem_of_getElem? hold)).mono hsub
      · rcases List.mem_append.mp hsent with hnew | hold
        · exact he.sent todo c hnew
        · exact (h.sent todo c hold).mono hsub
      · intro id
        change (takenIds ((step call).marks ++ st.log)).count id + (step call).db.oidcFlows.keys.count id ≤
          (startedIds ((step call).marks ++ st.log)).count id
        rw [takenIds_append, startedIds_append, he.taken, he.started, he.flows]
        exact h.once id

/-- A step without marks that leaves the database. -/
theorem Sound.quiet (h : Sound sum256 st) (hcall : call.Sound sum256 st.client st.log) :
    Effect.Sound sum256 st ⟨st.db, [], call⟩ :=
  ⟨rfl, h.handoffs, hcall, h.sessions, fun _ _ hsent => absurd hsent List.not_mem_nil, rfl, rfl⟩

theorem proper_own {todo : Todo} {client : Option OIDCClient} (hown : isOurs client
    ⟨todo.issuer, todo.clientID, [], [], [], [], 0⟩ = true) (hsent : todo.sentTo client = some c) :
    Proper log todo c := by
  obtain ⟨hclient, -⟩ := Option.filter_eq_some_iff.mp hsent
  rw [hclient] at hown
  simp only [isOurs, Option.any_some, Bool.and_eq_true, decide_eq_true_eq] at hown
  exact Or.inl hown

theorem proper_revokeIdentity {client : Option OIDCClient} (hours : isOurs client identity = true)
    (hsent : (revokeIdentity identity).sentTo client = some c) : Proper log (revokeIdentity identity) c :=
  proper_own hours hsent

theorem proper_revokeGrant {client : Option OIDCClient} (grant : OIDCIdentity)
    (hsent : (revokeGrant grant).sentTo client = some c) : Proper log (revokeGrant grant) c := by
  obtain ⟨-, htest⟩ := Option.filter_eq_some_iff.mp hsent
  simp only [revokeGrant, Bool.and_eq_true, Bool.or_eq_true, Bool.not_true, Bool.false_eq_true, false_or] at htest
  exact Or.inl ⟨of_decide_eq_true htest.2.1, of_decide_eq_true htest.2.2⟩

theorem ids_lost {marks : List Mark} (hlost : ∀ mark ∈ marks, ∃ tok, mark = .lost tok) :
    takenIds marks = [] ∧ startedIds marks = [] := by
  refine ⟨List.filterMap_eq_nil_iff.mpr fun mark hmark => ?_, List.filterMap_eq_nil_iff.mpr fun mark hmark => ?_⟩
  all_goals
    obtain ⟨tok, rfl⟩ := hlost mark hmark
    rfl

/-- The marks of what an insert overwrites. -/
theorem lost_of_lookup {β : Type} (found : Option β) (refresh : β → GoString) :
    ∀ mark ∈ found.toList.map fun old => Mark.lost (refresh old), ∃ tok, mark = .lost tok := by
  intro mark hmark
  obtain ⟨old, -, rfl⟩ := List.mem_map.mp hmark
  exact ⟨_, rfl⟩

theorem sound_create (h : Sound sum256 st) (verifier : Option GoString)
    (horigin : ∀ session log', session.oidcGrant = identity → st.log ⊆ log' → Origin sum256 log' session verifier)
    (hproper : ∀ c, (revokeIdentity identity).sentTo st.client = some c → Proper st.log (revokeIdentity identity) c)
    (draw : GoString) (now now' : Int) (ok : Bool) :
    (st.create sum256 identity verifier draw now now' ok).Sound sum256 st := by
  rw [State.create]
  split
  · refine h.quiet ⟨fun todo htodo => ?_, fun pair hpair => by cases hpair⟩
    rw [List.mem_singleton.mp htodo]
    exact hproper
  · rename_i session hsession
    have hsome : createOIDCSession sum256 st.client identity draw now now' = some session := by
      cases ok with
      | false => cases hsession
      | true => exact hsession
    have hlost := lost_of_lookup (st.db.sessions.lookup draw) (·.oidcGrant.refreshToken)
    generalize (st.db.sessions.lookup draw).toList.map (fun old => Mark.lost old.oidcGrant.refreshToken) = lost
      at hlost ⊢
    have hsub : st.log ⊆ (.created session verifier :: lost) ++ st.log := List.subset_append_right _ _
    refine ⟨rfl, fun code entry hentry => (h.handoffs code entry hentry).mono hsub, ?_, fun token other hother => ?_,
      ?_, (ids_lost hlost).1, (ids_lost hlost).2⟩
    · exact ⟨fun _ htodo => absurd htodo List.not_mem_nil, fun _ hpair => by cases hpair⟩
    · by_cases hkey : token = draw
      · subst hkey
        obtain rfl : session = other := Option.some.inj ((AList.lookup_insert _).symm.trans hother)
        exact ⟨verifier, List.mem_cons_self, horigin session _ (createOIDCSession_some hsome).1 hsub⟩
      · obtain ⟨verifier', hcreated, hold⟩ := h.sessions token other ((AList.lookup_insert_ne hkey).symm.trans hother)
        exact ⟨verifier', hsub hcreated, hold.mono hsub⟩
    · intro todo c hsent
      obtain hnew | hold := List.mem_cons.mp hsent
      · cases hnew
      · obtain ⟨tok, htok⟩ := hlost _ hold
        cases htok

/-- What a sweep leaves and what it will revoke. -/
theorem sound_swept (h : Sound sum256 st) (now : Int) (ok : Bool) :
    (∀ code entry, (st.sweepExpiredMobileHandoffs now ok).1.lookup code = some entry →
        HandedOff st.log entry) ∧
      ∀ todo ∈ (st.sweepExpiredMobileHandoffs now ok).2, ∀ c, todo.sentTo st.client = some c →
        Proper st.log todo c := by
  cases ok with
  | false => exact ⟨h.handoffs, fun _ htodo => absurd htodo List.not_mem_nil⟩
  | true =>
      refine ⟨fun code entry hentry => ?_, fun todo htodo c hsent => ?_⟩
      · rw [State.sweepExpiredMobileHandoffs, if_pos rfl, GoMap.lookup_keep] at hentry
        exact h.handoffs code entry (Option.filter_eq_some_iff.mp hentry).1
      · obtain ⟨entry, -, rfl⟩ := List.mem_map.mp htodo
        exact proper_revokeGrant entry.identity hsent

theorem sound_store (h : Sound sum256 st) (hcall : call.Sound sum256 st.client st.log) (draw : GoString)
    (now now' : Int) (ok : Bool) : (st.store sum256 draw now now' ok call).Sound sum256 st := by
  cases call with
  | exchanging id flow => exact h.quiet hcall
  | revoking todos next => exact h.quiet hcall
  | redeemed entry verifier =>
      refine sound_create h (some verifier) (fun session log' hgrant hsub => ⟨entry, hcall.1.mono hsub, hgrant.symm⟩)
        (fun c hsent => ?_) draw now now' ok
      obtain ⟨now, hnow⟩ := hcall.2 c (Option.filter_eq_some_iff.mp hsent).1
      exact Or.inr ⟨entry, verifier, now, hnow, hcall.1.1, rfl⟩
  | granted id flow identity =>
      obtain ⟨hobtained, hours⟩ := hcall
      rw [State.store]
      split
      · rename_i hchallenge
        rw [State.startMobileHandoff]
        split
        · refine h.quiet ⟨fun todo htodo c hsent => ?_, fun pair hpair => by cases hpair⟩
          rw [List.mem_singleton.mp htodo] at hsent ⊢
          exact proper_revokeIdentity hours hsent
        · obtain ⟨hleft, hswept⟩ := sound_swept h now' ok
          have hsub : st.log ⊆ [.handedOff ⟨identity, flow.mobileChallenge, now + handoffTTL⟩ now] ++ st.log :=
            List.subset_append_right _ _
          refine ⟨rfl, fun code entry hentry => (hleft code entry hentry).mono hsub, ?_, fun token session hsession => ?_,
            fun todo c hsent => absurd (List.mem_singleton.mp hsent) (by simp), rfl, rfl⟩
          · refine ⟨fun todo htodo c hsent => (hswept todo htodo c hsent).mono hsub, fun pair hpair => ?_⟩
            cases hpair
            exact ⟨⟨⟨flow, hobtained.mono hsub, rfl, hchallenge⟩, now, List.mem_cons_self, rfl⟩, hours⟩
          · obtain ⟨verifier, hcreated, horigin⟩ := h.sessions token session hsession
            exact ⟨verifier, hsub hcreated, horigin.mono hsub⟩
      · rename_i hchallenge
        exact sound_create h none
          (fun session log' hgrant hsub => ⟨flow, hgrant.symm ▸ hobtained.mono hsub, not_not.mp hchallenge⟩)
          (fun c hsent => proper_revokeIdentity hours hsent) draw now now' ok

theorem sound_advance (h : Sound sum256 st) (hcall : call.Sound sum256 st.client st.log) (ok : Bool) :
    (st.advance ok call).Sound sum256 st := by
  cases call with
  | exchanging id flow => exact h.quiet hcall
  | granted id flow identity => exact h.quiet hcall
  | redeemed entry verifier => exact h.quiet hcall
  | revoking todos next =>
      obtain ⟨htodos, hnext⟩ := hcall
      cases todos with
      | cons todo todos =>
          have hsub : st.log ⊆ [.ended todo (todo.sentTo st.client)] ++ st.log := List.subset_append_right _ _
          refine ⟨rfl, fun code entry hentry => (h.handoffs code entry hentry).mono hsub, ?_,
            fun token session hsession => ?_, fun other c hsent => ?_, rfl, rfl⟩
          · exact ⟨fun other hother c hsent => (htodos other (List.mem_cons_of_mem _ hother) c hsent).mono hsub,
              fun pair hpair => ⟨(hnext pair hpair).1.mono hsub, (hnext pair hpair).2⟩⟩
          · obtain ⟨verifier, hcreated, horigin⟩ := h.sessions token session hsession
            exact ⟨verifier, hsub hcreated, horigin.mono hsub⟩
          · obtain ⟨rfl, hc⟩ := Mark.ended.inj (List.mem_singleton.mp hsent)
            exact (htodos other List.mem_cons_self c hc.symm).mono hsub
      | nil =>
          cases next with
          | none => exact h.quiet ⟨htodos, hnext⟩
          | some pair =>
              obtain ⟨code, entry⟩ := pair
              obtain ⟨hentry, hours⟩ := hnext _ rfl
              rw [State.advance]
              split
              · have hlost := lost_of_lookup (st.db.mobileHandoffs.lookup code) (·.identity.refreshToken)
                generalize (st.db.mobileHandoffs.lookup code).toList.map
                  (fun old => Mark.lost old.identity.refreshToken) = marks at hlost ⊢
                have hsub : st.log ⊆ marks ++ st.log := List.subset_append_right _ _
                refine ⟨rfl, fun code' entry' hentry' => ?_, ?_, fun token session hsession => ?_,
                  fun todo c hsent => ?_, ?_, ?_⟩
                · by_cases hkey : code' = code
                  · subst hkey
                    obtain rfl : entry = entry' := Option.some.inj ((AList.lookup_insert _).symm.trans hentry')
                    exact hentry.mono hsub
                  · exact (h.handoffs code' entry' ((AList.lookup_insert_ne hkey).symm.trans hentry')).mono hsub
                · exact ⟨fun _ htodo => absurd htodo List.not_mem_nil, fun _ hpair => by cases hpair⟩
                · obtain ⟨verifier, hcreated, horigin⟩ := h.sessions token session hsession
                  exact ⟨verifier, hsub hcreated, horigin.mono hsub⟩
                · obtain ⟨tok, htok⟩ := hlost _ hsent
                  cases htok
                · exact (ids_lost hlost).1
                · exact (ids_lost hlost).2
              · refine h.quiet ⟨fun todo htodo c hsent => ?_, fun pair hpair => by cases hpair⟩
                rw [List.mem_singleton.mp htodo] at hsent ⊢
                exact proper_revokeIdentity hours hsent

theorem sound_answered (h : Sound sum256 st) (hcall : call.Sound sum256 st.client st.log) (answer : Option Tokens) :
    (st.answered answer call).Sound sum256 st := by
  cases call with
  | granted id flow identity => exact h.quiet hcall
  | redeemed entry verifier => exact h.quiet hcall
  | revoking todos next => exact h.quiet hcall
  | exchanging id flow =>
      unfold State.answered
      dsimp only
      split
      · rename_i c tokens hclient
        have hsub : st.log ⊆ [.issued flow c tokens] ++ st.log := List.subset_append_right _ _
        refine ⟨rfl, fun code entry hentry => (h.handoffs code entry hentry).mono hsub, ?_, fun token session hsession => ?_,
          fun todo c' hsent => absurd (List.mem_singleton.mp hsent) (by simp), rfl, rfl⟩
        · rw [afterExchange]
          cases hexchange : exchange c flow tokens with
          | none =>
              refine ⟨fun todo htodo c' hsent => ?_, fun pair hpair => by cases hpair⟩
              rw [List.mem_singleton.mp htodo] at hsent ⊢
              exact proper_own (by rw [hclient]; simp [isOurs]) hsent
          | some identity =>
              refine ⟨⟨Begun.mono hcall hsub, c, tokens, List.mem_cons_self, hexchange⟩, ?_⟩
              rw [hclient]
              exact (exchange_some hexchange).2.2.1
        · obtain ⟨verifier, hcreated, horigin⟩ := h.sessions token session hsession
          exact ⟨verifier, hsub hcreated, horigin.mono hsub⟩
      · exact h.quiet ⟨fun _ htodo => absurd htodo List.not_mem_nil, fun _ hpair => by cases hpair⟩

/-- A new call, that knows what it has to know. -/
theorem Sound.addCall (h : Sound sum256 st) (hcall : call.Sound sum256 st.client st.log) :
    Sound sum256 { st with calls := st.calls ++ [call] } := by
  refine ⟨h.flows, h.handoffs, fun call' hcall' => ?_, h.sessions, h.sent, h.once⟩
  rcases List.mem_append.mp hcall' with hold | hnew
  · exact h.calls call' hold
  · rw [List.mem_singleton.mp hnew]
    exact hcall

/-- A mark that is neither of a flow nor of a revocation. -/
theorem Sound.mark (h : Sound sum256 st) {mark : Mark} (hsent : ∀ todo c, mark ≠ .ended todo (some c))
    (htaken : takenIds [mark] = []) (hstarted : startedIds [mark] = []) :
    Sound sum256 { st with log := mark :: st.log } := by
  have hsub : st.log ⊆ mark :: st.log := List.subset_cons_self _ _
  refine ⟨fun id flow hflow => ?_, fun code entry hentry => (h.handoffs code entry hentry).mono hsub,
    fun call hcall => (h.calls call hcall).mono hsub, fun token session hsession => ?_, fun todo c hended => ?_, ?_⟩
  · obtain ⟨start, hstart, hexpires⟩ := h.flows id flow hflow
    exact ⟨start, hsub hstart, hexpires⟩
  · obtain ⟨verifier, hcreated, horigin⟩ := h.sessions token session hsession
    exact ⟨verifier, hsub hcreated, horigin.mono hsub⟩
  · rcases List.mem_cons.mp hended with hnew | hold
    · exact absurd hnew.symm (hsent todo c)
    · exact (h.sent todo c hold).mono hsub
  · intro id
    change (takenIds ([mark] ++ st.log)).count id + _ ≤ (startedIds ([mark] ++ st.log)).count id
    rw [takenIds_append, startedIds_append, htaken, hstarted]
    exact h.once id

/-- Handoffs that are taken out or kept. -/
theorem Sound.handoffsOf (h : Sound sum256 st) {handoffs : Bucket MobileHandoff}
    (hfewer : ∀ code entry, handoffs.lookup code = some entry → HandedOff st.log entry) :
    Sound sum256 { st with db := { st.db with mobileHandoffs := handoffs } } :=
  ⟨h.flows, hfewer, h.calls, h.sessions, h.sent, h.once⟩

theorem Sound.startOIDCFlow (h : Sound sum256 st) (challenge id state nonce verifier : GoString) (now now' : Int)
    (ok : Bool) : Sound sum256 (st.startOIDCFlow challenge id state nonce verifier now now' ok) := by
  rw [State.startOIDCFlow]
  split
  · exact h
  · generalize hflow : OIDCFlow.mk state nonce verifier challenge (now + flowTTL) = flow
    have hexpires : flow.expiresAt = now + flowTTL := by rw [← hflow]
    have hsub : st.log ⊆ .started id flow now :: st.log := List.subset_cons_self _ _
    refine ⟨fun id' flow' hflow' => ?_, fun code entry hentry => (h.handoffs code entry hentry).mono hsub,
      fun call hcall => (h.calls call hcall).mono hsub, fun token session hsession => ?_, fun todo c hsent => ?_, ?_⟩
    · by_cases hkey : id' = id
      · subst hkey
        obtain rfl : flow = flow' := Option.some.inj ((AList.lookup_insert _).symm.trans hflow')
        exact ⟨now, List.mem_cons_self, hexpires⟩
      · have hkept := (AList.lookup_insert_ne hkey).symm.trans hflow'
        rw [GoMap.lookup_keep] at hkept
        obtain ⟨start, hstart, hold⟩ := h.flows id' flow' (Option.filter_eq_some_iff.mp hkept).1
        exact ⟨start, hsub hstart, hold⟩
    · obtain ⟨verifier', hcreated, horigin⟩ := h.sessions token session hsession
      exact ⟨verifier', hsub hcreated, horigin.mono hsub⟩
    · rcases List.mem_cons.mp hsent with hnew | hold
      · cases hnew
      · exact (h.sent todo c hold).mono hsub
    · intro id'
      have hbefore := h.once id'
      have hinsert := (Custody.keys_insert_sublist (GoMap.keep (fun old => !decide (old.expiresAt < now'))
        st.db.oidcFlows) id flow).count_le id'
      have hkeep := (Custody.keys_keep_sublist (fun old : OIDCFlow => !decide (old.expiresAt < now'))
        st.db.oidcFlows).count_le id'
      have hstartedIds : startedIds (.started id flow now :: st.log) = id :: startedIds st.log := rfl
      have htakenIds : takenIds (.started id flow now :: st.log) = takenIds st.log := rfl
      dsimp only
      rw [hstartedIds, htakenIds]
      rw [List.count_cons] at hinsert ⊢
      omega

theorem Sound.consumeOIDCFlow (h : Sound sum256 st) (id state error code : GoString) (now : Int) (ok : Bool) :
    Sound sum256 (st.consumeOIDCFlow id state error code now ok) := by
  rw [State.consumeOIDCFlow]
  split
  · exact h
  · rename_i flow hflow
    have hlookup : st.db.oidcFlows.lookup id = some flow := by
      split at hflow
      · cases hflow
      · exact hflow
    have hsub : st.log ⊆ .taken id flow state now :: st.log := List.subset_cons_self _ _
    obtain ⟨start, hstart, hexpires⟩ := h.flows id flow hlookup
    have hsound : Sound sum256 { st with
        db := { st.db with oidcFlows := st.db.oidcFlows.erase id }, log := .taken id flow state now :: st.log } := by
      refine ⟨fun id' flow' hflow' => ?_, fun code entry hentry => (h.handoffs code entry hentry).mono hsub,
        fun call hcall => (h.calls call hcall).mono hsub, fun token session hsession => ?_, fun todo c hsent => ?_, ?_⟩
      · have hkey : id' ≠ id := by
          rintro rfl
          exact absurd ((AList.lookup_erase _ _).symm.trans hflow') (by simp)
        obtain ⟨start', hstart', hold⟩ := h.flows id' flow' ((AList.lookup_erase_ne hkey).symm.trans hflow')
        exact ⟨start', hsub hstart', hold⟩
      · obtain ⟨verifier', hcreated, horigin⟩ := h.sessions token session hsession
        exact ⟨verifier', hsub hcreated, horigin.mono hsub⟩
      · rcases List.mem_cons.mp hsent with hnew | hold
        · cases hnew
        · exact (h.sent todo c hold).mono hsub
      · intro id'
        have hbefore := h.once id'
        have hcount := (Custody.keys_perm hlookup).count_eq id'
        have htakenIds : takenIds (.taken id flow state now :: st.log) = id :: takenIds st.log := rfl
        have hstartedIds : startedIds (.taken id flow state now :: st.log) = startedIds st.log := rfl
        dsimp only
        rw [htakenIds, hstartedIds]
        rw [List.count_cons] at hcount ⊢
        omega
    split
    · exact hsound
    · rename_i hgood
      simp only [not_or, not_lt, ne_eq, not_not] at hgood
      obtain ⟨hnow, rfl, -, -⟩ := hgood
      exact hsound.addCall ⟨id, start, now, hsub hstart, List.mem_cons_self, hexpires ▸ hnow⟩

theorem Sound.consumeMobileHandoff (h : Sound sum256 st) (code verifier : GoString) (now : Int) (ok : Bool) :
    Sound sum256 (st.consumeMobileHandoff sum256 code verifier now ok) := by
  rw [State.consumeMobileHandoff]
  split
  · exact h
  · rename_i c hclient
    split
    · exact h
    · split
      · exact h
      · rename_i entry hlookup
        have hentry := h.handoffs code entry hlookup
        have hfewer : ∀ other entry', (st.db.mobileHandoffs.erase code).lookup other = some entry' →
            HandedOff st.log entry' := by
          intro other entry' hother
          have hkey : other ≠ code := by
            rintro rfl
            exact absurd ((AList.lookup_erase _ _).symm.trans hother) (by simp)
          exact h.handoffs other entry' ((AList.lookup_erase_ne hkey).symm.trans hother)
        dsimp only
        split
        · refine (h.handoffsOf hfewer).addCall ⟨fun todo htodo c' hsent => ?_, fun pair hpair => by cases hpair⟩
          rw [List.mem_singleton.mp htodo] at hsent ⊢
          exact proper_revokeGrant entry.identity hsent
        · rename_i hgood
          simp only [not_or, not_lt, ne_eq, not_not] at hgood
          obtain ⟨hnow, hchallenge⟩ := hgood
          have hmarked := @Sound.mark _ _ (h.handoffsOf hfewer) (.redeemed entry verifier c now) (by simp) rfl rfl
          have hsub : st.log ⊆ .redeemed entry verifier c now :: st.log := List.subset_cons_self _ _
          refine hmarked.addCall ⟨⟨hentry.mono hsub, hchallenge, c, now, List.mem_cons_self, hnow⟩, fun c' hc' => ?_⟩
          obtain rfl : c = c' := Option.some.inj (hclient.symm.trans hc')
          exact ⟨now, List.mem_cons_self⟩

theorem Sound.step (h : Sound sum256 st) (event : Event) : Sound sum256 (st.step sum256 event) := by
  cases event with
  | login challenge id state nonce verifier now now' ok =>
      exact h.startOIDCFlow challenge id state nonce verifier now now' ok
  | callback id state error code now ok => exact h.consumeOIDCFlow id state error code now ok
  | redeem code verifier now ok => exact h.consumeMobileHandoff code verifier now ok
  | sweep now ok =>
      obtain ⟨hleft, htodos⟩ := sound_swept h now ok
      exact (h.handoffsOf hleft).addCall ⟨htodos, fun _ hpair => by cases hpair⟩
  | answer t answer =>
      exact h.go fun call hget => sound_answered h (h.calls call (List.mem_of_getElem? hget)) answer
  | store t draw now now' ok =>
      exact h.go fun call hget => sound_store h (h.calls call (List.mem_of_getElem? hget)) draw now now' ok
  | advance t ok => exact h.go fun call hget => sound_advance h (h.calls call (List.mem_of_getElem? hget)) ok
  | restart client =>
      generalize hmarks : (st.calls.flatMap Call.tokens).map Mark.lost = marks
      have hsub : st.log ⊆ marks ++ st.log := List.subset_append_right _ _
      have hlost : ∀ mark ∈ marks, ∃ tok, mark = .lost tok := by
        rw [← hmarks]
        intro mark hmark
        obtain ⟨tok, -, rfl⟩ := List.mem_map.mp hmark
        exact ⟨tok, rfl⟩
      rw [State.step, hmarks]
      refine ⟨fun id flow hflow => ?_, fun code entry hentry => (h.handoffs code entry hentry).mono hsub,
        fun _ hcall => absurd hcall List.not_mem_nil, fun token session hsession => ?_, fun todo c hsent => ?_, ?_⟩
      · obtain ⟨start, hstart, hexpires⟩ := h.flows id flow hflow
        exact ⟨start, hsub hstart, hexpires⟩
      · obtain ⟨verifier, hcreated, horigin⟩ := h.sessions token session hsession
        exact ⟨verifier, hsub hcreated, horigin.mono hsub⟩
      · rcases List.mem_append.mp hsent with hnew | hold
        · obtain ⟨tok, htok⟩ := hlost _ hnew
          cases htok
        · exact (h.sent todo c hold).mono hsub
      · intro id
        obtain ⟨htaken, hstarted⟩ := ids_lost hlost
        change (takenIds (marks ++ st.log)).count id + _ ≤ (startedIds (marks ++ st.log)).count id
        rw [takenIds_append, startedIds_append, htaken, hstarted]
        exact h.once id

theorem sound_start (client : Option OIDCClient) : Sound sum256 (.start client) := by
  refine ⟨?_, ?_, ?_, ?_, ?_, ?_⟩ <;> intros <;> simp_all [State.start, takenIds, startedIds]

/-- Every session goes back to a flow, through the steps of a sign-in, and no flow is used twice. -/
theorem signedIn_run (sum256 : GoString → List UInt8) (client : Option OIDCClient) (es : List Event) :
    Run.Always (State.step sum256) (fun st =>
      (∀ token session, st.db.sessions.lookup token = some session →
          ∃ verifier, Mark.created session verifier ∈ st.log ∧ Origin sum256 st.log session verifier) ∧
        ∀ id, (takenIds st.log).count id ≤ (startedIds st.log).count id) (.start client) es := by
  have hsound := @Run.always_of_guarded _ _ (State.step sum256) (Sound sum256) (fun _ _ => True) (.start client) es
    (fun _ event h _ => h.step event) (sound_start client) fun _ _ _ => trivial
  intro pre hpre
  have h := hsound pre hpre
  exact ⟨h.sessions, fun id => (Nat.le_add_right _ _).trans (h.once id)⟩

/-- A token is sent to a provider or a client that is not its own only when the app has redeemed the grant there. -/
theorem sent_run (sum256 : GoString → List UInt8) (client : Option OIDCClient) (es : List Event) :
    Run.Always (State.step sum256) (fun st => ∀ todo c, .ended todo (some c) ∈ st.log → Proper st.log todo c)
      (.start client) es := by
  have hsound := @Run.always_of_guarded _ _ (State.step sum256) (Sound sum256) (fun _ _ => True) (.start client) es
    (fun _ event h _ => h.step event) (sound_start client) fun _ _ _ => trivial
  intro pre hpre
  exact (hsound pre hpre).sent

/-- And then it is: `CreateOIDCSession` refuses the grant, and `revokeIdentity` does not look whose it is. -/
theorem redeemed_elsewhere {verifier : GoString} (hget : st.calls[t]? = some (.redeemed entry verifier))
    (hclient : st.client = some c) (hrevocation : c.revocation = true) (htoken : entry.identity.refreshToken ≠ [])
    (hforeign : isOurs (some c) entry.identity = false) (draw : GoString) (now now' : Int) (ok ok' : Bool) :
    .ended (revokeIdentity entry.identity) (some c) ∈
      (Run.exec (State.step sum256) st [.store t draw now now' ok, .advance t ok']).log := by
  have hrefused : createOIDCSession sum256 st.client entry.identity draw now now' = none := by
    rw [createOIDCSession, hclient, hforeign]
    rfl
  have hstore : st.store sum256 draw now now' ok (.redeemed entry verifier) =
      ⟨st.db, [], .revoking [revokeIdentity entry.identity] none⟩ := by
    rw [State.store, State.create, hrefused, ite_self]
  have hsent : (revokeIdentity entry.identity).sentTo (some c) = some c := by
    simp [Todo.sentTo, revokeIdentity, hrevocation, htoken]
  have hnext : (st.calls.set t (.revoking [revokeIdentity entry.identity] none))[t]? =
      some (.revoking [revokeIdentity entry.identity] none) := Run.getElem?_set_self' hget
  have hfirst : st.step sum256 (.store t draw now now' ok) =
      { st with calls := st.calls.set t (.revoking [revokeIdentity entry.identity] none) } := by
    rw [State.step, State.go, hget]
    dsimp only
    rw [hstore]
    rfl
  rw [Run.exec_cons, Run.exec_cons, Run.exec_nil, hfirst, State.step, State.go]
  dsimp only
  rw [hnext]
  dsimp only [State.apply, State.advance]
  rw [hclient, hsent]
  exact List.mem_cons_self

-- A handoff is stored, and the process that redeems it is configured for another provider.
example :
    let zeros : GoString → List UInt8 := fun _ => List.replicate 32 0
    let code : GoString := List.replicate 43 66
    let verifier : GoString := List.replicate 43 67
    let old : OIDCClient := ⟨[1], [2], true⟩
    let new : OIDCClient := ⟨[3], [4], true⟩
    let tokens : Tokens := ⟨[9], some ⟨[5], [7], true, some ([], [], [])⟩, some ⟨[1], [5], [2], [scopeRead], 100⟩⟩
    .ended ⟨false, [9], [1], [2]⟩ (some new) ∈ (Run.exec (State.step zeros) (.start (some old))
      [.login (challengeOf zeros verifier) [10] [6] [7] [8] 0 0 true, .callback [10] [6] [] [11] 1 true,
        .answer 0 (some tokens), .store 0 code 2 2 true, .advance 0 true, .restart (some new),
        .redeem code verifier 3 true, .store 0 [12] 4 4 true, .advance 0 true]).log := by
  decide

end Sysmon.Auth.SignIn
