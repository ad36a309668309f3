import Sysmon.Auth.SignIn
import Sysmon.Lib.Run

/-!
# Who has a grant

The refresh token of a grant is all that is needed to go on with it, so it must be in one hand at a time. It is
followed here from the answer of the provider to the session or the revocation that it comes to, through calls
and through handoffs.
-/

namespace Sysmon.Auth.SignIn

open Agents (GoString)
open OIDC (OIDCIdentity OIDCClient OIDCSession)

variable {sum256 : GoString → List UInt8} {st : State} {t : Nat} {call : Call} {identity : OIDCIdentity}

/-! ### Who has a token -/

/-- The tokens that the provider has given. -/
def issued (log : List Mark) : List GoString :=
  log.filterMap fun
    | .issued _ _ tokens => some tokens.refreshToken
    | _ => none

/-- The tokens with which a revocation is done. -/
def ended (log : List Mark) : List GoString :=
  log.filterMap fun
    | .ended todo _ => some todo.refreshToken
    | _ => none

def lost (log : List Mark) : List GoString :=
  log.filterMap fun
    | .lost tok => some tok
    | _ => none

def MobileHandoff.tokens (entry : MobileHandoff) : List GoString := [entry.identity.refreshToken]

def sessionTokens (session : OIDCSession) : List GoString := [session.oidcGrant.refreshToken]

/-- The tokens in the database: of the sessions, and of what is stored for the app. -/
def Store.tokens (db : Store) : List GoString :=
  Custody.held sessionTokens db.sessions ++ Custody.held MobileHandoff.tokens db.mobileHandoffs

/-- Each time a token was given it is that of a session or stored for the app, or a call has it, or a revocation has been
done with it, or it is lost. -/
def Balanced (st : State) : Prop :=
  (issued st.log).Perm (st.db.tokens ++ st.calls.flatMap Call.tokens ++ ended st.log ++ lost st.log)

/-- What the marks say of a token. -/
def given (marks : List Mark) (tok : GoString) : Nat := (issued marks).count tok

def settled (marks : List Mark) (tok : GoString) : Nat := (ended marks).count tok + (lost marks).count tok

theorem given_append (left right : List Mark) (tok : GoString) :
    given (left ++ right) tok = given left tok + given right tok := by
  rw [given, issued, List.filterMap_append, List.count_append]
  rfl

theorem settled_append (left right : List Mark) (tok : GoString) :
    settled (left ++ right) tok = settled left tok + settled right tok := by
  simp only [settled, ended, lost, List.filterMap_append, List.count_append]
  omega

/-- How often a token is in the database. -/
def stored (db : Store) (tok : GoString) : Nat :=
  (Custody.held sessionTokens db.sessions).count tok + (Custody.held MobileHandoff.tokens db.mobileHandoffs).count tok

theorem balanced_iff : Balanced st ↔ ∀ tok,
    given st.log tok = settled st.log tok + (stored st.db tok + (st.calls.flatMap Call.tokens).count tok) := by
  rw [Balanced, List.perm_iff_count]
  refine forall_congr' fun tok => ?_
  simp only [Store.tokens, List.count_append, given, settled, stored]
  omega

/-- A step of a call keeps account of each token. -/
def Effect.Keeps (e : Effect) (st : State) (call : Call) : Prop :=
  ∀ tok, given e.marks tok + stored st.db tok + call.tokens.count tok =
    settled e.marks tok + stored e.db tok + e.call.tokens.count tok

theorem Balanced.go {step : Call → Effect} (h : Balanced st) (hkeeps : ∀ call, (step call).Keeps st call) :
    Balanced (st.go t step) := by
  rw [State.go]
  cases hget : st.calls[t]? with
  | none => exact h
  | some call =>
      refine balanced_iff.mpr fun tok => ?_
      have hbefore := balanced_iff.mp h tok
      have hstep := hkeeps call tok
      have hcalls := Custody.count_set Call.tokens hget (step call).call tok
      simp only [State.apply, given_append, settled_append]
      omega

/-- The marks of tokens that nobody holds any more. -/
theorem marks_lost (toks : List GoString) (tok : GoString) :
    given (toks.map .lost) tok = 0 ∧ settled (toks.map .lost) tok = toks.count tok := by
  induction toks with
  | nil => exact ⟨rfl, rfl⟩
  | cons first toks ih =>
      have hcons : (first :: toks).map Mark.lost = [.lost first] ++ toks.map .lost := rfl
      have hone : settled [Mark.lost first] tok = if first == tok then 1 else 0 := by
        change 0 + [first].count tok = _
        rw [List.count_singleton, Nat.zero_add]
      rw [hcons, given_append, settled_append, ih.1, ih.2, hone, List.count_cons]
      refine ⟨rfl, ?_⟩
      omega

theorem keeps_same (st : State) (call : Call) : Effect.Keeps ⟨st.db, [], call⟩ st call := fun _ => by rfl

theorem keeps_create {verifier : Option GoString} (hcall : call.tokens = [identity.refreshToken])
    (draw : GoString) (now now' : Int) (ok : Bool) :
    (st.create sum256 identity verifier draw now now' ok).Keeps st call := by
  intro tok
  rw [State.create, hcall]
  split
  · rfl
  · rename_i session hsession
    have hsome : createOIDCSession sum256 st.client identity draw now now' = some session := by
      cases ok with
      | false => cases hsession
      | true => exact hsession
    have hgrant : sessionTokens session = [identity.refreshToken] :=
      congrArg (fun grant : OIDCIdentity => [grant.refreshToken]) (createOIDCSession_some hsome).1
    have hinsert := Custody.count_held_insert sessionTokens st.db.sessions draw session tok
    obtain ⟨hgiven, hlost⟩ := marks_lost ((st.db.sessions.lookup draw).toList.flatMap sessionTokens) tok
    have hmarks : Mark.created session verifier ::
          (st.db.sessions.lookup draw).toList.map (fun old => .lost old.oidcGrant.refreshToken) =
        [.created session verifier] ++ ((st.db.sessions.lookup draw).toList.flatMap sessionTokens).map .lost := by
      cases st.db.sessions.lookup draw <;> rfl
    have hgivenNone : given [Mark.created session verifier] tok = 0 := rfl
    have hsettledNone : settled [Mark.created session verifier] tok = 0 := rfl
    rw [hgrant] at hinsert
    simp only [hmarks, given_append, settled_append, hgiven, hlost, hgivenNone, hsettledNone, stored]
    change _ = _ + _ + 0
    omega

/-- A sweep takes out what it will revoke. -/
theorem count_swept (st : State) (now : Int) (ok : Bool) (tok : GoString) :
    (Custody.held MobileHandoff.tokens (st.sweepExpiredMobileHandoffs now ok).1).count tok +
        ((st.sweepExpiredMobileHandoffs now ok).2.map Todo.refreshToken).count tok =
      (Custody.held MobileHandoff.tokens st.db.mobileHandoffs).count tok := by
  cases ok with
  | false => rfl
  | true =>
      have hkeep := Custody.count_held_keep MobileHandoff.tokens (fun entry => decide (now < entry.expiresAt))
        st.db.mobileHandoffs tok
      have hmap : ∀ entries : List MobileHandoff, (entries.map fun entry => revokeGrant entry.identity).map
          Todo.refreshToken = entries.flatMap MobileHandoff.tokens := by
        intro entries
        induction entries with
        | nil => rfl
        | cons entry entries ih => exact congrArg (entry.identity.refreshToken :: ·) ih
      rw [State.sweepExpiredMobileHandoffs, if_pos rfl, hmap]
      exact hkeep

theorem keeps_store (draw : GoString) (now now' : Int) (ok : Bool) (call : Call) :
    (st.store sum256 draw now now' ok call).Keeps st call := by
  cases call with
  | exchanging id flow => exact keeps_same st _
  | revoking todos next => exact keeps_same st _
  | redeemed entry verifier => exact keeps_create rfl draw now now' ok
  | granted id flow identity =>
      rw [State.store]
      split
      · rw [State.startMobileHandoff]
        split
        · exact fun tok => rfl
        · intro tok
          have hswept := count_swept st now' ok tok
          simp only [Call.tokens, Option.toList_some, List.map_cons, List.map_nil, List.count_append, stored]
          change 0 + _ + _ = 0 + _ + _
          omega
      · exact keeps_create rfl draw now now' ok

theorem keeps_advance (ok : Bool) (call : Call) : (st.advance ok call).Keeps st call := by
  cases call with
  | exchanging id flow => exact keeps_same st _
  | granted id flow identity => exact keeps_same st _
  | redeemed entry verifier => exact keeps_same st _
  | revoking todos next =>
      cases todos with
      | cons todo todos =>
          intro tok
          change 0 + stored st.db tok + (todo.refreshToken :: Call.tokens (.revoking todos next)).count tok =
            ([todo.refreshToken].count tok + 0) + stored st.db tok + (Call.tokens (.revoking todos next)).count tok
          rw [List.count_cons, List.count_singleton]
          omega
      | nil =>
          cases next with
          | none => exact keeps_same st _
          | some pair =>
              obtain ⟨code, entry⟩ := pair
              rw [State.advance]
              split
              · intro tok
                have hinsert := Custody.count_held_insert MobileHandoff.tokens st.db.mobileHandoffs code entry tok
                obtain ⟨hgiven, hlost⟩ :=
                  marks_lost ((st.db.mobileHandoffs.lookup code).toList.flatMap MobileHandoff.tokens) tok
                have hmarks : (st.db.mobileHandoffs.lookup code).toList.map
                      (fun old => Mark.lost old.identity.refreshToken) =
                    ((st.db.mobileHandoffs.lookup code).toList.flatMap MobileHandoff.tokens).map .lost := by
                  cases st.db.mobileHandoffs.lookup code <;> rfl
                simp only [hmarks, hgiven, hlost, stored]
                change 0 + _ + entry.tokens.count tok = _ + _ + 0
                omega
              · exact fun tok => rfl

theorem keeps_answered (answer : Option Tokens) (call : Call) : (st.answered answer call).Keeps st call := by
  cases call with
  | granted id flow identity => exact keeps_same st _
  | redeemed entry verifier => exact keeps_same st _
  | revoking todos next => exact keeps_same st _
  | exchanging id flow =>
      unfold State.answered
      dsimp only
      split
      · rename_i c tokens _
        intro tok
        have hcall : (afterExchange c id flow tokens).tokens = [tokens.refreshToken] := by
          rw [afterExchange]
          cases hexchange : exchange c flow tokens with
          | none => rfl
          | some identity => exact congrArg (fun tok => [tok]) (exchange_some hexchange).1
        rw [hcall]
        change [tokens.refreshToken].count tok + stored st.db tok + 0 = 0 + stored st.db tok + _
        omega
      · exact fun tok => rfl

/-- Marks that say nothing of tokens. -/
theorem Balanced.mark (h : Balanced st) {mark : Mark} (hgiven : ∀ tok, given [mark] tok = 0)
    (hsettled : ∀ tok, settled [mark] tok = 0) {db : Store} {calls : List Call}
    (hcount : ∀ tok, stored db tok + (calls.flatMap Call.tokens).count tok =
      stored st.db tok + (st.calls.flatMap Call.tokens).count tok) :
    Balanced { st with db := db, calls := calls, log := mark :: st.log } := by
  refine balanced_iff.mpr fun tok => ?_
  have hbefore := balanced_iff.mp h tok
  have hsplit : mark :: st.log = [mark] ++ st.log := rfl
  simp only [hsplit, given_append, settled_append, hgiven, hsettled, hcount]
  omega

theorem Balanced.startOIDCFlow (h : Balanced st) (challenge id state nonce verifier : GoString) (now now' : Int)
    (ok : Bool) : Balanced (st.startOIDCFlow challenge id state nonce verifier now now' ok) := by
  rw [State.startOIDCFlow]
  split
  · exact h
  · exact h.mark (fun _ => rfl) (fun _ => rfl) fun _ => rfl

theorem Balanced.consumeOIDCFlow (h : Balanced st) (id state error code : GoString) (now : Int) (ok : Bool) :
    Balanced (st.consumeOIDCFlow id state error code now ok) := by
  rw [State.consumeOIDCFlow]
  split
  · exact h
  · refine h.mark (fun _ => rfl) (fun _ => rfl) fun tok => ?_
    split
    · rfl
    · rw [List.flatMap_append, List.flatMap_singleton, Call.tokens, List.append_nil]
      rfl

theorem Balanced.consumeMobileHandoff (h : Balanced st) (code verifier : GoString) (now : Int) (ok : Bool) :
    Balanced (st.consumeMobileHandoff sum256 code verifier now ok) := by
  rw [State.consumeMobileHandoff]
  split
  · exact h
  · split
    · exact h
    · cases hlookup : st.db.mobileHandoffs.lookup code with
      | none => exact h
      | some entry =>
          have hmoved : ∀ tok, stored { st.db with mobileHandoffs := st.db.mobileHandoffs.erase code } tok +
              entry.tokens.count tok = stored st.db tok := by
            intro tok
            have herase := Custody.count_held_erase MobileHandoff.tokens st.db.mobileHandoffs code tok
            rw [hlookup, Option.toList_some, List.flatMap_singleton] at herase
            rw [stored, stored]
            dsimp only
            omega
          have hcalls : ∀ (call : Call) (tok : GoString), call.tokens = entry.tokens →
              stored { st.db with mobileHandoffs := st.db.mobileHandoffs.erase code } tok +
                  ((st.calls ++ [call]).flatMap Call.tokens).count tok =
                stored st.db tok + (st.calls.flatMap Call.tokens).count tok := by
            intro call tok hcall
            have hmoved := hmoved tok
            rw [List.flatMap_append, List.flatMap_singleton, hcall, List.count_append]
            omega
          dsimp only
          split
          · refine balanced_iff.mpr fun tok => ?_
            exact (balanced_iff.mp h tok).trans (congrArg (_ + ·) (hcalls _ tok rfl).symm)
          · exact h.mark (fun _ => rfl) (fun _ => rfl) fun tok => hcalls _ tok rfl

theorem Balanced.step (h : Balanced st) (event : Event) : Balanced (st.step sum256 event) := by
  cases event with
  | login challenge id state nonce verifier now now' ok =>
      exact h.startOIDCFlow challenge id state nonce verifier now now' ok
  | callback id state error code now ok => exact h.consumeOIDCFlow id state error code now ok
  | redeem code verifier now ok => exact h.consumeMobileHandoff code verifier now ok
  | answer t answer => exact h.go fun call => keeps_answered answer call
  | store t draw now now' ok => exact h.go fun call => keeps_store draw now now' ok call
  | advance t ok => exact h.go fun call => keeps_advance ok call
  | sweep now ok =>
      refine balanced_iff.mpr fun tok => ?_
      have hbefore := balanced_iff.mp h tok
      have hswept := count_swept st now ok tok
      simp only [State.step, List.flatMap_append, List.flatMap_singleton, List.count_append, Call.tokens,
        Option.toList_none, List.map_nil, List.append_nil, stored]
      rw [stored] at hbefore
      omega
  | restart client =>
      refine balanced_iff.mpr fun tok => ?_
      have hbefore := balanced_iff.mp h tok
      obtain ⟨hgiven, hsettled⟩ := marks_lost (st.calls.flatMap Call.tokens) tok
      simp only [State.step, given_append, settled_append, hgiven, hsettled, List.flatMap_nil, List.count_nil]
      omega

theorem balanced_start (client : Option OIDCClient) : Balanced (.start client) := .refl _

/-! ### What is drawn -/

/-- The code that a call is about to store a handoff under. -/
def Call.code : Call → List GoString
  | .revoking _ (some (code, _)) => [code]
  | _ => []

def Event.draws : Event → List GoString
  | .store _ draw _ _ _ => [draw]
  | _ => []

/-- How often something drawn is the key of a session or of a handoff. -/
def keyed (db : Store) (code : GoString) : Nat := db.sessions.keys.count code + db.mobileHandoffs.keys.count code

/-- Each code that is in use has been drawn, and as often. -/
def Drawn (draws : List GoString) (st : State) : Prop :=
  ∀ code, keyed st.db code + (st.calls.flatMap Call.code).count code ≤ draws.count code

/-- A step of a call uses no code but its own and what is drawn for it. -/
def Effect.Uses (e : Effect) (st : State) (call : Call) (draws : List GoString) : Prop :=
  ∀ code, keyed e.db code + e.call.code.count code ≤ keyed st.db code + call.code.count code + draws.count code

theorem Drawn.go {step : Call → Effect} {draws new : List GoString} (h : Drawn draws st)
    (huses : ∀ call, (step call).Uses st call new) : Drawn (draws ++ new) (st.go t step) := by
  intro code
  rw [State.go, List.count_append]
  have hbefore := h code
  cases hget : st.calls[t]? with
  | none => exact Nat.le_add_right_of_le hbefore
  | some call =>
      have hstep := huses call code
      have hcalls := Custody.count_set Call.code hget (step call).call code
      simp only [State.apply]
      omega

theorem uses_same (st : State) (call : Call) (draws : List GoString) : Effect.Uses ⟨st.db, [], call⟩ st call draws :=
  fun _ => Nat.le_add_right _ _

/-- A call without a code, and without one before. -/
theorem uses_codeless {e : Effect} {draws : List GoString} (hcode : e.call.code = []) (hkeys : e.db = st.db) :
    e.Uses st call draws := by
  intro code
  rw [hcode, hkeys, List.count_nil]
  omega

theorem uses_create (identity : OIDCIdentity) (verifier : Option GoString) (draw : GoString) (now now' : Int)
    (ok : Bool) : (st.create sum256 identity verifier draw now now' ok).Uses st call [draw] := by
  rw [State.create]
  split
  · exact uses_codeless rfl rfl
  · rename_i session _
    intro code
    have hkeys := (Custody.keys_insert_sublist st.db.sessions draw session).count_le code
    rw [← List.singleton_append, List.count_append] at hkeys
    change keyed { st.db with sessions := st.db.sessions.insert draw session } code + 0 ≤ _
    rw [keyed, keyed]
    dsimp only
    omega

theorem keys_swept_le (st : State) (now : Int) (ok : Bool) (code : GoString) :
    (st.sweepExpiredMobileHandoffs now ok).1.keys.count code ≤ st.db.mobileHandoffs.keys.count code := by
  cases ok with
  | false => exact le_refl _
  | true => exact (Custody.keys_keep_sublist _ _).count_le code

theorem uses_store (draw : GoString) (now now' : Int) (ok : Bool) (call : Call) :
    (st.store sum256 draw now now' ok call).Uses st call [draw] := by
  cases call with
  | exchanging id flow => exact uses_same st _ _
  | revoking todos next => exact uses_same st _ _
  | redeemed entry verifier => exact uses_create _ _ _ _ _ _
  | granted id flow identity =>
      rw [State.store]
      split
      · rw [State.startMobileHandoff]
        split
        · exact uses_codeless rfl rfl
        · intro code
          have hkeys := keys_swept_le st now' ok code
          dsimp only [Call.code, keyed]
          omega
      · exact uses_create _ _ _ _ _ _

theorem uses_advance (ok : Bool) (call : Call) : (st.advance ok call).Uses st call [] := by
  cases call with
  | exchanging id flow => exact uses_same st _ _
  | granted id flow identity => exact uses_same st _ _
  | redeemed entry verifier => exact uses_same st _ _
  | revoking todos next =>
      cases todos with
      | cons todo todos => cases next <;> exact uses_same st _ _
      | nil =>
          cases next with
          | none => exact uses_same st _ _
          | some pair =>
              obtain ⟨own, entry⟩ := pair
              rw [State.advance]
              split
              · intro code
                have hkeys := (Custody.keys_insert_sublist st.db.mobileHandoffs own entry).count_le code
                rw [← List.singleton_append, List.count_append] at hkeys
                change keyed { st.db with mobileHandoffs := st.db.mobileHandoffs.insert own entry } code + 0 ≤
                  _ + [own].count code + 0
                rw [keyed, keyed]
                dsimp only
                omega
              · exact uses_codeless rfl rfl

theorem uses_answered (answer : Option Tokens) (call : Call) : (st.answered answer call).Uses st call [] := by
  cases call with
  | granted id flow identity => exact uses_same st _ _
  | redeemed entry verifier => exact uses_same st _ _
  | revoking todos next => exact uses_same st _ _
  | exchanging id flow =>
      unfold State.answered
      dsimp only
      split
      · refine uses_codeless ?_ rfl
        dsimp only [afterExchange]
        split <;> rfl
      · exact uses_codeless rfl rfl

theorem Drawn.step {draws : List GoString} (h : Drawn draws st) (event : Event) :
    Drawn (draws ++ event.draws) (st.step sum256 event) := by
  have hfewer : ∀ {st' : State}, (∀ code, keyed st'.db code ≤ keyed st.db code) →
      (st'.calls.flatMap Call.code = st.calls.flatMap Call.code) → Drawn (draws ++ []) st' := by
    intro st' hkeys hcalls code
    rw [List.append_nil, hcalls]
    exact (Nat.add_le_add_right (hkeys code) _).trans (h code)
  cases event with
  | login challenge id state nonce verifier now now' ok =>
      refine hfewer (fun code => ?_) ?_ <;> rw [State.step, State.startOIDCFlow] <;> split <;> rfl
  | callback id state error code now ok =>
      rw [State.step, State.consumeOIDCFlow]
      split
      · exact hfewer (fun _ => le_refl _) rfl
      · refine hfewer (fun _ => le_refl _) ?_
        dsimp only
        split
        · rfl
        · simp [Call.code]
  | redeem code verifier now ok =>
      rw [State.step, State.consumeMobileHandoff]
      have herase : ∀ other, keyed { st.db with mobileHandoffs := st.db.mobileHandoffs.erase code } other ≤
          keyed st.db other :=
        fun other => Nat.add_le_add_left ((Custody.keys_erase_sublist _ _).count_le other) _
      split
      · exact hfewer (fun _ => le_refl _) rfl
      · split
        · exact hfewer (fun _ => le_refl _) rfl
        · split
          · exact hfewer (fun _ => le_refl _) rfl
          · dsimp only
            split
            · exact hfewer herase (by simp [Call.code])
            · exact hfewer herase (by simp [Call.code])
  | sweep now ok =>
      exact hfewer (fun code => Nat.add_le_add_left (keys_swept_le st now ok code) _) (by simp [State.step, Call.code])
  | answer t answer => exact h.go fun call => uses_answered answer call
  | store t draw now now' ok => exact h.go fun call => uses_store draw now now' ok call
  | advance t ok => exact h.go fun call => uses_advance ok call
  | restart client =>
      intro code
      rw [List.count_append]
      exact Nat.le_add_right_of_le ((Nat.le_add_right _ _).trans (h code))

theorem lost_append (left right : List Mark) : lost (left ++ right) = lost left ++ lost right := List.filterMap_append

theorem lost_go {step : Call → Effect} (hstep : ∀ call, st.calls[t]? = some call → lost (step call).marks = []) :
    lost (st.go t step).log = lost st.log := by
  rw [State.go]
  cases hget : st.calls[t]? with
  | none => rfl
  | some call =>
      change lost ((step call).marks ++ st.log) = lost st.log
      rw [lost_append, hstep call hget, List.nil_append]

/-- What is drawn for a step is not in use while nothing is drawn twice. -/
theorem Drawn.fresh {draws : List GoString} {draw : GoString} (h : Drawn draws st) (hnodup : (draws ++ [draw]).Nodup) :
    st.db.sessions.lookup draw = none := by
  have honce : (draws ++ [draw]).count draw ≤ 1 := List.nodup_iff_count_le_one.mp hnodup draw
  have hkeys : st.db.sessions.keys.count draw = 0 := by
    have hdrawn := h draw
    rw [List.count_append, List.count_singleton_self] at honce
    rw [keyed] at hdrawn
    omega
  rw [AList.lookup_eq_none]
  exact fun hmem => absurd hkeys (List.count_pos_iff.mpr hmem).ne'

theorem lost_create {draw : GoString} (hfresh : st.db.sessions.lookup draw = none) (identity : OIDCIdentity)
    (verifier : Option GoString) (now now' : Int) (ok : Bool) :
    lost (st.create sum256 identity verifier draw now now' ok).marks = [] := by
  rw [State.create]
  split
  · rfl
  · rw [hfresh]
    rfl

theorem lost_store {draw : GoString} (hfresh : st.db.sessions.lookup draw = none) (now now' : Int) (ok : Bool)
    (call : Call) : lost (st.store sum256 draw now now' ok call).marks = [] := by
  cases call with
  | exchanging id flow => rfl
  | revoking todos next => rfl
  | redeemed entry verifier => exact lost_create hfresh _ _ _ _ _
  | granted id flow identity =>
      rw [State.store]
      split
      · rw [State.startMobileHandoff]
        split <;> rfl
      · exact lost_create hfresh _ _ _ _ _

theorem lost_answered (answer : Option Tokens) (call : Call) : lost (st.answered answer call).marks = [] := by
  cases call with
  | granted id flow identity => rfl
  | redeemed entry verifier => rfl
  | revoking todos next => rfl
  | exchanging id flow =>
      unfold State.answered
      dsimp only
      split <;> rfl

/-- While no code is drawn twice, no handoff is written over another. -/
theorem lost_advance {draws : List GoString} (h : Drawn draws st) (hnodup : draws.Nodup) (ok : Bool)
    (hget : st.calls[t]? = some call) : lost (st.advance ok call).marks = [] := by
  cases call with
  | exchanging id flow => rfl
  | granted id flow identity => rfl
  | redeemed entry verifier => rfl
  | revoking todos next =>
      cases todos with
      | cons todo todos => cases next <;> rfl
      | nil =>
          cases next with
          | none => rfl
          | some pair =>
              obtain ⟨own, entry⟩ := pair
              have hpending : 0 < (st.calls.flatMap Call.code).count own :=
                List.count_pos_iff.mpr (List.mem_flatMap.mpr ⟨_, List.mem_of_getElem? hget, List.mem_singleton_self own⟩)
              have honce : draws.count own ≤ 1 := List.nodup_iff_count_le_one.mp hnodup own
              have hkeys : st.db.mobileHandoffs.keys.count own = 0 := by
                have hdrawn := h own
                rw [keyed] at hdrawn
                omega
              have hnone : st.db.mobileHandoffs.lookup own = none := by
                rw [AList.lookup_eq_none]
                exact fun hmem => absurd hkeys (List.count_pos_iff.mpr hmem).ne'
              rw [State.advance]
              split
              · rw [hnone]
                rfl
              · rfl

theorem lost_step {draws : List GoString} {event : Event} (h : Drawn draws st) (hnodup : (draws ++ event.draws).Nodup)
    (hrestart : ∀ client, event ≠ .restart client) : lost (st.step sum256 event).log = lost st.log := by
  cases event with
  | login challenge id state nonce verifier now now' ok =>
      rw [State.step, State.startOIDCFlow]
      split <;> rfl
  | callback id state error code now ok =>
      rw [State.step, State.consumeOIDCFlow]
      split <;> rfl
  | redeem code verifier now ok =>
      rw [State.step, State.consumeMobileHandoff]
      split
      · rfl
      · split
        · rfl
        · split
          · rfl
          · dsimp only
            split <;> rfl
  | sweep now ok => rfl
  | answer t answer => exact lost_go fun call _ => lost_answered answer call
  | store t draw now now' ok => exact lost_go fun call _ => lost_store (h.fresh hnodup) now now' ok call
  | advance t ok => exact lost_go fun call hget => lost_advance h (List.append_nil draws ▸ hnodup) ok hget
  | restart client => exact absurd rfl (hrestart client)

theorem lost_exec {draws : List GoString} {es : List Event} (h : Drawn draws st)
    (hnodup : (draws ++ es.flatMap Event.draws).Nodup) (hrestart : ∀ client, Event.restart client ∉ es) :
    lost (Run.exec (State.step sum256) st es).log = lost st.log := by
  induction es generalizing st draws with
  | nil => rfl
  | cons event es ih =>
      rw [List.flatMap_cons, ← List.append_assoc] at hnodup
      have hfirst := @lost_step sum256 st draws event h (hnodup.sublist (List.sublist_append_left _ _))
        fun client heq => hrestart client (heq ▸ List.mem_cons_self)
      rw [Run.exec_cons, ih (h.step event) hnodup fun client hmem => hrestart client (List.mem_cons_of_mem _ hmem)]
      exact hfirst

end Sysmon.Auth.SignIn
