import Sysmon.Agents.Registry

/-!
# Revocation against handshakes

A revoke and a mint that replaces write the store first and close what is registered second; a
handshake registers first and checks its epoch again second. So whichever comes second sees the other,
and when everybody has finished, what is registered has the epoch of the store. Before it registers, a
handshake checks its epoch under the lock of its registry. The epoch can go stale before it lets the
lock go, but nobody with the new one has come in meanwhile: so what it closes is not current either.
-/

namespace Sysmon.Agents

open Fleet

/-! ### Epochs in the store -/

section Epochs

variable {sha : List UInt8 → Digest} {s : Store} {site other label kind token addr : GoString}
  {now : Time} {replace commits : Bool} {draw : Draw}

theorem epochOf_congr {s' : Store} (h : getAgentToken s' site = getAgentToken s site) :
    epochOf s' site = epochOf s site := by
  rw [epochOf, epochOf, h]

theorem getAgentToken_congr {s' : Store} (h : s' site = s site) :
    getAgentToken s' site = getAgentToken s site := by
  rw [getAgentToken, getAgentToken, h]

/-- Only a mint and a revoke touch the epoch of a record. -/
def Op.keepsEpoch : Op → Bool
  | .mint .. | .revoke .. => false
  | .check .. | .claim .. | .setLabel .. => true

theorem Rewrites.epoch {op : Op} {r r' : Stored} (h : Rewrites sha op r r') (hop : op.keepsEpoch = true) :
    r'.revoked = r.revoked ∧ r'.credentialId = r.credentialId := by
  cases h with
  | same => exact ⟨rfl, rfl⟩
  | minted site label kind replace draw commits h =>
      rw [h] at hop
      exact absurd hop (by simp [Op.keepsEpoch])
  | seen => exact ⟨rfl, rfl⟩
  | claimed => exact ⟨rfl, rfl⟩
  | labelled => exact ⟨rfl, rfl⟩
  | revoked site commits h =>
      rw [h] at hop
      exact absurd hop (by simp [Op.keepsEpoch])

theorem epochOf_keep (op : Op) (hread : (getAgentToken s op.site).isSome = true)
    (hop : op.keepsEpoch = true) (other : GoString) :
    epochOf (op.step sha s) other = epochOf s other := by
  by_cases hsite : other = op.site
  · obtain ⟨r, hr⟩ := Option.isSome_iff_exists.mp hread
    obtain ⟨r', hr', hrewrites⟩ : ∃ r', getAgentToken (op.step sha s) op.site = some r' ∧
        Rewrites sha op r r' := rewrites_step op hr
    obtain ⟨hrevoked, hepoch⟩ := hrewrites.epoch hop
    rw [hsite, epochOf, epochOf, hr, hr', Option.bind_some, Option.bind_some, hrevoked, hepoch]
  · exact epochOf_congr (getAgentToken_congr (step_other op hsite))

/-- A record that can be read stays so. -/
theorem readable_step (op : Op) (hread : (getAgentToken s other).isSome = true) :
    (getAgentToken (op.step sha s) other).isSome = true := by
  by_cases hsite : other = op.site
  · subst hsite
    obtain ⟨r, hr⟩ := Option.isSome_iff_exists.mp hread
    obtain ⟨r', hr', -⟩ : ∃ r', getAgentToken (op.step sha s) op.site = some r' ∧
        Rewrites sha op r r' := rewrites_step op hr
    rw [hr']
    rfl
  · rwa [getAgentToken_congr (step_other op hsite)]

/-- A token that is accepted has the epoch of its site, and the epochs stay as they are. -/
theorem epochOf_check {s' : Store} {credId : GoString}
    (h : checkAgentToken sha s site token addr now commits = (s', some (some credId))) :
    s' = (Op.check site token addr now commits).step sha s ∧ epochOf s site = some credId ∧
      (getAgentToken s' site).isSome = true ∧ ∀ other, epochOf s' other = epochOf s other := by
  have hstore : s' = (Op.check site token addr now commits).step sha s := by
    simp only [Op.step, Op.run, h, Prod.map_fst, id_eq]
  obtain ⟨-, hno⟩ | ⟨stored, hstored, hrevoked, -, heq⟩ := check_cases
  · rw [h] at hno
    exact absurd rfl (hno credId)
  · obtain rfl : credId = stored.credentialId := by
      rw [h] at heq
      simpa using (Prod.mk.inj heq).2
    have hread : (getAgentToken s site).isSome = true := by
      rw [hstored]
      rfl
    refine ⟨hstore, ?_, ?_, ?_⟩
    · rw [epochOf, hstored, Option.bind_some, hrevoked]
      rfl
    · rw [hstore]
      exact readable_step _ hread
    · rw [hstore]
      exact epochOf_keep _ hread rfl

theorem epochOf_revoke {s' : Store} (h : revokeAgentToken s site commits = (s', some ())) :
    epochOf s' site = none ∧ ∀ other, other ≠ site → epochOf s' other = epochOf s other := by
  obtain heq | ⟨members, -, heq⟩ := revoke_cases
  · rw [h] at heq
    exact absurd (Prod.mk.inj heq).2 (by simp)
  · rw [h] at heq
    obtain rfl := (Prod.mk.inj heq).1
    refine ⟨?_, fun other hne => epochOf_congr (getAgentToken_congr (Function.update_of_ne hne _ _))⟩
    rw [epochOf, getAgentToken_update]
    cases hread : unmarshalStored (.object (Function.update members .revoked (some (.bool true)))) with
    | none => rfl
    | some r =>
        have hrevoked : readBool (some (.bool true)) = some r.revoked :=
          (unmarshalStored_eq_some.mp hread).2.2.2.2.2.2.2.1
        rw [Option.bind_some, ← Option.some.inj hrevoked]
        rfl

theorem epochOf_of_not_occupied (h : ¬Occupied s site) : epochOf s site = none := by
  rw [epochOf]
  cases hget : getAgentToken s site with
  | none => rfl
  | some r =>
      obtain ⟨blob, hblob, hread⟩ := Option.bind_eq_some_iff.mp hget
      have hrevoked : r.revoked = true := by
        by_contra hlive
        refine h ⟨blob, hblob, fun old hold => ?_⟩
        obtain rfl := Option.some.inj (hold.symm.trans (unmarshal_of_stored hread))
        exact eq_false_of_ne_true hlive
      rw [Option.bind_some, hrevoked]
      rfl

/-- A mint that succeeds gives the site its own epoch. Without leave to replace, there was none. -/
theorem epochOf_mint {s' : Store} {minted : GoString}
    (h : mintAgentToken sha s site label kind replace draw commits = (s', some minted)) :
    epochOf s' site = some (hexString draw.epoch) ∧ (replace = false → epochOf s site = none) ∧
      ∀ other, other ≠ site → epochOf s' other = epochOf s other := by
  obtain heq | ⟨hfree, -, heq⟩ := mint_cases
  · rw [h] at heq
    exact absurd (Prod.mk.inj heq).2 (by simp)
  · rw [h] at heq
    obtain rfl := (Prod.mk.inj heq).1
    refine ⟨?_, fun hreplace => epochOf_of_not_occupied (hfree hreplace), fun other hne => ?_⟩
    · rw [epochOf, getAgentToken_update, unmarshalStored_marshal, Option.bind_some]
      simp only [Stored.written, freshRecord, jsonText_hexString]
      rfl
    · exact epochOf_congr (getAgentToken_congr (Function.update_of_ne hne _ _))

end Epochs

/-! ### What is current, and what is due -/

/-- The handshake of the connection was let in with the epoch that the site has now. -/
def Carries (st : State) (c : Tid) (site : GoString) : Prop :=
  ∃ h e, st.threads[c]? = some (.handshake h) ∧ h.epoch = some e ∧ epochOf st.store site = some e

/-- A revoke or a mint at this stage has yet to close what is registered. -/
def AdminStage.due : AdminStage → Verb → Bool
  | .written, _ | .swept, .alerter | .found, .alerter => true
  | _, _ => false

def Pending (st : State) (verb : Verb) (site : GoString) : Prop :=
  ∃ (t : Tid) (op : AdminOp) (stage : AdminStage),
    st.threads[t]? = some (.admin op stage) ∧ op.site = site ∧ stage.due verb = true

def Thread.site : Thread → GoString
  | .handshake h => h.site
  | .admin op _ => op.site

def Thread.finished : Thread → Bool
  | .handshake h => h.stage = .live || h.stage = .gone
  | .admin _ stage => stage = .finished

/-- Every handshake, every revoke and every mint of the site has finished. -/
def Quiet (st : State) (site : GoString) : Prop :=
  ∀ thread ∈ st.threads, thread.site = site → thread.finished = true

/-- The epoch is in the hands of the thread. -/
def Thread.uses (site e : GoString) : Thread → Prop
  | .handshake h => h.site = site ∧ h.epoch = some e
  | .admin (.mint site' _ _ _ draw) _ => site' = site ∧ hexString draw.epoch = e
  | .admin (.revoke _) _ => False

/-- The epoch of a mint is one that the site does not have and that no thread has for it. -/
def FreshFor (st : State) : AdminOp → Prop
  | .mint site _ _ _ draw =>
      epochOf st.store site ≠ some (hexString draw.epoch) ∧
        ∀ thread ∈ st.threads, ¬thread.uses site (hexString draw.epoch)
  | .revoke _ => True

/-- What `crypto/rand` gives for an epoch has not been given before. -/
def FreshDraw (st : State) : Event → Prop
  | .ask op => FreshFor st op
  | _ => True

/-- What every state keeps besides. -/
structure Orderly (st : State) : Prop where
  sound : Sound st
  /-- A handshake that has been let in had a record, and records that can be read stay so. -/
  readable : ∀ (t : Tid) (h : Handshake), st.threads[t]? = some (.handshake h) → h.stage ≠ .greeting →
    h.stage ≠ .gone → (getAgentToken st.store h.site).isSome = true
  /-- A connection that is live and out of date is about to be closed. -/
  settled : ∀ (verb : Verb) (site : GoString) (c : Tid) (h : Handshake), Held st verb site c →
    st.threads[c]? = some (.handshake h) → h.stage = .live → Carries st c site ∨ Pending st verb site
  locked : ∀ (t : Tid) (h : Handshake), st.threads[t]? = some (.handshake h) →
    h.stage = .locked ∨ h.stage = .checked → st.locks h.verb = some t
  /-- Where a handshake has gone stale under the lock, nobody who is current has come in. -/
  unrivalled : ∀ (t : Tid) (h : Handshake), st.threads[t]? = some (.handshake h) → h.stage = .checked →
    Carries st t h.site ∨ ∀ c, Held st h.verb h.site c → ¬Carries st c h.site
  unused : ∀ (t : Tid) (site label kind : GoString) (replace : Bool) (draw : Draw),
    st.threads[t]? = some (.admin (.mint site label kind replace draw) .asked) →
    epochOf st.store site ≠ some (hexString draw.epoch) ∧
      ∀ (i : Tid) (thread : Thread), st.threads[i]? = some thread →
        thread.uses site (hexString draw.epoch) → i = t

variable {sha : List UInt8 → Digest} {st st' : State} {t c : Tid} {h h' : Handshake} {verb : Verb}
  {site : GoString}

/-- A connection carries the epoch of its site as before, when its handshake and the epoch are as
before. -/
theorem Carries.congr (hget : st'.threads[c]? = st.threads[c]?)
    (hepoch : epochOf st'.store site = epochOf st.store site) (hcarries : Carries st c site) :
    Carries st' c site := by
  obtain ⟨h, e, hgetc, heq, hcurrent⟩ := hcarries
  exact ⟨h, e, hget.trans hgetc, heq, hepoch.trans hcurrent⟩

theorem Orderly.held_thread (ho : Orderly st) (hheld : Held st verb site c)
    (hget : st.threads[c]? = some (.handshake h)) : h.verb = verb ∧ h.site = site ∧ h.Registered := by
  obtain ⟨h', hget', hrest⟩ := ho.sound.held verb site c hheld
  obtain rfl : h = h' := by simpa using hget.symm.trans hget'
  exact hrest

/-- A handshake moves on. Only one that has checked its epoch may come into the registry. -/
theorem Orderly.move (ho : Orderly st) (hsound : Sound st')
    (hget : st.threads[t]? = some (.handshake h))
    (hthreads : st'.threads = st.threads.set t (.handshake h'))
    (hverb : h'.verb = h.verb) (hsite : h'.site = h.site)
    (hepochs : ∀ site, epochOf st'.store site = epochOf st.store site)
    (hreads : ∀ site, (getAgentToken st.store site).isSome = true →
      (getAgentToken st'.store site).isSome = true)
    (hheld : ∀ verb site c, Held st' verb site c → Held st verb site c ∨
      verb = h.verb ∧ site = h.site ∧ c = t ∧ h.stage = .checked)
    (hkept : ∀ v t', t' ≠ t → st.locks v = some t' → st'.locks v = some t')
    (hepoch : h'.epoch = h.epoch ∨ h.stage = .greeting ∧ h'.epoch = epochOf st.store h.site)
    (hread : h'.stage ≠ .greeting → h'.stage ≠ .gone → (getAgentToken st'.store h.site).isSome = true)
    (hlive : h'.stage = .live → Carries st' t h.site)
    (hlocked : h'.stage = .locked ∨ h'.stage = .checked → st'.locks h.verb = some t)
    (hchecked : h'.stage = .checked → Carries st' t h.site) : Orderly st' := by
  have hother : ∀ i, i ≠ t → st'.threads[i]? = st.threads[i]? := by
    intro i hi
    rw [hthreads, List.getElem?_set_ne (Ne.symm hi)]
  have hadmin : ∀ (i : Tid) (op : AdminOp) (stage : AdminStage),
      st.threads[i]? = some (.admin op stage) → i ≠ t := by
    rintro i op stage hgeti rfl
    exact absurd (hget.symm.trans hgeti) (by simp)
  -- a connection that is held has been let in, and its epoch does not change any more
  have hcarries : ∀ verb site c, Held st verb site c → Carries st' c site → Carries st c site := by
    intro verb site c hheldc hcar
    obtain ⟨hc, e, hgetc, heq, hcurrent⟩ := hcar
    rw [hepochs] at hcurrent
    rw [hthreads] at hgetc
    obtain ⟨rfl, hnew⟩ | ⟨-, hold⟩ := Run.getElem?_of_set hgetc
    · obtain rfl := Thread.handshake.inj hnew
      obtain hsame | ⟨hgreeting, -⟩ := hepoch
      · exact ⟨h, e, hget, hsame ▸ heq, hcurrent⟩
      · obtain ⟨-, -, hregistered⟩ := ho.held_thread hheldc hget
        simp [Handshake.Registered, hgreeting] at hregistered
    · exact ⟨hc, e, hold, heq, hcurrent⟩
  have hpending : ∀ verb site, Pending st verb site → Pending st' verb site := by
    rintro verb site ⟨i, op, stage, hgeti, hrest⟩
    exact ⟨i, op, stage, (hother i (hadmin i op stage hgeti)).trans hgeti, hrest⟩
  refine ⟨hsound, fun i hi hgeti hgreeting hgone => ?_, fun verb site c hc hheldc hgetc hlivec => ?_,
    fun i hi hgeti hstage => ?_, fun i hi hgeti hstage => ?_,
    fun i site label kind replace draw hgeti => ?_⟩
  · rw [hthreads] at hgeti
    obtain ⟨rfl, hnew⟩ | ⟨-, hold⟩ := Run.getElem?_of_set hgeti
    · obtain rfl := Thread.handshake.inj hnew
      exact hsite ▸ hread hgreeting hgone
    · exact hreads _ (ho.readable i hi hold hgreeting hgone)
  · rw [hthreads] at hgetc
    obtain ⟨rfl, hnew⟩ | ⟨hne, hold⟩ := Run.getElem?_of_set hgetc
    · obtain rfl := Thread.handshake.inj hnew
      have hsitec : h.site = site := by
        obtain hbefore | ⟨-, rfl, -, -⟩ := hheld verb site c hheldc
        · exact (ho.held_thread hbefore hget).2.1
        · rfl
      exact Or.inl (hsitec ▸ hlive hlivec)
    · have hbefore := (hheld verb site c hheldc).resolve_right fun hmine => hne hmine.2.2.1
      refine (ho.settled verb site c hc hbefore hold hlivec).imp ?_ (hpending verb site)
      exact Carries.congr (hother c hne) (hepochs site)
  · rw [hthreads] at hgeti
    obtain ⟨rfl, hnew⟩ | ⟨hne, hold⟩ := Run.getElem?_of_set hgeti
    · obtain rfl := Thread.handshake.inj hnew
      exact hverb ▸ hlocked hstage
    · exact hkept _ i hne (ho.locked i hi hold hstage)
  · rw [hthreads] at hgeti
    obtain ⟨rfl, hnew⟩ | ⟨hne, hold⟩ := Run.getElem?_of_set hgeti
    · obtain rfl := Thread.handshake.inj hnew
      exact Or.inl (hsite ▸ hchecked hstage)
    · refine (ho.unrivalled i hi hold hstage).imp ?_ fun hno c hheldc hcar => ?_
      · exact Carries.congr (hother i hne) (hepochs _)
      · obtain hbefore | ⟨hverbi, -, -, hmine⟩ := hheld _ _ c hheldc
        · exact hno c hbefore (hcarries _ _ c hbefore hcar)
        · -- both would hold the lock
          have hi' := ho.locked i hi hold (Or.inr hstage)
          have ht := ho.locked t h hget (Or.inr hmine)
          rw [hverbi, ht] at hi'
          exact hne (Option.some.inj hi').symm
  · rw [hthreads] at hgeti
    obtain ⟨-, hnew⟩ | ⟨hne, hold⟩ := Run.getElem?_of_set hgeti
    · exact absurd hnew (by simp)
    · obtain ⟨hstore, hthreads'⟩ := ho.unused i site label kind replace draw hold
      refine ⟨by rwa [hepochs], fun j thread hgetj huses => ?_⟩
      rw [hthreads] at hgetj
      obtain ⟨rfl, rfl⟩ | ⟨-, holdj⟩ := Run.getElem?_of_set hgetj
      · obtain ⟨hsiteh, hepochh⟩ := huses
        obtain hsame | ⟨-, hgiven⟩ := hepoch
        · exact hthreads' j _ hget ⟨hsite ▸ hsiteh, hsame ▸ hepochh⟩
        · have hsitet : h.site = site := hsite ▸ hsiteh
          rw [hgiven, hsitet] at hepochh
          exact absurd hepochh hstore
      · exact hthreads' j thread holdj huses

theorem uses_stage {op : AdminOp} {stage stage' : AdminStage} {e : GoString}
    (huses : (Thread.admin op stage').uses site e) : (Thread.admin op stage).uses site e := by
  cases op with
  | revoke site' => exact huses
  | mint site' label kind replace draw => exact huses

/-- A revoke or a mint moves on. Where the epoch of its site changes, no handshake has the new one. -/
theorem Orderly.advance {op : AdminOp} {stage stage' : AdminStage} (ho : Orderly st) (hsound : Sound st')
    (hget : st.threads[t]? = some (.admin op stage))
    (hthreads : st'.threads = st.threads.set t (.admin op stage'))
    (hlocks : st'.locks = st.locks)
    (hepochs : ∀ site, epochOf st'.store site = epochOf st.store site ∨
      site = op.site ∧ ∀ (i : Tid) (h : Handshake), st.threads[i]? = some (.handshake h) → h.site = site →
        h.epoch = none ∨ h.epoch ≠ epochOf st'.store site)
    (hreads : ∀ site, (getAgentToken st.store site).isSome = true →
      (getAgentToken st'.store site).isSome = true)
    (hheld : ∀ verb site c, Held st' verb site c → Held st verb site c)
    (hsettled : ∀ verb c, Held st' verb op.site c → Carries st c op.site ∨ Pending st verb op.site →
      Carries st' c op.site ∨ Pending st' verb op.site)
    (hmoves : stage' ≠ .asked)
    (hunused : ∀ (i : Tid) (site label kind : GoString) (replace : Bool) (draw : Draw), i ≠ t →
      st.threads[i]? = some (.admin (.mint site label kind replace draw) .asked) →
      epochOf st'.store site ≠ some (hexString draw.epoch)) : Orderly st' := by
  have hshakes : ∀ (i : Tid) (hi : Handshake), st'.threads[i]? = some (.handshake hi) →
      st.threads[i]? = some (.handshake hi) := by
    intro i hi hgeti
    rw [hthreads] at hgeti
    obtain ⟨-, hnew⟩ | ⟨-, hold⟩ := Run.getElem?_of_set hgeti
    · exact absurd hnew (by simp)
    · exact hold
  have hkept : ∀ (i : Tid) (hi : Handshake), st.threads[i]? = some (.handshake hi) →
      st'.threads[i]? = some (.handshake hi) := by
    intro i hi hgeti
    have hne : i ≠ t := by
      rintro rfl
      exact absurd (hget.symm.trans hgeti) (by simp)
    rw [hthreads, List.getElem?_set_ne (Ne.symm hne), hgeti]
  have hcarries : ∀ site c, epochOf st'.store site = epochOf st.store site →
      (Carries st' c site ↔ Carries st c site) := by
    intro site c hsame
    constructor
    · rintro ⟨hc, e, hgetc, heq, hcurrent⟩
      exact ⟨hc, e, hshakes c hc hgetc, heq, hsame ▸ hcurrent⟩
    · rintro ⟨hc, e, hgetc, heq, hcurrent⟩
      exact ⟨hc, e, hkept c hc hgetc, heq, hsame ▸ hcurrent⟩
  refine ⟨hsound, fun i hi hgeti hgreeting hgone => ?_, fun verb site c hc hheldc hgetc hlivec => ?_,
    fun i hi hgeti hstage => ?_, fun i hi hgeti hstage => ?_,
    fun i site label kind replace draw hgeti => ?_⟩
  · exact hreads _ (ho.readable i hi (hshakes i hi hgeti) hgreeting hgone)
  · have hbefore := ho.settled verb site c hc (hheld verb site c hheldc) (hshakes c hc hgetc) hlivec
    by_cases hsite : site = op.site
    · subst hsite
      exact hsettled verb c hheldc hbefore
    · have hsame : epochOf st'.store site = epochOf st.store site :=
        (hepochs site).resolve_right fun hchanged => hsite hchanged.1
      refine hbefore.imp (hcarries site c hsame).mpr ?_
      rintro ⟨i, op', stage'', hgeti, hsite', hdue⟩
      have hne : i ≠ t := by
        rintro rfl
        obtain ⟨rfl, -⟩ : op = op' ∧ stage = stage'' := by simpa using hget.symm.trans hgeti
        exact hsite hsite'.symm
      exact ⟨i, op', stage'', by rw [hthreads, List.getElem?_set_ne (Ne.symm hne), hgeti], hsite', hdue⟩
  · rw [hlocks]
    exact ho.locked i hi (hshakes i hi hgeti) hstage
  · obtain hsame | ⟨hsite, hnobody⟩ := hepochs hi.site
    · refine (ho.unrivalled i hi (hshakes i hi hgeti) hstage).imp (hcarries _ i hsame).mpr ?_
      intro hno c hheldc hcar
      exact hno c (hheld _ _ c hheldc) ((hcarries _ c hsame).mp hcar)
    · refine Or.inr fun c hheldc hcar => ?_
      obtain ⟨hc, e, hgetc, heq, hcurrent⟩ := hcar
      obtain ⟨-, hsitec, -⟩ := ho.held_thread (hheld _ _ c hheldc) (hshakes c hc hgetc)
      obtain hnone | hother := hnobody c hc (hshakes c hc hgetc) hsitec
      · exact absurd (heq.symm.trans hnone) (by simp)
      · exact hother (heq.trans hcurrent.symm)
  · rw [hthreads] at hgeti
    obtain ⟨-, hnew⟩ | ⟨hne, hold⟩ := Run.getElem?_of_set hgeti
    · exact absurd (Thread.admin.inj hnew).2.symm hmoves
    · obtain ⟨-, hthreads'⟩ := ho.unused i site label kind replace draw hold
      refine ⟨hunused i site label kind replace draw hne hold, fun j thread hgetj huses => ?_⟩
      rw [hthreads] at hgetj
      obtain ⟨rfl, rfl⟩ | ⟨-, holdj⟩ := Run.getElem?_of_set hgetj
      · exact hthreads' j _ hget (uses_stage huses)
      · exact hthreads' j thread holdj huses

/-- Nothing happens to the store. -/
theorem Orderly.advance_registry {op : AdminOp} {stage stage' : AdminStage} (ho : Orderly st)
    (hsound : Sound st') (hget : st.threads[t]? = some (.admin op stage))
    (hthreads : st'.threads = st.threads.set t (.admin op stage'))
    (hlocks : st'.locks = st.locks) (hstore : st'.store = st.store)
    (hheld : ∀ verb site c, Held st' verb site c → Held st verb site c)
    (hdone : ∀ verb c, Held st' verb op.site c → stage.due verb = true → stage'.due verb = true)
    (hmoves : stage' ≠ .asked) : Orderly st' := by
  refine ho.advance hsound hget hthreads hlocks (fun site => Or.inl (by rw [hstore]))
    (fun site hread => by rwa [hstore]) hheld (fun verb c hheldc hbefore => ?_) hmoves
    fun i site label kind replace draw _ hgeti => ?_
  · refine hbefore.imp ?_ ?_
    · rintro ⟨hc, e, hgetc, heq, hcurrent⟩
      have hne : c ≠ t := by
        rintro rfl
        exact absurd (hget.symm.trans hgetc) (by simp)
      exact ⟨hc, e, by rw [hthreads, List.getElem?_set_ne (Ne.symm hne), hgetc], heq, hstore ▸ hcurrent⟩
    · rintro ⟨i, op', stage'', hgeti, hsite, hdue⟩
      by_cases hit : i = t
      · subst hit
        obtain ⟨rfl, rfl⟩ : op = op' ∧ stage = stage'' := by simpa using hget.symm.trans hgeti
        exact ⟨i, op, stage', by rw [hthreads, Run.getElem?_set_self' hget], hsite, hdone verb c hheldc hdue⟩
      · exact ⟨i, op', stage'', by rw [hthreads, List.getElem?_set_ne (Ne.symm hit), hgeti], hsite, hdue⟩
  · rw [hstore]
    exact (ho.unused i site label kind replace draw hgeti).1

/-- The write of a revoke or of a mint. If nothing will be closed after it, nothing was current. -/
theorem Orderly.write {op : AdminOp} {stage' : AdminStage} (ho : Orderly st) (hsound : Sound st')
    (hget : st.threads[t]? = some (.admin op .asked))
    (hthreads : st'.threads = st.threads.set t (.admin op stage'))
    (hlocks : st'.locks = st.locks) (hfleet : st'.fleet = st.fleet)
    (halerters : st'.alerters = st.alerters)
    (hother : ∀ site, site ≠ op.site → epochOf st'.store site = epochOf st.store site)
    (hreads : ∀ site, (getAgentToken st.store site).isSome = true →
      (getAgentToken st'.store site).isSome = true)
    (hnobody : ∀ (i : Tid) (h : Handshake), st.threads[i]? = some (.handshake h) → h.site = op.site →
      h.epoch = none ∨ h.epoch ≠ epochOf st'.store op.site)
    (hcloses : stage' = .written ∨ epochOf st.store op.site = none) (hmoves : stage' ≠ .asked)
    (hunused : ∀ (i : Tid) (label kind : GoString) (replace : Bool) (draw : Draw), i ≠ t →
      st.threads[i]? = some (.admin (.mint op.site label kind replace draw) .asked) →
      epochOf st'.store op.site ≠ some (hexString draw.epoch)) : Orderly st' := by
  refine ho.advance hsound hget hthreads hlocks (fun site => ?_) hreads
    (fun verb site c hheldc => (held_congr hfleet halerters).mp hheldc) (fun verb c _ hbefore => ?_) hmoves
    fun i site label kind replace draw hne hgeti => ?_
  · by_cases hsite : site = op.site
    · subst hsite
      exact Or.inr ⟨rfl, hnobody⟩
    · exact Or.inl (hother site hsite)
  · right
    obtain rfl | hnone := hcloses
    · exact ⟨t, op, .written, by rw [hthreads, Run.getElem?_set_self' hget], rfl, rfl⟩
    · obtain ⟨-, e, -, -, hcurrent⟩ | ⟨i, op', stage, hgeti, hsite, hdue⟩ := hbefore
      · exact absurd (hcurrent.symm.trans hnone) (by simp)
      · have hne : i ≠ t := by
          rintro rfl
          obtain ⟨-, rfl⟩ : op = op' ∧ .asked = stage := by simpa using hget.symm.trans hgeti
          exact absurd hdue (by simp [AdminStage.due])
        exact ⟨i, op', stage, by rw [hthreads, List.getElem?_set_ne (Ne.symm hne), hgeti], hsite, hdue⟩
  · by_cases hsite : site = op.site
    · subst hsite
      exact hunused i label kind replace draw hne hgeti
    · rw [hother site hsite]
      exact (ho.unused i site label kind replace draw hgeti).1

/-- Somebody new comes, with an epoch that is not in use if it has one. -/
theorem Orderly.spawn (ho : Orderly st) {thread : Thread} (hsound : Sound (st.spawn thread))
    (hgreeting : ∀ h, thread = .handshake h → h.stage = .greeting ∧ h.epoch = none)
    (hadmin : ∀ op stage, thread = .admin op stage → FreshFor st op) : Orderly (st.spawn thread) := by
  have hcases : ∀ (i : Nat) (x : Thread), (st.spawn thread).threads[i]? = some x →
      st.threads[i]? = some x ∨ i = st.threads.length ∧ x = thread :=
    fun i x hgeti => Run.getElem?_of_append hgeti
  have hkept : ∀ (i : Tid) (x : Thread), st.threads[i]? = some x →
      (st.spawn thread).threads[i]? = some x := by
    intro i x hgeti
    obtain ⟨hlt, -⟩ := List.getElem?_eq_some_iff.mp hgeti
    rw [State.spawn, List.getElem?_append_left hlt, hgeti]
  have hheld : ∀ {verb site c}, Held (st.spawn thread) verb site c → Held st verb site c :=
    fun hheldc => (held_congr rfl rfl).mp hheldc
  have hcarries : ∀ site c, Carries (st.spawn thread) c site → Carries st c site := by
    rintro site c ⟨hc, e, hgetc, heq, hcurrent⟩
    obtain hold | ⟨-, hnew⟩ := hcases c _ hgetc
    · exact ⟨hc, e, hold, heq, hcurrent⟩
    · exact absurd (heq.symm.trans (hgreeting hc hnew.symm).2) (by simp)
  have hstays : ∀ site c, Carries st c site → Carries (st.spawn thread) c site := by
    rintro site c ⟨hc, e, hgetc, heq, hcurrent⟩
    exact ⟨hc, e, hkept c _ hgetc, heq, hcurrent⟩
  refine ⟨hsound, fun i hi hgeti hstage hgone => ?_, fun verb site c hc hheldc hgetc hlivec => ?_,
    fun i hi hgeti hstage => ?_, fun i hi hgeti hstage => ?_,
    fun i site label kind replace draw hgeti => ?_⟩
  · obtain hold | ⟨-, hnew⟩ := hcases i _ hgeti
    · exact ho.readable i hi hold hstage hgone
    · exact absurd (hgreeting hi hnew.symm).1 hstage
  · obtain hold | ⟨-, hnew⟩ := hcases c _ hgetc
    · refine (ho.settled verb site c hc (hheld hheldc) hold hlivec).imp (hstays site c) ?_
      rintro ⟨i, op, stage, hgeti, hrest⟩
      exact ⟨i, op, stage, hkept i _ hgeti, hrest⟩
    · exact absurd ((hgreeting hc hnew.symm).1.symm.trans hlivec) (by simp)
  · obtain hold | ⟨-, hnew⟩ := hcases i _ hgeti
    · exact ho.locked i hi hold hstage
    · simp [(hgreeting hi hnew.symm).1] at hstage
  · obtain hold | ⟨-, hnew⟩ := hcases i _ hgeti
    · refine (ho.unrivalled i hi hold hstage).imp (hstays _ i) fun hno c hheldc hcar => ?_
      exact hno c (hheld hheldc) (hcarries _ c hcar)
    · exact absurd ((hgreeting hi hnew.symm).1.symm.trans hstage) (by simp)
  · obtain hold | ⟨hlast, hnew⟩ := hcases i _ hgeti
    · obtain ⟨hstore, hthreads⟩ := ho.unused i site label kind replace draw hold
      refine ⟨hstore, fun j x hgetj huses => ?_⟩
      obtain holdj | ⟨-, rfl⟩ := hcases j x hgetj
      · exact hthreads j x holdj huses
      · -- the newcomer has no epoch, or one that this mint does not have
        cases x with
        | handshake hj => exact absurd (huses.2.symm.trans (hgreeting hj rfl).2) (by simp)
        | admin op stage =>
            have hfresh := hadmin op stage rfl
            cases op with
            | revoke site' => exact huses.elim
            | mint site' label' kind' replace' draw' =>
                obtain ⟨rfl, heq⟩ := huses
                refine absurd ?_ (hfresh.2 _ (List.mem_of_getElem? hold))
                exact ⟨rfl, heq.symm⟩
    · obtain ⟨hstore, hthreads⟩ := hadmin _ _ hnew.symm
      refine ⟨hstore, fun j x hgetj huses => ?_⟩
      obtain holdj | ⟨hlastj, -⟩ := hcases j x hgetj
      · exact absurd huses (hthreads x (List.mem_of_getElem? holdj))
      · exact hlastj.trans hlast.symm

theorem Orderly.drop (ho : Orderly st) (hstore : st'.store = st.store) (hlocks : st'.locks = st.locks)
    (hthreads : st'.threads = st.threads) (hsound : Sound st')
    (hheld : ∀ verb site c, Held st' verb site c → Held st verb site c) : Orderly st' := by
  have hcarries : ∀ site c, Carries st' c site ↔ Carries st c site := by
    intro site c
    rw [Carries, Carries, hthreads, hstore]
  have hpending : ∀ verb site, Pending st verb site → Pending st' verb site := by
    intro verb site hpending
    rwa [Pending, hthreads]
  refine ⟨hsound, ?_, fun verb site c h hheldc hget hlive => ?_, ?_, fun t h hget hstage => ?_, ?_⟩
  · rw [hthreads, hstore]
    exact ho.readable
  · rw [hthreads] at hget
    exact (ho.settled verb site c h (hheld verb site c hheldc) hget hlive).imp (hcarries site c).mpr
      (hpending verb site)
  · rw [hthreads, hlocks]
    exact ho.locked
  · rw [hthreads] at hget
    refine (ho.unrivalled t h hget hstage).imp (hcarries _ t).mpr fun hno c hheldc hcar => ?_
    exact hno c (hheld _ _ c hheldc) ((hcarries _ c).mp hcar)
  · rw [hthreads, hstore]
    exact ho.unused

/-- A handshake moves on with what it has; the store and the registries stay as they are. -/
theorem Orderly.shift (ho : Orderly st) {stage : Stage} (hsound : Sound st')
    (hget : st.threads[t]? = some (.handshake h)) (hunder : stage = .gone ∨ h.stage ≠ .greeting ∧ h.stage ≠ .gone)
    (hthreads : st'.threads = st.threads.set t (.handshake { h with stage := stage }))
    (hstore : st'.store = st.store) (hfleet : st'.fleet = st.fleet)
    (halerters : st'.alerters = st.alerters)
    (hkept : ∀ v t', t' ≠ t → st.locks v = some t' → st'.locks v = some t')
    (hcurrent : stage = .live ∨ stage = .checked → epochOf st.store h.site = some h.credId)
    (hlocked : stage = .locked ∨ stage = .checked → st'.locks h.verb = some t) : Orderly st' := by
  have hcarries : stage = .live ∨ stage = .checked → Carries st' t h.site := by
    intro hstage
    have hepoch : h.epoch.isSome = true := by
      obtain rfl | ⟨hgreeting, hgone⟩ := hunder
      · simp at hstage
      · exact (ho.sound.let_in t h hget hgreeting hgone).1
    obtain ⟨e, he⟩ := Option.isSome_iff_exists.mp hepoch
    have hcred : h.credId = e := by rw [Handshake.credId, he, Option.getD_some]
    have hgett : st'.threads[t]? = some (.handshake { h with stage := stage }) := by
      rw [hthreads, Run.getElem?_set_self' hget]
    refine ⟨_, e, hgett, he, ?_⟩
    rw [hstore, hcurrent hstage, hcred]
  refine ho.move hsound hget hthreads rfl rfl (fun site => by rw [hstore])
    (fun site hread => by rwa [hstore]) (fun verb site c hheldc => ?_) hkept (Or.inl rfl)
    (fun _ hgone => ?_) (fun hlive => hcarries (Or.inl hlive)) hlocked fun hchecked => hcarries (Or.inr hchecked)
  · exact Or.inl ((held_congr hfleet halerters).mp hheldc)
  · rw [hstore]
    obtain rfl | ⟨hgreeting, hlet⟩ := hunder
    · exact absurd rfl hgone
    · exact ho.readable t h hget hgreeting hlet

/-- A lock that is taken or let go is nobody else's. -/
theorem setLock_kept {holder : Option Tid} (hfree : ∀ t', st.locks verb = some t' → t' = t) (v : Verb)
    (t' : Tid) (hne : t' ≠ t) (hlock : st.locks v = some t') :
    (st.setLock verb holder).locks v = some t' := by
  by_cases hv : v = verb
  · subst hv
    exact absurd (hfree t' hlock) hne
  · rw [State.setLock]
    exact (Function.update_of_ne hv _ _).trans hlock

theorem orderly_step (ho : Orderly st) (hstep : Step sha (FreshFor st) st st') : Orderly st' := by
  have hsound := sound_step ho.sound hstep
  have hholder : ∀ {t h}, st.threads[t]? = some (.handshake h) → h.stage = .locked ∨ h.stage = .checked →
      ∀ t', st.locks h.verb = some t' → t' = t := by
    intro t h hget hstage t' hlock
    exact Option.some.inj (hlock.symm.trans (ho.locked t h hget hstage))
  cases hstep with
  | idle => exact ho
  | greet h hstage hepoch =>
      refine ho.spawn hsound (fun h' heq => ?_) (by simp)
      obtain rfl := Thread.handshake.inj heq
      exact ⟨hstage, hepoch⟩
  | ask op hop =>
      refine ho.spawn hsound (by simp) fun op' stage heq => ?_
      exact (Thread.admin.inj heq).1 ▸ hop
  | quit t h hget hstage =>
      exact ho.shift hsound hget (Or.inl rfl) rfl rfl rfl rfl (fun v t' _ hlock => hlock) (by simp) (by simp)
  | auth t h now works store credId hget hstage hvalid hcheck =>
      obtain ⟨hstore, hgiven, hread, hepochs⟩ := epochOf_check hcheck
      refine ho.move hsound hget rfl rfl rfl hepochs (fun site hreadable => ?_)
        (fun verb site c hheldc => Or.inl ((held_congr rfl rfl).mp hheldc)) (fun v t' _ hlock => hlock)
        (Or.inr ⟨hstage, hgiven.symm⟩) (fun _ _ => hread) (by simp) (by simp) (by simp)
      exact hstore ▸ readable_step _ hreadable
  | claim t h works hget hstage =>
      have hread := ho.readable t h hget (by simp [hstage]) (by simp [hstage])
      have hstore : ({ st with store := (claimAgentKind st.store h.site h.verb.kind works).1 }.goto t h
          .claimed).store = (Op.claim h.site h.verb.kind works).step sha st.store := rfl
      refine ho.move hsound hget rfl rfl rfl (fun site => ?_) (fun site hreadable => ?_)
        (fun verb site c hheldc => Or.inl ((held_congr rfl rfl).mp hheldc)) (fun v t' _ hlock => hlock)
        (Or.inl rfl) (fun _ _ => ?_) (by simp) (by simp) (by simp)
      · rw [hstore]
        exact epochOf_keep _ hread rfl site
      · rw [hstore]
        exact readable_step _ hreadable
      · rw [hstore]
        exact readable_step _ hread
  | lock t h hget hstage hfree =>
      refine ho.shift hsound hget (Or.inr (by simp [hstage])) rfl rfl rfl rfl (setLock_kept ?_) (by simp)
        fun _ => ?_
      · intro t' hlock
        exact absurd (hlock.symm.trans hfree) (by simp)
      · exact Function.update_self _ _ _
  | check t h hget hstage hcurrent =>
      exact ho.shift hsound hget (Or.inr (by simp [hstage])) rfl rfl rfl rfl (fun v t' _ hlock => hlock)
        (fun _ => hcurrent) fun _ => ho.locked t h hget (Or.inl hstage)
  | refuse t h hget hstage =>
      exact ho.shift hsound hget (Or.inl rfl) rfl rfl rfl rfl
        (setLock_kept (hholder hget (Or.inl hstage))) (by simp) (by simp)
  | install t h hget hstage =>
      have hthreads : (((st.install t h).setLock h.verb none).goto t h .registered).threads =
          st.threads.set t (.handshake { h with stage := .registered }) := by
        simp only [State.goto, State.setLock, State.install]
        split <;> rfl
      have hstore : (((st.install t h).setLock h.verb none).goto t h .registered).store = st.store := by
        simp only [State.goto, State.setLock, State.install]
        split <;> rfl
      have hlocks : (st.install t h).locks = st.locks := by
        rw [State.install]
        split <;> rfl
      refine ho.move hsound hget hthreads rfl rfl (fun site => by rw [hstore])
        (fun site hread => by rwa [hstore]) (fun verb site c hheldc => ?_) (fun v t' hne hlock => ?_)
        (Or.inl rfl) (fun _ _ => ?_) (by simp) (by simp) (by simp)
      · refine (held_install ((held_congr rfl rfl).mp hheldc)).imp_right ?_
        rintro ⟨hverb, hsite, hc⟩
        exact ⟨hverb, hsite, hc, hstage⟩
      · refine setLock_kept (fun t' hlock => hholder hget (Or.inr hstage) t' ?_) v t' hne ?_
        · exact hlocks ▸ hlock
        · exact hlocks ▸ hlock
      · rw [hstore]
        exact ho.readable t h hget (by simp [hstage]) (by simp [hstage])
  | settle t h hget hstage hcurrent =>
      exact ho.shift hsound hget (Or.inr (by simp [hstage])) rfl rfl rfl rfl (fun v t' _ hlock => hlock)
        (fun _ => hcurrent) (by simp)
  | expire t h hget hstage =>
      exact ho.shift hsound hget (Or.inr (by simp [hstage])) rfl rfl rfl rfl (fun v t' _ hlock => hlock)
        (by simp) (by simp)
  | withdraw t h hget hstage =>
      have hthreads : ((st.withdraw t h).hangUp t h).threads =
          st.threads.set t (.handshake { h with stage := .gone }) := by
        rw [State.hangUp, State.goto, threads_withdraw]
      have hstore : ((st.withdraw t h).hangUp t h).store = st.store := by
        simp only [State.hangUp, State.goto, State.withdraw]
        split <;> rfl
      have hlocks : ((st.withdraw t h).hangUp t h).locks = st.locks := by
        simp only [State.hangUp, State.goto, State.withdraw]
        split <;> rfl
      refine ho.move hsound hget hthreads rfl rfl (fun site => by rw [hstore])
        (fun site hread => by rwa [hstore]) (fun verb site c hheldc => ?_) (fun v t' _ hlock => ?_)
        (Or.inl rfl) (fun _ hgone => absurd rfl hgone) (by simp) (by simp) (by simp)
      · exact Or.inl (held_withdraw ((held_congr rfl rfl).mp hheldc)).1
      · rw [hlocks, hlock]
  | giveUp t op hget =>
      exact ho.advance_registry hsound hget rfl rfl rfl (fun verb site c hheldc => (held_congr rfl rfl).mp hheldc)
        (fun _ _ _ hdue => absurd hdue (by simp [AdminStage.due])) (by simp)
  | revoke t site works store hget hrevoke =>
      obtain ⟨hnone, hother⟩ := epochOf_revoke hrevoke
      have hstore : store = (Op.revoke site works).step sha st.store := by
        simp only [Op.step, Op.run, hrevoke, Prod.map_fst, id_eq]
      refine ho.write hsound hget rfl rfl rfl rfl hother (fun site' hread => ?_) (fun i h _ _ => ?_)
        (Or.inl rfl) (by simp) fun i label kind replace draw _ _ => ?_
      · exact hstore ▸ readable_step _ hread
      · cases hepoch : h.epoch with
        | none => exact Or.inl rfl
        | some e =>
            refine Or.inr fun heq => ?_
            exact absurd (heq.trans hnone) (by simp)
      · intro heq
        exact absurd (hnone.symm.trans heq) (by simp)
  | mint t site label kind replace draw works store token hget hmint =>
      obtain ⟨hnew, hfree, hother⟩ := epochOf_mint hmint
      obtain ⟨-, hthreads⟩ := ho.unused t site label kind replace draw hget
      have hstore : store = (Op.mint site label kind replace draw works).step sha st.store := by
        simp only [Op.step, Op.run, hmint, Prod.map_fst, id_eq]
      refine ho.write hsound hget rfl rfl rfl rfl hother (fun site' hread => ?_) (fun i h hgeti hsite => ?_)
        ?_ (by split <;> simp) fun i label' kind' replace' draw' hne hgeti => ?_
      · exact hstore ▸ readable_step _ hread
      · refine Or.inr fun hepoch => ?_
        obtain rfl := hthreads i _ hgeti ⟨hsite, hepoch.trans hnew⟩
        exact absurd (hget.symm.trans hgeti) (by simp)
      · cases replace with
        | false => exact Or.inr (hfree rfl)
        | true => exact Or.inl rfl
      · intro heq
        refine hne (hthreads i _ hgeti ⟨rfl, ?_⟩)
        exact Option.some.inj (heq.symm.trans hnew)
  | sweep t op hget hfree =>
      have hcut : ∀ {verb site c}, Held ((st.sweep op.site).advance t op .swept) verb site c →
          Held st verb site c ∧ ¬(verb = .hello ∧ site = op.site) := by
        intro verb site c hheldc
        have hheldc' : Held (st.sweep op.site) verb site c := (held_congr rfl rfl).mp hheldc
        exact held_sweep hheldc'
      refine ho.advance_registry hsound hget rfl rfl rfl (fun verb site c hheldc => (hcut hheldc).1)
        (fun verb c hheldc _ => ?_) (by simp)
      cases verb with
      | hello => exact absurd ⟨rfl, rfl⟩ (hcut hheldc).2
      | alerter => rfl
  | lookup t op hget =>
      refine ho.advance_registry hsound hget rfl rfl rfl
        (fun verb site c hheldc => (held_congr rfl rfl).mp hheldc) (fun verb c hheldc hdue => ?_)
        (by split <;> simp)
      cases verb with
      | hello => exact absurd hdue (by simp [AdminStage.due])
      | alerter =>
          obtain ⟨a, ha, -⟩ := hheldc
          have hfound : st.alerters op.site = some a := ha
          rw [hfound]
          rfl
  | disconnect t op hget =>
      have hcut : ∀ {verb site c}, Held ((st.disconnect op.site).advance t op .finished) verb site c →
          Held st verb site c ∧ ¬(verb = .alerter ∧ site = op.site) := by
        intro verb site c hheldc
        have hheldc' : Held (st.disconnect op.site) verb site c := (held_congr rfl rfl).mp hheldc
        exact held_disconnect hheldc'
      refine ho.advance_registry hsound hget rfl rfl rfl (fun verb site c hheldc => (hcut hheldc).1)
        (fun verb c hheldc hdue => ?_) (by simp)
      cases verb with
      | hello => exact absurd hdue (by simp [AdminStage.due])
      | alerter => exact absurd ⟨rfl, rfl⟩ (hcut hheldc).2
  | drop i =>
      refine ho.drop rfl rfl rfl hsound fun verb site c hheldc => ?_
      cases verb with
      | hello =>
          obtain ⟨d, hd, hsite, hconn⟩ := hheldc
          obtain ⟨d', hmem, hsame, hkept | hnone⟩ := mem_drop hd
          · exact ⟨d', hmem, hsame.trans hsite, hkept.symm.trans hconn⟩
          · exact absurd (hconn.symm.trans hnone) (by simp)
      | alerter => exact hheldc

theorem orderly_start (store : Store) : Orderly (State.start store) := by
  have hnobody : ∀ (t : Tid) (thread : Thread), (State.start store).threads[t]? ≠ some thread := by
    intro t thread
    simp [State.start]
  refine ⟨sound_start store, ?_, ?_, ?_, ?_, ?_⟩
  · intro t h hget
    exact absurd hget (hnobody t _)
  · intro verb site c h _ hget
    exact absurd hget (hnobody c _)
  · intro t h hget
    exact absurd hget (hnobody t _)
  · intro t h hget
    exact absurd hget (hnobody t _)
  · intro t site label kind replace draw hget
    exact absurd hget (hnobody t _)

/-! ### What a stale handshake leaves alone -/

theorem held_install_of (hheld : Held st verb site c) (hother : ¬(verb = h.verb ∧ site = h.site)) :
    Held (st.install t h) verb site c := by
  cases hverb : h.verb with
  | hello =>
      simp only [State.install, hverb]
      cases verb with
      | hello =>
          obtain ⟨d, hd, hsite, hconn⟩ := hheld
          refine ⟨d, mem_adopt_of_ne hd fun hsame => ?_, hsite, hconn⟩
          exact hother ⟨hverb.symm, hsite.symm.trans hsame⟩
      | alerter => exact hheld
  | alerter =>
      simp only [State.install, hverb]
      cases verb with
      | hello => exact hheld
      | alerter =>
          obtain ⟨a, ha, hrest⟩ := hheld
          refine ⟨a, ?_, hrest⟩
          exact (Function.update_of_ne (fun hsite => hother ⟨hverb.symm, hsite⟩) _ _).trans ha

/-- What is closed to make room was registered for the same site. -/
theorem closed_install (hclosed : c ∈ (st.install t h).closed) :
    c ∈ st.closed ∨ Held st h.verb h.site c := by
  cases hverb : h.verb with
  | hello =>
      simp only [State.install, hverb, List.mem_append, Option.mem_toList] at hclosed
      refine hclosed.symm.imp_right fun hadopted => ?_
      obtain ⟨d, hfound, hconn⟩ := Option.bind_eq_some_iff.mp hadopted
      have hsite : d.site = h.site := by simpa using List.find?_some hfound
      exact ⟨d, List.mem_of_find?_eq_some hfound, hsite, hconn⟩
  | alerter =>
      simp only [State.install, hverb, List.mem_append, Option.mem_toList] at hclosed
      refine hclosed.symm.imp_right fun hsuperseded => ?_
      cases ha : st.alerters h.site with
      | none =>
          rw [ha] at hsuperseded
          exact absurd hsuperseded (by simp [superseded])
      | some a =>
          rw [ha, superseded] at hsuperseded
          split at hsuperseded
          next hconnected => exact ⟨a, ha, hsuperseded, hconnected⟩
          next => exact absurd hsuperseded (by simp)

theorem held_withdraw_of (hheld : Held st verb site c) (hne : c ≠ t) :
    Held (st.withdraw t h) verb site c := by
  cases hverb : h.verb with
  | hello =>
      simp only [State.withdraw, hverb]
      cases verb with
      | hello =>
          obtain ⟨d, hd, hsite, hconn⟩ := hheld
          refine ⟨d, List.mem_map.mpr ⟨d, hd, if_neg ?_⟩, hsite, hconn⟩
          rintro ⟨-, hmine⟩
          exact hne (Option.some.inj (hconn.symm.trans hmine))
      | alerter => exact hheld
  | alerter =>
      simp only [State.withdraw, hverb]
      cases verb with
      | hello => exact hheld
      | alerter =>
          obtain ⟨a, ha, hconn, hconnected⟩ := hheld
          by_cases hsite : site = h.site
          · subst hsite
            have hstays : leave t a = a := by
              rw [leave, if_neg]
              intro hmine
              exact hne (Option.some.inj (hconn.symm.trans hmine))
            refine ⟨a, ?_, hconn, hconnected⟩
            dsimp only
            rw [Function.update_self, ha, Option.map_some, hstays]
          · exact ⟨a, (Function.update_of_ne hsite _ _).trans ha, hconn, hconnected⟩

theorem closed_withdraw (st : State) (t : Tid) (h : Handshake) : (st.withdraw t h).closed = st.closed := by
  rw [State.withdraw]
  split <;> rfl

/-- The connection is registered as before, and nobody has closed it. -/
def Undisturbed (st st' : State) (verb : Verb) (site : GoString) (c : Tid) : Prop :=
  Held st' verb site c ∧ (c ∈ st'.closed → c ∈ st.closed)

theorem Undisturbed.of_same (hheld : Held st verb site c) (hne : c ≠ t) (hfleet : st'.fleet = st.fleet)
    (halerters : st'.alerters = st.alerters)
    (hclosed : st'.closed = st.closed ∨ st'.closed = t :: st.closed) : Undisturbed st st' verb site c := by
  refine ⟨(held_congr hfleet halerters).mpr hheld, fun hmem => ?_⟩
  obtain heq | heq := hclosed
  · rwa [heq] at hmem
  · rw [heq] at hmem
    exact List.mem_of_ne_of_mem hne hmem

theorem Undisturbed.of_withdraw (hheld : Held st verb site c) (hne : c ≠ t) :
    Undisturbed st ((st.withdraw t h).hangUp t h) verb site c := by
  refine ⟨(held_congr rfl rfl).mpr (held_withdraw_of hheld hne), fun hmem => ?_⟩
  have hclosed : ((st.withdraw t h).hangUp t h).closed = t :: st.closed := by
    rw [State.hangUp, closed_withdraw]
  rw [hclosed] at hmem
  exact List.mem_of_ne_of_mem hne hmem

theorem Orderly.undisturbed_install (ho : Orderly st) (hget : st.threads[t]? = some (.handshake h))
    (hstage : h.stage = .checked) (hstale : ¬Carries st t h.site) (hheld : Held st verb site c)
    (hcarries : Carries st c site) :
    Undisturbed st (((st.install t h).setLock h.verb none).goto t h .registered) verb site c := by
  have hnone := (ho.unrivalled t h hget hstage).resolve_left hstale
  have hother : ¬(verb = h.verb ∧ site = h.site) := by
    rintro ⟨rfl, rfl⟩
    exact hnone c hheld hcarries
  refine ⟨(held_congr rfl rfl).mpr (held_install_of hheld hother), fun hmem => ?_⟩
  obtain hbefore | hmine := closed_install hmem
  · exact hbefore
  · -- one handshake has one verb and one site
    obtain ⟨hc, -, hgetc, -⟩ := hcarries
    obtain ⟨hverb, hsite, -⟩ := ho.held_thread hheld hgetc
    obtain ⟨hverb', hsite', -⟩ := ho.held_thread hmine hgetc
    exact absurd ⟨hverb.symm.trans hverb', hsite.symm.trans hsite'⟩ hother

/-- The handshake whose step the event is. -/
def Event.actor : Event → Option Tid
  | .run t _ _ | .lost t => some t
  | _ => none

theorem Orderly.undisturbed (ho : Orderly st) (hget : st.threads[t]? = some (.handshake h))
    (hstale : ¬Carries st t h.site) {e : Event} (he : e.actor = some t) (hheld : Held st verb site c)
    (hcarries : Carries st c site) : Undisturbed st (st.step sha e) verb site c := by
  have hne : c ≠ t := by
    rintro rfl
    obtain ⟨-, hsite, -⟩ := ho.held_thread hheld hget
    exact hstale (hsite.symm ▸ hcarries)
  cases e with
  | run t' now works =>
      obtain rfl := Option.some.inj he
      simp only [State.step, hget]
      cases hstage : h.stage with
      | greeting =>
          simp only [handshakeStep, hstage]
          split
          · split
            · exact .of_same hheld hne rfl rfl (Or.inl rfl)
            · exact .of_same hheld hne rfl rfl (Or.inr rfl)
          · exact .of_same hheld hne rfl rfl (Or.inr rfl)
      | authed =>
          simp only [handshakeStep, hstage]
          split
          · exact .of_same hheld hne rfl rfl (Or.inl rfl)
          · exact .of_same hheld hne rfl rfl (Or.inr rfl)
      | claimed =>
          simp only [handshakeStep, hstage]
          split
          · exact .of_same hheld hne rfl rfl (Or.inl rfl)
          · exact .of_same hheld hne rfl rfl (Or.inl rfl)
      | locked =>
          simp only [handshakeStep, hstage]
          split
          · exact .of_same hheld hne rfl rfl (Or.inl rfl)
          · exact .of_same hheld hne rfl rfl (Or.inr rfl)
      | checked =>
          simp only [handshakeStep, hstage]
          exact ho.undisturbed_install hget hstage hstale hheld hcarries
      | registered =>
          simp only [handshakeStep, hstage]
          split
          · exact .of_same hheld hne rfl rfl (Or.inl rfl)
          · exact .of_same hheld hne rfl rfl (Or.inl rfl)
      | stale =>
          simp only [handshakeStep, hstage]
          split
          · exact .of_withdraw hheld hne
          · exact .of_same hheld hne rfl rfl (Or.inl rfl)
      | live | gone =>
          simp only [handshakeStep, hstage]
          exact .of_same hheld hne rfl rfl (Or.inl rfl)
  | lost t' =>
      obtain rfl := Option.some.inj he
      simp only [State.step, hget, lostStep]
      split
      · exact .of_same hheld hne rfl rfl (Or.inr rfl)
      · exact .of_withdraw hheld hne
      · exact .of_same hheld hne rfl rfl (Or.inl rfl)
  | greet | ask | poll | drop => exact absurd he (by simp [Event.actor])

/-- Nothing out of date is left, and nothing out of date does harm. -/
structure NoStale (sha : List UInt8 → Digest) (st : State) : Prop where
  current : ∀ site, Quiet st site → ∀ verb c, Held st verb site c → Carries st c site
  undisturbed : ∀ (t : Tid) (h : Handshake), st.threads[t]? = some (.handshake h) →
    ¬Carries st t h.site → ∀ e : Event, e.actor = some t → ∀ verb site c, Held st verb site c →
    Carries st c site → Undisturbed st (st.step sha e) verb site c

theorem Orderly.current (ho : Orderly st) (hquiet : Quiet st site) (hheld : Held st verb site c) :
    Carries st c site := by
  obtain ⟨h, hget, -, hsite, hregistered⟩ := ho.sound.held verb site c hheld
  have hfinished : h.stage = .live ∨ h.stage = .gone := by
    simpa [Thread.finished] using hquiet _ (List.mem_of_getElem? hget) hsite
  have hlive : h.stage = .live := by
    refine hfinished.resolve_right fun hgone => ?_
    simp [Handshake.Registered, hgone] at hregistered
  refine (ho.settled verb site c h hheld hget hlive).resolve_right ?_
  rintro ⟨i, op, stage, hgeti, hsitei, hdue⟩
  have hover : stage = .finished := by
    simpa [Thread.finished] using hquiet _ (List.mem_of_getElem? hgeti) hsitei
  rw [hover] at hdue
  exact absurd hdue (by simp [AdminStage.due])

theorem Orderly.noStale (ho : Orderly st) : NoStale sha st := by
  constructor
  · intro site hquiet verb c hheld
    exact ho.current hquiet hheld
  · intro t h hget hstale e he verb site c hheld hcarries
    exact ho.undisturbed hget hstale he hheld hcarries

/-- Whatever handshakes, revokes and mints do at once: when those of a site have finished, what is
registered for it has the epoch of the store; and no step of a handshake that is out of date touches a
connection that is not. -/
theorem noStale_run (sha : List UInt8 → Digest) (store : Store) (events : List Event)
    (hguard : Run.Guarded (State.step sha) (fun st e => Honest st e ∧ FreshDraw st e)
      (State.start store) events) :
    Run.Always (State.step sha) (NoStale sha) (State.start store) events := by
  intro pre hpre
  have hstep : ∀ st e, Orderly st → Honest st e ∧ FreshDraw st e → Orderly (st.step sha e) := by
    rintro st e ho ⟨hhonest, hfresh⟩
    have hnext : Step sha (FreshFor st) st (st.step sha e) := by
      refine step_of_honest hhonest fun op heq => ?_
      rw [heq] at hfresh
      exact hfresh
    exact orderly_step ho hnext
  exact (Run.always_of_guarded hstep (orderly_start store) hguard pre hpre).noStale

instance (thread : Thread) (site e : GoString) : Decidable (thread.uses site e) :=
  match thread with
  | .handshake h => inferInstanceAs (Decidable (h.site = site ∧ h.epoch = some e))
  | .admin (.mint site' _ _ _ draw) _ =>
      inferInstanceAs (Decidable (site' = site ∧ hexString draw.epoch = e))
  | .admin (.revoke _) _ => isFalse id

instance (st : State) (op : AdminOp) : Decidable (FreshFor st op) :=
  match op with
  | .mint site _ _ _ draw =>
      inferInstanceAs (Decidable (epochOf st.store site ≠ some (hexString draw.epoch) ∧
        ∀ thread ∈ st.threads, ¬thread.uses site (hexString draw.epoch)))
  | .revoke _ => isTrue trivial

instance (st : State) (e : Event) : Decidable (FreshDraw st e) :=
  match e with
  | .ask op => inferInstanceAs (Decidable (FreshFor st op))
  | .greet .. | .run .. | .poll .. | .drop _ | .lost _ => isTrue trivial

/-- A token is replaced, in four steps of the thread `t`. -/
def replaceFor (t : Tid) (site : GoString) (raw : UInt8) : List Event :=
  .ask (.mint site [] kindSysmond true ⟨[raw], [raw], 1⟩) :: List.replicate 4 (.run t 1 true)

/-- A box is connected, and a second handshake of it has been let in when its token is replaced. Then
it dials in with the new one. -/
def rotated : List Event :=
  replaceFor 0 [97] 1 ++ dialIn 1 [97] 1 ++ [.greet .hello [97] (hexString [1]) [], .run 2 1 true] ++
    replaceFor 3 [97] 2 ++ List.replicate 3 (.run 2 1 true) ++ dialIn 4 [97] 2

theorem noStale_rotated :
    Run.Guarded (State.step padded) (fun st e => Honest st e ∧ FreshDraw st e) (State.start emptyStore)
        rotated ∧
      (Run.exec (State.step padded) (State.start emptyStore) rotated).fleet = [⟨[97], some 4⟩] ∧
      Run.Always (State.step padded) (NoStale padded) (State.start emptyStore) rotated := by
  have hguard : Run.Guarded (State.step padded) (fun st e => Honest st e ∧ FreshDraw st e)
      (State.start emptyStore) rotated := by decide
  exact ⟨hguard, by decide, noStale_run padded emptyStore rotated hguard⟩

end Sysmon.Agents
