import Sysmon.Fleet.Rollout

/-!
# What a rollout poisons

A rollout notes the generation of every site when it starts. At the turn of the site DeliverSite sends what is
desired by then, and whatever goes wrong, the number that was noted is poisoned. Here others may act between
any two steps of the rollout, and a ledger keeps what it has poisoned beside what it handed over and what failed.
-/

namespace Sysmon.Fleet

open CText GoText Lines

/-! ### A turn among others -/

/-- What others do besides: after the site has been noted at the start, after DeliverSite has read the store,
after the answer, and after a rollback. -/
structure BusyTurn extends Turn where
  noted : List Event
  reading : List Event
  answered : List Event
  undone : List Event

/-- The turn with nobody else between the steps that `Turn` does not part. -/
def Turn.quiet (turn : Turn) : BusyTurn := { turn with noted := [], reading := [], answered := [], undone := [] }

/-- A rollout with the numbers it has poisoned, and those it handed over of which the delivery failed. -/
structure Ledger extends Wave where
  marks : List (CStr × UInt64)
  failed : List (CStr × UInt64)

/-- StartRollout notes one site after the other. -/
def startRollout (sha : List UInt8 → Digest) :
    State → List (CStr × BusyTurn) → List (RolloutSite × BusyTurn) × State
  | f, [] => ([], f)
  | f, (site, turn) :: plan =>
      let (rest, f') := startRollout sha (Run.exec (State.step sha) f turn.noted) plan
      ((startSite f.store site, turn) :: rest, f')

/-- A criterion is not met. -/
def tripped (tolerance : Float) (expected objects before after : Int) : Bool :=
  (decide (expected > 0) && decide (objects > 0) && dropped expected objects tolerance) ||
    decide (after - before > alertSpikeAllowance)

section ledger

variable (sha : List UInt8 → Digest) (text : Detail → CStr) (tolerance : Float)

/-- The exchange of a DeliverSite that has read the store. -/
def State.handOver (f : State) (site : CStr) (x : Exchange) (gen : UInt64) (files : List GenFile) :
    Except (DeliveryError × List CStr) Int × State :=
  if !x.arrives then (.error (.verdict .noVerdict, []), f)
  else
    (match putVerdict ((f.box site).answer sha x gen files) with
      | (.accepted _ _ objects, _, _) => .ok objects
      | (result, complaints, _) => .error (.verdict result, complaints),
    { f with box := Function.update f.box site ((f.box site).put gen files x.env) })

/-- The fleet when DeliverSite reads the store. -/
def BusyTurn.atTurn (turn : BusyTurn) (f : State) : State := Run.exec (State.step sha) f turn.others

/-- The fleet when the delivery comes to the box. -/
def BusyTurn.sending (turn : BusyTurn) (f : State) : State :=
  Run.exec (State.step sha) (turn.atTurn sha f) turn.reading

def BusyTurn.deliver (turn : BusyTurn) (f : State) (site : CStr) :
    Except (DeliveryError × List CStr) Int × State :=
  match deliverSite (turn.atTurn sha f).store site with
  | .error e => (.error (.service e, []), turn.atTurn sha f)
  | .ok (gen, files) => (turn.sending sha f).handOver sha site turn.exchange gen files

/-- The poisoning, if the record of the site can be written. -/
def Ledger.poison (l : Ledger) (rs : RolloutSite) (why : CStr) : RolloutSite × Ledger :=
  let (rs', w) := l.toWave.poison sha rs why
  (rs', { l with
    toWave := w
    marks := l.marks ++ match poisonGeneration l.fleet.store rs.site rs.generation why with
      | .ok _ => [(rs.site, rs.generation)]
      | .error _ => [] })

def Ledger.rollbackAndPoison (l : Ledger) (rs : RolloutSite) (detail : Detail) (turn : BusyTurn) :
    RolloutSite × Ledger :=
  let l' := { l with
    fleet := Run.exec (State.step sha) (l.fleet.rollback sha rs.site turn.rollback turn.complaint) turn.undone }
  if (l.fleet.rollbackReply sha rs.site turn.rollback turn.complaint).isSome then
    l'.poison sha { rs with state := .rolledBack, detail := some detail } (text detail)
  else
    l'.poison sha { rs with state := .failed, detail := some (.notUndone detail) } (text (.notUndone detail))

/-- The body of the loop of `runRollout`. -/
def Ledger.runSite (l : Ledger) (rs : RolloutSite) (turn : BusyTurn) : RolloutSite × Ledger :=
  if rs.state = .skipped then (rs, l)
  else if l.halted ≠ [] then
    ({ rs with state := .skipped, detail := some (.previousWave l.halted) }, l)
  else
    let rs : RolloutSite := { rs with
      started := true
      expected := objectCount turn.counted rs.site
      alertsBefore := alertCount turn.before rs.site }
    let (result, fleet) := turn.deliver sha l.fleet rs.site
    let l := { l with fleet := Run.exec (State.step sha) fleet turn.answered }
    match result with
    | .error (e, complaints) =>
        let detail := .refused e complaints.getLast?
        l.poison sha { rs with state := .failed, detail := some detail }
          ("the daemon refused it: ".toList ++ text detail)
    | .ok objects =>
        let rs : RolloutSite := { rs with objects := objects }
        if rs.expected > 0 ∧ objects > 0 ∧ dropped rs.expected objects tolerance = true then
          l.rollbackAndPoison sha text rs (.fell rs.expected objects) turn
        else
          let l := { l with fleet := Run.exec (State.step sha) l.fleet turn.meanwhile }
          let rs : RolloutSite := { rs with alertsAfter := alertCount turn.after rs.site }
          if rs.alertsAfter - rs.alertsBefore > alertSpikeAllowance then
            l.rollbackAndPoison sha text rs (.alertsRose rs.alertsBefore rs.alertsAfter) turn
          else ({ rs with state := .ok }, l)

/-! ### What was handed over, and what failed -/

/-- What comes to the daemon of the site. -/
def BusyTurn.handed (turn : BusyTurn) (f : State) (site : CStr) : Option (UInt64 × List GenFile) :=
  match deliverSite (turn.atTurn sha f).store site with
  | .ok given => if turn.exchange.arrives then some given else none
  | .error _ => none

def Box.accepts (b : Box) (x : Exchange) (gen : UInt64) (files : List GenFile) : Bool :=
  match (b.receive sha x gen files).outcome with
  | some (.accepted _ _ _) => true
  | _ => false

/-- The verdict comes back, but perhaps for the end of its line. -/
def Box.told (b : Box) (x : Exchange) (gen : UInt64) (files : List GenFile) : Bool :=
  decide ((sent (b.receive sha x gen files).lines).length ≤ x.heard + 1)

/-- The criteria of the site, with this number of objects. -/
def BusyTurn.tripped (turn : BusyTurn) (site : CStr) (objects : Int) : Bool :=
  Fleet.tripped tolerance (objectCount turn.counted site) objects (alertCount turn.before site)
    (alertCount turn.after site)

/-- The delivery fails: the verdict comes back and is a refusal, or the configuration that was accepted does not
meet a criterion. -/
def BusyTurn.fails (turn : BusyTurn) (f : State) (site : CStr) (gen : UInt64) (files : List GenFile) : Bool :=
  let b := (turn.sending sha f).box site
  b.told sha turn.exchange gen files &&
    (!b.accepts sha turn.exchange gen files || turn.tripped tolerance site turn.exchange.objects.toNat)

/-- What the server hears is a failure to it. -/
def BusyTurn.seemsToFail (turn : BusyTurn) (f : State) (site : CStr) (gen : UInt64) (files : List GenFile) :
    Bool :=
  match (putVerdict (((turn.sending sha f).box site).answer sha turn.exchange gen files)).1 with
  | .accepted _ _ objects => turn.tripped tolerance site objects
  | _ => true

/-- The number that the turn hands over, if its delivery fails. -/
def BusyTurn.failure (turn : BusyTurn) (f : State) (site : CStr) : List (CStr × UInt64) :=
  match turn.handed sha f site with
  | some (gen, files) => if turn.fails sha tolerance f site gen files then [(site, gen)] else []
  | none => []

/-- The site gets no turn. -/
def PassedBy (l : Ledger) (e : RolloutSite × BusyTurn) : Prop := e.1.state = .skipped ∨ l.halted ≠ []

instance (l : Ledger) (e : RolloutSite × BusyTurn) : Decidable (PassedBy l e) :=
  inferInstanceAs (Decidable (e.1.state = .skipped ∨ l.halted ≠ []))

/-- One round of the loop. -/
def Ledger.step (l : Ledger) (e : RolloutSite × BusyTurn) : Ledger :=
  let (rs, l') := l.runSite sha text tolerance e.1 e.2
  { l' with
    sites := l.sites ++ [rs]
    failed := l.failed ++
      if PassedBy l e then [] else e.2.failure sha tolerance l.fleet e.1.site }

/-- The rollout has poisoned what it handed over and what failed, and nothing else. -/
structure Exact (l : Ledger) : Prop where
  only : ∀ p ∈ l.marks, p ∈ l.failed
  always : ∀ p ∈ l.failed, p ∈ l.marks

/-- At every point of the rollout. -/
def PoisonExact (f : State) (plan : List (CStr × BusyTurn)) : Prop :=
  Run.Always (Ledger.step sha text tolerance) Exact ⟨⟨(startRollout sha f plan).2, [], []⟩, [], []⟩
    (startRollout sha f plan).1

/-- What the turn of a site needs, if it gets one: something comes to the daemon, what is heard of it is a
failure exactly if it is one, and if it is one, the number that was handed over is the one that was noted. -/
def Sound (l : Ledger) (e : RolloutSite × BusyTurn) : Prop :=
  e.1.state ≠ .skipped → l.halted = [] → ∃ gen files, e.2.handed sha l.fleet e.1.site = some (gen, files) ∧
    e.2.seemsToFail sha tolerance l.fleet e.1.site gen files = e.2.fails sha tolerance l.fleet e.1.site gen files ∧
    (e.2.fails sha tolerance l.fleet e.1.site gen files = true → gen = e.1.generation)

end ledger

variable {sha : List UInt8 → Digest} {text : Detail → CStr} {tolerance : Float} {site : CStr}

/-! ### The record of a site -/

/-- The site has a record. There is none under the empty key. -/
def Store.Keeps (s : Store) (site : CStr) : Prop := site ≠ [] ∧ ∃ d, s.desired site = .held d

theorem poisonGeneration_ok {s : Store} (h : s.Keeps site) (gen : UInt64) (why : CStr) :
    ∃ s', poisonGeneration s site gen why = .ok s' := by
  obtain ⟨hne, d, hd⟩ := h
  simp only [poisonGeneration, Store.read, hd, bind, Except.bind, Store.write, if_neg hne]
  exact ⟨_, rfl⟩

theorem keeps_step (s : Store) (op : StoreOp) (h : s.Keeps site) : (s.step op).Keeps site := by
  obtain ⟨hne, d, hd⟩ := h
  obtain hsame | ⟨d', -, hstep⟩ := step_cases s op
  · rw [hsame]
    exact ⟨hne, d, hd⟩
  · rw [hstep]
    by_cases hsite : site = op.site
    · subst hsite
      exact ⟨hne, op.desired d', Function.update_self ..⟩
    · exact ⟨hne, d, (Function.update_of_ne hsite ..).trans hd⟩

/-- An event leaves the store as it was, or is one operation on it. -/
theorem store_step (f : State) (e : Event) :
    (f.step sha e).store = f.store ∨ ∃ op, (f.step sha e).store = f.store.step op := by
  cases e with
  | adopt site fetched =>
      cases hadopt : adoptSite sha f.store site fetched with
      | error e => exact Or.inl (by simp [State.step, hadopt, Except.toOption])
      | ok result =>
          obtain ⟨files, hash, -, -, hput⟩ := adoptSite_ok hadopt
          refine Or.inr ⟨.put site files hash, ?_⟩
          simp [State.step, Store.step, hadopt, hput, Except.toOption]
  | stage site files =>
      cases hstage : stageGeneration sha f.store site files with
      | error e => exact Or.inl (by simp [State.step, hstage, Except.toOption])
      | ok result =>
          refine Or.inr ⟨.put site files (hashFiles sha files), ?_⟩
          simp [State.step, Store.step, hstage, stageGeneration_ok hstage, Except.toOption]
  | deliver site env =>
      rw [State.step]
      split
      · exact Or.inl rfl
      · exact Or.inl rfl
  | rollback site env err =>
      rw [State.step, State.rollback]
      split
      · exact Or.inl rfl
      next gen hash _ => exact Or.inr ⟨.set site gen hash, rfl⟩
  | revert site env configfile err =>
      rw [State.step, State.revert]
      split
      · exact Or.inl rfl
      · exact Or.inr ⟨.unadopt site, rfl⟩
  | poison site gen why => exact Or.inr ⟨.poison site gen why, rfl⟩
  | elsewhere site box => exact Or.inl rfl

section stored

variable {Q : Store → Prop} (hQ : ∀ s op, Q s → Q (s.step op))

include hQ

/-- What every operation on the store keeps, every event keeps. -/
theorem stored_event {f : State} (h : Q f.store) (e : Event) : Q (f.step sha e).store := by
  obtain hsame | ⟨op, hop⟩ := store_step f e
  · rwa [hsame]
  · rw [hop]
    exact hQ _ op h

theorem stored_exec {f : State} (h : Q f.store) (events : List Event) :
    Q (Run.exec (State.step sha) f events).store := by
  induction events generalizing f with
  | nil => exact h
  | cons e events ih => exact ih (stored_event hQ h e)

theorem stored_deliver {f : State} (h : Q f.store) (turn : BusyTurn) (site : CStr) :
    Q (turn.deliver sha f site).2.store := by
  have hbefore : Q (turn.atTurn sha f).store := stored_exec hQ h turn.others
  rw [BusyTurn.deliver]
  split
  · exact hbefore
  next gen files _ =>
    have hsending : Q (turn.sending sha f).store := stored_exec hQ hbefore turn.reading
    rw [State.handOver]
    split
    · exact hsending
    · exact hsending

theorem stored_poison {l : Ledger} (h : Q l.fleet.store) (rs : RolloutSite) (why : CStr) :
    Q (l.poison sha rs why).2.fleet.store := by
  show Q (l.fleet.step sha (.poison rs.site rs.generation why)).store
  exact stored_event hQ h _

theorem stored_undone {f : State} (h : Q f.store) (turn : BusyTurn) (site : CStr) :
    Q (Run.exec (State.step sha) (f.rollback sha site turn.rollback turn.complaint) turn.undone).store :=
  stored_exec hQ (stored_event hQ h (.rollback site turn.rollback turn.complaint)) turn.undone

theorem stored_rollbackAndPoison {l : Ledger} (h : Q l.fleet.store) (rs : RolloutSite) (detail : Detail)
    (turn : BusyTurn) : Q (l.rollbackAndPoison sha text rs detail turn).2.fleet.store := by
  rw [Ledger.rollbackAndPoison]
  split
  · exact stored_poison hQ (stored_undone hQ h turn rs.site) _ _
  · exact stored_poison hQ (stored_undone hQ h turn rs.site) _ _

theorem stored_runSite {l : Ledger} (h : Q l.fleet.store) (rs : RolloutSite) (turn : BusyTurn) :
    Q (l.runSite sha text tolerance rs turn).2.fleet.store := by
  rw [Ledger.runSite]
  split
  · exact h
  · split
    · exact h
    · have hdelivered : Q (turn.deliver sha l.fleet rs.site).2.store := stored_deliver hQ h turn rs.site
      dsimp only
      cases hdeliver : turn.deliver sha l.fleet rs.site with
      | mk result fleet =>
          rw [hdeliver] at hdelivered
          have hanswered : Q (Run.exec (State.step sha) fleet turn.answered).store :=
            stored_exec hQ hdelivered turn.answered
          cases result with
          | error refused => exact stored_poison hQ hanswered _ _
          | ok objects =>
              dsimp only
              split
              · exact stored_rollbackAndPoison hQ hanswered _ _ _
              · split
                · exact stored_rollbackAndPoison hQ (stored_exec hQ hanswered turn.meanwhile) _ _ _
                · exact stored_exec hQ hanswered turn.meanwhile

end stored

/-- A site that has been noted as one to deliver to has a record, if nothing is kept under the empty key. -/
theorem keeps_startSite {s : Store} (hempty : ∀ d, s.desired [] ≠ .held d)
    (h : (startSite s site).state ≠ .skipped) : s.Keeps site := by
  rw [startSite] at h
  cases hdesired : s.desired site with
  | absent =>
      rw [getDesired, hdesired] at h
      exact absurd rfl h
  | unreadable =>
      rw [getDesired, hdesired] at h
      exact absurd rfl h
  | held d =>
      refine ⟨fun hnil => ?_, d, hdesired⟩
      subst hnil
      exact hempty d hdesired

/-- Nothing is ever written under the empty key. -/
theorem unkept_step (s : Store) (op : StoreOp) (h : ∀ d, s.desired [] ≠ .held d) :
    ∀ d, (s.step op).desired [] ≠ .held d := by
  intro d
  by_cases hsite : op.site = []
  · have hwrite : ∀ d', s.write [] d' = .error .keyRequired := fun d' => if_pos rfl
    have hsame : s.step op = s := by
      cases op with
      | put site files hash =>
          obtain rfl : site = [] := hsite
          cases hread : s.read [] <;>
            simp [Store.step, putGeneration, hread, hwrite, bind, Except.bind, Except.toOption]
      | set site gen hash =>
          obtain rfl : site = [] := hsite
          cases hread : s.read [] <;>
            simp [Store.step, setDesiredGeneration, hread, hwrite, bind, Except.bind, Except.toOption]
      | unadopt site =>
          obtain rfl : site = [] := hsite
          cases hread : s.read [] <;>
            simp [Store.step, unadopt, hread, hwrite, bind, Except.bind, Except.toOption]
      | poison site gen why =>
          obtain rfl : site = [] := hsite
          cases hread : s.read [] <;>
            simp [Store.step, poisonGeneration, hread, hwrite, bind, Except.bind, Except.toOption]
    rw [hsame]
    exact h d
  · obtain hsame | ⟨d', -, hstep⟩ := step_cases s op
    · rw [hsame]
      exact h d
    · rw [hstep]
      exact fun hd => h d ((Function.update_of_ne (Ne.symm hsite) ..).symm.trans hd)

/-- Every site that StartRollout notes as one to deliver to has a record from then on. -/
theorem keeps_startRollout {plan : List (CStr × BusyTurn)} :
    ∀ {f : State}, (∀ d, f.store.desired [] ≠ .held d) →
      (∀ site, f.store.Keeps site → (startRollout sha f plan).2.store.Keeps site) ∧
      ∀ e ∈ (startRollout sha f plan).1, e.1.state ≠ .skipped →
        (startRollout sha f plan).2.store.Keeps e.1.site := by
  induction plan with
  | nil => exact fun _ => ⟨fun _ h => h, fun e he => absurd he List.not_mem_nil⟩
  | cons p plan ih =>
      obtain ⟨site, turn⟩ := p
      intro f hempty
      obtain ⟨hkeeps, hnoted⟩ := ih (stored_exec unkept_step hempty turn.noted)
      have hstays : ∀ site, f.store.Keeps site → (startRollout sha f ((site, turn) :: plan)).2.store.Keeps site :=
        fun site h => hkeeps site (stored_exec keeps_step h turn.noted)
      refine ⟨hstays, fun e he hpending => ?_⟩
      obtain rfl | he := List.mem_cons.mp he
      · have hsite := keeps_startSite hempty hpending
        rw [startSite_eq]
        exact hstays _ hsite
      · exact hnoted e he hpending

/-! ### One turn -/

/-- What is heard of the turn is a failure, or there is nothing to be heard. -/
def BusyTurn.heardToFail (sha : List UInt8 → Digest) (tolerance : Float) (turn : BusyTurn) (f : State)
    (site : CStr) : Bool :=
  match turn.handed sha f site with
  | some (gen, files) => turn.seemsToFail sha tolerance f site gen files
  | none => true

theorem marks_poison {l : Ledger} {rs : RolloutSite} (h : l.fleet.store.Keeps rs.site) (why : CStr) :
    (l.poison sha rs why).2.marks = l.marks ++ [(rs.site, rs.generation)] := by
  obtain ⟨s', hs'⟩ := poisonGeneration_ok h rs.generation why
  rw [Ledger.poison, hs']

theorem halted_poison (l : Ledger) (rs : RolloutSite) (why : CStr) : (l.poison sha rs why).2.halted ≠ [] :=
  poison_halted l.toWave rs why

theorem rollbackAndPoison_marks {l : Ledger} {rs : RolloutSite} (h : l.fleet.store.Keeps rs.site)
    (detail : Detail) (turn : BusyTurn) :
    (l.rollbackAndPoison sha text rs detail turn).2.marks = l.marks ++ [(rs.site, rs.generation)] ∧
      (l.rollbackAndPoison sha text rs detail turn).2.halted ≠ [] := by
  rw [Ledger.rollbackAndPoison]
  split
  · exact ⟨marks_poison (stored_undone keeps_step h turn rs.site) _, halted_poison _ _ _⟩
  · exact ⟨marks_poison (stored_undone keeps_step h turn rs.site) _, halted_poison _ _ _⟩

/-- A delivery ends in an error or with a number of objects, and whether the turn is heard to fail depends on
that. -/
theorem heardToFail_eq (turn : BusyTurn) (f : State) (site : CStr) :
    turn.heardToFail sha tolerance f site = match (turn.deliver sha f site).1 with
      | .error _ => true
      | .ok objects => turn.tripped tolerance site objects := by
  rw [BusyTurn.heardToFail, BusyTurn.handed, BusyTurn.deliver]
  cases deliverSite (turn.atTurn sha f).store site with
  | error e => rfl
  | ok given =>
      obtain ⟨gen, files⟩ := given
      dsimp only
      rw [State.handOver]
      cases turn.exchange.arrives with
      | false => rfl
      | true =>
          simp only [if_true, Bool.not_true, Bool.false_eq_true, if_false, BusyTurn.seemsToFail]
          obtain ⟨result, complaints, rest⟩ :=
            putVerdict (((turn.sending sha f).box site).answer sha turn.exchange gen files)
          cases result <;> rfl

/-- A turn that is heard to fail poisons the number that was noted and halts the rollout; another one does
neither. -/
theorem runSite_marks {l : Ledger} {rs : RolloutSite} {turn : BusyTurn} (hkeeps : l.fleet.store.Keeps rs.site)
    (hpending : rs.state ≠ .skipped) (hhalted : l.halted = []) :
    (l.runSite sha text tolerance rs turn).2.marks = l.marks ++
        (if turn.heardToFail sha tolerance l.fleet rs.site then [(rs.site, rs.generation)] else []) ∧
      ((l.runSite sha text tolerance rs turn).2.halted = [] →
        turn.heardToFail sha tolerance l.fleet rs.site = false) := by
  have hdelivered : (turn.deliver sha l.fleet rs.site).2.store.Keeps rs.site :=
    stored_deliver keeps_step hkeeps turn rs.site
  have hheard : turn.heardToFail sha tolerance l.fleet rs.site = _ := heardToFail_eq turn l.fleet rs.site
  rw [Ledger.runSite, if_neg hpending, if_neg (not_not.mpr hhalted)]
  dsimp only
  cases hdeliver : turn.deliver sha l.fleet rs.site with
  | mk result fleet =>
      rw [hdeliver] at hdelivered hheard
      have hanswered : (Run.exec (State.step sha) fleet turn.answered).store.Keeps rs.site :=
        stored_exec keeps_step hdelivered turn.answered
      cases result with
      | error refused =>
          rw [hheard]
          exact ⟨marks_poison hanswered _, fun h => absurd h (halted_poison _ _ _)⟩
      | ok objects =>
          dsimp only at hheard ⊢
          by_cases hdrop : objectCount turn.counted rs.site > 0 ∧ objects > 0 ∧
              dropped (objectCount turn.counted rs.site) objects tolerance = true
          · have htripped : turn.tripped tolerance rs.site objects = true := by
              simp [BusyTurn.tripped, tripped, hdrop]
            rw [if_pos hdrop, hheard, htripped, if_pos rfl]
            refine And.imp_right (fun hhalts h => absurd h hhalts) (rollbackAndPoison_marks ?_ _ _)
            exact hanswered
          · have hwatched : (Run.exec (State.step sha) (Run.exec (State.step sha) fleet turn.answered)
                turn.meanwhile).store.Keeps rs.site := stored_exec keeps_step hanswered turn.meanwhile
            rw [if_neg hdrop]
            by_cases hrise : alertCount turn.after rs.site - alertCount turn.before rs.site >
                alertSpikeAllowance
            · have htripped : turn.tripped tolerance rs.site objects = true := by
                simp [BusyTurn.tripped, tripped, hrise]
              rw [if_pos hrise, hheard, htripped, if_pos rfl]
              refine And.imp_right (fun hhalts h => absurd h hhalts) (rollbackAndPoison_marks ?_ _ _)
              exact hwatched
            · have htripped : turn.tripped tolerance rs.site objects = false := by
                have hnone : ¬(decide (objectCount turn.counted rs.site > 0) && decide (objects > 0) &&
                    dropped (objectCount turn.counted rs.site) objects tolerance) = true := by
                  simpa [and_assoc] using hdrop
                rw [BusyTurn.tripped, tripped, eq_false_of_ne_true hnone, decide_eq_false hrise]
                rfl
              rw [if_neg hrise, hheard, htripped]
              exact ⟨(List.append_nil _).symm, fun _ => rfl⟩

theorem runSite_skipped {l : Ledger} {rs : RolloutSite} (turn : BusyTurn)
    (h : rs.state = .skipped ∨ l.halted ≠ []) : (l.runSite sha text tolerance rs turn).2 = l := by
  rw [Ledger.runSite]
  obtain hskipped | hhalted := h
  · rw [if_pos hskipped]
  · by_cases hskipped : rs.state = .skipped
    · rw [if_pos hskipped]
    · rw [if_neg hskipped, if_pos hhalted]

/-! ### The marks are in the store -/

theorem poisoned_poison (l : Ledger) (rs : RolloutSite) (why : CStr) {p : CStr × UInt64}
    (hp : p ∈ (l.poison sha rs why).2.marks) :
    p ∈ l.marks ∨ (l.poison sha rs why).2.fleet.store.Poisoned p.1 p.2 := by
  have hmarks : (l.poison sha rs why).2.marks = l.marks ++
      match poisonGeneration l.fleet.store rs.site rs.generation why with
        | .ok _ => [(rs.site, rs.generation)]
        | .error _ => [] := rfl
  have hstore : (l.poison sha rs why).2.fleet.store =
      ((poisonGeneration l.fleet.store rs.site rs.generation why).toOption).getD l.fleet.store := rfl
  rw [hmarks, List.mem_append] at hp
  refine hp.imp_right fun hp => ?_
  cases hpoison : poisonGeneration l.fleet.store rs.site rs.generation why with
  | error e =>
      rw [hpoison] at hp
      exact absurd hp List.not_mem_nil
  | ok s' =>
      rw [hpoison] at hp hstore
      obtain ⟨d, -, hs'⟩ := update_ok hpoison
      rw [hstore, List.mem_singleton.mp hp, Except.toOption, Option.getD_some, hs']
      exact ⟨_, by rw [read_update, if_pos rfl], List.mem_cons_self⟩

theorem poisoned_rollbackAndPoison (l : Ledger) (rs : RolloutSite) (detail : Detail) (turn : BusyTurn)
    {p : CStr × UInt64} (hp : p ∈ (l.rollbackAndPoison sha text rs detail turn).2.marks) :
    p ∈ l.marks ∨ (l.rollbackAndPoison sha text rs detail turn).2.fleet.store.Poisoned p.1 p.2 := by
  rw [Ledger.rollbackAndPoison] at hp ⊢
  split at hp
  next htold =>
    rw [if_pos htold]
    have htaken := poisoned_poison _ _ _ hp
    exact htaken
  next htold =>
    rw [if_neg htold]
    have htaken := poisoned_poison _ _ _ hp
    exact htaken

theorem poisoned_runSite (l : Ledger) (rs : RolloutSite) (turn : BusyTurn) {p : CStr × UInt64}
    (hp : p ∈ (l.runSite sha text tolerance rs turn).2.marks) :
    p ∈ l.marks ∨ (l.runSite sha text tolerance rs turn).2.fleet.store.Poisoned p.1 p.2 := by
  by_cases hskip : rs.state = .skipped ∨ l.halted ≠ []
  · rw [runSite_skipped turn hskip] at hp
    exact Or.inl hp
  · obtain ⟨hpending, hgoing⟩ := not_or.mp hskip
    rw [Ledger.runSite, if_neg hpending, if_neg hgoing] at hp ⊢
    dsimp only at hp ⊢
    cases hdeliver : turn.deliver sha l.fleet rs.site with
    | mk result fleet =>
        rw [hdeliver] at hp
        cases result with
        | error refused =>
            have hrefused := poisoned_poison _ _ _ hp
            exact hrefused
        | ok objects =>
            dsimp only at hp ⊢
            by_cases hdrop : objectCount turn.counted rs.site > 0 ∧ objects > 0 ∧
                dropped (objectCount turn.counted rs.site) objects tolerance = true
            · rw [if_pos hdrop] at hp ⊢
              have hundone := poisoned_rollbackAndPoison _ _ _ _ hp
              exact hundone
            · rw [if_neg hdrop] at hp ⊢
              by_cases hrise : alertCount turn.after rs.site - alertCount turn.before rs.site >
                  alertSpikeAllowance
              · rw [if_pos hrise] at hp ⊢
                have hundone := poisoned_rollbackAndPoison _ _ _ _ hp
                exact hundone
              · rw [if_neg hrise] at hp ⊢
                exact Or.inl hp

/-- What a rollout has poisoned is marked in the store from then on. -/
theorem marks_poisoned {f : State} (plan : List (CStr × BusyTurn)) :
    Run.Always (Ledger.step sha text tolerance) (fun l => ∀ p ∈ l.marks, l.fleet.store.Poisoned p.1 p.2)
      ⟨⟨(startRollout sha f plan).2, [], []⟩, [], []⟩ (startRollout sha f plan).1 := by
  have hstep : ∀ (l : Ledger) (e : RolloutSite × BusyTurn), (∀ p ∈ l.marks, l.fleet.store.Poisoned p.1 p.2) →
      True → ∀ p ∈ (l.step sha text tolerance e).marks,
        (l.step sha text tolerance e).fleet.store.Poisoned p.1 p.2 := by
    intro l e h _ p hp
    obtain hold | hnew := poisoned_runSite l e.1 e.2 hp
    · exact stored_runSite (Q := fun s => s.Poisoned p.1 p.2) (fun s op hs => poisoned_step hs op) (h p hold)
        e.1 e.2
    · exact hnew
  exact Run.always_of_guarded hstep (fun _ h => absurd h List.not_mem_nil) fun _ _ _ => trivial

/-! ### What is heard -/

theorem readUntilCode_newline (body lines : List CStr) :
    (readUntilCode body (lines ++ [[]])).1 = (readUntilCode body lines).1 := by
  induction lines generalizing body with
  | nil => rfl
  | cons line lines ih =>
      rw [List.cons_append, readUntilCode, readUntilCode]
      split
      · rfl
      · exact ih _

/-- The end of the last line does not change the verdict. -/
theorem putVerdict_newline (text : CStr) : (putVerdict (text ++ ['\n'])).1 = (putVerdict text).1 := by
  have hsplit : (text ++ ['\n']).splitOn '\n' = text.splitOn '\n' ++ [[]] :=
    List.splitOn_append_cons_self text []
  have hread := readUntilCode_newline [] (text.splitOn '\n')
  rw [putVerdict, putVerdict, hsplit]
  generalize readUntilCode [] (text.splitOn '\n' ++ [[]]) = longer at hread ⊢
  generalize readUntilCode [] (text.splitOn '\n') = shorter at hread ⊢
  obtain ⟨code, complaints, rest⟩ := shorter
  obtain ⟨code', complaints', rest'⟩ := longer
  obtain rfl : code' = code := hread
  cases code' <;> rfl

/-- The last character that is sent is the end of a line. -/
theorem sent_eq_newline {lines : List CStr} (h : lines ≠ []) : ∃ text, sent lines = text ++ ['\n'] := by
  obtain ⟨earlier, line, rfl⟩ := List.eq_nil_or_concat lines |>.resolve_left h
  refine ⟨sent earlier ++ (line ++ ['\r']), ?_⟩
  simp [sent]

theorem lines_ne_nil (b : Box) (x : Exchange) (gen : UInt64) (files : List GenFile) :
    (b.receive sha x gen files).lines ≠ [] := by
  rw [Box.receive, daemonSide, confgenReceive]
  split
  · simp
  next gen files _ _ =>
    dsimp only
    cases b.outcome sha x gen files <;> simp [outcomeLines]

/-- A verdict that comes back is read as if its line had come whole. -/
theorem verdict_of_told {b : Box} {x : Exchange} {gen : UInt64} {files : List GenFile}
    (h : b.told sha x gen files = true) :
    (putVerdict (b.answer sha x gen files)).1 = (serverSide (b.receive sha x gen files) []).1 := by
  obtain ⟨text, htext⟩ := sent_eq_newline (@lines_ne_nil sha b x gen files)
  have hlength := of_decide_eq_true h
  rw [Box.answer, serverSide, List.append_nil]
  by_cases hwhole : (sent (b.receive sha x gen files).lines).length ≤ x.heard
  · rw [List.take_of_length_le hwhole]
  · rw [htext] at hlength hwhole ⊢
    rw [List.length_append, List.length_singleton] at hlength hwhole
    have hheard : x.heard = text.length := by omega
    rw [hheard, List.take_left, putVerdict_newline]

/-- What the server reads as an acceptance, when all of it comes, is one of the daemon, and the other way. -/
theorem accepts_of_outcome {b : Box} {x : Exchange} {gen : UInt64} {files : List GenFile}
    (hclear : 1 ≤ files.length → files.length ≤ confsetMax → (b.outcome sha x gen (files.map received)).Clear)
    (h : b.accepts sha x gen files = true) :
    ∃ generation hash, (serverSide (b.receive sha x gen files) []).1 =
      .accepted generation hash x.objects.toNat := by
  rw [Box.accepts] at h
  split at h
  next generation hash objects houtcome =>
    obtain ⟨-, rfl⟩ := accepted_of_receive houtcome
    by_cases hfits : (payload files).length ≤ confgenMaxPayload
    · have hagree := (agree_iff (b.outcome sha x) gen files [] []).mpr ⟨hfits, hclear⟩
      exact ⟨_, _, hagree.values generation hash x.objects houtcome⟩
    · obtain ⟨payloadLen, hreceive⟩ := receiveFiles_outside gen (payload files ++ [])
        (Or.inr (Nat.lt_of_not_le hfits))
      rw [Box.receive, daemonSide, confgenReceive, hreceive] at houtcome
      exact absurd houtcome (by simp)
  next => exact absurd h Bool.false_ne_true

/-- A verdict that comes back and can be told is heard as what it is. -/
theorem seemsToFail_eq_fails {turn : BusyTurn} {f : State} {gen : UInt64} {files : List GenFile}
    (htold : ((turn.sending sha f).box site).told sha turn.exchange gen files = true)
    (hclear : 1 ≤ files.length → files.length ≤ confsetMax →
      (((turn.sending sha f).box site).outcome sha turn.exchange gen (files.map received)).Clear) :
    turn.seemsToFail sha tolerance f site gen files = turn.fails sha tolerance f site gen files := by
  rw [BusyTurn.seemsToFail, BusyTurn.fails, verdict_of_told htold, htold, Bool.true_and]
  cases haccepts : ((turn.sending sha f).box site).accepts sha turn.exchange gen files with
  | true =>
      obtain ⟨generation, hash, hserver⟩ := accepts_of_outcome hclear haccepts
      rw [hserver]
      rfl
  | false =>
      rw [Bool.not_false, Bool.true_or]
      split
      next generation hash objects hserver =>
        obtain ⟨generation', hash', objects', houtcome, -⟩ := outcome_of_accepted hclear hserver
        rw [Box.accepts, Box.receive, houtcome] at haccepts
        exact absurd haccepts (by simp)
      next => rfl

/-! ### Every turn -/

/-- A rollout that is not halted has poisoned nothing. -/
def Clean (l : Ledger) : Prop := l.halted = [] → l.marks = []

theorem step_passedBy {l : Ledger} {e : RolloutSite × BusyTurn} (h : PassedBy l e) :
    (l.step sha text tolerance e).marks = l.marks ∧ (l.step sha text tolerance e).failed = l.failed ∧
      (l.step sha text tolerance e).halted = l.halted := by
  have hsame : (l.runSite sha text tolerance e.1 e.2).2 = l := runSite_skipped e.2 h
  simp only [Ledger.step, hsame, if_pos h, List.append_nil, and_self]

/-- What a turn adds. -/
theorem step_reached {l : Ledger} {e : RolloutSite × BusyTurn} (hreached : ¬PassedBy l e)
    (hkeeps : l.fleet.store.Keeps e.1.site) :
    (l.step sha text tolerance e).marks = l.marks ++
        (if e.2.heardToFail sha tolerance l.fleet e.1.site then [(e.1.site, e.1.generation)] else []) ∧
      (l.step sha text tolerance e).failed = l.failed ++ e.2.failure sha tolerance l.fleet e.1.site ∧
      ((l.step sha text tolerance e).halted = [] →
        e.2.heardToFail sha tolerance l.fleet e.1.site = false) := by
  obtain ⟨hpending, hgoing⟩ := not_or.mp hreached
  obtain ⟨hmarks, hhalted⟩ := runSite_marks hkeeps hpending (not_not.mp hgoing)
  refine ⟨hmarks, ?_, hhalted⟩
  rw [Ledger.step, if_neg hreached]

theorem clean_step {l : Ledger} {e : RolloutSite × BusyTurn} (hclean : Clean l)
    (hkeeps : e.1.state ≠ .skipped → l.fleet.store.Keeps e.1.site) :
    Clean (l.step sha text tolerance e) := by
  intro hhalted
  by_cases hpassed : PassedBy l e
  · obtain ⟨hmarks, -, hsame⟩ := step_passedBy hpassed
    rw [hmarks]
    exact hclean (hsame.symm.trans hhalted)
  · obtain ⟨hpending, hgoing⟩ := not_or.mp hpassed
    obtain ⟨hmarks, -, hheard⟩ := step_reached hpassed (hkeeps hpending)
    rw [hmarks, hheard hhalted, hclean (not_not.mp hgoing)]
    rfl

/-- At most one number on either side: the one that was noted, and the one that was handed over. -/
theorem exact_iff_of_eq {l : Ledger} {noted gen : UInt64} {seems fails : Bool}
    (hmarks : l.marks = if seems then [(site, noted)] else [])
    (hfailed : l.failed = if fails then [(site, gen)] else []) :
    Exact l ↔ seems = fails ∧ (fails = true → gen = noted) := by
  cases seems with
  | false =>
      cases fails with
      | false => exact iff_of_true ⟨by simp [hmarks], by simp [hfailed]⟩ ⟨rfl, fun h => nomatch h⟩
      | true =>
          refine iff_of_false (fun h => ?_) (by simp)
          have hmark := h.always (site, gen) (by simp [hfailed])
          rw [hmarks] at hmark
          exact absurd hmark List.not_mem_nil
  | true =>
      cases fails with
      | false =>
          refine iff_of_false (fun h => ?_) (by simp)
          have hfail := h.only (site, noted) (by simp [hmarks])
          rw [hfailed] at hfail
          exact absurd hfail List.not_mem_nil
      | true =>
          constructor
          · intro h
            have hmark := h.always (site, gen) (by simp [hfailed])
            rw [hmarks, if_pos rfl, List.mem_singleton] at hmark
            exact ⟨rfl, fun _ => (Prod.mk.inj hmark).2⟩
          · rintro ⟨-, hsame⟩
            rw [hsame rfl] at hfailed
            exact ⟨by rw [hmarks, hfailed]; exact fun p hp => hp, by rw [hmarks, hfailed]; exact fun p hp => hp⟩

/-- From a ledger that is exact a round leaves an exact one if and only if the turn is sound. -/
theorem exact_step {l : Ledger} {e : RolloutSite × BusyTurn} (hclean : Clean l) (hexact : Exact l)
    (hkeeps : e.1.state ≠ .skipped → l.fleet.store.Keeps e.1.site) :
    Exact (l.step sha text tolerance e) ↔ Sound sha tolerance l e := by
  by_cases hpassed : PassedBy l e
  · obtain ⟨hmarks, hfailed, -⟩ := step_passedBy hpassed
    refine iff_of_true ⟨?_, ?_⟩ fun hpending hgoing => absurd hgoing (hpassed.resolve_left hpending)
    · rw [hmarks, hfailed]
      exact hexact.only
    · rw [hmarks, hfailed]
      exact hexact.always
  · obtain ⟨hpending, hgoing⟩ := not_or.mp hpassed
    have hgoing := not_not.mp hgoing
    obtain ⟨hmarks, hfailed, -⟩ := step_reached hpassed (hkeeps hpending)
    have hnone : l.failed = [] := List.eq_nil_iff_forall_not_mem.mpr fun p hp => by
      have hmark := hexact.always p hp
      rw [hclean hgoing] at hmark
      exact absurd hmark List.not_mem_nil
    rw [hclean hgoing, List.nil_append, BusyTurn.heardToFail] at hmarks
    rw [hnone, List.nil_append, BusyTurn.failure] at hfailed
    cases hhanded : e.2.handed sha l.fleet e.1.site with
    | none =>
        -- nothing was handed over, and the number that was noted is poisoned
        rw [hhanded] at hmarks hfailed
        refine iff_of_false (fun h => ?_) fun h => ?_
        · have hfail := h.only (e.1.site, e.1.generation) (by rw [hmarks]; exact List.mem_cons_self)
          rw [hfailed] at hfail
          exact absurd hfail List.not_mem_nil
        · obtain ⟨gen, files, hsome, -⟩ := h hpending hgoing
          rw [hhanded] at hsome
          exact absurd hsome (by simp)
    | some given =>
        obtain ⟨gen, files⟩ := given
        rw [hhanded] at hmarks hfailed
        rw [exact_iff_of_eq hmarks hfailed]
        constructor
        · exact fun h _ _ => ⟨gen, files, hhanded, h⟩
        · intro h
          obtain ⟨gen', files', hsome, hsound⟩ := h hpending hgoing
          rw [hhanded] at hsome
          obtain ⟨rfl, rfl⟩ := Prod.mk.inj (Option.some.inj hsome)
          exact hsound

/-- From a ledger that is exact a rollout stays exact if and only if all its turns are sound. -/
theorem exact_always_iff {plan : List (RolloutSite × BusyTurn)} :
    ∀ {l : Ledger}, (∀ e ∈ plan, e.1.state ≠ .skipped → l.fleet.store.Keeps e.1.site) → Clean l → Exact l →
      (Run.Always (Ledger.step sha text tolerance) Exact l plan ↔
        Run.Guarded (Ledger.step sha text tolerance) (Sound sha tolerance) l plan) := by
  induction plan with
  | nil => exact fun _ _ hexact => ⟨fun _ => Run.guarded_nil, fun _ => Run.always_nil.mpr hexact⟩
  | cons e plan ih =>
      intro l hkeeps hclean hexact
      have hfirst := hkeeps e List.mem_cons_self
      have hrest : ∀ e' ∈ plan, e'.1.state ≠ .skipped →
          (l.step sha text tolerance e).fleet.store.Keeps e'.1.site := fun e' he' hpending =>
        stored_runSite keeps_step (hkeeps e' (List.mem_cons_of_mem e he') hpending) e.1 e.2
      have hstep : Exact (l.step sha text tolerance e) ↔ Sound sha tolerance l e :=
        exact_step hclean hexact hfirst
      rw [Run.always_cons, Run.guarded_cons]
      constructor
      · rintro ⟨-, hrun⟩
        have hnext := hrun [] List.nil_prefix
        exact ⟨hstep.mp hnext, (ih hrest (clean_step hclean hfirst) hnext).mp hrun⟩
      · rintro ⟨hsound, hrun⟩
        have hnext := hstep.mpr hsound
        exact ⟨hexact, (ih hrest (clean_step hclean hfirst) hnext).mpr hrun⟩

/-- A rollout among all others poisons what it handed over and what failed, and nothing else, if and only if all
its turns are sound. Nothing is kept under the empty key. -/
theorem poisonExact_iff {f : State} (hempty : ∀ d, f.store.desired [] ≠ .held d)
    (plan : List (CStr × BusyTurn)) :
    PoisonExact sha text tolerance f plan ↔
      Run.Guarded (Ledger.step sha text tolerance) (Sound sha tolerance)
        ⟨⟨(startRollout sha f plan).2, [], []⟩, [], []⟩ (startRollout sha f plan).1 :=
  exact_always_iff (keeps_startRollout hempty).2 (fun _ => rfl)
    ⟨fun _ h => absurd h List.not_mem_nil, fun _ h => absurd h List.not_mem_nil⟩

/-! ### One box -/

/-- The box finds fault with the delivery, if it comes, and others stage something before it. -/
def faultyTurn (arrives : Bool) (others : List Event) : BusyTurn :=
  { (takenTurn []).quiet with
    others := others
    exchange := ⟨arrives, { ConfGen.healthyApply with verdict := false }, "bad".toList, 0, 100⟩ }

/-- The box refuses the generation that was noted. -/
theorem poisonExact_refused :
    PoisonExact sampleSha (fun _ => []) 0.1 adoptedFleet [(['a'], faultyTurn true [])] := by
  have hempty : adoptedFleet.store.desired [] = .absent := by decide +kernel
  refine (poisonExact_iff (by rw [hempty]; exact fun _ => nofun) _).mpr
    (Run.guarded_cons.mpr ⟨fun _ _ => ⟨1, oneFile 97, ?_, ?_, fun _ => ?_⟩, Run.guarded_nil⟩)
  · decide +kernel
  · decide +kernel
  · decide +kernel

/-- A delivery that does not come to the box poisons the generation that was noted, and so does one that is
refused after another generation has been staged. -/
theorem noted_poisoned :
    ¬PoisonExact sampleSha (fun _ => []) 0.1 adoptedFleet [(['a'], faultyTurn false [])] ∧
      ¬PoisonExact sampleSha (fun _ => []) 0.1 adoptedFleet
        [(['a'], faultyTurn true [.stage ['a'] (oneFile 98)])] := by
  constructor
  · intro h
    have hmark := (h _ (List.prefix_refl _)).only (['a'], 1)
    exact absurd (hmark (by decide +kernel)) (by decide +kernel)
  · intro h
    have hmark := (h _ (List.prefix_refl _)).only (['a'], 1)
    exact absurd (hmark (by decide +kernel)) (by decide +kernel)

end Sysmon.Fleet
