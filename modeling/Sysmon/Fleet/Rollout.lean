import Sysmon.Fleet.Poison
import Sysmon.HostOrder

/-!
# Canary rollouts

`rollout.go` delivers to one box at a time and watches each before it goes on. What it watches is the
status cache: the snapshot of the last poll, in which a site that did not answer keeps its hosts, marked
stale. What the boxes, the other operations of the server and the polls do at the turn of a site is part
of its `Turn`. Floating point numbers are Lean's own, and how a detail is worded is a parameter.
-/

namespace Sysmon.Fleet

open CText GoText Lines

/-! ### The status cache -/

/-- A host as its daemon reports it. -/
structure HostReport where
  site : CStr
  objectName : CStr
  hostname : CStr
  overallStatus : CStr
  deriving DecidableEq, Repr

/-- A host as it is shown. -/
structure HostStatus extends HostReport where
  stale : Bool
  deriving DecidableEq, Repr

def splitQualified (name : CStr) : CStr × CStr := HostOrder.splitQualified ':' name

def hostSiteOf (h : HostReport) : CStr := if h.site ≠ [] then h.site else (splitQualified h.objectName).1

def urgency (h : HostReport) : Nat := HostOrder.urgency "CRITICAL".toList "WARNING".toList h.overallStatus

def sortHostsByUrgency (hosts : List HostStatus) : List HostStatus :=
  HostOrder.sortHostsByUrgency (fun h => urgency h.toHostReport) (fun h => h.hostname) hosts

/-- A daemon in one poll: its site, what it said last, and what it answers now, if it does. -/
structure PolledDaemon where
  site : CStr
  lastHosts : List HostReport
  answer : Option (List HostReport)

def PolledDaemon.staleHosts (d : PolledDaemon) : List HostStatus := d.lastHosts.map (⟨·, true⟩)

/-- The hosts of the snapshot that one poll makes. -/
def fetchFleet (fleet : List PolledDaemon) : List HostStatus :=
  sortHostsByUrgency
    (fleet.flatMap (fun d => (d.answer.getD []).map (⟨·, false⟩)) ++
      fleet.flatMap fun d => if d.answer.isSome then [] else d.staleHosts)

def objectCount (status : Option (List HostStatus)) (site : CStr) : Int :=
  ((status.getD []).countP fun h => hostSiteOf h.toHostReport = site : Nat)

def alertCount (status : Option (List HostStatus)) (site : CStr) : Int :=
  ((status.getD []).countP fun h =>
    hostSiteOf h.toHostReport = site ∧ h.overallStatus ≠ "OK".toList ∧ h.stale = false : Nat)

/-! ### One delivery, as the server sees it -/

/-- One CONFIG-PUT: whether it reaches the box, what happens there, and how much of the answer comes
back. -/
structure Exchange where
  arrives : Bool
  env : ConfGen.ApplyEnv
  err : CStr
  objects : UInt64
  heard : Nat

/-- What `confgen_apply` comes to at a box. -/
def Box.outcome (sha : List UInt8 → Digest) (b : Box) (x : Exchange) (gen : UInt64) (files : List GenFile) :
    Outcome :=
  let o := ConfGen.apply b.seedName b.daemon gen (files.map toFile) x.env
  if o.error = none then
    .accepted o.running (some (sha (confgenHashFiles files))) x.objects
  else .rejected x.err

def Box.receive (sha : List UInt8 → Digest) (b : Box) (x : Exchange) (gen : UInt64) (files : List GenFile) :
    Received := daemonSide (b.outcome sha x) gen files []

/-- The part of the answer that comes back. -/
def Box.answer (sha : List UInt8 → Digest) (b : Box) (x : Exchange) (gen : UInt64) (files : List GenFile) :
    CStr := (sent (b.receive sha x gen files).lines).take x.heard

inductive DeliveryError where
  | service (error : ServiceError)
  | verdict (result : PutResult)
  deriving DecidableEq, Repr

/-- `DeliverSite`: the number of objects, or an error with the complaints; and the fleet after it. -/
def State.deliver (sha : List UInt8 → Digest) (f : State) (site : CStr) (x : Exchange) :
    Except (DeliveryError × List CStr) Int × State :=
  match deliverSite f.store site with
  | .error e => (.error (.service e, []), f)
  | .ok (gen, files) =>
      if !x.arrives then (.error (.verdict .noVerdict, []), f)
      else
        (match putVerdict ((f.box site).answer sha x gen files) with
          | (.accepted _ _ objects, _, _) => .ok objects
          | (result, complaints, _) => .error (.verdict result, complaints),
        f.step sha (.deliver site x.env))

/-! ### The rollout -/

inductive RolloutSiteState where
  | pending
  | delivered
  | watching
  | ok
  | failed
  | rolledBack
  | skipped
  deriving DecidableEq, Repr

inductive Detail where
  | notAdopted
  | previousWave (halted : CStr)
  | refused (error : DeliveryError) (complaint : Option CStr)
  | fell (expected objects : Int)
  | alertsRose (before after : Int)
  | notUndone (detail : Detail)
  deriving DecidableEq, Repr

structure RolloutSite where
  site : CStr
  generation : UInt64 := 0
  state : RolloutSiteState
  detail : Option Detail := none
  /-- `Started` has been set. -/
  started : Bool := false
  objects : Int := 0
  expected : Int := 0
  alertsBefore : Int := 0
  alertsAfter : Int := 0
  deriving DecidableEq, Repr

/-- What StartRollout notes for a site. -/
def startSite (s : Store) (site : CStr) : RolloutSite :=
  match getDesired s site with
  | some desired =>
      if desired.adopted then { site := site, generation := desired.generation, state := .pending }
      else { site := site, state := .skipped, detail := some .notAdopted }
  | none => { site := site, state := .skipped, detail := some .notAdopted }

/-- What happens at the turn of a site: the other operations since the last turn, the snapshots its
counts are taken from, its delivery, the other operations during the watch, the snapshot of a poll that
was under way at the delivery, the polls during the watch, and the rollback, if there is one. -/
structure Turn where
  others : List Event
  counted : Option (List HostStatus)
  before : Option (List HostStatus)
  exchange : Exchange
  meanwhile : List Event
  stored : Option (List HostStatus)
  polls : List (List PolledDaemon)
  rollback : ConfGen.RollbackEnv
  complaint : CStr

/-- The snapshot at the end of the watch. -/
def Turn.after (turn : Turn) : Option (List HostStatus) :=
  match turn.polls.getLast? with
  | some fleet => some (fetchFleet fleet)
  | none => turn.stored

/-- A rollout that has come some way: the fleet, and the sites that had their turn. -/
structure Wave where
  fleet : State
  halted : CStr
  sites : List RolloutSite

def alertSpikeAllowance : Int := 5

/-- `drop > r.Tolerance`. -/
def dropped (expected objects : Int) (tolerance : Float) : Bool :=
  decide (Float.ofInt (expected - objects) / Float.ofInt expected > tolerance)

section rollout

variable (sha : List UInt8 → Digest) (text : Detail → CStr) (tolerance : Float)

def Wave.poison (w : Wave) (rs : RolloutSite) (why : CStr) : RolloutSite × Wave :=
  (rs, { w with
    fleet := w.fleet.step sha (.poison rs.site rs.generation why)
    halted := rs.site ++ ": ".toList ++ why })

/-- What the server understands of the answer to a CONFIG-ROLLBACK. -/
def State.rollbackReply (f : State) (site : CStr) (env : ConfGen.RollbackEnv) (err : CStr) :
    Option (UInt64 × CStr) :=
  let o := ConfGen.rollback (f.box site).daemon env
  rollbackConfig (sent (rollbackLines sha (o.done (f.box site).daemon) o.error.isNone err))

def Wave.rollbackAndPoison (w : Wave) (rs : RolloutSite) (detail : Detail) (turn : Turn) :
    RolloutSite × Wave :=
  let w' := { w with fleet := w.fleet.rollback sha rs.site turn.rollback turn.complaint }
  if (w.fleet.rollbackReply sha rs.site turn.rollback turn.complaint).isSome then
    w'.poison sha { rs with state := .rolledBack, detail := some detail } (text detail)
  else
    w'.poison sha { rs with state := .failed, detail := some (.notUndone detail) }
      (text (.notUndone detail))

/-- The body of the loop of `runRollout`. -/
def Wave.runSite (w : Wave) (rs : RolloutSite) (turn : Turn) : RolloutSite × Wave :=
  if rs.state = .skipped then (rs, w)
  else if w.halted ≠ [] then
    ({ rs with state := .skipped, detail := some (.previousWave w.halted) }, w)
  else
    let fleet := Run.exec (State.step sha) w.fleet turn.others
    let rs : RolloutSite := { rs with
      started := true
      expected := objectCount turn.counted rs.site
      alertsBefore := alertCount turn.before rs.site }
    match fleet.deliver sha rs.site turn.exchange with
    | (.error (e, complaints), fleet) =>
        let detail := .refused e complaints.getLast?
        { w with fleet := fleet }.poison sha { rs with state := .failed, detail := some detail }
          ("the daemon refused it: ".toList ++ text detail)
    | (.ok objects, fleet) =>
        let rs : RolloutSite := { rs with objects := objects }
        if rs.expected > 0 ∧ objects > 0 ∧ dropped rs.expected objects tolerance = true then
          { w with fleet := fleet }.rollbackAndPoison sha text rs (.fell rs.expected objects) turn
        else
          let w := { w with fleet := Run.exec (State.step sha) fleet turn.meanwhile }
          let rs : RolloutSite := { rs with alertsAfter := alertCount turn.after rs.site }
          if rs.alertsAfter - rs.alertsBefore > alertSpikeAllowance then
            w.rollbackAndPoison sha text rs (.alertsRose rs.alertsBefore rs.alertsAfter) turn
          else ({ rs with state := .ok }, w)

/-- One round of the loop, at a site that was noted from the store `s`. -/
def Wave.step (s : Store) (w : Wave) (p : CStr × Turn) : Wave :=
  let (rs, w') := w.runSite sha text tolerance (startSite s p.1) p.2
  { w' with sites := w.sites ++ [rs] }

/-- A rollout over the sites of a plan, each with its turn. -/
def runRollout (f : State) (plan : List (CStr × Turn)) : Wave :=
  Run.exec (Wave.step sha text tolerance f.store) ⟨f, [], []⟩ plan

end rollout

/-! ### What the gate promises -/

/-- A site that does not stop a rollout. -/
def RolloutSite.Passed (rs : RolloutSite) : Prop :=
  rs.state = .skipped ∧ rs.detail = some .notAdopted ∨ rs.state = .ok

/-- A daemon of the site answers the poll. -/
def Answered (site : CStr) (fleet : List PolledDaemon) : Prop :=
  ∃ d ∈ fleet, d.site = site ∧ d.answer.isSome = true

/-- The hosts of a site that are not OK, as far as is known: a host that is stale counts as it was. -/
def failing (status : Option (List HostStatus)) (site : CStr) : Int :=
  ((status.getD []).countP fun h =>
    hostSiteOf h.toHostReport = site ∧ h.overallStatus ≠ "OK".toList : Nat)

/-- What is asked of a site that ends OK. -/
structure Criteria (sha : List UInt8 → Digest) (tolerance : Float) (f : State) (site : CStr) (turn : Turn) :
    Prop where
  accepted : ∃ gen files hash, deliverSite f.store site = .ok (gen, files) ∧
    turn.exchange.arrives = true ∧ ((f.box site).receive sha turn.exchange gen files).outcome =
      some (.accepted gen hash turn.exchange.objects)
  objects : objectCount turn.counted site > 0 →
    dropped (objectCount turn.counted site) turn.exchange.objects.toNat tolerance = false
  heard : ∃ fleet ∈ turn.polls, Answered site fleet
  alerts : failing turn.after site - failing turn.before site ≤ alertSpikeAllowance

/-- A site gets a delivery only if all before it passed, and ends OK only if it meets the criteria. -/
structure CanaryGate (sha : List UInt8 → Digest) (text : Detail → CStr) (tolerance : Float) (f : State)
    (plan : List (CStr × Turn)) : Prop where
  order : ∀ pre site turn, pre ++ [(site, turn)] <+: plan →
    let w := runRollout sha text tolerance f pre
    (w.runSite sha text tolerance (startSite f.store site) turn).1.started = true →
      ∀ rs ∈ w.sites, rs.Passed
  criteria : ∀ pre site turn, pre ++ [(site, turn)] <+: plan →
    let w := runRollout sha text tolerance f pre
    (w.runSite sha text tolerance (startSite f.store site) turn).1.state = .ok →
      Criteria sha tolerance (Run.exec (State.step sha) w.fleet turn.others) site turn

variable {sha : List UInt8 → Digest} {text : Detail → CStr} {tolerance : Float} {site : CStr}

/-! ### The order -/

theorem startSite_eq (s : Store) (site : CStr) : (startSite s site).site = site := by
  rw [startSite]
  split
  · split <;> rfl
  · rfl

/-- What is noted of a site before its turn. -/
theorem startSite_cases (s : Store) (site : CStr) : (startSite s site).started = false ∧
    ((startSite s site).state = .pending ∨
      (startSite s site).state = .skipped ∧ (startSite s site).detail = some .notAdopted) := by
  rw [startSite]
  split
  · split
    · exact ⟨rfl, Or.inl rfl⟩
    · exact ⟨rfl, Or.inr ⟨rfl, rfl⟩⟩
  · exact ⟨rfl, Or.inr ⟨rfl, rfl⟩⟩

theorem poison_halted (w : Wave) (rs : RolloutSite) (why : CStr) : (w.poison sha rs why).2.halted ≠ [] := by
  simp [Wave.poison]

/-- A box that is rolled back stops the rollout and is not OK. -/
theorem rollbackAndPoison_stops (w : Wave) (rs : RolloutSite) (detail : Detail) (turn : Turn) :
    (w.rollbackAndPoison sha text rs detail turn).2.halted ≠ [] ∧
      (w.rollbackAndPoison sha text rs detail turn).1.state ≠ .ok := by
  rw [Wave.rollbackAndPoison]
  split
  · exact ⟨poison_halted _ _ _, by simp [Wave.poison]⟩
  · exact ⟨poison_halted _ _ _, by simp [Wave.poison]⟩

/-- A site whose turn it is, and that ends OK: it was delivered to and the checks passed. -/
structure EndedOk (sha : List UInt8 → Digest) (tolerance : Float) (f : State) (site : CStr) (turn : Turn) :
    Prop where
  delivered : ∃ objects, (f.deliver sha site turn.exchange).1 = .ok objects ∧
    ¬ (objectCount turn.counted site > 0 ∧ objects > 0 ∧
      dropped (objectCount turn.counted site) objects tolerance = true)
  alerts : alertCount turn.after site - alertCount turn.before site ≤ alertSpikeAllowance

/-- The ways a turn can go: the site is skipped, as it was noted or because the rollout is halted; or it
ends OK; or it stops the rollout. -/
theorem runSite_cases (sha : List UInt8 → Digest) (text : Detail → CStr) (tolerance : Float) (w : Wave)
    (rs : RolloutSite) (turn : Turn) :
    rs.state = .skipped ∧ w.runSite sha text tolerance rs turn = (rs, w) ∨
    rs.state ≠ .skipped ∧ w.halted ≠ [] ∧ w.runSite sha text tolerance rs turn =
      ({ rs with state := .skipped, detail := some (.previousWave w.halted) }, w) ∨
    rs.state ≠ .skipped ∧ w.halted = [] ∧
      ((w.runSite sha text tolerance rs turn).2.halted = [] ∧
          (w.runSite sha text tolerance rs turn).1.state = .ok ∧
          EndedOk sha tolerance (Run.exec (State.step sha) w.fleet turn.others) rs.site turn ∨
        (w.runSite sha text tolerance rs turn).2.halted ≠ [] ∧
          (w.runSite sha text tolerance rs turn).1.state ≠ .ok) := by
  by_cases hskipped : rs.state = .skipped
  · exact Or.inl ⟨hskipped, by rw [Wave.runSite, if_pos hskipped]⟩
  · by_cases hhalted : w.halted ≠ []
    · exact Or.inr (Or.inl ⟨hskipped, hhalted, by rw [Wave.runSite, if_neg hskipped, if_pos hhalted]⟩)
    · refine Or.inr (Or.inr ⟨hskipped, not_not.mp hhalted, ?_⟩)
      rw [Wave.runSite, if_neg hskipped, if_neg hhalted]
      dsimp only
      split
      next e complaints fleet hdeliver =>
        exact Or.inr ⟨poison_halted _ _ _, by simp [Wave.poison]⟩
      next objects fleet hdeliver =>
        split
        · exact Or.inr (rollbackAndPoison_stops _ _ _ _)
        next hkept =>
          split
          · exact Or.inr (rollbackAndPoison_stops _ _ _ _)
          next hquiet =>
            refine Or.inl ⟨not_not.mp hhalted, rfl, ⟨⟨objects, ?_, hkept⟩, ?_⟩⟩
            · rw [hdeliver]
            · exact Int.not_lt.mp hquiet

/-- A rollout that is not halted has only sites behind it that passed. -/
def Wave.Gated (w : Wave) : Prop := w.halted = [] → ∀ rs ∈ w.sites, rs.Passed

/-- A turn after which the rollout goes on. -/
theorem passed_runSite {w : Wave} {rs : RolloutSite} {turn : Turn}
    (hstart : rs.state = .pending ∨ rs.state = .skipped ∧ rs.detail = some .notAdopted)
    (hhalted : (w.runSite sha text tolerance rs turn).2.halted = []) :
    w.halted = [] ∧ (w.runSite sha text tolerance rs turn).1.Passed := by
  obtain ⟨hskipped, hrun⟩ | ⟨-, hbefore, hrun⟩ | ⟨-, hbefore, ⟨-, hok, -⟩ | ⟨hstop, -⟩⟩ :=
    runSite_cases sha text tolerance w rs turn
  · rw [hrun] at hhalted ⊢
    refine ⟨hhalted, Or.inl (hstart.resolve_left fun hpending => ?_)⟩
    rw [hpending] at hskipped
    exact absurd hskipped (by decide)
  · rw [hrun] at hhalted
    exact absurd hhalted hbefore
  · exact ⟨hbefore, Or.inr hok⟩
  · exact absurd hhalted hstop

theorem gated_step {s : Store} {w : Wave} (hw : w.Gated) (p : CStr × Turn) :
    (w.step sha text tolerance s p).Gated := by
  intro hhalted rs hmem
  obtain ⟨hbefore, hpassed⟩ := passed_runSite (startSite_cases s p.1).2 hhalted
  obtain hmem | hmem := List.mem_append.mp hmem
  · exact hw hbefore rs hmem
  · rw [List.mem_singleton.mp hmem]
    exact hpassed

theorem gated_runRollout (f : State) (plan : List (CStr × Turn)) :
    (runRollout sha text tolerance f plan).Gated := by
  have hguard : Run.Guarded (Wave.step sha text tolerance f.store) (fun _ _ => True) ⟨f, [], []⟩ plan :=
    Run.guarded_of_forall fun _ _ _ => trivial
  have hstep : ∀ w p, Wave.Gated w → True → (w.step sha text tolerance f.store p).Gated :=
    fun w p hw _ => gated_step hw p
  exact Run.always_of_guarded hstep (fun _ rs hmem => absurd hmem List.not_mem_nil) hguard plan
    (List.prefix_refl plan)

/-- Only a rollout that is not halted starts with a site. -/
theorem halted_of_started {w : Wave} {rs : RolloutSite} {turn : Turn} (hstart : rs.started = false)
    (h : (w.runSite sha text tolerance rs turn).1.started = true) : w.halted = [] := by
  obtain ⟨-, hrun⟩ | ⟨-, -, hrun⟩ | ⟨-, hbefore, -⟩ := runSite_cases sha text tolerance w rs turn
  · rw [hrun, hstart] at h
    exact absurd h Bool.false_ne_true
  · rw [hrun] at h
    exact absurd (hstart.symm.trans h) Bool.false_ne_true
  · exact hbefore

/-! ### The counts -/

/-- Hosts that are not OK and stale are known and not counted. -/
theorem alertCount_le_failing (status : Option (List HostStatus)) (site : CStr) :
    alertCount status site ≤ failing status site := by
  rw [alertCount, failing, Int.ofNat_le]
  apply List.countP_mono_left
  intro h _ hcounted
  simp only [decide_eq_true_eq] at hcounted ⊢
  exact ⟨hcounted.1, hcounted.2.1⟩

/-- With none of the site's hosts stale, all that are not OK are counted. -/
theorem failing_eq_alertCount {status : Option (List HostStatus)}
    (hfresh : ∀ h ∈ status.getD [], hostSiteOf h.toHostReport = site → h.stale = false) :
    failing status site = alertCount status site := by
  rw [alertCount, failing, Int.ofNat_inj]
  apply List.countP_congr
  intro h hmem
  simp only [decide_eq_true_eq]
  constructor
  · rintro ⟨hsite, hbad⟩
    exact ⟨hsite, hbad, hfresh h hmem hsite⟩
  · rintro ⟨hsite, hbad, -⟩
    exact ⟨hsite, hbad⟩

/-- The site answers the poll, and no daemon that is dark has said anything about it. -/
structure AnsweredAlone (site : CStr) (fleet : List PolledDaemon) : Prop where
  answered : Answered site fleet
  alone : ∀ d ∈ fleet, d.answer.isSome = false → ∀ h ∈ d.lastHosts, hostSiteOf h ≠ site

theorem fresh_fetchFleet {fleet : List PolledDaemon} (h : AnsweredAlone site fleet) :
    ∀ host ∈ fetchFleet fleet, hostSiteOf host.toHostReport = site → host.stale = false := by
  intro host hmem hsite
  rw [fetchFleet, sortHostsByUrgency, (HostOrder.sortHostsByUrgency_perm _ _ _).mem_iff, List.mem_append] at hmem
  obtain hmem | hmem := hmem
  · obtain ⟨d, -, hhost⟩ := List.mem_flatMap.mp hmem
    obtain ⟨report, -, rfl⟩ := List.mem_map.mp hhost
    rfl
  · obtain ⟨d, hd, hhost⟩ := List.mem_flatMap.mp hmem
    cases hanswer : d.answer.isSome with
    | true =>
        rw [hanswer, if_pos rfl] at hhost
        exact absurd hhost List.not_mem_nil
    | false =>
        rw [hanswer, if_neg Bool.false_ne_true, PolledDaemon.staleHosts] at hhost
        obtain ⟨report, hreport, rfl⟩ := List.mem_map.mp hhost
        exact absurd hsite (h.alone d hd hanswer report hreport)

/-! ### The criteria -/

/-- An acceptance that the server reads, in an answer that can be told and has come whole, is one of the
daemon, with its number of objects. -/
theorem outcome_of_accepted {apply : UInt64 → List GenFile → Outcome} {gen : UInt64}
    {files : List GenFile} (hclear : 1 ≤ files.length → files.length ≤ confsetMax →
      (apply gen (files.map received)).Clear)
    {generation : UInt64} {hash : CStr} {objects : Int}
    (hread : (serverSide (daemonSide apply gen files []) []).1 = .accepted generation hash objects) :
    ∃ generation' hash' objects', (daemonSide apply gen files []).outcome =
      some (.accepted generation' hash' objects') ∧ objects = objects'.toNat := by
  by_cases hfits : (payload files).length ≤ confgenMaxPayload
  · have hagree := (agree_iff apply gen files [] []).mpr ⟨hfits, hclear⟩
    obtain ⟨generation', hash', objects', houtcome⟩ := hagree.accepts.mp ⟨_, _, _, hread⟩
    refine ⟨generation', hash', objects', houtcome, ?_⟩
    have hvalues := hagree.values generation' hash' objects' houtcome
    rw [hread] at hvalues
    injection hvalues
  · obtain ⟨payloadLen, hreceive⟩ := receiveFiles_outside gen (payload files ++ [])
      (Or.inr (Nat.lt_of_not_le hfits))
    obtain ⟨code, complaints, hserver⟩ := serverSide_malformed
      (not_mem_payloadSize payloadLen (by decide) (by decide) (by decide))
      (not_mem_payloadSize payloadLen (by decide) (by decide) (by decide)) (payload files ++ []) []
    rw [daemonSide, confgenReceive, hreceive, hserver] at hread
    exact absurd hread (by simp)

/-- What the daemon accepts, it accepts under the number that was sent. -/
theorem accepted_of_receive {b : Box} {x : Exchange} {gen generation : UInt64} {files : List GenFile}
    {hash : Option Digest} {objects : UInt64}
    (h : (b.receive sha x gen files).outcome = some (.accepted generation hash objects)) :
    generation = gen ∧ objects = x.objects := by
  rw [Box.receive, daemonSide, confgenReceive] at h
  split at h
  next => exact absurd h (by simp)
  next sentGen received rest hreceive =>
    obtain rfl := receiveFiles_generation hreceive
    have houtcome := Option.some.inj h
    rw [Box.outcome] at houtcome
    split at houtcome
    next hok =>
      obtain ⟨hr, hs, hpoint⟩ := ConfGen.apply_ok hok
      injection houtcome with hrunning _ hobjects
      rw [ConfGen.apply_staged hr hs, if_pos hpoint] at hrunning
      exact ⟨hrunning.symm, hobjects.symm⟩
    next => exact absurd houtcome (by simp)

/-- The daemon accepts the delivery. -/
def Accepts (sha : List UInt8 → Digest) (b : Box) (x : Exchange) (gen : UInt64) (files : List GenFile) : Prop :=
  ∃ hash, (b.receive sha x gen files).outcome = some (.accepted gen hash x.objects)

/-- What the turn of a site needs, for what is delivered to it. An answer of which a part is lost is not
read as an acceptance, and the outcome can be told. If the daemon accepts, it counts some objects, unless
none were known; and if the count has not dropped, the site answers the last poll of the watch. -/
structure Watched (sha : List UInt8 → Digest) (tolerance : Float) (f : State) (site : CStr) (turn : Turn)
    (gen : UInt64) (files : List GenFile) : Prop where
  whole : ∀ generation hash objects,
    (putVerdict ((f.box site).answer sha turn.exchange gen files)).1 = .accepted generation hash objects →
      (sent ((f.box site).receive sha turn.exchange gen files).lines).length ≤ turn.exchange.heard
  clear : 1 ≤ files.length → files.length ≤ confsetMax →
    ((f.box site).outcome sha turn.exchange gen (files.map received)).Clear
  counted : Accepts sha (f.box site) turn.exchange gen files → objectCount turn.counted site > 0 →
    turn.exchange.objects ≠ 0
  answers : Accepts sha (f.box site) turn.exchange gen files →
    (objectCount turn.counted site > 0 →
      dropped (objectCount turn.counted site) turn.exchange.objects.toNat tolerance = false) →
    ∃ fleet, turn.polls.getLast? = some fleet ∧ AnsweredAlone site fleet

/-- A delivery that the server takes for accepted was accepted, with the number of objects it reads. -/
theorem accepts_of_deliver {f : State} {turn : Turn} {objects : Int}
    (hwatched : ∀ gen files, deliverSite f.store site = .ok (gen, files) →
      turn.exchange.arrives = true → Watched sha tolerance f site turn gen files)
    (h : (f.deliver sha site turn.exchange).1 = .ok objects) :
    ∃ gen files, deliverSite f.store site = .ok (gen, files) ∧ turn.exchange.arrives = true ∧
      Accepts sha (f.box site) turn.exchange gen files ∧ objects = turn.exchange.objects.toNat := by
  rw [State.deliver] at h
  split at h
  next => exact absurd h (by simp)
  next gen files hsite =>
    split at h
    next => exact absurd h (by simp)
    next hlost =>
      have harrives : turn.exchange.arrives = true := by simpa using hlost
      have hw := hwatched gen files hsite harrives
      dsimp only at h
      split at h
      next generation hash objects' complaints rest hverdict =>
        obtain rfl := Except.ok.inj h
        have hread : (putVerdict ((f.box site).answer sha turn.exchange gen files)).1 =
            .accepted generation hash objects' := by rw [hverdict]
        have hwhole := hw.whole generation hash objects' hread
        rw [Box.answer, List.take_of_length_le hwhole] at hread
        obtain ⟨generation', hash', objects'', houtcome, hobjects⟩ := outcome_of_accepted hw.clear
          (by rw [serverSide, List.append_nil]; exact hread)
        obtain ⟨rfl, rfl⟩ := accepted_of_receive houtcome
        exact ⟨generation', files, hsite, harrives, ⟨hash', houtcome⟩, hobjects⟩
      next => exact absurd h (by simp)

theorem criteria_of_endedOk {f : State} {turn : Turn}
    (hwatched : ∀ gen files, deliverSite f.store site = .ok (gen, files) →
      turn.exchange.arrives = true → Watched sha tolerance f site turn gen files)
    (h : EndedOk sha tolerance f site turn) : Criteria sha tolerance f site turn := by
  obtain ⟨objects, hdeliver, hkept⟩ := h.delivered
  obtain ⟨gen, files, hsite, harrives, haccepts, rfl⟩ := accepts_of_deliver hwatched hdeliver
  have hw := hwatched gen files hsite harrives
  have hobjects : objectCount turn.counted site > 0 →
      dropped (objectCount turn.counted site) turn.exchange.objects.toNat tolerance = false := by
    intro hknown
    have hsome : turn.exchange.objects.toNat ≠ 0 := fun hzero =>
      hw.counted haccepts hknown (UInt64.toNat_inj.mp hzero)
    by_contra hdropped
    exact hkept ⟨hknown, by omega, by simpa using hdropped⟩
  obtain ⟨fleet, hlast, hanswered⟩ := hw.answers haccepts hobjects
  have hafter : turn.after = some (fetchFleet fleet) := by rw [Turn.after, hlast]
  obtain ⟨hash, houtcome⟩ := haccepts
  refine ⟨⟨gen, files, hash, hsite, harrives, houtcome⟩, hobjects,
    ⟨fleet, List.mem_of_getLast? hlast, hanswered.answered⟩, ?_⟩
  have hcounted : failing turn.after site = alertCount turn.after site := by
    rw [hafter]
    exact failing_eq_alertCount (fresh_fetchFleet hanswered)
  have hbefore := alertCount_le_failing turn.before site
  have halerts := h.alerts
  omega

/-- The turn of every site that gets a delivery is `Watched`. -/
def Attended (sha : List UInt8 → Digest) (tolerance : Float) (s : Store) (w : Wave) (p : CStr × Turn) : Prop :=
  (startSite s p.1).state = .pending → w.halted = [] →
    let f := Run.exec (State.step sha) w.fleet p.2.others
    ∀ gen files, deliverSite f.store p.1 = .ok (gen, files) → p.2.exchange.arrives = true →
      Watched sha tolerance f p.1 p.2 gen files

/-- In a rollout whose turns are all attended the gate holds. -/
theorem canaryGate_of_attended {f : State} {plan : List (CStr × Turn)}
    (hplan : Run.Guarded (Wave.step sha text tolerance f.store) (Attended sha tolerance f.store)
      ⟨f, [], []⟩ plan) : CanaryGate sha text tolerance f plan where
  order := by
    intro pre site turn _ w hstarted
    exact gated_runRollout f pre (halted_of_started (startSite_cases f.store site).1 hstarted)
  criteria := by
    intro pre site turn hpre w hok
    have hattended := hplan pre (site, turn) hpre
    obtain ⟨hskipped, hrun⟩ | ⟨-, -, hrun⟩ | ⟨hnot, hhalted, ⟨-, -, hended⟩ | ⟨-, hstopped⟩⟩ :=
      runSite_cases sha text tolerance w (startSite f.store site) turn
    · rw [hrun, hskipped] at hok
      exact absurd hok (by decide)
    · rw [hrun] at hok
      exact absurd hok (by simp)
    · have hpending : (startSite f.store site).state = .pending :=
        (startSite_cases f.store site).2.resolve_right fun hskipped => hnot hskipped.1
      rw [startSite_eq] at hended
      exact criteria_of_endedOk (hattended hpending hhalted) hended
    · exact absurd hok hstopped

/-! ### A box that falls silent -/

/-- The box of a fleet that has been adopted. -/
def adoptedFleet : State :=
  newFleet.step sampleSha (.adopt ['a'] (some (oneFile 97, hashFiles sampleSha (oneFile 97))))

/-- The box takes the delivery, with one object. -/
def takenTurn (polls : List (List PolledDaemon)) : Turn where
  others := []
  counted := none
  before := none
  exchange := ⟨true, ConfGen.healthyApply, [], 1, 100⟩
  meanwhile := []
  stored := none
  polls := polls
  rollback := healthyRollback
  complaint := []

/-- The box answers a poll with one host, which is OK. -/
def answeredPoll : List PolledDaemon :=
  [⟨['a'], [], some [⟨['a'], "a:h".toList, ['h'], "OK".toList⟩]⟩]

theorem canaryGate_answered :
    CanaryGate sampleSha (fun _ => []) 0.1 adoptedFleet [(['a'], takenTurn [answeredPoll])] := by
  apply canaryGate_of_attended
  refine Run.guarded_cons.mpr ⟨fun _ _ gen files hdeliver _ => ?_, Run.guarded_nil⟩
  have hfiles : (1, oneFile 97) = (gen, files) := by
    refine Except.ok.inj (Eq.trans ?_ hdeliver)
    decide
  obtain ⟨rfl, rfl⟩ := Prod.mk.inj hfiles
  refine ⟨fun _ _ _ _ => ?_, fun _ _ => ?_, fun _ hknown => absurd hknown (by decide), fun _ _ => ?_⟩
  · decide
  · have haccepted : (adoptedFleet.box ['a']).outcome sampleSha (takenTurn [answeredPoll]).exchange 1
        ((oneFile 97).map received) = .accepted 1 (some (sampleSha (hashOfFiles (oneFile 97)))) 1 := by
      decide
    show ((adoptedFleet.box ['a']).outcome _ _ _ _).Clear
    rw [haccepted]
    exact (by decide : (1 : UInt64).toNat < 2 ^ 63)
  · refine ⟨answeredPoll, rfl, ⟨⟨_, List.mem_singleton.mpr rfl, rfl, rfl⟩, fun d hd hdark => ?_⟩⟩
    rw [List.mem_singleton.mp hd] at hdark
    exact absurd hdark (by decide)

/-- Nothing is heard of the box after the delivery, and it ends OK. -/
theorem silent_box_ends_ok :
    ¬ CanaryGate sampleSha (fun _ => []) 0.1 adoptedFleet [(['a'], takenTurn [])] := by
  intro h
  obtain ⟨poll, hpoll, -⟩ := (h.criteria [] ['a'] (takenTurn []) (List.prefix_refl _)
    (by decide)).heard
  exact absurd hpoll List.not_mem_nil

end Sysmon.Fleet
