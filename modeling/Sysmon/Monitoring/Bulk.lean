import Sysmon.Agents.Alerts
import Sysmon.Lib.GoQuote
import Sysmon.Lib.Grouped
import Sysmon.Monitoring.Delta

/-!
# Commands to many objects

`hostAction` sends a command to one object, and finds the site of a name that has none. `bulkBySite` sends it to many: it
sorts the names into one group for each site, and has one conversation with each. The groups are worked on in another order
than the names, with the connection put into its mode once and not for each name; what it does not do is find the site of a
name that has none.
-/

namespace Sysmon.Monitoring

open Fleet (ascii)
open Agents (GoString)
open GoText (quote)
open Grouped (Groups)

/-! ### Text -/

/-- `sanitizeCmd`: without control characters, and without white space around it. -/
def sanitizeCmd (s : GoString) : GoString := Alerts.trimSpace ((GoText.jsonText s).filter (32 ≤ ·))

/-! ### The fleet -/

/-- A daemon as a request finds it. It has the name of its site from its greeting, and no later name is empty. -/
structure SiteDaemon where
  site : GoString
  named : site ≠ []
  /-- Whether there is a connection. -/
  conn : Bool
  /-- The name and the host name of each object in its last answer. -/
  lastHosts : List (GoString × GoString)

/-- The other end of the connections: what it makes of `MODE xml` and of a command to an object. To put a connection into
the mode it is in does no harm, and no command takes it out of it; so no connection is lost in the middle of a request. -/
structure FarEnd (σ : Type) where
  enterXMLMode : σ → Except GoString σ
  command : GoString → σ → Option GoString × σ
  again : ∀ s s', enterXMLMode s = .ok s' → enterXMLMode s' = .ok s'
  stays : ∀ object s, enterXMLMode s = .ok s → enterXMLMode (command object s).2 = .ok (command object s).2

variable {σ α : Type} (isPrint : GoString → Bool) (farEnd : FarEnd σ) (fleet : List SiteDaemon)

/-- The daemon that a site is asked for at, by its number. -/
def daemonFor (site : GoString) : Option Nat :=
  fleet.findIdx? fun d => d.site = site || (d.site = [] && site = ascii "local")

def noSite (site : GoString) : GoString := ascii "no site called " ++ quote isPrint site ++ ascii " is in the fleet"

def notConnected (site : GoString) : GoString := ascii "site " ++ quote isPrint site ++ ascii " is not connected"

/-- `withDaemonConn`, with what `fn` has besides the connection. -/
def withDaemonConn (site : GoString) (fn : σ × α → Option GoString × σ × α) (st : (Nat → σ) × α) :
    Option GoString × (Nat → σ) × α :=
  match daemonFor fleet site with
  | none => (some (noSite isPrint site), st)
  | some i =>
      if (fleet[i]?.map SiteDaemon.conn).getD false then
        let (err, s, a) := fn (st.1 i, st.2)
        (err, Function.update st.1 i s, a)
      else (some (notConnected isPrint site), st)

/-! ### One object -/

/-- The sites with an object of this name. -/
def owners (object : GoString) : List GoString :=
  (fleet.filter fun d => d.lastHosts.any fun h => h.1 = object || h.2 = object).map SiteDaemon.site

def noObject (qualified : GoString) : GoString := ascii "no object name in " ++ quote isPrint qualified

def nowhere (object : GoString) : GoString := ascii "no connected site has an object named " ++ quote isPrint object

def several (object : GoString) (sites : List GoString) : GoString :=
  quote isPrint object ++ ascii " exists at " ++ (ascii ", ").intercalate sites ++ ascii " - say which as site:object"

/-- The conversation of `hostAction`. -/
def tell (object : GoString) (s : σ × Unit) : Option GoString × σ × Unit :=
  match farEnd.enterXMLMode s.1 with
  | .error err => (some err, s)
  | .ok entered =>
      let (err, after) := farEnd.command object entered
      (err, after, ())

def tellSite (site object : GoString) (far : Nat → σ) : Option GoString × (Nat → σ) :=
  let (err, far, _) := withDaemonConn isPrint fleet site (tell farEnd object) (far, ())
  (err, far)

def hostAction (qualified : GoString) (far : Nat → σ) : Option GoString × (Nat → σ) :=
  let (site, object) := splitQualified qualified
  let object := sanitizeCmd object
  if object = [] then (some (noObject isPrint qualified), far)
  else if site = [] then
    match owners fleet object with
    | [owner] => tellSite isPrint farEnd fleet owner object far
    | [] => (some (nowhere isPrint object), far)
    | sites => (some (several isPrint object sites), far)
  else tellSite isPrint farEnd fleet site object far

/-! ### Many objects -/

/-- `BulkOperationResult`. -/
structure Result where
  hostname : GoString
  success : Bool
  error : GoString
  deriving DecidableEq, Repr

/-- What comes of a command is written down. -/
def Result.note (err : Option GoString) (r : Result) : Result :=
  { r with success := err.isNone, error := err.getD r.error }

/-- The result before anything is sent. -/
def firstResult (qualified : GoString) : Result :=
  if sanitizeCmd (splitQualified qualified).2 = [] then ⟨qualified, false, noObject isPrint qualified⟩
  else ⟨qualified, false, []⟩

/-- The group of a name, which comes with its place in the list. -/
def groupOf (item : GoString × Nat) : Option GoString :=
  let (site, object) := splitQualified item.1
  if sanitizeCmd object = [] then none else some site

/-- The command for one name of a group. -/
def commandOne (s : σ × List Result) (item : GoString × Nat) : σ × List Result :=
  let (err, after) := farEnd.command (sanitizeCmd (splitQualified item.1).2) s.1
  (after, s.2.modify item.2 (Result.note err))

/-- The conversation of `bulkBySite` about a group. -/
def tellGroup (idxs : List (GoString × Nat)) (s : σ × List Result) : Option GoString × σ × List Result :=
  match farEnd.enterXMLMode s.1 with
  | .error err => (some err, s)
  | .ok entered => (none, idxs.foldl (commandOne farEnd) (entered, s.2))

/-- A site with its group. If it is not reached, that is the result of all of them. -/
def workSite (groups : Groups GoString (GoString × Nat)) (st : (Nat → σ) × List Result) (site : GoString) :
    (Nat → σ) × List Result :=
  let (err, far, results) := withDaemonConn isPrint fleet site (tellGroup farEnd (groups.get site)) st
  match err with
  | none => (far, results)
  | some err => (far, (groups.get site).foldl (fun results item => results.modify item.2 (Result.note (some err))) results)

def bulkBySite (hostnames : List GoString) (far : Nat → σ) : List Result × (Nat → σ) :=
  let groups := Groups.of groupOf hostnames.zipIdx
  let (far, results) := groups.order.foldl (workSite isPrint farEnd fleet groups) (far, hostnames.map (firstResult isPrint))
  (results, far)

/-- Actions one after the other, with what they return as results. -/
def oneByOne (action : GoString → (Nat → σ) → Option GoString × (Nat → σ)) :
    List GoString → (Nat → σ) → List Result × (Nat → σ)
  | [], far => ([], far)
  | qualified :: rest, far =>
      let (err, far) := action qualified far
      let (results, far) := oneByOne action rest far
      (⟨qualified, err.isNone, err.getD []⟩ :: results, far)

theorem oneByOne_cons (action : GoString → (Nat → σ) → Option GoString × (Nat → σ)) (qualified : GoString)
    (rest : List GoString) (far : Nat → σ) :
    oneByOne action (qualified :: rest) far =
      (⟨qualified, (action qualified far).1.isNone, (action qualified far).1.getD []⟩ ::
        (oneByOne action rest (action qualified far).2).1, (oneByOne action rest (action qualified far).2).2) := rfl

/-! ### Without the groups -/

/-- A single action that does not look for the site of a name without one. -/
def direct (qualified : GoString) (far : Nat → σ) : Option GoString × (Nat → σ) :=
  let (site, object) := splitQualified qualified
  let object := sanitizeCmd object
  if object = [] then (some (noObject isPrint qualified), far) else tellSite isPrint farEnd fleet site object far

/-- What it is to work on one name of a group by itself. -/
def workOne (st : (Nat → σ) × List Result) (item : GoString × Nat) : (Nat → σ) × List Result :=
  let (site, object) := splitQualified item.1
  let (err, far) := tellSite isPrint farEnd fleet site (sanitizeCmd object) st.1
  (far, st.2.modify item.2 (Result.note err))

/-- Where the connection of a site is, if there is one. -/
def reach (site : GoString) : Except GoString Nat :=
  match daemonFor fleet site with
  | none => .error (noSite isPrint site)
  | some i => if (fleet[i]?.map SiteDaemon.conn).getD false then .ok i else .error (notConnected isPrint site)

variable {isPrint farEnd fleet} {site site' object object' : GoString} {i j : Nat} {far : Nat → σ}

theorem withDaemonConn_error {err : GoString} (h : reach isPrint fleet site = .error err)
    (fn : σ × α → Option GoString × σ × α) (st : (Nat → σ) × α) :
    withDaemonConn isPrint fleet site fn st = (some err, st) := by
  rw [reach] at h
  rw [withDaemonConn]
  cases hfor : daemonFor fleet site with
  | none =>
      rw [hfor] at h
      exact congrArg (fun err => (some err, st)) (Except.error.inj h)
  | some i =>
      simp only [hfor] at h ⊢
      split at h
      next => exact nomatch h
      next hconn =>
        rw [if_neg hconn]
        exact congrArg (fun err => (some err, st)) (Except.error.inj h)

theorem withDaemonConn_ok (h : reach isPrint fleet site = .ok i) (fn : σ × α → Option GoString × σ × α)
    (st : (Nat → σ) × α) :
    withDaemonConn isPrint fleet site fn st =
      ((fn (st.1 i, st.2)).1, Function.update st.1 i (fn (st.1 i, st.2)).2.1, (fn (st.1 i, st.2)).2.2) := by
  rw [reach] at h
  rw [withDaemonConn]
  cases hfor : daemonFor fleet site with
  | none =>
      rw [hfor] at h
      exact nomatch h
  | some j =>
      simp only [hfor] at h ⊢
      split at h
      next hconn =>
        obtain rfl := Except.ok.inj h
        rw [if_pos hconn]
      next => exact nomatch h

/-- Two sites do not have one connection. -/
theorem reach_ne (h : reach isPrint fleet site = .ok i) (h' : reach isPrint fleet site' = .ok j) (hne : site ≠ site') :
    i ≠ j := by
  have hsite : ∀ {site : GoString} {i : Nat}, reach isPrint fleet site = .ok i →
      ∃ d, fleet[i]? = some d ∧ d.site = site := by
    intro site i h
    rw [reach] at h
    cases hfor : daemonFor fleet site with
    | none =>
        rw [hfor] at h
        exact nomatch h
    | some j =>
        simp only [hfor] at h
        split at h
        next =>
          obtain rfl := Except.ok.inj h
          obtain ⟨hlt, htest, -⟩ := List.findIdx?_eq_some_iff_getElem.mp hfor
          exact ⟨fleet[j], List.getElem?_eq_getElem hlt, by simpa [fleet[j].named] using htest⟩
        next => exact nomatch h
  rintro rfl
  obtain ⟨d, hd, rfl⟩ := hsite h
  obtain ⟨d', hd', rfl⟩ := hsite h'
  exact hne (congrArg SiteDaemon.site (Option.some.inj (hd.symm.trans hd')))

theorem tellSite_error {err : GoString} (h : reach isPrint fleet site = .error err) :
    tellSite isPrint farEnd fleet site object far = (some err, far) := by
  rw [tellSite, withDaemonConn_error h]

theorem tellSite_ok (h : reach isPrint fleet site = .ok i) :
    tellSite isPrint farEnd fleet site object far =
      ((tell farEnd object (far i, ())).1, Function.update far i (tell farEnd object (far i, ())).2.1) := by
  rw [tellSite, withDaemonConn_ok h]

variable (isPrint farEnd fleet far object object') in
/-- What is said at one site is not heard at another. -/
theorem tellSite_swap (hne : site ≠ site') :
    (tellSite isPrint farEnd fleet site' object' (tellSite isPrint farEnd fleet site object far).2).1 =
        (tellSite isPrint farEnd fleet site' object' far).1 ∧
      (tellSite isPrint farEnd fleet site' object' (tellSite isPrint farEnd fleet site object far).2).2 =
        (tellSite isPrint farEnd fleet site object (tellSite isPrint farEnd fleet site' object' far).2).2 := by
  cases h : reach isPrint fleet site with
  | error err =>
      simp only [tellSite_error h, and_self]
  | ok i =>
      cases h' : reach isPrint fleet site' with
      | error err =>
          simp only [tellSite_error h', and_self]
      | ok j =>
          have hij : i ≠ j := reach_ne h h' hne
          simp only [tellSite_ok h, tellSite_ok h', Function.update_of_ne hij.symm, Function.update_of_ne hij, true_and]
          exact Function.update_comm hij _ _ _

/-! ### A group -/

variable {item : GoString × Nat} {items : List (GoString × Nat)} {results : List Result}

theorem workOne_eq {err : Option GoString} {after : Nat → σ} (hsite : (splitQualified item.1).1 = site)
    (h : tellSite isPrint farEnd fleet site (sanitizeCmd (splitQualified item.1).2) far = (err, after)) :
    workOne isPrint farEnd fleet (far, results) item = (after, results.modify item.2 (Result.note err)) := by
  rw [workOne]
  simp only [hsite, h]

/-- Names of a site that says the same to each and has nothing done. -/
theorem foldl_workOne_error {err : GoString} (hsite : ∀ item ∈ items, (splitQualified item.1).1 = site)
    (h : ∀ object, tellSite isPrint farEnd fleet site object far = (some err, far)) :
    items.foldl (workOne isPrint farEnd fleet) (far, results) =
      (far, items.foldl (fun results item => results.modify item.2 (Result.note (some err))) results) := by
  induction items generalizing results with
  | nil => rfl
  | cons item items ih =>
      rw [List.foldl_cons, workOne_eq (hsite item List.mem_cons_self) (h _)]
      exact ih fun item hitem => hsite item (List.mem_cons_of_mem _ hitem)

theorem tellSite_entered {s : σ} (hreach : reach isPrint fleet site = .ok i)
    (h : farEnd.enterXMLMode (far i) = .ok s) :
    tellSite isPrint farEnd fleet site object far =
      ((farEnd.command object s).1, Function.update far i (farEnd.command object s).2) := by
  rw [tellSite_ok hreach, tell]
  simp only [h]

theorem tellSite_refused {err : GoString} (hreach : reach isPrint fleet site = .ok i)
    (h : farEnd.enterXMLMode (far i) = .error err) :
    tellSite isPrint farEnd fleet site object far = (some err, far) := by
  rw [tellSite_ok hreach, tell]
  simp only [h, Function.update_eq_self]

/-- One conversation about all of a group is one about each, as long as the connection is in its mode. -/
theorem foldl_workOne_entered {s : σ} (hreach : reach isPrint fleet site = .ok i) (hs : farEnd.enterXMLMode s = .ok s)
    (hsite : ∀ item ∈ items, (splitQualified item.1).1 = site) :
    items.foldl (workOne isPrint farEnd fleet) (Function.update far i s, results) =
      (Function.update far i (items.foldl (commandOne farEnd) (s, results)).1,
        (items.foldl (commandOne farEnd) (s, results)).2) := by
  induction items generalizing s results with
  | nil => rfl
  | cons item items ih =>
      have hhere : farEnd.enterXMLMode (Function.update far i s i) = .ok s := by rw [Function.update_self, hs]
      rw [List.foldl_cons, workOne_eq (hsite item List.mem_cons_self) (tellSite_entered hreach hhere),
        Function.update_idem]
      exact ih (farEnd.stays _ s hs) fun item hitem => hsite item (List.mem_cons_of_mem _ hitem)

/-- A group is worked on as its names are by themselves. -/
theorem workSite_eq {groups : Groups GoString (GoString × Nat)} (hne : groups.get site ≠ [])
    (hsite : ∀ item ∈ groups.get site, (splitQualified item.1).1 = site) (st : (Nat → σ) × List Result) :
    workSite isPrint farEnd fleet groups st site = (groups.get site).foldl (workOne isPrint farEnd fleet) st := by
  obtain ⟨far, results⟩ := st
  rw [workSite]
  cases hreach : reach isPrint fleet site with
  | error err =>
      rw [withDaemonConn_error hreach]
      exact (foldl_workOne_error hsite fun object => tellSite_error hreach).symm
  | ok i =>
      rw [withDaemonConn_ok hreach, tellGroup]
      cases henter : farEnd.enterXMLMode (far i) with
      | error err =>
          simp only [Function.update_eq_self]
          exact (foldl_workOne_error hsite fun object => tellSite_refused hreach henter).symm
      | ok s =>
          obtain ⟨item, items, hitems⟩ := List.exists_cons_of_ne_nil hne
          rw [hitems] at hsite ⊢
          have hs : farEnd.enterXMLMode s = .ok s := farEnd.again _ _ henter
          -- after the first name the connection is in its mode
          rw [List.foldl_cons, workOne_eq (hsite item List.mem_cons_self) (tellSite_entered hreach henter),
            foldl_workOne_entered hreach (farEnd.stays _ s hs) fun item hitem =>
              hsite item (List.mem_cons_of_mem _ hitem)]
          rfl

/-! ### All names -/

theorem modify_swap {f g : Result → Result} (hij : i ≠ j) (results : List Result) :
    (results.modify i f).modify j g = (results.modify j g).modify i f := by
  refine List.ext_getElem? fun k => ?_
  simp only [List.getElem?_modify]
  by_cases hi : i = k
  · have hj : j ≠ k := fun hj => hij (hi.trans hj.symm)
    simp [hi, hj]
  · simp [hi]

/-- Two names at different sites can be worked on in any order. -/
theorem workOne_swap {item' : GoString × Nat} (hsite : (splitQualified item.1).1 ≠ (splitQualified item'.1).1)
    (hplace : item.2 ≠ item'.2) (st : (Nat → σ) × List Result) :
    workOne isPrint farEnd fleet (workOne isPrint farEnd fleet st item) item' =
      workOne isPrint farEnd fleet (workOne isPrint farEnd fleet st item') item := by
  obtain ⟨hsecond, hafter⟩ := tellSite_swap isPrint farEnd fleet (sanitizeCmd (splitQualified item.1).2)
    (sanitizeCmd (splitQualified item'.1).2) st.1 hsite
  obtain ⟨hfirst, -⟩ := tellSite_swap isPrint farEnd fleet (sanitizeCmd (splitQualified item'.1).2)
    (sanitizeCmd (splitQualified item.1).2) st.1 hsite.symm
  simp only [workOne, hsecond, hafter, hfirst, modify_swap hplace]

theorem groupOf_eq_some {item : GoString × Nat} :
    groupOf item = some site ↔ sanitizeCmd (splitQualified item.1).2 ≠ [] ∧ (splitQualified item.1).1 = site := by
  rw [groupOf]
  by_cases hobject : sanitizeCmd (splitQualified item.1).2 = []
  · simp [hobject]
  · simp [hobject]

/-- All groups are worked on as the names are by themselves. -/
theorem bulkBySite_eq_foldl (hostnames : List GoString) (far : Nat → σ) :
    bulkBySite isPrint farEnd fleet hostnames far =
      let st := (hostnames.zipIdx.filter fun item => (groupOf item).isSome).foldl (workOne isPrint farEnd fleet)
        (far, hostnames.map (firstResult isPrint))
      (st.2, st.1) := by
  have hwork : ∀ st, (Groups.of groupOf hostnames.zipIdx).order.foldl
      (workSite isPrint farEnd fleet (Groups.of groupOf hostnames.zipIdx)) st =
        (Groups.of groupOf hostnames.zipIdx).work (workOne isPrint farEnd fleet) st := by
    intro st
    refine List.foldl_ext _ _ _ fun st site hsite => workSite_eq ?_ (fun item hitem => ?_) st
    · have hsound := Groups.sound_of groupOf hostnames.zipIdx
      exact (hsound.inhabited site).mp ((hsound.mem site).mp hsite)
    · rw [Groups.get_of] at hitem
      exact (groupOf_eq_some.mp (of_decide_eq_true (List.mem_filter.mp hitem).2)).2
  rw [bulkBySite]
  simp only [hwork]
  rw [Groups.work_of]
  intro item hitem item' hitem' site site' hgroup hgroup' hne
  have hsites : (splitQualified item.1).1 ≠ (splitQualified item'.1).1 := by
    rw [(groupOf_eq_some.mp hgroup).2, (groupOf_eq_some.mp hgroup').2]
    exact hne
  refine workOne_swap hsites fun hplace => hsites ?_
  -- there is one name at each place
  rw [List.mem_zipIdx_iff_getElem?] at hitem hitem'
  rw [hplace, hitem'] at hitem
  rw [Option.some.inj hitem]

theorem modify_length (done : List Result) (r : Result) (rest : List Result) (f : Result → Result) :
    (done ++ r :: rest).modify done.length f = done ++ f r :: rest := by
  induction done with
  | nil => rfl
  | cons first done ih => exact congrArg (first :: ·) ih

variable (isPrint farEnd fleet) in
/-- What is written down for a name is what came of it, and the others keep what they have. -/
theorem foldl_workOne_eq (hostnames : List GoString) (done : List Result) (far : Nat → σ) :
    ((hostnames.zipIdx done.length).filter fun item => (groupOf item).isSome).foldl (workOne isPrint farEnd fleet)
        (far, done ++ hostnames.map (firstResult isPrint)) =
      ((oneByOne (direct isPrint farEnd fleet) hostnames far).2,
        done ++ (oneByOne (direct isPrint farEnd fleet) hostnames far).1) := by
  induction hostnames generalizing done far with
  | nil => rfl
  | cons qualified hostnames ih =>
      rw [List.zipIdx_cons, List.map_cons, oneByOne_cons]
      by_cases hobject : sanitizeCmd (splitQualified qualified).2 = []
      · have hnone : groupOf (qualified, done.length) = none := if_pos hobject
        have hdirect : direct isPrint farEnd fleet qualified far = (some (noObject isPrint qualified), far) :=
          if_pos hobject
        have hresult : firstResult isPrint qualified = ⟨qualified, false, noObject isPrint qualified⟩ := if_pos hobject
        rw [List.filter_cons_of_neg (by simp [hnone]), hdirect, hresult]
        have hrest := ih (done ++ [⟨qualified, false, noObject isPrint qualified⟩]) far
        rw [List.length_append, List.length_singleton, List.append_assoc, List.append_assoc] at hrest
        exact hrest
      · have hsome : groupOf (qualified, done.length) = some (splitQualified qualified).1 := if_neg hobject
        have hdirect : direct isPrint farEnd fleet qualified far =
            tellSite isPrint farEnd fleet (splitQualified qualified).1 (sanitizeCmd (splitQualified qualified).2) far :=
          if_neg hobject
        have hresult : firstResult isPrint qualified = ⟨qualified, false, []⟩ := if_neg hobject
        obtain ⟨err, after, hanswer⟩ : ∃ err after, direct isPrint farEnd fleet qualified far = (err, after) :=
          ⟨_, _, rfl⟩
        have hwork : ∀ results, workOne isPrint farEnd fleet (far, results) (qualified, done.length) =
            (after, results.modify done.length (Result.note err)) := by
          intro results
          exact workOne_eq rfl (hdirect ▸ hanswer)
        rw [List.filter_cons_of_pos (by simp [hsome]), List.foldl_cons, hwork, hresult, modify_length, hanswer]
        have hrest := ih (done ++ [⟨qualified, err.isNone, err.getD []⟩]) after
        rw [List.length_append, List.length_singleton, List.append_assoc, List.append_assoc] at hrest
        exact hrest

variable (isPrint farEnd fleet) in
/-- The groups change nothing: many names are worked on as one after the other. -/
theorem bulkBySite_eq (hostnames : List GoString) (far : Nat → σ) :
    bulkBySite isPrint farEnd fleet hostnames far = oneByOne (direct isPrint farEnd fleet) hostnames far := by
  rw [bulkBySite_eq_foldl]
  have hall := foldl_workOne_eq isPrint farEnd fleet hostnames [] far
  simp only [List.length_nil, List.nil_append] at hall
  simp only [hall]

/-! ### Names without a site -/

/-- A name that is a site's, or that is no object's. -/
def Routed (qualified : GoString) : Prop :=
  sanitizeCmd (splitQualified qualified).2 ≠ [] → (splitQualified qualified).1 ≠ []

theorem hostAction_eq_direct {qualified : GoString} (h : Routed qualified) :
    hostAction isPrint farEnd fleet qualified far = direct isPrint farEnd fleet qualified far := by
  rw [hostAction, direct]
  by_cases hobject : sanitizeCmd (splitQualified qualified).2 = []
  · simp only [if_pos hobject]
  · simp only [if_neg hobject, if_neg (h hobject)]

theorem oneByOne_congr {action action' : GoString → (Nat → σ) → Option GoString × (Nat → σ)}
    {hostnames : List GoString} (h : ∀ q ∈ hostnames, ∀ far, action q far = action' q far) (far : Nat → σ) :
    oneByOne action hostnames far = oneByOne action' hostnames far := by
  induction hostnames generalizing far with
  | nil => rfl
  | cons q hostnames ih =>
      rw [oneByOne_cons, oneByOne_cons, h q List.mem_cons_self]
      simp only [ih fun q hq => h q (List.mem_cons_of_mem _ hq)]

/-- A far end that says yes to everything. -/
def agreeable : FarEnd Unit where
  enterXMLMode := fun s => .ok s
  command := fun _ s => (none, s)
  again := fun _ _ _ => rfl
  stays := fun _ _ _ => rfl

theorem oneByOne_unit (action : GoString → (Nat → Unit) → Option GoString × (Nat → Unit)) (hostnames : List GoString)
    (far : Nat → Unit) :
    (oneByOne action hostnames far).1 =
      hostnames.map fun q => ⟨q, (action q far).1.isNone, (action q far).1.getD []⟩ := by
  induction hostnames with
  | nil => rfl
  | cons q hostnames ih =>
      have hsame : (action q far).2 = far := Subsingleton.elim _ _
      rw [oneByOne_cons]
      simp only [hsame, ih, List.map_cons]

/-- No daemon is without a name. -/
theorem reach_nil : reach isPrint fleet [] = .error (noSite isPrint []) := by
  have hnone : daemonFor fleet [] = none := by
    rw [daemonFor, List.findIdx?_eq_none_iff]
    intro d _
    simp [d.named]
  rw [reach, hnone]

/-- The owner of an object is in the fleet. -/
theorem reach_owner (h : site ∈ owners fleet object) : reach isPrint fleet site ≠ .error (noSite isPrint site') := by
  obtain ⟨d, hd, rfl⟩ := List.mem_map.mp h
  rw [reach]
  cases hfor : daemonFor fleet d.site with
  | none =>
      have hnot := List.findIdx?_eq_none_iff.mp hfor d (List.mem_of_mem_filter hd)
      simp at hnot
  | some i =>
      simp only
      split
      · exact nofun
      · intro heq
        have hfirst : some 115 = some (110 : UInt8) := congrArg List.head? (Except.error.inj heq)
        exact absurd hfirst (by decide)

theorem eq_of_noted {err err' : Option GoString} (hsuccess : err.isNone = err'.isNone)
    (herror : err.getD [] = err'.getD []) : err = err' := by
  cases err with
  | none => cases err' with
    | none => rfl
    | some _ => exact nomatch hsuccess
  | some _ => cases err' with
    | none => exact nomatch hsuccess
    | some _ => exact congrArg some herror

/-- What the two say of a name without a site is not the same, with any fleet. -/
theorem hostAction_ne_direct {qualified : GoString} (h : ¬Routed qualified) (far : Nat → Unit) :
    (hostAction isPrint agreeable fleet qualified far).1 ≠ (direct isPrint agreeable fleet qualified far).1 := by
  obtain ⟨hobject, hsite⟩ : sanitizeCmd (splitQualified qualified).2 ≠ [] ∧ (splitQualified qualified).1 = [] := by
    simpa [Routed] using h
  have hdirect : (direct isPrint agreeable fleet qualified far).1 = some (noSite isPrint []) := by
    rw [direct]
    simp only [if_neg hobject, hsite, tellSite_error reach_nil]
  rw [hdirect, hostAction]
  simp only [if_neg hobject, hsite, if_true]
  split
  next owner howner =>
    cases hreach : reach isPrint fleet owner with
    | error err =>
        rw [tellSite_error hreach]
        intro heq
        rw [Option.some.inj heq] at hreach
        exact reach_owner (howner ▸ List.mem_singleton_self owner) hreach
    | ok i =>
        rw [tellSite_entered hreach rfl]
        exact nofun
  next =>
    intro heq
    have hfourth : some 99 = some (115 : UInt8) := congrArg (fun err : GoString => err[3]?) (Option.some.inj heq)
    exact absurd hfourth (by decide)
  next =>
    intro heq
    have hfirst : some 34 = some (110 : UInt8) := congrArg List.head? (Option.some.inj heq)
    exact absurd hfirst (by decide)

/-- Many names are worked on as one by one, whatever is at the other end of the connections, exactly if each name of an
object has a site. -/
theorem bulkBySite_eq_oneByOne_iff (isPrint : GoString → Bool) (fleet : List SiteDaemon) (hostnames : List GoString) :
    (∀ (σ : Type) (farEnd : FarEnd σ) (far : Nat → σ),
      bulkBySite isPrint farEnd fleet hostnames far =
        oneByOne (hostAction isPrint farEnd fleet) hostnames far) ↔ ∀ q ∈ hostnames, Routed q := by
  constructor
  · intro h q hq
    by_contra hbare
    have hsame := congrArg Prod.fst (h Unit agreeable fun _ => ())
    rw [bulkBySite_eq, oneByOne_unit, oneByOne_unit] at hsame
    obtain ⟨-, hsuccess, herror⟩ := Result.mk.inj (List.map_inj_left.mp hsame q hq)
    exact hostAction_ne_direct hbare _ (eq_of_noted hsuccess herror).symm
  · intro h σ farEnd far
    rw [bulkBySite_eq]
    exact (oneByOne_congr (fun q hq far => hostAction_eq_direct (h q hq)) far).symm

/-- A fleet of one site, and its object by the key the pages have for it. -/
theorem bulkBySite_ne_hostAction :
    ¬∀ (isPrint : GoString → Bool) (fleet : List SiteDaemon) (hostnames : List GoString) (σ : Type) (farEnd : FarEnd σ)
      (far : Nat → σ), bulkBySite isPrint farEnd fleet hostnames far =
        oneByOne (hostAction isPrint farEnd fleet) hostnames far := by
  intro h
  have hsame := congrArg Prod.fst (h (fun _ => true) [⟨ascii "local", by decide, true, [(ascii "www", ascii "web1")]⟩]
    [ascii "www"] Unit agreeable fun _ => ())
  exact absurd hsame (by decide)

end Sysmon.Monitoring
