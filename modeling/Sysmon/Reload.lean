import Sysmon.Parser.Object

/-!
# A reload

`sync_after_sighup`, with `loadconfig` under it. The objects live on the heap and are known by
reference; three globals hold on to them: `currenthead`, the list the main loop walks, `parser_head`,
the list every lookup by name goes through, and `configed_root`, where the scheduling walk starts.
`loadconfig` sets the last two as it parses, long before anybody has decided whether the new
configuration is any good.

A list node, its `struct graph_elements` and its `struct hostinfo` are allocated and freed together,
so they are one cell here. The neighbours of an object are found among the objects of its own list.
`update_globs_from_parser` sets daemon-wide settings, which reach this model as the environment of
the next parse.
-/

open Sysmon.Parser

namespace Sysmon.Reload

abbrev Ref := Nat

abbrev Heap := Ref → Option Element

structure Daemon where
  heap : Heap
  /-- No reference from here on has been given out. -/
  next : Ref
  currenthead : List Ref
  parserHead : List Ref
  configedRoot : Option Ref
  scratch : Scratch

/-! ### Loading a file -/

/-- The new objects one after the other, from the next free reference on. -/
def allocate (heap : Heap) (next : Ref) (elements : List Element) : Heap := fun r =>
  if next ≤ r ∧ r < next + elements.length then elements[r - next]? else heap r

/-- `find_object_by_name`. -/
def findObjectByName (heap : Heap) (head : List Ref) (name : Option CStr) : Option Ref :=
  name.bind fun text => head.find? fun r => (heap r).any fun element => element.uniqueName = text

/-- `loadconfig`, with the list it returns. A file that cannot be opened touches nothing. -/
def loadconfig (d : Daemon) (env : Env) : Option (List Token) → Daemon × List Ref
  | none => (d, [])
  | some tokens =>
      let parsed := yylex env d.scratch.fresh tokens
      let root := List.range' d.next parsed.head.length
      let heap := allocate d.heap d.next parsed.head
      ({ d with
          heap := heap
          next := d.next + parsed.head.length
          parserHead := root
          configedRoot := findObjectByName heap root parsed.root
          scratch := { parsed with shared.sets := [] } },
        root)

def freeTree (heap : Heap) (refs : List Ref) : Heap := fun r => if r ∈ refs then none else heap r

/-! ### Keeping the state of an object -/

/-- What `find_match` compares. -/
def identity (element : Element) : CStr × Option CStr × UInt32 × UInt32 :=
  (element.uniqueName, element.data.hostname, element.data.type, element.data.port)

def hardCopy (old new : HostInfo) : HostInfo :=
  { new with
    uniqueId := old.uniqueId
    lastcheck := old.lastcheck
    downct := old.downct
    upct := old.upct
    contacted := old.contacted
    lastcontacted := old.lastcontacted
    lchecktime := old.lchecktime
    deathtime := old.deathtime
    totalchecked := old.totalchecked
    totaldown := old.totaldown
    lastUp := old.lastUp
    lastRecovery := old.lastRecovery
    acked := old.acked
    lastSnmpResptime := old.lastSnmpResptime
    systemUptime := old.systemUptime
    rttLastMin := old.rttLastMin
    rttLastAvg := old.rttLastAvg
    rttLastMax := old.rttLastMax
    rttLastJitter := old.rttLastJitter
    rttLastReplies := old.rttLastReplies
    rttLastProbes := old.rttLastProbes
    pktlossLastSent := old.pktlossLastSent
    pktlossLastRecv := old.pktlossLastRecv
    lastmsgid := old.lastmsgid.or new.lastmsgid
    notes := old.notes.or new.notes }

def copyInto (old new : Element) : Element := { new with data := hardCopy old.data new.data }

/-- `find_match`: the first new object that is the old one takes its state over. -/
def findMatch (heap : Heap) (matchme : Element) (newtree : List Ref) : Heap :=
  match newtree.find? fun r => (heap r).any fun new => identity new = identity matchme with
  | some r => Function.update heap r ((heap r).map (copyInto matchme))
  | none => heap

def copyAlerts (heap : Heap) (old new : List Ref) : Heap :=
  old.foldl (fun heap r => (heap r).elim heap fun matchme => findMatch heap matchme new) heap

/-! ### `sync_after_sighup` -/

/-- `sync_after_sighup` called on `currenthead`, with the list it returns. -/
def syncAfterSighup (d : Daemon) (env : Env) (file : Option (List Token)) : Daemon × List Ref :=
  let (loaded, newhead) := loadconfig d env file
  if loaded.scratch.badconfig then
    ({ loaded with heap := freeTree loaded.heap newhead }, loaded.currenthead)
  else
    let heap := copyAlerts loaded.heap loaded.currenthead newhead
    ({ loaded with heap := freeTree heap loaded.currenthead }, newhead)

/-- What the main loop makes of a SIGHUP, the queue apart. -/
def Daemon.sighup (d : Daemon) (env : Env) (file : Option (List Token)) : Daemon :=
  let (synced, hupdata) := syncAfterSighup d env file
  { synced with currenthead := hupdata }

/-! ### When the parser objects -/

/-- The one directive that makes a configuration invalid. -/
def objectionable (token : Token) : Bool :=
  token.rule = .sitename && (quoted token.yytext).any fun name => !validSitename name

theorem badconfig_attr (env : Env) (s : Scratch) (attr : Attr) (yytext : CStr) :
    (attr.step env s yytext).badconfig = s.badconfig := by
  cases attr <;> simp only [Attr.step]
  all_goals first | rfl | (split <;> rfl)

theorem badconfig_step (env : Env) (s : Scratch) (token : Token) :
    (token.step env s).badconfig = (s.badconfig || objectionable token) := by
  obtain ⟨rule, yytext⟩ := token
  cases rule with
  | attr attr =>
      have hattr := badconfig_attr env s attr yytext
      simpa [Token.step, objectionable] using hattr
  | sitename =>
      cases hname : quoted yytext with
      | none => simp [Token.step, objectionable, hname]
      | some name => cases hvalid : validSitename name <;> simp [Token.step, objectionable, hname, hvalid]
  | root => cases hname : quoted yytext <;> simp [Token.step, objectionable, hname]
  | close =>
      simp only [Token.step, addObject, objectionable]
      repeat' split
      all_goals simp
  | set | spawns | spawnDef | object => simp [Token.step, objectionable, Scratch.openObject]

/-- `badconfig` is set by what is read and never cleared. -/
theorem badconfig_yylex (env : Env) (s : Scratch) (tokens : List Token) :
    (yylex env s tokens).badconfig = (s.badconfig || tokens.any objectionable) := by
  induction tokens generalizing s with
  | nil => simp [yylex]
  | cons token tokens ih =>
      have hnext : yylex env s (token :: tokens) = yylex env (token.step env s) tokens := rfl
      rw [hnext, ih, badconfig_step, List.any_cons, Bool.or_assoc]

theorem badconfig_loadconfig (d : Daemon) (env : Env) (file : Option (List Token)) :
    (loadconfig d env file).1.scratch.badconfig =
      (d.scratch.badconfig || (file.getD []).any objectionable) := by
  cases file with
  | none => simp [loadconfig]
  | some tokens => exact badconfig_yylex env d.scratch.fresh tokens

/-! ### An accepted reload -/

/-- The new configuration is in force: it was accepted, both lists hold its objects, and the objects
are there, with the names and addresses it gave them. -/
structure Installed (d : Daemon) (parsed : List Element) : Prop where
  accepted : d.scratch.badconfig = false
  lists : d.currenthead = d.parserHead
  objects : d.currenthead.map (fun r => (d.heap r).map identity) = parsed.map fun e => some (identity e)

/-- What the state of an old object does not reach is as the parser has left it. -/
theorem map_findMatch {α : Type} {f : Element → α} (hf : ∀ old new, f (copyInto old new) = f new)
    (heap : Heap) (matchme : Element) (newtree : List Ref) (r : Ref) :
    (findMatch heap matchme newtree r).map f = (heap r).map f := by
  rw [findMatch]
  cases newtree.find? fun r => (heap r).any fun new => identity new = identity matchme with
  | none => rfl
  | some found =>
      by_cases heq : r = found
      · subst heq
        simp only [Function.update_self, Option.map_map]
        exact congrArg (fun g => (heap r).map g) (funext fun new => hf matchme new)
      · simp only [Function.update_of_ne heq]

theorem map_copyAlerts {α : Type} {f : Element → α} (hf : ∀ old new, f (copyInto old new) = f new)
    (heap : Heap) (old new : List Ref) (r : Ref) :
    (copyAlerts heap old new r).map f = (heap r).map f := by
  induction old generalizing heap with
  | nil => rfl
  | cons first old ih =>
      rw [copyAlerts, List.foldl_cons]
      refine (ih _).trans ?_
      cases heap first with
      | none => rfl
      | some matchme => exact map_findMatch hf heap matchme new r

theorem map_allocate (heap : Heap) (next : Ref) (elements : List Element) :
    (List.range' next elements.length).map (allocate heap next elements) = elements.map some := by
  apply List.ext_getElem
  · simp
  · intro i hi _
    have hlen : i < elements.length := by simpa using hi
    simp [allocate, hlen]

section Sighup

variable {d : Daemon} {env : Env} {file : Option (List Token)}

theorem currenthead_loadconfig (d : Daemon) (env : Env) (file : Option (List Token)) :
    (loadconfig d env file).1.currenthead = d.currenthead := by
  cases file <;> rfl

theorem sighup_rejected (h : (loadconfig d env file).1.scratch.badconfig = true) :
    d.sighup env file =
      { (loadconfig d env file).1 with
        heap := freeTree (loadconfig d env file).1.heap (loadconfig d env file).2 } := by
  simp only [Daemon.sighup, syncAfterSighup, h, if_true]

theorem sighup_accepted (h : (loadconfig d env file).1.scratch.badconfig = false) :
    d.sighup env file =
      { (loadconfig d env file).1 with
        heap := freeTree (copyAlerts (loadconfig d env file).1.heap d.currenthead
          (loadconfig d env file).2) d.currenthead
        currenthead := (loadconfig d env file).2 } := by
  simp only [Daemon.sighup, syncAfterSighup, h, Bool.false_eq_true, if_false,
    currenthead_loadconfig]

end Sighup

theorem installed_of_good {d : Daemon} {env : Env} {tokens : List Token}
    (hbad : d.scratch.badconfig = false) (hgood : tokens.any objectionable = false)
    (hold : ∀ r ∈ d.currenthead, r < d.next) :
    Installed (d.sighup env (some tokens)) (yylex env d.scratch.fresh tokens).head := by
  have hclean : (loadconfig d env (some tokens)).1.scratch.badconfig = false := by
    rw [badconfig_loadconfig, hbad, Option.getD_some, hgood]
    rfl
  set parsed := (yylex env d.scratch.fresh tokens).head
  rw [sighup_accepted hclean]
  refine ⟨hclean, rfl, ?_⟩
  -- a new reference is none of the old ones, so it survives
  have hnew : ∀ r ∈ List.range' d.next parsed.length,
      (freeTree (copyAlerts (allocate d.heap d.next parsed) d.currenthead
        (List.range' d.next parsed.length)) d.currenthead r).map identity =
        (allocate d.heap d.next parsed r).map identity := by
    intro r hr
    have hkept : r ∉ d.currenthead := by
      intro hmem
      have hge : d.next ≤ r := (List.mem_range'_1.mp hr).1
      exact absurd (hold r hmem) (Nat.not_lt.mpr hge)
    rw [freeTree, if_neg hkept, map_copyAlerts fun _ _ => rfl]
  calc (List.range' d.next parsed.length).map _
      = (List.range' d.next parsed.length).map fun r =>
          (allocate d.heap d.next parsed r).map identity := List.map_congr_left hnew
    _ = ((List.range' d.next parsed.length).map (allocate d.heap d.next parsed)).map
          (Option.map identity) := by
        rw [List.map_map]
        rfl
    _ = parsed.map fun e => some (identity e) := by
        rw [map_allocate, List.map_map]
        rfl

/-! ### A failed reload -/

/-- The file cannot be opened, or the parser objects to it. -/
def Failed (d : Daemon) (env : Env) (file : Option (List Token)) : Prop :=
  file = none ∨ (loadconfig d env file).1.scratch.badconfig = true

/-- What the three globals refer to. -/
def Daemon.Reaches (d : Daemon) (r : Ref) : Prop :=
  r ∈ d.currenthead ∨ r ∈ d.parserHead ∨ d.configedRoot = some r

/-- Monitoring goes on as it was, and the next good configuration is taken. -/
structure NoOp (before after : Daemon) : Prop where
  currenthead : after.currenthead = before.currenthead
  parserHead : after.parserHead = before.parserHead
  configedRoot : after.configedRoot = before.configedRoot
  live : ∀ r, after.Reaches r → (after.heap r).isSome
  state : ∀ r, after.Reaches r → after.heap r = before.heap r
  later : ∀ env tokens, tokens.any objectionable = false →
    Installed (after.sighup env (some tokens)) (yylex env after.scratch.fresh tokens).head

theorem freeTree_nil (heap : Heap) : freeTree heap [] = heap := by
  funext r
  exact if_neg List.not_mem_nil

/-- Once a reload has been turned down, so is every later one. -/
theorem badconfig_sighup {d : Daemon} {env : Env} {file : Option (List Token)}
    (hbad : d.scratch.badconfig = true) : (d.sighup env file).scratch.badconfig = true := by
  have hload : (loadconfig d env file).1.scratch.badconfig = true := by
    rw [badconfig_loadconfig, hbad, Bool.true_or]
  rw [sighup_rejected hload]
  exact hload

/-- A reload that fails is a no-op exactly when the file could not be opened, no reload before it
was turned down, there is nothing to monitor anyway, and the other two globals are in order. -/
theorem noOp_iff {d : Daemon} {env : Env} {file : Option (List Token)} (hfailed : Failed d env file) :
    NoOp d (d.sighup env file) ↔
      file = none ∧ d.scratch.badconfig = false ∧ d.currenthead = [] ∧
        ∀ r, d.Reaches r → (d.heap r).isSome := by
  -- a file that cannot be opened changes the tree and nothing else
  have hunopened : d.scratch.badconfig = false → d.currenthead = [] → d.sighup env none = d := by
    intro hbad hempty
    have hload : (loadconfig d env none).1.scratch.badconfig = false := hbad
    rw [sighup_accepted hload]
    simp only [loadconfig, hempty, copyAlerts, List.foldl_nil, freeTree_nil]
    rw [← hempty]
  constructor
  · intro h
    have hclean : (loadconfig d env file).1.scratch.badconfig = false := by
      by_contra hbad
      rw [Bool.not_eq_false] at hbad
      have hstays : (d.sighup env file).scratch.badconfig = true := by
        rw [sighup_rejected hbad]
        exact hbad
      have haccepted := (h.later env [] rfl).accepted
      rw [badconfig_sighup hstays] at haccepted
      exact absurd haccepted (by decide)
    have hnone : file = none := hfailed.resolve_right (by simp [hclean])
    subst hnone
    have hempty : d.currenthead = [] := by
      rw [← h.currenthead, sighup_accepted hclean]
      rfl
    have hlive := h.live
    rw [hunopened hclean hempty] at hlive
    exact ⟨rfl, hclean, hempty, hlive⟩
  · rintro ⟨rfl, hbad, hempty, hlive⟩
    rw [hunopened hbad hempty]
    refine ⟨rfl, rfl, rfl, hlive, fun _ _ => rfl, fun env tokens hgood => ?_⟩
    apply installed_of_good hbad hgood
    rw [hempty]
    exact fun r hr => absurd hr List.not_mem_nil

/-! ### A daemon that watches one host -/

/-- A process that has read nothing yet. -/
def Daemon.unstarted : Daemon where
  heap := fun _ => none
  next := 0
  currenthead := []
  parserHead := []
  configedRoot := none
  scratch := Scratch.atStart

def oneHost : List Token :=
  [⟨.root, "root \"gw\";".toList⟩, ⟨.object, "object gw \x7b".toList⟩,
    ⟨.attr (.text .ip), "ip \"10.0.0.1\";".toList⟩, ⟨.attr .type, "type ping;".toList⟩,
    ⟨.close, "\x7d;".toList⟩]

def badSitename : List Token := [⟨.sitename, "config sitename \"a:b\";".toList⟩]

def watchingOne : Daemon := Daemon.unstarted.sighup resolving (some oneHost)

/-- With nothing to monitor, a file that cannot be opened does no harm. -/
theorem noOp_unopened : NoOp (Daemon.unstarted.sighup resolving (some []))
    ((Daemon.unstarted.sighup resolving (some [])).sighup resolving none) := by
  refine (noOp_iff (Or.inl rfl)).mpr ⟨rfl, rfl, rfl, fun r hr => ?_⟩
  obtain hmem | hmem | hroot := hr
  · exact absurd hmem List.not_mem_nil
  · exact absurd hmem List.not_mem_nil
  · have hnone : (Daemon.unstarted.sighup resolving (some [])).configedRoot = none := rfl
    rw [hnone] at hroot
    exact absurd hroot (by simp)

/-- A daemon that watches a host loses it when the file cannot be opened; when the file is rejected,
the list of objects is gone and no later file is ever accepted. -/
theorem failed_reload_not_noOp :
    (Failed watchingOne resolving none ∧
        ¬ NoOp watchingOne (watchingOne.sighup resolving none)) ∧
      Failed watchingOne resolving (some badSitename) ∧
        ¬ NoOp watchingOne (watchingOne.sighup resolving (some badSitename)) := by
  refine ⟨⟨Or.inl rfl, fun h => ?_⟩, Or.inr (by decide), fun h => ?_⟩
  · exact absurd h.currenthead (by decide)
  · exact absurd h.parserHead (by decide)

end Sysmon.Reload
