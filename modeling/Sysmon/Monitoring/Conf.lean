import Mathlib.Data.List.AList
import Mathlib.Data.UInt
import Sysmon.Lib.GoMap
import Sysmon.Lib.Run
import Sysmon.Monitoring.Reply
import Sysmon.Srvclient.Changes
import Sysmon.Srvclient.Object

/-!
# Fetching the objects

The server holds what it knows of each daemon's objects in a cache and asks only for what moved since the
last number it knows (`fetchAllObjectsXML`). What is gone it notices by the number of objects, and then it
asks for everything; it also does so once a minute, and after the daemon has dialled in again. Between the
answer and its storing the connection may be made anew (`adoptAgent`) and the cache forgotten
(`forgetHosts`). What is not modelled is how the text of an object is decoded: `unmarshal` is any function.
-/

namespace Sysmon.Monitoring

open CText GoText
open Srvclient (wire endTag CheckEntry Daemon DaemonEvent Tree seen sendConf confBody confStatus changedSince)

/-- What the server keeps of an object. -/
structure XmlObject where
  object : List Char
  state : Int64
  contacted : Int64
  acked : Int64
  notes : List Char
  deriving DecidableEq, Repr

/-- An object as it is to be shown. -/
def shown (obj : Element) : XmlObject where
  object := obj.uniqueName
  state := obj.data.lastcheck.toInt32.toInt64
  contacted := if obj.data.contacted then 1 else 0
  acked := if obj.data.acked then 1 else 0
  notes := obj.data.notes.getD []

/-! ### The answer -/

/-- The text since the last object, and the objects. -/
structure ConfReading where
  block : List Char
  objs : List XmlObject
  deriving DecidableEq, Repr

def ConfReading.start : ConfReading := ⟨[], []⟩

def objectEnd : List Char := endTag "ObjectStatus".toList

section reading

variable (unmarshal : List Char → Option XmlObject)

def ConfReading.line (r : ConfReading) (line : List Char) : ConfReading :=
  let block := r.block ++ line
  if objectEnd <:+: line then { block := [], objs := r.objs ++ (unmarshal block).toList }
  else { r with block := block }

/-- What is read of an answer, from what comes between its newlines: the objects, and the first and the third
number of the status. -/
def readConf (pieces : List (List Char)) : Option (List XmlObject × UInt64 × UInt64) :=
  (readReply (ConfReading.line unmarshal) ConfReading.start pieces).map fun got =>
    (got.1.objs, parseSeqField got.2 1, parseSeqField got.2 3)

end reading

/-! ### The client -/

abbrev HostCache := AList fun _ : List Char => XmlObject

structure ConfClient where
  confSeq : UInt64
  hostCache : Option HostCache
  /-- In nanoseconds; none is the zero time. -/
  fullResyncAt : Option Int64

def ConfClient.start : ConfClient := ⟨0, none, none⟩

def fullResyncEvery : Int64 := 60 * 1000000000

/-- What is asked for: everything, when nothing is held or that was asked for too long ago. -/
def ConfClient.since (c : ConfClient) (now : Int64) : UInt64 :=
  if c.hostCache.isNone || c.fullResyncAt.all (fun at' => fullResyncEvery < now - at') then 0 else c.confSeq

/-- An answer that has been read, to the request that went out with `since`. -/
structure ConfAnswer where
  since : UInt64
  objs : List XmlObject
  daemonSeq : UInt64
  daemonTotal : UInt64
  deriving DecidableEq, Repr

/-- With what the loop has read: the objects and the two numbers. -/
def ConfAnswer.read (since : UInt64) (got : List XmlObject × UInt64 × UInt64) : ConfAnswer :=
  ⟨since, got.1, got.2.1, got.2.2⟩

def ConfClient.merge (c : ConfClient) (a : ConfAnswer) (now : Int64) : ConfClient :=
  let (cache, resynced) := match c.hostCache with
    | none => (∅, some now)
    | some cache => if a.since = 0 then (∅, some now) else (cache, c.fullResyncAt)
  let (cache, resynced) := if a.daemonSeq < c.confSeq then (∅, none) else (cache, resynced)
  let cache := GoMap.insertAll XmlObject.object a.objs cache
  { confSeq := a.daemonSeq
    hostCache := some cache
    fullResyncAt := if 0 < a.daemonTotal ∧ cache.keys.length ≠ a.daemonTotal.toNat then none else resynced }

/-- `adoptAgent`, on a daemon that is known. -/
def ConfClient.adopt (c : ConfClient) : ConfClient := { c with confSeq := 0, hostCache := none }

def ConfClient.forgetHosts (_ : ConfClient) : ConfClient := ConfClient.start

/-! ### Daemon and client -/

/-- An answer on its way into the cache: the run of the daemon that gave it and what there was to show, and
whether that is still so. -/
structure ConfPending where
  run : Nat
  answer : ConfAnswer
  had : List XmlObject
  calm : Bool

structure ConfState where
  run : Nat
  daemon : Daemon
  client : ConfClient
  pending : Option ConfPending
  /-- The run of the daemon that the cache is from. -/
  cacheRun : Nat
  /-- The polls that have been stored since there last was something new to show. Of those before a new
  connection only one counts. -/
  calm : Nat

def ConfState.start : ConfState where
  run := 0
  daemon := ⟨[], 0⟩
  client := ConfClient.start
  pending := none
  cacheRun := 0
  calm := 0

inductive ConfEvent where
  | daemon (e : DaemonEvent)
  | restart (tree : Tree)
  | reconnect
  | forget
  /-- The connection breaks after so many characters of the answer, if it has more. -/
  | answer (authlvl : Int32) (queue : CStr → Option CheckEntry) (now : Int64) (received : Nat)
  | store (now : Int64)

/-- All there is to show. -/
def toShow (d : Daemon) : List XmlObject := d.objects.map shown

/-- What the daemon sends to a client that asks for what moved since. -/
def sentConf (authlvl : Int32) (queue : CStr → Option CheckEntry) (d : Daemon) (since : UInt64) : List Char :=
  wire (sendConf authlvl d.objects d.globChangeSeq queue (parseSince (request since)))

section system

variable (unmarshal : List Char → Option XmlObject) (donotify : Bool)

/-- The answer as far as it is received. -/
def heardConf (authlvl : Int32) (queue : CStr → Option CheckEntry) (d : Daemon) (since : UInt64) (received : Nat) :
    Option ConfAnswer :=
  (readConf unmarshal (((sentConf authlvl queue d since).take received).splitOn '\n')).map (ConfAnswer.read since)

def confStep (s : ConfState) : ConfEvent → ConfState
  | .daemon e =>
      let daemon := s.daemon.step donotify e
      if toShow daemon = toShow s.daemon then { s with daemon := daemon }
      else
        { s with
          daemon := daemon
          pending := s.pending.map fun p => { p with calm := false }
          calm := 0 }
  | .restart tree =>
      { s with
        run := s.run + 1
        daemon := Daemon.boot tree
        pending := s.pending.map fun p => { p with calm := false }
        calm := 0 }
  | .reconnect => { s with client := s.client.adopt, calm := min s.calm 1 }
  | .forget => { s with client := s.client.forgetHosts, calm := min s.calm 1 }
  | .answer authlvl queue now received =>
      if s.pending.isSome then s
      else
        { s with
          pending := (heardConf unmarshal authlvl queue s.daemon (s.client.since now) received).map fun a =>
            ⟨s.run, a, toShow s.daemon, true⟩ }
  | .store now =>
      match s.pending with
      | none => s
      | some p =>
          { s with
            client := s.client.merge p.answer now
            pending := none
            cacheRun := p.run
            calm := if p.calm then s.calm + 1 else 0 }

end system

/-- After two polls the cache holds the daemon's objects as they are to be shown. -/
def Converged (s : ConfState) : Prop :=
  2 ≤ s.calm → ∃ cache, s.client.hostCache = some cache ∧ GoMap.Indexes XmlObject.object cache (toShow s.daemon)

/-! ### Reading an answer -/

section reading

variable {unmarshal : List Char → Option XmlObject}

theorem line_open {text : List Char} (h : Srvclient.Open text) (r : ConfReading) :
    r.line unmarshal (sentLine text) = { r with block := r.block ++ sentLine text } := by
  have hend : ¬objectEnd <:+: sentLine text :=
    fun hin => h.noEnd (infix_of_infix_sentLine (by decide) (by decide) (by decide) hin)
  rw [ConfReading.line, if_neg hend]

theorem lines_open {lines : List (List Char)} (h : ∀ text ∈ lines, Srvclient.Open text) (r : ConfReading) :
    takeLines (ConfReading.line unmarshal) r lines = { r with block := r.block ++ wire lines } := by
  induction lines generalizing r with
  | nil => simp [wire_eq]
  | cons text lines ih =>
      rw [takeLines_cons, line_open (h text List.mem_cons_self), ih fun t ht => h t (List.mem_cons_of_mem _ ht)]
      simp [wire_eq]

/-- An object is decoded from its own lines. -/
theorem lines_object (obj : Element) (qent : Option CheckEntry) {r : ConfReading} (hblock : r.block = []) :
    takeLines (ConfReading.line unmarshal) r (Srvclient.sendObjectXml true obj qent) =
      ⟨[], r.objs ++ (unmarshal (wire (Srvclient.sendObjectXml true obj qent))).toList⟩ := by
  obtain ⟨lines, heq, hopen⟩ := Srvclient.sendObjectXml_lines true obj qent
  have hend : objectEnd <:+: sentLine (endTag "ObjectStatus".toList) := by decide
  rw [heq, takeLines_append, lines_open hopen, takeLines_cons, takeLines_nil, ConfReading.line, if_pos hend, hblock]
  simp [wire_eq]

theorem lines_objects (queue : CStr → Option CheckEntry) (objects : List Element) {r : ConfReading}
    (hblock : r.block = []) :
    (takeLines (ConfReading.line unmarshal) r
      (objects.flatMap fun obj => Srvclient.sendObjectXml true obj (queue obj.uniqueName))).objs =
    r.objs ++ objects.flatMap fun obj =>
      (unmarshal (wire (Srvclient.sendObjectXml true obj (queue obj.uniqueName)))).toList := by
  induction objects generalizing r with
  | nil => simp
  | cons obj objects ih =>
      rw [List.flatMap_cons, takeLines_append, lines_object obj _ hblock, ih rfl, List.flatMap_cons, List.append_assoc]

end reading

/-! ### What is heard -/

section heard

variable (unmarshal : List Char → Option XmlObject) {authlvl : Int32} (queue : CStr → Option CheckEntry) (d : Daemon)
  (since : UInt64) {received : Nat}

/-- What an answer has before its status. -/
def confLength : Nat := (wire (confBody d.objects queue since)).length

/-- The last line, without its end. -/
def confStatusText : List Char :=
  statusText d.globChangeSeq (UInt64.ofNat (changedSince d.objects since).length)
    (showNat (UInt64.ofNat d.objects.length).toNat)

theorem newline_not_mem_confStatusText : '\n' ∉ confStatusText d since :=
  newline_not_mem_statusText _ _ (not_mem_showNat (by decide) _)

theorem confStatus_eq : Srvclient.snprintf Srvclient.tempbufSize (confStatus d.objects d.globChangeSeq since) =
    confStatusText d since := by
  have hglob := length_showNat_le d.globChangeSeq
  have hsent := length_showNat_le (UInt64.ofNat (changedSince d.objects since).length)
  have htotal := length_showNat_le (UInt64.ofNat d.objects.length)
  have hline : confStatus d.objects d.globChangeSeq since = confStatusText d since :=
    statusText_of_word (by decide) _ _ _
  rw [hline]
  refine List.take_of_length_le ?_
  simp only [confStatusText, statusText, List.length_append, List.length_cons]
  change 3 + (_ + (_ + _ + 1) + 1) ≤ 1023
  omega

/-- A client without permission gets nothing, wherever the answer breaks. -/
theorem heardConf_refused (h : authlvl ≤ 0) (received : Nat) :
    heardConf unmarshal authlvl queue d since received = none := by
  have hbroken : ∀ k : Nat, readReply (ConfReading.line unmarshal) ConfReading.start
      (((sentLine "444 Permission Denied".toList).take k).splitOn '\n') = none := by
    intro k
    rw [readReply_status (by decide)]
    have hline : ∀ k < 23, replyLine ((sentLine "444 Permission Denied".toList).take k) = .data ∨
        replyLine ((sentLine "444 Permission Denied".toList).take k) = .refused := by decide
    by_cases hk : k < 23
    · obtain hdata | hrefused := hline k hk
      · rw [hdata]
        rfl
      · rw [hrefused]
        rfl
    · have hwhole : (sentLine "444 Permission Denied".toList).take k = sentLine "444 Permission Denied".toList :=
        List.take_of_length_le (Nat.not_lt.mp hk)
      have hrefused : replyLine (sentLine "444 Permission Denied".toList) = .refused := by decide
      rw [hwhole, hrefused]
      rfl
  have hsent : sentConf authlvl queue d since = sentLine "444 Permission Denied".toList := by
    rw [sentConf, sendConf, if_pos h, wire_eq]
    rfl
  rw [heardConf, hsent, readConf, hbroken]
  rfl

/-- An answer that breaks before its status fails. -/
theorem heardConf_broken (hauth : ¬authlvl ≤ 0) (h : received < confLength queue d since + 3) :
    heardConf unmarshal authlvl queue d since received = none := by
  rw [heardConf, sentConf, parseSince_request, readConf, sendConf, if_neg hauth, confStatus_eq,
    readReply_take (Srvclient.isLine_confBody _ _ _) (newline_not_mem_confStatusText d since)]
  rw [confLength] at h
  split
  · rfl
  · rw [confStatusText, replyLine_short _ _ _ (by omega)]
    rfl

/-- Otherwise there are the objects that can be decoded, and the numbers that are left of the status. -/
theorem heardConf_eq (hauth : ¬authlvl ≤ 0) (h : confLength queue d since + 3 ≤ received) :
    heardConf unmarshal authlvl queue d since received =
      some ⟨since, (changedSince d.objects since).flatMap fun obj =>
          (unmarshal (wire (Srvclient.sendObjectXml true obj (queue obj.uniqueName)))).toList,
        uintField ((sentLine (confStatusText d since)).take (received - confLength queue d since)) 1,
        uintField ((sentLine (confStatusText d since)).take (received - confLength queue d since)) 3⟩ := by
  rw [confLength] at h
  rw [heardConf, sentConf, parseSince_request, readConf, sendConf, if_neg hauth, confStatus_eq,
    readReply_take (Srvclient.isLine_confBody _ _ _) (newline_not_mem_confStatusText d since),
    if_neg (by omega), confStatusText, replyLine_status _ _ _ (by omega), ReplyLine.ends, Option.map_some, Option.map_some,
    parseSeqField_trimSpace, parseSeqField_trimSpace, confBody, lines_objects queue _ rfl]
  rfl

end heard

/-! ### The condition -/

section condition

variable (unmarshal : List Char → Option XmlObject)

/-- The answer breaks before its status, or it is refused. -/
def ConfLost (authlvl : Int32) (queue : CStr → Option CheckEntry) (d : Daemon) (since : UInt64) (received : Nat) : Prop :=
  authlvl ≤ 0 ∨ received < confLength queue d since + 3

/-- The answer to a question for changes: its status comes whole, the daemon is the one that the cache is from
or is seen not to be, and there is something to count where something is held. -/
structure Increment (queue : CStr → Option CheckEntry) (s : ConfState) (since : UInt64) (received : Nat) : Prop where
  whole : confLength queue s.daemon since + (confStatusText s.daemon since).length ≤ received
  run : s.cacheRun = s.run ∨ s.daemon.globChangeSeq < s.client.confSeq
  total : s.daemon.objects ≠ [] ∨ s.daemon.globChangeSeq < s.client.confSeq ∨
    ∀ cache ∈ s.client.hostCache, GoMap.Indexes XmlObject.object cache []

/-- What is sent can be decoded, and everything was asked for or the answer is one to go on from. -/
def Heard (queue : CStr → Option CheckEntry) (s : ConfState) (since : UInt64) (received : Nat) : Prop :=
  (∀ obj ∈ changedSince s.daemon.objects since,
    unmarshal (wire (Srvclient.sendObjectXml true obj (queue obj.uniqueName))) = some (shown obj)) ∧
  (since = 0 ∨ Increment queue s since received)

/-- What a step of daemon or client has to be like: the daemon counts what it changes, a poll fails or is heard,
and no cache has been forgotten under an answer that has only changes, when that is the poll that counts. -/
def ConfGuard (s : ConfState) : ConfEvent → Prop
  | .daemon e => e.Counted s.daemon
  | .restart tree => tree.objects.length < 2 ^ 64
  | .reconnect => True
  | .forget => True
  | .answer authlvl queue now received =>
      s.pending = none → ConfLost authlvl queue s.daemon (s.client.since now) received ∨
        Heard unmarshal queue s (s.client.since now) received
  | .store _ => ∀ p ∈ s.pending, s.client.hostCache.isSome ∨ p.answer.since = 0 ∨ p.calm = false ∨ s.calm = 0 ∨
      s.daemon.objects = []

end condition

/-! ### The invariant -/

/-- An answer on its way. -/
structure ConfPending.Right (s : ConfState) (p : ConfPending) : Prop where
  run : p.run ≤ s.run
  names : (p.had.map XmlObject.object).Nodup
  sub : p.answer.objs.Sublist p.had
  all : p.answer.since = 0 → p.answer.objs = p.had
  total : p.answer.since ≠ 0 → p.answer.daemonTotal.toNat = p.had.length
  /-- What has not been stamped since was there to show. -/
  seq : p.run = s.run → p.answer.daemonSeq ≤ s.daemon.globChangeSeq ∧
    ∀ obj ∈ s.daemon.objects, obj.data.changeSeq ≤ p.answer.daemonSeq → shown obj ∈ p.had
  calm : p.calm = true → p.run = s.run ∧ p.had = toShow s.daemon
  /-- What is not in an answer with changes is in the cache, as long as there is one. -/
  held : p.answer.since ≠ 0 → ∀ cache ∈ s.client.hostCache, ¬p.answer.daemonSeq < s.client.confSeq →
    s.client.fullResyncAt.isSome → ∀ o ∈ p.had, o ∈ p.answer.objs ∨ cache.lookup o.object = some o
  /-- Nothing is left in the cache of a daemon without objects. -/
  empty : p.answer.since ≠ 0 → ∀ cache ∈ s.client.hostCache, ¬p.answer.daemonSeq < s.client.confSeq →
    p.had = [] → GoMap.Indexes XmlObject.object cache []
  converged : p.answer.since ≠ 0 → p.calm = true → 1 ≤ s.calm → ∀ cache ∈ s.client.hostCache,
    ¬p.answer.daemonSeq < s.client.confSeq ∧ GoMap.Indexes XmlObject.object cache p.had

/-- What holds of daemon and client in every run whose steps meet the condition. -/
structure ConfInv (s : ConfState) : Prop where
  stamps : s.daemon.Stamps
  runs : s.cacheRun ≤ s.run
  /-- The cache has what has not been stamped since, unless it is about to be fetched anew. -/
  held : s.cacheRun = s.run → ∀ cache ∈ s.client.hostCache, s.client.fullResyncAt.isSome →
    ∀ obj ∈ s.daemon.objects, obj.data.changeSeq ≤ s.client.confSeq → cache.lookup obj.uniqueName = some (shown obj)
  seq : s.cacheRun = s.run → s.client.confSeq ≤ s.daemon.globChangeSeq
  pending : ∀ p ∈ s.pending, p.Right s
  calmRun : 1 ≤ s.calm → s.cacheRun = s.run
  /-- After one poll the cache is right or is fetched anew by the next. -/
  first : 1 ≤ s.calm → ∀ cache ∈ s.client.hostCache, s.client.fullResyncAt.isSome →
    GoMap.Indexes XmlObject.object cache (toShow s.daemon)
  converged : Converged s

theorem ConfInv.start : ConfInv ConfState.start where
  stamps := ⟨List.nodup_nil, by decide, fun _ h => absurd h List.not_mem_nil⟩
  runs := Nat.le_refl 0
  held := fun _ _ h => nomatch h
  seq := fun _ => UInt64.le_refl 0
  pending := fun _ h => nomatch h
  calmRun := fun _ => rfl
  first := fun h => absurd h (by decide)
  converged := fun h => absurd h (by decide)

/-! ### Merging -/

section merge

variable {s : ConfState} {p : ConfPending} {c : ConfClient} {a : ConfAnswer} {now : Int64}

/-- What the objects of an answer are put into. -/
def ConfClient.base (c : ConfClient) (a : ConfAnswer) : HostCache :=
  if a.daemonSeq < c.confSeq ∨ a.since = 0 then ∅ else c.hostCache.getD ∅

/-- The cache after an answer. -/
def ConfClient.merged (c : ConfClient) (a : ConfAnswer) : HostCache := GoMap.insertAll XmlObject.object a.objs (c.base a)

theorem merge_hostCache (c : ConfClient) (a : ConfAnswer) (now : Int64) :
    (c.merge a now).hostCache = some (c.merged a) := by
  obtain ⟨seq, cache, at'⟩ := c
  rw [ConfClient.merged, ConfClient.base]
  by_cases hback : a.daemonSeq < seq <;> by_cases hsince : a.since = 0 <;> cases cache <;>
    simp only [ConfClient.merge, hback, hsince, if_true, if_false, or_true, true_or, or_self, Option.getD_none,
      Option.getD_some]

/-- A cache that is not to be fetched anew: the counter has not gone back and the numbers are the same. -/
theorem merge_resynced (h : (c.merge a now).fullResyncAt.isSome) : ¬a.daemonSeq < c.confSeq ∧
    (0 < a.daemonTotal → (c.merged a).keys.length = a.daemonTotal.toNat) ∧
    (a.since ≠ 0 → c.hostCache.isSome → c.fullResyncAt.isSome) := by
  have hat : (c.merge a now).fullResyncAt =
      if 0 < a.daemonTotal ∧ (c.merged a).keys.length ≠ a.daemonTotal.toNat then none
      else if a.daemonSeq < c.confSeq then none
      else if a.since = 0 ∨ c.hostCache = none then some now else c.fullResyncAt := by
    obtain ⟨seq, cache, at'⟩ := c
    rw [ConfClient.merged, ConfClient.base]
    by_cases hback : a.daemonSeq < seq <;> by_cases hsince : a.since = 0 <;> cases cache <;>
      simp only [ConfClient.merge, hback, hsince, if_true, if_false, or_true, true_or, or_self, Option.getD_none,
        Option.getD_some, reduceCtorEq]
  rw [hat] at h
  by_cases hcount : 0 < a.daemonTotal ∧ (c.merged a).keys.length ≠ a.daemonTotal.toNat
  · rw [if_pos hcount] at h
    exact nomatch h
  · by_cases hback : a.daemonSeq < c.confSeq
    · rw [if_neg hcount, if_pos hback] at h
      exact nomatch h
    · rw [if_neg hcount, if_neg hback] at h
      refine ⟨hback, fun hpos => by_contra fun hne => hcount ⟨hpos, hne⟩, fun hsince hsome => ?_⟩
      rw [if_neg] at h
      · exact h
      · rintro (hzero | hnone)
        · exact hsince hzero
        · rw [hnone] at hsome
          exact nomatch hsome

theorem merged_all (h : p.Right s) (hsince : p.answer.since = 0) :
    GoMap.Indexes XmlObject.object (s.client.merged p.answer) p.had := by
  rw [ConfClient.merged, ConfClient.base, if_pos (Or.inr hsince), h.all hsince]
  exact GoMap.Indexes.of_empty h.names

/-- An object that was in the cache or has come is there. -/
theorem lookup_merged (h : p.Right s) {o : XmlObject} (ho : o ∈ p.had)
    (hheld : o ∈ p.answer.objs ∨ (s.client.base p.answer).lookup o.object = some o) :
    (s.client.merged p.answer).lookup o.object = some o := by
  have hnames : (p.answer.objs.map XmlObject.object).Nodup := h.names.sublist (h.sub.map XmlObject.object)
  rw [ConfClient.merged, GoMap.lookup_insertAll hnames]
  cases hfind : p.answer.objs.find? fun other => other.object = o.object with
  | none =>
      obtain hmem | hlookup := hheld
      · exact absurd (decide_eq_true rfl) (List.find?_eq_none.mp hfind o hmem)
      · exact hlookup
  | some other =>
      obtain ⟨hmem, hname⟩ := (GoMap.find?_key_iff hnames).mp hfind
      rw [List.inj_on_of_nodup_map h.names (h.sub.subset hmem) ho hname]
      rfl

/-- A cache that is not to be fetched anew is what the daemon had. -/
theorem merged_resynced (h : p.Right s) (hresynced : (s.client.merge p.answer now).fullResyncAt.isSome) :
    GoMap.Indexes XmlObject.object (s.client.merged p.answer) p.had := by
  obtain ⟨hback, hcount, hbefore⟩ := merge_resynced hresynced
  by_cases hsince : p.answer.since = 0
  · exact merged_all h hsince
  · have htotal := h.total hsince
    have hnone : ¬0 < p.answer.daemonTotal → p.had = [] := by
      intro hzero
      rw [UInt64.lt_iff_toNat_lt, Nat.not_lt] at hzero
      exact List.eq_nil_of_length_eq_zero (htotal.symm.trans (Nat.le_zero.mp hzero))
    have hbase : s.client.base p.answer = s.client.hostCache.getD ∅ := if_neg (not_or.mpr ⟨hback, hsince⟩)
    cases hcache : s.client.hostCache with
    | none =>
        rw [hcache] at hbase
        have hobjs : GoMap.Indexes XmlObject.object (s.client.merged p.answer) p.answer.objs := by
          rw [ConfClient.merged, hbase]
          exact GoMap.Indexes.of_empty (h.names.sublist (h.sub.map XmlObject.object))
        have hlength := hobjs.length_keys (h.names.sublist (h.sub.map XmlObject.object))
        have hall : p.answer.objs = p.had := by
          by_cases hpos : 0 < p.answer.daemonTotal
          · exact h.sub.eq_of_length (by rw [← hlength, hcount hpos, htotal])
          · have hsub := h.sub
            rw [hnone hpos] at hsub ⊢
            exact List.sublist_nil.mp hsub
        rw [← hall]
        exact hobjs
    | some cache =>
        rw [hcache] at hbase
        have hsome := hbefore hsince (by rw [hcache]; rfl)
        by_cases hpos : 0 < p.answer.daemonTotal
        · refine GoMap.Indexes.of_length h.names (fun o ho => lookup_merged h ho ?_) ?_
          · rw [hbase]
            exact h.held hsince cache hcache hback hsome o ho
          · rw [hcount hpos, htotal]
        · have hempty := h.empty hsince cache hcache hback (hnone hpos)
          have hsub := h.sub
          rw [hnone hpos] at hsub ⊢
          rw [ConfClient.merged, List.sublist_nil.mp hsub, hbase]
          exact hempty

/-- The second poll leaves the cache right. -/
theorem merged_converged (h : p.Right s) (hguard : s.client.hostCache.isSome ∨ p.answer.since = 0 ∨ p.calm = false ∨
    s.calm = 0 ∨ s.daemon.objects = []) (hcalm : p.calm = true) (hfirst : 1 ≤ s.calm) :
    GoMap.Indexes XmlObject.object (s.client.merged p.answer) p.had := by
  by_cases hsince : p.answer.since = 0
  · exact merged_all h hsince
  · cases hcache : s.client.hostCache with
    | none =>
        have hnone : p.had = [] := by
          rw [hcache] at hguard
          obtain hsome | hzero | hno | hno | hobjects := hguard
          · exact nomatch hsome
          · exact absurd hzero hsince
          · rw [hcalm] at hno
            exact nomatch hno
          · omega
          · rw [(h.calm hcalm).2, toShow, hobjects, List.map_nil]
        have hbase : s.client.base p.answer = ∅ := by
          rw [ConfClient.base, hcache, Option.getD_none, ite_self]
        have hsub := h.sub
        rw [hnone] at hsub ⊢
        rw [ConfClient.merged, List.sublist_nil.mp hsub, hbase]
        exact GoMap.Indexes.empty
    | some cache =>
        obtain ⟨hback, hindexes⟩ := h.converged hsince hcalm hfirst cache hcache
        have hbase : s.client.base p.answer = cache := by
          rw [ConfClient.base, if_neg (not_or.mpr ⟨hback, hsince⟩), hcache, Option.getD_some]
        rw [ConfClient.merged, hbase]
        exact hindexes.insertAll h.names h.sub

end merge

/-! ### One step -/

section step

variable {unmarshal : List Char → Option XmlObject} {donotify : Bool} {s : ConfState} {p : ConfPending}

theorem shown_congr {old obj : Element} (hname : old.uniqueName = obj.uniqueName) (hseen : seen old.data = seen obj.data) :
    shown old = shown obj := by
  simp only [seen, Prod.mk.injEq] at hseen
  obtain ⟨hlastcheck, hcontacted, hacked, hnotes⟩ := hseen
  rw [shown, shown, hname, hlastcheck, hcontacted, hacked, hnotes]

theorem names_toShow (d : Daemon) : (toShow d).map XmlObject.object = d.objects.map Element.uniqueName := by
  rw [toShow, List.map_map]
  rfl

/-- An answer outlives what happens to the daemon. -/
theorem right_daemon (h : p.Right s) {e : DaemonEvent} (hcounted : e.Counted s.daemon) {calm : Nat} {quiet : Bool}
    (hcalm : 1 ≤ calm → 1 ≤ s.calm)
    (hquiet : quiet = true → p.calm = true ∧ toShow (s.daemon.step donotify e) = toShow s.daemon)
    (pending : Option ConfPending) : ConfPending.Right
      { s with daemon := s.daemon.step donotify e, pending := pending, calm := calm } { p with calm := quiet } where
  run := h.run
  names := h.names
  sub := h.sub
  all := h.all
  total := h.total
  seq := by
    intro hrun
    obtain ⟨hle, hthere⟩ := h.seq hrun
    refine ⟨UInt64.le_trans hle (Srvclient.step_glob hcounted), fun obj hobj hseq => ?_⟩
    obtain ⟨old, hold, hname, hseen, hstamp⟩ | ⟨hnew, -⟩ := Srvclient.step_objects hcounted hobj
    · rw [← shown_congr hname hseen]
      exact hthere old hold (by rw [hstamp]; exact hseq)
    · exact absurd (UInt64.lt_of_lt_of_le hnew (UInt64.le_trans hseq hle)) (UInt64.lt_irrefl _)
  calm := fun hq => ⟨(h.calm (hquiet hq).1).1, (h.calm (hquiet hq).1).2.trans (hquiet hq).2.symm⟩
  held := h.held
  empty := h.empty
  converged := fun hsince hq hc => h.converged hsince (hquiet hq).1 (hcalm hc)

/-- What happens to the daemon leaves what the cache has. -/
theorem held_daemon (hinv : ConfInv s) {e : DaemonEvent} (hcounted : e.Counted s.daemon) (hrun : s.cacheRun = s.run)
    {cache : HostCache} (hcache : cache ∈ s.client.hostCache) (hresynced : s.client.fullResyncAt.isSome) {obj : Element}
    (hobj : obj ∈ (s.daemon.step donotify e).objects) (hseq : obj.data.changeSeq ≤ s.client.confSeq) :
    cache.lookup obj.uniqueName = some (shown obj) := by
  obtain ⟨old, hold, hname, hseen, hstamp⟩ | ⟨hnew, -⟩ := Srvclient.step_objects hcounted hobj
  · rw [← hname, ← shown_congr hname hseen]
    exact hinv.held hrun cache hcache hresynced old hold (by rw [hstamp]; exact hseq)
  · exact absurd (UInt64.lt_of_lt_of_le hnew (UInt64.le_trans hseq (hinv.seq hrun))) (UInt64.lt_irrefl _)

theorem inv_daemon (hinv : ConfInv s) {e : DaemonEvent} (hcounted : e.Counted s.daemon) :
    ConfInv (confStep unmarshal donotify s (.daemon e)) := by
  have hstamps : (s.daemon.step donotify e).Stamps := Srvclient.step_stamps hinv.stamps hcounted
  have hseq : s.cacheRun = s.run → s.client.confSeq ≤ (s.daemon.step donotify e).globChangeSeq :=
    fun hrun => UInt64.le_trans (hinv.seq hrun) (Srvclient.step_glob hcounted)
  rw [confStep]
  split
  next hsame =>
    refine ⟨hstamps, hinv.runs, fun hrun cache hcache hresynced obj hobj hle =>
      held_daemon hinv hcounted hrun hcache hresynced hobj hle, hseq, fun p hp => ?_, hinv.calmRun, ?_, ?_⟩
    · exact right_daemon (hinv.pending p hp) hcounted id (fun hq => ⟨hq, hsame⟩) _
    · dsimp only
      rw [hsame]
      exact hinv.first
    · rw [Converged, hsame]
      exact hinv.converged
  next =>
    refine ⟨hstamps, hinv.runs, fun hrun cache hcache hresynced obj hobj hle =>
      held_daemon hinv hcounted hrun hcache hresynced hobj hle, hseq, fun p hp => ?_,
      fun h => absurd h (Nat.not_succ_le_zero 0), fun h => absurd h (Nat.not_succ_le_zero 0),
      fun h => absurd h (Nat.not_succ_le_zero 1)⟩
    obtain ⟨before, hbefore, rfl⟩ := Option.mem_map.mp hp
    exact right_daemon (hinv.pending before hbefore) hcounted (fun h => absurd h (Nat.not_succ_le_zero 0))
      (fun h => absurd h Bool.false_ne_true) _

theorem inv_restart (hinv : ConfInv s) {tree : Tree} (hroom : tree.objects.length < 2 ^ 64) :
    ConfInv (confStep unmarshal donotify s (.restart tree)) := by
  have hother : s.cacheRun ≠ s.run + 1 := fun heq => absurd hinv.runs (by omega)
  refine ⟨Srvclient.stamps_boot hroom, Nat.le_succ_of_le hinv.runs, fun hrun => absurd hrun hother,
    fun hrun => absurd hrun hother, fun p hp => ?_, fun h => absurd h (Nat.not_succ_le_zero 0),
    fun h => absurd h (Nat.not_succ_le_zero 0), fun h => absurd h (Nat.not_succ_le_zero 1)⟩
  obtain ⟨before, hbefore, rfl⟩ := Option.mem_map.mp hp
  have hright := hinv.pending before hbefore
  refine ⟨Nat.le_succ_of_le hright.run, hright.names, hright.sub, hright.all, hright.total, fun hrun => ?_,
    fun h => absurd h Bool.false_ne_true, hright.held, hright.empty, fun _ h => absurd h Bool.false_ne_true⟩
  exact absurd (show before.run = s.run + 1 from hrun) (by have := hright.run; omega)

/-- Without a cache nothing is held against an answer. -/
theorem inv_forgotten (hinv : ConfInv s) {client : ConfClient} (hcache : client.hostCache = none)
    (hseq : client.confSeq = 0) : ConfInv { s with client := client, calm := min s.calm 1 } where
  stamps := hinv.stamps
  runs := hinv.runs
  held := by
    intro _ cache hmem
    rw [hcache] at hmem
    exact nomatch hmem
  seq := by
    intro _
    rw [hseq]
    exact UInt64.zero_le
  pending := by
    intro p hp
    have hright := hinv.pending p hp
    refine ⟨hright.run, hright.names, hright.sub, hright.all, hright.total, hright.seq, hright.calm, ?_, ?_, ?_⟩
    · intro _ cache hmem
      rw [hcache] at hmem
      exact nomatch hmem
    · intro _ cache hmem
      rw [hcache] at hmem
      exact nomatch hmem
    · intro _ _ _ cache hmem
      rw [hcache] at hmem
      exact nomatch hmem
  calmRun := fun h => hinv.calmRun (Nat.le_trans h (Nat.min_le_left _ _))
  first := by
    intro _ cache hmem
    rw [hcache] at hmem
    exact nomatch hmem
  converged := fun h => absurd (Nat.le_trans h (Nat.min_le_right _ _)) (by decide)

end step

section step

variable {unmarshal : List Char → Option XmlObject} {donotify : Bool} {s : ConfState} {p : ConfPending}

/-- What has changed, decoded. -/
theorem decoded_changed {queue : CStr → Option CheckEntry} {objects : List Element}
    (h : ∀ obj ∈ objects, unmarshal (wire (Srvclient.sendObjectXml true obj (queue obj.uniqueName))) = some (shown obj)) :
    (objects.flatMap fun obj => (unmarshal (wire (Srvclient.sendObjectXml true obj (queue obj.uniqueName)))).toList) =
      objects.map shown := by
  induction objects with
  | nil => rfl
  | cons obj objects ih =>
      rw [List.flatMap_cons, h obj List.mem_cons_self, ih fun o ho => h o (List.mem_cons_of_mem _ ho)]
      rfl

theorem since_ne_zero {c : ConfClient} {now : Int64} (h : c.since now ≠ 0) :
    c.hostCache.isSome ∧ c.fullResyncAt.isSome ∧ c.since now = c.confSeq := by
  rw [ConfClient.since] at h ⊢
  cases hcache : c.hostCache with
  | none => exact absurd (by rw [hcache]; rfl) h
  | some cache =>
      cases hat : c.fullResyncAt with
      | none => exact absurd (by rw [hcache, hat]; rfl) h
      | some at' =>
          rw [hcache, hat] at h
          refine ⟨rfl, rfl, if_neg fun hdue => h (if_pos hdue)⟩

theorem whole_status (d : Daemon) (since : UInt64) {k : Nat} (hk : (confStatusText d since).length ≤ k) :
    uintField ((sentLine (confStatusText d since)).take k) 1 = d.globChangeSeq ∧
      uintField ((sentLine (confStatusText d since)).take k) 3 = UInt64.ofNat d.objects.length :=
  status_third _ _ _ hk

theorem right_answer (hinv : ConfInv s) {authlvl : Int32} {queue : CStr → Option CheckEntry} {now : Int64}
    {received : Nat} (hguard : ConfLost authlvl queue s.daemon (s.client.since now) received ∨
      Heard unmarshal queue s (s.client.since now) received) {a : ConfAnswer}
    (ha : heardConf unmarshal authlvl queue s.daemon (s.client.since now) received = some a) :
    ConfPending.Right s ⟨s.run, a, toShow s.daemon, true⟩ := by
  have hauth : ¬authlvl ≤ 0 := by
    intro hauth
    rw [heardConf_refused unmarshal queue s.daemon _ hauth] at ha
    exact nomatch ha
  have hreceived : confLength queue s.daemon (s.client.since now) + 3 ≤ received := by
    by_contra hshort
    rw [heardConf_broken unmarshal queue s.daemon _ hauth (Nat.not_le.mp hshort)] at ha
    exact nomatch ha
  obtain ⟨hdecoded, hasked⟩ : Heard unmarshal queue s (s.client.since now) received := by
    obtain (hno | hshort) | hheard := hguard
    · exact absurd hno hauth
    · exact absurd hshort (Nat.not_lt.mpr hreceived)
    · exact hheard
  rw [heardConf_eq unmarshal queue s.daemon _ hauth hreceived, decoded_changed hdecoded] at ha
  obtain rfl := Option.some.inj ha
  have hle := status_first_le s.daemon.globChangeSeq
    (UInt64.ofNat (changedSince s.daemon.objects (s.client.since now)).length)
    (showNat (UInt64.ofNat s.daemon.objects.length).toNat)
    (show 3 ≤ received - confLength queue s.daemon (s.client.since now) by omega)
  have hincrement : s.client.since now ≠ 0 → Increment queue s (s.client.since now) received :=
    fun hsince => hasked.resolve_left hsince
  have hwhole : s.client.since now ≠ 0 → _ := fun hsince =>
    whole_status s.daemon (s.client.since now) (Nat.le_sub_of_add_le' (hincrement hsince).whole)
  refine ⟨Nat.le_refl _, ?_, ?_, ?_, ?_, ?_, fun _ => ⟨rfl, rfl⟩, ?_, ?_, ?_⟩
  · rw [names_toShow]
    exact hinv.stamps.distinct
  · exact List.filter_sublist.map shown
  · intro hsince
    have hsince : s.client.since now = 0 := hsince
    have hchanged : changedSince s.daemon.objects 0 = s.daemon.objects := by
      rw [changedSince, List.filter_eq_self]
      intro obj hobj
      exact decide_eq_true (hinv.stamps.seq obj hobj).1
    dsimp only
    rw [hsince, hchanged, toShow]
  · intro hsince
    dsimp only
    rw [(hwhole hsince).2, toShow, List.length_map, UInt64.toNat_ofNat']
    exact Nat.mod_eq_of_lt hinv.stamps.room
  · refine fun _ => ⟨?_, fun obj hobj _ => List.mem_map_of_mem hobj⟩
    dsimp only
    rw [UInt64.le_iff_toNat_le]
    exact hle
  · intro hsince cache hcache hback hresynced o ho
    obtain ⟨obj, hobj, rfl⟩ := List.mem_map.mp ho
    have hback : ¬s.daemon.globChangeSeq < s.client.confSeq := by
      dsimp only at hback
      rw [(hwhole hsince).1] at hback
      exact hback
    by_cases hnew : s.client.since now < obj.data.changeSeq
    · exact Or.inl (List.mem_map_of_mem (List.mem_filter.mpr ⟨hobj, decide_eq_true hnew⟩))
    · refine Or.inr (hinv.held ((hincrement hsince).run.resolve_right hback) cache hcache hresynced obj hobj ?_)
      rw [← (since_ne_zero hsince).2.2]
      exact UInt64.not_lt.mp hnew
  · intro hsince cache hcache hback hnone
    have hback : ¬s.daemon.globChangeSeq < s.client.confSeq := by
      dsimp only at hback
      rw [(hwhole hsince).1] at hback
      exact hback
    obtain hobjects | hrestarted | hempty := (hincrement hsince).total
    · exact absurd (List.map_eq_nil_iff.mp hnone) hobjects
    · exact absurd hrestarted hback
    · exact hempty cache hcache
  · intro hsince _ hcalm cache hcache
    refine ⟨?_, hinv.first hcalm cache hcache (since_ne_zero hsince).2.1⟩
    dsimp only
    rw [(hwhole hsince).1]
    exact UInt64.not_lt.mpr (hinv.seq (hinv.calmRun hcalm))

theorem inv_answer (hinv : ConfInv s) {authlvl : Int32} {queue : CStr → Option CheckEntry} {now : Int64}
    {received : Nat} (hguard : ConfGuard unmarshal s (.answer authlvl queue now received)) :
    ConfInv (confStep unmarshal donotify s (.answer authlvl queue now received)) := by
  rw [confStep]
  cases hpending : s.pending with
  | some p =>
      rw [Option.isSome_some, if_pos rfl]
      exact hinv
  | none =>
      rw [Option.isSome_none, if_neg Bool.false_ne_true]
      refine ⟨hinv.stamps, hinv.runs, hinv.held, hinv.seq, fun p hp => ?_, hinv.calmRun, hinv.first, hinv.converged⟩
      obtain ⟨a, ha, rfl⟩ := Option.mem_map.mp hp
      have hright := right_answer hinv (hguard hpending) ha
      exact ⟨hright.run, hright.names, hright.sub, hright.all, hright.total, hright.seq, hright.calm, hright.held,
        hright.empty, hright.converged⟩

theorem inv_store (hinv : ConfInv s) {now : Int64} (hguard : ConfGuard unmarshal s (.store now)) :
    ConfInv (confStep unmarshal donotify s (.store now)) := by
  rw [confStep]
  cases hpending : s.pending with
  | none => exact hinv
  | some p =>
      have hright := hinv.pending p hpending
      have hcache := merge_hostCache s.client p.answer now
      have hquiet : 1 ≤ (if p.calm = true then s.calm + 1 else 0) → p.calm = true := by
        intro h
        by_contra hno
        rw [if_neg hno] at h
        exact Nat.not_succ_le_zero 0 h
      refine ⟨hinv.stamps, hright.run, ?_, fun hrun => (hright.seq hrun).1, fun q h => absurd h (Option.not_mem_none q),
        fun h => (hright.calm (hquiet h)).1, ?_, ?_⟩
      · intro hrun cache hmem hresynced obj hobj hseq
        obtain rfl := Option.some.inj (hcache.symm.trans hmem)
        have hthere := (hright.seq hrun).2 obj hobj hseq
        rw [merged_resynced hright hresynced obj.uniqueName]
        exact (GoMap.find?_key_iff hright.names).mpr ⟨hthere, rfl⟩
      · intro h cache hmem hresynced
        obtain rfl := Option.some.inj (hcache.symm.trans hmem)
        dsimp only
        rw [← (hright.calm (hquiet h)).2]
        exact merged_resynced hright hresynced
      · intro h
        have hcalm : p.calm = true := hquiet (Nat.le_of_succ_le h)
        have hfirst : 1 ≤ s.calm := by
          dsimp only at h
          rw [if_pos hcalm] at h
          omega
        refine ⟨_, hcache, ?_⟩
        dsimp only
        rw [← (hright.calm hcalm).2]
        exact merged_converged hright (hguard p hpending) hcalm hfirst

theorem confStep_inv (s : ConfState) (e : ConfEvent) (hinv : ConfInv s) (hguard : ConfGuard unmarshal s e) :
    ConfInv (confStep unmarshal donotify s e) := by
  cases e with
  | daemon e => exact inv_daemon hinv hguard
  | restart tree => exact inv_restart hinv hguard
  | reconnect => exact inv_forgotten hinv rfl rfl
  | forget => exact inv_forgotten hinv rfl rfl
  | answer authlvl queue now received => exact inv_answer hinv hguard
  | store now => exact inv_store hinv hguard

end step

/-- In every run whose steps all meet the condition, two polls leave the cache as it is to be. -/
theorem conf_converges (unmarshal : List Char → Option XmlObject) (donotify : Bool) (events : List ConfEvent)
    (hguarded : Run.Guarded (confStep unmarshal donotify) (ConfGuard unmarshal) ConfState.start events) :
    Run.Always (confStep unmarshal donotify) Converged ConfState.start events := by
  have hrun := Run.always_of_guarded confStep_inv ConfInv.start hguarded
  exact fun pre hpre => (hrun pre hpre).converged

/-- The text of an element that has nothing escaped. -/
def elementText (tag : String) (block : List Char) : Option (List Char) :=
  ((block.splitOn '\n').findSome? fun line => line.dropPrefix? (Srvclient.startTag tag.toList)).map
    (List.takeWhile (· ≠ '<'))

/-- What decoding makes of an object without escaped texts. -/
def unmarshalPlain (block : List Char) : Option XmlObject := do
  let object ← elementText "Object" block
  let state ← elementText "ObjectLastcheckState" block
  let contacted ← elementText "ObjectContacted" block
  let acked ← elementText "ObjectAcked" block
  return ⟨object, (strtoul state).toInt64, (strtoul contacted).toInt64, (strtoul acked).toInt64,
    (elementText "ObjectNotes" block).getD []⟩

/-- A daemon that monitors one object, whose name does not resolve. -/
def unresolvedTree : Tree where
  objects := [{ uniqueName := "gw".toList, data := { HostInfo.zeroed with lastcheck := 5 }, depTxtName := [] }]
  distinct := by decide

/-- A poll that succeeds. -/
def poll (now : Int64) : List ConfEvent := [.answer 2 (fun _ => none) now 10000, .store now]

instance (cache : HostCache) : Decidable (GoMap.Indexes XmlObject.object cache []) :=
  decidable_of_iff (cache.keys = []) <| by
    constructor
    · intro h name
      have hno : name ∉ cache := by
        intro hmem
        have hmem : name ∈ cache.keys := AList.mem_keys.mp hmem
        rw [h] at hmem
        exact List.not_mem_nil hmem
      exact AList.lookup_eq_none.mpr hno
    · intro h
      exact List.length_eq_zero_iff.mp (h.length_keys List.nodup_nil)

instance (queue : CStr → Option CheckEntry) (s : ConfState) (since : UInt64) (received : Nat) :
    Decidable (Increment queue s since received) :=
  decidable_of_iff
    (confLength queue s.daemon since + (confStatusText s.daemon since).length ≤ received ∧
      (s.cacheRun = s.run ∨ s.daemon.globChangeSeq < s.client.confSeq) ∧
      (s.daemon.objects ≠ [] ∨ s.daemon.globChangeSeq < s.client.confSeq ∨
        ∀ cache ∈ s.client.hostCache, GoMap.Indexes XmlObject.object cache []))
    ⟨fun ⟨whole, run, total⟩ => ⟨whole, run, total⟩, fun h => ⟨h.whole, h.run, h.total⟩⟩

instance (d : Daemon) : (e : DaemonEvent) → Decidable (e.Counted d)
  | .touch _ _ => inferInstanceAs (Decidable (_ ∧ _))
  | .reload _ => inferInstanceAs (Decidable (_ < _))

instance (unmarshal : List Char → Option XmlObject) (s : ConfState) : (e : ConfEvent) → Decidable (ConfGuard unmarshal s e)
  | .daemon e => inferInstanceAs (Decidable (e.Counted s.daemon))
  | .restart _ => inferInstanceAs (Decidable (_ < _))
  | .reconnect => isTrue trivial
  | .forget => isTrue trivial
  | .answer authlvl queue now received => by
      unfold ConfGuard ConfLost Heard
      cases s.pending with
      | none => exact decidable_of_iff _ ⟨fun h _ => h, fun h => h rfl⟩
      | some p => exact isTrue fun h => nomatch h
  | .store _ => inferInstanceAs (Decidable (∀ p ∈ s.pending, _))

theorem conf_converges_acked : Run.Always (confStep unmarshalPlain true) Converged ConfState.start
    ([.restart unresolvedTree] ++ poll 0 ++ [.daemon (.touch 0 .ack)] ++ poll 1 ++ poll 2) :=
  conf_converges unmarshalPlain true _ (by decide +kernel)

/-- The daemon's object resolves again, and is polled twice. -/
def rewalkRun : List ConfEvent :=
  [.restart unresolvedTree] ++ poll 0 ++ [.daemon (.touch 0 (.happened (.rewalk false false 1 true)))] ++ poll 1 ++ poll 2

/-- A name that resolves again goes unnoticed: two polls later the object is still shown as it was. -/
theorem not_converged_rewalk : ¬Run.Always (confStep unmarshalPlain true) Converged ConfState.start rewalkRun := by
  have hend : 2 ≤ (Run.exec (confStep unmarshalPlain true) ConfState.start rewalkRun).calm ∧
      ((Run.exec (confStep unmarshalPlain true) ConfState.start rewalkRun).client.hostCache.bind
        fun cache => (cache.lookup "gw".toList).map XmlObject.state) = some 5 ∧
      ((toShow (Run.exec (confStep unmarshalPlain true) ConfState.start rewalkRun).daemon).find?
        fun o => o.object = "gw".toList).map XmlObject.state = some 0 := by decide +kernel
  intro h
  obtain ⟨hcalm, hheld, hthere⟩ := hend
  obtain ⟨cache, hcache, hindexes⟩ := h _ List.prefix_rfl hcalm
  rw [hcache, Option.bind_some, hindexes, hthere] at hheld
  exact absurd hheld (by decide)

end Sysmon.Monitoring
