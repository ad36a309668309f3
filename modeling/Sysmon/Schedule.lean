import Mathlib.Data.List.ReduceOption
import Mathlib.Data.List.Sort
import Sysmon.Lib.DepthFirst
import Sysmon.Queue

/-!
# The scheduling walk

`walk_queue_checks_add` and `queue_checks_qsort_way` of `syswatch.c`. The walk starts at the configured root,
goes on from an object to its neighbours if its state lets the walk pass, and collects the objects that are
due; they are sorted by the time they are due at and queued until the queue is full. The visited marks are in
the objects, the neighbours are what `make_adjs` has linked.

The walk is a depth-first walk, and what it collects is what it can reach. The bound on the queue is missed by
one: a check is still queued when there are `maxqueued` of them.
-/

namespace Sysmon.Schedule

open Sysmon.Parser Sysmon.Reload Sysmon.Queue

/-- The objects that `parser_head` lists, the neighbours they have been linked with and `configed_root`. -/
structure Graph where
  objects : List Ref
  neighbors : Ref → List (Option Ref)
  root : Option Ref
  closed : ∀ here ∈ objects, ∀ there, some there ∈ neighbors here → there ∈ objects
  rooted : ∀ here, root = some here → here ∈ objects

/-- The visited marks, and the array of the objects collected so far. -/
structure WalkState where
  visit : Ref → Bool
  arrayElements : List Ref

/-- The object is marked, and collected if it is due. -/
def WalkState.add (s : WalkState) (now : Time) (here : Ref) (svc : HostInfo) : WalkState where
  visit := Function.update s.visit here true
  arrayElements := if svc.nextQueuetime ≤ now then s.arrayElements ++ [here] else s.arrayElements

/-- The walk goes on to the neighbours: the object is up, or it is down and `reverse` is set. -/
def passes (svc : HostInfo) : Bool := (svc.lastcheck == 0 && !svc.reverse) || (svc.lastcheck != 0 && svc.reverse)

/-- `walk_queue_checks_add`, with so much of the stack. Nothing, if it is used up. -/
def walkQueueChecksAdd (heap : Heap) (neighbors : Ref → List (Option Ref)) (now : Time) :
    Nat → WalkState → Option Ref → Option WalkState
  | _, s, none => some s
  | 0, _, some _ => none
  | depth + 1, s, some here =>
      if s.visit here then some s
      else
        match heap here with
        | none => some s
        | some element =>
            if element.data.queued then some s
            else
              let s := s.add now here element.data
              if passes element.data then (neighbors here).foldlM (walkQueueChecksAdd heap neighbors now depth) s
              else some s

/-- `clear_visited`. -/
def clearVisited (objects : List Ref) (visit : Ref → Bool) : Ref → Bool :=
  objects.foldl (fun visit here => Function.update visit here false) visit

/-- `q_time_cmp`, on what the array elements point at. -/
def qTimeCmp : Option HostInfo → Option HostInfo → Int32
  | none, none => 0
  | _, none => 1
  | none, _ => -1
  | some left, some right =>
      if left.nextQueuetime = right.nextQueuetime then 0
      else if right.nextQueuetime < left.nextQueuetime then 1
      else -1

/-- A comparison that sorting can go by. -/
structure Comparison {α : Type} (cmp : α → α → Int32) : Prop where
  total : ∀ left right, cmp left right ≤ 0 ∨ cmp right left ≤ 0
  trans : ∀ left middle right, cmp left middle ≤ 0 → cmp middle right ≤ 0 → cmp left right ≤ 0

/-- `qsort` of the C library: the same elements in order, and nothing is said about the order of equal ones. -/
structure Qsort where
  sort : {α : Type} → (α → α → Int32) → List α → List α
  perm : ∀ {α : Type} (cmp : α → α → Int32) (elements : List α), (sort cmp elements).Perm elements
  sorted : ∀ {α : Type} (cmp : α → α → Int32) (elements : List α), Comparison cmp →
    (sort cmp elements).Pairwise fun left right => cmp left right ≤ 0

/-- The state that scheduling changes, the objects and the queue among it. `log` has the seconds each warning
reports. -/
structure Scheduler where
  monitor : Monitor
  visit : Ref → Bool
  lastQueuedAt : Time
  lastQueuedWarn : Bool
  log : List Time

/-- One object of the sorted array is queued, if the limit allows it. -/
def queueNext (maxqueued : Int) (warnlog : Bool) (now : Time) (s : Scheduler) (here : Ref) : Scheduler :=
  if s.monitor.numqueued ≤ maxqueued then
    { s with
      monitor := queueCheck s.monitor here
      lastQueuedAt := now
      lastQueuedWarn := false }
  else if s.lastQueuedAt + 3 < now ∧ warnlog = true ∧ s.lastQueuedWarn = false then
    { s with
      lastQueuedWarn := true
      log := s.log ++ [now - s.lastQueuedAt] }
  else s

/-- What the walk from the root leaves behind. -/
def walkGraph (graph : Graph) (now : Time) (s : Scheduler) : Option WalkState :=
  walkQueueChecksAdd s.monitor.daemon.heap graph.neighbors now (graph.objects.length + 1)
    ⟨clearVisited graph.objects s.visit, []⟩ graph.root

def dataOf (heap : Heap) (here : Ref) : Option HostInfo := (heap here).map Element.data

def byQueuetime (heap : Heap) (left right : Ref) : Int32 := qTimeCmp (dataOf heap left) (dataOf heap right)

/-- `queue_checks_qsort_way`, with the seconds it returns. -/
def queueChecksQsortWay (qsort : Qsort) (graph : Graph) (maxqueued : Int) (warnlog : Bool) (now : Time)
    (s : Scheduler) : Option (Scheduler × Int) :=
  if graph.root.isNone then some (s, 60)
  else do
    let walked ← walkGraph graph now s
    let queueList := qsort.sort (byQueuetime s.monitor.daemon.heap) walked.arrayElements
    let s := { s with visit := clearVisited graph.objects walked.visit }
    return (queueList.foldl (queueNext maxqueued warnlog now) s, 1)

/-! ### The walk -/

/-- Reachable from the root along objects that are there, are not queued and let the walk pass. -/
inductive Reachable (passes : HostInfo → Bool) (heap : Heap) (graph : Graph) : Ref → Prop where
  | root {here : Ref} (h : graph.root = some here) : Reachable passes heap graph here
  | along {here there : Ref} {element : Element} (h : Reachable passes heap graph here)
      (hheap : heap here = some element) (hfree : element.data.queued = false) (hpass : passes element.data = true)
      (hnext : some there ∈ graph.neighbors here) : Reachable passes heap graph there

/-- The object is due, and not queued. -/
def Due (heap : Heap) (now : Time) (here : Ref) : Prop :=
  ∃ element, heap here = some element ∧ element.data.queued = false ∧ element.data.nextQueuetime ≤ now

section walk

variable {heap : Heap} {graph : Graph} {neighbors : Ref → List (Option Ref)} {now : Time}

/-- The walk enters the objects that are not queued. -/
def enters (heap : Heap) (here : Ref) : Bool := (heap here).any fun element => !element.data.queued

/-- Where it goes on to from there. -/
def goesOn (heap : Heap) (neighbors : Ref → List (Option Ref)) (here : Ref) : List Ref :=
  if (heap here).any fun element => passes element.data then (neighbors here).reduceOption else []

def isDue (heap : Heap) (now : Time) (here : Ref) : Bool :=
  (heap here).any fun element => decide (element.data.nextQueuetime ≤ now)

/-- The marks and the array, as a depth-first walk has left them. -/
structure Marked (heap : Heap) (graph : Graph) (now : Time) (s : WalkState) (seen : List Ref) : Prop where
  visit : ∀ here ∈ graph.objects, s.visit here = true ↔ here ∈ seen
  array : s.arrayElements = seen.reverse.filter (isDue heap now)

theorem Marked.enter {s : WalkState} {seen : List Ref} (h : Marked heap graph now s seen) {here : Ref}
    {element : Element} (hheap : heap here = some element) :
    Marked heap graph now (s.add now here element.data) (here :: seen) where
  visit := by
    intro there hthere
    by_cases heq : there = here
    · subst heq
      simp [WalkState.add]
    · change Function.update s.visit here true there = true ↔ _
      rw [Function.update_of_ne heq, h.visit there hthere]
      simp [heq]
  array := by
    have hdue : isDue heap now here = decide (element.data.nextQueuetime ≤ now) := by
      rw [isDue, hheap]
      rfl
    rw [WalkState.add, List.reverse_cons, List.filter_append, h.array]
    by_cases htime : element.data.nextQueuetime ≤ now
    · rw [decide_eq_true htime] at hdue
      simp [htime, hdue]
    · rw [decide_eq_false htime] at hdue
      simp [htime, hdue]

theorem goesOn_subset (graph : Graph) {here : Ref} (hhere : here ∈ graph.objects) :
    ∀ there ∈ goesOn heap graph.neighbors here, there ∈ graph.objects := by
  intro there hthere
  rw [goesOn] at hthere
  split at hthere
  · exact graph.closed here hhere there ((List.reduceOption_mem_iff).mp hthere)
  · exact absurd hthere List.not_mem_nil

/-- The neighbours one after the other; a missing one is passed over. -/
theorem walks_of_visits {depth : Nat}
    (ih : ∀ (s : WalkState) (seen out : List Ref) (here : Ref), Marked heap graph now s seen → here ∈ graph.objects →
      DepthFirst.visit (enters heap) (goesOn heap graph.neighbors) depth seen here = some out →
      ∃ s', walkQueueChecksAdd heap graph.neighbors now depth s (some here) = some s' ∧ Marked heap graph now s' out)
    {starts : List (Option Ref)} {s : WalkState} {seen out : List Ref} (hmarked : Marked heap graph now s seen)
    (hstarts : ∀ here, some here ∈ starts → here ∈ graph.objects)
    (h : starts.reduceOption.foldlM (DepthFirst.visit (enters heap) (goesOn heap graph.neighbors) depth) seen =
      some out) :
    ∃ s', starts.foldlM (walkQueueChecksAdd heap graph.neighbors now depth) s = some s' ∧
      Marked heap graph now s' out := by
  induction starts generalizing s seen with
  | nil =>
      rw [List.reduceOption_nil, List.foldlM_nil, Option.pure_def, Option.some.injEq] at h
      subst h
      exact ⟨s, rfl, hmarked⟩
  | cons start starts hrest =>
      have hrestobjects : ∀ here, some here ∈ starts → here ∈ graph.objects :=
        fun here hhere => hstarts here (List.mem_cons_of_mem start hhere)
      cases start with
      | none =>
          rw [List.reduceOption_cons_of_none] at h
          rw [List.foldlM_cons, walkQueueChecksAdd]
          exact hrest hmarked hrestobjects h
      | some here =>
          rw [List.reduceOption_cons_of_some, List.foldlM_cons, Option.bind_eq_bind, Option.bind_eq_some_iff] at h
          obtain ⟨mid, hfirst, hlater⟩ := h
          obtain ⟨s', hwalk, hmid⟩ := ih s seen mid here hmarked (hstarts here List.mem_cons_self) hfirst
          rw [List.foldlM_cons, hwalk]
          exact hrest hmid hrestobjects hlater

/-- The walk of the daemon makes the moves of a depth-first walk. -/
theorem walk_of_visit (depth : Nat) (s : WalkState) (seen out : List Ref) (here : Ref)
    (hmarked : Marked heap graph now s seen) (hhere : here ∈ graph.objects)
    (h : DepthFirst.visit (enters heap) (goesOn heap graph.neighbors) depth seen here = some out) :
    ∃ s', walkQueueChecksAdd heap graph.neighbors now depth s (some here) = some s' ∧
      Marked heap graph now s' out := by
  induction depth generalizing s seen out here with
  | zero => cases h
  | succ depth ih =>
      rw [DepthFirst.visit] at h
      rw [walkQueueChecksAdd]
      by_cases hseen : here ∈ seen
      · rw [if_pos (Or.inl hseen), Option.some.injEq] at h
        subst h
        rw [if_pos ((hmarked.visit here hhere).mpr hseen)]
        exact ⟨s, rfl, hmarked⟩
      · rw [if_neg fun hvisit => hseen ((hmarked.visit here hhere).mp hvisit)]
        by_cases henters : enters heap here = true
        · rw [if_neg (by simp [hseen, henters])] at h
          obtain ⟨element, hheap, hfree⟩ := (Option.any_eq_true _ _).mp henters
          rw [Bool.not_eq_true'] at hfree
          have hentered := hmarked.enter hheap
          simp only [hheap, hfree, Bool.false_eq_true, if_false]
          by_cases hpass : passes element.data = true
          · have hgoes : goesOn heap graph.neighbors here = (graph.neighbors here).reduceOption := by
              rw [goesOn, hheap, Option.any_some, if_pos hpass]
            rw [hgoes] at h
            rw [if_pos hpass]
            exact walks_of_visits ih hentered (graph.closed here hhere) h
          · have hgoes : goesOn heap graph.neighbors here = [] := by
              rw [goesOn, hheap, Option.any_some, if_neg hpass]
            rw [hgoes, List.foldlM_nil, Option.pure_def, Option.some.injEq] at h
            subst h
            rw [if_neg hpass]
            exact ⟨_, rfl, hentered⟩
        · rw [Bool.not_eq_true] at henters
          rw [if_pos (Or.inr henters), Option.some.injEq] at h
          subst h
          refine ⟨s, ?_, hmarked⟩
          cases hheap : heap here with
          | none => rfl
          | some element =>
              rw [enters, hheap, Option.any_some, Bool.not_eq_false'] at henters
              simp only [henters, if_true]

theorem due_iff {here : Ref} : Due heap now here ↔ enters heap here = true ∧ isDue heap now here = true := by
  rw [enters, isDue, Option.any_eq_true, Option.any_eq_true]
  constructor
  · rintro ⟨element, hheap, hfree, htime⟩
    exact ⟨⟨element, hheap, by rw [hfree]; rfl⟩, element, hheap, decide_eq_true htime⟩
  · rintro ⟨⟨element, hheap, hfree⟩, other, hother, htime⟩
    obtain rfl : element = other := Option.some.inj (hheap.symm.trans hother)
    exact ⟨element, hheap, Bool.not_eq_true' _ ▸ hfree, of_decide_eq_true htime⟩

/-- The depth-first walk reaches what is reachable and not queued. -/
theorem reaches_iff {start here : Ref} (hroot : graph.root = some start) :
    DepthFirst.Reaches (enters heap) (goesOn heap graph.neighbors) start here ↔
      Reachable passes heap graph here ∧ enters heap here = true := by
  constructor
  · rintro ⟨hstart, hpath⟩
    induction hpath with
    | refl => exact ⟨Reachable.root hroot, hstart⟩
    | tail _ hedge ih =>
        obtain ⟨hreach, henters⟩ := ih
        obtain ⟨hnext, hthere⟩ := hedge
        obtain ⟨element, hheap, hfree⟩ := (Option.any_eq_true _ _).mp henters
        rw [Bool.not_eq_true'] at hfree
        rw [goesOn, hheap, Option.any_some] at hnext
        split at hnext
        next hpass => exact ⟨hreach.along hheap hfree hpass (List.reduceOption_mem_iff.mp hnext), hthere⟩
        next => exact absurd hnext List.not_mem_nil
  · rintro ⟨hreach, henters⟩
    induction hreach with
    | root h =>
        obtain rfl : start = _ := Option.some.inj (hroot.symm.trans h)
        exact ⟨henters, Relation.ReflTransGen.refl⟩
    | along _ hheap hfree hpass hnext ih =>
        have hbefore : enters heap _ = true := (Option.any_eq_true _ _).mpr ⟨_, hheap, by rw [hfree]; rfl⟩
        obtain ⟨hstart, hpath⟩ := ih hbefore
        refine ⟨hstart, hpath.tail ⟨?_, henters⟩⟩
        rw [goesOn, hheap, Option.any_some, if_pos hpass]
        exact List.reduceOption_mem_iff.mpr hnext

/-- What the walk from the root collects, whatever depth above the number of objects it is given. -/
structure Collects (heap : Heap) (graph : Graph) (now : Time) (collected : List Ref) : Prop where
  once : collected.Nodup
  few : collected.length ≤ graph.objects.length
  exact : ∀ here, here ∈ collected ↔ Reachable passes heap graph here ∧ Due heap now here

theorem walk_collects (heap : Heap) (graph : Graph) (now : Time) (visit : Ref → Bool)
    (hclear : ∀ here ∈ graph.objects, visit here = false) :
    ∃ collected, Collects heap graph now collected ∧ ∀ depth, graph.objects.length < depth →
      ∃ visit', walkQueueChecksAdd heap graph.neighbors now depth ⟨visit, []⟩ graph.root = some ⟨visit', collected⟩ := by
  cases hroot : graph.root with
  | none =>
      refine ⟨[], ⟨List.nodup_nil, Nat.zero_le _, fun here => ?_⟩, fun depth _ => ⟨visit, by rw [walkQueueChecksAdd]⟩⟩
      have hnone : ¬Reachable passes heap graph here := by
        intro h
        induction h with
        | root h => exact Option.some_ne_none _ (h.symm.trans hroot)
        | along _ _ _ _ _ ih => exact ih
      simp [hnone]
  | some start =>
      have hstart := graph.rooted start hroot
      have hinside : ∀ here ∈ graph.objects, ∀ there ∈ goesOn heap graph.neighbors here, there ∈ graph.objects :=
        fun here => goesOn_subset graph
      obtain ⟨seen, hseen⟩ : ∃ seen, DepthFirst.visit (enters heap) (goesOn heap graph.neighbors)
          (graph.objects.length + 1) [] start = some seen :=
        DepthFirst.exists_visit hinside hstart (Nat.lt_succ_of_le (DepthFirst.card_unseen_le graph.objects []))
      have hwalked := DepthFirst.walked_visit _ _ _ _ hseen
      have hmarked : Marked heap graph now ⟨visit, []⟩ [] := by
        refine ⟨fun here hhere => ?_, rfl⟩
        simp [hclear here hhere]
      refine ⟨seen.reverse.filter (isDue heap now), ⟨?_, ?_, fun here => ?_⟩, fun depth hdepth => ?_⟩
      · exact (List.nodup_reverse.mpr (hwalked.once List.nodup_nil)).filter _
      · have hfew : seen.length ≤ graph.objects.length :=
          (List.subperm_of_subset (hwalked.once List.nodup_nil) (hwalked.subset hinside hstart)).length_le
        calc (seen.reverse.filter (isDue heap now)).length
            ≤ seen.reverse.length := List.length_filter_le _ _
          _ = seen.length := List.length_reverse
          _ ≤ graph.objects.length := hfew
      · rw [List.mem_filter, List.mem_reverse, hwalked.mem_iff, reaches_iff hroot, due_iff, and_assoc]
      · obtain ⟨⟨visit', array⟩, hwalk, hout⟩ := walk_of_visit depth ⟨visit, []⟩ [] seen start hmarked hstart
          (DepthFirst.visit_mono hdepth hseen)
        refine ⟨visit', ?_⟩
        rw [hwalk, ← hout.array]

end walk

/-- The walk is exact: each object that is due, not queued and reachable along objects that let the walk pass is
collected once, and nothing else. There are no more of them than objects, and the recursion ends. -/
theorem walkQueueChecksAdd_exact (heap : Heap) (graph : Graph) (now : Time) (visit : Ref → Bool)
    (hclear : ∀ here ∈ graph.objects, visit here = false) :
    ∃ collected : List Ref,
      (∀ depth, graph.objects.length < depth → ∃ visit',
        walkQueueChecksAdd heap graph.neighbors now depth ⟨visit, []⟩ graph.root = some ⟨visit', collected⟩) ∧
      collected.Nodup ∧ collected.length ≤ graph.objects.length ∧
      ∀ here, here ∈ collected ↔ Reachable passes heap graph here ∧ Due heap now here := by
  obtain ⟨collected, hcollects, hwalk⟩ := walk_collects heap graph now visit hclear
  exact ⟨collected, hwalk, hcollects.once, hcollects.few, hcollects.exact⟩

/-- Two objects that are neighbours of each other, the root of them up with `reverse` set. -/
def reversedRoot : Heap
  | 0 => some ⟨"root".toList, { HostInfo.zeroed with reverse := true }, []⟩
  | 1 => some ⟨"leaf".toList, HostInfo.zeroed, ["root".toList]⟩
  | _ => none

def pair : Graph where
  objects := [0, 1]
  neighbors := fun here => [some (1 - here)]
  root := some 0
  closed := by
    intro here hhere there hthere
    obtain rfl : there = 1 - here := Option.some.inj (List.mem_singleton.mp hthere)
    obtain rfl | rfl : here = 0 ∨ here = 1 := by simpa using hhere
    · decide
    · decide
  rooted := by
    rintro here ⟨⟩
    decide

theorem walkQueueChecksAdd_exact_pair :
    ∃ collected : List Ref,
      (∀ depth, 2 < depth → ∃ visit',
        walkQueueChecksAdd reversedRoot pair.neighbors 100 depth ⟨fun _ => false, []⟩ (some 0) =
          some ⟨visit', collected⟩) ∧
      collected.Nodup ∧ collected.length ≤ 2 ∧
      ∀ here, here ∈ collected ↔ Reachable passes reversedRoot pair here ∧ Due reversedRoot 100 here :=
  walkQueueChecksAdd_exact reversedRoot pair 100 (fun _ => false) fun _ _ => rfl

/-- Up, or down with `reverse` set. -/
def upOrReversed (svc : HostInfo) : Bool := svc.lastcheck == 0 || svc.reverse

/-- An object that is up with `reverse` set does not let the walk pass. -/
theorem reversed_up_stops :
    Reachable upOrReversed reversedRoot pair 1 ∧ Due reversedRoot 100 1 ∧
      (walkQueueChecksAdd reversedRoot pair.neighbors 100 3 ⟨fun _ => false, []⟩ pair.root).map
        WalkState.arrayElements = some [0] := by
  refine ⟨Reachable.along (Reachable.root rfl) rfl rfl rfl (by decide), ⟨_, rfl, rfl, by decide⟩, by decide⟩

/-! ### The queue -/

section queue

variable {maxqueued : Int} {warnlog : Bool} {now : Time}

/-- How many checks the loop still adds to a queue of this length. -/
def room (maxqueued numqueued : Int) : Nat := (maxqueued + 1 - numqueued).toNat

theorem queueCheck_free {m : Monitor} {here : Ref} (h : queuedFlag m.daemon.heap here = some false) :
    (queueCheck m here).numqueued = m.numqueued + 1 ∧ refs (queueCheck m here).queue = here :: refs m.queue ∧
      ∀ there, there ≠ here →
        queuedFlag (queueCheck m here).daemon.heap there = queuedFlag m.daemon.heap there := by
  rw [queuedFlag, Option.map_eq_some_iff] at h
  obtain ⟨element, hheap, hfree⟩ := h
  simp only [queueCheck, hheap, hfree, Bool.false_eq_true, if_false]
  refine ⟨trivial, rfl, fun there hne => ?_⟩
  rw [Monitor.setHeap_heap, queuedFlag_updateData, if_neg hne]

theorem queueNext_of_full {s : Scheduler} (hfull : ¬s.monitor.numqueued ≤ maxqueued) (here : Ref) :
    (queueNext maxqueued warnlog now s here).monitor = s.monitor := by
  rw [queueNext, if_neg hfull]
  split <;> rfl

/-- The loop queues the first objects of the array, as many as there is room for. -/
theorem queueNext_foldl (queueList : List Ref) (s : Scheduler) (honce : queueList.Nodup)
    (hfree : ∀ here ∈ queueList, queuedFlag s.monitor.daemon.heap here = some false) :
    (queueList.foldl (queueNext maxqueued warnlog now) s).monitor.numqueued =
        s.monitor.numqueued + min queueList.length (room maxqueued s.monitor.numqueued) ∧
      refs (queueList.foldl (queueNext maxqueued warnlog now) s).monitor.queue =
        (queueList.take (room maxqueued s.monitor.numqueued)).reverse ++ refs s.monitor.queue := by
  induction queueList generalizing s with
  | nil => simp
  | cons here rest ih =>
      obtain ⟨hnew, hrest⟩ := List.nodup_cons.mp honce
      rw [List.foldl_cons]
      by_cases hroom : s.monitor.numqueued ≤ maxqueued
      · obtain ⟨hcount, hqueue, hsame⟩ := queueCheck_free (hfree here List.mem_cons_self)
        have hmonitor : (queueNext maxqueued warnlog now s here).monitor = queueCheck s.monitor here := by
          rw [queueNext, if_pos hroom]
        have hless : room maxqueued s.monitor.numqueued = room maxqueued (s.monitor.numqueued + 1) + 1 := by
          rw [room, room]
          omega
        obtain ⟨hnum, hrefs⟩ := ih (queueNext maxqueued warnlog now s here) hrest fun there hthere => by
          rw [hmonitor, hsame there fun heq => hnew (heq ▸ hthere)]
          exact hfree there (List.mem_cons_of_mem here hthere)
        rw [hnum, hrefs, hmonitor, hcount, hqueue, hless, List.length_cons, List.take_succ_cons, List.reverse_cons,
          List.append_assoc]
        exact ⟨by omega, rfl⟩
      · have hmonitor := @queueNext_of_full maxqueued warnlog now s hroom here
        have hnone : room maxqueued s.monitor.numqueued = 0 := by
          rw [room]
          omega
        obtain ⟨hnum, hrefs⟩ := ih (queueNext maxqueued warnlog now s here) hrest fun there hthere => by
          rw [hmonitor]
          exact hfree there (List.mem_cons_of_mem here hthere)
        rw [hnum, hrefs, hmonitor, hnone]
        simp

theorem qTimeCmp_some {left right : HostInfo} :
    qTimeCmp (some left) (some right) ≤ 0 ↔ left.nextQueuetime ≤ right.nextQueuetime := by
  rw [qTimeCmp]
  split
  next heq =>
    rw [heq]
    exact iff_of_true (by decide) (Int64.le_refl _)
  next hne =>
    split
    next hlt => exact iff_of_false (by decide) (Int64.not_le.mpr hlt)
    next hle => exact iff_of_true (by decide) (Int64.not_lt.mp hle)

theorem qTimeCmp_none {right : Option HostInfo} : qTimeCmp none right ≤ 0 := by
  cases right with
  | none => decide
  | some _ =>
      change (-1 : Int32) ≤ 0
      decide

theorem not_qTimeCmp_some_none {left : HostInfo} : ¬qTimeCmp (some left) none ≤ 0 := by
  change ¬(1 : Int32) ≤ 0
  decide

theorem comparison_byQueuetime (heap : Heap) : Comparison (byQueuetime heap) where
  total := by
    intro left right
    rw [byQueuetime, byQueuetime]
    cases dataOf heap left with
    | none => exact Or.inl qTimeCmp_none
    | some _ =>
        cases dataOf heap right with
        | none => exact Or.inr qTimeCmp_none
        | some _ =>
            rw [qTimeCmp_some, qTimeCmp_some]
            exact Int64.le_total _ _
  trans := by
    intro left middle right hfirst hsecond
    rw [byQueuetime] at hfirst hsecond ⊢
    cases hleft : dataOf heap left with
    | none => exact qTimeCmp_none
    | some _ =>
        cases hmiddle : dataOf heap middle with
        | none =>
            rw [hleft, hmiddle] at hfirst
            exact absurd hfirst not_qTimeCmp_some_none
        | some _ =>
            cases hright : dataOf heap right with
            | none =>
                rw [hmiddle, hright] at hsecond
                exact absurd hsecond not_qTimeCmp_some_none
            | some _ =>
                rw [hleft, hmiddle, qTimeCmp_some] at hfirst
                rw [hmiddle, hright, qTimeCmp_some] at hsecond
                rw [qTimeCmp_some]
                exact Int64.le_trans hfirst hsecond

/-- When the object is due. -/
def queuetimeOf (heap : Heap) (here : Ref) : Time := ((dataOf heap here).map HostInfo.nextQueuetime).getD 0

/-- What has been queued was collected, and is due no later than what was left out. -/
structure EarliestFirst (heap : Heap) (collected new : List Ref) : Prop where
  subset : new ⊆ collected
  earliest : ∀ here ∈ new, ∀ left ∈ collected, left ∉ new → queuetimeOf heap here ≤ queuetimeOf heap left

/-- The queue has not grown past the limit. -/
def WithinLimit (maxqueued : Int) (before after : Monitor) : Prop :=
  after.numqueued ≤ maxqueued ∨ after.numqueued ≤ before.numqueued

theorem earliestFirst_take {qsort : Qsort} {heap : Heap} {collected : List Ref} {count : Nat}
    (hheap : ∀ here ∈ collected, (heap here).isSome) :
    EarliestFirst heap collected ((qsort.sort (byQueuetime heap) collected).take count).reverse := by
  have hperm := qsort.perm (byQueuetime heap) collected
  have hsorted := qsort.sorted (byQueuetime heap) collected (comparison_byQueuetime heap)
  set sorted := qsort.sort (byQueuetime heap) collected with hdef
  have hsubset : (sorted.take count).reverse ⊆ collected := by
    intro here hhere
    exact hperm.mem_iff.mp (List.mem_of_mem_take (List.mem_reverse.mp hhere))
  refine ⟨hsubset, fun here hhere left hleft hout => ?_⟩
  have hlater : left ∈ sorted.drop count := by
    have hmem : left ∈ sorted.take count ++ sorted.drop count := by
      rw [List.take_append_drop]
      exact hperm.mem_iff.mpr hleft
    exact (List.mem_append.mp hmem).resolve_left fun htake => hout (List.mem_reverse.mpr htake)
  rw [← List.take_append_drop count sorted, List.pairwise_append] at hsorted
  have hle := hsorted.2.2 here (List.mem_reverse.mp hhere) left hlater
  obtain ⟨element, helement⟩ := Option.isSome_iff_exists.mp (hheap here (hsubset hhere))
  obtain ⟨other, hother⟩ := Option.isSome_iff_exists.mp (hheap left hleft)
  have hdata : dataOf heap here = some element.data := by rw [dataOf, helement]; rfl
  have hotherdata : dataOf heap left = some other.data := by rw [dataOf, hother]; rfl
  rw [byQueuetime, hdata, hotherdata, qTimeCmp_some] at hle
  rw [queuetimeOf, queuetimeOf, hdata, hotherdata]
  exact hle

theorem clearVisited_of_not_mem {objects : List Ref} {visit : Ref → Bool} {here : Ref} (h : here ∉ objects) :
    clearVisited objects visit here = visit here := by
  induction objects generalizing visit with
  | nil => rfl
  | cons first rest ih =>
      rw [List.mem_cons, not_or] at h
      exact (ih h.2).trans (Function.update_of_ne h.1 _ _)

theorem clearVisited_of_mem {objects : List Ref} {visit : Ref → Bool} {here : Ref} (h : here ∈ objects) :
    clearVisited objects visit here = false := by
  induction objects generalizing visit with
  | nil => exact absurd h List.not_mem_nil
  | cons first rest ih =>
      by_cases hrest : here ∈ rest
      · exact ih hrest
      · obtain rfl : here = first := (List.mem_cons.mp h).resolve_right hrest
        exact (clearVisited_of_not_mem hrest).trans (Function.update_self _ _ _)

/-- The earliest of the objects that are due are queued, for every length of the queue; the limit is kept exactly
when the queue is past it already, and nothing is added, or there is room for all of them. -/
theorem queueChecksQsortWay_iff (qsort : Qsort) (graph : Graph) (maxqueued : Int) (warnlog : Bool) (now : Time)
    (s : Scheduler) : ∃ collected new after seconds, Collects s.monitor.daemon.heap graph now collected ∧
      queueChecksQsortWay qsort graph maxqueued warnlog now s = some (after, seconds) ∧
      refs after.monitor.queue = new ++ refs s.monitor.queue ∧
      (EarliestFirst s.monitor.daemon.heap collected new ∧ WithinLimit maxqueued s.monitor after.monitor ↔
        maxqueued < s.monitor.numqueued ∨ s.monitor.numqueued + collected.length ≤ maxqueued) := by
  obtain ⟨collected, hcollects, hwalk⟩ := walk_collects s.monitor.daemon.heap graph now
    (clearVisited graph.objects s.visit) fun _ => clearVisited_of_mem
  cases hroot : graph.root with
  | none =>
      have hnone : collected = [] := by
        obtain ⟨visit', hvisit⟩ := hwalk (graph.objects.length + 1) (Nat.lt_succ_self _)
        rw [hroot, walkQueueChecksAdd, Option.some.injEq, WalkState.mk.injEq] at hvisit
        exact hvisit.2.symm
      refine ⟨collected, [], s, 60, hcollects, ?_, rfl, ?_⟩
      · rw [queueChecksQsortWay, hroot]
        rfl
      · rw [hnone, List.length_nil]
        exact iff_of_true ⟨⟨List.nil_subset _, fun _ h => absurd h List.not_mem_nil⟩, Or.inr (Int.le_refl _)⟩ (by omega)
  | some start =>
      obtain ⟨visit', hvisit⟩ := hwalk (graph.objects.length + 1) (Nat.lt_succ_self _)
      have hwalked : walkGraph graph now s = some ⟨visit', collected⟩ := hvisit
      have hperm := qsort.perm (byQueuetime s.monitor.daemon.heap) collected
      have hdue : ∀ here ∈ collected, Due s.monitor.daemon.heap now here :=
        fun here hhere => ((hcollects.exact here).mp hhere).2
      set cleared : Scheduler := { s with visit := clearVisited graph.objects visit' } with hcleared
      obtain ⟨hnum, hrefs⟩ := queueNext_foldl (qsort.sort (byQueuetime s.monitor.daemon.heap) collected) cleared
        (hperm.nodup_iff.mpr hcollects.once) fun here hhere => by
          obtain ⟨element, hheap, hfree, -⟩ := hdue here (hperm.mem_iff.mp hhere)
          rw [queuedFlag, hheap, Option.map_some, hfree]
      refine ⟨collected, _, _, 1, hcollects, ?_, hrefs, ?_⟩
      · rw [queueChecksQsortWay, hroot, hwalked]
        rfl
      · have hearliest : EarliestFirst s.monitor.daemon.heap collected
            ((qsort.sort (byQueuetime s.monitor.daemon.heap) collected).take
              (room maxqueued s.monitor.numqueued)).reverse := by
          refine earliestFirst_take fun here hhere => ?_
          obtain ⟨element, hheap, -⟩ := hdue here hhere
          rw [hheap]
          rfl
        have hlength := hperm.length_eq
        have hbefore : cleared.monitor.numqueued = s.monitor.numqueued := rfl
        rw [and_iff_right hearliest, WithinLimit, hnum, hlength, hbefore, room]
        omega

/-- A sort that keeps the order of equal elements. -/
def insertionQsort : Qsort where
  sort := fun cmp elements => elements.insertionSort fun left right => cmp left right ≤ 0
  perm := fun cmp elements => List.perm_insertionSort _ elements
  sorted := by
    intro α cmp elements h
    have : Std.Total fun left right : α => cmp left right ≤ 0 := ⟨h.total⟩
    have : IsTrans α fun left right => cmp left right ≤ 0 := ⟨h.trans⟩
    exact List.pairwise_insertionSort _ elements

/-- The two objects with nothing queued, both due. -/
def idle : Scheduler where
  monitor := {
    daemon := ⟨fun here => if here < 2 then some ⟨"object".toList, HostInfo.zeroed, []⟩ else none, 2, [0, 1], [0, 1],
      some 0, Scratch.atStart⟩
    queue := []
    numqueued := 0
    globChangeSeq := 0
    notices := [] }
  visit := fun _ => false
  lastQueuedAt := 0
  lastQueuedWarn := false
  log := []

/-- With a limit of one check both are queued. -/
theorem queued_past_limit : ∃ after, queueChecksQsortWay insertionQsort pair 1 true 100 idle = some (after, 1) ∧
    ¬WithinLimit 1 idle.monitor after.monitor := by
  refine ⟨_, rfl, ?_⟩
  rw [WithinLimit, not_or]
  decide

end queue

end Sysmon.Schedule
