import Sysmon.Agents.Alerts

/-!
# The acceptance of alerts

A row is committed under the lock of acceptance, by the connection that the record names, and the same
lock is needed to change that connection and to remember the status of an object. So 333 means one row
and 444 none, a connection that was replaced or cut off commits nothing any more, and the rows of an
object form a chain. There is one invariant for each of these, and one for the lock.
-/

namespace Sysmon.Alerts

open Agents (GoString Tid)
open Fleet (ascii)

variable {R : Type} {fl : Floats R} {name : GoString} {st st' : State R} {t : Tid}

/-! ### The log -/

/-- What happened after the connection registered. -/
def since (c : Tid) (log : List Mark) : List Mark := (log.reverse.takeWhile (· ≠ .registered c)).reverse

theorem since_concat (c : Tid) (log : List Mark) (mark : Mark) :
    since c (log ++ [mark]) = if mark = .registered c then [] else since c log ++ [mark] := by
  rw [since, List.reverse_append, List.reverse_singleton, List.singleton_append, List.takeWhile_cons]
  by_cases hmark : mark = .registered c
  · simp [hmark]
  · simp [hmark, since]

theorem since_subset (c : Tid) (log : List Mark) : since c log ⊆ log := by
  intro mark hmark
  have hmem := (List.takeWhile_prefix _).subset (List.mem_reverse.mp hmark)
  exact List.mem_reverse.mp hmem

/-- The connection is registered, no other has come after it, and no `DisconnectSite` that was called
after it has returned. -/
structure Current (c : Tid) (log : List Mark) : Prop where
  registered : .registered c ∈ log
  unreplaced : ∀ c', .registered c' ∉ since c log
  uncut : ∀ d, .called d ∈ since c log → .returned d ∉ since c log

/-- The rows of an object, in the order they were committed in. -/
def rowsOf (object : GoString) (log : List Mark) : List HistoryEvent :=
  log.filterMap fun mark =>
    match mark with
    | .committed _ _ row => if row.localName = object then some row else none
    | _ => none

/-- How many rows were committed for a line. -/
def rowsFor (line : Nat) (log : List Mark) : Nat :=
  log.countP fun mark =>
    match mark with
    | .committed line' _ _ => line' = line
    | _ => false

/-- Each row goes on from the status that the one before it has reached. -/
def Linked : GoString → List HistoryEvent → Prop
  | _, [] => True
  | prev, row :: rows => row.prevStatus = prev ∧ Linked row.newStatus rows

/-- The status that a list of rows has reached. -/
def reached (prev : GoString) (rows : List HistoryEvent) : GoString :=
  rows.foldl (fun _ row => row.newStatus) prev

theorem linked_concat {rows : List HistoryEvent} {row : HistoryEvent} {prev : GoString}
    (hrows : Linked prev rows) (hrow : row.prevStatus = reached prev rows) :
    Linked prev (rows ++ [row]) := by
  induction rows generalizing prev with
  | nil => exact ⟨hrow, trivial⟩
  | cons first rows ih => exact ⟨hrows.1, ih hrows.2 hrow⟩

def Mark.isRow : Mark → Bool
  | .committed .. => true
  | _ => false

theorem rowsOf_concat {object : GoString} {log : List Mark} {mark : Mark} (h : mark.isRow = false) :
    rowsOf object (log ++ [mark]) = rowsOf object log := by
  rw [rowsOf, List.filterMap_append]
  cases mark with
  | committed => exact absurd h (by simp [Mark.isRow])
  | registered | called | returned | read | answered => exact List.append_nil _

theorem rowsFor_concat {line : Nat} {log : List Mark} {mark : Mark} (h : mark.isRow = false) :
    rowsFor line (log ++ [mark]) = rowsFor line log := by
  rw [rowsFor, List.countP_append]
  cases mark with
  | committed => exact absurd h (by simp [Mark.isRow])
  | registered | called | returned | read | answered => rfl

theorem rowsOf_committed (object : GoString) (log : List Mark) (line : Nat) (c : Tid)
    (row : HistoryEvent) :
    rowsOf object (log ++ [.committed line c row]) =
      if row.localName = object then rowsOf object log ++ [row] else rowsOf object log := by
  rw [rowsOf, List.filterMap_append, List.filterMap_cons, List.filterMap_nil]
  by_cases hobject : row.localName = object
  · simp [hobject, rowsOf]
  · simp [hobject, rowsOf]

theorem rowsFor_committed (line line' : Nat) (log : List Mark) (c : Tid) (row : HistoryEvent) :
    rowsFor line (log ++ [.committed line' c row]) = rowsFor line log + if line' = line then 1 else 0 := by
  rw [rowsFor, List.countP_append, List.countP_singleton]
  simp only [decide_eq_true_eq]
  rfl

/-! ### The lock of acceptance -/

/-- Only one thread has it. -/
def Exclusive (st : State R) : Prop :=
  ∀ (t : Tid) (th : Thread), st.threads[t]? = some th → th.holds = true → st.accept = some t

theorem Exclusive.move (hs : Exclusive st) {th' : Thread}
    (hthreads : st'.threads = st.threads.set t th')
    (hkept : ∀ i, i ≠ t → st.accept = some i → st'.accept = some i)
    (hmine : th'.holds = true → st'.accept = some t) : Exclusive st' := by
  intro i th hget hholds
  rw [hthreads] at hget
  obtain ⟨rfl, rfl⟩ | ⟨hne, hold⟩ := Run.getElem?_of_set hget
  · exact hmine hholds
  · exact hkept i hne (hs i th hold hholds)

/-- The thread that has the lock goes on with it. -/
theorem Exclusive.keep (hs : Exclusive st) {th th' : Thread} (hget : st.threads[t]? = some th)
    (hholds : th'.holds = true → th.holds = true) (hthreads : st'.threads = st.threads.set t th')
    (haccept : st'.accept = st.accept) : Exclusive st' := by
  refine hs.move hthreads (fun i _ hi => haccept.trans hi) fun hmine => ?_
  exact haccept.trans (hs t th hget (hholds hmine))

/-- It lets the lock go. -/
theorem Exclusive.release (hs : Exclusive st) {th th' : Thread} (hget : st.threads[t]? = some th)
    (hholds : th.holds = true) (hdone : th'.holds = false)
    (hthreads : st'.threads = st.threads.set t th') : Exclusive st' := by
  refine hs.move hthreads (fun i hne hi => ?_) fun hmine => ?_
  · have hholder := hs t th hget hholds
    exact absurd (Option.some.inj (hi.symm.trans hholder)) hne
  · exact absurd hmine (by simp [hdone])

theorem Exclusive.spawn (hs : Exclusive st) {th : Thread} (hthreads : st'.threads = st.threads ++ [th])
    (haccept : st'.accept = st.accept) (hth : th.holds = false) : Exclusive st' := by
  intro i x hget hholds
  rw [hthreads] at hget
  obtain hold | ⟨-, rfl⟩ := Run.getElem?_of_append hget
  · exact haccept.trans (hs i x hold hholds)
  · exact absurd hholds (by simp [hth])

theorem exclusive_step (hs : Exclusive st) (hstep : Step fl name st st') : Exclusive st' := by
  cases hstep with
  | history h => exact hs
  | greet => exact hs.spawn rfl rfl rfl
  | call => exact hs.spawn rfl rfl rfl
  | move t th th' registry hget hplain =>
      refine hs.keep hget (fun hholds => ?_) rfl rfl
      cases hplain <;> exact absurd hholds (by simp [Thread.holds])
  | create t now hget hrecord => exact hs.keep hget (by simp [Thread.holds]) rfl rfl
  | take t th th' hget hfree htakes =>
      refine hs.move rfl (fun i _ hi => ?_) fun _ => rfl
      exact absurd (hi.symm.trans hfree) (by simp)
  | swap t hget => exact hs.keep hget (fun _ => rfl) rfl rfl
  | free t hget => exact hs.release hget rfl rfl rfl
  | inspect t line alert now a hget hrecord => exact hs.keep hget (fun _ => rfl) rfl rfl
  | commit t line alert prev history row hget hobject hprev hnew =>
      exact hs.keep hget (fun _ => rfl) rfl rfl
  | fail t line alert prev message history hget => exact hs.keep hget (fun _ => rfl) rfl rfl
  | settle t line alert hget => exact hs.keep hget (fun _ => rfl) rfl rfl
  | answer t line stage reply hget hanswers =>
      refine hs.release hget ?_ rfl rfl
      cases hanswers <;> rfl
  | cut t hget => exact hs.keep hget (fun _ => rfl) rfl rfl
  | release t hget => exact hs.release hget rfl rfl rfl
  | giveBack t hget => exact hs.keep hget (by simp [Thread.holds]) rfl rfl
  | leave t hget => exact hs.keep hget (by simp [Thread.holds]) rfl rfl
  | skip t text truncated hget => exact hs
  | reply t text truncated reply hget hok halert => exact hs
  | quit t text truncated reply hget hok halert => exact hs.keep hget (by simp [Thread.holds]) rfl rfl
  | parse t text truncated alert hget => exact hs.keep hget (by simp [Thread.holds]) rfl rfl

/-! ### Who is current -/

def State.conn (st : State R) : Option Tid := st.record.bind Alerter.conn

/-- The status of an object that the record remembers. -/
def State.lastStatus (st : State R) (object : GoString) : GoString :=
  st.record.elim [] fun a => a.lastStatus object

/-- The call has done what it does to the record. -/
def CutStage.past : CutStage → Bool
  | .cut | .leaving | .returned => true
  | _ => false

/-- A line is only accepted on the connection of the record, and that one is current. -/
structure Orderly (st : State R) : Prop where
  accepted : ∀ (t : Tid) (line : Nat) (alert : Alert) (prev : GoString),
    st.threads[t]? = some (.conn (.accepted line alert prev)) →
    st.conn = some t ∧ prev = st.lastStatus alert.object
  current : ∀ c, st.conn = some c → Current c st.log
  /-- A call that is past the record was made before the connection came. -/
  past : ∀ (d : Tid) (stage : CutStage) (c : Tid), st.threads[d]? = some (.cut stage) →
    stage.past = true → st.conn = some c → .called d ∉ since c st.log
  known : ∀ d : Nat, .returned d ∈ st.log → d < st.threads.length

/-- A mark that is about nobody's registration. -/
def Mark.plain : Mark → Bool
  | .read .. | .answered .. | .committed .. => true
  | _ => false

theorem Current.concat {c : Tid} {log : List Mark} {mark : Mark} (hc : Current c log)
    (hregistered : ∀ c', mark ≠ .registered c') (hcalled : ∀ d, mark = .called d → .returned d ∉ log)
    (hreturned : ∀ d, mark = .returned d → .called d ∉ since c log) : Current c (log ++ [mark]) := by
  have hsince : since c (log ++ [mark]) = since c log ++ [mark] := by
    rw [since_concat, if_neg (hregistered c)]
  refine ⟨List.mem_append_left _ hc.registered, fun c' hmem => ?_, fun d hmem hmem' => ?_⟩
  · rw [hsince] at hmem
    obtain hold | hnew := List.mem_append.mp hmem
    · exact hc.unreplaced c' hold
    · exact hregistered c' (List.mem_singleton.mp hnew).symm
  · rw [hsince] at hmem hmem'
    obtain hcall | hcall := List.mem_append.mp hmem
    · obtain hback | hback := List.mem_append.mp hmem'
      · exact hc.uncut d hcall hback
      · exact hreturned d (List.mem_singleton.mp hback).symm hcall
    · obtain hback | hback := List.mem_append.mp hmem'
      · exact hcalled d (List.mem_singleton.mp hcall).symm (since_subset c log hback)
      · rw [← List.mem_singleton.mp hcall] at hback
        exact absurd (List.mem_singleton.mp hback) (by simp)

theorem current_registered (c : Tid) (log : List Mark) : Current c (log ++ [.registered c]) := by
  have hsince : since c (log ++ [.registered c]) = [] := by
    rw [since_concat, if_pos rfl]
  refine ⟨by simp, fun c' hmem => ?_, fun d hmem => ?_⟩
  · rw [hsince] at hmem
    exact absurd hmem List.not_mem_nil
  · rw [hsince] at hmem
    exact absurd hmem List.not_mem_nil

/-- The record keeps its connection, and nobody starts or ends anything. -/
theorem Orderly.move (ho : Orderly st) (t : Tid) (th' : Thread) (marks : List Mark)
    (hthreads : st'.threads = st.threads ∨ st'.threads = st.threads.set t th')
    (haccepted : ∀ line alert prev, th' = .conn (.accepted line alert prev) →
      st.conn = some t ∧ prev = st.lastStatus alert.object)
    (hpast : ∀ stage c, th' = .cut stage → stage.past = true → st.conn = some c →
      .called t ∉ since c st.log)
    (hconn : st'.conn = st.conn)
    (hstatus : st'.lastStatus = st.lastStatus ∨
      ∀ (i : Tid) (line : Nat) (alert : Alert) (prev : GoString),
        st'.threads[i]? ≠ some (.conn (.accepted line alert prev)))
    (hlog : st'.log = st.log ++ marks) (hmarks : ∀ mark ∈ marks, mark.plain = true) : Orderly st' := by
  have hlength : st'.threads.length = st.threads.length := by
    obtain heq | heq := hthreads
    · rw [heq]
    · rw [heq, List.length_set]
  have hcases : ∀ (i : Tid) (th : Thread), st'.threads[i]? = some th →
      i = t ∧ th = th' ∨ st.threads[i]? = some th := by
    intro i th hget
    obtain heq | heq := hthreads
    · rw [heq] at hget
      exact Or.inr hget
    · rw [heq] at hget
      exact (Run.getElem?_of_set hget).imp_right fun hold => hold.2
  have hsince : ∀ (marks : List Mark) (log : List Mark) (c : Tid), (∀ mark ∈ marks, mark.plain = true) →
      (Current c log → Current c (log ++ marks)) ∧ since c (log ++ marks) = since c log ++ marks := by
    intro marks
    induction marks with
    | nil => exact fun log c _ => by simp
    | cons mark marks ih =>
        intro log c hplain
        have hmark := hplain mark List.mem_cons_self
        obtain ⟨hcurrent, heq⟩ := ih (log ++ [mark]) c fun m hm => hplain m (List.mem_cons_of_mem mark hm)
        rw [List.append_assoc, List.singleton_append] at hcurrent heq
        have hne : ∀ c', mark ≠ .registered c' := by
          rintro c' rfl
          exact absurd hmark (by simp [Mark.plain])
        refine ⟨fun hc => hcurrent (hc.concat hne ?_ ?_), ?_⟩
        · rintro d rfl
          exact absurd hmark (by simp [Mark.plain])
        · rintro d rfl
          exact absurd hmark (by simp [Mark.plain])
        · rw [heq, since_concat, if_neg (hne c), List.append_assoc, List.singleton_append]
  refine ⟨fun i line alert prev hget => ?_, fun c hc => ?_, fun d stage c hget hstage hc hmem => ?_,
    fun d hmem => ?_⟩
  · obtain hstatus | hnone := hstatus
    · rw [hconn, hstatus]
      obtain ⟨rfl, heq⟩ | hold := hcases i _ hget
      · exact haccepted line alert prev heq.symm
      · exact ho.accepted i line alert prev hold
    · exact absurd hget (hnone i line alert prev)
  · rw [hlog]
    exact (hsince marks st.log c hmarks).1 (ho.current c (hconn ▸ hc))
  · rw [hconn] at hc
    rw [hlog, (hsince marks st.log c hmarks).2] at hmem
    obtain hmem | hmem := List.mem_append.mp hmem
    · obtain ⟨rfl, heq⟩ | hold := hcases d _ hget
      · exact hpast stage c heq.symm hstage hc hmem
      · exact ho.past d stage c hold hstage hc hmem
    · exact absurd (hmarks _ hmem) (by simp [Mark.plain])
  · rw [hlength]
    rw [hlog] at hmem
    obtain hmem | hmem := List.mem_append.mp hmem
    · exact ho.known d hmem
    · exact absurd (hmarks _ hmem) (by simp [Mark.plain])

/-- The record gets another connection, or loses the one it has, while no line is being accepted. -/
theorem Orderly.renew (ho : Orderly st) (marks : List Mark)
    (hnone : ∀ (i : Tid) (line : Nat) (alert : Alert) (prev : GoString),
      st'.threads[i]? ≠ some (.conn (.accepted line alert prev)))
    (hlength : st'.threads.length = st.threads.length) (hlog : st'.log = st.log ++ marks)
    (hconn : ∀ c, st'.conn = some c → marks = [.registered c])
    (hmarks : ∀ d, .returned d ∉ marks) : Orderly st' := by
  refine ⟨fun i line alert prev hget => absurd hget (hnone i line alert prev), fun c hc => ?_,
    fun d stage c _ _ hc hmem => ?_, fun d hmem => ?_⟩
  · rw [hlog, hconn c hc]
    exact current_registered c st.log
  · rw [hlog, hconn c hc, since_concat, if_pos rfl] at hmem
    exact absurd hmem List.not_mem_nil
  · rw [hlength]
    rw [hlog] at hmem
    obtain hmem | hmem := List.mem_append.mp hmem
    · exact ho.known d hmem
    · exact absurd hmem (hmarks d)

/-- Somebody new comes. -/
theorem Orderly.spawn (ho : Orderly st) {th : Thread} (hthreads : st'.threads = st.threads ++ [th])
    (hrecord : st'.record = st.record)
    (hnew : th = .conn .greeted ∧ st'.log = st.log ∨
      th = .cut .called ∧ st'.log = st.log ++ [.called st.threads.length]) : Orderly st' := by
  have hconn : st'.conn = st.conn := by rw [State.conn, State.conn, hrecord]
  have hlength : st'.threads.length = st.threads.length + 1 := by rw [hthreads, List.length_append]; rfl
  have hstatus : st'.lastStatus = st.lastStatus := by
    funext object
    rw [State.lastStatus, State.lastStatus, hrecord]
  have hmem : ∀ mark, mark ∈ st'.log → mark ∈ st.log ∨ mark = .called st.threads.length := by
    intro mark hmark
    obtain ⟨-, hlog⟩ | ⟨-, hlog⟩ := hnew
    · exact Or.inl (hlog ▸ hmark)
    · rw [hlog] at hmark
      exact (List.mem_append.mp hmark).imp_right fun h => List.mem_singleton.mp h
  refine ⟨fun i line alert prev hget => ?_, fun c hc => ?_, fun d stage c hget hstage hc => ?_,
    fun d hd => ?_⟩
  · rw [hthreads] at hget
    rw [hconn, hstatus]
    obtain hold | ⟨-, heq⟩ := Run.getElem?_of_append hget
    · exact ho.accepted i line alert prev hold
    · rcases hnew with ⟨rfl, -⟩ | ⟨rfl, -⟩ <;> exact absurd heq (by simp)
  · have hcurrent := ho.current c (hconn ▸ hc)
    obtain ⟨-, hlog⟩ | ⟨-, hlog⟩ := hnew
    · rw [hlog]
      exact hcurrent
    · rw [hlog]
      refine hcurrent.concat (by simp) (fun d heq hback => ?_) (by simp)
      obtain rfl := Mark.called.inj heq
      exact absurd (ho.known _ hback) (Nat.lt_irrefl _)
  · rw [hthreads] at hget
    obtain hold | ⟨-, heq⟩ := Run.getElem?_of_append hget
    · have hbefore := ho.past d stage c hold hstage (hconn ▸ hc)
      obtain ⟨-, hlog⟩ | ⟨-, hlog⟩ := hnew
      · rwa [hlog]
      · rw [hlog, since_concat, if_neg (by simp)]
        intro hmark
        obtain hmark | hmark := List.mem_append.mp hmark
        · exact hbefore hmark
        · obtain rfl := Mark.called.inj (List.mem_singleton.mp hmark)
          exact absurd hold (by simp)
    · obtain ⟨rfl, -⟩ | ⟨rfl, -⟩ := hnew
      · exact absurd heq (by simp)
      · obtain rfl := Thread.cut.inj heq
        exact absurd hstage (by simp [CutStage.past])
  · rw [hlength]
    obtain hold | heq := hmem _ hd
    · exact Nat.lt_succ_of_lt (ho.known d hold)
    · exact absurd heq (by simp)

/-- While a thread has the lock, no line but its own is being accepted. -/
theorem Exclusive.none_accepted (hs : Exclusive st) {th th' : Thread} (hget : st.threads[t]? = some th)
    (hholds : th.holds = true) (hth' : ∀ line alert prev, th' ≠ .conn (.accepted line alert prev))
    (i : Tid) (line : Nat) (alert : Alert) (prev : GoString) :
    (st.threads.set t th')[i]? ≠ some (.conn (.accepted line alert prev)) := by
  intro hgeti
  obtain ⟨-, heq⟩ | ⟨hne, hold⟩ := Run.getElem?_of_set hgeti
  · exact hth' line alert prev heq.symm
  · have hmine := hs t th hget hholds
    have hother := hs i _ hold rfl
    exact hne (Option.some.inj (hother.symm.trans hmine))

theorem orderly_step (hs : Exclusive st) (ho : Orderly st) (hstep : Step fl name st st') :
    Orderly st' := by
  have hgone : ∀ t, (st.record.map (gone t)).bind Alerter.conn = st.record.bind Alerter.conn := by
    intro t
    cases st.record with
    | none => rfl
    | some a =>
        simp only [Option.map_some, Option.bind_some, gone]
        split <;> rfl
  have hkept : ∀ t, (fun object => (st.record.map (gone t)).elim [] fun a => a.lastStatus object) =
      fun object => st.record.elim [] fun a => a.lastStatus object := by
    intro t
    cases st.record with
    | none => rfl
    | some a =>
        simp only [Option.map_some, Option.elim_some, gone]
        split <;> rfl
  cases hstep with
  | history h =>
      exact ho.move 0 (.conn .gone) [] (Or.inl rfl) (by simp) (by simp) rfl (Or.inl rfl)
        (List.append_nil _).symm (by simp)
  | greet => exact ho.spawn rfl rfl (Or.inl ⟨rfl, rfl⟩)
  | call => exact ho.spawn rfl rfl (Or.inr ⟨rfl, rfl⟩)
  | move t th th' registry hget hplain =>
      refine ho.move t _ [] (Or.inr rfl) (fun line alert prev heq => ?_) (fun stage c heq hstage hc => ?_)
        rfl (Or.inl rfl) (List.append_nil _).symm (by simp)
      · cases hplain <;> exact absurd heq (by simp)
      · cases hplain with
        | check | wait | refuse => exact absurd heq (by simp)
        | find =>
            obtain rfl := Thread.cut.inj heq
            exact absurd hstage (by simp [CutStage.past])
        | miss hnone => exact absurd hc (by simp [State.conn, hnone])
  | create t now hget hrecord =>
      refine ho.renew [.registered t] (fun i line alert prev hgeti => ?_) (List.length_set ..) rfl
        (fun c hc => ?_) (by simp)
      · obtain ⟨-, heq⟩ | ⟨-, hold⟩ := Run.getElem?_of_set hgeti
        · exact absurd heq (by simp)
        · have hconn := (ho.accepted i line alert prev hold).1
          exact absurd hconn (by simp [State.conn, hrecord])
      · obtain rfl := Option.some.inj hc
        rfl
  | take t th th' hget hfree htakes =>
      refine ho.move t _ [] (Or.inr rfl) (fun line alert prev heq => ?_) (fun stage c heq hstage hc => ?_)
        rfl (Or.inl rfl) (List.append_nil _).symm (by simp)
      · cases htakes <;> exact absurd heq (by simp)
      · cases htakes with
        | swap | accept => exact absurd heq (by simp)
        | cut =>
            obtain rfl := Thread.cut.inj heq
            exact absurd hstage (by simp [CutStage.past])
  | swap t hget =>
      refine ho.renew [.registered t] (hs.none_accepted hget rfl (by simp)) (List.length_set ..)
        rfl (fun c hc => ?_) (by simp)
      obtain ⟨a, ha, hconn⟩ := Option.bind_eq_some_iff.mp hc
      obtain ⟨a', -, rfl⟩ := Option.map_eq_some_iff.mp ha
      obtain rfl := Option.some.inj hconn
      rfl
  | free t hget =>
      exact ho.move t _ [] (Or.inr rfl) (by simp) (by simp) rfl (Or.inl rfl) (List.append_nil _).symm
        (by simp)
  | inspect t line alert now a hget hrecord =>
      have hstatus : st.lastStatus = a.lastStatus := by
        funext object
        rw [State.lastStatus, hrecord]
        rfl
      refine ho.move t _ [] (Or.inr rfl) (fun line' alert' prev heq => ?_)
        (fun stage c heq => absurd heq (by simp)) ?_ (Or.inl ?_) (List.append_nil _).symm (by simp)
      · rw [hstatus, State.conn, hrecord]
        rw [verdict] at heq
        split at heq
        · exact absurd heq (by simp)
        next hmine =>
          split at heq
          · exact absurd heq (by simp)
          · obtain ⟨-, rfl, rfl⟩ : line = line' ∧ alert = alert' ∧ a.lastStatus alert.object = prev := by
              simpa using heq
            exact ⟨not_not.mp hmine, rfl⟩
      · rw [State.conn, State.conn, hrecord]
        rfl
      · rw [hstatus]
        rfl
  | commit t line alert prev history row hget hobject hprev hnew =>
      exact ho.move t _ [.committed line t row] (Or.inr rfl) (by simp) (by simp) rfl
        (Or.inl rfl) rfl (by simp [Mark.plain])
  | fail t line alert prev message history hget =>
      exact ho.move t _ [] (Or.inr rfl) (by simp) (by simp) rfl (Or.inl rfl) (List.append_nil _).symm
        (by simp)
  | settle t line alert hget =>
      refine ho.move t _ [] (Or.inr rfl) (by simp) (by simp) ?_
        (Or.inr (hs.none_accepted hget rfl (by simp))) (List.append_nil _).symm (by simp)
      cases hrecord : st.record with
      | none => simp [State.conn, State.goto, hrecord]
      | some a => simp [State.conn, State.goto, hrecord, noteAlert]
  | answer t line stage reply hget hanswers =>
      exact ho.move t _ [.answered line reply] (Or.inr rfl) (by simp) (by simp) rfl
        (Or.inl rfl) rfl (by simp [Mark.plain])
  | cut t hget =>
      refine ho.renew [] (hs.none_accepted hget rfl (by simp)) (List.length_set ..)
        (List.append_nil _).symm (fun c hc => ?_) (by simp)
      obtain ⟨a, ha, hconn⟩ := Option.bind_eq_some_iff.mp hc
      obtain ⟨a', -, rfl⟩ := Option.map_eq_some_iff.mp ha
      exact absurd hconn (by simp [cutOff])
  | release t hget =>
      refine ho.move t _ [] (Or.inr rfl) (by simp) (fun stage c _ _ hc => ?_) rfl (Or.inl rfl)
        (List.append_nil _).symm (by simp)
      exact ho.past t .cut c hget rfl hc
  | giveBack t hget =>
      have hcalled : ∀ c, st.conn = some c → .called t ∉ since c st.log :=
        fun c hc => ho.past t .leaving c hget rfl hc
      refine ⟨fun i line alert prev hgeti => ?_, fun c hc => ?_, fun d stage c hgetd hstage hc => ?_,
        fun d hd => ?_⟩
      · obtain ⟨-, heq⟩ | ⟨-, hold⟩ := Run.getElem?_of_set hgeti
        · exact absurd heq (by simp)
        · exact ho.accepted i line alert prev hold
      · refine (ho.current c hc).concat (by simp) (by simp) fun d heq => ?_
        obtain rfl := Mark.returned.inj heq
        exact hcalled c hc
      · have hbefore : .called d ∉ since c st.log := by
          obtain ⟨rfl, -⟩ | ⟨-, hold⟩ := Run.getElem?_of_set hgetd
          · exact hcalled c hc
          · exact ho.past d stage c hold hstage hc
        rw [State.note, since_concat, if_neg (by simp)]
        intro hmem
        obtain hmem | hmem := List.mem_append.mp hmem
        · exact hbefore hmem
        · exact absurd (List.mem_singleton.mp hmem) (by simp)
      · rw [State.note, State.advance, List.length_set]
        obtain hmem | hmem := List.mem_append.mp hd
        · exact ho.known d hmem
        · obtain rfl := Mark.returned.inj (List.mem_singleton.mp hmem)
          exact (List.getElem?_eq_some_iff.mp hget).1
  | leave t hget =>
      exact ho.move t _ [] (Or.inr rfl) (by simp) (by simp) (hgone t) (Or.inl (hkept t))
        (List.append_nil _).symm (by simp)
  | skip t text truncated hget =>
      exact ho.move t (.conn .gone) [.read st.lines t text truncated] (Or.inl rfl)
        (by simp) (by simp) rfl (Or.inl rfl) rfl (by simp [Mark.plain])
  | reply t text truncated reply hget hok halert =>
      exact ho.move t (.conn .gone) [.read st.lines t text truncated, .answered st.lines reply]
        (Or.inl rfl) (by simp)
        (by simp) rfl (Or.inl rfl) (List.append_assoc ..) (by simp [Mark.plain])
  | quit t text truncated reply hget hok halert =>
      exact ho.move t _ [.read st.lines t text truncated, .answered st.lines reply] (Or.inr rfl)
        (by simp) (by simp) (hgone t) (Or.inl (hkept t)) (List.append_assoc ..)
        (by simp [Mark.plain])
  | parse t text truncated alert hget =>
      exact ho.move t _ [.read st.lines t text truncated] (Or.inr rfl) (by simp) (by simp)
        rfl (Or.inl rfl) rfl (by simp [Mark.plain])

/-! ### The chain of rows -/

/-- The alert whose row is committed and that the record does not remember yet. -/
def Thread.owes : Thread → Option Alert
  | .conn (.written _ alert) => some alert
  | _ => none

/-- The record remembers what the rows have reached, but for the alert that has just been committed. -/
structure Chained (st : State R) : Prop where
  owed : ∀ (t : Tid) (th : Thread) (alert : Alert), st.threads[t]? = some th → th.owes = some alert →
    st.record.isSome = true ∧ ∀ object, reached [] (rowsOf object st.log) =
      if object = alert.object then alert.status else st.lastStatus object
  settled : (∀ (t : Tid) (th : Thread), st.threads[t]? = some th → th.owes = none) →
    ∀ object, reached [] (rowsOf object st.log) = st.lastStatus object
  linked : ∀ object, Linked [] (rowsOf object st.log)

theorem Chained.frame (hc : Chained st)
    (howes : ∀ (i : Tid) (alert : Alert), (∃ th, st'.threads[i]? = some th ∧ th.owes = some alert) ↔
      ∃ th, st.threads[i]? = some th ∧ th.owes = some alert)
    (hrecord : st.record.isSome = true → st'.record.isSome = true)
    (hstatus : st'.lastStatus = st.lastStatus)
    (hrows : ∀ object, rowsOf object st'.log = rowsOf object st.log) : Chained st' := by
  refine ⟨fun t th alert hget hth => ?_, fun hnone object => ?_, fun object => ?_⟩
  · obtain ⟨th', hget', hth'⟩ := (howes t alert).mp ⟨th, hget, hth⟩
    obtain ⟨hsome, hreached⟩ := hc.owed t th' alert hget' hth'
    refine ⟨hrecord hsome, fun object => ?_⟩
    rw [hrows, hstatus]
    exact hreached object
  · rw [hrows, hstatus]
    refine hc.settled (fun t th hget => ?_) object
    cases hth : th.owes with
    | none => rfl
    | some alert =>
        obtain ⟨th', hget', hth'⟩ := (howes t alert).mpr ⟨th, hget, hth⟩
        exact absurd (hth'.symm.trans (hnone t th' hget')) (by simp)
  · rw [hrows]
    exact hc.linked object

theorem owes_set {threads : List Thread} {th th' : Thread} (hget : threads[t]? = some th)
    (hth : th.owes = none) (hth' : th'.owes = none) (i : Tid) (alert : Alert) :
    (∃ x, (threads.set t th')[i]? = some x ∧ x.owes = some alert) ↔
      ∃ x, threads[i]? = some x ∧ x.owes = some alert := by
  constructor
  · rintro ⟨x, hgeti, hx⟩
    obtain ⟨rfl, rfl⟩ | ⟨-, hold⟩ := Run.getElem?_of_set hgeti
    · exact absurd (hx.symm.trans hth') (by simp)
    · exact ⟨x, hold, hx⟩
  · rintro ⟨x, hgeti, hx⟩
    have hne : i ≠ t := by
      rintro rfl
      obtain rfl := Option.some.inj (hget.symm.trans hgeti)
      exact absurd (hx.symm.trans hth) (by simp)
    exact ⟨x, by rw [List.getElem?_set_ne (Ne.symm hne), hgeti], hx⟩

theorem owes_append {threads : List Thread} {th : Thread} (hth : th.owes = none) (i : Tid)
    (alert : Alert) : (∃ x, (threads ++ [th])[i]? = some x ∧ x.owes = some alert) ↔
      ∃ x, threads[i]? = some x ∧ x.owes = some alert := by
  constructor
  · rintro ⟨x, hgeti, hx⟩
    obtain hold | ⟨-, rfl⟩ := Run.getElem?_of_append hgeti
    · exact ⟨x, hold, hx⟩
    · exact absurd (hx.symm.trans hth) (by simp)
  · rintro ⟨x, hgeti, hx⟩
    obtain ⟨hlt, -⟩ := List.getElem?_eq_some_iff.mp hgeti
    exact ⟨x, by rw [List.getElem?_append_left hlt, hgeti], hx⟩

/-- A thread that owes nothing moves on, and no row is committed. -/
theorem Chained.move (hc : Chained st) {th th' : Thread} (marks : List Mark)
    (hget : st.threads[t]? = some th) (hth : th.owes = none) (hth' : th'.owes = none)
    (hthreads : st'.threads = st.threads.set t th')
    (hrecord : st.record.isSome = true → st'.record.isSome = true)
    (hstatus : st'.lastStatus = st.lastStatus) (hlog : st'.log = st.log ++ marks)
    (hmarks : ∀ object, rowsOf object marks = []) : Chained st' := by
  refine hc.frame (fun i alert => ?_) hrecord hstatus fun object => ?_
  · rw [hthreads]
    exact owes_set hget hth hth' i alert
  · rw [hlog, rowsOf, List.filterMap_append]
    exact (congrArg (rowsOf object st.log ++ ·) (hmarks object)).trans (List.append_nil _)

/-- What a change of the record's connection leaves alone. -/
theorem lastStatus_map (f : Alerter R → Alerter R) (hf : ∀ a, (f a).lastStatus = a.lastStatus)
    (record : Option (Alerter R)) :
    (fun object => (record.map f).elim [] fun a => a.lastStatus object) =
      fun object => record.elim [] fun a => a.lastStatus object := by
  cases record with
  | none => rfl
  | some a =>
      funext object
      simp only [Option.map_some, Option.elim_some, hf]

theorem lastStatus_gone (t : Tid) (a : Alerter R) : (gone t a).lastStatus = a.lastStatus := by
  rw [gone]
  split <;> rfl

theorem holds_of_owes {th : Thread} {alert : Alert} (h : th.owes = some alert) : th.holds = true := by
  cases th with
  | cut stage => exact absurd h (by simp [Thread.owes])
  | conn stage => cases stage <;> first | rfl | exact absurd h (by simp [Thread.owes])

theorem Exclusive.owes_none (hs : Exclusive st) {th : Thread} (hget : st.threads[t]? = some th)
    (hholds : th.holds = true) (howes : th.owes = none) (i : Tid) (x : Thread)
    (hgeti : st.threads[i]? = some x) : x.owes = none := by
  by_contra hx
  obtain ⟨alert, halert⟩ := Option.ne_none_iff_exists'.mp hx
  obtain rfl := Option.some.inj ((hs i x hgeti (holds_of_owes halert)).symm.trans (hs t th hget hholds))
  obtain rfl := Option.some.inj (hget.symm.trans hgeti)
  exact hx howes

theorem chained_step (hs : Exclusive st) (ho : Orderly st) (hc : Chained st)
    (hstep : Step fl name st st') : Chained st' := by
  cases hstep with
  | history h => exact hc.frame (fun _ _ => Iff.rfl) id rfl fun _ => rfl
  | greet => exact hc.frame (owes_append rfl) id rfl fun _ => rfl
  | call => exact hc.frame (owes_append rfl) id rfl fun _ => rowsOf_concat rfl
  | move t th th' registry hget hplain =>
      refine hc.move [] hget ?_ ?_ rfl id rfl (List.append_nil _).symm fun _ => rfl
      · cases hplain <;> rfl
      · cases hplain <;> rfl
  | create t now hget hrecord =>
      refine hc.move [.registered t] hget rfl rfl rfl (fun _ => rfl) ?_ rfl fun _ => rfl
      funext object
      simp only [State.lastStatus, hrecord]
      rfl
  | take t th th' hget hfree htakes =>
      refine hc.move [] hget ?_ ?_ rfl id rfl (List.append_nil _).symm fun _ => rfl
      · cases htakes <;> rfl
      · cases htakes <;> rfl
  | swap t hget =>
      refine hc.move [.registered t] hget rfl rfl rfl (fun h => ?_) (lastStatus_map (swap t) (fun _ => rfl) _)
        rfl fun _ => rfl
      exact Option.isSome_map.trans h
  | free t hget => exact hc.move [] hget rfl rfl rfl id rfl (List.append_nil _).symm fun _ => rfl
  | inspect t line alert now a hget hrecord =>
      refine hc.move [] hget rfl ?_ rfl (fun _ => rfl) ?_ (List.append_nil _).symm fun _ => rfl
      · rw [verdict]
        split
        · rfl
        · split <;> rfl
      · funext object
        simp only [State.lastStatus, State.goto, hrecord]
        rfl
  | commit t line alert prev history row hget hobject hprev hnew =>
      obtain ⟨hconn, hlast⟩ := ho.accepted t line alert prev hget
      have hbefore := hc.settled (hs.owes_none hget rfl rfl)
      have hreached : ∀ object, reached [] (rowsOf object (st.log ++ [.committed line t row])) =
          if object = alert.object then alert.status else st.lastStatus object := by
        intro object
        rw [rowsOf_committed, hobject]
        by_cases hsame : object = alert.object
        · subst hsame
          rw [if_pos rfl, if_pos rfl, reached, List.foldl_append]
          exact hnew
        · rw [if_neg (Ne.symm hsame), if_neg hsame]
          exact hbefore object
      have hrecord : st.record.isSome = true := by
        obtain ⟨a, ha, -⟩ := Option.bind_eq_some_iff.mp hconn
        rw [ha]
        rfl
      refine ⟨fun i th alert' hgeti howes => ?_, fun hnone => ?_, fun object => ?_⟩
      · obtain ⟨rfl, rfl⟩ | ⟨-, hold⟩ := Run.getElem?_of_set hgeti
        · obtain rfl := Option.some.inj howes
          exact ⟨hrecord, hreached⟩
        · have := hs.owes_none hget rfl rfl i th hold
          exact absurd (howes.symm.trans this) (by simp)
      · have := hnone t _ (Run.getElem?_set_self' hget)
        exact absurd this (by simp [Thread.owes])
      · simp only [State.goto, State.note]
        rw [rowsOf_committed]
        split
        next hsame =>
          refine linked_concat (hc.linked object) ?_
          rw [hprev, hlast, ← hobject, hsame]
          exact (hbefore object).symm
        next => exact hc.linked object
  | fail t line alert prev message history hget =>
      exact hc.move [] hget rfl rfl rfl id rfl (List.append_nil _).symm fun _ => rfl
  | settle t line alert hget =>
      obtain ⟨hsome, hreached⟩ := hc.owed t _ alert hget rfl
      obtain ⟨a, ha⟩ := Option.isSome_iff_exists.mp hsome
      have hstatus : ∀ object, ({ st with record := st.record.map (noteAlert alert) }.goto t
          (.done line)).lastStatus object =
            if object = alert.object then alert.status else st.lastStatus object := by
        intro object
        simp only [State.lastStatus, State.goto, ha, Option.map_some, Option.elim_some, noteAlert,
          Function.update_apply]
      refine ⟨fun i th alert' hgeti howes => ?_, fun _ object => ?_, hc.linked⟩
      · obtain ⟨rfl, rfl⟩ | ⟨hne, hold⟩ := Run.getElem?_of_set hgeti
        · exact absurd howes (by simp [Thread.owes])
        · have hmine : st.accept = some t := hs t _ hget rfl
          have hother := hs i th hold (holds_of_owes howes)
          exact absurd (Option.some.inj (hother.symm.trans hmine)) hne
      · exact (hreached object).trans (hstatus object).symm
  | answer t line stage reply hget hanswers =>
      refine hc.move [.answered line reply] hget ?_ rfl rfl id rfl rfl fun _ => rfl
      cases hanswers <;> rfl
  | cut t hget =>
      refine hc.move [] hget rfl rfl rfl (fun h => ?_) (lastStatus_map cutOff (fun _ => rfl) _)
        (List.append_nil _).symm fun _ => rfl
      exact Option.isSome_map.trans h
  | release t hget => exact hc.move [] hget rfl rfl rfl id rfl (List.append_nil _).symm fun _ => rfl
  | giveBack t hget => exact hc.move [.returned t] hget rfl rfl rfl id rfl rfl fun _ => rfl
  | leave t hget =>
      refine hc.move [] hget rfl rfl rfl (fun h => ?_) (lastStatus_map (gone t) (lastStatus_gone t) _)
        (List.append_nil _).symm fun _ => rfl
      exact Option.isSome_map.trans h
  | skip t text truncated hget =>
      exact hc.frame (fun _ _ => Iff.rfl) id rfl fun _ => rowsOf_concat rfl
  | reply t text truncated reply hget hok halert =>
      refine hc.frame (fun _ _ => Iff.rfl) id rfl fun _ => ?_
      exact (rowsOf_concat rfl).trans (rowsOf_concat rfl)
  | quit t text truncated reply hget hok halert =>
      refine hc.move [.read st.lines t text truncated, .answered st.lines reply] hget rfl rfl rfl
        (fun h => ?_) (lastStatus_map (gone t) (lastStatus_gone t) _) (List.append_assoc ..) fun _ => rfl
      exact Option.isSome_map.trans h
  | parse t text truncated alert hget =>
      exact hc.move [.read st.lines t text truncated] hget rfl rfl rfl id rfl rfl fun _ => rfl

/-! ### One row for one line -/

/-- The line that the thread is busy with. -/
def Thread.line : Thread → Option Nat
  | .conn (.parsed line _) | .conn (.holding line _) | .conn (.accepted line _ _)
  | .conn (.written line _) | .conn (.done line) | .conn (.refusing line _) => some line
  | _ => none

/-- How many rows it has committed for it. -/
def Thread.rows : Thread → Nat
  | .conn (.written ..) | .conn (.done _) => 1
  | _ => 0

/-- A line is answered once it is known whether its row is committed. -/
structure Counted (st : State R) : Prop where
  busy : ∀ (t : Tid) (th : Thread) (line : Nat), st.threads[t]? = some th → th.line = some line →
    line < st.lines ∧ rowsFor line st.log = th.rows ∧ (∀ reply, .answered line reply ∉ st.log) ∧
      ∃ text truncated, .read line t text truncated ∈ st.log
  apart : ∀ (i j : Tid) (x y : Thread) (line : Nat), st.threads[i]? = some x → st.threads[j]? = some y →
    x.line = some line → y.line = some line → i = j
  unread : ∀ line, st.lines ≤ line → rowsFor line st.log = 0 ∧
    (∀ reply, .answered line reply ∉ st.log) ∧ ∀ c text truncated, .read line c text truncated ∉ st.log
  answers : ∀ line reply, .answered line reply ∈ st.log →
    rowsFor line st.log = (if reply = .ok then 1 else 0) ∧
      ∀ c text truncated, .read line c text truncated ∈ st.log → isAlertLine text truncated = true →
        reply = .ok ∨ reply.code = 444

def Mark.ofLine : Mark → Bool
  | .read .. | .committed .. | .answered .. => true
  | _ => false

/-- Nothing is said about lines, and every thread has the line that it had or none. -/
theorem Counted.frame (hc : Counted st) {marks : List Mark}
    (hlines : ∀ (i : Tid) (x : Thread) (line : Nat), st'.threads[i]? = some x → x.line = some line →
      ∃ y, st.threads[i]? = some y ∧ y.line = some line ∧ y.rows = x.rows)
    (hcount : st'.lines = st.lines) (hlog : st'.log = st.log ++ marks)
    (hmarks : ∀ mark ∈ marks, mark.ofLine = false) : Counted st' := by
  have hrows : ∀ line, rowsFor line st'.log = rowsFor line st.log := by
    intro line
    rw [hlog, rowsFor, List.countP_append, ← rowsFor, Nat.add_eq_left, List.countP_eq_zero]
    intro mark hmark hrow
    have hnot := hmarks mark hmark
    cases mark with
    | committed => exact absurd hnot (by simp [Mark.ofLine])
    | registered | called | returned | read | answered => exact absurd hrow (by simp)
  have hmem : ∀ mark, mark.ofLine = true → (mark ∈ st'.log ↔ mark ∈ st.log) := by
    intro mark hof
    rw [hlog, List.mem_append, or_iff_left]
    intro hmark
    exact absurd (hof.symm.trans (hmarks mark hmark)) (by simp)
  refine ⟨fun t th line hget hline => ?_, fun i j x y line hi hj hx hy => ?_, fun line hle => ?_,
    fun line reply hanswered => ?_⟩
  · obtain ⟨y, hold, hy, hsame⟩ := hlines t th line hget hline
    obtain ⟨hlt, hcounted, hno, text, truncated, hread⟩ := hc.busy t y line hold hy
    refine ⟨hcount.symm ▸ hlt, (hrows line).trans (hcounted.trans hsame), fun reply => ?_, text, truncated, ?_⟩
    · rw [hmem _ rfl]
      exact hno reply
    · rw [hmem _ rfl]
      exact hread
  · obtain ⟨x', hi', hx', -⟩ := hlines i x line hi hx
    obtain ⟨y', hj', hy', -⟩ := hlines j y line hj hy
    exact hc.apart i j x' y' line hi' hj' hx' hy'
  · obtain ⟨hzero, hno, hnoread⟩ := hc.unread line (hcount ▸ hle)
    refine ⟨(hrows line).trans hzero, fun reply => ?_, fun c text truncated => ?_⟩
    · rw [hmem _ rfl]
      exact hno reply
    · rw [hmem _ rfl]
      exact hnoread c text truncated
  · obtain ⟨hcounted, hcode⟩ := hc.answers line reply ((hmem _ rfl).mp hanswered)
    refine ⟨(hrows line).trans hcounted, fun c text truncated hread => ?_⟩
    exact hcode c text truncated ((hmem _ rfl).mp hread)

/-- One thread moves on, with its line or without one. -/
theorem Counted.move (hc : Counted st) {th th' : Thread} (marks : List Mark)
    (hget : st.threads[t]? = some th)
    (hline : th'.line = none ∨ th'.line = th.line ∧ th'.rows = th.rows)
    (hthreads : st'.threads = st.threads.set t th') (hcount : st'.lines = st.lines)
    (hlog : st'.log = st.log ++ marks) (hmarks : ∀ mark ∈ marks, mark.ofLine = false) : Counted st' := by
  refine hc.frame (fun i x line hgeti hx => ?_) hcount hlog hmarks
  rw [hthreads] at hgeti
  obtain ⟨rfl, rfl⟩ | ⟨-, hold⟩ := Run.getElem?_of_set hgeti
  · obtain hnone | ⟨hsame, hrows⟩ := hline
    · exact absurd (hx.symm.trans hnone) (by simp)
    · exact ⟨th, hget, hsame ▸ hx, hrows.symm⟩
  · exact ⟨x, hold, hx, rfl⟩

theorem Counted.spawn (hc : Counted st) {th : Thread} (marks : List Mark) (hline : th.line = none)
    (hthreads : st'.threads = st.threads ++ [th]) (hcount : st'.lines = st.lines)
    (hlog : st'.log = st.log ++ marks) (hmarks : ∀ mark ∈ marks, mark.ofLine = false) : Counted st' := by
  refine hc.frame (fun i x line hgeti hx => ?_) hcount hlog hmarks
  rw [hthreads] at hgeti
  obtain hold | ⟨-, rfl⟩ := Run.getElem?_of_append hgeti
  · exact ⟨x, hold, hx, rfl⟩
  · exact absurd (hx.symm.trans hline) (by simp)

/-- A line is read; nobody is busy with it. -/
theorem Counted.read (hc : Counted st) (t : Tid) (text : GoString) (truncated : Bool) :
    Counted ({ st with lines := st.lines + 1 }.note (.read st.lines t text truncated)) := by
  obtain ⟨hzero, hno, -⟩ := hc.unread st.lines (Nat.le_refl _)
  have hread : ∀ line c text' truncated', line ≠ st.lines →
      .read line c text' truncated' ∈ st.log ++ [.read st.lines t text truncated] →
        .read line c text' truncated' ∈ st.log := by
    intro line c text' truncated' hne hmem
    obtain hold | hnew := List.mem_append.mp hmem
    · exact hold
    · exact absurd (Mark.read.inj (List.mem_singleton.mp hnew)).1 hne
  have hanswered : ∀ line reply, .answered line reply ∈ st.log ++ [.read st.lines t text truncated] →
      .answered line reply ∈ st.log := by
    intro line reply hmem
    obtain hold | hnew := List.mem_append.mp hmem
    · exact hold
    · exact absurd (List.mem_singleton.mp hnew) (by simp)
  refine ⟨fun i x line hget hline => ?_, hc.apart, fun line hle => ?_, fun line reply hmem => ?_⟩
  · obtain ⟨hlt, hcounted, hno, text', truncated', hread'⟩ := hc.busy i x line hget hline
    refine ⟨Nat.lt_succ_of_lt hlt, (rowsFor_concat rfl).trans hcounted, fun reply hmem => ?_, text', truncated', ?_⟩
    · exact hno reply (hanswered line reply hmem)
    · exact List.mem_append_left _ hread'
  · have hlt : st.lines < line := hle
    obtain ⟨hzero, hno, hnoread⟩ := hc.unread line (Nat.le_of_lt hlt)
    refine ⟨(rowsFor_concat rfl).trans hzero, fun reply hmem => ?_, fun c text' truncated' hmem => ?_⟩
    · exact hno reply (hanswered line reply hmem)
    · exact hnoread c text' truncated' (hread line c text' truncated' (Nat.ne_of_gt hlt) hmem)
  · have hold := hanswered line reply hmem
    obtain ⟨hcounted, hcode⟩ := hc.answers line reply hold
    refine ⟨(rowsFor_concat rfl).trans hcounted, fun c text' truncated' hmem' => ?_⟩
    refine hcode c text' truncated' (hread line c text' truncated' ?_ hmem')
    rintro rfl
    exact hno reply hold

/-- A line that nobody is busy with any more is answered. -/
theorem Counted.answer (hc : Counted st) {line : Nat} {reply : Reply} (hlt : line < st.lines)
    (hfree : ∀ (i : Tid) (x : Thread), st.threads[i]? = some x → x.line ≠ some line)
    (hrows : rowsFor line st.log = if reply = .ok then 1 else 0)
    (hcode : ∀ c text truncated, .read line c text truncated ∈ st.log → isAlertLine text truncated = true →
      reply = .ok ∨ reply.code = 444) : Counted (st.note (.answered line reply)) := by
  have hread : ∀ l c text truncated, .read l c text truncated ∈ st.log ++ [.answered line reply] →
      .read l c text truncated ∈ st.log := by
    intro l c text truncated hmem
    obtain hold | hnew := List.mem_append.mp hmem
    · exact hold
    · exact absurd (List.mem_singleton.mp hnew) (by simp)
  have hanswered : ∀ l reply', .answered l reply' ∈ st.log ++ [.answered line reply] →
      .answered l reply' ∈ st.log ∨ l = line ∧ reply' = reply := by
    intro l reply' hmem
    refine (List.mem_append.mp hmem).imp_right fun hnew => ?_
    exact Mark.answered.inj (List.mem_singleton.mp hnew)
  refine ⟨fun i x l hget hline => ?_, hc.apart, fun l hle => ?_, fun l reply' hmem => ?_⟩
  · obtain ⟨hl, hcounted, hno, text, truncated, hread'⟩ := hc.busy i x l hget hline
    refine ⟨hl, (rowsFor_concat rfl).trans hcounted, fun reply' hmem => ?_, text, truncated, ?_⟩
    · obtain hold | ⟨rfl, -⟩ := hanswered l reply' hmem
      · exact hno reply' hold
      · exact hfree i x hget hline
    · exact List.mem_append_left _ hread'
  · obtain ⟨hzero, hno, hnoread⟩ := hc.unread l hle
    refine ⟨(rowsFor_concat rfl).trans hzero, fun reply' hmem => ?_, fun c text truncated hmem => ?_⟩
    · obtain hold | ⟨rfl, -⟩ := hanswered l reply' hmem
      · exact hno reply' hold
      · exact absurd hlt (Nat.not_lt.mpr hle)
    · exact hnoread c text truncated (hread l c text truncated hmem)
  · obtain hold | ⟨rfl, rfl⟩ := hanswered l reply' hmem
    · obtain ⟨hcounted, hcode'⟩ := hc.answers l reply' hold
      refine ⟨(rowsFor_concat rfl).trans hcounted, fun c text truncated hmem' => ?_⟩
      exact hcode' c text truncated (hread l c text truncated hmem')
    · refine ⟨(rowsFor_concat rfl).trans hrows, fun c text truncated hmem' => ?_⟩
      exact hcode c text truncated (hread l c text truncated hmem')

/-- What is answered at once. -/
theorem Counted.reply (hc : Counted st) (t : Tid) (text : GoString) (truncated : Bool) {reply : Reply}
    (hok : reply ≠ .ok) (halert : isAlertLine text truncated = true → reply.code = 444) :
    Counted (({ st with lines := st.lines + 1 }.note (.read st.lines t text truncated)).note
      (.answered st.lines reply)) := by
  obtain ⟨hzero, -, hnoread⟩ := hc.unread st.lines (Nat.le_refl _)
  refine (hc.read t text truncated).answer (Nat.lt_succ_self _) (fun i x hget hline => ?_) ?_
    fun c text' truncated' hmem hisAlert => ?_
  · exact absurd (hc.busy i x st.lines hget hline).1 (Nat.lt_irrefl _)
  · rw [if_neg hok]
    exact (rowsFor_concat rfl).trans hzero
  · obtain hold | hnew := List.mem_append.mp hmem
    · exact absurd hold (hnoread c text' truncated')
    · obtain ⟨-, -, rfl, rfl⟩ := Mark.read.inj (List.mem_singleton.mp hnew)
      exact Or.inr (halert hisAlert)

/-- A connection begins with the line it has read. -/
theorem Counted.parse (hc : Counted st) (hget : st.threads[t]? = some (.conn .reading))
    (text : GoString) (truncated : Bool) (alert : Alert) :
    Counted (({ st with lines := st.lines + 1 }.note (.read st.lines t text truncated)).goto t
      (.parsed st.lines alert)) := by
  obtain ⟨hzero, hno, -⟩ := hc.unread st.lines (Nat.le_refl _)
  have hnext := hc.read t text truncated
  have hfree : ∀ (i : Tid) (x : Thread), st.threads[i]? = some x → x.line ≠ some st.lines := by
    intro i x hgeti hline
    exact absurd (hc.busy i x st.lines hgeti hline).1 (Nat.lt_irrefl _)
  refine ⟨fun i x line hgeti hline => ?_, fun i j x y line hi hj hx hy => ?_, hnext.unread, hnext.answers⟩
  · obtain ⟨rfl, rfl⟩ | ⟨-, hold⟩ := Run.getElem?_of_set hgeti
    · obtain rfl := Option.some.inj hline
      refine ⟨Nat.lt_succ_self _, (rowsFor_concat rfl).trans hzero, fun reply hmem => ?_, text, truncated, ?_⟩
      · obtain hmem | hmem := List.mem_append.mp hmem
        · exact hno reply hmem
        · exact absurd (List.mem_singleton.mp hmem) (by simp)
      · exact List.mem_append_right _ List.mem_cons_self
    · exact hnext.busy i x line hold hline
  · obtain ⟨rfl, rfl⟩ | ⟨-, holdi⟩ := Run.getElem?_of_set hi
    · obtain rfl := Option.some.inj hx
      obtain ⟨rfl, -⟩ | ⟨-, holdj⟩ := Run.getElem?_of_set hj
      · rfl
      · exact absurd hy (hfree j y holdj)
    · obtain ⟨rfl, rfl⟩ | ⟨-, holdj⟩ := Run.getElem?_of_set hj
      · obtain rfl := Option.some.inj hy
        exact absurd hx (hfree i x holdi)
      · exact hc.apart i j x y line holdi holdj hx hy

/-- The row of a line is committed. -/
theorem Counted.commit (hc : Counted st) {line : Nat} {alert : Alert} {prev : GoString}
    (hget : st.threads[t]? = some (.conn (.accepted line alert prev))) (history : HistoryStore)
    (row : HistoryEvent) :
    Counted (({ st with history := history }.note (.committed line t row)).goto t (.written line alert)) := by
  have hmem : ∀ mark : Mark, mark.isRow = false →
      (mark ∈ st.log ++ [.committed line t row] ↔ mark ∈ st.log) := by
    intro mark hnot
    rw [List.mem_append, or_iff_left]
    intro hmark
    rw [List.mem_singleton.mp hmark] at hnot
    exact absurd hnot (by simp [Mark.isRow])
  have hother : ∀ l, l ≠ line → rowsFor l (st.log ++ [.committed line t row]) = rowsFor l st.log := by
    intro l hne
    rw [rowsFor_committed, if_neg (Ne.symm hne), Nat.add_zero]
  obtain ⟨hlt, hzero, hno, text, truncated, hread⟩ := hc.busy t _ line hget rfl
  refine ⟨fun i x l hgeti hline => ?_, fun i j x y l hi hj hx hy => ?_, fun l hle => ?_,
    fun l reply hanswered => ?_⟩
  · obtain ⟨rfl, rfl⟩ | ⟨hne, hold⟩ := Run.getElem?_of_set hgeti
    · obtain rfl := Option.some.inj hline
      refine ⟨hlt, ?_, fun reply => ?_, text, truncated, (hmem _ rfl).mpr hread⟩
      · exact (rowsFor_committed ..).trans (by rw [hzero, if_pos rfl]; rfl)
      · exact fun h => hno reply ((hmem _ rfl).mp h)
    · obtain ⟨hl, hcounted, hno', text', truncated', hread'⟩ := hc.busy i x l hold hline
      have hl' : l ≠ line := by
        rintro rfl
        exact hne (hc.apart i t x _ l hold hget hline rfl)
      refine ⟨hl, (hother l hl').trans hcounted, fun reply => ?_, text', truncated', (hmem _ rfl).mpr hread'⟩
      exact fun h => hno' reply ((hmem _ rfl).mp h)
  · have hold : ∀ (k : Tid) (z : Thread),
        (({ st with history := history }.note (.committed line t row)).goto t
          (.written line alert)).threads[k]? = some z → z.line = some l →
            ∃ z', st.threads[k]? = some z' ∧ z'.line = some l := by
      intro k z hk hz
      obtain ⟨rfl, rfl⟩ | ⟨-, hold⟩ := Run.getElem?_of_set hk
      · exact ⟨_, hget, hz⟩
      · exact ⟨z, hold, hz⟩
    obtain ⟨x', hi', hx'⟩ := hold i x hi hx
    obtain ⟨y', hj', hy'⟩ := hold j y hj hy
    exact hc.apart i j x' y' l hi' hj' hx' hy'
  · obtain ⟨hzero', hno', hnoread⟩ := hc.unread l hle
    have hl' : l ≠ line := Nat.ne_of_gt (Nat.lt_of_lt_of_le hlt hle)
    refine ⟨(hother l hl').trans hzero', fun reply h => hno' reply ((hmem _ rfl).mp h), ?_⟩
    exact fun c text truncated h => hnoread c text truncated ((hmem _ rfl).mp h)
  · have hanswered' := (hmem _ rfl).mp hanswered
    have hl' : l ≠ line := by
      rintro rfl
      exact hno reply hanswered'
    obtain ⟨hcounted, hcode⟩ := hc.answers l reply hanswered'
    refine ⟨(hother l hl').trans hcounted, fun c text truncated h => ?_⟩
    exact hcode c text truncated ((hmem _ rfl).mp h)

theorem counted_step (hc : Counted st) (hstep : Step fl name st st') : Counted st' := by
  have hnoMarks : ∀ mark ∈ ([] : List Mark), mark.ofLine = false := by simp
  cases hstep with
  | history h =>
      exact hc.frame (fun _ x _ hget hline => ⟨x, hget, hline, rfl⟩) rfl (List.append_nil _).symm hnoMarks
  | greet => exact hc.spawn [] rfl rfl rfl (List.append_nil _).symm hnoMarks
  | call => exact hc.spawn [.called st.threads.length] rfl rfl rfl rfl (by simp [Mark.ofLine])
  | move t th th' registry hget hplain =>
      refine hc.move [] hget (Or.inl ?_) rfl rfl (List.append_nil _).symm hnoMarks
      cases hplain <;> rfl
  | create t now hget hrecord =>
      exact hc.move [.registered t] hget (Or.inl rfl) rfl rfl rfl (by simp [Mark.ofLine])
  | take t th th' hget hfree htakes =>
      refine hc.move [] hget (Or.inr ?_) rfl rfl (List.append_nil _).symm hnoMarks
      cases htakes <;> exact ⟨rfl, rfl⟩
  | swap t hget => exact hc.move [.registered t] hget (Or.inl rfl) rfl rfl rfl (by simp [Mark.ofLine])
  | free t hget => exact hc.move [] hget (Or.inl rfl) rfl rfl (List.append_nil _).symm hnoMarks
  | inspect t line alert now a hget hrecord =>
      refine hc.move [] hget (Or.inr ?_) rfl rfl (List.append_nil _).symm hnoMarks
      rw [verdict]
      split
      · exact ⟨rfl, rfl⟩
      · split <;> exact ⟨rfl, rfl⟩
  | commit t line alert prev history row hget hobject hprev hnew => exact hc.commit hget history row
  | fail t line alert prev message history hget =>
      refine hc.move [] hget (Or.inr ?_) rfl rfl (List.append_nil _).symm hnoMarks
      exact ⟨rfl, rfl⟩
  | settle t line alert hget =>
      refine hc.move [] hget (Or.inr ?_) rfl rfl (List.append_nil _).symm hnoMarks
      exact ⟨rfl, rfl⟩
  | answer t line stage reply hget hanswers =>
      have hline : (Thread.conn stage).line = some line := by cases hanswers <;> rfl
      obtain ⟨hlt, hrows, -⟩ := hc.busy t _ line hget hline
      have hmoved : Counted ({ st with accept := none }.goto t .reading) :=
        hc.move [] hget (Or.inl rfl) rfl rfl (List.append_nil _).symm hnoMarks
      refine hmoved.answer hlt (fun i x hgeti hx => ?_) ?_ fun c text truncated _ _ => ?_
      · obtain ⟨rfl, rfl⟩ | ⟨hne, hold⟩ := Run.getElem?_of_set hgeti
        · exact absurd hx (by simp [Thread.line])
        · exact hne (hc.apart i t x _ line hold hget hx hline)
      · cases hanswers <;> exact hrows
      · cases hanswers with
        | ok => exact Or.inl rfl
        | refused message => exact Or.inr rfl
  | cut t hget => exact hc.move [] hget (Or.inl rfl) rfl rfl (List.append_nil _).symm hnoMarks
  | release t hget => exact hc.move [] hget (Or.inl rfl) rfl rfl (List.append_nil _).symm hnoMarks
  | giveBack t hget => exact hc.move [.returned t] hget (Or.inl rfl) rfl rfl rfl (by simp [Mark.ofLine])
  | leave t hget => exact hc.move [] hget (Or.inl rfl) rfl rfl (List.append_nil _).symm hnoMarks
  | skip t text truncated hget => exact hc.read t text truncated
  | reply t text truncated reply hget hok halert => exact hc.reply t text truncated hok halert
  | quit t text truncated reply hget hok halert =>
      exact (hc.reply t text truncated hok halert).move [] hget (Or.inl rfl) rfl rfl
        (List.append_nil _).symm hnoMarks
  | parse t text truncated alert hget => exact hc.parse hget text truncated alert

/-! ### Acceptance -/

/-- Whenever a row is committed, its line was read on a connection that is still current. -/
def Timely (log : List Mark) : Prop :=
  ∀ pre line c row, pre ++ [.committed line c row] <+: log →
    Current c pre ∧ ∃ text truncated, .read line c text truncated ∈ pre

theorem Timely.concat {log : List Mark} {mark : Mark} (ht : Timely log)
    (hmark : ∀ line c row, mark = .committed line c row →
      Current c log ∧ ∃ text truncated, .read line c text truncated ∈ log) : Timely (log ++ [mark]) := by
  intro pre line c row hpre
  obtain heq | hbefore := List.prefix_concat_iff.mp hpre
  · obtain ⟨rfl, hlast⟩ := List.append_inj' heq rfl
    exact hmark line c row (List.singleton_inj.mp hlast).symm
  · exact ht pre line c row hbefore

theorem timely_step (ho : Orderly st) (hc : Counted st) (ht : Timely st.log)
    (hstep : Step fl name st st') : Timely st'.log := by
  cases hstep with
  | history | greet | move | take | free | inspect | fail | settle | cut | release | leave => exact ht
  | call | create | swap | answer | giveBack | skip | parse => exact ht.concat (by simp)
  | reply | quit => exact (ht.concat (by simp)).concat (by simp)
  | commit t line alert prev history row hget hobject hprev hnew =>
      refine ht.concat fun line' c row' heq => ?_
      obtain ⟨rfl, rfl, rfl⟩ := Mark.committed.inj heq
      obtain ⟨hconn, -⟩ := ho.accepted t line alert prev hget
      obtain ⟨-, -, -, hread⟩ := hc.busy t _ line hget rfl
      exact ⟨ho.current t hconn, hread⟩

/-- What 333 and 444 mean, and what the history shows. -/
structure Acceptance (log : List Mark) : Prop where
  answers : ∀ line c text truncated reply, .read line c text truncated ∈ log →
    isAlertLine text truncated = true → .answered line reply ∈ log →
      (reply.code = 333 ↔ rowsFor line log = 1) ∧ (reply.code = 444 ↔ rowsFor line log = 0)
  timely : Timely log
  chain : ∀ object, Linked [] (rowsOf object log)

/-- The invariant of the machine. -/
structure Sound (st : State R) : Prop where
  exclusive : Exclusive st
  orderly : Orderly st
  chained : Chained st
  counted : Counted st
  timely : Timely st.log

theorem sound_step (hs : Sound st) (hstep : Step fl name st st') : Sound st' where
  exclusive := exclusive_step hs.exclusive hstep
  orderly := orderly_step hs.exclusive hs.orderly hstep
  chained := chained_step hs.exclusive hs.orderly hs.chained hstep
  counted := counted_step hs.counted hstep
  timely := timely_step hs.orderly hs.counted hs.timely hstep

theorem sound_start (history : HistoryStore) : Sound (State.start history : State R) := by
  have hnobody : ∀ (t : Tid) (th : Thread), (State.start history : State R).threads[t]? ≠ some th := by
    intro t th
    simp [State.start]
  refine ⟨fun t th hget => absurd hget (hnobody t th), ⟨?_, ?_, ?_, ?_⟩, ⟨?_, ?_, ?_⟩, ⟨?_, ?_, ?_, ?_⟩, ?_⟩
  · exact fun t line alert prev hget => absurd hget (hnobody t _)
  · exact fun c hc => absurd hc (by simp [State.conn, State.start])
  · exact fun d stage c hget => absurd hget (hnobody d _)
  · exact fun d hd => absurd hd List.not_mem_nil
  · exact fun t th alert hget => absurd hget (hnobody t th)
  · exact fun _ _ => rfl
  · exact fun _ => trivial
  · exact fun t th line hget => absurd hget (hnobody t th)
  · exact fun i j x y line hi => absurd hi (hnobody i x)
  · exact fun line _ => ⟨rfl, fun _ => List.not_mem_nil, fun _ _ _ => List.not_mem_nil⟩
  · exact fun line reply h => absurd h List.not_mem_nil
  · intro pre line c row hpre
    exact absurd (List.prefix_nil.mp hpre) (by simp)

theorem Sound.acceptance (hs : Sound st) : Acceptance st.log := by
  refine ⟨fun line c text truncated reply hread halert hanswered => ?_, hs.timely, hs.chained.linked⟩
  obtain ⟨hrows, hcode⟩ := hs.counted.answers line reply hanswered
  rw [hrows]
  obtain rfl | hrefused := hcode c text truncated hread halert
  · exact ⟨by simp [Reply.code], by simp [Reply.code]⟩
  · have hne : reply ≠ .ok := by
      rintro rfl
      exact absurd hrefused (by simp [Reply.code])
    simp [hrefused, hne]

/-! ### The store -/

def Mark.row? : Mark → Option HistoryEvent
  | .committed _ _ row => some row
  | _ => none

/-- The rows that a stretch of the log tells of. -/
def committed (marks : List Mark) : List HistoryEvent := marks.filterMap Mark.row?

/-- What a step does to the history. Behind what was there, but for the oldest rows, stand the rows that the step notes
as committed and no others. What the poller hands over is noted nowhere. -/
def Recorded (fl : Floats R) (name : GoString) (st : State R) (e : Event) : Prop :=
  ∃ marks, (st.step fl name e).log = st.log ++ marks ∧
    match e with
    | .observe events now commits _ =>
        marks = [] ∧ (st.step fl name e).history.rows <:+
          st.history.rows ++ if commits then newRows fl.seconds st.history events now else []
    | _ => ∃ kept, kept <:+ st.history.rows ∧ (st.step fl name e).history.rows = kept ++ committed marks

/-- A step that leaves the history and notes no row. -/
theorem kept_of_quiet {marks : List Mark} (hlog : st'.log = st.log ++ marks) (hmarks : ∀ mark ∈ marks, mark.isRow = false)
    (hhistory : st'.history.rows <:+ st.history.rows) :
    ∃ marks, st'.log = st.log ++ marks ∧
      ∃ kept, kept <:+ st.history.rows ∧ st'.history.rows = kept ++ committed marks := by
  have hnone : committed marks = [] := by
    refine List.filterMap_eq_nil_iff.mpr fun mark hmem => ?_
    have hno := hmarks mark hmem
    cases mark with
    | committed => exact absurd hno (by simp [Mark.isRow])
    | registered | called | returned | read | answered => rfl
  exact ⟨marks, hlog, st'.history.rows, hhistory, by rw [hnone, List.append_nil]⟩

theorem kept_receive (text : GoString) (truncated hist : Bool) :
    ∃ marks, (st.receive name t text truncated hist).log = st.log ++ marks ∧
      ∃ kept, kept <:+ st.history.rows ∧
        (st.receive name t text truncated hist).history.rows = kept ++ committed marks := by
  simp only [State.receive]
  split
  · exact kept_of_quiet rfl (by simp [Mark.isRow]) List.suffix_rfl
  · exact kept_of_quiet (List.append_assoc _ _ _) (by simp [Mark.isRow]) List.suffix_rfl
  · exact kept_of_quiet (List.append_assoc _ _ _) (by simp [Mark.isRow]) List.suffix_rfl
  · exact kept_of_quiet rfl (by simp [Mark.isRow]) List.suffix_rfl

theorem kept_connStep (stage : ConnStage) (now : Instant) (works prunes : Bool) :
    ∃ marks, (connStep fl name st t stage now works prunes).log = st.log ++ marks ∧
      ∃ kept, kept <:+ st.history.rows ∧
        (connStep fl name st t stage now works prunes).history.rows = kept ++ committed marks := by
  have hstill : ∃ marks, st.log = st.log ++ marks ∧
      ∃ kept, kept <:+ st.history.rows ∧ st.history.rows = kept ++ committed marks :=
    kept_of_quiet (List.append_nil _).symm (by simp) List.suffix_rfl
  cases stage with
  | accepted line alert prev =>
      -- the one stage that writes: a row that is committed is the newest of the history
      cases works with
      | false =>
          exact kept_of_quiet (List.append_nil _).symm (by simp)
            (append_failed fl.seconds st.history [rowFor name alert prev] prunes now)
      | true =>
          obtain ⟨kept, hsuffix, hrows⟩ := append_rows fl.seconds st.history [rowFor name alert prev] prunes now
            (show 1 ≤ historyMax by decide)
          exact ⟨_, rfl, kept, hsuffix, hrows⟩
  | swapping => exact kept_of_quiet rfl (by simp [Mark.isRow]) List.suffix_rfl
  | done | refusing => exact kept_of_quiet rfl (by simp [Mark.isRow]) List.suffix_rfl
  | checking =>
      simp only [connStep]
      split
      · split
        · exact kept_of_quiet rfl (by simp [Mark.isRow]) List.suffix_rfl
        · exact hstill
      · exact hstill
  | greeted | waiting | parsed | holding => simp only [connStep]; split <;> exact hstill
  | swapped | written | reading | gone => exact hstill

theorem kept_cutStep (stage : CutStage) :
    ∃ marks, (cutStep st t stage).log = st.log ++ marks ∧
      ∃ kept, kept <:+ st.history.rows ∧ (cutStep st t stage).history.rows = kept ++ committed marks := by
  have hstill : ∃ marks, st.log = st.log ++ marks ∧
      ∃ kept, kept <:+ st.history.rows ∧ st.history.rows = kept ++ committed marks :=
    kept_of_quiet (List.append_nil _).symm (by simp) List.suffix_rfl
  cases stage with
  | leaving => exact kept_of_quiet rfl (by simp [Mark.isRow]) List.suffix_rfl
  | called | waiting => simp only [cutStep]; split <;> exact hstill
  | holding | cut | returned => exact hstill

theorem recorded_step (st : State R) (e : Event) : Recorded fl name st e := by
  have hstill : ∃ marks, st.log = st.log ++ marks ∧
      ∃ kept, kept <:+ st.history.rows ∧ st.history.rows = kept ++ committed marks :=
    kept_of_quiet (List.append_nil _).symm (by simp) List.suffix_rfl
  cases e with
  | greet => exact hstill
  | disconnect => exact kept_of_quiet rfl (by simp [Mark.isRow]) List.suffix_rfl
  | line t text truncated hist =>
      simp only [Recorded, State.step]
      split
      · exact kept_receive text truncated hist
      · exact hstill
  | run t now works prunes =>
      simp only [Recorded, State.step]
      split
      · exact kept_connStep _ now works prunes
      · exact kept_cutStep _
      · exact hstill
  | lost t =>
      simp only [Recorded, State.step]
      split <;> exact hstill
  | observe events now commits prunes =>
      refine ⟨[], (List.append_nil _).symm, rfl, ?_⟩
      cases commits with
      | false => exact (List.append_nil st.history.rows).symm ▸ append_failed fl.seconds st.history events prunes now
      | true => exact append_suffix fl.seconds st.history events prunes now
  | pruneNow now commits => exact kept_of_quiet (List.append_nil _).symm (by simp) (prune_suffix _ now commits)

/-- Two alerts of one object: the second row goes on from the first, and a third alert, of a connection
that has been replaced, is refused. -/
example :
    let fl : Floats Nat := ⟨30, fun n _ _ => n, fun a b => b < a, fun n => 1 ≤ n, fun n => n - 1, fun _ _ => 0⟩
    let runs : Tid → Nat → List Event := fun t n => List.replicate n (.run t 1 true true)
    let text : String → GoString := fun s => ascii ("ALERT " ++ s)
    let st : State Nat := Run.exec (State.step fl (ascii "ups")) (State.start ⟨0, [], fun _ => none⟩)
      (.greet :: runs 0 2 ++ [.line 0 (text "critical tape jam") false true] ++ runs 0 5 ++
        [.line 0 (text "OK tape") false true, .greet] ++ runs 1 5 ++ runs 0 3)
    (rowsOf (ascii "tape") st.log).map (fun row => (row.prevStatus, row.newStatus)) =
        [([], ascii "CRITICAL")] ∧
      st.log.getLast? =
        some (.answered 1 (.refused (ascii "connection superseded by a newer one - alert not accepted"))) := by
  decide

end Sysmon.Alerts
