import Mathlib.Data.List.Basic

/-!
# Keys and order of hosts

What the web application does with the key of a host and with a list of hosts (`service.go`), for texts whose bytes are of
any type and for hosts of any. A key is taken apart at its first colon. Hosts are shown with those that are in trouble
first, and by their names among themselves.
-/

namespace Sysmon.HostOrder

variable {α η : Type} [DecidableEq α]

/-! ### Keys -/

/-- `SplitQualified`: the site of a key and the name there. -/
def splitQualified (colon : α) (name : List α) : List α × List α :=
  if colon ∈ name then (name.takeWhile (· ≠ colon), (name.dropWhile (· ≠ colon)).tail) else ([], name)

variable {colon : α} {site object : List α}

theorem splitQualified_append (hsite : colon ∉ site) : splitQualified colon (site ++ colon :: object) = (site, object) := by
  have hmem : colon ∈ site ++ colon :: object := List.mem_append_right _ List.mem_cons_self
  have hall : ∀ b ∈ site, decide (b ≠ colon) = true := fun b hb => decide_eq_true fun heq => hsite (heq ▸ hb)
  rw [splitQualified, if_pos hmem, List.takeWhile_append_of_pos hall, List.dropWhile_append_of_pos hall]
  simp

theorem splitQualified_of_mem (h : colon ∈ object) : (splitQualified colon object).2.length < object.length := by
  have hdrop : (object.dropWhile (· ≠ colon)).length ≤ object.length := (List.dropWhile_sublist _).length_le
  have hpos : 0 < object.length := List.length_pos_of_mem h
  rw [splitQualified, if_pos h, List.length_tail]
  omega

theorem splitQualified_of_not_mem (h : colon ∉ object) : splitQualified colon object = ([], object) := if_neg h

/-! ### Order -/

/-- How urgent a status is, by the words for the two that are not well. -/
def urgency (critical warning status : List α) : Nat := if status = critical then 0 else if status = warning then 1 else 2

variable [LT α] [DecidableLT α] (urgencyOf : η → Nat) (hostname : η → List α)

def moreUrgent (a b : η) : Bool :=
  if urgencyOf a ≠ urgencyOf b then urgencyOf a < urgencyOf b else hostname a < hostname b

/-- `sortHostsByUrgency`, which is stable. -/
def sortHostsByUrgency (hosts : List η) : List η := hosts.mergeSort fun a b => !moreUrgent urgencyOf hostname b a

theorem sortHostsByUrgency_perm (hosts : List η) : (sortHostsByUrgency urgencyOf hostname hosts).Perm hosts :=
  List.mergeSort_perm _ _

end Sysmon.HostOrder
