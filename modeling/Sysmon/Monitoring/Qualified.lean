import Sysmon.Agents.Registry
import Sysmon.Monitoring.Delta
import Sysmon.Parser.Object

/-!
# Names in the fleet

An object is known by the site it is at and the name it has there, written as one key: `Qualify` puts the two
together and `SplitQualified` takes them apart. A site has no colon in its name, so a key with a site reads back;
but the local site is not written, and an object can have any name that the daemon's parser takes.
-/

namespace Sysmon.Monitoring

open Agents (GoString validSiteName)
open Fleet (ascii)

/-! ### The code -/

/-- The name of a site, or that of none. -/
structure SiteName where
  name : GoString
  valid : name = [] ∨ validSiteName name = true

def isLocal (site : GoString) : Bool := site = [] || site = ascii "local"

/-- `Qualify`. -/
def qualify (site object : GoString) : GoString := if isLocal site then object else site ++ 58 :: object

/-! ### Reading a key back -/

/-- The local site goes without a name. -/
def canonical (site : GoString) : GoString := if isLocal site then [] else site

variable {site site' object object' : GoString}

theorem SiteName.noColon (site : SiteName) : 58 ∉ site.name := by
  obtain hnil | hvalid := site.valid
  · rw [hnil]
    exact List.not_mem_nil
  · intro hmem
    rw [validSiteName, Bool.and_eq_true] at hvalid
    exact absurd (List.all_eq_true.mp hvalid.2 58 hmem) (by decide)

/-- A key is read back unless it is that of a local object with a colon in its name. -/
theorem splitQualified_qualify_iff (site : SiteName) (object : GoString) :
    splitQualified (qualify site.name object) = (canonical site.name, object) ↔
      (isLocal site.name = true → 58 ∉ object) := by
  rw [qualify, canonical]
  cases hlocal : isLocal site.name with
  | false => simp [splitQualified, HostOrder.splitQualified_append site.noColon]
  | true =>
      simp only [if_true, forall_const]
      constructor
      · intro hsplit hmem
        have hshort := HostOrder.splitQualified_of_mem hmem
        rw [splitQualified] at hsplit
        rw [hsplit] at hshort
        exact lt_irrefl _ hshort
      · exact fun hmem => HostOrder.splitQualified_of_not_mem hmem

/-- Two keys are the same if they are of one object, or of a local one whose name is the key of the other. -/
theorem qualify_eq_iff (site site' : SiteName) :
    qualify site.name object = qualify site'.name object' ↔
      (canonical site.name = canonical site'.name ∧ object = object') ∨
        (isLocal site.name = true ∧ isLocal site'.name = false ∧ object = site'.name ++ 58 :: object') ∨
        (isLocal site.name = false ∧ isLocal site'.name = true ∧ object' = site.name ++ 58 :: object) := by
  have hne : ∀ s : SiteName, isLocal s.name = false → s.name ≠ [] := fun s h heq => by
    rw [heq] at h
    exact absurd h (by decide)
  rw [qualify, qualify, canonical, canonical]
  cases hlocal : isLocal site.name <;> cases hlocal' : isLocal site'.name
  · simp only [Bool.false_eq_true, if_false, false_and, and_false, or_false]
    constructor
    · intro heq
      have hsplit := congrArg splitQualified heq
      rw [splitQualified, splitQualified, HostOrder.splitQualified_append site.noColon,
        HostOrder.splitQualified_append site'.noColon] at hsplit
      exact Prod.mk.inj hsplit
    · rintro ⟨hsite, rfl⟩
      rw [hsite]
  · simp [hne site hlocal, eq_comm]
  · simp [(hne site' hlocal').symm]
  · simp

/-- The keys of a fleet tell its objects apart and read back as them exactly when no local object has a colon in its
name. -/
theorem qualify_unambiguous_iff (fleet : Set (SiteName × GoString)) :
    ((∀ p ∈ fleet, splitQualified (qualify p.1.name p.2) = (canonical p.1.name, p.2)) ∧
      ∀ p ∈ fleet, ∀ q ∈ fleet, qualify p.1.name p.2 = qualify q.1.name q.2 →
        (canonical p.1.name, p.2) = (canonical q.1.name, q.2)) ↔
    ∀ p ∈ fleet, isLocal p.1.name = true → 58 ∉ p.2 := by
  constructor
  · exact fun h p hp => (splitQualified_qualify_iff p.1 p.2).mp (h.1 p hp)
  · intro h
    have hround : ∀ p ∈ fleet, splitQualified (qualify p.1.name p.2) = (canonical p.1.name, p.2) :=
      fun p hp => (splitQualified_qualify_iff p.1 p.2).mpr (h p hp)
    refine ⟨hround, fun p hp q hq hsame => ?_⟩
    rw [← hround p hp, ← hround q hq, hsame]

/-- An object called `b:x` in the configuration of the local daemon has the key of `x` at the site `b`. -/
theorem qualify_clash :
    (∀ s : Sysmon.Parser.Scratch, (s.openObject "object b:x \x7b".toList).name = some "b:x".toList) ∧
      validSiteName (ascii "b") = true ∧ qualify [] (ascii "b:x") = qualify (ascii "b") (ascii "x") ∧
      splitQualified (qualify [] (ascii "b:x")) = (ascii "b", ascii "x") := by
  refine ⟨fun s => ?_, by decide, by decide, by decide⟩
  have hname : ((("object b:x \x7b".toList).drop 6).dropWhile CText.isspace).takeWhile
      (fun c => !CText.isspace c) = "b:x".toList := by decide
  exact congrArg some hname

end Sysmon.Monitoring
