import Mathlib.Logic.Relation
import Sysmon.Lib.CText
import Sysmon.Schedule

/-!
# The neighbours of an object

`make_adjs` of `loadconfig.c` links the objects that the parser has listed. For each object it collects the
objects that its own dependencies name, and then the objects that name it, with a mark in every object that it
has collected; what it has collected goes into an array. A dependency is an edge between two objects that are
there, and the neighbours are its symmetric closure. But the number of neighbours is kept in an
`unsigned short`, and whoever goes through the array goes as far as that number says.
-/

namespace Sysmon.Schedule

open Sysmon.Reload CText

/-! ### The code -/

/-- The marks, `my_nei_list` with its newest entry first, and `numnei`. -/
structure Collecting where
  visit : Ref → Bool
  myNeiList : List Ref
  numnei : Nat

/-- What an object has of its neighbours: what has been written, the places of the array and `tot_nei`. -/
structure Adjacency where
  neighbors : List Ref
  slots : Nat
  totNei : UInt16

/-- The marks and the neighbours of all the objects. -/
structure Adjs where
  visit : Ref → Bool
  linked : Ref → Adjacency

section code

variable (heap : Heap) (root : List Ref)

def nameOf (here : Ref) : Option CStr := (heap here).map Element.uniqueName

/-- `make_adjs_add_neighbor`. -/
def addNeighbor (currentList : List Ref) (add : Ref) : List Ref :=
  if currentList.any fun nei => nameOf heap nei = nameOf heap add then currentList else add :: currentList

def Collecting.add (s : Collecting) (marked there : Ref) : Collecting where
  visit := Function.update s.visit marked true
  myNeiList := addNeighbor heap s.myNeiList there
  numnei := s.numnei + 1

/-- One dependency of the object itself. -/
def collectParent (s : Collecting) (dep : CStr) : Collecting :=
  match findObjectByName heap root (some dep) with
  | some found => if s.visit found then s else s.add heap found found
  | none => s

/-- The loop of `search_dep_list`, with the marks after it. -/
def searchDepList (visit : Ref → Bool) (here : Ref) (name : CStr) :
    List CStr → (Ref → Bool) × Option Ref
  | [] => (visit, none)
  | dep :: deps =>
      if visit here then (visit, none)
      else if dep = name then
        (Function.update visit here true, findObjectByName heap root (some dep))
      else searchDepList visit here name deps

/-- One object of the second loop. -/
def collectChild (here : Ref) (name : CStr) (s : Collecting) (here2 : Ref) : Collecting :=
  if here2 = here then s
  else
    match heap here2 with
    | none => s
    | some element =>
        let (visit, found) := searchDepList heap root s.visit here2 name element.depTxtName
        match found with
        | some found => { s with visit := visit }.add heap found here2
        | none => { s with visit := visit }

/-- One object of the outer loop: everything that is collected for it. -/
def collect (visit : Ref → Bool) (here : Ref) (element : Element) : Collecting :=
  root.foldl (collectChild heap root here element.uniqueName)
    (element.depTxtName.foldl (collectParent heap root) ⟨visit, [], 0⟩)

def linkObject (adjs : Adjs) (here : Ref) : Adjs :=
  match heap here with
  | none => adjs
  | some element =>
      let s := collect heap root adjs.visit here element
      if s.numnei = 0 then { adjs with visit := clearVisited root s.visit }
      else
        { visit := clearVisited root s.visit
          linked := Function.update adjs.linked here
            ⟨s.myNeiList, s.numnei, UInt16.ofNat s.myNeiList.length⟩ }

/-- What the parser leaves in new objects. -/
def Adjs.unlinked : Adjs := ⟨fun _ => false, fun _ => ⟨[], 0, 0⟩⟩

/-- `make_adjs`, on the objects as the parser has listed them. -/
def makeAdjs : Adjs := root.foldl (linkObject heap root) Adjs.unlinked

/-- The neighbours that a walk finds: as many places of the array as `tot_nei` says. -/
def neighborsOf (here : Ref) : List Ref :=
  ((makeAdjs heap root).linked here).neighbors.take ((makeAdjs heap root).linked here).totNei.toNat

end code

/-! ### What the arrays are for -/

/-- `here` names `there` as a dependency. -/
def DependsOn (heap : Heap) (here there : Ref) : Prop :=
  ∃ element ∈ heap here, nameOf heap there ∈ element.depTxtName.map some

instance (heap : Heap) : DecidableRel (DependsOn heap) := fun here there =>
  match h : heap here with
  | none => isFalse (by simp [DependsOn, h])
  | some element =>
      decidable_of_iff (nameOf heap there ∈ element.depTxtName.map some) (by simp [DependsOn, h])

/-- The objects that one of the two ties to the other. -/
def adjacent (heap : Heap) (objects : List Ref) (here : Ref) : List Ref :=
  objects.filter fun there => DependsOn heap here there ∨ DependsOn heap there here

/-- What the parser lists: objects that are there, each under a name of its own. -/
structure Listing where
  heap : Heap
  objects : List Ref
  there : ∀ here ∈ objects, (heap here).isSome
  distinct : (objects.map (nameOf heap)).Nodup

theorem Listing.nodup (l : Listing) : l.objects.Nodup := l.distinct.of_map _

theorem Listing.eq_of_nameOf (l : Listing) {here there : Ref} (hhere : here ∈ l.objects)
    (hthere : there ∈ l.objects) (h : nameOf l.heap here = nameOf l.heap there) : here = there :=
  List.inj_on_of_nodup_map l.distinct hhere hthere h

theorem find_some {heap : Heap} {root : List Ref} {name : CStr} {found : Ref}
    (h : findObjectByName heap root (some name) = some found) :
    found ∈ root ∧ nameOf heap found = some name := by
  have hname := List.find?_some h
  rw [Option.any_eq_true] at hname
  obtain ⟨element, helement, hname⟩ := hname
  refine ⟨List.mem_of_find?_eq_some h, ?_⟩
  rw [nameOf, helement, Option.map_some, of_decide_eq_true hname]

theorem find_none {heap : Heap} {root : List Ref} {name : CStr}
    (h : findObjectByName heap root (some name) = none) {there : Ref} (hthere : there ∈ root) :
    nameOf heap there ≠ some name := by
  intro hname
  obtain ⟨element, helement, heq⟩ := Option.map_eq_some_iff.mp hname
  refine absurd (List.find?_eq_none.mp h there hthere) (not_not_intro ?_)
  rw [helement, Option.any_some, heq]
  exact decide_eq_true rfl

theorem Listing.find_eq (l : Listing) {here : Ref} {name : CStr} (hhere : here ∈ l.objects)
    (hname : nameOf l.heap here = some name) :
    findObjectByName l.heap l.objects (some name) = some here := by
  cases hfind : findObjectByName l.heap l.objects (some name) with
  | none => exact absurd hname (find_none hfind hhere)
  | some found =>
      have hfound := find_some hfind
      rw [l.eq_of_nameOf hfound.1 hhere (hfound.2.trans hname.symm)]

/-! ### Collecting for one object -/

theorem searchDepList_eq (heap : Heap) (root : List Ref) (visit : Ref → Bool) (here : Ref) (name : CStr)
    (deps : List CStr) : searchDepList heap root visit here name deps =
      if visit here = false ∧ name ∈ deps then
        (Function.update visit here true, findObjectByName heap root (some name))
      else (visit, none) := by
  induction deps with
  | nil => simp [searchDepList]
  | cons dep deps ih =>
      rw [searchDepList]
      cases hvisit : visit here with
      | true => simp
      | false =>
          by_cases hdep : dep = name
          · simp [hdep]
          · simp [hdep, ih, hvisit, Ne.symm hdep]

/-- What has been collected are the objects with `P`, each of them once, and the marks tell them from the rest
where they count. -/
structure Collected (l : Listing) (counts P : Ref → Prop) (s : Collecting) : Prop where
  nodup : s.myNeiList.Nodup
  mem : ∀ there, there ∈ s.myNeiList ↔ there ∈ l.objects ∧ P there
  marked : ∀ there ∈ l.objects, counts there → (s.visit there = true ↔ there ∈ s.myNeiList)
  numnei : s.numnei = s.myNeiList.length

namespace Collected

variable {l : Listing} {counts P Q : Ref → Prop} {s : Collecting}

theorem congr (h : Collected l counts P s) (hiff : ∀ there ∈ l.objects, P there ↔ Q there) :
    Collected l counts Q s where
  nodup := h.nodup
  mem there := (h.mem there).trans (and_congr_right (hiff there))
  marked := h.marked
  numnei := h.numnei

theorem weaken {counts' : Ref → Prop} (h : Collected l counts P s)
    (hcounts : ∀ there, counts' there → counts there) :
    Collected l counts' P s where
  nodup := h.nodup
  mem := h.mem
  marked there hthere hcount := h.marked there hthere (hcounts there hcount)
  numnei := h.numnei

theorem nil {visit : Ref → Bool} (h : ∀ there ∈ l.objects, visit there = false) :
    Collected l (fun _ => True) (fun _ => False) ⟨visit, [], 0⟩ where
  nodup := List.nodup_nil
  mem there := by simp
  marked there hthere _ := by simp [h there hthere]
  numnei := rfl

/-- The names in the list are looked at, which comes to the same as the objects in it. -/
theorem addNeighbor_eq (h : Collected l counts P s) {there : Ref} (hthere : there ∈ l.objects)
    (hnot : there ∉ s.myNeiList) : addNeighbor l.heap s.myNeiList there = there :: s.myNeiList := by
  rw [addNeighbor, if_neg]
  intro hany
  obtain ⟨nei, hnei, hname⟩ := List.any_eq_true.mp hany
  have hsame := l.eq_of_nameOf ((h.mem nei).mp hnei).1 hthere (of_decide_eq_true hname)
  exact hnot (hsame ▸ hnei)

/-- An object that is not marked is collected, and marked on the way or before. -/
theorem add (h : Collected l counts P s) (visit : Ref → Bool) (marked : Ref) {there : Ref}
    (hthere : there ∈ l.objects) (hcounts : counts there) (hnew : s.visit there = false)
    (hvisit : ∀ other ∈ l.objects, counts other →
      (Function.update visit marked true other = true ↔ s.visit other = true ∨ other = there)) :
    Collected l counts (fun other => P other ∨ other = there)
      ({ s with visit := visit }.add l.heap marked there) := by
  have hnot : there ∉ s.myNeiList := fun hmem => by
    rw [(h.marked there hthere hcounts).mpr hmem] at hnew
    exact absurd hnew (by decide)
  have heq := h.addNeighbor_eq hthere hnot
  constructor
  · rw [Collecting.add, heq]
    exact List.nodup_cons.mpr ⟨hnot, h.nodup⟩
  · intro other
    rw [Collecting.add, heq, List.mem_cons, h.mem other]
    constructor
    · rintro (rfl | ⟨hmem, hP⟩)
      · exact ⟨hthere, .inr rfl⟩
      · exact ⟨hmem, .inl hP⟩
    · rintro ⟨hmem, hP | rfl⟩
      · exact .inr ⟨hmem, hP⟩
      · exact .inl rfl
  · intro other hother hcount
    rw [Collecting.add, heq, List.mem_cons, hvisit other hother hcount, h.marked other hother hcount]
    exact or_comm
  · rw [Collecting.add, heq, List.length_cons, h.numnei]

theorem parent (h : Collected l (fun _ => True) P s) (dep : CStr) :
    Collected l (fun _ => True) (fun there => P there ∨ nameOf l.heap there = some dep)
      (collectParent l.heap l.objects s dep) := by
  rw [collectParent]
  cases hfind : findObjectByName l.heap l.objects (some dep) with
  | none => exact h.congr fun there hthere => (or_iff_left (find_none hfind hthere)).symm
  | some found =>
      obtain ⟨hmem, hname⟩ := find_some hfind
      have hiff : ∀ there ∈ l.objects, there = found ↔ nameOf l.heap there = some dep := fun there hthere =>
        ⟨fun heq => heq ▸ hname, fun hsame => l.eq_of_nameOf hthere hmem (hsame.trans hname.symm)⟩
      dsimp only
      split_ifs with hvisit
      · have hP := ((h.mem found).mp ((h.marked found hmem trivial).mp hvisit)).2
        refine h.congr fun there hthere => ⟨Or.inl, ?_⟩
        rintro (hP' | hsame)
        · exact hP'
        · exact (hiff there hthere).mpr hsame ▸ hP
      · refine (h.add s.visit found hmem trivial (eq_false_of_ne_true hvisit) ?_).congr
          fun there hthere => or_congr_right (hiff there hthere)
        intro other _ _
        rw [Function.update_apply]
        split <;> simp_all

/-- The loop over the dependencies of the object itself. -/
theorem parents (h : Collected l (fun _ => True) P s) (deps : List CStr) :
    Collected l (fun _ => True) (fun there => P there ∨ nameOf l.heap there ∈ deps.map some)
      (deps.foldl (collectParent l.heap l.objects) s) := by
  induction deps generalizing P s with
  | nil => exact h.congr fun there _ => by simp
  | cons dep deps ih =>
      refine (ih (h.parent dep)).congr fun there _ => ?_
      rw [List.map_cons, List.mem_cons, or_assoc]

theorem child {here here2 : Ref} {name : CStr} (h : Collected l (· ≠ here) P s) (hhere : here ∈ l.objects)
    (hname : nameOf l.heap here = some name) (hhere2 : here2 ∈ l.objects) :
    Collected l (· ≠ here) (fun there => P there ∨ there = here2 ∧ there ≠ here ∧ DependsOn l.heap there here)
      (collectChild l.heap l.objects here name s here2) := by
  rw [collectChild]
  split_ifs with hself
  · exact h.congr fun there _ => ⟨Or.inl, fun hor => hor.resolve_right fun hand => hand.2.1 (hand.1.trans hself)⟩
  · obtain ⟨element, helement⟩ := Option.isSome_iff_exists.mp (l.there here2 hhere2)
    have hdepends : DependsOn l.heap here2 here ↔ name ∈ element.depTxtName := by
      simp [DependsOn, helement, hname]
    simp only [helement, searchDepList_eq]
    split_ifs with hfound
    · simp only [l.find_eq hhere hname]
      refine (h.add _ here hhere2 hself hfound.1 ?_).congr fun there _ => or_congr_right ?_
      · intro other _ hother
        rw [Function.update_of_ne hother, Function.update_apply]
        split <;> simp_all
      · refine ⟨fun heq => ⟨heq, heq ▸ hself, heq ▸ hdepends.mpr hfound.2⟩, And.left⟩
    · refine h.congr fun there hthere => ⟨Or.inl, ?_⟩
      rintro (hP | ⟨rfl, hne, hdep⟩)
      · exact hP
      · have hvisit : s.visit there = true := by
          by_contra hvisit
          exact hfound ⟨eq_false_of_ne_true hvisit, hdepends.mp hdep⟩
        exact ((h.mem there).mp ((h.marked there hthere hne).mp hvisit)).2

/-- The loop over the objects that may name this one. -/
theorem children {here : Ref} {name : CStr} (h : Collected l (· ≠ here) P s) (hhere : here ∈ l.objects)
    (hname : nameOf l.heap here = some name) {rest : List Ref} (hrest : ∀ there ∈ rest, there ∈ l.objects) :
    Collected l (· ≠ here) (fun there => P there ∨ there ∈ rest ∧ there ≠ here ∧ DependsOn l.heap there here)
      (rest.foldl (collectChild l.heap l.objects here name) s) := by
  induction rest generalizing P s with
  | nil => exact h.congr fun there _ => by simp
  | cons first rest ih =>
      have hchild := h.child hhere hname (hrest first List.mem_cons_self)
      refine (ih hchild fun there hmem => hrest there (List.mem_cons_of_mem _ hmem)).congr fun there _ => ?_
      rw [List.mem_cons, or_assoc, or_and_right]

end Collected

/-- The marks are cleared, so that one object's neighbours are collected: those it names and those that name
it. -/
theorem collect_collected (l : Listing) {visit : Ref → Bool} (hvisit : ∀ there ∈ l.objects, visit there = false)
    {here : Ref} {element : Element} (hhere : here ∈ l.objects) (helement : l.heap here = some element) :
    Collected l (· ≠ here) (Relation.SymmGen (DependsOn l.heap) here)
      (collect l.heap l.objects visit here element) := by
  have hname : nameOf l.heap here = some element.uniqueName := by rw [nameOf, helement, Option.map_some]
  have hparents := (Collected.nil hvisit).parents element.depTxtName
  have hchildren := (hparents.weaken fun _ _ => trivial).children hhere hname fun _ => id
  refine hchildren.congr fun there hthere => ?_
  have hdepends : DependsOn l.heap here there ↔ nameOf l.heap there ∈ element.depTxtName.map some := by
    simp [DependsOn, helement]
  rw [false_or, ← hdepends]
  change _ ∨ _ ↔ _ ∨ _
  constructor
  · rintro (hparent | ⟨-, -, hchild⟩)
    · exact .inl hparent
    · exact .inr hchild
  · rintro (hparent | hchild)
    · exact .inl hparent
    · by_cases hself : there = here
      · exact .inl (hself ▸ hchild)
      · exact .inr ⟨hthere, hself, hchild⟩

/-! ### All the objects -/

/-- One object has its neighbours. -/
def Linked (l : Listing) (here : Ref) (linked : Adjacency) : Prop :=
  ∃ neighbors : List Ref, neighbors.Perm (adjacent l.heap l.objects here) ∧
    linked = ⟨neighbors, neighbors.length, UInt16.ofNat neighbors.length⟩

theorem mem_adjacent {heap : Heap} {objects : List Ref} {here there : Ref} :
    there ∈ adjacent heap objects here ↔ there ∈ objects ∧ Relation.SymmGen (DependsOn heap) here there := by
  rw [adjacent, List.mem_filter, decide_eq_true_iff]
  rfl

theorem Collected.perm {l : Listing} {counts : Ref → Prop} {here : Ref} {s : Collecting}
    (h : Collected l counts (Relation.SymmGen (DependsOn l.heap) here) s) :
    s.myNeiList.Perm (adjacent l.heap l.objects here) :=
  (List.perm_ext_iff_of_nodup h.nodup (l.nodup.filter _)).mpr fun there => (h.mem there).trans mem_adjacent.symm

theorem linkObject_of_ne (heap : Heap) (root : List Ref) (adjs : Adjs) {here there : Ref} (h : there ≠ here) :
    (linkObject heap root adjs here).linked there = adjs.linked there := by
  rw [linkObject]
  split
  · rfl
  · dsimp only
    split_ifs
    · rfl
    · exact Function.update_of_ne h _ _

theorem linkObject_linked (l : Listing) {adjs : Adjs} (hvisit : ∀ there ∈ l.objects, adjs.visit there = false)
    {here : Ref} (hhere : here ∈ l.objects) (hnew : adjs.linked here = ⟨[], 0, 0⟩) :
    Linked l here ((linkObject l.heap l.objects adjs here).linked here) ∧
      ∀ there ∈ l.objects, (linkObject l.heap l.objects adjs here).visit there = false := by
  obtain ⟨element, helement⟩ := Option.isSome_iff_exists.mp (l.there here hhere)
  have hcollected := collect_collected l hvisit hhere helement
  simp only [linkObject, helement]
  split_ifs with hnone
  · refine ⟨⟨[], ?_, hnew⟩, fun there hthere => clearVisited_of_mem hthere⟩
    rw [hcollected.numnei, List.length_eq_zero_iff] at hnone
    exact hnone ▸ hcollected.perm
  · refine ⟨⟨_, hcollected.perm, ?_⟩, fun there hthere => clearVisited_of_mem hthere⟩
    dsimp only
    rw [Function.update_self, hcollected.numnei]

theorem linked_foldl (l : Listing) {rest : List Ref} (hrest : ∀ here ∈ rest, here ∈ l.objects)
    (hnodup : rest.Nodup) {adjs : Adjs} (hvisit : ∀ there ∈ l.objects, adjs.visit there = false)
    (hnew : ∀ here ∈ rest, adjs.linked here = ⟨[], 0, 0⟩) :
    (∀ here ∈ rest, Linked l here ((rest.foldl (linkObject l.heap l.objects) adjs).linked here)) ∧
      ∀ there ∉ rest, (rest.foldl (linkObject l.heap l.objects) adjs).linked there = adjs.linked there := by
  induction rest generalizing adjs with
  | nil => exact ⟨fun _ h => absurd h List.not_mem_nil, fun _ _ => rfl⟩
  | cons first rest ih =>
      obtain ⟨hfirst, hnodup⟩ := List.nodup_cons.mp hnodup
      obtain ⟨hlinked, hcleared⟩ := linkObject_linked l hvisit (hrest first List.mem_cons_self)
        (hnew first List.mem_cons_self)
      have hne : ∀ here ∈ rest, here ≠ first := fun here hhere heq => hfirst (heq ▸ hhere)
      obtain ⟨hmem, hframe⟩ := ih (fun here hhere => hrest here (List.mem_cons_of_mem _ hhere)) hnodup hcleared
        fun here hhere => (linkObject_of_ne _ _ _ (hne here hhere)).trans (hnew here (List.mem_cons_of_mem _ hhere))
      rw [List.foldl_cons]
      constructor
      · rintro here hhere
        obtain rfl | hhere := List.mem_cons.mp hhere
        · rw [hframe here hfirst]
          exact hlinked
        · exact hmem here hhere
      · intro there hthere
        rw [List.mem_cons, not_or] at hthere
        exact (hframe there hthere.2).trans (linkObject_of_ne _ _ _ hthere.1)

theorem makeAdjs_linked (l : Listing) {here : Ref} (hhere : here ∈ l.objects) :
    Linked l here ((makeAdjs l.heap l.objects).linked here) :=
  (linked_foldl l (fun _ => id) l.nodup (fun _ _ => rfl) fun _ _ => rfl).1 here hhere

/-- What a walk finds are neighbours, but only so many of them as `tot_nei` has left. -/
theorem neighborsOf_eq_take (l : Listing) {here : Ref} (hhere : here ∈ l.objects) :
    ∃ neighbors : List Ref, neighbors.Perm (adjacent l.heap l.objects here) ∧
      neighborsOf l.heap l.objects here = neighbors.take ((adjacent l.heap l.objects here).length % 65536) ∧
      ((makeAdjs l.heap l.objects).linked here).neighbors = neighbors ∧
      ((makeAdjs l.heap l.objects).linked here).slots = neighbors.length := by
  obtain ⟨neighbors, hperm, hlinked⟩ := makeAdjs_linked l hhere
  refine ⟨neighbors, hperm, ?_, by rw [hlinked], by rw [hlinked]⟩
  rw [neighborsOf, hlinked, ← hperm.length_eq]
  rfl

theorem mem_of_mem_neighborsOf (l : Listing) {here there : Ref} (hhere : here ∈ l.objects)
    (hthere : there ∈ neighborsOf l.heap l.objects here) :
    there ∈ l.objects ∧ Relation.SymmGen (DependsOn l.heap) here there := by
  obtain ⟨neighbors, hperm, htake, -⟩ := neighborsOf_eq_take l hhere
  rw [htake] at hthere
  exact mem_adjacent.mp (hperm.mem_iff.mp (List.mem_of_mem_take hthere))

/-- What the scheduling walk goes through, from the object of this name. -/
def Listing.graph (l : Listing) (rootName : Option CStr) : Graph where
  objects := l.objects
  neighbors here := (neighborsOf l.heap l.objects here).map some
  root := findObjectByName l.heap l.objects rootName
  closed here hhere there hthere := by
    obtain ⟨_, hmem, ⟨⟩⟩ := List.mem_map.mp hthere
    exact (mem_of_mem_neighborsOf l hhere hmem).1
  rooted here hroot := by
    cases rootName with
    | none => exact nomatch hroot
    | some name => exact (find_some hroot).1

/-- The neighbours are the symmetric closure of the dependencies, each of them once and in the array, exactly when
no object has so many that the number does not fit `tot_nei`. -/
theorem makeAdjs_iff (l : Listing) :
    (∀ here ∈ l.objects,
      (∀ there, there ∈ neighborsOf l.heap l.objects here ↔
        there ∈ l.objects ∧ Relation.SymmGen (DependsOn l.heap) here there) ∧
      (neighborsOf l.heap l.objects here).Nodup ∧
      ((makeAdjs l.heap l.objects).linked here).neighbors.length ≤
        ((makeAdjs l.heap l.objects).linked here).slots) ↔
    ∀ here ∈ l.objects, (adjacent l.heap l.objects here).length < 65536 := by
  refine forall₂_congr fun here hhere => ?_
  obtain ⟨neighbors, hperm, htake, hwritten, hslots⟩ := neighborsOf_eq_take l hhere
  have hnodup : (adjacent l.heap l.objects here).Nodup := l.nodup.filter _
  simp only [← mem_adjacent]
  constructor
  · rintro ⟨hmem, -, -⟩
    have hle := (hnodup.subperm fun there => (hmem there).mpr).length_le
    rw [htake, List.length_take] at hle
    omega
  · intro hfits
    rw [Nat.mod_eq_of_lt hfits, ← hperm.length_eq, List.take_length] at htake
    refine ⟨fun there => ?_, ?_, ?_⟩
    · rw [htake, hperm.mem_iff]
    · rw [htake]
      exact hperm.nodup_iff.mpr hnodup
    · rw [hwritten, hslots]

/-! ### A hub -/

def starName (here : Ref) : CStr := if here = 0 then "hub".toList else showNat here

theorem starName_injective : Function.Injective starName := by
  have hdigits : ∀ here, digits (showNat here) = here := fun here => by
    rw [← List.append_nil (showNat here)]
    exact digits_append nofun
  have hhub : ∀ here, "hub".toList ≠ showNat here := fun here heq => by
    have hmem : 'h' ∈ showNat here := heq ▸ by decide
    exact not_mem_showNat rfl here hmem
  intro here there h
  simp only [starName] at h
  split_ifs at h with hhere hthere hthere
  · rw [hhere, hthere]
  · exact absurd h (hhub there)
  · exact absurd h.symm (hhub here)
  · rw [← hdigits here, h, hdigits there]

/-- So many objects that all depend on one. -/
def star (leaves : Nat) : Listing where
  heap here := some ⟨starName here, HostInfo.zeroed, if here = 0 then [] else ["hub".toList]⟩
  objects := List.range (leaves + 1)
  there _ _ := rfl
  distinct := List.nodup_range.map fun _ _ h => starName_injective (Option.some.inj h)

theorem star_dependsOn (leaves : Nat) (here there : Ref) :
    DependsOn (star leaves).heap here there ↔ here ≠ 0 ∧ there = 0 := by
  have hname : some (starName there) = some "hub".toList ↔ there = 0 := by
    rw [Option.some.injEq]
    exact starName_injective.eq_iff (b := 0)
  by_cases hhere : here = 0
  · simp [DependsOn, star, hhere]
  · simpa [DependsOn, star, nameOf, hhere] using hname

theorem star_adjacent (leaves : Nat) : (adjacent (star leaves).heap (star leaves).objects 0).length = leaves := by
  have hobjects : (star leaves).objects = 0 :: (List.range leaves).map Nat.succ := List.range_succ_eq_map
  have hleaf : ∀ here ∈ (List.range leaves).map Nat.succ, here ≠ 0 := fun here hhere => by
    obtain ⟨before, -, rfl⟩ := List.mem_map.mp hhere
    exact Nat.succ_ne_zero before
  simp only [adjacent, star_dependsOn]
  rw [hobjects, List.filter_cons_of_neg (by decide), List.filter_eq_self.mpr, List.length_map, List.length_range]
  intro here hhere
  exact decide_eq_true (.inr ⟨hleaf here hhere, trivial⟩)

example : neighborsOf (star 3).heap (star 3).objects 0 = [3, 2, 1] := by decide

theorem mem_star {leaves here : Nat} (h : here ≤ leaves) : here ∈ (star leaves).objects :=
  List.mem_range.mpr (Nat.lt_succ_of_le h)

theorem star_neighborsOf {leaves : Nat} (h : leaves % 65536 = 0) :
    neighborsOf (star leaves).heap (star leaves).objects 0 = [] := by
  obtain ⟨neighbors, -, htake, -⟩ := neighborsOf_eq_take (star leaves) (mem_star (Nat.zero_le leaves))
  rw [htake, star_adjacent, h, List.take_zero]

/-- The number starts again from nothing: of 65536 objects that name the hub, the hub knows none. -/
theorem makeAdjs_hub_alone :
    1 ∈ (star 65536).objects ∧ DependsOn (star 65536).heap 1 0 ∧
      neighborsOf (star 65536).heap (star 65536).objects 0 = [] :=
  ⟨mem_star (by decide), (star_dependsOn 65536 1 0).mpr ⟨by decide, rfl⟩, star_neighborsOf (by decide)⟩

end Sysmon.Schedule
