import Mathlib.Data.List.Find
import Mathlib.Data.List.Infix
import Mathlib.Data.UInt

/-!
# White space

`strings.TrimSpace` and `strings.Fields`, of a string whose bytes are of any type. A space character is one byte or a
longer sequence, and a byte that is one by itself is no part of a longer one. So what stands between space characters of
one byte is trimmed and split as it would be alone.
-/

namespace GoSpace

/-- The space characters there are: those of one byte, and the longer ones. -/
structure Spaces (α : Type) where
  short : α → Bool
  wide : List (List α)
  nonempty : ∀ space ∈ wide, space ≠ []
  apart : ∀ space ∈ wide, ∀ a ∈ space, short a = false

namespace Spaces

variable {α : Type} [DecidableEq α] (k : Spaces α)

/-- The length of the space character that a text begins with, 0 if it begins with none. -/
def length : List α → Nat
  | [] => 0
  | a :: s => if k.short a then 1 else ((k.wide.find? fun space => space.isPrefixOf (a :: s)).map List.length).getD 0

/-- The space characters as they are met from behind. -/
def reverse : Spaces α where
  short := k.short
  wide := k.wide.map List.reverse
  nonempty := by
    intro space hspace
    obtain ⟨forward, hforward, rfl⟩ := List.mem_map.mp hspace
    exact fun hnil => k.nonempty forward hforward (List.reverse_eq_nil_iff.mp hnil)
  apart := by
    intro space hspace a ha
    obtain ⟨forward, hforward, rfl⟩ := List.mem_map.mp hspace
    exact k.apart forward hforward a (List.mem_reverse.mp ha)

/-- A text without the space characters it begins with, where so many bytes of the current one are still to be passed. -/
def skip : Nat → List α → List α
  | _, [] => []
  | left + 1, _ :: s => skip left s
  | 0, a :: s =>
      match k.length (a :: s) with
      | 0 => a :: s
      | left + 1 => skip left s

def trimLeft (s : List α) : List α := k.skip 0 s

def trimRight (s : List α) : List α := (k.reverse.skip 0 s.reverse).reverse

/-- `strings.TrimSpace`. -/
def trimSpace (s : List α) : List α := k.trimRight (k.trimLeft s)

/-- The loop of `strings.Fields`, with the field that is being read and the bytes of the current space character that
are still to be passed. -/
def fieldsLoop (field : List α) : Nat → List α → List (List α)
  | _, [] => if field = [] then [] else [field]
  | left + 1, _ :: s => fieldsLoop field left s
  | 0, a :: s =>
      match k.length (a :: s) with
      | 0 => fieldsLoop (field ++ [a]) 0 s
      | left + 1 => if field = [] then fieldsLoop [] left s else field :: fieldsLoop [] left s

/-- `strings.Fields`. -/
def fields (s : List α) : List (List α) := k.fieldsLoop [] 0 s

/-! ### The bytes of a space character -/

def inSpace (a : α) : Bool := k.short a || k.wide.any fun space => space.contains a

def beginsSpace (a : α) : Bool := k.short a || k.wide.any fun space => space.head? = some a

def endsSpace (a : α) : Bool := k.short a || k.wide.any fun space => space.getLast? = some a

variable {k}

theorem inSpace_of_short {a : α} (h : k.short a = true) : k.inSpace a = true := by rw [inSpace, h, Bool.true_or]

theorem inSpace_of_wide {space : List α} (hspace : space ∈ k.wide) {a : α} (ha : a ∈ space) : k.inSpace a = true := by
  rw [inSpace, Bool.or_eq_true, List.any_eq_true]
  exact Or.inr ⟨space, hspace, by simpa using ha⟩

theorem endsSpace_of_short {a : α} (h : k.short a = true) : k.endsSpace a = true := by rw [endsSpace, h, Bool.true_or]

theorem endsSpace_of_wide {space : List α} (hspace : space ∈ k.wide) : space.getLast?.all k.endsSpace = true := by
  cases hlast : space.getLast? with
  | none => rfl
  | some a =>
      rw [Option.all_some, endsSpace, Bool.or_eq_true, List.any_eq_true]
      exact Or.inr ⟨space, hspace, decide_eq_true hlast⟩

theorem beginsSpace_eq_false {a : α} :
    k.beginsSpace a = false ↔ k.short a = false ∧ ∀ space ∈ k.wide, space.head? ≠ some a := by
  rw [beginsSpace, Bool.or_eq_false_iff, List.any_eq_false]
  simp only [decide_eq_true_eq, ne_eq]

/-- A byte that is part of no space character begins none, and ends none. -/
theorem begins_of_outside {a : α} (h : k.inSpace a = false) : k.beginsSpace a = false ∧ k.reverse.beginsSpace a = false := by
  have hshort : k.short a = false := by
    rw [inSpace, Bool.or_eq_false_iff] at h
    exact h.1
  have hnot : ∀ space ∈ k.wide, a ∉ space := fun space hspace ha =>
    absurd (h.symm.trans (inSpace_of_wide hspace ha)) (by decide)
  refine ⟨beginsSpace_eq_false.mpr ⟨hshort, fun space hspace hhead => hnot space hspace (List.mem_of_head? hhead)⟩,
    beginsSpace_eq_false.mpr ⟨hshort, fun space hspace hhead => ?_⟩⟩
  obtain ⟨forward, hforward, rfl⟩ := List.mem_map.mp hspace
  rw [List.head?_reverse] at hhead
  exact hnot forward hforward (List.mem_of_getLast? hhead)

/-! ### The length of a space character -/

theorem length_short {a : α} (h : k.short a = true) (s : List α) : k.length (a :: s) = 1 := if_pos h

theorem length_of_find {a : α} (h : k.short a = false) (s : List α) :
    k.length (a :: s) = ((k.wide.find? fun space => space.isPrefixOf (a :: s)).map List.length).getD 0 :=
  if_neg (Bool.eq_false_iff.mp h)

theorem length_spec {s : List α} {n : Nat} (h : k.length s = n + 1) :
    ∃ space rest, s = space ++ rest ∧ space.length = n + 1 ∧
      ((∃ a, space = [a] ∧ k.short a = true) ∨ space ∈ k.wide) := by
  cases s with
  | nil => cases h
  | cons a s =>
      cases hshort : k.short a with
      | true =>
          rw [length_short hshort] at h
          exact ⟨[a], s, rfl, h, Or.inl ⟨a, rfl, hshort⟩⟩
      | false =>
          rw [length_of_find hshort] at h
          cases hfind : k.wide.find? fun space => space.isPrefixOf (a :: s) with
          | none =>
              rw [hfind] at h
              cases h
          | some space =>
              rw [hfind] at h
              have hfound := List.find?_some hfind
              obtain ⟨rest, hrest⟩ := List.isPrefixOf_iff_prefix.mp hfound
              exact ⟨space, rest, hrest.symm, h, Or.inr (List.mem_of_find?_eq_some hfind)⟩

theorem length_le (s : List α) : k.length s ≤ s.length := by
  cases h : k.length s with
  | zero => exact Nat.zero_le _
  | succ n =>
      obtain ⟨space, rest, rfl, hspace, -⟩ := length_spec h
      rw [List.length_append, hspace]
      exact Nat.le_add_right _ _

/-- None stands there, of one byte or longer. -/
theorem length_eq_zero {s : List α} :
    k.length s = 0 ↔ (∀ a ∈ s.head?, k.short a = false) ∧ ∀ space ∈ k.wide, ¬space <+: s := by
  cases s with
  | nil =>
      refine ⟨fun _ => ⟨fun a ha => absurd ha (by simp), fun space hspace h => ?_⟩, fun _ => rfl⟩
      exact k.nonempty space hspace (List.prefix_nil.mp h)
  | cons a s =>
      cases hshort : k.short a with
      | true =>
          rw [length_short hshort]
          exact ⟨fun h => absurd h (by decide), fun h => absurd ((h.1 a rfl).symm.trans hshort) (by decide)⟩
      | false =>
          rw [length_of_find hshort]
          cases hfind : k.wide.find? fun space => space.isPrefixOf (a :: s) with
          | none =>
              rw [List.find?_eq_none] at hfind
              refine ⟨fun _ => ⟨fun b hb => ?_, fun space hspace h => ?_⟩, fun _ => rfl⟩
              · obtain rfl := Option.some.inj hb
                exact hshort
              · exact hfind space hspace (List.isPrefixOf_iff_prefix.mpr h)
          | some space =>
              have hmem := List.mem_of_find?_eq_some hfind
              have hfound := List.find?_some hfind
              have hfront := List.isPrefixOf_iff_prefix.mp hfound
              exact ⟨fun h => absurd (List.length_eq_zero_iff.mp h) (k.nonempty space hmem),
                fun h => absurd hfront (h.2 space hmem)⟩

theorem length_zero {a : α} (h : k.beginsSpace a = false) (s : List α) : k.length (a :: s) = 0 := by
  obtain ⟨hshort, hwide⟩ := beginsSpace_eq_false.mp h
  refine length_eq_zero.mpr ⟨fun b hb => ?_, fun space hspace hfront => ?_⟩
  · obtain rfl := Option.some.inj hb
    exact hshort
  · obtain ⟨b, more, rfl⟩ := List.exists_cons_of_ne_nil (k.nonempty space hspace)
    exact hwide _ hspace (congrArg some (List.cons_prefix_cons.mp hfront).1)

/-- No space character ends where a text ends whose bytes begin none. -/
theorem length_reverse_zero {s : List α} (h : ∀ a ∈ s, k.beginsSpace a = false) : k.reverse.length s.reverse = 0 := by
  refine length_eq_zero.mpr ⟨fun a ha => ?_, fun space hspace hfront => ?_⟩
  · exact (beginsSpace_eq_false.mp (h a (List.mem_reverse.mp (List.mem_of_head? ha)))).1
  · obtain ⟨forward, hforward, rfl⟩ := List.mem_map.mp hspace
    obtain ⟨a, more, rfl⟩ := List.exists_cons_of_ne_nil (k.nonempty forward hforward)
    have ha := (List.reverse_prefix.mp hfront).subset List.mem_cons_self
    exact (beginsSpace_eq_false.mp (h a ha)).2 _ hforward rfl

/-- A text begins with no space character that the whole does not begin with. -/
theorem length_zero_of_part {s t : List α} (hpart : s <+: t) (h : k.length t = 0) : k.length s = 0 := by
  obtain ⟨hshort, hwide⟩ := length_eq_zero.mp h
  refine length_eq_zero.mpr ⟨fun a ha => hshort a ?_, fun space hspace hfront => hwide space hspace (hfront.trans hpart)⟩
  obtain ⟨rest, rfl⟩ := List.head?_eq_some_iff.mp ha
  obtain ⟨more, rfl⟩ := hpart
  rfl

/-- A byte behind which no space character goes on. What stands there does not matter in front of it. -/
def Border (k : Spaces α) (b : α) : Prop := ∀ space ∈ k.wide, b ∉ space.tail

omit [DecidableEq α] in
theorem border_short {b : α} (h : k.short b = true) : k.Border b := fun space hspace hb =>
  absurd ((k.apart space hspace b (List.mem_of_mem_tail hb)).symm.trans h) (by decide)

theorem length_border {b : α} (hb : k.Border b) (a : α) (q t : List α) :
    k.length (a :: (q ++ b :: t)) = k.length (a :: q) := by
  have hsame : ∀ space ∈ k.wide, space.isPrefixOf (a :: (q ++ b :: t)) = space.isPrefixOf (a :: q) := by
    intro space hspace
    rw [Bool.eq_iff_iff, List.isPrefixOf_iff_prefix, List.isPrefixOf_iff_prefix]
    refine ⟨fun h => ?_, fun h => h.trans ⟨b :: t, rfl⟩⟩
    obtain hshort | ⟨more, rfl⟩ := List.prefix_or_prefix_of_prefix h (List.prefix_append (a :: q) (b :: t))
    · exact hshort
    · cases more with
      | nil => rw [List.append_nil]
      | cons c more =>
          have hmore := (List.prefix_append_right_inj (a :: q)).mp h
          obtain ⟨rfl, -⟩ := List.cons_prefix_cons.mp hmore
          exact absurd (List.mem_append_right q List.mem_cons_self) (hb _ hspace)
  cases hshort : k.short a with
  | true => rw [length_short hshort, length_short hshort]
  | false => rw [length_of_find hshort, length_of_find hshort, List.find?_congr hsame]

/-! ### Trimming -/

theorem skip_drop (left : Nat) (s : List α) : k.skip left s = k.skip 0 (s.drop left) := by
  induction left generalizing s with
  | zero => rfl
  | succ left ih =>
      cases s with
      | nil => rfl
      | cons a s => exact ih s

theorem skip_of_zero {s : List α} (h : k.length s = 0) : k.skip 0 s = s := by
  cases s with
  | nil => rfl
  | cons a s => rw [skip, h]

theorem length_skip (left : Nat) (s : List α) : k.length (k.skip left s) = 0 := by
  induction s generalizing left with
  | nil => cases left <;> rfl
  | cons a s ih =>
      cases left with
      | succ left => exact ih left
      | zero =>
          rw [skip]
          split
          · assumption
          · exact ih _

theorem skip_suffix (left : Nat) (s : List α) : k.skip left s <:+ s := by
  induction s generalizing left with
  | nil => cases left <;> exact List.suffix_rfl
  | cons a s ih =>
      cases left with
      | succ left => exact (ih left).trans (List.suffix_cons a s)
      | zero =>
          rw [skip]
          split
          · exact List.suffix_rfl
          · exact (ih _).trans (List.suffix_cons a s)

/-- What is skipped is white space, to its last byte. -/
theorem skip_spec (s : List α) : ∃ spaces, s = spaces ++ k.skip 0 s ∧ (∀ a ∈ spaces, k.inSpace a = true) ∧
    spaces.getLast?.all k.endsSpace = true := by
  induction hn : s.length using Nat.strong_induction_on generalizing s with
  | _ n ih =>
      cases hlength : k.length s with
      | zero => exact ⟨[], by rw [skip_of_zero hlength, List.nil_append], fun a ha => absurd ha List.not_mem_nil, rfl⟩
      | succ left =>
          obtain ⟨space, rest, rfl, hspace, hkind⟩ := length_spec hlength
          have hskip : k.skip 0 (space ++ rest) = k.skip 0 rest := by
            obtain ⟨a, more, rfl⟩ := List.exists_cons_of_length_eq_add_one hspace
            rw [List.length_cons, Nat.add_right_cancel_iff] at hspace
            rw [List.cons_append] at hlength ⊢
            rw [skip, hlength]
            change k.skip left (more ++ rest) = _
            rw [skip_drop, ← hspace, List.drop_left]
          have hshorter : rest.length < n := by
            rw [← hn, List.length_append]
            omega
          obtain ⟨spaces, hspaces, hall, hlast⟩ := ih _ hshorter rest rfl
          refine ⟨space ++ spaces, by rw [hskip, List.append_assoc, ← hspaces], fun a ha => ?_, ?_⟩
          · obtain ha | ha := List.mem_append.mp ha
            · obtain ⟨b, rfl, hb⟩ | hwide := hkind
              · rw [List.mem_singleton.mp ha, inSpace_of_short hb]
              · exact inSpace_of_wide hwide ha
            · exact hall a ha
          · rw [List.getLast?_append]
            cases hend : spaces.getLast? with
            | some a => rwa [hend] at hlast
            | none =>
                rw [Option.none_or]
                obtain ⟨b, rfl, hb⟩ | hwide := hkind
                · rw [List.getLast?_singleton, Option.all_some, endsSpace_of_short hb]
                · exact endsSpace_of_wide hwide

theorem skip_short {blanks : List α} (h : blanks.all k.short = true) (s : List α) :
    k.skip 0 (blanks ++ s) = k.skip 0 s := by
  induction blanks with
  | nil => rfl
  | cons a blanks ih =>
      rw [List.all_cons, Bool.and_eq_true] at h
      rw [List.cons_append, skip, length_short h.1]
      exact ih h.2

theorem skip_append_short {after : List α} (h : after.all k.short = true) (s : List α) {left : Nat}
    (hle : left ≤ s.length) :
    k.skip left (s ++ after) = if k.skip left s = [] then [] else k.skip left s ++ after := by
  induction s generalizing left with
  | nil =>
      obtain rfl : left = 0 := Nat.le_zero.mp hle
      have hall := skip_short h []
      rw [List.append_nil] at hall
      rw [List.nil_append, hall]
      rfl
  | cons a s ih =>
      cases left with
      | succ left => exact ih (Nat.le_of_succ_le_succ hle)
      | zero =>
          have hspace : k.length (a :: (s ++ after)) = k.length (a :: s) := by
            cases after with
            | nil => rw [List.append_nil]
            | cons c after =>
                rw [List.all_cons, Bool.and_eq_true] at h
                exact length_border (border_short h.1) a s after
          have hshorter := k.length_le (a :: s)
          rw [List.cons_append, skip, skip, hspace]
          cases hlength : k.length (a :: s) with
          | zero => exact (if_neg (List.cons_ne_nil a s)).symm
          | succ left =>
              rw [hlength, List.length_cons] at hshorter
              exact ih (Nat.le_of_succ_le_succ hshorter)

theorem trimRight_begins (s : List α) : k.trimRight s <+: s := by
  rw [trimRight, ← List.reverse_suffix, List.reverse_reverse]
  exact skip_suffix 0 s.reverse

theorem trimRight_append_short {after : List α} (h : after.all k.short = true) (s : List α) :
    k.trimRight (s ++ after) = k.trimRight s := by
  have hback : after.reverse.all k.reverse.short = true := by
    rw [List.all_reverse]
    exact h
  rw [trimRight, List.reverse_append, skip_short hback, trimRight]

/-- What is left is a part of the text. -/
theorem trimSpace_part (s : List α) : k.trimSpace s <:+: s :=
  (trimRight_begins _).isInfix.trans (skip_suffix 0 s).isInfix

theorem trimSpace_short_append {before : List α} (h : before.all k.short = true) (s : List α) :
    k.trimSpace (before ++ s) = k.trimSpace s := by
  rw [trimSpace, trimLeft, skip_short h, trimSpace, trimLeft]

theorem trimSpace_append_short {after : List α} (h : after.all k.short = true) (s : List α) :
    k.trimSpace (s ++ after) = k.trimSpace s := by
  rw [trimSpace, trimSpace, trimLeft, trimLeft, skip_append_short h s (Nat.zero_le _)]
  split
  next hnil => rw [hnil]
  · rw [trimRight_append_short h]

/-- A text that neither begins nor ends with a space character stays as it is. -/
theorem trimSpace_of_zero {s : List α} (hfirst : k.length s = 0) (hlast : k.reverse.length s.reverse = 0) :
    k.trimSpace s = s := by
  rw [trimSpace, trimLeft, skip_of_zero hfirst, trimRight, skip_of_zero hlast, List.reverse_reverse]

theorem trimSpace_trimSpace (s : List α) : k.trimSpace (k.trimSpace s) = k.trimSpace s := by
  refine trimSpace_of_zero (length_zero_of_part (trimRight_begins _) (length_skip 0 s)) ?_
  rw [trimSpace, trimRight, List.reverse_reverse]
  exact length_skip 0 _

/-- And it is what is left of it between space characters of one byte. -/
theorem trimSpace_between {before text after : List α} (hbefore : before.all k.short = true)
    (hafter : after.all k.short = true) (hfirst : k.length text = 0) (hlast : k.reverse.length text.reverse = 0) :
    k.trimSpace (before ++ (text ++ after)) = text := by
  rw [trimSpace_short_append hbefore, trimSpace_append_short hafter, trimSpace_of_zero hfirst hlast]

/-! ### Fields -/

theorem fieldsLoop_short {blanks : List α} (h : blanks.all k.short = true) (rest : List α) :
    k.fieldsLoop [] 0 (blanks ++ rest) = k.fieldsLoop [] 0 rest := by
  induction blanks with
  | nil => rfl
  | cons a blanks ih =>
      rw [List.all_cons, Bool.and_eq_true] at h
      rw [List.cons_append, fieldsLoop, length_short h.1]
      exact ih h.2

/-- What is split before a border does not depend on what stands behind it. -/
theorem fieldsLoop_border {b : α} (hb : k.Border b) (hbegins : k.beginsSpace b = false) (q field : List α) (left : Nat)
    (hleft : left ≤ q.length) :
    ∃ fields word, ∀ t, k.fieldsLoop field left (q ++ b :: t) = fields ++ k.fieldsLoop (word ++ [b]) 0 t := by
  induction q generalizing field left with
  | nil =>
      obtain rfl : left = 0 := Nat.le_zero.mp hleft
      refine ⟨[], field, fun t => ?_⟩
      rw [List.nil_append, List.nil_append, fieldsLoop, length_zero hbegins]
  | cons a q ih =>
      cases left with
      | succ left =>
          obtain ⟨fields, word, h⟩ := ih field left (Nat.le_of_succ_le_succ hleft)
          exact ⟨fields, word, h⟩
      | zero =>
          have hsame := length_border hb a q
          have hle := k.length_le (a :: q)
          cases hlength : k.length (a :: q) with
          | zero =>
              obtain ⟨fields, word, h⟩ := ih (field ++ [a]) 0 (Nat.zero_le _)
              refine ⟨fields, word, fun t => ?_⟩
              rw [List.cons_append, fieldsLoop, hsame t, hlength]
              exact h t
          | succ left =>
              rw [hlength, List.length_cons] at hle
              obtain ⟨fields, word, h⟩ := ih [] left (Nat.le_of_succ_le_succ hle)
              refine ⟨if field = [] then fields else field :: fields, word, fun t => ?_⟩
              rw [List.cons_append, fieldsLoop, hsame t, hlength]
              by_cases hfield : field = []
              · rw [if_pos hfield]
                exact (if_pos hfield).trans (h t)
              · rw [if_neg hfield]
                exact (if_neg hfield).trans (congrArg (field :: ·) (h t))

/-- The word that is being read goes on, and nothing else depends on it. -/
theorem fieldsLoop_word (t : List α) :
    ∃ more fields, ∀ word, word ≠ [] → k.fieldsLoop word 0 t = (word ++ more) :: fields := by
  induction t with
  | nil =>
      refine ⟨[], [], fun word hword => ?_⟩
      rw [fieldsLoop, if_neg hword, List.append_nil]
  | cons a t ih =>
      cases hlength : k.length (a :: t) with
      | zero =>
          obtain ⟨more, fields, h⟩ := ih
          refine ⟨a :: more, fields, fun word hword => ?_⟩
          rw [fieldsLoop, hlength]
          exact (h (word ++ [a]) (List.append_ne_nil_of_right_ne_nil _ (List.cons_ne_nil _ _))).trans
            (by rw [List.append_assoc, List.singleton_append])
      | succ left =>
          refine ⟨[], k.fieldsLoop [] left t, fun word hword => ?_⟩
          rw [fieldsLoop, hlength, List.append_nil]
          exact if_neg hword

theorem fieldsLoop_run {run : List α} (hrun : ∀ a ∈ run, k.beginsSpace a = false) (word t : List α) :
    k.fieldsLoop word 0 (run ++ t) = k.fieldsLoop (word ++ run) 0 t := by
  induction run generalizing word with
  | nil => rw [List.nil_append, List.append_nil]
  | cons a run ih =>
      rw [List.cons_append, fieldsLoop, length_zero (hrun a List.mem_cons_self)]
      exact (ih (fun b hb => hrun b (List.mem_cons_of_mem a hb)) (word ++ [a])).trans
        (by rw [List.append_assoc, List.singleton_append])

end Spaces

/-! ### Spaces of UTF-8 -/

/-- The space characters of `unicode.IsSpace` that are longer than one byte. -/
def utf8 : List (List Nat) :=
  [0xc2, 0x85] :: [0xc2, 0xa0] :: [0xe1, 0x9a, 0x80] :: [0xe2, 0x81, 0x9f] :: [0xe3, 0x80, 0x80] ::
    ([0x80, 0x81, 0x82, 0x83, 0x84, 0x85, 0x86, 0x87, 0x88, 0x89, 0x8a, 0xa8, 0xa9, 0xaf].map fun last =>
      [0xe2, 0x80, last])

theorem utf8_high : ∀ space ∈ utf8, ∀ b ∈ space, 128 ≤ b ∧ b < 256 := by decide

theorem le_of_mem_utf8 {space : List UInt8} (h : space ∈ utf8.map fun space => space.map UInt8.ofNat) {a : UInt8}
    (ha : a ∈ space) : 128 ≤ a := by
  obtain ⟨codes, hcodes, rfl⟩ := List.mem_map.mp h
  obtain ⟨b, hb, rfl⟩ := List.mem_map.mp ha
  obtain ⟨hlow, hhigh⟩ := utf8_high codes hcodes b hb
  rw [UInt8.le_iff_toNat_le, UInt8.toNat_ofNat_of_lt' hhigh]
  exact hlow

/-- Those of a string of bytes. -/
def byteSpaces : Spaces UInt8 where
  short b := (9 ≤ b && b ≤ 13) || b = 32
  wide := utf8.map fun space => space.map UInt8.ofNat
  nonempty := by decide
  apart := by
    intro space hspace a ha
    have hhigh : 128 ≤ a.toNat := UInt8.le_iff_toNat_le.mp (le_of_mem_utf8 hspace ha)
    have hcontrol : ¬a ≤ 13 := fun hle => by
      have hlow : a.toNat ≤ 13 := UInt8.le_iff_toNat_le.mp hle
      omega
    have hblank : a ≠ 32 := by
      rintro rfl
      exact absurd hhigh (by decide)
    simp [hcontrol, hblank]

theorem border_ascii {b : UInt8} (hb : b < 128) : byteSpaces.Border b :=
  fun _ hspace hmem => absurd hb (UInt8.not_lt.mpr (le_of_mem_utf8 hspace (List.mem_of_mem_tail hmem)))

end GoSpace
