import Mathlib.Data.List.Basic
import Mathlib.Data.UInt

/-!
# Names on the wire

A name is a list of labels. On the wire each label has its length in front, in one octet, and an octet of zero is the
end; in text there are dots between the labels, and there may be one behind the last. A length of more than 63 is not
one of a label.
-/

namespace Labels

/-- A label that has its length in an octet. -/
def Valid (label : List UInt8) : Prop := 1 ≤ label.length ∧ label.length ≤ 63

instance (label : List UInt8) : Decidable (Valid label) := inferInstanceAs (Decidable (_ ∧ _))

/-- A label with its length, as much of it as fits. -/
def octets (label : List UInt8) : List UInt8 := UInt8.ofNat label.length :: label

/-- The labels, without the zero behind them. -/
def encode (labels : List (List UInt8)) : List UInt8 := labels.flatMap octets

/-- The labels, and what is behind the zero. -/
def decode : List UInt8 → Option (List (List UInt8) × List UInt8)
  | [] => none
  | c :: s =>
      if c = 0 then some ([], s)
      else if 63 < c.toNat ∨ s.length < c.toNat then none
      else (decode (s.drop c.toNat)).map fun (labels, rest) => (s.take c.toNat :: labels, rest)
termination_by s => s.length
decreasing_by
  simp only [List.length_drop, List.length_cons]
  omega

variable {label s rest tail : List UInt8} {labels : List (List UInt8)}

@[simp] theorem encode_nil : encode [] = [] := rfl

@[simp] theorem encode_cons (label : List UInt8) (labels : List (List UInt8)) :
    encode (label :: labels) = octets label ++ encode labels := List.flatMap_cons

theorem decode_zero (s : List UInt8) : decode (0 :: s) = some ([], s) := by
  rw [decode, if_pos rfl]

theorem toNat_length (label : List UInt8) : (UInt8.ofNat label.length).toNat = label.length % 256 := rfl

theorem octet_ne_zero (h : 0 < label.length % 256) : UInt8.ofNat label.length ≠ 0 := by
  intro heq
  have htoNat := toNat_length label
  rw [heq, UInt8.toNat_zero] at htoNat
  omega

theorem decode_octets (hzero : 0 < label.length % 256) (hshort : label.length % 256 ≤ 63) (s : List UInt8) :
    decode (octets label ++ s) = (decode (label.drop (label.length % 256) ++ s)).map fun (labels, rest) =>
      (label.take (label.length % 256) :: labels, rest) := by
  have hle : label.length % 256 ≤ label.length := Nat.mod_le _ _
  rw [octets, List.cons_append, decode, if_neg (octet_ne_zero hzero), toNat_length, if_neg,
    List.take_append_of_le_length hle, List.drop_append_of_le_length hle]
  rw [List.length_append]
  omega

theorem decode_label (h : Valid label) (s : List UInt8) : decode (octets label ++ s) =
    (decode s).map fun (labels, rest) => (label :: labels, rest) := by
  have hmod : label.length % 256 = label.length := Nat.mod_eq_of_lt (by have := h.2; omega)
  have hread := decode_octets (by rw [hmod]; exact h.1) (by rw [hmod]; exact h.2) s
  rwa [hmod, List.drop_length, List.take_length, List.nil_append] at hread

theorem decode_long (h : 63 < label.length % 256) (s : List UInt8) : decode (octets label ++ s) = none := by
  rw [octets, List.cons_append, decode, if_neg (octet_ne_zero (Nat.zero_lt_of_lt h)), toNat_length, if_pos (Or.inl h)]

/-- What is written is read. -/
theorem decode_encode (h : ∀ label ∈ labels, Valid label) (s : List UInt8) : decode (encode labels ++ s) =
    (decode s).map fun (more, rest) => (labels ++ more, rest) := by
  induction labels with
  | nil => cases hs : decode s <;> simp [hs]
  | cons label labels ih =>
      rw [encode_cons, List.append_assoc, decode_label (h label List.mem_cons_self),
        ih fun label hlabel => h label (List.mem_cons_of_mem _ hlabel), Option.map_map]
      rfl

/-- Labels of which one has a wrong length, and which for that reason are not read as a name, whatever is. An octet
holds a length only as far as 255, so that a longer label may be read as a shorter one, and more labels. -/
def Unreadable (tail : List UInt8) : List (List UInt8) → Prop
  | [] => False
  | label :: labels =>
      if Valid label then Unreadable tail labels
      else 0 < label.length % 256 ∧ (63 < label.length % 256 ∨
        decode (label.drop (label.length % 256) ++ (encode labels ++ tail)) = none)

theorem decode_eq_none_iff (htail : (decode tail).isSome) : decode (encode labels ++ tail) = none ↔
    Unreadable tail labels := by
  induction labels with
  | nil =>
      rw [encode_nil, List.nil_append, Unreadable, iff_false]
      exact Option.isSome_iff_ne_none.mp htail
  | cons label labels ih =>
      rw [encode_cons, List.append_assoc, Unreadable]
      by_cases hvalid : Valid label
      · rw [if_pos hvalid, decode_label hvalid, Option.map_eq_none_iff, ih]
      · rw [if_neg hvalid]
        obtain hzero | hpos := Nat.eq_zero_or_pos (label.length % 256)
        · have hoctet : octets label = 0 :: label := congrArg (List.cons · label) (UInt8.toNat_inj.mp hzero)
          rw [hoctet, List.cons_append, decode_zero]
          simp [hzero]
        · by_cases hlong : 63 < label.length % 256
          · simp [decode_long hlong, hpos, hlong]
          · rw [decode_octets hpos (Nat.not_lt.mp hlong), Option.map_eq_none_iff]
            simp [hpos, hlong]

/-! ### In text -/

def dot : UInt8 := 46

/-- The labels with dots between them. -/
def dotted (labels : List (List UInt8)) : List UInt8 := [dot].intercalate labels

/-- The labels of a text, where the one before a dot is given as far as it has been read. Behind a dot at the end there
is none. -/
def labelsFrom : List UInt8 → List UInt8 → List (List UInt8)
  | label, [] => if label = [] then [] else [label]
  | label, c :: s => if c = dot then label :: labelsFrom [] s else labelsFrom (label ++ [c]) s

/-- The text is the name of these labels. -/
structure Names (s : List UInt8) (labels : List (List UInt8)) : Prop where
  valid : ∀ label ∈ labels, Valid label ∧ dot ∉ label
  text : s = dotted labels ∨ s = dotted labels ++ [dot]

theorem labelsFrom_label (hdot : dot ∉ label) (acc : List UInt8) :
    labelsFrom acc label = if acc ++ label = [] then [] else [acc ++ label] := by
  induction label generalizing acc with
  | nil => rw [labelsFrom, List.append_nil]
  | cons c label ih =>
      rw [List.mem_cons, not_or] at hdot
      rw [labelsFrom, if_neg (Ne.symm hdot.1), ih hdot.2, List.append_assoc, List.singleton_append]

theorem labelsFrom_dot (hdot : dot ∉ label) (acc s : List UInt8) :
    labelsFrom acc (label ++ dot :: s) = (acc ++ label) :: labelsFrom [] s := by
  induction label generalizing acc with
  | nil => rw [List.nil_append, labelsFrom, if_pos rfl, List.append_nil]
  | cons c label ih =>
      rw [List.mem_cons, not_or] at hdot
      rw [List.cons_append, labelsFrom, if_neg (Ne.symm hdot.1), ih hdot.2, List.append_assoc, List.singleton_append]

theorem dotted_cons (label : List UInt8) (hne : labels ≠ []) :
    dotted (label :: labels) = label ++ dot :: dotted labels := by
  rw [dotted, List.intercalate_cons_of_ne_nil hne, List.append_assoc]
  rfl

/-- The labels of a name are read off its text. -/
theorem labelsFrom_dotted (hvalid : ∀ label ∈ labels, Valid label ∧ dot ∉ label) (hne : labels ≠ []) :
    labelsFrom [] (dotted labels) = labels ∧ labelsFrom [] (dotted labels ++ [dot]) = labels := by
  induction labels with
  | nil => contradiction
  | cons label labels ih =>
      have hlabel := hvalid label List.mem_cons_self
      obtain rfl | hmore := eq_or_ne labels []
      · have hlabel_ne : label ≠ [] := List.ne_nil_of_length_pos hlabel.1.1
        rw [dotted, List.intercalate_singleton, labelsFrom_label hlabel.2, labelsFrom_dot hlabel.2, List.nil_append,
          if_neg hlabel_ne, labelsFrom, if_pos rfl]
        exact ⟨rfl, rfl⟩
      · obtain ⟨hplain, hdot⟩ := ih (fun other hother => hvalid other (List.mem_cons_of_mem _ hother)) hmore
        rw [dotted_cons _ hmore, labelsFrom_dot hlabel.2, List.append_assoc, List.cons_append, labelsFrom_dot hlabel.2,
          hplain, hdot]
        exact ⟨rfl, rfl⟩

theorem Names.labelsFrom (h : Names s labels) : Labels.labelsFrom [] s = labels ∨ (labels = [] ∧ s = [dot]) := by
  obtain rfl | hne := eq_or_ne labels []
  · obtain rfl | rfl := h.text
    · exact Or.inl rfl
    · exact Or.inr ⟨rfl, rfl⟩
  · obtain ⟨hplain, hdot⟩ := labelsFrom_dotted h.valid hne
    obtain rfl | rfl := h.text
    · exact Or.inl hplain
    · exact Or.inl hdot

theorem length_encode (hne : labels ≠ []) : (encode labels).length = (dotted labels).length + 1 := by
  induction labels with
  | nil => contradiction
  | cons label labels ih =>
      obtain rfl | hmore := eq_or_ne labels []
      · simp [octets, dotted]
      · rw [encode_cons, List.length_append, ih hmore, dotted_cons _ hmore, octets]
        simp only [List.length_cons, List.length_append]
        omega

theorem length_encode_labelsFrom (acc s : List UInt8) :
    (encode (labelsFrom acc s)).length ≤ acc.length + s.length + 1 := by
  induction s generalizing acc with
  | nil =>
      rw [labelsFrom]
      split <;> simp [octets]
  | cons c s ih =>
      rw [labelsFrom]
      split
      · have hrest := ih []
        simp only [encode_cons, octets, List.length_append, List.length_cons, List.length_nil] at hrest ⊢
        omega
      · have hrest := ih (acc ++ [c])
        simp only [List.length_append, List.length_cons, List.length_nil] at hrest ⊢
        omega

theorem dotted_ne_nil (hvalid : ∀ label ∈ labels, Valid label) (hne : labels ≠ []) : dotted labels ≠ [] := by
  obtain ⟨label, more, rfl⟩ := List.exists_cons_of_ne_nil hne
  have hlabel : label ≠ [] := List.ne_nil_of_length_pos (hvalid label List.mem_cons_self).1
  obtain rfl | hmore := eq_or_ne more []
  · rwa [dotted, List.intercalate_singleton]
  · rw [dotted_cons _ hmore]
    exact List.append_ne_nil_of_left_ne_nil hlabel _

theorem getLast?_dotted (hvalid : ∀ label ∈ labels, Valid label ∧ dot ∉ label) (hne : labels ≠ []) :
    (dotted labels).getLast? ≠ some dot := by
  induction labels with
  | nil => contradiction
  | cons label labels ih =>
      have hrest : ∀ other ∈ labels, Valid other ∧ dot ∉ other := fun other hother =>
        hvalid other (List.mem_cons_of_mem _ hother)
      obtain rfl | hmore := eq_or_ne labels []
      · rw [dotted, List.intercalate_singleton]
        exact fun hlast => (hvalid label List.mem_cons_self).2 (List.mem_of_getLast? hlast)
      · have hnext := dotted_ne_nil (fun other hother => (hrest other hother).1) hmore
        rw [dotted_cons _ hmore, List.getLast?_append_of_ne_nil _ (List.cons_ne_nil _ _), List.getLast?_cons_of_ne_nil hnext]
        exact ih hrest hmore

end Labels
