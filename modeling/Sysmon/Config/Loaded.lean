import Mathlib.Data.List.Chain
import Sysmon.Config.Bounds
import Sysmon.Config.Includes
import Sysmon.Lib.DepthFirst

/-!
# Configurations that are read alike

`LoadDocument` walks over the included files and passes over those it has been to, `ParseFile` follows every include.
Of a configuration whose files are legible the document knows the objects `ParseFile` gives the hosts of, as they are
there.
-/

namespace Sysmon.Config

open GoBytes DepthFirst

/-! ### The walk -/

section Walk

variable (disk : Files)

/-- A file that can be read. -/
def readable (path : CStr) : Bool := (disk path).isSome

/-- The files a file includes. -/
def includedFiles (path : CStr) : List CStr := (scanIncludes (contentOf disk path)).map (includePath path)

/-- A document in which the files that are read are those in its order, as they are on the disk. -/
structure Document.Loads (d : Document) : Prop where
  order : ∀ path, (d.files path).isSome = true ↔ path ∈ d.order
  onDisk : ∀ path content, d.files path = some content → disk path = some content

variable {disk} {d : Document} {path main : CStr}

theorem loads_empty (main : CStr) : (Document.empty main).Loads disk where
  order := fun path => by simp [Document.empty]
  onDisk := fun path content h => nomatch h

theorem files_read (d : Document) (path content p : CStr) :
    (d.read path content).files p = if p = path then some content else d.files p := rfl

theorem order_read (d : Document) (path content : CStr) : (d.read path content).order = d.order ++ [path] := rfl

theorem Document.Loads.read (h : d.Loads disk) {content : CStr} (hdisk : disk path = some content) :
    (d.read path content).Loads disk where
  order := by
    intro p
    rw [files_read, order_read, List.mem_append, List.mem_singleton]
    split
    · rename_i hp
      simp [hp]
    · rename_i hp
      simp [hp, h.order p]
  onDisk := by
    intro p found hfound
    rw [files_read] at hfound
    split at hfound
    · rename_i hp
      rw [hp, hdisk, hfound]
    · exact h.onDisk p found hfound

theorem Document.Loads.load (h : d.Loads disk) (levels : Nat) (path : CStr) :
    (Document.load disk levels path d).Loads disk :=
  Document.load_induction (fun _ _ _ hd _ hdisk => hd.read hdisk) levels path d h

/-- Every chain of includes from a file, each of its files once, fits into the levels there are. -/
def NotTooDeep (disk : Files) (main : CStr) : Prop :=
  ∀ chain : List CStr, chain.head? = some main → chain.IsChain (Edge (readable disk) (includedFiles disk)) →
    chain.Nodup → chain.length ≤ includeLevels

/-- So it is where there are no more files than levels. -/
theorem notTooDeep_of_files {files : List CStr} (hmain : main ∈ files)
    (hfiles : ∀ file, readable disk file = true → file ∈ files) (hcount : files.length ≤ includeLevels) : NotTooDeep disk main := by
  intro chain hhead hchain hnodup
  have hsub : chain ⊆ files := by
    intro file hfile
    obtain ⟨rest, rfl⟩ := List.head?_eq_some_iff.mp hhead
    obtain rfl | hfile := List.mem_cons.mp hfile
    · exact hmain
    · obtain ⟨left, right, rfl⟩ := List.append_of_mem hfile
      cases hlast : left.getLast? with
      | none =>
          rw [List.getLast?_eq_none_iff.mp hlast] at hchain
          exact hfiles file (List.isChain_cons_cons.mp hchain).1.2
      | some before =>
          obtain ⟨more, rfl⟩ := List.getLast?_eq_some_iff.mp hlast
          rw [List.append_assoc, List.singleton_append, ← List.cons_append] at hchain
          exact hfiles file (List.isChain_append_cons_cons.mp hchain).2.1.2
  exact (hnodup.subperm hsub).length_le.trans hcount

/-- The files on the way down to a file that is to be read. -/
structure Above (disk : Files) (main : CStr) (d : Document) (stack : List CStr) (path : CStr) : Prop where
  begins : (stack ++ [path]).head? = some main
  chain : readable disk path = true → (stack ++ [path]).IsChain (Edge (readable disk) (includedFiles disk))
  visited : ∀ file ∈ stack, file ∈ d.order
  once : stack.Nodup

theorem Above.nodup {stack : List CStr} (h : Above disk main d stack path) (hnew : path ∉ d.order) :
    (stack ++ [path]).Nodup :=
  List.nodup_append.mpr ⟨h.once, List.nodup_singleton path, fun file hfile _ hother heq =>
    hnew (List.mem_singleton.mp hother ▸ heq ▸ h.visited file hfile)⟩

/-- One more file down. -/
theorem Above.next {stack : List CStr} (h : Above disk main d stack path) (hnew : path ∉ d.order)
    (hreadable : readable disk path = true) {d' : Document} (hvisited : ∀ file ∈ stack ++ [path], file ∈ d'.order)
    {inc : CStr} (hinc : inc ∈ includedFiles disk path) : Above disk main d' (stack ++ [path]) inc where
  begins := by rw [List.head?_append, h.begins, Option.some_or]
  chain := fun hentered => by
    rw [List.append_assoc, List.singleton_append]
    exact List.isChain_append_cons_cons.mpr ⟨h.chain hreadable, ⟨hinc, hentered⟩, .singleton inc⟩
  visited := hvisited
  once := h.nodup hnew

/-- The levels never end the walk. -/
theorem walked_load (hdeep : NotTooDeep disk main) {levels : Nat} {stack : List CStr} (h : d.Loads disk)
    (habove : Above disk main d stack path) (hlevels : stack.length + levels = includeLevels) :
    Walked (readable disk) (includedFiles disk) [path] d.order.reverse (Document.load disk levels path d).order.reverse := by
  induction levels generalizing path d stack with
  | zero =>
      apply Walked.skip
      by_cases hseen : path ∈ d.order
      · exact Or.inl (List.mem_reverse.mpr hseen)
      · refine Or.inr ?_
        by_contra hreadable
        rw [Bool.not_eq_false] at hreadable
        have hshort := hdeep _ habove.begins (habove.chain hreadable) (habove.nodup hseen)
        rw [List.length_append, List.length_singleton] at hshort
        omega
  | succ levels ih =>
      rw [Document.load]
      split
      · rename_i hseen
        exact Walked.skip (Or.inl (List.mem_reverse.mpr ((h.order path).mp hseen)))
      rename_i hunseen
      have hnew : path ∉ d.order := fun hmem => hunseen ((h.order path).mpr hmem)
      cases hdisk : disk path with
      | none => exact Walked.skip (Or.inr (by rw [readable, hdisk]; rfl))
      | some content =>
          have hreadable : readable disk path = true := by rw [readable, hdisk]; rfl
          have hincluded : includedFiles disk path = (scanIncludes content).map (includePath path) := by
            rw [includedFiles, contentOf, hdisk]
            rfl
          have hread : (d.read path content).order.reverse = path :: d.order.reverse := by
            rw [order_read, List.reverse_append]
            rfl
          refine Walked.enter (fun hmem => hnew (List.mem_reverse.mp hmem)) hreadable ?_
          rw [← hread, hincluded]
          -- the files it includes, one after the other
          have hfold : ∀ (incs : List CStr) (d' : Document), d'.Loads disk → (∀ file ∈ stack ++ [path], file ∈ d'.order) →
              (∀ inc ∈ incs, includePath path inc ∈ includedFiles disk path) →
              Walked (readable disk) (includedFiles disk) (incs.map (includePath path)) d'.order.reverse
                (incs.foldl (fun d inc => Document.load disk levels (includePath path inc) d) d').order.reverse := by
            intro incs
            induction incs with
            | nil => exact fun _ _ _ _ => Walked.nil
            | cons inc incs ihincs =>
                intro d' hd' hvisited hincs
                have hnext := habove.next hnew hreadable hvisited (hincs inc List.mem_cons_self)
                have hdepth : (stack ++ [path]).length + levels = includeLevels := by
                  rw [List.length_append, List.length_singleton]
                  omega
                have hwalked := ih hd' hnext hdepth
                refine hwalked.cons (ihincs _ (hd'.load _ _) (fun file hfile => ?_)
                  fun other hother => hincs other (List.mem_cons_of_mem _ hother))
                exact List.mem_reverse.mp (hwalked.grew (List.mem_reverse.mpr (hvisited file hfile)))
          refine hfold _ _ (h.read hdisk) (fun file hfile => ?_) fun inc hinc => ?_
          · rw [order_read]
            obtain hfile | hfile := List.mem_append.mp hfile
            · exact List.mem_append_left _ (habove.visited file hfile)
            · exact List.mem_append_right _ hfile
          · rw [hincluded]
            exact List.mem_map_of_mem hinc

/-- The files of a document are those its main file leads to. -/
theorem mem_order_iff (hdeep : NotTooDeep disk main) (hload : loadDocument disk main = some d) :
    path ∈ d.order ↔ Reaches (readable disk) (includedFiles disk) main path := by
  have habove : Above disk main (.empty main) [] main :=
    ⟨rfl, fun _ => .singleton main, fun _ hfile => absurd hfile List.not_mem_nil, List.nodup_nil⟩
  have hwalked := walked_load hdeep (loads_empty main) habove (Nat.zero_add _)
  rw [loadDocument_eq hload, ← List.mem_reverse]
  exact hwalked.mem_iff

theorem loads_of_loadDocument (hload : loadDocument disk main = some d) : d.Loads disk := by
  rw [loadDocument_eq hload]
  exact (loads_empty main).load _ _

/-! ### The files -/

/-- The includes of a file can be told by its lines. -/
def Plain (disk : Files) (path : CStr) : Prop := PlainIncludes (contentOf disk path) ∧ ShortLines (contentOf disk path)

theorem readFiles_succ (hplain : Plain disk path) {content : CStr} (hdisk : disk path = some content) (levels : Nat) :
    readFiles disk (levels + 1) path = path :: (includedFiles disk path).flatMap (readFiles disk levels) := by
  have hcontent : contentOf disk path = content := by rw [contentOf, hdisk]; rfl
  rw [Plain, hcontent] at hplain
  rw [readFiles, hdisk, includedFiles, hcontent]
  dsimp only
  rw [hplain.1.scanIncludes hplain.2]

theorem mem_readFiles_self {content : CStr} (hdisk : disk path = some content) (levels : Nat) :
    path ∈ readFiles disk (levels + 1) path := by
  rw [readFiles, hdisk]
  exact List.mem_cons_self

/-- What is read under a file is what the file leads to. -/
theorem reaches_of_readFiles {levels : Nat} (hplain : ∀ file ∈ readFiles disk levels main, Plain disk file)
    (h : path ∈ readFiles disk levels main) : Reaches (readable disk) (includedFiles disk) main path := by
  induction levels generalizing main with
  | zero => exact absurd h List.not_mem_nil
  | succ levels ih =>
      cases hdisk : disk main with
      | none =>
          rw [readFiles, hdisk] at h
          exact absurd h List.not_mem_nil
      | some content =>
          have hreadable : readable disk main = true := by rw [readable, hdisk]; rfl
          have hfiles := readFiles_succ (hplain main (mem_readFiles_self hdisk levels)) hdisk levels
          rw [hfiles] at h hplain
          obtain rfl | h := List.mem_cons.mp h
          · exact ⟨hreadable, .refl⟩
          · obtain ⟨inc, hinc, h⟩ := List.mem_flatMap.mp h
            obtain ⟨hentered, hpath⟩ := ih (fun file hfile =>
              hplain file (List.mem_cons_of_mem _ (List.mem_flatMap.mpr ⟨inc, hinc, hfile⟩))) h
            exact ⟨hreadable, .head ⟨hinc, hentered⟩ hpath⟩

theorem order_load_subset {levels : Nat} (hplain : ∀ file ∈ readFiles disk levels main, Plain disk file)
    (h : path ∈ (Document.load disk levels main d).order) : path ∈ d.order ∨ path ∈ readFiles disk levels main := by
  induction levels generalizing main d with
  | zero => exact Or.inl h
  | succ levels ih =>
      rw [Document.load] at h
      split at h
      · exact Or.inl h
      cases hdisk : disk main with
      | none =>
          rw [hdisk] at h
          exact Or.inl h
      | some content =>
          have hincluded : includedFiles disk main = (scanIncludes content).map (includePath main) := by
            rw [includedFiles, contentOf, hdisk]
            rfl
          have hfiles := readFiles_succ (hplain main (mem_readFiles_self hdisk levels)) hdisk levels
          rw [hfiles] at hplain ⊢
          rw [hdisk] at h
          have hfold : ∀ (incs : List CStr) (d' : Document), (∀ inc ∈ incs, includePath main inc ∈ includedFiles disk main) →
              path ∈ (incs.foldl (fun d inc => Document.load disk levels (includePath main inc) d) d').order →
              path ∈ d'.order ∨ path ∈ (includedFiles disk main).flatMap (readFiles disk levels) := by
            intro incs
            induction incs with
            | nil => exact fun _ _ h => Or.inl h
            | cons inc incs ihincs =>
                intro d' hincs h
                have hinc := hincs inc List.mem_cons_self
                obtain h | h := ihincs _ (fun other hother => hincs other (List.mem_cons_of_mem _ hother)) h
                · refine (ih (fun file hfile => ?_) h).imp_right fun h => List.mem_flatMap.mpr ⟨_, hinc, h⟩
                  exact hplain file (List.mem_cons_of_mem _ (List.mem_flatMap.mpr ⟨_, hinc, hfile⟩))
                · exact Or.inr h
          have hincs : ∀ inc ∈ scanIncludes content, includePath main inc ∈ includedFiles disk main := by
            intro inc hinc
            rw [hincluded]
            exact List.mem_map_of_mem hinc
          obtain h | h := hfold _ _ hincs h
          · rw [order_read] at h
            obtain h | h := List.mem_append.mp h
            · exact Or.inl h
            · exact Or.inr (List.mem_singleton.mp h ▸ List.mem_cons_self)
          · exact Or.inr (List.mem_cons_of_mem _ h)

/-- The document and `ParseFile` read the same files. -/
theorem mem_order_iff_readFiles (hdeep : NotTooDeep disk main) (hload : loadDocument disk main = some d)
    (hplain : ∀ file ∈ readFiles disk includeLevels main, Plain disk file) :
    path ∈ d.order ↔ path ∈ readFiles disk includeLevels main := by
  constructor
  · intro h
    rw [loadDocument_eq hload] at h
    exact (order_load_subset hplain h).resolve_left List.not_mem_nil
  · exact fun h => (mem_order_iff hdeep hload).mpr (reaches_of_readFiles hplain h)

end Walk

/-! ### The hosts -/

section Hosts

variable {disk : Files} {path : CStr} {hosts : List Host}

/-- Only a line that is too long makes `Parse` fail. -/
theorem scanOk_of_failed {content : CStr} (h : parse content = .error .failed) : scanOk (splitStatements content) = false := by
  unfold parse at h
  dsimp only at h
  obtain ⟨-, hlines⟩ | ⟨-, s, hlines⟩ := foldlM_parseLine (scanLines (splitStatements content)) ParseState.start
  · rw [hlines] at h
    cases h
  · rw [hlines] at h
    by_contra hok
    rw [Bool.not_eq_false] at hok
    simp only [hok, if_true] at h
    cases h

theorem parseWithIncludes_failed {levels : Nat} (hshort : ∀ file ∈ readFiles disk levels path, ShortLines (contentOf disk file))
    (h : parseWithIncludes disk levels path = .error .failed) : readFiles disk levels path = [] := by
  cases levels with
  | zero => rfl
  | succ levels =>
      cases hdisk : disk path with
      | none => rw [readFiles, hdisk]
      | some content =>
          have hcontent : contentOf disk path = content := by rw [contentOf, hdisk]; rfl
          have hself := hshort path (mem_readFiles_self hdisk levels)
          rw [hcontent] at hself
          rw [parseWithIncludes, hdisk] at h
          cases hparse : parse content with
          | error failure =>
              simp only [hparse] at h
              obtain rfl := Except.error.inj h
              exact absurd (hself.splitStatements.symm.trans (scanOk_of_failed hparse)) (by decide)
          | ok hosts =>
              simp only [hparse] at h
              exact absurd (foldlM_mergeLine_error h) (by decide)

theorem exists_ok_mem_iff {α : Type} {result : Except Failure (List α)} {own : List α} (h : result = .ok own) (x : α) :
    (∃ more, result = .ok more ∧ x ∈ more) ↔ x ∈ own := by
  rw [h]
  constructor
  · rintro ⟨more, heq, hx⟩
    exact Except.ok.inj heq ▸ hx
  · exact fun hx => ⟨own, rfl, hx⟩

/-- What one line adds. -/
theorem mergeLine_cases {α : Type} {one : CStr → Except Failure (List α)} {line : CStr} {acc next : List α}
    (h : mergeLine one path acc line = .ok next) :
    (included path line = none ∧ next = acc) ∨ ∃ inc, included path line = some inc ∧ one inc ≠ .error .panicked ∧
      ∀ x, x ∈ next ↔ x ∈ acc ∨ ∃ more, one inc = .ok more ∧ x ∈ more := by
  unfold mergeLine at h
  unfold included
  cases hline : includeLine line with
  | error failure =>
      rw [hline] at h
      cases h
  | ok inc =>
      rw [hline] at h
      cases inc with
      | none => exact Or.inl ⟨rfl, (Except.ok.inj h).symm⟩
      | some inc =>
          have h : merge acc (one (includePath path inc)) = .ok next := h
          refine Or.inr ⟨includePath path inc, rfl, ?_⟩
          cases hone : one (includePath path inc) with
          | ok more =>
              rw [hone] at h
              obtain rfl := Except.ok.inj h
              refine ⟨fun heq => (nomatch heq), fun x => ?_⟩
              exact List.mem_append.trans (or_congr_right (exists_ok_mem_iff rfl x).symm)
          | error failure =>
              rw [hone] at h
              cases failure with
              | panicked => cases h
              | failed =>
                  obtain rfl := Except.ok.inj h
                  refine ⟨fun heq => (nomatch heq), fun x => ⟨Or.inl, fun h => h.resolve_right ?_⟩⟩
                  rintro ⟨more, heq, -⟩
                  cases heq

/-- What the included files add, one by one. -/
theorem mem_foldlM_mergeLine {α : Type} {one : CStr → Except Failure (List α)} {lines : List CStr} {acc all : List α}
    (h : lines.foldlM (mergeLine one path) acc = .ok all) :
    (∀ inc ∈ lines.filterMap (included path), one inc ≠ .error .panicked) ∧
      ∀ x, x ∈ all ↔ x ∈ acc ∨ ∃ inc ∈ lines.filterMap (included path), ∃ more, one inc = .ok more ∧ x ∈ more := by
  induction lines generalizing acc with
  | nil =>
      obtain rfl := Except.ok.inj h
      simp
  | cons line lines ih =>
      rw [List.foldlM_cons] at h
      cases hline : mergeLine one path acc line with
      | error failure =>
          rw [hline] at h
          cases h
      | ok next =>
          rw [hline] at h
          obtain ⟨hrest, hmem⟩ := ih h
          obtain ⟨hnone, rfl⟩ | ⟨inc, hinc, hone, hnext⟩ := mergeLine_cases hline
          · rw [List.filterMap_cons, hnone]
            exact ⟨hrest, hmem⟩
          · rw [List.filterMap_cons, hinc]
            refine ⟨List.forall_mem_cons.mpr ⟨hone, hrest⟩, fun x => ?_⟩
            rw [hmem, hnext, List.exists_mem_cons_iff, or_assoc]

/-- A file that is not read gives nothing, and no file under it is read. -/
theorem parseWithIncludes_or_unread {levels : Nat}
    (hshort : ∀ file ∈ readFiles disk levels path, ShortLines (contentOf disk file))
    (hpanic : parseWithIncludes disk levels path ≠ .error .panicked) :
    readFiles disk levels path = [] ∨ ∃ more, parseWithIncludes disk levels path = .ok more := by
  cases hone : parseWithIncludes disk levels path with
  | ok more => exact Or.inr ⟨more, rfl⟩
  | error failure =>
      cases failure with
      | panicked => exact absurd hone hpanic
      | failed => exact Or.inl (parseWithIncludes_failed hshort hone)

/-- What `Parse` gives for a file is part of what `ParseFile` gives, and there is nothing else. -/
theorem parseWithIncludes_mem {levels : Nat} (hplain : ∀ file ∈ readFiles disk levels path, Plain disk file)
    (h : parseWithIncludes disk levels path = .ok hosts) :
    (∀ file ∈ readFiles disk levels path, ∃ own, parse (contentOf disk file) = .ok own) ∧
      ∀ host, host ∈ hosts ↔
        ∃ file ∈ readFiles disk levels path, ∃ own, parse (contentOf disk file) = .ok own ∧ host ∈ own := by
  induction levels generalizing path hosts with
  | zero => cases h
  | succ levels ih =>
      cases hdisk : disk path with
      | none =>
          rw [parseWithIncludes, hdisk] at h
          cases h
      | some content =>
          have hcontent : contentOf disk path = content := by rw [contentOf, hdisk]; rfl
          have hself := hplain path (mem_readFiles_self hdisk levels)
          have hfiles := readFiles_succ hself hdisk levels
          have hincluded : (scanLines content).filterMap (included path) = includedFiles disk path := by
            rw [Plain, hcontent] at hself
            rw [hself.1.scanIncludes hself.2, includedFiles, hcontent]
          rw [hfiles] at hplain ⊢
          rw [parseWithIncludes, hdisk] at h
          cases hparse : parse content with
          | error failure =>
              simp only [hparse] at h
              cases h
          | ok own =>
              simp only [hparse] at h
              obtain ⟨hpanics, hmem⟩ := mem_foldlM_mergeLine h
              rw [hincluded] at hpanics hmem
              have hunder : ∀ inc ∈ includedFiles disk path, ∀ file ∈ readFiles disk levels inc, Plain disk file :=
                fun inc hinc file hfile => hplain file (List.mem_cons_of_mem _ (List.mem_flatMap.mpr ⟨inc, hinc, hfile⟩))
              -- an included file that a file is read under gives hosts
              have hgives : ∀ inc ∈ includedFiles disk path, ∀ file ∈ readFiles disk levels inc,
                  ∃ more, parseWithIncludes disk levels inc = .ok more := by
                intro inc hinc file hfile
                refine (parseWithIncludes_or_unread (fun file hfile => (hunder inc hinc file hfile).2)
                  (hpanics inc hinc)).resolve_left fun hnil => ?_
                rw [hnil] at hfile
                exact List.not_mem_nil hfile
              refine ⟨fun file hfile => ?_, fun host => ?_⟩
              · obtain rfl | hfile := List.mem_cons.mp hfile
                · exact ⟨own, by rw [hcontent, hparse]⟩
                · obtain ⟨inc, hinc, hfile⟩ := List.mem_flatMap.mp hfile
                  obtain ⟨more, hmore⟩ := hgives inc hinc file hfile
                  exact (ih (hunder inc hinc) hmore).1 file hfile
              · rw [hmem, List.exists_mem_cons_iff, hcontent, exists_ok_mem_iff hparse]
                refine or_congr_right ⟨?_, ?_⟩
                · rintro ⟨inc, hinc, more, hmore, hhost⟩
                  obtain ⟨file, hfile, found⟩ := ((ih (hunder inc hinc) hmore).2 host).mp hhost
                  exact ⟨file, List.mem_flatMap.mpr ⟨inc, hinc, hfile⟩, found⟩
                · rintro ⟨file, hfile, found⟩
                  obtain ⟨inc, hinc, hfile⟩ := List.mem_flatMap.mp hfile
                  obtain ⟨more, hmore⟩ := hgives inc hinc file hfile
                  exact ⟨inc, hinc, more, hmore, ((ih (hunder inc hinc) hmore).2 host).mpr ⟨file, hfile, found⟩⟩

end Hosts

/-! ### The objects -/

section Objects

variable {disk : Files} {main path : CStr} {d : Document}

/-- The name of what is found in a text. -/
def foundName (content : CStr) (found : Nat × Nat) : CStr := objectName (slice content found.1 found.2)

theorem mem_indexFile_found {content : CStr} {objects : List (CStr × Span)} {entry : CStr × Span}
    (h : entry ∈ indexFile path content objects) :
    entry ∈ objects ∨ ∃ found ∈ scanObjects content, entry = (foundName content found, ⟨path, found.1, found.2⟩) := by
  have hfold : ∀ (list : List (Nat × Nat)) (objects : List (CStr × Span)),
      entry ∈ list.foldl (indexObject path content) objects →
      entry ∈ objects ∨ ∃ found ∈ list, entry = (foundName content found, ⟨path, found.1, found.2⟩) := by
    intro list
    induction list with
    | nil => exact fun objects h => Or.inl h
    | cons found list ih =>
        intro objects h
        obtain h | ⟨other, hother, h⟩ := ih _ h
        · unfold indexObject at h
          dsimp only at h
          split at h
          · exact Or.inl h
          · obtain h | h := List.mem_append.mp h
            · exact Or.inl h
            · exact Or.inr ⟨found, List.mem_cons_self, List.mem_singleton.mp h⟩
        · exact Or.inr ⟨other, List.mem_cons_of_mem _ hother, h⟩
  exact hfold _ _ h

theorem isSome_lookup_append {α : Type} {entries : List (CStr × α)} {name : CStr}
    (h : (entries.lookup name).isSome = true) (more : List (CStr × α)) : ((entries ++ more).lookup name).isSome = true := by
  rw [List.lookup_append, Option.isSome_or, h, Bool.true_or]

theorem isSome_lookup_indexFile {content : CStr} {objects : List (CStr × Span)} {name : CStr}
    (h : (objects.lookup name).isSome = true ∨ name ≠ [] ∧ ∃ found ∈ scanObjects content, foundName content found = name) :
    ((indexFile path content objects).lookup name).isSome = true := by
  have hfold : ∀ (list : List (Nat × Nat)) (objects : List (CStr × Span)),
      (objects.lookup name).isSome = true ∨ name ≠ [] ∧ (∃ found ∈ list, foundName content found = name) →
      ((list.foldl (indexObject path content) objects).lookup name).isSome = true := by
    intro list
    induction list with
    | nil => exact fun objects h => h.resolve_right fun ⟨_, found, hfound, _⟩ => List.not_mem_nil hfound
    | cons found list ih =>
        intro objects h
        refine ih _ ?_
        have hkept : (objects.lookup name).isSome = true →
            ((indexObject path content objects found).lookup name).isSome = true := by
          intro h
          unfold indexObject
          dsimp only
          split
          · exact h
          · exact isSome_lookup_append h _
        obtain h | ⟨hne, other, hother, hname⟩ := h
        · exact Or.inl (hkept h)
        · obtain rfl | hother := List.mem_cons.mp hother
          · refine Or.inl ?_
            by_cases hknown : (objects.lookup name).isSome = true
            · exact hkept hknown
            · have hadded : indexObject path content objects other = objects ++ [(name, ⟨path, other.1, other.2⟩)] := by
                rw [← hname]
                refine if_neg (not_or.mpr ⟨?_, ?_⟩)
                · exact fun h => hne (hname.symm.trans h)
                · exact fun h => hknown (hname ▸ h)
              rw [hadded, List.lookup_append, List.lookup_cons_self, Option.isSome_or, Bool.or_eq_true]
              exact Or.inr rfl
          · exact Or.inr ⟨hne, other, hother, hname⟩
  exact hfold _ _ h

/-- A document knows the objects its files have, and no others. -/
structure Document.Indexed (d : Document) : Prop where
  found : ∀ entry ∈ d.objects, ∃ content, d.files entry.2.file = some content ∧
    ∃ found ∈ scanObjects content, entry = (foundName content found, ⟨entry.2.file, found.1, found.2⟩)
  known : ∀ path content, d.files path = some content → ∀ found ∈ scanObjects content, foundName content found ≠ [] →
    (d.objects.lookup (foundName content found)).isSome = true

theorem indexed_of_loadDocument (hload : loadDocument disk main = some d) : d.Indexed := by
  rw [loadDocument_eq hload]
  refine Document.load_induction (P := Document.Indexed) (fun d path content hd hnew _ => ?_) _ _ _
    ⟨fun entry hentry => absurd hentry List.not_mem_nil, fun _ _ h => nomatch h⟩
  constructor
  · intro entry hentry
    obtain hold | ⟨found, hfound, rfl⟩ := mem_indexFile_found hentry
    · obtain ⟨other, hfile, hrest⟩ := hd.found entry hold
      refine ⟨other, ?_, hrest⟩
      rw [files_read, if_neg, hfile]
      intro hsame
      rw [hsame, hnew] at hfile
      contradiction
    · exact ⟨content, by rw [files_read, if_pos rfl], found, hfound, rfl⟩
  · intro p own hfile found hfound hne
    refine isSome_lookup_indexFile ?_
    rw [files_read] at hfile
    split at hfile
    · obtain rfl := Option.some.inj hfile
      exact Or.inr ⟨hne, found, hfound, rfl⟩
    · exact Or.inl (hd.known p own hfile found hfound hne)

end Objects

/-! ### Configurations that are read alike -/

/-- Two objects are the same host. -/
def Block.SaysSame (a b : Block) : Prop := ∀ host, a.ReadsAs host ↔ b.ReadsAs host

/-- The files of a configuration consist of these objects, their includes stand alone on their lines, objects of one
name say the same, and no chain of includes is too long. -/
structure ReadAlike (disk : Files) (main : CStr) (blocks : CStr → List Block) : Prop where
  legible : ∀ path ∈ readFiles disk includeLevels main, Legible (blocks path) (contentOf disk path)
  includes : ∀ path ∈ readFiles disk includeLevels main, PlainIncludes (contentOf disk path)
  shortLines : ∀ path ∈ readFiles disk includeLevels main, ShortLines (contentOf disk path)
  agree : ∀ p ∈ readFiles disk includeLevels main, ∀ q ∈ readFiles disk includeLevels main, ∀ a ∈ blocks p, ∀ b ∈ blocks q,
    a.name = b.name → a.SaysSame b
  shallow : NotTooDeep disk main

section ReadAlike

variable {disk : Files} {main : CStr} {blocks : CStr → List Block} {d : Document} {hosts : List Host}

theorem ReadAlike.plain (h : ReadAlike disk main blocks) : ∀ file ∈ readFiles disk includeLevels main, Plain disk file :=
  fun file hfile => ⟨h.includes file hfile, h.shortLines file hfile⟩

/-- A file of the document is one of these, and the document has it as it is. -/
theorem ReadAlike.mem_files (h : ReadAlike disk main blocks) (hload : loadDocument disk main = some d) {path : CStr} :
    path ∈ readFiles disk includeLevels main ↔ d.files path = some (contentOf disk path) := by
  have hloads := loads_of_loadDocument hload
  rw [← mem_order_iff_readFiles h.shallow hload h.plain, ← hloads.order]
  constructor
  · intro hsome
    obtain ⟨content, hcontent⟩ := Option.isSome_iff_exists.mp hsome
    rw [hcontent, contentOf, hloads.onDisk path content hcontent]
    rfl
  · intro hcontent
    rw [hcontent]
    rfl

theorem forall₂_left {α β : Type} {R : α → β → Prop} {as : List α} {bs : List β} (h : List.Forall₂ R as bs) {a : α}
    (ha : a ∈ as) : ∃ b ∈ bs, R a b := by
  induction h with
  | nil => exact absurd ha List.not_mem_nil
  | cons hab _ ih =>
      obtain rfl | ha := List.mem_cons.mp ha
      · exact ⟨_, List.mem_cons_self, hab⟩
      · obtain ⟨b, hb, hr⟩ := ih ha
        exact ⟨b, List.mem_cons_of_mem _ hb, hr⟩

/-- An object of a file is found there, and what is found there is an object of the file. -/
theorem ReadAlike.located (h : ReadAlike disk main blocks) {path : CStr} (hpath : path ∈ readFiles disk includeLevels main) :
    List.Forall₂ (Located (contentOf disk path)) (blocks path) (scanObjects (contentOf disk path)) :=
  (h.legible path hpath).scanObjects

theorem ReadAlike.readsAs (h : ReadAlike disk main blocks) {path : CStr} (hpath : path ∈ readFiles disk includeLevels main)
    {own : List Host} (hparse : parse (contentOf disk path) = .ok own) : List.Forall₂ Block.ReadsAs (blocks path) own :=
  (h.legible path hpath).parse (h.shortLines path hpath) hparse

end ReadAlike

end Sysmon.Config
