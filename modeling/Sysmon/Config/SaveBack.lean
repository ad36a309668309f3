import Sysmon.Config.Loaded

/-!
# Saving what was read

`Apply` finds the objects with one scanner, the hosts it is given come from another. It leaves a document alone
exactly when the two say the same, object for object, and of a configuration that is read alike they do. A snapshot of
the service that is sent back unchanged is then saved without a trace, if it has the hosts of all files.
-/

namespace Sysmon.Config

open GoBytes

/-! ### Names that are wanted -/

theorem mem_wantedNames {hosts : List Host} {name : CStr} :
    name ∈ wantedNames hosts ↔ name ≠ [] ∧ ∃ host ∈ hosts, hostName host = name := by
  have hfold : ∀ (hosts : List Host) (names : List CStr),
      name ∈ hosts.foldl (fun names host =>
          if hostName host = [] ∨ hostName host ∈ names then names else names ++ [hostName host]) names ↔
        name ∈ names ∨ name ≠ [] ∧ ∃ host ∈ hosts, hostName host = name := by
    intro hosts
    induction hosts with
    | nil => simp
    | cons host hosts ih =>
        intro names
        rw [List.foldl_cons, ih]
        by_cases hskip : hostName host = [] ∨ hostName host ∈ names
        · rw [if_pos hskip]
          constructor
          · rintro (hmem | ⟨hne, other, hother, hname⟩)
            · exact Or.inl hmem
            · exact Or.inr ⟨hne, other, List.mem_cons_of_mem _ hother, hname⟩
          · rintro (hmem | ⟨hne, other, hother, rfl⟩)
            · exact Or.inl hmem
            · obtain rfl | hother := List.mem_cons.mp hother
              · exact Or.inl (hskip.resolve_left hne)
              · exact Or.inr ⟨hne, other, hother, rfl⟩
        · rw [if_neg hskip]
          constructor
          · rintro (hmem | ⟨hne, other, hother, hname⟩)
            · obtain hmem | hmem := List.mem_append.mp hmem
              · exact Or.inl hmem
              · obtain rfl := List.mem_singleton.mp hmem
                exact Or.inr ⟨fun hnil => hskip (Or.inl hnil), host, List.mem_cons_self, rfl⟩
            · exact Or.inr ⟨hne, other, List.mem_cons_of_mem _ hother, hname⟩
          · rintro (hmem | ⟨hne, other, hother, rfl⟩)
            · exact Or.inl (List.mem_append_left _ hmem)
            · obtain rfl | hother := List.mem_cons.mp hother
              · exact Or.inl (List.mem_append_right _ List.mem_cons_self)
              · exact Or.inr ⟨hne, other, hother, rfl⟩
  unfold wantedNames
  rw [hfold]
  simp

theorem mem_wantedNames_iff_wantedHost {hosts : List Host} {name : CStr} :
    name ∈ wantedNames hosts ↔ ∃ host, wantedHost hosts name = some host := by
  rw [mem_wantedNames]
  unfold wantedHost
  constructor
  · rintro ⟨hne, host, hmem, hname⟩
    rw [if_neg hne, ← Option.isSome_iff_exists, List.find?_isSome]
    exact ⟨host, List.mem_reverse.mpr hmem, decide_eq_true hname⟩
  · rintro ⟨host, hhost⟩
    split at hhost
    · contradiction
    · rename_i hne
      have hname := List.find?_some hhost
      exact ⟨hne, host, List.mem_reverse.mp (List.mem_of_find?_eq_some hhost), of_decide_eq_true hname⟩

theorem wantedHost_mem {hosts : List Host} {name : CStr} {host : Host} (h : wantedHost hosts name = some host) :
    host ∈ hosts ∧ hostName host = name := by
  unfold wantedHost at h
  split at h
  · contradiction
  · have hname := List.find?_some h
    exact ⟨List.mem_reverse.mp (List.mem_of_find?_eq_some h), of_decide_eq_true hname⟩

/-! ### The hosts of the files -/

section ReadAlike

variable {disk : Files} {main : CStr} {blocks : CStr → List Block} {d : Document} {hosts : List Host}

theorem Block.ReadsAs.hostName {block : Block} {host : Host} (h : block.ReadsAs host) : hostName host = block.name := by
  rw [Config.hostName, h.2, if_neg block.named]

/-- The hosts are those of some of the files. -/
structure HostsOf (disk : Files) (main : CStr) (told : List CStr) (hosts : List Host) : Prop where
  files : told ⊆ readFiles disk includeLevels main
  parsed : ∀ file ∈ told, ∃ own, parse (contentOf disk file) = .ok own
  mem : ∀ host, host ∈ hosts ↔ ∃ file ∈ told, ∃ own, parse (contentOf disk file) = .ok own ∧ host ∈ own

/-- Every object stands in one of these files. -/
def Covers (disk : Files) (main : CStr) (blocks : CStr → List Block) (told : List CStr) : Prop :=
  ∀ file ∈ readFiles disk includeLevels main, ∀ a ∈ blocks file, ∃ other ∈ told, ∃ b ∈ blocks other, b.name = a.name

variable {told : List CStr}

theorem ReadAlike.block_of_host (h : ReadAlike disk main blocks) (hhosts : HostsOf disk main told hosts) {host : Host}
    (hhost : host ∈ hosts) : ∃ file ∈ told, ∃ b ∈ blocks file, b.ReadsAs host := by
  obtain ⟨file, hfile, own, hown, hmem⟩ := (hhosts.mem host).mp hhost
  obtain ⟨b, hb, hreads⟩ := forall₂_left (h.readsAs (hhosts.files hfile) hown).flip hmem
  exact ⟨file, hfile, b, hb, hreads⟩

theorem ReadAlike.wanted_of_block (h : ReadAlike disk main blocks) (hhosts : HostsOf disk main told hosts) {file : CStr}
    (hfile : file ∈ told) {b : Block} (hb : b ∈ blocks file) : b.name ∈ wantedNames hosts := by
  obtain ⟨own, hown⟩ := hhosts.parsed file hfile
  obtain ⟨host, hhost, hreads⟩ := forall₂_left (h.readsAs (hhosts.files hfile) hown) hb
  exact mem_wantedNames.mpr ⟨b.named, host, (hhosts.mem host).mpr ⟨file, hfile, own, hown, hhost⟩, hreads.hostName⟩

/-- The document knows every object of its files. -/
theorem ReadAlike.known (h : ReadAlike disk main blocks) (hload : loadDocument disk main = some d) {file : CStr}
    (hfile : file ∈ readFiles disk includeLevels main) {b : Block} (hb : b ∈ blocks file) :
    (d.objects.lookup b.name).isSome = true := by
  obtain ⟨found, hfound, hlocated⟩ := forall₂_left (h.located hfile) hb
  have hname : foundName (contentOf disk file) found = b.name := hlocated.objectName
  have hknown := (indexed_of_loadDocument hload).known file _ ((h.mem_files hload).mp hfile) found hfound
    (by rw [hname]; exact b.named)
  rwa [hname] at hknown

/-- And each object it knows is one of its files. -/
theorem ReadAlike.block_of_object (h : ReadAlike disk main blocks) (hload : loadDocument disk main = some d) {name : CStr}
    {span : Span} (hlookup : d.objects.lookup name = some span) : ∃ a ∈ blocks span.file,
      span.file ∈ readFiles disk includeLevels main ∧ Located (contentOf disk span.file) a (span.start, span.stop) ∧
      d.content span.file = contentOf disk span.file ∧ a.name = name := by
  obtain ⟨content, hcontent, found, hfound, hentry⟩ := (indexed_of_loadDocument hload).found _ (mem_of_lookup hlookup)
  dsimp only at hcontent hentry
  have hsame : content = contentOf disk span.file := by
    rw [contentOf, (loads_of_loadDocument hload).onDisk _ _ hcontent]
    rfl
  subst hsame
  have hfile := (h.mem_files hload).mpr hcontent
  obtain ⟨a, ha, hlocated⟩ : ∃ a ∈ blocks span.file, Located (contentOf disk span.file) a found :=
    forall₂_left (h.located hfile).flip hfound
  obtain ⟨hname, hspan⟩ := Prod.mk.inj hentry
  have hfoundSpan : (span.start, span.stop) = found := by rw [hspan]
  refine ⟨a, ha, hfile, hfoundSpan ▸ hlocated, by rw [Document.content, hcontent]; rfl, ?_⟩
  rw [hname]
  exact hlocated.objectName.symm

/-- What is wanted stands in the document as it is wanted. -/
theorem ReadAlike.asIs (h : ReadAlike disk main blocks) (hload : loadDocument disk main = some d)
    (hhosts : HostsOf disk main told hosts) {name : CStr} (hname : name ∈ wantedNames hosts) {span : Span}
    (hlookup : d.objects.lookup name = some span) : ∃ host onDisk, wantedHost hosts name = some host ∧
      d.hostAt span = .ok (some onDisk) ∧ sameHost onDisk host = true := by
  obtain ⟨a, ha, hfile, hlocated, hcontent, rfl⟩ := h.block_of_object hload hlookup
  obtain ⟨host, hhost⟩ := mem_wantedNames_iff_wantedHost.mp hname
  obtain ⟨hmem, hhostName⟩ := wantedHost_mem hhost
  obtain ⟨other, hother, b, hb, hreads⟩ := h.block_of_host hhosts hmem
  have hba : b.name = a.name := by rw [← hreads.hostName, hhostName]
  -- an object of the same name is the same host
  have hreadsa := (h.agree _ hfile _ (hhosts.files hother) a ha b hb hba.symm host).mpr hreads
  refine ⟨host, host, hhost, ?_, decide_eq_true rfl⟩
  rw [Document.hostAt, hcontent, show parse (slice (contentOf disk span.file) span.start span.stop) = .ok [host] from
    hlocated.parse (h.shortLines _ hfile) hreadsa]

theorem ReadAlike.known_wanted (h : ReadAlike disk main blocks) (hload : loadDocument disk main = some d)
    (hhosts : HostsOf disk main told hosts) {name : CStr} (hname : name ∈ wantedNames hosts) :
    (d.objects.lookup name).isSome = true := by
  obtain ⟨-, host, hhost, rfl⟩ := mem_wantedNames.mp hname
  obtain ⟨file, hfile, b, hb, hreads⟩ := h.block_of_host hhosts hhost
  rw [hreads.hostName]
  exact h.known hload (hhosts.files hfile) hb

/-- The hosts of files in which every object stands say what the document says. -/
theorem ReadAlike.saysSame (h : ReadAlike disk main blocks) (hload : loadDocument disk main = some d)
    (hhosts : HostsOf disk main told hosts) (hcovers : Covers disk main blocks told) : d.SaysSame hosts where
  known := fun name hname => h.known_wanted hload hhosts hname
  asIs := by
    intro name span hlookup
    obtain ⟨a, ha, hfile, -, -, rfl⟩ := h.block_of_object hload hlookup
    obtain ⟨other, hother, b, hb, hba⟩ := hcovers span.file hfile a ha
    exact h.asIs hload hhosts (hba ▸ h.wanted_of_block hhosts hother hb) hlookup

/-- `ParseFile` gives the hosts of all files. -/
theorem ReadAlike.hostsOf_parseFile (h : ReadAlike disk main blocks) (hhosts : parseFile disk main = .ok hosts) :
    HostsOf disk main (readFiles disk includeLevels main) hosts := by
  obtain ⟨hparse, hmem⟩ := parseWithIncludes_mem h.plain hhosts
  exact ⟨List.Subset.refl _, hparse, hmem⟩

theorem ReadAlike.saysSame_parseFile (h : ReadAlike disk main blocks) (hload : loadDocument disk main = some d)
    (hhosts : parseFile disk main = .ok hosts) : d.SaysSame hosts :=
  h.saysSame hload (h.hostsOf_parseFile hhosts) fun file hfile a ha => ⟨file, hfile, a, ha, rfl⟩

end ReadAlike

/-! ### Edits leave their mark -/

/-- Nothing was added and nothing deleted, every file is what it was, and none is marked. -/
def Untouched (d : Document) (hosts : List Host) : Prop :=
  ∃ s, d.apply hosts = .ok s ∧ s.added = 0 ∧ s.removed = 0 ∧ s.doc.files = d.files ∧ s.doc.dirty = fun _ => false

section Dirty

variable {d : Document} {hosts : List Host} {s s' : Applied} {name path : CStr}

theorem dirty_write (d : Document) (path content : CStr) : (d.write path content).dirty path = true := by
  simp [Document.write]

theorem dirty_write_of_dirty (h : d.dirty path = true) (other content : CStr) :
    (d.write other content).dirty path = true := by
  simp [Document.write, h]

/-- For a name the loop over the wanted hosts finds what is wanted, or it leaves a mark. -/
theorem want_clean (hname : name ∈ wantedNames hosts) (h : s.want hosts name = .ok s') :
    (s' = s ∧ ∃ host span onDisk, wantedHost hosts name = some host ∧ s.doc.objects.lookup name = some span ∧
        s.doc.hostAt span = .ok (some onDisk) ∧ sameHost onDisk host = true) ∨
      ∃ path, s'.doc.dirty path = true := by
  obtain ⟨wanted, hwanted⟩ := mem_wantedNames_iff_wantedHost.mp hname
  obtain ⟨hnone, -⟩ | ⟨host, hhost, ⟨-, rfl⟩ | ⟨span, onDisk, hlookup, hat, ⟨hsame, rfl⟩ | ⟨-, rfl⟩⟩⟩ :=
    Applied.want_cases h
  · exact absurd (hnone.symm.trans hwanted) (by simp)
  · exact Or.inr ⟨_, dirty_write _ _ _⟩
  · cases onDisk with
    | none => contradiction
    | some found => exact Or.inl ⟨rfl, host, span, found, hhost, hlookup, hat, hsame⟩
  · refine Or.inr ⟨span.file, ?_⟩
    dsimp only
    unfold Document.replaceObject
    rw [hlookup]
    exact dirty_write _ _ _

theorem dirty_want (hdirty : s.doc.dirty path = true) (h : s.want hosts name = .ok s') : s'.doc.dirty path = true := by
  obtain ⟨-, rfl⟩ | ⟨host, hhost, ⟨-, rfl⟩ | ⟨span, onDisk, hlookup, hat, ⟨-, rfl⟩ | ⟨-, rfl⟩⟩⟩ := Applied.want_cases h
  · exact hdirty
  · exact dirty_write_of_dirty hdirty _ _
  · exact hdirty
  · dsimp only
    unfold Document.replaceObject
    rw [hlookup]
    exact dirty_write_of_dirty hdirty _ _

theorem dirty_foldlM_want {names : List CStr} (hdirty : s.doc.dirty path = true)
    (h : names.foldlM (Applied.want hosts) s = .ok s') : s'.doc.dirty path = true := by
  induction names generalizing s with
  | nil => exact Except.ok.inj h ▸ hdirty
  | cons name names ih =>
      rw [List.foldlM_cons] at h
      cases hstep : s.want hosts name with
      | error failure =>
          rw [hstep] at h
          cases h
      | ok next =>
          rw [hstep] at h
          exact ih (dirty_want hdirty hstep) h

theorem drop_cases (s : Applied) (name : CStr) :
    (s.doc.objects.lookup name = none ∧ s.drop name = s) ∨ ∃ path content,
      (s.drop name).doc = s.doc.write path content := by
  unfold Applied.drop
  cases hlookup : s.doc.objects.lookup name with
  | none => exact Or.inl ⟨rfl, rfl⟩
  | some span =>
      rw [Option.isSome_some, if_pos rfl]
      unfold Document.deleteObject
      rw [hlookup]
      exact Or.inr ⟨_, _, rfl⟩

theorem dirty_foldl_drop (names : List CStr) (hdirty : s.doc.dirty path = true) :
    (names.foldl Applied.drop s).doc.dirty path = true := by
  induction names generalizing s with
  | nil => exact hdirty
  | cons name names ih =>
      refine ih ?_
      obtain ⟨-, hsame⟩ | ⟨other, content, hwrite⟩ := drop_cases s name
      · rw [hsame]
        exact hdirty
      · rw [hwrite]
        exact dirty_write_of_dirty hdirty _ _

/-- Where no mark is left, every name was found with what is wanted. -/
theorem foldlM_want_clean {names : List CStr} (hnames : ∀ name ∈ names, name ∈ wantedNames hosts)
    (h : names.foldlM (Applied.want hosts) s = .ok s') (hclean : s'.doc.dirty = fun _ => false) :
    s' = s ∧ ∀ name ∈ names, ∃ host span onDisk, wantedHost hosts name = some host ∧
      s.doc.objects.lookup name = some span ∧ s.doc.hostAt span = .ok (some onDisk) ∧ sameHost onDisk host = true := by
  induction names with
  | nil => exact ⟨(Except.ok.inj h).symm, by simp⟩
  | cons name names ih =>
      rw [List.foldlM_cons] at h
      cases hstep : s.want hosts name with
      | error failure =>
          rw [hstep] at h
          cases h
      | ok next =>
          rw [hstep] at h
          obtain ⟨rfl, hfirst⟩ | ⟨path, hdirty⟩ := want_clean (hnames name List.mem_cons_self) hstep
          · obtain ⟨rfl, hrest⟩ := ih (fun other hother => hnames other (List.mem_cons_of_mem _ hother)) h
            refine ⟨rfl, fun other hother => ?_⟩
            obtain rfl | hother := List.mem_cons.mp hother
            · exact hfirst
            · exact hrest other hother
          · have hmarked := dirty_foldlM_want hdirty h
            rw [hclean] at hmarked
            contradiction

theorem foldl_drop_clean {names : List CStr} (hclean : (names.foldl Applied.drop s).doc.dirty = fun _ => false) :
    ∀ name ∈ names, s.doc.objects.lookup name = none := by
  induction names with
  | nil => simp
  | cons name names ih =>
      obtain ⟨hnone, hsame⟩ | ⟨path, content, hwrite⟩ := drop_cases s name
      · rw [List.foldl_cons, hsame] at hclean
        intro other hother
        obtain rfl | hother := List.mem_cons.mp hother
        · exact hnone
        · exact ih hclean other hother
      · have hdirty : (s.drop name).doc.dirty path = true := by
          rw [hwrite]
          exact dirty_write _ _ _
        have hmarked := dirty_foldl_drop names hdirty
        rw [← List.foldl_cons, hclean] at hmarked
        contradiction

theorem saysSame_of_untouched (h : Untouched d hosts) : d.SaysSame hosts := by
  obtain ⟨s, happly, -, -, -, hclean⟩ := h
  unfold Document.apply at happly
  cases hnames : (wantedNames hosts).foldlM (Applied.want hosts) ⟨d, 0, 0, 0⟩ with
  | error failure =>
      rw [hnames] at happly
      cases happly
  | ok wanted =>
      rw [hnames] at happly
      obtain rfl := Except.ok.inj happly
      have hwanted : wanted.doc.dirty = fun _ => false := by
        funext path
        cases hdirty : wanted.doc.dirty path with
        | false => rfl
        | true =>
            have hmarked := dirty_foldl_drop (doomed hosts wanted.doc) hdirty
            rw [hclean] at hmarked
            contradiction
      obtain ⟨rfl, hfound⟩ := foldlM_want_clean (fun name hname => hname) hnames hwanted
      have hnone := foldl_drop_clean hclean
      refine ⟨fun name hname => ?_, fun name span hlookup => ?_⟩
      · obtain ⟨host, span, onDisk, -, hlookup, -⟩ := hfound name hname
        exact Option.isSome_iff_exists.mpr ⟨span, hlookup⟩
      · -- an object that is not wanted would be doomed, and deleted
        cases hhost : wantedHost hosts name with
        | none =>
            have hdoomed : name ∈ doomed hosts d := by
              refine List.mem_mergeSort.mpr (List.mem_filter.mpr ⟨?_, ?_⟩)
              · exact List.mem_map.mpr ⟨(name, span), mem_of_lookup hlookup, rfl⟩
              · rw [hhost]
                rfl
            exact absurd ((hnone name hdoomed).symm.trans hlookup) (by simp)
        | some host =>
            obtain ⟨other, span', onDisk, hother, hlookup', hat, hsame⟩ :=
              hfound name (mem_wantedNames_iff_wantedHost.mpr ⟨host, hhost⟩)
            obtain rfl := Option.some.inj (hother.symm.trans hhost)
            obtain rfl := Option.some.inj (hlookup'.symm.trans hlookup)
            exact ⟨other, onDisk, rfl, hat, hsame⟩

end Dirty

/-- A document that has just been loaded is left alone exactly by the hosts that say what it says: the two scanners
agree, name for name, on which objects there are and what is in them. -/
theorem untouched_iff_saysSame {disk : Files} {path : CStr} {d : Document} (hload : loadDocument disk path = some d)
    (hosts : List Host) : Untouched d hosts ↔ d.SaysSame hosts := by
  constructor
  · exact saysSame_of_untouched
  · intro h
    exact ⟨⟨d, 0, 0, 0⟩, h.apply, rfl, rfl, rfl, (loadDocument_fresh hload).2⟩

section Deletions

variable {disk : Files} {main : CStr} {d : Document} {hosts : List Host} {name path : CStr} {s : Applied}

/-- No object of a document stops before it starts. -/
def Document.InOrder (d : Document) : Prop := ∀ entry ∈ d.objects, entry.2.start ≤ entry.2.stop

theorem le_of_mem_scanObjects {content : CStr} {found : Nat × Nat} (h : found ∈ scanObjects content) : found.1 ≤ found.2 :=
  (scanFrom_bounds content (show ScanMode.Behind 0 (.outside none) from trivial) found h).1

theorem inOrder_of_indexed (h : d.Indexed) : d.InOrder := by
  intro entry hentry
  obtain ⟨content, -, found, hfound, heq⟩ := h.found entry hentry
  rw [heq]
  exact le_of_mem_scanObjects hfound

theorem Document.InOrder.write (h : d.InOrder) (path content : CStr) : (d.write path content).InOrder := by
  intro entry hentry
  obtain hold | ⟨found, hfound, rfl⟩ := mem_indexFile_found hentry
  · exact h entry (List.mem_filter.mp hold).1
  · exact le_of_mem_scanObjects hfound

theorem content_write (d : Document) (path content p : CStr) :
    (d.write path content).content p = if p = path then content else d.content p := by
  rw [Document.content, Document.write, Document.content]
  change (if p = path then some content else d.files p).getD [] = _
  split <;> rfl

theorem length_dropNewline (text : CStr) : (dropNewline text).length ≤ text.length := by
  unfold dropNewline
  split
  · rw [List.length_tail]
    omega
  · exact Nat.le_refl _

/-- What is left of a file when an object is deleted. -/
theorem length_deleted (content : CStr) {span : Span} (hle : span.start ≤ span.stop) :
    (content.take span.start ++
        dropNewline (dropNewline ((content.drop span.stop).dropWhile fun c => c = ' ' || c = '\t'))).length ≤
      content.length - (min span.stop content.length - min span.start content.length) := by
  have hwhile := (List.dropWhile_suffix (fun c => c = ' ' || c = '\t') (l := content.drop span.stop)).length_le
  have hfirst := length_dropNewline ((content.drop span.stop).dropWhile fun c => c = ' ' || c = '\t')
  have hsecond := length_dropNewline (dropNewline ((content.drop span.stop).dropWhile fun c => c = ' ' || c = '\t'))
  rw [List.length_drop] at hwhile
  rw [List.length_append, List.length_take]
  omega

theorem drop_of_lookup {span : Span} (hlookup : s.doc.objects.lookup name = some span) :
    (s.drop name).doc = s.doc.write span.file ((s.doc.content span.file).take span.start ++
      dropNewline (dropNewline (((s.doc.content span.file).drop span.stop).dropWhile fun c => c = ' ' || c = '\t'))) := by
  unfold Applied.drop
  rw [hlookup, Option.isSome_some, if_pos rfl]
  unfold Document.deleteObject
  rw [hlookup]

/-- Deletions make no file longer. -/
theorem foldl_drop_shrinks (names : List CStr) (h : s.doc.InOrder) (path : CStr) :
    (names.foldl Applied.drop s).doc.order = s.doc.order ∧
      ((names.foldl Applied.drop s).doc.content path).length ≤ (s.doc.content path).length := by
  induction names generalizing s with
  | nil => exact ⟨rfl, Nat.le_refl _⟩
  | cons name names ih =>
      cases hlookup : s.doc.objects.lookup name with
      | none =>
          have hsame : s.drop name = s := by
            unfold Applied.drop
            rw [hlookup]
            rfl
          rw [List.foldl_cons, hsame]
          exact ih h
      | some span =>
          have hdrop := drop_of_lookup hlookup
          obtain ⟨horder, hlength⟩ := ih (hdrop ▸ h.write span.file _)
          refine ⟨horder.trans (by rw [hdrop]; rfl), hlength.trans ?_⟩
          rw [hdrop, content_write]
          split
          · rename_i hpath
            rw [hpath]
            exact (length_deleted _ (h _ (mem_of_lookup hlookup))).trans (Nat.sub_le _ _)
          · exact Nat.le_refl _

/-- A deletion is seen on the disk. -/
theorem save_foldl_drop_ne {span : Span} (names : List CStr) (h : d.InOrder) (hlookup : d.objects.lookup name = some span)
    (hfile : span.file ∈ d.order) (hcontent : d.content span.file = contentOf disk span.file)
    (hlt : span.start < span.stop) (hstop : span.stop ≤ (d.content span.file).length) :
    ((name :: names).foldl Applied.drop ⟨d, 0, 0, 0⟩).doc.save disk span.file ≠ disk span.file := by
  intro hsame
  rw [List.foldl_cons] at hsame
  have hdrop := @drop_of_lookup name ⟨d, 0, 0, 0⟩ span hlookup
  generalize (⟨d, 0, 0, 0⟩ : Applied).drop name = first at hsame hdrop
  have horder : first.doc.InOrder := hdrop ▸ h.write span.file _
  obtain ⟨hsameOrder, hlength⟩ := foldl_drop_shrinks names horder span.file
  have hdirty : (names.foldl Applied.drop first).doc.dirty span.file = true :=
    dirty_foldl_drop names (by rw [hdrop]; exact dirty_write _ _ _)
  have hmem : span.file ∈ (names.foldl Applied.drop first).doc.dirtyFiles := by
    refine List.mem_filter.mpr ⟨?_, hdirty⟩
    rw [hsameOrder, hdrop]
    exact hfile
  have hsaved : (names.foldl Applied.drop first).doc.files span.file = disk span.file := (if_pos hmem).symm.trans hsame
  have hunchanged : (names.foldl Applied.drop first).doc.content span.file = d.content span.file := by
    rw [hcontent, Document.content, hsaved, contentOf]
  have hshorter := length_deleted (d.content span.file) (Nat.le_of_lt hlt)
  rw [hunchanged, hdrop, content_write, if_pos rfl] at hlength
  have hbetween : min span.start (d.content span.file).length < min span.stop (d.content span.file).length := by omega
  have hmin : min span.stop (d.content span.file).length ≤ (d.content span.file).length := Nat.min_le_right _ _
  have htotal : (d.content span.file).length ≤ _ := hlength.trans hshorter
  omega

end Deletions

/-! ### Snapshots -/

section Snapshots

variable {V : Type} [DecidableEq V] (sha : CStr → V) (configPath : CStr)

/-- A call hands out a snapshot: the answer of `GetConfig`, that of `UpdateConfig`, or what is current when a version
does not match. -/
inductive HandedOut (st : State) (s : Snapshot V) : State → Prop where
  | got (h : getConfig sha configPath st.disk = .ok s) : HandedOut st s st
  | saved (stamp : CStr) (update : Snapshot V) (st' : State)
      (h : updateConfig sha configPath stamp update st = (.snapshot s, st')) : HandedOut st s st'
  | conflict (stamp : CStr) (update : Snapshot V) (st' : State)
      (h : updateConfig sha configPath stamp update st = (.conflict (some s), st')) : HandedOut st s st'

/-- Saved back in any second, the snapshot leaves every file as it is. -/
def SafeToSave (st : State) (s : Snapshot V) : Prop :=
  ∀ stamp, (updateConfig sha configPath stamp s st).2.disk = st.disk

/-- The snapshot is refused, or its hosts say what the files say, those that are included among them. -/
def Resubmittable (st : State) (s : Snapshot V) : Prop :=
  ¬Accepted sha configPath st s.version ∨ validate s.hosts = false ∨
    ∀ d, loadDocument st.disk configPath = some d → d.SaysSame s.hosts

variable {sha configPath} {st : State} {s : Snapshot V}

omit [DecidableEq V] in
theorem splice_of_saysSame {hosts : List Host} (h : ∀ d, loadDocument st.disk configPath = some d → d.SaysSame hosts) :
    (st.splice sha configPath hosts).2.disk = st.disk := by
  unfold State.splice
  cases hload : loadDocument st.disk configPath with
  | none => rfl
  | some d =>
      dsimp only
      rw [(h d hload).apply]
      exact Document.save_of_clean (loadDocument_fresh hload).2 st.disk

theorem safeToSave_of_resubmittable (h : Resubmittable sha configPath st s) : SafeToSave sha configPath st s := by
  intro stamp
  by_cases haccepted : Accepted sha configPath st s.version
  · rw [updateConfig_of_accepted haccepted]
    split
    · rename_i hvalid
      obtain hrefused | hinvalid | hsays := h
      · exact absurd haccepted hrefused
      · exact absurd (hvalid.symm.trans hinvalid) (by decide)
      · cases hbackup : st.backup configPath stamp with
        | none => rfl
        | some backed =>
            obtain ⟨content, -, rfl⟩ := Option.map_eq_some_iff.mp hbackup
            exact splice_of_saysSame hsays
    · rfl
  · rw [(updateConfig_of_refused haccepted).1]

omit [DecidableEq V] in
theorem answerOf_eq_snapshot {read : Except Failure (Snapshot V)} (h : answerOf Answer.snapshot read = .snapshot s) :
    read = .ok s := by
  cases read with
  | error failure => cases h
  | ok other => rw [Answer.snapshot.inj h]

omit [DecidableEq V] in
theorem splice_answer (st : State) (hosts : List Host) :
    (∃ failure, (st.splice sha configPath hosts).1 = .failure failure) ∨
      (st.splice sha configPath hosts).1 =
        answerOf .snapshot (getConfigUnlocked sha configPath (st.splice sha configPath hosts).2.disk) := by
  unfold State.splice
  cases loadDocument st.disk configPath with
  | none => exact Or.inl ⟨_, rfl⟩
  | some d =>
      dsimp only
      cases d.apply hosts with
      | error failure => exact Or.inl ⟨_, rfl⟩
      | ok applied => exact Or.inr rfl

/-- An update that is accepted fails, or is answered with the main file as it is then. -/
theorem updateConfig_answer {stamp : CStr} {update : Snapshot V} (h : Accepted sha configPath st update.version) :
    (∃ failure, (updateConfig sha configPath stamp update st).1 = .failure failure) ∨
      (updateConfig sha configPath stamp update st).1 =
        answerOf .snapshot (getConfigUnlocked sha configPath (updateConfig sha configPath stamp update st).2.disk) := by
  rw [updateConfig_of_accepted h]
  split
  · cases st.backup configPath stamp with
    | none => exact Or.inl ⟨_, rfl⟩
    | some backed => exact splice_answer backed update.hosts
  · exact Or.inl ⟨_, rfl⟩

/-- A snapshot that is handed out is one of the configuration as it is then, with its included files or without. -/
theorem handedOut_cases {st' : State} (h : HandedOut sha configPath st s st') :
    getConfig sha configPath st'.disk = .ok s ∨ getConfigUnlocked sha configPath st'.disk = .ok s := by
  cases h with
  | got h => exact Or.inl h
  | saved stamp update st' h =>
      refine Or.inr ?_
      by_cases haccepted : Accepted sha configPath st update.version
      · obtain ⟨failure, hfailed⟩ | hanswer := @updateConfig_answer _ _ sha configPath st stamp update haccepted
        · rw [h] at hfailed
          cases hfailed
        · rw [h] at hanswer
          exact answerOf_eq_snapshot hanswer.symm
      · have hfails := (@updateConfig_of_refused _ _ _ stamp _ _ _ haccepted).2
        rw [h] at hfails
        contradiction
  | conflict stamp update st' h =>
      refine Or.inr ?_
      by_cases haccepted : Accepted sha configPath st update.version
      · obtain ⟨failure, hfailed⟩ | hanswer := @updateConfig_answer _ _ sha configPath st stamp update haccepted
        · rw [h] at hfailed
          cases hfailed
        · rw [h] at hanswer
          dsimp only at hanswer
          cases hread : getConfigUnlocked sha configPath st'.disk <;> rw [hread] at hanswer <;> cases hanswer
      · obtain rfl : st = st' := by
          rw [← (@updateConfig_of_refused _ _ _ stamp _ _ _ haccepted).1, h]
        unfold updateConfig at h
        cases hversion : getCurrentVersion sha configPath st.disk with
        | none =>
            rw [hversion] at h
            cases h
        | some current =>
            rw [hversion] at h
            dsimp only at h
            have hne : update.version ≠ current := by
              rintro rfl
              exact haccepted hversion
            rw [if_pos hne] at h
            have hanswer := (Prod.mk.inj h).1
            cases hread : getConfigUnlocked sha configPath st.disk with
            | error failure =>
                rw [hread] at hanswer
                cases hanswer
            | ok found =>
                rw [hread] at hanswer
                rw [Option.some.inj (Answer.conflict.inj hanswer)]

variable {blocks : CStr → List Block}

omit [DecidableEq V] in
theorem parseFile_of_getConfig {disk : Files} (h : getConfig sha configPath disk = .ok s) :
    parseFile disk configPath = .ok s.hosts := by
  unfold getConfig at h
  cases hall : collectAllContent disk configPath with
  | error failure =>
      rw [hall] at h
      cases h
  | ok all =>
      rw [hall] at h
      cases hhosts : parseFile disk configPath with
      | error failure =>
          rw [hhosts] at h
          cases h
      | ok hosts =>
          rw [hhosts] at h
          rw [← Except.ok.inj h]

omit [DecidableEq V] in
/-- A snapshot of the main file alone has its hosts, and its version is accepted. -/
theorem of_getConfigUnlocked (h : getConfigUnlocked sha configPath st.disk = .ok s) :
    Accepted sha configPath st s.version ∧ HostsOf st.disk configPath [configPath] s.hosts := by
  unfold getConfigUnlocked at h
  cases hmain : st.disk configPath with
  | none =>
      rw [hmain] at h
      cases h
  | some content =>
      rw [hmain] at h
      dsimp only at h
      cases hparse : parse content with
      | error failure =>
          rw [hparse] at h
          cases h
      | ok hosts =>
          rw [hparse] at h
          obtain rfl := Except.ok.inj h
          have hcontent : contentOf st.disk configPath = content := by rw [contentOf, hmain]; rfl
          refine ⟨by rw [Accepted, getCurrentVersion, hmain]; rfl, ?_, ?_, ?_⟩
          · exact List.cons_subset.mpr ⟨mem_readFiles_self hmain 10, List.nil_subset _⟩
          · intro file hfile
            rw [List.mem_singleton.mp hfile, hcontent]
            exact ⟨hosts, hparse⟩
          · intro host
            simp [hcontent, hparse]

/-- An object that no host is told of is deleted. -/
theorem not_safeToSave (haccepted : Accepted sha configPath st s.version) (hvalid : validate s.hosts = true)
    (hhosts : HostsOf st.disk configPath [configPath] s.hosts) (h : ReadAlike st.disk configPath blocks)
    (hcovers : ¬Covers st.disk configPath blocks [configPath]) : ¬SafeToSave sha configPath st s := by
  intro hsafe
  obtain ⟨content, hmain, -⟩ : ∃ content, st.disk configPath = some content ∧ sha content = s.version :=
    Option.map_eq_some_iff.mp haccepted
  obtain ⟨d, hload⟩ : ∃ d, loadDocument st.disk configPath = some d := ⟨_, if_pos (by rw [hmain]; rfl)⟩
  unfold Covers at hcovers
  push Not at hcovers
  obtain ⟨file, hfile, a, ha, hnone⟩ := hcovers
  have happly := @Document.apply_of_wanted d s.hosts fun name hname => by
    obtain ⟨span, hlookup⟩ := Option.isSome_iff_exists.mp (h.known_wanted hload hhosts hname)
    obtain ⟨host, onDisk, hhost, hat, hsame⟩ := h.asIs hload hhosts hname hlookup
    exact @Applied.want_asIs s.hosts ⟨d, 0, 0, 0⟩ name host onDisk span hhost hlookup hat hsame
  have hdoomed : a.name ∈ doomed s.hosts d := by
    obtain ⟨span, hlookup⟩ := Option.isSome_iff_exists.mp (h.known hload hfile ha)
    refine List.mem_mergeSort.mpr (List.mem_filter.mpr ⟨List.mem_map.mpr ⟨_, mem_of_lookup hlookup, rfl⟩, ?_⟩)
    rw [Option.isNone_iff_eq_none]
    by_contra hwanted
    obtain ⟨host, hhost⟩ := Option.ne_none_iff_exists'.mp hwanted
    obtain ⟨hmem, hname⟩ := wantedHost_mem hhost
    obtain ⟨other, hother, b, hb, hreads⟩ := h.block_of_host hhosts hmem
    exact hnone other hother b hb (by rw [← hreads.hostName, hname])
  obtain ⟨name, names, hnames⟩ := List.exists_cons_of_ne_nil (List.ne_nil_of_mem hdoomed)
  have hname : name ∈ doomed s.hosts d := hnames ▸ List.mem_cons_self
  obtain ⟨entry, hentry, rfl⟩ := List.mem_map.mp (List.mem_filter.mp (List.mem_mergeSort.mp hname)).1
  obtain ⟨span, hlookup⟩ := Option.isSome_iff_exists.mp (List.lookup_isSome_iff.mpr ⟨entry, hentry, beq_self_eq_true _⟩)
  obtain ⟨b, hb, hread, ⟨left, behind, right, hwhole, -, hspan⟩, hcontent, -⟩ := h.block_of_object hload hlookup
  obtain ⟨hstart, hstop⟩ := Prod.mk.inj hspan
  have hlength : 0 < b.text.length := by
    rw [Block.text, List.length_append, List.length_cons]
    omega
  have hchanged := @save_foldl_drop_ne st.disk d entry.1 span names (inOrder_of_indexed (indexed_of_loadDocument hload)) hlookup
    ((mem_order_iff_readFiles h.shallow hload h.plain).mpr hread) hcontent
    (by rw [hstart, hstop, List.length_append]; omega)
    (by rw [hcontent, hwhole, hstop]; simp only [List.length_append]; omega)
  have hbackup : st.backup configPath [] = some { st with backups := st.backups.set (backupName []) content } := by
    rw [State.backup, hmain]
    rfl
  have hsaved := hsafe []
  rw [updateConfig_of_accepted haccepted, if_pos hvalid, hbackup] at hsaved
  dsimp only at hsaved
  rw [State.splice, hload] at hsaved
  dsimp only at hsaved
  rw [happly, hnames] at hsaved
  exact hchanged (congrFun hsaved span.file)

end Snapshots

/-! ### On files -/

/-- A main file with comments that includes another, and an object in each. -/
def described : State :=
  ⟨twoFiles "# the hosts\ninclude \"/other\";\n; one of them\nobject a \x7b\n\tip \"1.2.3.4\"; # no brace \x7d\n\x7d;\n"
    "object b \x7b desc \"\x7b\"; \x7d\n", fun _ => none⟩

def described.a : Block where
  before := []
  name := ['a']
  after := [' ']
  blank_before := rfl
  blank_after := rfl
  named := by decide
  plain := by decide
  unbroken := rfl
  unbraced := by decide
  body := "\n\tip \"1.2.3.4\"; # no brace \x7d\n".toList
  isBody := ⟨by decide, by decide, by decide⟩

def described.b : Block where
  before := []
  name := ['b']
  after := [' ']
  blank_before := rfl
  blank_after := rfl
  named := by decide
  plain := by decide
  unbroken := rfl
  unbraced := by decide
  body := " desc \"\x7b\"; ".toList
  isBody := ⟨by decide, by decide, by decide⟩

/-- The objects of each file. -/
def described.blocks (path : CStr) : List Block := if path = "/main".toList then [described.a] else [described.b]

theorem described_files : readFiles described.disk includeLevels "/main".toList = ["/main".toList, "/other".toList] := by
  decide

theorem described_legible_main : Legible [described.a] (contentOf described.disk "/main".toList) := by
  have hgap : Gap "# the hosts\ninclude \"/other\";\n; one of them\n".toList :=
    ⟨by decide, by decide, by decide⟩
  have hlast : Legible [] ";\n".toList := .last (by decide)
  have htext : contentOf described.disk "/main".toList =
      "# the hosts\ninclude \"/other\";\n; one of them\n".toList ++ (described.a.text ++ ";\n".toList) := by decide
  rw [htext]
  exact .block hgap described.a hlast

theorem described_legible_other : Legible [described.b] (contentOf described.disk "/other".toList) := by
  have hgap : Gap [] := ⟨rfl, rfl, by decide⟩
  have hlast : Legible [] ['\n'] := .last (by decide)
  have htext : contentOf described.disk "/other".toList = [] ++ (described.b.text ++ ['\n']) := by decide
  rw [htext]
  exact .block hgap described.b hlast

theorem described_includes_main : PlainIncludes (contentOf described.disk "/main".toList) := by
  have hlines : (contentOf described.disk "/main".toList).splitOn '\n' = ["# the hosts".toList, "include \"/other\";".toList,
      "; one of them".toList, "object a \x7b".toList, "\tip \"1.2.3.4\"; # no brace \x7d".toList, "\x7d;".toList, []] := by
    decide
  have hpath : Includes "include \"/other\";".toList (some "/other".toList) := by
    have hends : EndsInclude [';'] := .inr ⟨[], [], rfl, rfl, rfl⟩
    have htext : "include \"/other\";".toList =
        [] ++ ("include".toList ++ ' ' :: ([] ++ '"' :: ("/other".toList ++ '"' :: [';']))) := by decide
    rw [htext]
    exact .path [] [] _ _ rfl rfl (by decide) (by decide) hends
  intro line hline
  rw [hlines] at hline
  simp only [List.mem_cons, List.not_mem_nil, or_false] at hline
  obtain rfl | rfl | rfl | rfl | rfl | rfl | rfl := hline
  · exact ⟨none, .other (by decide)⟩
  · exact ⟨_, hpath⟩
  all_goals exact ⟨none, .other (by decide)⟩

theorem described_includes_other : PlainIncludes (contentOf described.disk "/other".toList) := by
  have hlines : (contentOf described.disk "/other".toList).splitOn '\n' = ["object b \x7b desc \"\x7b\"; \x7d".toList, []] := by
    decide
  intro line hline
  rw [hlines] at hline
  simp only [List.mem_cons, List.not_mem_nil, or_false] at hline
  obtain rfl | rfl := hline
  all_goals exact ⟨none, .other (by decide)⟩

theorem described_readAlike : ReadAlike described.disk "/main".toList described.blocks := by
  have hmain : described.blocks "/main".toList = [described.a] := rfl
  have hother : described.blocks "/other".toList = [described.b] := if_neg (by decide)
  have hcases : ∀ path ∈ readFiles described.disk includeLevels "/main".toList,
      path = "/main".toList ∨ path = "/other".toList := by
    intro path hpath
    rw [described_files] at hpath
    simpa using hpath
  constructor
  · intro path hpath
    obtain rfl | rfl := hcases path hpath
    · exact described_legible_main
    · rw [hother]
      exact described_legible_other
  · intro path hpath
    obtain rfl | rfl := hcases path hpath
    · exact described_includes_main
    · exact described_includes_other
  · intro path hpath
    obtain rfl | rfl := hcases path hpath
    · exact .of_length (by decide)
    · exact .of_length (by decide)
  · intro p hp q hq x hx y hy hname
    have hblock : ∀ path ∈ readFiles described.disk includeLevels "/main".toList, ∀ z ∈ described.blocks path,
        z = described.a ∨ z = described.b := by
      intro path hpath z hz
      obtain rfl | rfl := hcases path hpath
      · rw [hmain] at hz
        exact Or.inl (List.mem_singleton.mp hz)
      · rw [hother] at hz
        exact Or.inr (List.mem_singleton.mp hz)
    obtain rfl | rfl := hblock p hp x hx <;> obtain rfl | rfl := hblock q hq y hy
    · exact fun host => Iff.rfl
    · exact absurd hname (by decide)
    · exact absurd hname (by decide)
    · exact fun host => Iff.rfl
  · refine @notTooDeep_of_files _ _ ["/main".toList, "/other".toList] List.mem_cons_self (fun file hfile => ?_) (by decide)
    by_contra hnot
    simp only [List.mem_cons, List.not_mem_nil, or_false, not_or] at hnot
    have hnone : described.disk file = none := (if_neg hnot.1).trans (if_neg hnot.2)
    rw [readable, hnone] at hfile
    contradiction

/-- The hosts of both files. -/
def described.hosts : List Host :=
  [{ newHost ['a'] with ip := "1.2.3.4".toList }, { newHost ['b'] with notes := ['\x7b'] }]

/-- An object that is commented out with semicolons. -/
def commentedOut : Files := twoFiles "object a \x7b\n\x7d;\n; object b \x7b\n; \x7d;\n" ""

/-- What is current when a version does not match. -/
def described.current : Snapshot CStr :=
  ⟨contentOf described.disk "/main".toList, [{ newHost ['a'] with ip := "1.2.3.4".toList }]⟩

/-- What was current when a version did not match, and is sent back. -/
def currentOf (disk : Files) : Snapshot CStr := ⟨contentOf disk "/main".toList, [newHost ['a']]⟩

end Sysmon.Config
