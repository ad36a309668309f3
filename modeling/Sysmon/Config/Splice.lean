import Mathlib.Data.Char
import Mathlib.Data.List.Lex
import Sysmon.Config.Generate

/-!
# Editing a configuration in place

`splice.go`. A document is every file of a configuration as text, with the bytes each object takes up; an edit puts
other bytes in their place and scans the file again. The scanner reads a character at a time: outside of objects,
where a word is looked for that begins after a separator, and inside of one, where braces are counted. A map of Go is
a list of entries with distinct keys, and nothing depends on their order.
-/

namespace Sysmon.Config

open GoBytes

/-- `Span`. -/
structure Span where
  file : CStr
  start : Nat
  stop : Nat
  deriving DecidableEq, Repr

/-- `content[start:stop]`. -/
def slice (content : CStr) (start stop : Nat) : CStr := (content.drop start).take (stop - start)

/-! ### Scanning -/

/-- `isSep`. -/
def isSep (c : Char) : Bool :=
  c = ' ' || c = '\t' || c = '\n' || c = '\r' || c = ';' || c = '\x7d' || c = '\x7b'

/-- `isWordStart`, for the text from here on and the character before it. -/
def wordStarts (word : String) (prev : Option Char) (s : CStr) : Bool :=
  word.toList.isPrefixOf s && prev.all isSep && (s.drop word.toList.length).head?.all isSep

/-- Where `scanObjects` is: outside of objects, behind the word that begins one, in its block with so many braces
open, or behind its last brace. -/
inductive ScanMode where
  | outside (prev : Option Char)
  | comment
  | quoted
  | header (start : Nat)
  | block (start depth : Nat)
  | blockComment (start depth : Nat)
  | blockQuoted (start depth : Nat)
  | closing (start : Nat) (prev : Char)
  deriving DecidableEq, Repr

def outsideNext (pos : Nat) (prev : Option Char) (c : Char) (s : CStr) : ScanMode :=
  if c = '#' then .comment
  else if c = '"' then .quoted
  else if wordStarts "object" prev (c :: s) then .header pos
  else .outside (some c)

/-- After a character, with the position of the character and the text behind it. -/
def ScanMode.next (pos : Nat) (c : Char) (s : CStr) : ScanMode → ScanMode
  | .outside prev => outsideNext pos prev c s
  | .comment => if c = '\n' then .outside (some c) else .comment
  | .quoted => if c = '"' then .outside (some c) else .quoted
  | .header start => if c = '\x7b' then .block start 1 else if c = '\n' then .outside (some c) else .header start
  | .block start depth =>
      if c = '#' then .blockComment start depth
      else if c = '"' then .blockQuoted start depth
      else if c = '\x7b' then .block start (depth + 1)
      else if c = '\x7d' then if depth = 1 then .closing start c else .block start (depth - 1)
      else .block start depth
  | .blockComment start depth => if c = '\n' then .block start depth else .blockComment start depth
  | .blockQuoted start depth => if c = '"' then .block start depth else .blockQuoted start depth
  | .closing start prev =>
      if c = ' ' ∨ c = '\t' then .closing start c
      else if c = ';' then .outside (some c)
      else outsideNext pos (some prev) c s

/-- The object that is found to be complete with a character: blanks and one semicolon behind its brace are part of
it. -/
def ScanMode.found (pos : Nat) (c : Char) : ScanMode → List (Nat × Nat)
  | .closing start _ =>
      if c = ' ' ∨ c = '\t' then [] else if c = ';' then [(start, pos + 1)] else [(start, pos)]
  | _ => []

/-- The same at the end of the text. -/
def ScanMode.foundAtEnd (pos : Nat) : ScanMode → List (Nat × Nat)
  | .closing start _ => [(start, pos)]
  | _ => []

def scanFrom : ScanMode → Nat → CStr → List (Nat × Nat)
  | mode, pos, [] => mode.foundAtEnd pos
  | mode, pos, c :: s => mode.found pos c ++ scanFrom (mode.next pos c s) (pos + 1) s

/-- `scanObjects`, where each object starts and where it stops. -/
def scanObjects (content : CStr) : List (Nat × Nat) := scanFrom (.outside none) 0 content

/-- `objectName`. -/
def objectName (block : CStr) : CStr :=
  trimSpace ((trimPrefix "object".toList block).takeWhile fun c => c ≠ '\x7b')

/-- Where `scanIncludes` is. -/
inductive IncludeMode where
  | outside (prev : Option Char)
  | comment
  | directive
  | path (text : CStr)
  deriving DecidableEq, Repr

/-- The quoted text that is complete at the end of a configuration, and the one that a quote completes. A quote is a
quote behind the word only. -/
def includesFrom : IncludeMode → CStr → List CStr
  | .path text, [] => [text]
  | _, [] => []
  | .outside prev, c :: s =>
      if c = '#' then includesFrom .comment s
      else if wordStarts "include" prev (c :: s) then includesFrom .directive s
      else includesFrom (.outside (some c)) s
  | .comment, c :: s => if c = '\n' then includesFrom (.outside (some c)) s else includesFrom .comment s
  | .directive, c :: s =>
      if c = '\n' ∨ c = ';' then includesFrom (.outside (some c)) s
      else if c = '"' then includesFrom (.path []) s
      else includesFrom .directive s
  | .path text, c :: s =>
      if c = '"' then text :: includesFrom (.outside (some c)) s else includesFrom (.path (text ++ [c])) s

/-- `scanIncludes`. -/
def scanIncludes (content : CStr) : List CStr := includesFrom (.outside none) content

/-! ### Documents -/

/-- The files there are, each by its path. -/
abbrev Files := CStr → Option CStr

def Files.set (files : Files) (path content : CStr) : Files := fun p => if p = path then some content else files p

/-- `Document`. -/
structure Document where
  mainPath : CStr
  order : List CStr
  files : Files
  objects : List (CStr × Span)
  dirty : CStr → Bool

/-- What a file adds to the objects. The first definition of a name wins. -/
def indexObject (path content : CStr) (objects : List (CStr × Span)) (found : Nat × Nat) : List (CStr × Span) :=
  let name := objectName (slice content found.1 found.2)
  if name = [] ∨ (objects.lookup name).isSome then objects else objects ++ [(name, ⟨path, found.1, found.2⟩)]

def indexFile (path content : CStr) (objects : List (CStr × Span)) : List (CStr × Span) :=
  (scanObjects content).foldl (indexObject path content) objects

/-- The path an `include` of a file stands for. -/
def includePath (path inc : CStr) : CStr := if isAbs inc then inc else join (dir path) inc

/-- A file that is read. -/
def Document.read (d : Document) (path content : CStr) : Document :=
  { d with
    files := d.files.set path content
    order := d.order ++ [path]
    objects := indexFile path content d.objects }

/-- `maxIncludeDepth`, and the file at the top. -/
def includeLevels : Nat := 11

/-- `load`, with so many levels left. A file that cannot be read is passed over, and so is one that was read. -/
def Document.load (disk : Files) : Nat → CStr → Document → Document
  | 0, _, d => d
  | levels + 1, path, d =>
      if (d.files path).isSome then d
      else
        match disk path with
        | none => d
        | some content =>
            (scanIncludes content).foldl (fun d inc => Document.load disk levels (includePath path inc) d)
              (d.read path content)

def Document.empty (path : CStr) : Document := ⟨path, [], fun _ => none, [], fun _ => false⟩

/-- `LoadDocument`. -/
def loadDocument (disk : Files) (path : CStr) : Option Document :=
  if (disk path).isSome then some (Document.load disk includeLevels path (.empty path)) else none

/-- A file with new content, which is scanned again. -/
def Document.write (d : Document) (path content : CStr) : Document :=
  { d with
    files := d.files.set path content
    dirty := fun p => p = path || d.dirty p
    objects := indexFile path content (d.objects.filter fun entry => entry.2.file ≠ path) }

def Document.content (d : Document) (path : CStr) : CStr := (d.files path).getD []

def trimNewlines (text : CStr) : CStr := text.rdropWhile fun c => c = '\n'

/-- `ReplaceObject`. -/
def Document.replaceObject (d : Document) (name text : CStr) : Document :=
  match d.objects.lookup name with
  | none => d
  | some span =>
      let content := d.content span.file
      d.write span.file (content.take span.start ++ trimNewlines text ++ content.drop span.stop)

/-- `AddObject`. -/
def Document.addObject (d : Document) (text : CStr) : Document :=
  let content := d.content d.mainPath
  let content := if content ≠ [] ∧ content.getLast? ≠ some '\n' then content ++ ['\n'] else content
  d.write d.mainPath (content ++ '\n' :: trimNewlines text ++ ['\n'])

/-- A newline, if the text begins with one. -/
def dropNewline (text : CStr) : CStr := if text.head? = some '\n' then text.tail else text

/-- `DeleteObject`. -/
def Document.deleteObject (d : Document) (name : CStr) : Document :=
  match d.objects.lookup name with
  | none => d
  | some span =>
      let content := d.content span.file
      let rest := (content.drop span.stop).dropWhile fun c => c = ' ' || c = '\t'
      d.write span.file (content.take span.start ++ dropNewline (dropNewline rest))

/-! ### The wanted hosts -/

/-- The name a host is wanted under. -/
def hostName (host : Host) : CStr := if host.hostname = [] then host.id else host.hostname

/-- `order`, each name where it comes first. -/
def wantedNames (hosts : List Host) : List CStr :=
  hosts.foldl (fun names host => if hostName host = [] ∨ hostName host ∈ names then names else names ++ [hostName host])
    []

/-- `wanted`. The last host of a name is wanted. -/
def wantedHost (hosts : List Host) (name : CStr) : Option Host :=
  if name = [] then none else hosts.reverse.find? fun host => hostName host = name

/-- `hostAt`. -/
def Document.hostAt (d : Document) (span : Span) : Except Failure (Option Host) :=
  match parse (slice (d.content span.file) span.start span.stop) with
  | .ok [host] => .ok (some host)
  | .error .panicked => .error .panicked
  | _ => .ok none

/-- `sameHost`. -/
def sameHost (a b : Host) : Bool := { a with id := [] } = { b with id := [] }

/-- A document that is being edited, with what was done to it. -/
structure Applied where
  doc : Document
  added : Nat
  changed : Nat
  removed : Nat

/-- The loop over the wanted hosts. -/
def Applied.want (hosts : List Host) (s : Applied) (name : CStr) : Except Failure Applied :=
  match wantedHost hosts name with
  | none => .ok s
  | some host =>
      match s.doc.objects.lookup name with
      | none => .ok { s with doc := s.doc.addObject (generateHost host), added := s.added + 1 }
      | some span => do
          let onDisk ← s.doc.hostAt span
          if onDisk.any fun onDisk => sameHost onDisk host then return s
          else return { s with doc := s.doc.replaceObject name (generateHost host), changed := s.changed + 1 }

/-- The loop over the objects that are not wanted. -/
def Applied.drop (s : Applied) (name : CStr) : Applied :=
  if (s.doc.objects.lookup name).isSome then
    { s with doc := s.doc.deleteObject name, removed := s.removed + 1 }
  else s

/-- The names that are to go, sorted. -/
def doomed (hosts : List Host) (d : Document) : List CStr :=
  ((d.objects.map Prod.fst).filter fun name => (wantedHost hosts name).isNone).mergeSort fun a b => a ≤ b

/-- `Apply`. -/
def Document.apply (d : Document) (hosts : List Host) : Except Failure Applied := do
  let s ← (wantedNames hosts).foldlM (Applied.want hosts) ⟨d, 0, 0, 0⟩
  return (doomed hosts s.doc).foldl Applied.drop s

/-- `Dirty`. -/
def Document.dirtyFiles (d : Document) : List CStr := d.order.filter d.dirty

/-- `Save`, of which every write succeeds. -/
def Document.save (d : Document) (disk : Files) : Files := fun p => if p ∈ d.dirtyFiles then d.files p else disk p

/-! ### Loading -/

/-- What every file that is read preserves holds of what is loaded. -/
theorem Document.load_induction {P : Document → Prop} {disk : Files}
    (hread : ∀ d path content, P d → d.files path = none → disk path = some content → P (d.read path content)) :
    ∀ levels path d, P d → P (Document.load disk levels path d) := by
  intro levels
  induction levels with
  | zero => exact fun path d hd => hd
  | succ levels ih =>
      intro path d hd
      rw [Document.load]
      split
      · exact hd
      · cases hdisk : disk path with
        | none => exact hd
        | some content =>
            have hfold : ∀ (incs : List CStr) (d : Document), P d →
                P (incs.foldl (fun d inc => Document.load disk levels (includePath path inc) d) d) := by
              intro incs
              induction incs with
              | nil => exact fun d hd => hd
              | cons inc incs ihincs => exact fun d hd => ihincs _ (ih (includePath path inc) d hd)
            have hnone : d.files path = none := Option.not_isSome_iff_eq_none.mp (by assumption)
            exact hfold _ _ (hread d path content hd hnone hdisk)

theorem loadDocument_eq {disk : Files} {path : CStr} {d : Document} (h : loadDocument disk path = some d) :
    d = Document.load disk includeLevels path (.empty path) := by
  unfold loadDocument at h
  split at h
  · exact (Option.some.inj h).symm
  · contradiction

/-- A document that was just loaded knows its main file and has changed none. -/
theorem loadDocument_fresh {disk : Files} {path : CStr} {d : Document} (h : loadDocument disk path = some d) :
    d.mainPath = path ∧ d.dirty = fun _ => false := by
  rw [loadDocument_eq h]
  exact Document.load_induction (P := fun d => d.mainPath = path ∧ d.dirty = fun _ => false)
    (fun d _ _ hd _ _ => hd) _ _ _ ⟨rfl, rfl⟩

/-! ### What an edit leaves -/

theorem mem_of_lookup {α : Type} {entries : List (CStr × α)} {name : CStr} {value : α}
    (h : entries.lookup name = some value) : (name, value) ∈ entries := by
  obtain ⟨before, after, rfl, -⟩ := List.lookup_eq_some_iff.mp h
  exact List.mem_append_right _ List.mem_cons_self

theorem mem_indexFile {path content : CStr} {objects : List (CStr × Span)} {entry : CStr × Span}
    (h : entry ∈ indexFile path content objects) : entry ∈ objects ∨ entry.2.file = path := by
  have hfold : ∀ (found : List (Nat × Nat)) (objects : List (CStr × Span)),
      entry ∈ found.foldl (indexObject path content) objects → entry ∈ objects ∨ entry.2.file = path := by
    intro found
    induction found with
    | nil => exact fun objects h => Or.inl h
    | cons first found ih =>
        intro objects h
        obtain h | h := ih _ h
        · unfold indexObject at h
          dsimp only at h
          split at h
          · exact Or.inl h
          · obtain h | h := List.mem_append.mp h
            · exact Or.inl h
            · exact Or.inr (congrArg (fun entry => entry.2.file) (List.mem_singleton.mp h))
        · exact Or.inr h
  exact hfold _ _ h

/-- What the loop over the wanted hosts can do for a name. -/
theorem Applied.want_cases {hosts : List Host} {s s' : Applied} {name : CStr} (h : s.want hosts name = .ok s') :
    (wantedHost hosts name = none ∧ s' = s) ∨ ∃ host, wantedHost hosts name = some host ∧
      ((s.doc.objects.lookup name = none ∧
          s' = { s with doc := s.doc.addObject (generateHost host), added := s.added + 1 }) ∨
        ∃ span onDisk, s.doc.objects.lookup name = some span ∧ s.doc.hostAt span = .ok onDisk ∧
          ((onDisk.any (sameHost · host) = true ∧ s' = s) ∨
            (onDisk.any (sameHost · host) = false ∧
              s' = { s with doc := s.doc.replaceObject name (generateHost host), changed := s.changed + 1 }))) := by
  unfold Applied.want at h
  cases hhost : wantedHost hosts name with
  | none =>
      rw [hhost] at h
      exact Or.inl ⟨rfl, (Except.ok.inj h).symm⟩
  | some host =>
      rw [hhost] at h
      refine Or.inr ⟨host, rfl, ?_⟩
      cases hlookup : s.doc.objects.lookup name with
      | none =>
          rw [hlookup] at h
          exact Or.inl ⟨rfl, (Except.ok.inj h).symm⟩
      | some span =>
          rw [hlookup] at h
          dsimp only at h
          cases hat : s.doc.hostAt span with
          | error failure =>
              rw [hat] at h
              cases h
          | ok onDisk =>
              rw [hat] at h
              refine Or.inr ⟨span, onDisk, rfl, hat, ?_⟩
              cases hsame : onDisk.any (sameHost · host) with
              | true =>
                  simp only [bind, Except.bind, hsame] at h
                  exact Or.inl ⟨rfl, (Except.ok.inj h).symm⟩
              | false =>
                  simp only [bind, Except.bind, hsame] at h
                  exact Or.inr ⟨rfl, (Except.ok.inj h).symm⟩

/-- The files of one kind, the objects in them and whether they are dirty are what they were before some edits. -/
structure Document.Keeps (safe : CStr → Prop) (d₀ d : Document) : Prop where
  mainPath : d.mainPath = d₀.mainPath
  order : d.order = d₀.order
  files : ∀ path, safe path → d.files path = d₀.files path
  dirty : ∀ path, safe path → d.dirty path = d₀.dirty path
  objects : ∀ entry ∈ d.objects, safe entry.2.file → entry ∈ d₀.objects

section Keeps

variable {safe : CStr → Prop} {d₀ d : Document} {hosts : List Host}

theorem Document.Keeps.refl (d : Document) : d.Keeps safe d := ⟨rfl, rfl, fun _ _ => rfl, fun _ _ => rfl, fun _ h _ => h⟩

theorem Document.Keeps.write (h : d₀.Keeps safe d) {path : CStr} (hpath : ¬safe path) (content : CStr) :
    d₀.Keeps safe (d.write path content) := by
  have hne : ∀ p, safe p → p ≠ path := by
    rintro p hp rfl
    exact hpath hp
  refine ⟨h.mainPath, h.order, fun p hp => ?_, fun p hp => ?_, fun entry hentry hp => ?_⟩
  · rw [← h.files p hp]
    exact if_neg (hne p hp)
  · rw [← h.dirty p hp]
    simp [Document.write, hne p hp]
  · obtain hentry | hfile := mem_indexFile hentry
    · exact h.objects entry (List.mem_filter.mp hentry).1 hp
    · exact absurd hfile (hne _ hp)

theorem Document.Keeps.hostAt (h : d₀.Keeps safe d) {span : Span} (hspan : safe span.file) :
    d.hostAt span = d₀.hostAt span := by
  unfold Document.hostAt Document.content
  rw [h.files _ hspan]

/-- Every object of a safe file is wanted as it stands there. -/
def Document.WantedAsIs (safe : CStr → Prop) (d : Document) (hosts : List Host) : Prop :=
  ∀ entry ∈ d.objects, safe entry.2.file → ∃ host onDisk, wantedHost hosts entry.1 = some host ∧
    d.hostAt entry.2 = .ok (some onDisk) ∧ sameHost onDisk host = true

theorem Document.Keeps.want (hwanted : d₀.WantedAsIs safe hosts) (hmain : ¬safe d₀.mainPath) {s s' : Applied} {name : CStr}
    (h : d₀.Keeps safe s.doc) (hstep : s.want hosts name = .ok s') : d₀.Keeps safe s'.doc := by
  obtain ⟨-, rfl⟩ | ⟨host, hhost, ⟨-, rfl⟩ | ⟨span, onDisk, hlookup, hat, ⟨-, rfl⟩ | ⟨hdiffers, rfl⟩⟩⟩ :=
    Applied.want_cases hstep
  · exact h
  · exact h.write (h.mainPath ▸ hmain) _
  · exact h
  · have hescapes : ¬safe span.file := by
      intro hsafe
      obtain ⟨other, found, hother, hfound, hsame⟩ := hwanted _ (h.objects _ (mem_of_lookup hlookup) hsafe) hsafe
      obtain rfl := Option.some.inj (hother.symm.trans hhost)
      rw [h.hostAt hsafe, hfound] at hat
      obtain rfl := Except.ok.inj hat
      exact absurd (hsame.symm.trans hdiffers) (by decide)
    dsimp only
    unfold Document.replaceObject
    rw [hlookup]
    exact h.write hescapes _

theorem Document.Keeps.drop {s : Applied} {name : CStr} (h : d₀.Keeps safe s.doc)
    (hname : ∀ span, s.doc.objects.lookup name = some span → ¬safe span.file) : d₀.Keeps safe (s.drop name).doc := by
  unfold Applied.drop
  cases hlookup : s.doc.objects.lookup name with
  | none => exact h
  | some span =>
      rw [Option.isSome_some, if_pos rfl]
      unfold Document.deleteObject
      rw [hlookup]
      exact h.write (hname span hlookup) _

theorem Document.Keeps.apply (hwanted : d₀.WantedAsIs safe hosts) (hmain : ¬safe d₀.mainPath) {s : Applied}
    (h : d₀.apply hosts = .ok s) : d₀.Keeps safe s.doc := by
  have hwant : ∀ (names : List CStr) (s s' : Applied), d₀.Keeps safe s.doc →
      names.foldlM (Applied.want hosts) s = .ok s' → d₀.Keeps safe s'.doc := by
    intro names
    induction names with
    | nil => exact fun s s' hs h => Except.ok.inj h ▸ hs
    | cons name names ih =>
        intro s s' hs h
        rw [List.foldlM_cons] at h
        cases hstep : s.want hosts name with
        | error failure =>
            rw [hstep] at h
            cases h
        | ok next =>
            rw [hstep] at h
            exact ih next s' (hs.want hwanted hmain hstep) h
  have hdrop : ∀ (names : List CStr) (s : Applied), (∀ name ∈ names, wantedHost hosts name = none) →
      d₀.Keeps safe s.doc → d₀.Keeps safe (names.foldl Applied.drop s).doc := by
    intro names
    induction names with
    | nil => exact fun s _ hs => hs
    | cons name names ih =>
        intro s hnames hs
        refine ih _ (fun other hother => hnames other (List.mem_cons_of_mem _ hother)) (hs.drop fun span hlookup hsafe => ?_)
        obtain ⟨host, -, hhost, -⟩ := hwanted _ (hs.objects _ (mem_of_lookup hlookup) hsafe) hsafe
        exact absurd ((hnames name List.mem_cons_self).symm.trans hhost) (by simp)
  unfold Document.apply at h
  cases hnames : (wantedNames hosts).foldlM (Applied.want hosts) ⟨d₀, 0, 0, 0⟩ with
  | error failure =>
      rw [hnames] at h
      cases h
  | ok wanted =>
      rw [hnames] at h
      rw [← Except.ok.inj h]
      refine hdrop _ _ (fun name hname => ?_) (hwant _ _ _ (Document.Keeps.refl d₀) hnames)
      have hmem := List.mem_mergeSort.mp hname
      exact Option.isNone_iff_eq_none.mp (List.mem_filter.mp hmem).2

/-- A file that is safe and was not dirty is saved as it was, which is not at all. -/
theorem Document.Keeps.save (h : d₀.Keeps safe d) {path : CStr} (hpath : safe path) (hdirty : d₀.dirty path = false)
    (disk : Files) : d.save disk path = disk path := by
  have hnot : path ∉ d.dirtyFiles := by
    intro hmem
    have := (List.mem_filter.mp hmem).2
    rw [h.dirty path hpath, hdirty] at this
    contradiction
  exact if_neg hnot

end Keeps

/-! ### Edits that change nothing -/

/-- The hosts say what the document says: each is an object of it, and each object of it is one of them, as it
stands. -/
structure Document.SaysSame (d : Document) (hosts : List Host) : Prop where
  known : ∀ name ∈ wantedNames hosts, (d.objects.lookup name).isSome = true
  asIs : ∀ name span, d.objects.lookup name = some span → ∃ host onDisk, wantedHost hosts name = some host ∧
    d.hostAt span = .ok (some onDisk) ∧ sameHost onDisk host = true

section SaysSame

variable {d : Document} {hosts : List Host} {s s' : Applied} {name : CStr}

/-- What is wanted as it stands is left alone. -/
theorem Applied.want_asIs {host onDisk : Host} {span : Span} (hhost : wantedHost hosts name = some host)
    (hlookup : s.doc.objects.lookup name = some span) (hat : s.doc.hostAt span = .ok (some onDisk))
    (hsame : sameHost onDisk host = true) : s.want hosts name = .ok s := by
  unfold Applied.want
  rw [hhost]
  dsimp only
  rw [hlookup]
  dsimp only
  rw [hat]
  simp [bind, Except.bind, hsame, pure, Except.pure]

/-- Where all that is wanted is left alone, only deletions remain. -/
theorem Document.apply_of_wanted (h : ∀ name ∈ wantedNames hosts, Applied.want hosts ⟨d, 0, 0, 0⟩ name = .ok ⟨d, 0, 0, 0⟩) :
    d.apply hosts = .ok ((doomed hosts d).foldl Applied.drop ⟨d, 0, 0, 0⟩) := by
  have hwant : ∀ names : List CStr, (∀ name ∈ names, name ∈ wantedNames hosts) →
      names.foldlM (Applied.want hosts) ⟨d, 0, 0, 0⟩ = .ok ⟨d, 0, 0, 0⟩ := by
    intro names
    induction names with
    | nil => exact fun _ => rfl
    | cons name names ih =>
        intro hnames
        rw [List.foldlM_cons, h name (hnames name List.mem_cons_self)]
        exact ih fun other hother => hnames other (List.mem_cons_of_mem _ hother)
  unfold Document.apply
  rw [hwant _ fun _ hname => hname]
  rfl

theorem Document.SaysSame.want (h : s.doc.SaysSame hosts) (hname : name ∈ wantedNames hosts) : s.want hosts name = .ok s := by
  obtain ⟨span, hlookup⟩ := Option.isSome_iff_exists.mp (h.known name hname)
  obtain ⟨host, onDisk, hhost, hat, hsame⟩ := h.asIs name span hlookup
  exact Applied.want_asIs hhost hlookup hat hsame

theorem Document.SaysSame.doomed (h : d.SaysSame hosts) : doomed hosts d = [] := by
  unfold Config.doomed
  have hnone : (d.objects.map Prod.fst).filter (fun name => (wantedHost hosts name).isNone) = [] := by
    rw [List.filter_eq_nil_iff]
    intro name hname
    obtain ⟨entry, hentry, rfl⟩ := List.mem_map.mp hname
    obtain ⟨span, hlookup⟩ := Option.isSome_iff_exists.mp (List.lookup_isSome_iff.mpr ⟨entry, hentry, beq_self_eq_true _⟩)
    obtain ⟨host, onDisk, hhost, -⟩ := h.asIs entry.1 span hlookup
    rw [hhost]
    exact Bool.false_ne_true
  rw [hnone, List.mergeSort_nil]

/-- Nothing is edited then. -/
theorem Document.SaysSame.apply (h : d.SaysSame hosts) : d.apply hosts = .ok ⟨d, 0, 0, 0⟩ := by
  rw [Document.apply_of_wanted fun name hname => @Document.SaysSame.want hosts ⟨d, 0, 0, 0⟩ name h hname, h.doomed]
  rfl

/-- A document none of whose files is dirty is saved without a trace. -/
theorem Document.save_of_clean (h : d.dirty = fun _ => false) (disk : Files) : d.save disk = disk := by
  funext path
  have hnot : path ∉ d.dirtyFiles := by
    intro hmem
    have := (List.mem_filter.mp hmem).2
    rw [h] at this
    contradiction
  exact if_neg hnot

end SaysSame

end Sysmon.Config
