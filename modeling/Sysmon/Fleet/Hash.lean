import Mathlib.Algebra.Order.Ring.Int
import Mathlib.Data.List.Basic
import Mathlib.Data.List.TakeWhile
import Mathlib.Data.UInt

/-!
# The content hash

What the two ends of the fleet feed to SHA-256: `hash_pair` of `confgen.c` over the files of a
configuration in load order, and `HashFileSet` of `genhash.go` over the same files as two slices.
SHA-256 itself is not looked into. The streams are the same byte for byte, and no two lists of files
give the same one.
-/

namespace Sysmon.Fleet

/-- One configuration file as it travels and is hashed: a name and its bytes. -/
structure GenFile where
  name : List UInt8
  content : List UInt8
  deriving DecidableEq, Repr

/-- What both ends can hold. The name is a C string on the box, so it has no NUL in it, and a length
is a `long` there and an `int` here. -/
structure GenFile.Held (f : GenFile) : Prop where
  nul : 0 ∉ f.name
  name : f.name.length < 2 ^ 63
  content : f.content.length < 2 ^ 63

abbrev HeldFile := { f : GenFile // f.Held }

/-! ### The daemon's stream -/

/-- The loop of `hash_u64`, from the last byte to the first. -/
def hashU64Loop : Nat → UInt64 → List UInt8 → List UInt8
  | 0, _, n => n
  | i + 1, v, n => hashU64Loop i (v >>> 8) (v.toUInt8 :: n)

def hashU64 (v : UInt64) : List UInt8 := hashU64Loop 8 v []

/-- A C string: what stands before the first NUL. -/
def cString (bytes : List UInt8) : List UInt8 := bytes.takeWhile (· ≠ 0)

def hashPair (name data : List UInt8) : List UInt8 :=
  hashU64 (UInt64.ofNat (cString name).length) ++ cString name ++
    (hashU64 (UInt64.ofNat data.length) ++ data)

/-- `confgen_hash_files`, and `confgen_hash` over what is loaded. -/
def confgenHashFiles (files : List GenFile) : List UInt8 :=
  files.flatMap fun f => hashPair f.name f.content

/-! ### The server's stream -/

/-- `binary.BigEndian.PutUint64`. -/
def putUint64 (v : UInt64) : List UInt8 :=
  [(v >>> 56).toUInt8, (v >>> 48).toUInt8, (v >>> 40).toUInt8, (v >>> 32).toUInt8,
    (v >>> 24).toUInt8, (v >>> 16).toUInt8, (v >>> 8).toUInt8, v.toUInt8]

/-- `HashFileSet`. A name without a content is hashed with an empty one. -/
def hashFileSet (names contents : List (List UInt8)) : List UInt8 :=
  names.zipIdx.flatMap fun (p, i) =>
    let body := contents.getD i []
    putUint64 (UInt64.ofNat p.length) ++ p ++ (putUint64 (UInt64.ofNat body.length) ++ body)

/-- `HashFileSet` as its callers use it. -/
def hashOfFiles (files : List GenFile) : List UInt8 :=
  hashFileSet (files.map GenFile.name) (files.map GenFile.content)

/-! ### The same stream -/

theorem hashU64_eq_putUint64 (v : UInt64) : hashU64 v = putUint64 v := by
  have hshift : ∀ i : UInt64, i.toNat + 8 < 64 → v >>> i >>> 8 = v >>> (i + 8) := by
    intro i hi
    apply UInt64.toNat_inj.mp
    have height : (8 : UInt64).toNat = 8 := rfl
    have hsum : (i + 8).toNat = i.toNat + 8 := by
      rw [UInt64.toNat_add, height]
      omega
    rw [UInt64.toNat_shiftRight, UInt64.toNat_shiftRight, UInt64.toNat_shiftRight, hsum, height,
      Nat.mod_eq_of_lt (by omega), Nat.mod_eq_of_lt (by omega), Nat.mod_eq_of_lt (by omega),
      Nat.shiftRight_add]
  simp only [hashU64, hashU64Loop, putUint64]
  rw [hshift 8 (by decide), hshift (8 + 8) (by decide), hshift (8 + 8 + 8) (by decide),
    hshift (8 + 8 + 8 + 8) (by decide), hshift (8 + 8 + 8 + 8 + 8) (by decide),
    hshift (8 + 8 + 8 + 8 + 8 + 8) (by decide)]
  rfl

theorem cString_of_not_mem {bytes : List UInt8} (h : 0 ∉ bytes) : cString bytes = bytes := by
  rw [cString, List.takeWhile_eq_self_iff]
  intro b hb
  simpa using fun heq : b = 0 => h (heq ▸ hb)

/-- One file's part of the stream. -/
def filePart (f : GenFile) : List UInt8 :=
  putUint64 (UInt64.ofNat f.name.length) ++ f.name ++
    (putUint64 (UInt64.ofNat f.content.length) ++ f.content)

theorem hashPair_eq_filePart {f : GenFile} (h : f.Held) : hashPair f.name f.content = filePart f := by
  rw [hashPair, cString_of_not_mem h.nul, hashU64_eq_putUint64, hashU64_eq_putUint64, filePart]

theorem hashOfFiles_eq_flatMap (files : List GenFile) : hashOfFiles files = files.flatMap filePart := by
  have hfrom : ∀ (earlier files : List GenFile),
      ((files.map GenFile.name).zipIdx earlier.length).flatMap (fun (p, i) =>
        let body := ((earlier ++ files).map GenFile.content).getD i []
        putUint64 (UInt64.ofNat p.length) ++ p ++
          (putUint64 (UInt64.ofNat body.length) ++ body)) = files.flatMap filePart := by
    intro earlier files
    induction files generalizing earlier with
    | nil => rfl
    | cons f files ih =>
        have hlater := ih (earlier ++ [f])
        rw [List.length_append, List.length_singleton, List.append_assoc, List.singleton_append] at hlater
        rw [List.map_cons, List.zipIdx_cons, List.flatMap_cons, hlater, List.flatMap_cons]
        congr 1
        simp [filePart]
  exact hfrom [] files

/-! ### A stream says which files went into it -/

theorem length_putUint64 (v : UInt64) : (putUint64 v).length = 8 := rfl

theorem putUint64_injective : Function.Injective putUint64 := by
  intro v w h
  have hbyte : ∀ s : UInt64, (v >>> s).toUInt8 = (w >>> s).toUInt8 →
      v.toNat / 2 ^ (s.toNat % 64) % 256 = w.toNat / 2 ^ (s.toNat % 64) % 256 := by
    intro s heq
    have hnat := congrArg UInt8.toNat heq
    rwa [UInt64.toNat_toUInt8, UInt64.toNat_toUInt8, UInt64.toNat_shiftRight,
      UInt64.toNat_shiftRight, Nat.shiftRight_eq_div_pow, Nat.shiftRight_eq_div_pow] at hnat
  simp only [putUint64, List.cons.injEq, and_true] at h
  obtain ⟨h7, h6, h5, h4, h3, h2, h1, h0⟩ := h
  have e7 : v.toNat / 72057594037927936 % 256 = w.toNat / 72057594037927936 % 256 := hbyte 56 h7
  have e6 : v.toNat / 281474976710656 % 256 = w.toNat / 281474976710656 % 256 := hbyte 48 h6
  have e5 : v.toNat / 1099511627776 % 256 = w.toNat / 1099511627776 % 256 := hbyte 40 h5
  have e4 : v.toNat / 4294967296 % 256 = w.toNat / 4294967296 % 256 := hbyte 32 h4
  have e3 : v.toNat / 16777216 % 256 = w.toNat / 16777216 % 256 := hbyte 24 h3
  have e2 : v.toNat / 65536 % 256 = w.toNat / 65536 % 256 := hbyte 16 h2
  have e1 : v.toNat / 256 % 256 = w.toNat / 256 % 256 := hbyte 8 h1
  have e0 : v.toNat % 256 = w.toNat % 256 := congrArg UInt8.toNat h0
  have hv := v.toNat_lt
  have hw := w.toNat_lt
  apply UInt64.toNat_inj.mp
  omega

/-- A length, the bytes it counts, and the rest: the length says where the rest begins. -/
theorem prefixed_inj {a b left right : List UInt8} (ha : a.length < 2 ^ 63) (hb : b.length < 2 ^ 63)
    (h : putUint64 (UInt64.ofNat a.length) ++ (a ++ left) =
      putUint64 (UInt64.ofNat b.length) ++ (b ++ right)) : a = b ∧ left = right := by
  obtain ⟨hlength, hrest⟩ := List.append_inj h ((length_putUint64 _).trans (length_putUint64 _).symm)
  have hsame : a.length = b.length := by
    have hnat := congrArg UInt64.toNat (putUint64_injective hlength)
    rw [UInt64.toNat_ofNat', UInt64.toNat_ofNat'] at hnat
    omega
  exact List.append_inj hrest hsame

theorem filePart_append (f : GenFile) (rest : List UInt8) :
    filePart f ++ rest = putUint64 (UInt64.ofNat f.name.length) ++
      (f.name ++ (putUint64 (UInt64.ofNat f.content.length) ++ (f.content ++ rest))) := by
  simp only [filePart, List.append_assoc]

theorem filePart_ne_nil (f : GenFile) (rest : List UInt8) : filePart f ++ rest ≠ [] := by
  intro heq
  have hlen := congrArg List.length heq
  rw [filePart_append, List.length_append, length_putUint64] at hlen
  exact absurd hlen (by simp)

theorem flatMap_filePart_inj {left right : List GenFile} (hleft : ∀ f ∈ left, f.Held)
    (hright : ∀ f ∈ right, f.Held) (h : left.flatMap filePart = right.flatMap filePart) :
    left = right := by
  induction left generalizing right with
  | nil =>
      cases right with
      | nil => rfl
      | cons f right => exact absurd h.symm (filePart_ne_nil f _)
  | cons f left ih =>
      cases right with
      | nil => exact absurd h (filePart_ne_nil f _)
      | cons g right =>
          have hf := hleft f List.mem_cons_self
          have hg := hright g List.mem_cons_self
          rw [List.flatMap_cons, List.flatMap_cons, filePart_append, filePart_append] at h
          obtain ⟨hname, h⟩ := prefixed_inj hf.name hg.name h
          obtain ⟨hcontent, h⟩ := prefixed_inj hf.content hg.content h
          have hrest := ih (fun f hmem => hleft f (List.mem_cons_of_mem _ hmem))
            (fun f hmem => hright f (List.mem_cons_of_mem _ hmem)) h
          have hfile : f = g := by
            cases f
            cases g
            simp only at hname hcontent
            rw [hname, hcontent]
          rw [hfile, hrest]

/-- Both ends hash the same bytes for the same files, and different bytes for different files. -/
theorem stream_identifies :
    (∀ files : List HeldFile, confgenHashFiles (files.map Subtype.val) =
        hashOfFiles (files.map Subtype.val)) ∧
      Function.Injective fun files : List HeldFile => hashOfFiles (files.map Subtype.val) := by
  have hheld : ∀ files : List HeldFile, ∀ f ∈ files.map Subtype.val, f.Held := by
    intro files f hmem
    obtain ⟨held, -, rfl⟩ := List.mem_map.mp hmem
    exact held.property
  refine ⟨fun files => ?_, fun left right heq => ?_⟩
  · rw [hashOfFiles_eq_flatMap, confgenHashFiles, List.flatMap_congr fun f hmem =>
      hashPair_eq_filePart (hheld files f hmem)]
  · simp only [hashOfFiles_eq_flatMap] at heq
    exact Subtype.val_injective.list_map (flatMap_filePart_inj (hheld left) (hheld right) heq)

end Sysmon.Fleet
