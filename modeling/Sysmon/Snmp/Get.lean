import Mathlib.Algebra.Order.Ring.Int
import Mathlib.Data.List.Basic
import Mathlib.Data.UInt
import Sysmon.Lib.Ber
import Sysmon.Lib.CText
import Sysmon.Snmp.Ber

/-!
# Building a GET

`snmp_build_get` of `snmp.c` and the writer under it. The writer puts bytes into a buffer of fixed
size and remembers when one did not fit. A constructed element is opened with three bytes kept free
for its length, which `bw_close` fills in, moving the contents back where one byte is enough. What a
finished message is made of follows from one rule for opening and closing, whatever is written
between.
-/

namespace Sysmon.Snmp

/-! ### The writer -/

/-- `struct ber_writer`. `bytes` is the buffer up to `len`. -/
structure BerWriter where
  cap : Nat
  bytes : List UInt8
  overflow : Bool
  deriving DecidableEq, Repr

def bwInit (cap : Nat) : BerWriter := { cap, bytes := [], overflow := false }

def bwByte (w : BerWriter) (b : UInt8) : BerWriter :=
  if w.cap ≤ w.bytes.length then { w with overflow := true }
  else { w with bytes := w.bytes ++ [b] }

def bwBytes (w : BerWriter) (bs : List UInt8) : BerWriter := bs.foldl bwByte w

def bwOpen (w : BerWriter) (tag : UInt8) : BerWriter × Nat :=
  let w := bwBytes w [tag, 0, 0, 0]
  (w, w.bytes.length)

def bwClose (w : BerWriter) (start : Nat) : BerWriter :=
  if w.overflow ∨ w.bytes.length < start then w
  else
    let content := w.bytes.length - start
    if content < 128 then
      -- one length byte is enough: the contents move back over the other two
      let buf := w.bytes.set (start - 3) (UInt8.ofNat content)
      { w with bytes := buf.take (start - 2) ++ buf.drop start }
    else if content < 0x10000 then
      { w with bytes := ((w.bytes.set (start - 3) 0x82).set (start - 2)
          (UInt8.ofNat (content / 256))).set (start - 1) (UInt8.ofNat content) }
    else { w with overflow := true }

/-- The bytes of a `long`, the highest first. -/
def longBytes (uv : UInt64) : List UInt8 :=
  (List.range 8).map fun i => (uv >>> UInt64.ofNat ((7 - i) * 8)).toUInt8

/-- The loop of `bw_int` that passes over bytes which only repeat the sign. -/
def dropSign : List UInt8 → List UInt8
  | a :: b :: rest =>
      if a = 0x00 ∧ b &&& 0x80 = 0 then dropSign (b :: rest)
      else if a = 0xff ∧ b &&& 0x80 ≠ 0 then dropSign (b :: rest)
      else a :: b :: rest
  | tmp => tmp

def intBytes (v : Int64) : List UInt8 := dropSign (longBytes v.toUInt64)

def bwInt (w : BerWriter) (tag : UInt8) (v : Int64) : BerWriter :=
  let (w, start) := bwOpen w tag
  bwClose (bwBytes w (intBytes v)) start

def bwString (w : BerWriter) (tag : UInt8) (s : List UInt8) : BerWriter :=
  let (w, start) := bwOpen w tag
  bwClose (bwBytes w s) start

def bwNull (w : BerWriter) : BerWriter :=
  let (w, start) := bwOpen w 0x05
  bwClose w start

/-! ### Object identifiers -/

/-- The loop of `bw_oid` over the text, with the places of `subs` that are left. When they are used
up the rest of the text is not looked at. -/
def oidSubs : Nat → List Char → Option (List UInt64)
  | 0, _ => some []
  | _ + 1, [] => some []
  | n + 1, c :: text =>
      if c.isDigit then
        let sub := CText.strtoul (c :: text)
        match (c :: text).dropWhile Char.isDigit with
        | [] => some [sub]
        | '.' :: rest => (oidSubs n rest).map (sub :: ·)
        | _ => none
      else none

/-- The seven-bit digits of a sub-identifier, the lowest first, at most as many as `tmp` holds. -/
def subDigits : Nat → UInt64 → List UInt8
  | 0, _ => []
  | k + 1, v => (v &&& 0x7f).toUInt8 :: if (0 : UInt64) < v >>> 7 then subDigits k (v >>> 7) else []

def subBytes (v : UInt64) : List UInt8 := Ber.base128Bytes (subDigits 10 v)

/-- One leading dot is passed over. -/
def afterDot : List Char → List Char
  | '.' :: rest => rest
  | text => text

def oidMaxSubids : Nat := 128

/-- What `bw_oid` takes for the two sub-identifiers of the first byte and those after them. -/
def oidParts (dotted : List Char) : Option (UInt64 × UInt64 × List UInt64) :=
  match oidSubs oidMaxSubids (afterDot dotted) with
  | some (a :: b :: subs) => if 6 < a ∨ 39 < b then none else some (a, b, subs)
  | _ => none

def bwOid (w : BerWriter) (dotted : List Char) : Option BerWriter :=
  (oidParts dotted).map fun (a, b, subs) =>
    let (w, start) := bwOpen w 0x06
    let w := bwByte w (a * 40 + b).toUInt8
    bwClose (subs.foldl (fun w v => bwBytes w (subBytes v)) w) start

/-! ### The request -/

/-- `snmp_build_get`: the bytes of the packet, or nothing where the C function gives -1. -/
def snmpBuildGet (outlen : Nat) (version : Int32) (community : List UInt8) (reqid : UInt64)
    (oid : List Char) : Option (List UInt8) :=
  if version ≠ 0 ∧ version ≠ 1 then none
  else
    let w := bwInit outlen
    let (w, msg) := bwOpen w 0x30
    let w := bwInt w 0x02 version.toInt64
    let w := bwString w 0x04 community
    let (w, pdu) := bwOpen w 0xa0
    let w := bwInt w 0x02 (reqid &&& 0x7fffffff).toInt64
    let w := bwInt w 0x02 0
    let w := bwInt w 0x02 0
    let (w, vblist) := bwOpen w 0x30
    let (w, vb) := bwOpen w 0x30
    (bwOid w oid).bind fun w =>
      let w := bwNull w
      let w := bwClose w vb
      let w := bwClose w vblist
      let w := bwClose w pdu
      let w := bwClose w msg
      if w.overflow then none else some w.bytes

/-! ### What the writer writes -/

/-- From `w` to `w'` the bytes `c` were written, unless the writer overflowed. -/
structure Writes (w w' : BerWriter) (c : List UInt8) : Prop where
  cap : w'.cap = w.cap
  fits : w.bytes.length ≤ w.cap → w'.bytes.length ≤ w'.cap
  bytes : w'.overflow = false → w.overflow = false ∧ w'.bytes = w.bytes ++ c

theorem Writes.refl (w : BerWriter) : Writes w w [] :=
  ⟨rfl, id, fun h => ⟨h, (List.append_nil _).symm⟩⟩

theorem Writes.trans {w w' w'' : BerWriter} {c d : List UInt8} (h : Writes w w' c)
    (h' : Writes w' w'' d) : Writes w w'' (c ++ d) where
  cap := h'.cap.trans h.cap
  fits hw := h'.fits (h.fits hw)
  bytes hok := by
    obtain ⟨hok', hbytes'⟩ := h'.bytes hok
    obtain ⟨hok, hbytes⟩ := h.bytes hok'
    exact ⟨hok, by rw [hbytes', hbytes, List.append_assoc]⟩

theorem writes_bwByte (w : BerWriter) (b : UInt8) : Writes w (bwByte w b) [b] := by
  rw [bwByte]
  split
  · exact ⟨rfl, id, fun h => nomatch h⟩
  · rename_i hroom
    refine ⟨rfl, fun _ => ?_, fun h => ⟨h, rfl⟩⟩
    simp only [List.length_append, List.length_singleton]
    omega

theorem writes_bwBytes (w : BerWriter) (bs : List UInt8) : Writes w (bwBytes w bs) bs := by
  induction bs generalizing w with
  | nil => exact Writes.refl w
  | cons b bs ih => exact (writes_bwByte w b).trans (ih (bwByte w b))

/-- The length is put in front of the contents, whatever is in the three bytes that were kept free for it. -/
theorem bwClose_of_reserved {w : BerWriter} {pre c : List UInt8} {x y z : UInt8} (hok : w.overflow = false)
    (hbytes : w.bytes = pre ++ x :: y :: z :: c) :
    bwClose w (pre.length + 3) =
      if c.length < 0x10000 then { w with bytes := pre ++ Ber.lengthBytes c.length ++ c }
      else { w with overflow := true } := by
  have hlen : w.bytes.length = pre.length + 3 + c.length := by
    rw [hbytes, List.length_append]
    simp only [List.length_cons]
    omega
  have hguard : ¬(w.overflow = true ∨ w.bytes.length < pre.length + 3) := by
    simp only [hok, Bool.false_eq_true, false_or]
    omega
  rw [bwClose, if_neg hguard]
  dsimp only
  rw [hlen, Nat.add_sub_cancel_left, hbytes]
  by_cases hshort : c.length < 128
  · rw [if_pos hshort, if_pos (by omega), Ber.lengthBytes_short hshort]
    have hset : (pre ++ x :: y :: z :: c).set (pre.length + 3 - 3) (UInt8.ofNat c.length) =
        pre ++ UInt8.ofNat c.length :: y :: z :: c := by
      rw [List.set_append_right _ _ (by omega), show pre.length + 3 - 3 - pre.length = 0 by omega]
      rfl
    have htake : (pre ++ UInt8.ofNat c.length :: y :: z :: c).take (pre.length + 3 - 2) =
        pre ++ [UInt8.ofNat c.length] := by
      rw [show pre.length + 3 - 2 = pre.length + 1 by omega, List.take_length_add_append]
      rfl
    have hdrop : (pre ++ UInt8.ofNat c.length :: y :: z :: c).drop (pre.length + 3) = c := by
      rw [List.drop_length_add_append]
      rfl
    rw [hset, htake, hdrop]
  · by_cases hlong : c.length < 0x10000
    · rw [if_neg hshort, if_pos hlong, if_pos hlong, Ber.lengthBytes_long hshort]
      rw [List.set_append_right _ _ (by omega), List.set_append_right _ _ (by omega),
        List.set_append_right _ _ (by omega), show pre.length + 3 - 3 - pre.length = 0 by omega,
        show pre.length + 3 - 2 - pre.length = 1 by omega,
        show pre.length + 3 - 1 - pre.length = 2 by omega, List.append_assoc]
      rfl
    · rw [if_neg hshort, if_neg hlong, if_neg hlong]

/-- The length is put in front of what was written since the element was opened. -/
theorem bwClose_of_bytes {w : BerWriter} {pre c : List UInt8} {tag : UInt8}
    (hok : w.overflow = false) (hbytes : w.bytes = pre ++ (tag :: 0 :: 0 :: 0 :: c)) :
    bwClose w (pre.length + 4) =
      if c.length < 0x10000 then { w with bytes := pre ++ Ber.tlv tag c }
      else { w with overflow := true } := by
  have hreserved : w.bytes = pre ++ [tag] ++ 0 :: 0 :: 0 :: c := by
    rw [hbytes, List.append_assoc]
    rfl
  have hclose := bwClose_of_reserved hok hreserved
  rw [List.length_append, List.length_singleton, List.append_assoc, List.append_assoc] at hclose
  exact hclose

theorem bwClose_cap (w : BerWriter) (start : Nat) : (bwClose w start).cap = w.cap := by
  simp only [bwClose, apply_ite BerWriter.cap, ite_self]

theorem bwClose_length_le (w : BerWriter) (start : Nat) :
    (bwClose w start).bytes.length ≤ w.bytes.length := by
  rw [bwClose]
  dsimp only
  split
  · exact le_rfl
  split
  · simp only [List.length_append, List.length_take, List.length_drop, List.length_set]
    omega
  split
  · simp only [List.length_set, le_refl]
  · exact le_rfl

theorem bwClose_of_overflow {w : BerWriter} (h : w.overflow = true) (start : Nat) :
    bwClose w start = w := by
  rw [bwClose, if_pos (Or.inl h)]

section enclosed

variable {w w' : BerWriter} {tag : UInt8} {c : List UInt8}

/-- What closing an element leaves, when the writer has not overflowed. -/
theorem bwClose_ok (h : Writes (bwOpen w tag).1 w' c)
    (hok : (bwClose w' (bwOpen w tag).2).overflow = false) :
    w.overflow = false ∧ c.length < 0x10000 ∧
      (bwClose w' (bwOpen w tag).2).bytes = w.bytes ++ Ber.tlv tag c := by
  have hopen : Writes w (bwOpen w tag).1 [tag, 0, 0, 0] := writes_bwBytes w _
  have hok' : w'.overflow = false := by
    by_contra hne
    rw [Bool.not_eq_false] at hne
    rw [bwClose_of_overflow hne, hne] at hok
    exact nomatch hok
  obtain ⟨hopened, -⟩ := h.bytes hok'
  have hstart : (bwOpen w tag).2 = w.bytes.length + 4 := by
    change (bwOpen w tag).1.bytes.length = _
    rw [(hopen.bytes hopened).2, List.length_append]
    rfl
  obtain ⟨hw, hbytes⟩ := (hopen.trans h).bytes hok'
  rw [hstart, bwClose_of_bytes hok' hbytes] at hok ⊢
  split at hok
  · rename_i hlen
    rw [if_pos hlen]
    exact ⟨hw, hlen, rfl⟩
  · exact nomatch hok

/-- Opened, written between and closed: one element around what was written. -/
theorem Writes.enclosed (h : Writes (bwOpen w tag).1 w' c) :
    Writes w (bwClose w' (bwOpen w tag).2) (Ber.tlv tag c) := by
  have hboth : Writes w w' ([tag, 0, 0, 0] ++ c) := (writes_bwBytes w _).trans h
  refine ⟨(bwClose_cap _ _).trans hboth.cap, fun hw => ?_, fun hok => ?_⟩
  · rw [bwClose_cap]
    exact (bwClose_length_le _ _).trans (hboth.fits hw)
  · obtain ⟨hw, -, hbytes⟩ := bwClose_ok h hok
    exact ⟨hw, hbytes⟩

end enclosed

theorem writes_bwInt (w : BerWriter) (tag : UInt8) (v : Int64) :
    Writes w (bwInt w tag v) (Ber.tlv tag (intBytes v)) := by
  have h := writes_bwBytes (bwOpen w tag).1 (intBytes v)
  exact h.enclosed

theorem writes_bwString (w : BerWriter) (tag : UInt8) (s : List UInt8) :
    Writes w (bwString w tag s) (Ber.tlv tag s) := by
  have h := writes_bwBytes (bwOpen w tag).1 s
  exact h.enclosed

theorem writes_bwNull (w : BerWriter) : Writes w (bwNull w) (Ber.tlv 0x05 []) := by
  have h := Writes.refl (bwOpen w 0x05).1
  exact h.enclosed

/-- The contents of the object identifier that `bw_oid` writes. -/
def oidBytes (a b : UInt64) (subs : List UInt64) : List UInt8 :=
  (a * 40 + b).toUInt8 :: subs.flatMap subBytes

theorem writes_subs (w : BerWriter) (subs : List UInt64) :
    Writes w (subs.foldl (fun w v => bwBytes w (subBytes v)) w) (subs.flatMap subBytes) := by
  induction subs generalizing w with
  | nil => exact Writes.refl w
  | cons v subs ih => exact (writes_bwBytes w (subBytes v)).trans (ih _)

theorem writes_bwOid {w w' : BerWriter} {dotted : List Char} (h : bwOid w dotted = some w') :
    ∃ a b subs, oidParts dotted = some (a, b, subs) ∧
      Writes w w' (Ber.tlv 0x06 (oidBytes a b subs)) := by
  obtain ⟨⟨a, b, subs⟩, hparts, rfl⟩ := Option.map_eq_some_iff.mp h
  have h := (writes_bwByte (bwOpen w 0x06).1 (a * 40 + b).toUInt8).trans (writes_subs _ subs)
  exact ⟨a, b, subs, hparts, h.enclosed⟩

/-! ### The message as a whole -/

def getVarbind (oid : List UInt8) : List UInt8 := Ber.tlv 0x06 oid ++ Ber.tlv 0x05 []

def getPdu (reqid : Int64) (oid : List UInt8) : List UInt8 :=
  Ber.tlv 0x02 (intBytes reqid) ++ (Ber.tlv 0x02 (intBytes 0) ++ (Ber.tlv 0x02 (intBytes 0) ++
    Ber.tlv 0x30 (Ber.tlv 0x30 (getVarbind oid))))

def getBody (version : Int64) (community : List UInt8) (reqid : Int64) (oid : List UInt8) :
    List UInt8 :=
  Ber.tlv 0x02 (intBytes version) ++ (Ber.tlv 0x04 community ++ Ber.tlv 0xa0 (getPdu reqid oid))

/-- The request-id that goes out: 31 bits. -/
def wireId (reqid : UInt64) : Int64 := (reqid &&& 0x7fffffff).toInt64

/-- A packet that was built is the whole message, and it is in the buffer. -/
theorem snmpBuildGet_eq_some {outlen : Nat} {version : Int32} {community : List UInt8}
    {reqid : UInt64} {oid : List Char} {bytes : List UInt8}
    (h : snmpBuildGet outlen version community reqid oid = some bytes) :
    ∃ a b subs, oidParts oid = some (a, b, subs) ∧
      (getBody version.toInt64 community (wireId reqid) (oidBytes a b subs)).length < 0x10000 ∧
      bytes = Ber.tlv 0x30 (getBody version.toInt64 community (wireId reqid) (oidBytes a b subs)) ∧
      bytes.length ≤ outlen := by
  rw [snmpBuildGet] at h
  split at h
  · exact nomatch h
  dsimp only at h
  -- the writers the four elements are opened on get names, so that each rule is used at its own
  generalize hmsg : bwOpen (bwInit outlen) 0x30 = msg at h
  generalize hpdu : bwOpen (bwString (bwInt msg.1 0x02 version.toInt64) 0x04 community) 0xa0 =
    pdu at h
  generalize hlist : bwOpen (bwInt (bwInt (bwInt pdu.1 0x02 (reqid &&& 0x7fffffff).toInt64) 0x02 0)
    0x02 0) 0x30 = list at h
  generalize hvb : bwOpen list.1 0x30 = vb at h
  obtain ⟨w, hoid, hw⟩ := Option.bind_eq_some_iff.mp h
  obtain ⟨a, b, subs, hparts, hwrites⟩ := writes_bwOid hoid
  have hin := hwrites.trans (writes_bwNull w)
  rw [← hvb] at hin hw
  have hvarbind := hin.enclosed
  rw [← hlist] at hvarbind hw
  have hvarbinds := (writes_bwInt pdu.1 0x02 (wireId reqid)).trans
    ((writes_bwInt _ 0x02 0).trans ((writes_bwInt _ 0x02 0).trans hvarbind.enclosed))
  rw [← hpdu] at hvarbinds hw
  have hbody := (writes_bwInt msg.1 0x02 version.toInt64).trans
    ((writes_bwString _ 0x04 community).trans hvarbinds.enclosed)
  rw [← hmsg] at hbody hw
  split at hw
  · exact nomatch hw
  · rename_i hok
    rw [Bool.not_eq_true] at hok
    obtain ⟨-, hlen, hbytes⟩ := bwClose_ok hbody hok
    have hfits := hbody.enclosed.fits (Nat.zero_le _)
    rw [hbody.enclosed.cap] at hfits
    obtain rfl := Option.some.inj hw
    exact ⟨a, b, subs, hparts, hlen, hbytes, hfits⟩

/-! ### Integers read back -/

theorem dropSign_length (tmp : List UInt8) : (dropSign tmp).length ≤ tmp.length := by
  fun_induction dropSign tmp with
  | case1 a b rest _ ih => exact ih.trans (Nat.le_succ _)
  | case2 a b rest _ _ ih => exact ih.trans (Nat.le_succ _)
  | case3 a b rest _ _ => exact le_rfl
  | case4 tmp _ => exact le_rfl

theorem dropSign_ne_nil {tmp : List UInt8} (h : tmp ≠ []) : dropSign tmp ≠ [] := by
  fun_induction dropSign tmp with
  | case1 a b rest _ ih => exact ih (List.cons_ne_nil _ _)
  | case2 a b rest _ _ ih => exact ih (List.cons_ne_nil _ _)
  | case3 a b rest _ _ => exact List.cons_ne_nil _ _
  | case4 tmp _ => exact h

/-- A byte that only repeats the sign adds nothing to what the reader accumulates. -/
theorem berAccumulate_dropSign (tmp : List UInt8) :
    berAccumulate (berSign (dropSign tmp)) (dropSign tmp) = berAccumulate (berSign tmp) tmp := by
  fun_induction dropSign tmp with
  | case1 a b rest h ih =>
      rw [ih]
      have hb : berSign (b :: rest) = 0 := if_neg (not_not.mpr h.2)
      have ha : berSign (a :: b :: rest) = 0 := by
        rw [berSign, List.headD_cons, h.1]
        rfl
      rw [ha, hb, h.1]
      rfl
  | case2 a b rest _ h ih =>
      rw [ih]
      have hb : berSign (b :: rest) = ~~~0 := if_pos h.2
      have ha : berSign (a :: b :: rest) = ~~~0 := by
        rw [berSign, List.headD_cons, h.1]
        rfl
      rw [ha, hb, h.1]
      rfl
  | case3 a b rest _ _ => rfl
  | case4 tmp _ => rfl

theorem toUInt8_toNat_shiftRight (uv : UInt64) {k : Nat} (hk : k < 64) :
    ((uv >>> UInt64.ofNat k).toUInt8).toNat = uv.toNat / 2 ^ k % 256 := by
  have hmod : (UInt64.ofNat k).toNat % 64 = k := by
    rw [UInt64.toNat_ofNat']
    omega
  rw [UInt64.toNat_toUInt8, UInt64.toNat_shiftRight, hmod, Nat.shiftRight_eq_div_pow]

/-- One more byte of the number. -/
theorem add_byte (x n k : Nat) :
    (x + n / 2 ^ (k + 8)) * 256 + n / 2 ^ k % 256 = x * 256 + n / 2 ^ k := by
  rw [pow_add, ← Nat.div_div_eq_div_mul]
  omega

/-- Eight bytes are all of the number: what was accumulated before has been shifted out. -/
theorem berAccumulate_longBytes (acc uv : UInt64) : berAccumulate acc (longBytes uv) = uv := by
  have htop : uv.toNat / 2 ^ 56 % 256 = uv.toNat / 2 ^ 56 := by
    have := uv.toNat_lt
    omega
  have hbyte : ∀ i < 8, ((uv >>> UInt64.ofNat ((7 - i) * 8)).toUInt8).toNat =
      uv.toNat / 2 ^ ((7 - i) * 8) % 256 :=
    fun i hi => toUInt8_toNat_shiftRight uv (by omega)
  apply UInt64.toNat_inj.mp
  have hrange : List.range 8 = [0, 1, 2, 3, 4, 5, 6, 7] := rfl
  rw [toNat_berAccumulate, longBytes, hrange]
  simp only [List.map_cons, List.map_nil, List.foldl_cons, List.foldl_nil]
  rw [hbyte 0 (by omega), hbyte 1 (by omega), hbyte 2 (by omega), hbyte 3 (by omega),
    hbyte 4 (by omega), hbyte 5 (by omega), hbyte 6 (by omega), hbyte 7 (by omega), htop,
    add_byte _ _ 48, add_byte _ _ 40, add_byte _ _ 32, add_byte _ _ 24, add_byte _ _ 16,
    add_byte _ _ 8, add_byte _ _ 0, Nat.pow_zero, Nat.div_one]
  have := uv.toNat_lt
  omega

theorem intBytes_length (v : Int64) : (intBytes v).length ≤ 8 := dropSign_length _

theorem snmpBerInt_intBytes (v : Int64) : snmpBerInt (intBytes v) = v := by
  have hne : intBytes v ≠ [] := dropSign_ne_nil (List.cons_ne_nil _ _)
  rw [snmpBerInt_eq hne (intBytes_length v), intBytes, berAccumulate_dropSign,
    berAccumulate_longBytes]
  rfl

/-! ### Object identifiers read back -/

/-- What a dotted text says: decimal numbers with a dot between two of them, and perhaps one more
after the last. -/
inductive Dotted : List Char → List Nat → Prop
  | nil : Dotted [] []
  | last {ds : List Char} (hne : ds ≠ []) (hdigits : ∀ c ∈ ds, c.isDigit = true) :
      Dotted ds [Nat.ofDigitChars 10 ds 0]
  | more {ds rest : List Char} {ns : List Nat} (hne : ds ≠ [])
      (hdigits : ∀ c ∈ ds, c.isDigit = true) (hrest : Dotted rest ns) :
      Dotted (ds ++ '.' :: rest) (Nat.ofDigitChars 10 ds 0 :: ns)

/-- The numbers that the contents of an object identifier stand for. The first byte packs two. -/
def oidNumbers : List UInt8 → List Nat
  | [] => []
  | b :: rest =>
      (if 80 ≤ b.toNat then [2, b.toNat - 80] else [b.toNat / 40, b.toNat % 40]) ++
        Ber.base128 0 rest

theorem toNat_low_digit (v : UInt64) : ((v &&& 0x7f).toUInt8).toNat = v.toNat % 128 := by
  have hmask : (v &&& 0x7f).toNat = v.toNat % 128 := by
    rw [UInt64.toNat_and]
    exact Nat.and_two_pow_sub_one_eq_mod v.toNat 7
  rw [UInt64.toNat_toUInt8, hmask]
  omega

theorem toNat_shiftRight_seven (v : UInt64) : (v >>> 7).toNat = v.toNat / 128 := by
  rw [UInt64.toNat_shiftRight]
  exact Nat.shiftRight_eq_div_pow v.toNat 7

/-- Enough places hold all the digits of a number. -/
theorem subDigits_spec {k : Nat} {v : UInt64} (hv : v.toNat < 128 ^ (k + 1)) :
    ∃ d ds, subDigits (k + 1) v = d :: ds ∧ d.toNat < 128 ∧ (∀ e ∈ ds, e.toNat < 128) ∧
      Nat.ofDigits 128 ((d :: ds).map UInt8.toNat) = v.toNat := by
  have hlow : ((v &&& 0x7f).toUInt8).toNat < 128 := by
    rw [toNat_low_digit]
    omega
  have hpos : (0 : UInt64) < v >>> 7 ↔ 0 < v.toNat / 128 := by
    rw [UInt64.lt_iff_toNat_lt, toNat_shiftRight_seven]
    rfl
  induction k generalizing v with
  | zero =>
      have hstop : ¬(0 : UInt64) < v >>> 7 := by
        rw [hpos]
        omega
      refine ⟨_, [], by rw [subDigits, if_neg hstop], hlow, by simp, ?_⟩
      rw [List.map_singleton, Nat.ofDigits_singleton, toNat_low_digit]
      omega
  | succ k ih =>
      by_cases hmore : (0 : UInt64) < v >>> 7
      · have hrest : (v >>> 7).toNat < 128 ^ (k + 1) := by
          rw [toNat_shiftRight_seven]
          exact Nat.div_lt_of_lt_mul (by rwa [pow_succ'] at hv)
        obtain ⟨d, ds, hdigits, hd, hds, hvalue⟩ := ih hrest (by rw [toNat_low_digit]; omega)
          (by rw [UInt64.lt_iff_toNat_lt, toNat_shiftRight_seven]; rfl)
        refine ⟨_, d :: ds, by rw [subDigits, if_pos hmore, hdigits], hlow, ?_, ?_⟩
        · intro e he
          obtain rfl | he := List.mem_cons.mp he
          · exact hd
          · exact hds e he
        · rw [List.map_cons, Nat.ofDigits_cons, hvalue, toNat_low_digit, toNat_shiftRight_seven]
          omega
      · refine ⟨_, [], by rw [subDigits, if_neg hmore], hlow, by simp, ?_⟩
        rw [hpos] at hmore
        rw [List.map_singleton, Nat.ofDigits_singleton, toNat_low_digit]
        omega

theorem base128_subBytes (v : UInt64) (tail : List UInt8) :
    Ber.base128 0 (subBytes v ++ tail) = v.toNat :: Ber.base128 0 tail := by
  have hv : v.toNat < 128 ^ 10 := v.toNat_lt.trans (by norm_num)
  obtain ⟨d, ds, hdigits, hd, hds, hvalue⟩ := subDigits_spec hv
  rw [subBytes, hdigits, Ber.base128_bytes hd hds, hvalue]

theorem base128_flatMap_subBytes (subs : List UInt64) :
    Ber.base128 0 (subs.flatMap subBytes) = subs.map UInt64.toNat := by
  induction subs with
  | nil => rfl
  | cons v subs ih => rw [List.flatMap_cons, base128_subBytes, ih, List.map_cons]

/-- One number of the text as the loop of `bw_oid` takes it. -/
theorem strtoul_number {ds : List Char} (rest : List Char) (hne : ds ≠ [])
    (hdigits : ∀ c ∈ ds, c.isDigit = true) (hrest : ∀ c ∈ rest.head?, c.isDigit = false) :
    (ds ++ rest).dropWhile Char.isDigit = rest ∧
      (CText.strtoul (ds ++ rest)).toNat = min (Nat.ofDigitChars 10 ds 0) (2 ^ 64 - 1) := by
  have hstop : rest.takeWhile Char.isDigit = [] ∧ rest.dropWhile Char.isDigit = rest := by
    cases rest with
    | nil => exact ⟨rfl, rfl⟩
    | cons c rest => simp [hrest c rfl]
  refine ⟨by rw [List.dropWhile_append_of_pos hdigits, hstop.2], ?_⟩
  obtain ⟨c, cs, rfl⟩ := List.exists_cons_of_ne_nil hne
  rw [List.cons_append, CText.toNat_strtoul_of_isDigit _ (hdigits c List.mem_cons_self),
    CText.digits, ← List.cons_append, List.takeWhile_append_of_pos hdigits, hstop.1,
    List.append_nil]

/-- The sub-identifiers `bw_oid` works with: the first `n` of the text, the largest there is in place
of one that does not fit. -/
theorem oidSubs_of_dotted {text : List Char} {ns : List Nat} (h : Dotted text ns) (n : Nat) :
    ∃ subs, oidSubs n text = some subs ∧
      subs.map UInt64.toNat = (ns.take n).map (min · (2 ^ 64 - 1)) := by
  induction h generalizing n with
  | nil =>
      refine ⟨[], ?_, by simp⟩
      cases n <;> rfl
  | @last ds hne hdigits =>
      cases n with
      | zero => exact ⟨[], rfl, rfl⟩
      | succ n =>
          obtain ⟨hdrop, hvalue⟩ := strtoul_number [] hne hdigits (by simp)
          rw [List.append_nil] at hdrop hvalue
          obtain ⟨c, cs, rfl⟩ := List.exists_cons_of_ne_nil hne
          refine ⟨[CText.strtoul (c :: cs)], ?_, ?_⟩
          · rw [oidSubs, if_pos (hdigits c List.mem_cons_self), hdrop]
          · rw [List.map_singleton, hvalue]
            simp
  | @more ds rest ns hne hdigits hrest ih =>
      cases n with
      | zero => exact ⟨[], rfl, rfl⟩
      | succ n =>
          obtain ⟨subs, hsubs, hvalues⟩ := ih n
          obtain ⟨hdrop, hvalue⟩ := strtoul_number ('.' :: rest) hne hdigits (by simp)
          obtain ⟨c, cs, rfl⟩ := List.exists_cons_of_ne_nil hne
          rw [List.cons_append] at hdrop hvalue ⊢
          refine ⟨CText.strtoul (c :: (cs ++ '.' :: rest)) :: subs, ?_, ?_⟩
          · rw [oidSubs, if_pos (hdigits c List.mem_cons_self), hdrop]
            simp [hsubs]
          · rw [List.map_cons, hvalue, hvalues, List.take_succ_cons, List.map_cons]

/-- The condition on the text for its packet to name it: at most 128 numbers, all of them within an
`unsigned long`, and the first no larger than the first byte can say. -/
def OidFits (dotted : List Char) : Prop :=
  ∃ ns, Dotted (afterDot dotted) ns ∧ ns.length ≤ oidMaxSubids ∧ (∀ n ∈ ns, n < 2 ^ 64) ∧
    ∀ a ∈ ns.head?, a ≤ 2

theorem oidParts_eq_some {dotted : List Char} {a b : UInt64} {subs : List UInt64}
    (h : oidParts dotted = some (a, b, subs)) :
    oidSubs oidMaxSubids (afterDot dotted) = some (a :: b :: subs) ∧ a.toNat ≤ 6 ∧
      b.toNat ≤ 39 := by
  rw [oidParts] at h
  split at h
  · rename_i a' b' subs' hsubs
    split at h
    · exact nomatch h
    · rename_i hle
      obtain ⟨rfl, rfl, rfl⟩ : a' = a ∧ b' = b ∧ subs' = subs := by simpa using h
      rw [not_or, UInt64.not_lt, UInt64.not_lt, UInt64.le_iff_toNat_le,
        UInt64.le_iff_toNat_le] at hle
      exact ⟨hsubs, hle⟩
  · exact nomatch h

theorem oidNumbers_oidBytes {a b : UInt64} (ha : a.toNat ≤ 6) (hb : b.toNat ≤ 39)
    (subs : List UInt64) :
    oidNumbers (oidBytes a b subs) = a.toNat :: b.toNat :: subs.map UInt64.toNat ↔
      a.toNat ≤ 2 := by
  have hbyte : ((a * 40 + b).toUInt8).toNat = (a.toNat * 40 + b.toNat) % 256 := by
    rw [UInt64.toNat_toUInt8, UInt64.toNat_add, UInt64.toNat_mul]
    change (a.toNat * 40 % 2 ^ 64 + b.toNat) % 2 ^ 64 % 256 = _
    omega
  rw [oidBytes, oidNumbers, base128_flatMap_subBytes, hbyte]
  constructor
  · intro h
    split at h
    · rw [List.cons_append, List.cons.injEq] at h
      exact h.1.ge
    · rw [List.cons_append, List.cons.injEq] at h
      omega
  · intro h
    have hsmall : (a.toNat * 40 + b.toNat) % 256 = a.toNat * 40 + b.toNat := by omega
    rw [hsmall] at hbyte ⊢
    split
    · rw [List.cons_append, List.singleton_append, show a.toNat = 2 by omega,
        Nat.add_sub_cancel_left]
    · rw [List.cons_append, List.singleton_append,
        show (a.toNat * 40 + b.toNat) / 40 = a.toNat by omega,
        show (a.toNat * 40 + b.toNat) % 40 = b.toNat by omega]

theorem oidNumbers_oidBytes_shape (a b : UInt64) (subs : List UInt64) :
    ∃ x y, oidNumbers (oidBytes a b subs) = x :: y :: subs.map UInt64.toNat ∧ x < 256 ∧
      y < 256 := by
  have hbyte : ((a * 40 + b).toUInt8).toNat < 256 := UInt8.toNat_lt _
  rw [oidBytes, oidNumbers, base128_flatMap_subBytes]
  split
  · exact ⟨_, _, rfl, by omega, by omega⟩
  · exact ⟨_, _, rfl, by omega, by omega⟩

section parts

variable {dotted : List Char} {a b : UInt64} {subs : List UInt64}
  (h : oidParts dotted = some (a, b, subs))

include h

/-- What `bw_oid` has taken of the numbers of a text. -/
theorem oidParts_of_dotted {ns : List Nat} (hns : Dotted (afterDot dotted) ns) :
    a.toNat :: b.toNat :: subs.map UInt64.toNat =
      (ns.take oidMaxSubids).map (min · (2 ^ 64 - 1)) := by
  obtain ⟨hsubs, -, -⟩ := oidParts_eq_some h
  obtain ⟨subs', hsubs', hvalues⟩ := oidSubs_of_dotted hns oidMaxSubids
  rw [hsubs] at hsubs'
  rw [← hvalues, ← Option.some.inj hsubs', List.map_cons, List.map_cons]

/-- A text that says what is in the packet fits. -/
theorem fits_of_dotted (hdotted : Dotted (afterDot dotted) (oidNumbers (oidBytes a b subs))) :
    (oidNumbers (oidBytes a b subs)).length ≤ oidMaxSubids ∧
      (∀ n ∈ oidNumbers (oidBytes a b subs), n < 2 ^ 64) ∧
      ∀ n ∈ (oidNumbers (oidBytes a b subs)).head?, n ≤ 2 := by
  obtain ⟨-, ha, hb⟩ := oidParts_eq_some h
  obtain ⟨x, y, hnumbers, hx, hy⟩ := oidNumbers_oidBytes_shape a b subs
  have hvalues := oidParts_of_dotted h hdotted
  -- as many numbers were taken as the packet has, so none was left out
  have hlen : (oidNumbers (oidBytes a b subs)).length ≤ oidMaxSubids := by
    have hlengths := congrArg List.length hvalues
    rw [List.length_map, List.length_take, hnumbers] at hlengths
    rw [hnumbers]
    simp only [List.length_cons] at hlengths ⊢
    omega
  rw [List.take_of_length_le hlen, hnumbers, List.map_cons, List.map_cons, List.cons.injEq,
    List.cons.injEq] at hvalues
  obtain ⟨hax, hby, -⟩ := hvalues
  have hsame : oidNumbers (oidBytes a b subs) = a.toNat :: b.toNat :: subs.map UInt64.toNat := by
    rw [hnumbers, hax, hby, Nat.min_eq_left (by omega), Nat.min_eq_left (by omega)]
  refine ⟨hlen, fun n hn => ?_, fun n hn => ?_⟩
  · rw [hsame, List.mem_cons, List.mem_cons, List.mem_map] at hn
    obtain rfl | rfl | ⟨v, -, rfl⟩ := hn
    · exact a.toNat_lt
    · exact b.toNat_lt
    · exact v.toNat_lt
  · rw [hsame, List.head?_cons, Option.mem_some_iff] at hn
    rw [← hn]
    exact (oidNumbers_oidBytes ha hb subs).mp hsame

/-- Of a text that fits nothing is lost. -/
theorem oidParts_of_fits {ns : List Nat} (hns : Dotted (afterDot dotted) ns)
    (hlen : ns.length ≤ oidMaxSubids) (hlt : ∀ n ∈ ns, n < 2 ^ 64) :
    a.toNat :: b.toNat :: subs.map UInt64.toNat = ns := by
  rw [oidParts_of_dotted h hns, List.take_of_length_le hlen]
  refine (List.map_congr_left fun n hn => ?_).trans (List.map_id ns)
  exact Nat.min_eq_left (Nat.le_pred_of_lt (hlt n hn))

theorem oidNumbers_of_fits {ns : List Nat} (hns : Dotted (afterDot dotted) ns)
    (hlen : ns.length ≤ oidMaxSubids) (hlt : ∀ n ∈ ns, n < 2 ^ 64) (hfirst : ∀ n ∈ ns.head?, n ≤ 2) :
    oidNumbers (oidBytes a b subs) = ns := by
  obtain ⟨-, ha, hb⟩ := oidParts_eq_some h
  have hvalues := oidParts_of_fits h hns hlen hlt
  have ha2 : a.toNat ≤ 2 := hfirst a.toNat (by rw [← hvalues]; rfl)
  rw [(oidNumbers_oidBytes ha hb subs).mpr ha2, hvalues]

/-- The object identifier in the packet is the one of the text exactly on the texts that fit. -/
theorem dotted_oidBytes_iff :
    Dotted (afterDot dotted) (oidNumbers (oidBytes a b subs)) ↔ OidFits dotted := by
  constructor
  · exact fun hdotted => ⟨_, hdotted, fits_of_dotted h hdotted⟩
  · rintro ⟨ns, hns, hlen, hlt, hfirst⟩
    rw [oidNumbers_of_fits h hns hlen hlt hfirst]
    exact hns

end parts

/-! ### The packet read back -/

/-- The pieces the reader finds in a packet, from the outside in. -/
structure GetReading where
  body : List UInt8
  version : List UInt8
  pdu : List UInt8
  reqid : List UInt8
  errorStatus : List UInt8
  errorIndex : List UInt8
  varbinds : List UInt8
  varbind : List UInt8
  oid : List UInt8

/-- `snmp_ber_next` finds exactly the elements of a GET, with nothing left over at any level. -/
structure GetReading.Of (r : GetReading) (bytes community : List UInt8) : Prop where
  message : Reads bytes [(0x30, r.body)]
  body : Reads r.body [(0x02, r.version), (0x04, community), (0xa0, r.pdu)]
  pdu : Reads r.pdu
    [(0x02, r.reqid), (0x02, r.errorStatus), (0x02, r.errorIndex), (0x30, r.varbinds)]
  varbinds : Reads r.varbinds [(0x30, r.varbind)]
  varbind : Reads r.varbind [(0x06, r.oid), (0x05, [])]

/-- A packet read back gives the request it was built for. -/
def DecodesBack (bytes : List UInt8) (version : Int64) (community : List UInt8) (reqid : Int64)
    (oid : List Char) : Prop :=
  ∃ r : GetReading, r.Of bytes community ∧ snmpBerInt r.version = version ∧
    snmpBerInt r.reqid = reqid ∧ snmpBerInt r.errorStatus = 0 ∧ snmpBerInt r.errorIndex = 0 ∧
    Dotted (afterDot oid) (oidNumbers r.oid)

def getReading (version : Int64) (community : List UInt8) (reqid : Int64) (oid : List UInt8) :
    GetReading where
  body := getBody version community reqid oid
  version := intBytes version
  pdu := getPdu reqid oid
  reqid := intBytes reqid
  errorStatus := intBytes 0
  errorIndex := intBytes 0
  varbinds := Ber.tlv 0x30 (getVarbind oid)
  varbind := getVarbind oid
  oid := oid

theorem getReading_of {version : Int64} {community : List UInt8} {reqid : Int64} {oid : List UInt8}
    (h : (getBody version community reqid oid).length < 0x10000) :
    (getReading version community reqid oid).Of
      (Ber.tlv 0x30 (getBody version community reqid oid)) community := by
  have hint : ∀ v : Int64, (intBytes v).length < 0x10000 := by
    intro v
    have := intBytes_length v
    omega
  -- what is inside an element is shorter than the element
  have hbody : community.length < 0x10000 ∧ (getPdu reqid oid).length < 0x10000 := by
    have hcommunity := Ber.length_lt_tlv 0x04 community
    have hpdu := Ber.length_lt_tlv 0xa0 (getPdu reqid oid)
    simp only [getBody, List.length_append] at h
    omega
  have hvarbinds : (Ber.tlv 0x30 (getVarbind oid)).length < 0x10000 := by
    have hlist := Ber.length_lt_tlv 0x30 (Ber.tlv 0x30 (getVarbind oid))
    have hpdu := hbody.2
    simp only [getPdu, List.length_append] at hpdu
    omega
  have hvarbind : (getVarbind oid).length < 0x10000 := (Ber.length_lt_tlv _ _).trans hvarbinds
  have hoid : oid.length < 0x10000 := by
    have hinside := Ber.length_lt_tlv 0x06 oid
    simp only [getVarbind, List.length_append] at hvarbind
    omega
  refine ⟨reads_tlv (by decide) h, ?_, ?_, reads_tlv (by decide) hvarbind, ?_⟩
  · exact Reads.tlv (by decide) (hint _) (Reads.tlv (by decide) hbody.1
      (reads_tlv (by decide) hbody.2))
  · exact Reads.tlv (by decide) (hint _) (Reads.tlv (by decide) (hint _)
      (Reads.tlv (by decide) (hint _) (reads_tlv (by decide) hvarbinds)))
  · exact Reads.tlv (by decide) hoid (reads_tlv (by decide) (by decide))

/-- There is one way to read a packet. -/
theorem GetReading.Of.oid_eq {r r' : GetReading} {bytes community : List UInt8}
    (h : r.Of bytes community) (h' : r'.Of bytes community) : r.oid = r'.oid := by
  have hmessage := h.message.unique h'.message
  obtain ⟨-, hbody⟩ := Prod.mk.inj (List.cons.inj hmessage).1
  have hinside := h.body.unique (hbody ▸ h'.body)
  obtain ⟨-, hpdu⟩ : r.version = r'.version ∧ r.pdu = r'.pdu := by simpa using hinside
  have hpdus := h.pdu.unique (hpdu ▸ h'.pdu)
  obtain ⟨-, -, -, hlist⟩ : r.reqid = r'.reqid ∧ r.errorStatus = r'.errorStatus ∧
    r.errorIndex = r'.errorIndex ∧ r.varbinds = r'.varbinds := by simpa using hpdus
  have hvarbinds := h.varbinds.unique (hlist ▸ h'.varbinds)
  obtain ⟨-, hvarbind⟩ := Prod.mk.inj (List.cons.inj hvarbinds).1
  have hpair := h.varbind.unique (hvarbind ▸ h'.varbind)
  exact (Prod.mk.inj (List.cons.inj hpair).1).2

theorem decodesBack_iff {outlen : Nat} {version : Int32} {community : List UInt8} {reqid : UInt64}
    {oid : List Char} {bytes : List UInt8}
    (h : snmpBuildGet outlen version community reqid oid = some bytes) :
    DecodesBack bytes version.toInt64 community (wireId reqid) oid ↔ OidFits oid := by
  obtain ⟨a, b, subs, hparts, hlen, rfl, -⟩ := snmpBuildGet_eq_some h
  have hreading := getReading_of hlen
  rw [← dotted_oidBytes_iff hparts]
  constructor
  · rintro ⟨r, hr, -, -, -, -, hoid⟩
    rwa [hr.oid_eq hreading] at hoid
  · intro hoid
    exact ⟨_, hreading, snmpBerInt_intBytes _, snmpBerInt_intBytes _, snmpBerInt_intBytes 0,
      snmpBerInt_intBytes 0, hoid⟩

/-- A GET that is built reads back as the request it was built for exactly when the text of its
object identifier fits; and one that does not fit the buffer is not built at all. -/
theorem snmpBuildGet_decodes_back_iff (outlen : Nat) (version : Int32) (community : List UInt8)
    (reqid : UInt64) (oid : List Char) :
    (∀ bytes, snmpBuildGet outlen version community reqid oid = some bytes →
      (DecodesBack bytes version.toInt64 community (wireId reqid) oid ↔ OidFits oid)) ∧
    ∀ a b subs, oidParts oid = some (a, b, subs) →
      outlen < (Ber.tlv 0x30 (getBody version.toInt64 community (wireId reqid)
        (oidBytes a b subs))).length →
      snmpBuildGet outlen version community reqid oid = none := by
  refine ⟨fun bytes h => decodesBack_iff h, fun a b subs hparts hlong => ?_⟩
  by_contra hne
  obtain ⟨bytes, hbytes⟩ := Option.ne_none_iff_exists'.mp hne
  obtain ⟨a', b', subs', hparts', -, rfl, hle⟩ := snmpBuildGet_eq_some hbytes
  rw [hparts] at hparts'
  obtain ⟨rfl, rfl, rfl⟩ : a = a' ∧ b = b' ∧ subs = subs' := by simpa using hparts'
  omega

theorem oidFits_internet : OidFits ['.', '1', '.', '3', '.', '6'] := by
  have hsix : Dotted ['6'] [6] := .last (by decide) (by simp [Char.isDigit])
  have hthree : Dotted (['3'] ++ '.' :: ['6']) [3, 6] :=
    .more (by decide) (by simp [Char.isDigit]) hsix
  have hone : Dotted (['1'] ++ '.' :: (['3'] ++ '.' :: ['6'])) [1, 3, 6] :=
    .more (by decide) (by simp [Char.isDigit]) hthree
  exact ⟨[1, 3, 6], hone, by decide, by decide, by decide⟩

/-- `snmp_build_get(out, 64, SNMP_VERSION_2C, "pub", 7, ".1.3.6")`. -/
theorem snmpBuildGet_decodes_back_internet :
    ∃ bytes, snmpBuildGet 64 1 [112, 117, 98] 7 ['.', '1', '.', '3', '.', '6'] = some bytes ∧
      DecodesBack bytes 1 [112, 117, 98] 7 ['.', '1', '.', '3', '.', '6'] := by
  have hbuilt : (snmpBuildGet 64 1 [112, 117, 98] 7 ['.', '1', '.', '3', '.', '6']).isSome := by
    decide +kernel
  obtain ⟨bytes, hbytes⟩ := Option.isSome_iff_exists.mp hbuilt
  exact ⟨bytes, hbytes,
    ((snmpBuildGet_decodes_back_iff 64 1 _ 7 _).1 bytes hbytes).mpr oidFits_internet⟩

/-- The first byte of `"6.16"` would be 256. It goes out as 0, and the packet asks for `0.0`. -/
theorem snmpBuildGet_first_byte_wraps :
    ∃ bytes, snmpBuildGet 64 1 [112, 117, 98] 7 ['6', '.', '1', '6'] = some bytes ∧
      ¬DecodesBack bytes 1 [112, 117, 98] 7 ['6', '.', '1', '6'] := by
  have hbuilt : (snmpBuildGet 64 1 [112, 117, 98] 7 ['6', '.', '1', '6']).isSome := by
    decide +kernel
  obtain ⟨bytes, hbytes⟩ := Option.isSome_iff_exists.mp hbuilt
  refine ⟨bytes, hbytes, fun hback => ?_⟩
  obtain ⟨ns, hns, -, -, hfirst⟩ := (decodesBack_iff hbytes).mp hback
  obtain ⟨subs, hsubs, hvalues⟩ := oidSubs_of_dotted hns oidMaxSubids
  have hread : oidSubs oidMaxSubids ['6', '.', '1', '6'] = some [6, 16] := by decide +kernel
  obtain rfl := Option.some.inj (hread.symm.trans hsubs)
  cases ns with
  | nil => exact nomatch hvalues
  | cons n ns =>
      have hsix : 6 = min n (2 ^ 64 - 1) := (List.cons.inj hvalues).1
      have := hfirst n rfl
      omega

end Sysmon.Snmp
