import Mathlib.Data.UInt
import Sysmon.Lib.Feedback

/-!
# The request to a RADIUS server

`send_radius_packet` puts a request together in a buffer of 1024 bytes: the header, the name, the hidden password, and three
attributes that are always the same. The password is hidden in the buffer itself, block by block. Lengths go into single
bytes, also that of the packet, which has two for it, and nothing looks at the lengths of the strings: the request is what
it should be as long as it is short.
-/

namespace Sysmon.Radius

abbrev Bytes := List UInt8

/-- Sixteen bytes: a sum of `md5_calc`, or the authenticator of a request. -/
structure Block where
  bytes : Bytes
  size : bytes.length = 16

/-! ### Buffers -/

/-- Writing from a place on; nothing where it goes past the end. -/
def store (buf : Bytes) (i : Nat) (bs : Bytes) : Option Bytes :=
  if i + bs.length ≤ buf.length then some (buf.take i ++ bs ++ buf.drop (i + bs.length)) else none

def load (buf : Bytes) (i n : Nat) : Option Bytes := if i + n ≤ buf.length then some ((buf.drop i).take n) else none

def zeros (n : Nat) : Bytes := List.replicate n 0

/-! ### The request -/

variable (md5 : Bytes → Block)

/-- The loop of `gen_passwd`, from the block at `ptr` on. -/
def hidePasses (secretlen : Nat) : Nat → Nat → Bytes → Bytes → Option Bytes
  | 0, _, packet, _ => some packet
  | passes + 1, ptr, packet, md5buf => do
      let hashed ← load md5buf 0 (secretlen + 16)
      let block ← load packet ptr 16
      let block := List.zipWith (· ^^^ ·) block (md5 hashed).bytes
      let packet ← store packet ptr block
      let md5buf ← store md5buf secretlen block
      hidePasses secretlen passes (ptr + 16) packet md5buf

/-- How many blocks `gen_passwd` hides. -/
def passesOf (pwlen : Nat) : Nat := max 1 (((if 255 < pwlen then 255 else pwlen) + 15) / 16)

/-- The password goes to the place `i` of the packet, which has the authenticator from the fourth byte on. What is in
`md5buf` at first is not read. -/
def genPasswd (packet : Bytes) (i : Nat) (cleartextPw secret : Bytes) : Option (Bytes × Nat) := do
  let passes := passesOf cleartextPw.length
  let packet ← store packet i (zeros 256)
  let packet ← store packet i cleartextPw
  let md5buf ← store (zeros 130) 0 secret
  let authenticator ← load packet 4 16
  let md5buf ← store md5buf secret.length authenticator
  let packet ← hidePasses md5 secret.length passes i packet md5buf
  return (packet, passes * 16)

/-- Service type 8, the identifier `sysmon`, and port type 5. -/
def fixedAttributes : Bytes := [6, 6, 0, 0, 0, 8, 32, 8, 115, 121, 115, 109, 111, 110, 61, 6, 0, 0, 0, 5]

/-- What is written to the socket. -/
def sendRadiusPacket (seq : UInt8) (ra : Block) (username password secret : Bytes) : Option Bytes := do
  let packet ← store (zeros 1024) 0 [1, seq]
  let packet ← store packet 4 ra.bytes
  let namelen := UInt8.ofNat (username.length + 2)
  let packet ← store packet 20 [1, namelen]
  -- below 2 it is a negative number of bytes to copy, and as a size a very large one
  if namelen.toNat < 2 then none
  else
    let packet ← store packet 22 (username.take (namelen.toNat - 2))
    let packetindex := 20 + namelen.toNat
    let packet ← store packet packetindex [2]
    let (packet, pwlen) ← genPasswd md5 packet (packetindex + 2) password secret
    let packet ← store packet (packetindex + 1) [UInt8.ofNat (2 + pwlen)]
    let packetindex := packetindex + 2 + pwlen
    let packet ← store packet packetindex fixedAttributes
    let packetindex := packetindex + fixedAttributes.length
    let packet ← store packet 3 [UInt8.ofNat packetindex]
    load packet 0 packetindex

/-! ### What the server reads -/

/-- An attribute, which has a byte for its length. -/
structure Attribute where
  type : UInt8
  value : Bytes
  fits : value.length + 2 < 256

def Attribute.encode (a : Attribute) : Bytes := a.type :: UInt8.ofNat (a.value.length + 2) :: a.value

/-- Attributes one after the other, each as long as it says. -/
def readAttributes : Nat → Bytes → Option (List Attribute)
  | _, [] => some []
  | fuel + 1, type :: length :: rest =>
      if h : 2 ≤ length.toNat ∧ length.toNat - 2 ≤ rest.length then
        have hfits : (rest.take (length.toNat - 2)).length + 2 < 256 := by
          have hlt := length.toNat_lt
          rw [List.length_take_of_le h.2]
          omega
        (readAttributes fuel (rest.drop (length.toNat - 2))).map (⟨type, rest.take (length.toNat - 2), hfits⟩ :: ·)
      else none
  | _, _ => none

/-- The length in the header, the high byte first. -/
def lengthField (packet : Bytes) : Nat := (packet.getD 2 0).toNat * 256 + (packet.getD 3 0).toNat

/-- The password with zeros behind it, up to a whole number of blocks and at least one. -/
def padded (password : Bytes) : Bytes :=
  password ++ zeros (max 1 ((password.length + 15) / 16) * 16 - password.length)

/-- What a block is combined with. -/
def hidingKey (secret before : Bytes) : Bytes := (md5 (secret ++ before)).bytes

/-- The password that was hidden in an attribute. -/
def unhidden (secret authenticator hidden : Bytes) : Bytes :=
  Feedback.unhide (· ^^^ ·) 16 (hidingKey md5 secret) (hidden.length / 16) authenticator hidden

/-- The packet is as long as it says, it has attributes behind its header and nothing else, and among them the name and the
password. -/
structure WellFormed (username password secret packet : Bytes) : Prop where
  length : lengthField packet = packet.length
  attributes : ∃ attributes, readAttributes packet.length (packet.drop 20) = some attributes ∧
    (∃ a ∈ attributes, a.type = 1 ∧ a.value = username) ∧
    ∃ a ∈ attributes, a.type = 2 ∧ unhidden md5 secret ((packet.drop 4).take 16) a.value = padded password

/-! ### Writing in place -/

section buffers

variable {buf buf' pre mid rest bs : Bytes} {i n : Nat}

theorem store_at (hpre : pre.length = i) (hmid : mid.length = bs.length) :
    store (pre ++ (mid ++ rest)) i bs = some (pre ++ (bs ++ rest)) := by
  have hroom : i + bs.length ≤ (pre ++ (mid ++ rest)).length := by
    rw [List.length_append, List.length_append]
    omega
  have hdrop : (pre ++ (mid ++ rest)).drop (i + bs.length) = rest := by
    rw [← hpre, ← hmid, List.drop_length_add_append, List.drop_left]
  rw [store, if_pos hroom, List.take_left' hpre, hdrop, List.append_assoc]

theorem zeros_append (h : i ≤ n) : zeros i ++ zeros (n - i) = zeros n := by
  rw [zeros, zeros, zeros, ← List.replicate_add, Nat.add_sub_cancel' h]

theorem store_zeros (hpre : pre.length = i) (hroom : bs.length ≤ n) :
    store (pre ++ zeros n) i bs = some (pre ++ (bs ++ zeros (n - bs.length))) := by
  rw [← zeros_append hroom]
  exact store_at hpre (List.length_replicate ..)

theorem store_end {k : Nat} (hpre : pre.length = i) (hroom : n = bs.length + k) :
    store (pre ++ zeros n) i bs = some (pre ++ bs ++ zeros k) := by
  rw [store_zeros hpre (by omega), hroom, Nat.add_sub_cancel_left, List.append_assoc]

theorem load_at (hpre : pre.length = i) (hmid : mid.length = n) : load (pre ++ (mid ++ rest)) i n = some mid := by
  have hroom : i + n ≤ (pre ++ (mid ++ rest)).length := by
    rw [List.length_append, List.length_append]
    omega
  rw [load, if_pos hroom, List.drop_left' hpre, List.take_left' hmid]

/-- A write stays in the buffer and leaves what is in front of it. -/
theorem store_some (h : store buf i bs = some buf') :
    i + bs.length ≤ buf.length ∧ buf'.length = buf.length ∧ ∀ k ≤ i, buf'.take k = buf.take k := by
  rw [store] at h
  split at h
  next hroom =>
    obtain rfl := Option.some.inj h
    refine ⟨hroom, ?_, fun k hk => ?_⟩
    · simp only [List.length_append, List.length_take, List.length_drop]
      omega
    · rw [List.append_assoc, List.take_append_of_le_length (by rw [List.length_take]; omega), List.take_take,
        Nat.min_eq_left hk]
  next => exact nomatch h

theorem take_of_store (h : store buf i bs = some buf') : buf'.take (i + bs.length) = buf.take i ++ bs := by
  rw [store] at h
  split at h
  next hroom =>
    obtain rfl := Option.some.inj h
    refine List.take_left' ?_
    rw [List.length_append, List.length_take_of_le (by omega)]
  next => exact nomatch h

theorem load_some (h : load buf i n = some bs) : i + n ≤ buf.length ∧ bs = (buf.drop i).take n := by
  rw [load] at h
  split at h
  next hroom => exact ⟨hroom, (Option.some.inj h).symm⟩
  next => exact nomatch h

end buffers

/-- A length byte of an attribute. -/
theorem toNat_lengthByte {n : Nat} (h : n + 2 < 256) : (UInt8.ofNat (n + 2)).toNat = n + 2 := by
  rw [UInt8.toNat_ofNat']
  omega

/-! ### The password -/

section password

variable {md5} {packet packet' pre rest secret before junk text : Bytes} {ptr passes : Nat}

theorem xor_cancel (a b : UInt8) : a ^^^ b ^^^ b = a := by
  rw [UInt8.xor_assoc, UInt8.xor_self, UInt8.xor_zero]

theorem length_hidingKey (before : Bytes) : (hidingKey md5 secret before).length = 16 := (md5 (secret ++ before)).size

/-- The blocks are hidden where they are. -/
theorem hidePasses_eq (hpre : pre.length = ptr) (htext : text.length = passes * 16) (hbefore : before.length = 16) :
    hidePasses md5 secret.length passes ptr (pre ++ (text ++ rest)) (secret ++ (before ++ junk)) =
      some (pre ++ (Feedback.hide (· ^^^ ·) 16 (hidingKey md5 secret) passes before text ++ rest)) := by
  induction passes generalizing ptr pre text before with
  | zero =>
      rw [Nat.zero_mul, List.length_eq_zero_iff] at htext
      rw [htext]
      rfl
  | succ passes ih =>
      rw [Nat.succ_mul] at htext
      have hsize : 16 ≤ text.length := by omega
      have hhashed : load (secret ++ (before ++ junk)) 0 (secret.length + 16) = some (secret ++ before) := by
        rw [← List.append_assoc]
        exact @load_at [] (secret ++ before) junk 0 _ rfl (by rw [List.length_append, hbefore])
      have hblock : (List.zipWith (· ^^^ ·) (text.take 16) (hidingKey md5 secret before)).length = 16 :=
        Feedback.length_block length_hidingKey hsize
      have hsplit : pre ++ (text ++ rest) = pre ++ (text.take 16 ++ (text.drop 16 ++ rest)) := by
        rw [← List.append_assoc (text.take 16), List.take_append_drop]
      have htake : (text.take 16).length = 16 := List.length_take_of_le hsize
      rw [hidePasses, hhashed, hsplit, Feedback.hide]
      simp only [Option.bind_eq_bind, Option.bind_some]
      rw [load_at hpre htake, Option.bind_some, show (md5 (secret ++ before)).bytes = hidingKey md5 secret before from rfl]
      generalize List.zipWith (· ^^^ ·) (text.take 16) (hidingKey md5 secret before) = block at hblock ⊢
      rw [store_at hpre (htake.trans hblock.symm), Option.bind_some, store_at rfl (hbefore.trans hblock.symm),
        Option.bind_some, ← List.append_assoc pre block]
      have hpre' : (pre ++ block).length = ptr + 16 := by rw [List.length_append, hpre, hblock]
      have hrest : (text.drop 16).length = passes * 16 := by
        rw [List.length_drop]
        omega
      rw [ih hpre' hrest hblock, List.append_assoc, List.append_assoc]

theorem hidePasses_some {secretlen : Nat} {md5buf : Bytes}
    (h : hidePasses md5 secretlen passes ptr packet md5buf = some packet') :
    packet'.length = packet.length ∧ ∀ k ≤ ptr, packet'.take k = packet.take k := by
  induction passes generalizing ptr packet md5buf with
  | zero =>
      obtain rfl := Option.some.inj h
      exact ⟨rfl, fun _ _ => rfl⟩
  | succ passes ih =>
      simp only [hidePasses, Option.bind_eq_bind, Option.bind_eq_some_iff] at h
      obtain ⟨hashed, -, block, -, stored, hstored, md5buf', -, hrest⟩ := h
      obtain ⟨-, hlength, hfront⟩ := store_some hstored
      obtain ⟨hlength', hfront'⟩ := ih hrest
      exact ⟨hlength'.trans hlength, fun k hk => (hfront' k (by omega)).trans (hfront k hk)⟩

theorem passesOf_short {pwlen : Nat} (h : pwlen ≤ 255) : passesOf pwlen = max 1 ((pwlen + 15) / 16) := by
  rw [passesOf, if_neg (Nat.not_lt.mpr h)]

theorem length_padded (password : Bytes) : (padded password).length = max 1 ((password.length + 15) / 16) * 16 := by
  rw [padded, List.length_append, zeros, List.length_replicate]
  omega

/-- A password of at most 255 bytes goes into the zeros behind what has been written, with a secret that leaves room for the
authenticator. -/
theorem genPasswd_eq {front authenticator after password : Bytes} {i n : Nat} (hfront : front.length = 4)
    (hauthenticator : authenticator.length = 16) (hi : (front ++ (authenticator ++ after)).length = i) (hn : 256 ≤ n)
    (hpassword : password.length ≤ 255) (hsecret : secret.length ≤ 114) :
    genPasswd md5 (front ++ (authenticator ++ after) ++ zeros n) i password secret =
      some (front ++ (authenticator ++ after) ++ (Feedback.hide (· ^^^ ·) 16 (hidingKey md5 secret)
        (passesOf password.length) authenticator (padded password) ++ zeros (n - passesOf password.length * 16)),
        passesOf password.length * 16) := by
  have hpasses := passesOf_short hpassword
  have hmemset : store (front ++ (authenticator ++ after) ++ zeros n) i (zeros 256) =
      some (front ++ (authenticator ++ after) ++ zeros n) := by
    rw [store_zeros hi (by rw [zeros, List.length_replicate]; exact hn), zeros, List.length_replicate]
    exact congrArg (fun rest => some (front ++ (authenticator ++ after) ++ rest)) (zeros_append hn)
  have hcopied : store (front ++ (authenticator ++ after) ++ zeros n) i password =
      some (front ++ (authenticator ++ after) ++ (padded password ++ zeros (n - passesOf password.length * 16))) := by
    rw [store_zeros hi (by omega), padded, List.append_assoc password, hpasses, zeros, zeros, zeros, ← List.replicate_add]
    have hsum : max 1 ((password.length + 15) / 16) * 16 - password.length + (n - max 1 ((password.length + 15) / 16) * 16) =
        n - password.length := by omega
    rw [hsum]
  have hread : ∀ rest, load (front ++ (authenticator ++ after) ++ rest) 4 16 = some authenticator := by
    intro rest
    rw [List.append_assoc, List.append_assoc]
    exact load_at hfront hauthenticator
  have hcopy : store (zeros 130) 0 secret = some (secret ++ zeros (130 - secret.length)) :=
    @store_zeros [] secret 0 130 rfl (by omega)
  have hauth : store (secret ++ zeros (130 - secret.length)) secret.length authenticator =
      some (secret ++ (authenticator ++ zeros (130 - secret.length - authenticator.length))) :=
    store_zeros rfl (by omega)
  have htext : (padded password).length = passesOf password.length * 16 := by rw [length_padded, hpasses]
  simp only [genPasswd, Option.bind_eq_bind, hmemset, hcopied, hread, hcopy, hauth, Option.bind_some,
    hidePasses_eq hi htext hauthenticator]
  rfl

theorem genPasswd_some {i : Nat} {cleartextPw : Bytes} {pwlen : Nat}
    (h : genPasswd md5 packet i cleartextPw secret = some (packet', pwlen)) :
    secret.length + 16 ≤ 130 ∧ pwlen = passesOf cleartextPw.length * 16 ∧ packet'.length = packet.length ∧
      ∀ k ≤ i, packet'.take k = packet.take k := by
  simp only [genPasswd, Option.bind_eq_bind, Option.bind_eq_some_iff] at h
  obtain ⟨cleared, hcleared, copied, hcopied, md5buf, hmd5buf, authenticator, hload, md5buf', hmd5buf', hidden, hhidden,
    hend⟩ := h
  obtain ⟨-, hlength₁, hfront₁⟩ := store_some hcleared
  obtain ⟨-, hlength₂, hfront₂⟩ := store_some hcopied
  obtain ⟨hlength₃, hfront₃⟩ := hidePasses_some hhidden
  obtain ⟨hroom, -, -⟩ := store_some hmd5buf'
  obtain ⟨-, hsize, -⟩ := store_some hmd5buf
  obtain ⟨hpacket, rfl⟩ := load_some hload
  obtain ⟨rfl, rfl⟩ := Prod.mk.inj (Option.some.inj hend)
  rw [hsize, zeros, List.length_replicate, List.length_take, List.length_drop] at hroom
  refine ⟨by omega, rfl, hlength₃.trans (hlength₂.trans hlength₁), fun k hk => ?_⟩
  exact (hfront₃ k hk).trans ((hfront₂ k hk).trans (hfront₁ k hk))

end password

/-! ### The packet -/

section packet

variable {md5} {seq : UInt8} {ra : Block} {username password secret : Bytes}

/-- The octets of the strings leave room for one length byte of the packet, and the secret for an authenticator. -/
def Short (username password secret : Bytes) : Prop :=
  secret.length ≤ 114 ∧ username.length + max 1 ((password.length + 15) / 16) * 16 ≤ 211

theorem Short.password_le (h : Short username password secret) : password.length ≤ 255 := by
  have hsum := h.2
  omega

theorem Short.total (h : Short username password secret) : username.length + passesOf password.length * 16 ≤ 211 := by
  rw [passesOf_short h.password_le]
  exact h.2

/-- The hidden password of a packet. -/
def hidden (md5 : Bytes → Block) (ra : Block) (password secret : Bytes) : Bytes :=
  Feedback.hide (· ^^^ ·) 16 (hidingKey md5 secret) (passesOf password.length) ra.bytes (padded password)

theorem length_hidden (h : password.length ≤ 255) : (hidden md5 ra password secret).length = passesOf password.length * 16 :=
  Feedback.length_hide length_hidingKey (by rw [length_padded, passesOf_short h])

/-- The attributes of a packet, one after the other. -/
def attributeBytes (md5 : Bytes → Block) (ra : Block) (username password secret : Bytes) : Bytes :=
  1 :: UInt8.ofNat (username.length + 2) :: username ++
    (2 :: UInt8.ofNat (passesOf password.length * 16 + 2) :: hidden md5 ra password secret ++ fixedAttributes)

theorem length_packet {header : Bytes} (h : password.length ≤ 255) (hheader : header.length = 4) :
    (header ++ (ra.bytes ++ attributeBytes md5 ra username password secret)).length =
      44 + username.length + passesOf password.length * 16 := by
  simp [attributeBytes, hheader, ra.size, length_hidden h, fixedAttributes]
  omega

/-- A short packet as it is sent. -/
theorem sendRadiusPacket_eq (h : Short username password secret) :
    sendRadiusPacket md5 seq ra username password secret =
      some ([1, seq, 0, UInt8.ofNat (44 + username.length + passesOf password.length * 16)] ++
        (ra.bytes ++ attributeBytes md5 ra username password secret)) := by
  have hpassword := h.password_le
  have htotal := h.total
  have hra := ra.size
  have hhidden : (hidden md5 ra password secret).length = passesOf password.length * 16 := length_hidden hpassword
  have hname : (UInt8.ofNat (username.length + 2)).toNat = username.length + 2 := toNat_lengthByte (by omega)
  -- the places are those of the code, the zeros behind what has been written get fewer
  obtain ⟨front, hfront⟩ : ∃ front, front = [1, seq, 0, 0] ++ ra.bytes := ⟨_, rfl⟩
  obtain ⟨named, hnamed⟩ : ∃ named, named = front ++ [1, UInt8.ofNat (username.length + 2)] ++ username ++ [2] := ⟨_, rfl⟩
  have hfrontLength : front.length = 20 := by rw [hfront, List.length_append, hra]; rfl
  have hnamedLength : named.length = 23 + username.length := by
    rw [hnamed]
    simp [hfrontLength]
    omega
  have hstart : store (zeros 1024) 0 [1, seq] = some ([1, seq, 0, 0] ++ zeros 1020) :=
    @store_end [] [1, seq] 0 1024 1022 rfl rfl
  have hauth : store ([1, seq, 0, 0] ++ zeros 1020) 4 ra.bytes = some (front ++ zeros 1004) := by
    rw [hfront]
    exact store_end rfl (by omega)
  have htype : store (front ++ zeros 1004) 20 [1, UInt8.ofNat (username.length + 2)] =
      some (front ++ [1, UInt8.ofNat (username.length + 2)] ++ zeros 1002) := store_end hfrontLength rfl
  have hcopy : store (front ++ [1, UInt8.ofNat (username.length + 2)] ++ zeros 1002) 22
        (username.take (username.length + 2 - 2)) =
      some (front ++ [1, UInt8.ofNat (username.length + 2)] ++ username ++ zeros (1002 - username.length)) := by
    rw [Nat.add_sub_cancel, List.take_length]
    exact store_end (by rw [List.length_append, hfrontLength]; rfl) (by omega)
  have htype' : store (front ++ [1, UInt8.ofNat (username.length + 2)] ++ username ++ zeros (1002 - username.length))
      (20 + (username.length + 2)) [2] = some (named ++ zeros (1000 - username.length + 1)) := by
    rw [hnamed]
    exact store_end (by simp [hfrontLength]) (by rw [List.length_singleton]; omega)
  have hspare : named ++ zeros (1000 - username.length + 1) =
      [1, seq, 0, 0] ++ (ra.bytes ++ ([1, UInt8.ofNat (username.length + 2)] ++ username ++ [2, 0])) ++
        zeros (1000 - username.length) := by
    rw [hnamed, hfront, zeros, List.replicate_succ]
    simp [zeros]
  have hhide : genPasswd md5 (named ++ zeros (1000 - username.length + 1)) (20 + (username.length + 2) + 2) password secret =
      some (named ++ ([0] ++ (hidden md5 ra password secret ++
        zeros (1000 - username.length - passesOf password.length * 16))), passesOf password.length * 16) := by
    rw [hspare, genPasswd_eq rfl hra (by simp [hra]; omega) (by omega) hpassword h.1, hnamed, hfront]
    simp [hidden]
  have hlength : store (named ++ ([0] ++ (hidden md5 ra password secret ++
        zeros (1000 - username.length - passesOf password.length * 16)))) (20 + (username.length + 2) + 1)
        [UInt8.ofNat (2 + passesOf password.length * 16)] =
      some (named ++ UInt8.ofNat (2 + passesOf password.length * 16) :: hidden md5 ra password secret ++
        zeros (1000 - username.length - passesOf password.length * 16)) := by
    rw [@store_at named [0] _ [UInt8.ofNat (2 + passesOf password.length * 16)] _ (by omega) rfl, List.append_assoc]
    rfl
  have hrest : store (named ++ UInt8.ofNat (2 + passesOf password.length * 16) :: hidden md5 ra password secret ++
        zeros (1000 - username.length - passesOf password.length * 16))
        (20 + (username.length + 2) + 2 + passesOf password.length * 16) fixedAttributes =
      some ([1, seq, 0, 0] ++ (ra.bytes ++ attributeBytes md5 ra username password secret) ++
        zeros (980 - username.length - passesOf password.length * 16)) := by
    have hfixed : fixedAttributes.length = 20 := rfl
    rw [store_end (by rw [List.length_append, List.length_cons, hnamedLength, hhidden]; omega)
      (show _ = _ + (980 - username.length - passesOf password.length * 16) by omega), hnamed, hfront, Nat.add_comm 2]
    simp only [attributeBytes, List.append_assoc, List.cons_append, List.nil_append]
  have hend : 20 + (username.length + 2) + 2 + passesOf password.length * 16 + fixedAttributes.length =
      44 + username.length + passesOf password.length * 16 := by
    rw [show fixedAttributes.length = 20 from rfl]
    omega
  have hlast : ∀ total rest tail,
      store ([1, seq, 0, 0] ++ rest ++ tail) 3 [total] = some ([1, seq, 0, total] ++ rest ++ tail) :=
    fun total rest tail => @store_at [1, seq, 0] [0] (rest ++ tail) [total] 3 rfl rfl
  have hload : ∀ total k, load ([1, seq, 0, total] ++ (ra.bytes ++ attributeBytes md5 ra username password secret) ++ zeros k)
        0 (44 + username.length + passesOf password.length * 16) =
      some ([1, seq, 0, total] ++ (ra.bytes ++ attributeBytes md5 ra username password secret)) :=
    fun total k => @load_at [] ([1, seq, 0, total] ++ (ra.bytes ++ attributeBytes md5 ra username password secret)) (zeros k)
      0 _ rfl (length_packet hpassword rfl)
  have hno : ¬username.length + 2 < 2 := by omega
  simp only [sendRadiusPacket, Option.bind_eq_bind, hstart, hauth, htype, hcopy, htype', hhide, hlength, hrest, hlast,
    Option.bind_some, hname, if_neg hno, hend, hload]

theorem lengthField_eq {packet : Bytes} {code identifier high low : UInt8}
    (h : packet.take 4 = [code, identifier, high, low]) : lengthField packet = high.toNat * 256 + low.toNat := by
  have hhigh : packet[2]? = some high := by rw [← List.getElem?_take_of_lt (show 2 < 4 by decide), h]; rfl
  have hlow : packet[3]? = some low := by rw [← List.getElem?_take_of_lt (show 3 < 4 by decide), h]; rfl
  rw [lengthField, List.getD_eq_getElem?_getD, List.getD_eq_getElem?_getD, hhigh, hlow]
  rfl

/-- What is sent says modulo 256 how long it is. -/
theorem sendRadiusPacket_some {packet : Bytes} (h : sendRadiusPacket md5 seq ra username password secret = some packet) :
    secret.length + 16 ≤ 130 ∧
      packet.length = 42 + (UInt8.ofNat (username.length + 2)).toNat + passesOf password.length * 16 ∧
      lengthField packet = packet.length % 256 := by
  have hstart : store (zeros 1024) 0 [1, seq] = some ([1, seq, 0, 0] ++ zeros 1020) :=
    @store_end [] [1, seq] 0 1024 1022 rfl rfl
  simp only [sendRadiusPacket, Option.bind_eq_bind, hstart, Option.bind_some] at h
  generalize (UInt8.ofNat (username.length + 2)).toNat = namelen at h ⊢
  simp only [Option.bind_eq_some_iff] at h
  obtain ⟨authed, hauthed, typed, htyped, h⟩ := h
  split at h
  next => exact nomatch h
  next hnamelen =>
    simp only [Option.bind_eq_some_iff] at h
    obtain ⟨named, hnamed, typed', htyped', ⟨filled, pwlen⟩, hfilled, measured, hmeasured, complete, hcomplete, closed,
      hclosed, hpacket⟩ := h
    obtain ⟨hsecret, rfl, hfilledLength, hfilledFront⟩ := genPasswd_some hfilled
    obtain ⟨-, hauthedLength, hauthedFront⟩ := store_some hauthed
    obtain ⟨-, htypedLength, htypedFront⟩ := store_some htyped
    obtain ⟨-, hnamedLength, hnamedFront⟩ := store_some hnamed
    obtain ⟨-, htypedLength', htypedFront'⟩ := store_some htyped'
    obtain ⟨-, hmeasuredLength, hmeasuredFront⟩ := store_some hmeasured
    obtain ⟨-, hcompleteLength, hcompleteFront⟩ := store_some hcomplete
    have hfront : complete.take 3 = [1, seq, 0] := by
      rw [hcompleteFront 3 (by omega), hmeasuredFront 3 (by omega), hfilledFront 3 (by omega), htypedFront' 3 (by omega),
        hnamedFront 3 (by omega), htypedFront 3 (by omega), hauthedFront 3 (by omega)]
      rfl
    have hroom : complete.length = 1024 := by
      rw [hcompleteLength, hmeasuredLength, hfilledLength, htypedLength', hnamedLength, htypedLength, hauthedLength,
        List.length_append, zeros, List.length_replicate]
      rfl
    obtain ⟨-, hclosedLength, -⟩ := store_some hclosed
    have hlast := take_of_store hclosed
    obtain ⟨hfits, rfl⟩ := load_some hpacket
    have hfixed : fixedAttributes.length = 20 := rfl
    rw [hclosedLength, hroom, hfixed] at hfits
    have hlength : (closed.take (20 + namelen + 2 + passesOf password.length * 16 + fixedAttributes.length)).length =
        42 + namelen + passesOf password.length * 16 := by
      rw [List.length_take_of_le (by omega)]
      omega
    have htake : (closed.take (20 + namelen + 2 + passesOf password.length * 16 + fixedAttributes.length)).take 4 =
        [1, seq, 0, UInt8.ofNat (20 + namelen + 2 + passesOf password.length * 16 + fixedAttributes.length)] := by
      rw [List.take_take, Nat.min_eq_left (by omega)]
      exact hlast.trans (congrArg (· ++ _) hfront)
    rw [List.drop_zero]
    refine ⟨hsecret, hlength, ?_⟩
    rw [lengthField_eq htake, hlength, UInt8.toNat_ofNat', hfixed, UInt8.toNat_zero]
    omega

/-- Attributes read back as they are written. -/
theorem readAttributes_encode {attributes : List Attribute} {fuel : Nat} (h : attributes.length ≤ fuel) :
    readAttributes fuel (attributes.flatMap Attribute.encode) = some attributes := by
  induction attributes generalizing fuel with
  | nil => cases fuel <;> rfl
  | cons a attributes ih =>
      obtain ⟨type, value, hfits⟩ := a
      cases fuel with
      | zero => exact nomatch h
      | succ fuel =>
          have hlength : (UInt8.ofNat (value.length + 2)).toNat = value.length + 2 := toNat_lengthByte hfits
          have hroom : 2 ≤ (UInt8.ofNat (value.length + 2)).toNat ∧ (UInt8.ofNat (value.length + 2)).toNat - 2 ≤
              (value ++ attributes.flatMap Attribute.encode).length := by
            rw [hlength, List.length_append]
            omega
          rw [List.flatMap_cons, Attribute.encode, List.cons_append, List.cons_append, readAttributes, dif_pos hroom]
          simp only [hlength, Nat.add_sub_cancel, List.take_left, List.drop_left, ih (Nat.succ_le_succ_iff.mp h),
            Option.map_some]

theorem unhidden_hidden (h : password.length ≤ 255) :
    unhidden md5 secret ra.bytes (hidden md5 ra password secret) = padded password := by
  have hlength := length_padded password
  rw [← passesOf_short h] at hlength
  rw [unhidden, length_hidden h, Nat.mul_div_cancel _ (by decide)]
  exact Feedback.unhide_hide xor_cancel length_hidingKey hlength

theorem attributeBytes_eq (h : Short username password secret) : ∃ attributes : List Attribute, attributes.length = 5 ∧
    attributeBytes md5 ra username password secret = attributes.flatMap Attribute.encode ∧
    (∃ a ∈ attributes, a.type = 1 ∧ a.value = username) ∧
    ∃ a ∈ attributes, a.type = 2 ∧ a.value = hidden md5 ra password secret := by
  have hpassword := h.password_le
  have htotal := h.total
  have hhidden : (hidden md5 ra password secret).length = passesOf password.length * 16 := length_hidden hpassword
  refine ⟨[⟨1, username, by omega⟩, ⟨2, hidden md5 ra password secret, by omega⟩, ⟨6, [0, 0, 0, 8], by decide⟩,
    ⟨32, [115, 121, 115, 109, 111, 110], by decide⟩, ⟨61, [0, 0, 0, 5], by decide⟩], rfl, ?_, ?_, ?_⟩
  · simp [attributeBytes, Attribute.encode, fixedAttributes, hhidden]
  · exact ⟨_, List.mem_cons_self, rfl, rfl⟩
  · exact ⟨_, List.mem_cons_of_mem _ List.mem_cons_self, rfl, rfl⟩

/-- A short packet has all its attributes. -/
theorem wellFormed_of_short {packet : Bytes} (h : Short username password secret)
    (hsent : sendRadiusPacket md5 seq ra username password secret = some packet) :
    WellFormed md5 username password secret packet := by
  rw [sendRadiusPacket_eq h] at hsent
  obtain rfl := Option.some.inj hsent
  obtain ⟨attributes, hcount, hbytes, hname, a, ha, htype, hvalue⟩ := @attributeBytes_eq md5 ra _ _ _ h
  have hpassword := h.password_le
  have htotal := h.total
  have hlength := @length_packet md5 ra username password secret
    [1, seq, 0, UInt8.ofNat (44 + username.length + passesOf password.length * 16)] hpassword rfl
  have hauthenticator : (([1, seq, 0, UInt8.ofNat (44 + username.length + passesOf password.length * 16)] ++
      (ra.bytes ++ attributeBytes md5 ra username password secret)).drop 4).take 16 = ra.bytes := List.take_left' ra.size
  refine ⟨?_, attributes, ?_, hname, a, ha, htype, ?_⟩
  · rw [lengthField_eq rfl, hlength, UInt8.toNat_ofNat', UInt8.toNat_zero]
    omega
  · rw [← List.append_assoc, List.drop_left' (by rw [List.length_append, ra.size]; rfl), hbytes]
    refine readAttributes_encode ?_
    rw [hcount, List.append_assoc, ← hbytes, hlength]
    omega
  · rw [hauthenticator, hvalue]
    exact unhidden_hidden hpassword

/-- A packet that is well formed was short. -/
theorem short_of_wellFormed {packet : Bytes} (hsent : sendRadiusPacket md5 seq ra username password secret = some packet)
    (h : WellFormed md5 username password secret packet) : Short username password secret := by
  obtain ⟨hsecret, hlength, hfield⟩ := sendRadiusPacket_some hsent
  obtain ⟨attributes, -, ⟨a, -, -, rfl⟩, -⟩ := h.attributes
  have hsmall : packet.length < 256 := by
    have hfield' := h.length
    omega
  rw [toNat_lengthByte a.fits, passesOf] at hlength
  refine ⟨by omega, ?_⟩
  split at hlength <;> omega

/-- A request is what it should be exactly if it is short. -/
theorem sendRadiusPacket_wellFormed_iff (md5 : Bytes → Block) (seq : UInt8) (ra : Block) (username password secret : Bytes) :
    (∃ packet, sendRadiusPacket md5 seq ra username password secret = some packet ∧
      WellFormed md5 username password secret packet) ↔ Short username password secret :=
  ⟨fun ⟨_, hsent, h⟩ => short_of_wellFormed hsent h,
    fun h => ⟨_, sendRadiusPacket_eq h, wellFormed_of_short h (sendRadiusPacket_eq h)⟩⟩

/-- With a name of 200 bytes the 260 bytes that are sent say that they are 4. -/
theorem not_wellFormed_long : ∃ packet,
    sendRadiusPacket (fun _ => ⟨zeros 16, rfl⟩) 1 ⟨zeros 16, rfl⟩ (List.replicate 200 97) [112, 119] [115] =
        some packet ∧
      packet.length = 260 ∧ lengthField packet = 4 ∧
      ¬WellFormed (fun _ => ⟨zeros 16, rfl⟩) (List.replicate 200 97) [112, 119] [115] packet := by
  have hsent : (sendRadiusPacket (fun _ => ⟨zeros 16, rfl⟩) 1 ⟨zeros 16, rfl⟩ (List.replicate 200 97) [112, 119]
      [115]).isSome = true := by decide +kernel
  obtain ⟨packet, hpacket⟩ := Option.isSome_iff_exists.mp hsent
  obtain ⟨-, hlength, hfield⟩ := sendRadiusPacket_some hpacket
  have hsize : packet.length = 260 := by
    rw [hlength, List.length_replicate]
    rfl
  rw [hsize] at hfield
  refine ⟨packet, hpacket, hsize, hfield, fun h => ?_⟩
  have heq := h.length
  omega

end packet

end Sysmon.Radius
