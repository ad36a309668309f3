import Sysmon.Icmp

/-!
# Reading an echo reply

The part of `handle_icmp_responses` that reads a packet. It is put into a buffer of 64 octets that still holds what was
in it before; the length of its IP header is taken from its first octet, and the type, the identifier and the sequence
number of the reply from behind that header, wherever that is. How much has been received is not asked.
-/

namespace Sysmon.Icmp

/-- The memory from the buffer on. -/
abbrev Memory := Nat → UInt8

/-- `ICMP_PACKET_SIZE`. -/
def icmpPacketSize : Nat := 64

/-- `recvmsg`: as much of a packet as the buffer holds, over what is there. -/
def recvmsg (memory : Memory) (packet : List UInt8) : Memory := fun i => ((packet.take icmpPacketSize)[i]?).getD (memory i)

/-- A 16-bit number as the machine keeps it. -/
def readShort (memory : Memory) (i : Nat) : UInt16 := (memory i).toUInt16 ||| ((memory (i + 1)).toUInt16 <<< 8)

/-- `(ip->IHL & 0x0f) << 2`. -/
def hlen (first : UInt8) : Nat := (first &&& 0x0f).toNat <<< 2

/-- The reply in the buffer, if what is behind the IP header is one. -/
def replyIn (memory : Memory) (source : UInt32) : Option Reply :=
  let icp := hlen (memory 0)
  if memory icp ≠ 0 then none
  else some { echoId := readShort memory (icp + 4), echoSeq := readShort memory (icp + 6), source }

/-- `handle_icmp_responses`, for one packet. -/
def handlePacket (memory : Memory) (packet : List UInt8) (source : UInt32) (checks : List Check) : List Check :=
  match replyIn (recvmsg memory packet) source with
  | none => checks
  | some reply => handleIcmpResponse reply checks

/-- The loop of `handle_icmp_responses`: each packet is read over the one before. -/
def handleIcmpResponses : Memory → List (List UInt8 × UInt32) → List Check → List Check
  | _, [], checks => checks
  | memory, (packet, source) :: packets, checks =>
      handleIcmpResponses (recvmsg memory packet) packets (handlePacket memory packet source checks)

/-! ### What a packet decides -/

/-- The length of the IP header, of a packet that has one. -/
def headerLength (packet : List UInt8) : Nat := hlen (packet.headD 0)

/-- The packet does not hold its IP header and the eight octets of an ICMP header. -/
def TooShort (packet : List UInt8) : Prop := packet.length < headerLength packet + 8

/-- What was in the buffer does not matter, and a packet that is too short changes nothing. -/
def ReadWithin (packet : List UInt8) : Prop := ∀ source checks,
  (∀ memory memory', handlePacket memory packet source checks = handlePacket memory' packet source checks) ∧
    (TooShort packet → ∀ memory, handlePacket memory packet source checks = checks)

/-- The packet is received as far as the end of its ICMP header, or as far as to say that it is no reply. -/
def Complete (packet : List UInt8) : Prop :=
  headerLength packet + 8 ≤ (packet.take icmpPacketSize).length ∨
    ∃ type, (packet.take icmpPacketSize)[headerLength packet]? = some type ∧ type ≠ 0

variable {memory memory' : Memory} {packet : List UInt8} {source : UInt32} {checks : List Check} {i : Nat}

theorem recvmsg_of_lt (h : i < (packet.take icmpPacketSize).length) (memory memory' : Memory) :
    recvmsg memory packet i = recvmsg memory' packet i := by
  rw [recvmsg, recvmsg, List.getElem?_eq_getElem h]
  rfl

theorem recvmsg_of_le (h : (packet.take icmpPacketSize).length ≤ i) : recvmsg memory packet i = memory i := by
  rw [recvmsg, List.getElem?_eq_none h]
  rfl

/-- The first octet, of which nothing is left to the buffer unless there is none. -/
theorem hlen_recvmsg (h : packet ≠ [] ∨ memory 0 = 0) : hlen (recvmsg memory packet 0) = headerLength packet := by
  cases packet with
  | nil => exact congrArg hlen (h.resolve_left (· rfl))
  | cons first packet => rfl

/-- Only the octets of the two headers count. -/
theorem replyIn_congr (hfirst : memory 0 = memory' 0)
    (hicmp : ∀ i < 8, memory (hlen (memory 0) + i) = memory' (hlen (memory 0) + i)) (source : UInt32) :
    replyIn memory source = replyIn memory' source := by
  have htype := hicmp 0 (by omega)
  rw [Nat.add_zero] at htype
  rw [replyIn, replyIn, readShort, readShort, readShort, readShort, ← hfirst]
  simp only [Nat.add_assoc]
  rw [htype, hicmp 4 (by omega), hicmp (4 + 1) (by omega), hicmp 6 (by omega), hicmp (6 + 1) (by omega)]

theorem handlePacket_of_type {type : UInt8} (hread : (packet.take icmpPacketSize)[headerLength packet]? = some type)
    (htype : type ≠ 0) : handlePacket memory packet source checks = checks := by
  have hne : packet ≠ [] := by
    rintro rfl
    contradiction
  have hicp : recvmsg memory packet (headerLength packet) = type := by
    rw [recvmsg, hread]
    rfl
  rw [handlePacket, replyIn, hlen_recvmsg (Or.inl hne), hicp, if_pos htype]

theorem handlePacket_congr (h : headerLength packet + 8 ≤ (packet.take icmpPacketSize).length) :
    handlePacket memory packet source checks = handlePacket memory' packet source checks := by
  have hne : packet ≠ [] := by
    rintro rfl
    rw [List.take_nil, List.length_nil] at h
    omega
  have hreply : replyIn (recvmsg memory packet) source = replyIn (recvmsg memory' packet) source := by
    refine replyIn_congr (recvmsg_of_lt (by omega) _ _) (fun i hi => ?_) source
    rw [hlen_recvmsg (Or.inl hne)]
    exact recvmsg_of_lt (by omega) _ _
  rw [handlePacket, handlePacket, hreply]

theorem readWithin_of_complete (h : Complete packet) : ReadWithin packet := by
  obtain hlong | ⟨type, hread, htype⟩ := h
  · refine fun source checks => ⟨fun _ _ => handlePacket_congr hlong, fun htooShort => ?_⟩
    have hle := List.length_take_le' icmpPacketSize packet
    rw [TooShort] at htooShort
    omega
  · intro source checks
    exact ⟨fun _ _ => by rw [handlePacket_of_type hread htype, handlePacket_of_type hread htype],
      fun _ _ => handlePacket_of_type hread htype⟩

/-- The check that a reply is for. -/
def pinged (reply : Reply) : Check := ⟨.ping, 7, 1, 0, 0, reply.echoId, reply.source, 1, 0, 0, 0, fun _ => false⟩

/-- It counts the reply. -/
theorem handlePacket_pinged {reply : Reply} (h : replyIn (recvmsg memory packet) source = some reply) :
    handlePacket memory packet source [pinged reply] ≠ [pinged reply] := by
  have howns : owns reply (pinged reply) = true := by simp [owns, pinged]
  have hreceive : receive reply (pinged reply) = some (pinged reply).received := if_pos howns
  rw [handlePacket, h]
  dsimp only
  rw [handleIcmpResponse, hreceive]
  intro hsame
  exact absurd (congrArg Check.nreceived (List.cons.inj hsame).1) (Nat.succ_ne_self _)

/-- It does not count one with another identifier. -/
theorem handlePacket_other {reply other : Reply} (h : replyIn (recvmsg memory packet) source = some other)
    (hother : other.echoId ≠ reply.echoId) : handlePacket memory packet source [pinged reply] = [pinged reply] := by
  have howns : owns other (pinged reply) = false := by simp [owns, pinged, hother]
  have hreceive : receive other (pinged reply) = none := if_neg (by rw [howns]; decide)
  rw [handlePacket, h]
  dsimp only
  rw [handleIcmpResponse, hreceive, handleIcmpResponse]

/-- A packet that is not complete is a reply where the buffer has zeros. -/
theorem replyIn_of_zero (memory : Memory) (h : ¬Complete packet) (hfirst : packet ≠ [] ∨ memory 0 = 0)
    (hzero : memory (headerLength packet) = 0) (source : UInt32) : replyIn (recvmsg memory packet) source = some
      { echoId := readShort (recvmsg memory packet) (headerLength packet + 4)
        echoSeq := readShort (recvmsg memory packet) (headerLength packet + 6)
        source } := by
  have htype : recvmsg memory packet (headerLength packet) = 0 := by
    rw [recvmsg]
    cases hread : (packet.take icmpPacketSize)[headerLength packet]? with
    | none => exact hzero
    | some type =>
        by_contra hne
        exact h (Or.inr ⟨type, hread, hne⟩)
  rw [replyIn, hlen_recvmsg hfirst, htype]
  exact if_neg (not_not.mpr rfl)

/-- The header is at most 60 octets long, in steps of four. -/
theorem headerLength_le (packet : List UInt8) : headerLength packet ≤ 60 ∧ headerLength packet % 4 = 0 := by
  have hnibble : (packet.headD 0 &&& 0x0f).toNat ≤ 15 := by
    rw [UInt8.toNat_and]
    exact Nat.and_le_right
  rw [headerLength, hlen, Nat.shiftLeft_eq]
  omega

/-- Behind a header of 60 octets there is no room for the identifier. -/
theorem headerLength_of_long (hincomplete : ¬Complete packet) (hlong : ¬TooShort packet) :
    packet ≠ [] ∧ (packet.take icmpPacketSize).length = 64 ∧ headerLength packet = 60 := by
  obtain ⟨hle, hsteps⟩ := headerLength_le packet
  have hnot : ¬headerLength packet + 8 ≤ (packet.take icmpPacketSize).length := fun h => hincomplete (Or.inl h)
  rw [TooShort, not_lt] at hlong
  rw [List.length_take, icmpPacketSize] at *
  refine ⟨?_, by omega, by omega⟩
  rintro rfl
  rw [List.length_nil] at hlong
  omega

theorem readShort_behind (hlength : (packet.take icmpPacketSize).length = 64) (memory : Memory) :
    readShort (recvmsg memory packet) 64 = (memory 64).toUInt16 ||| ((memory 65).toUInt16 <<< 8) := by
  rw [readShort, recvmsg_of_le (by omega), recvmsg_of_le (by omega)]

/-- A packet is read within what was received of it exactly if it is received as far as its ICMP header, or as far as
to say that it is no reply. -/
theorem readWithin_iff (packet : List UInt8) : ReadWithin packet ↔ Complete packet := by
  constructor
  · intro h
    by_contra hincomplete
    have hzeros := replyIn_of_zero (fun _ => 0) hincomplete (Or.inr rfl) rfl 0
    have hcounted := handlePacket_pinged hzeros
    by_cases htooShort : TooShort packet
    · exact hcounted ((h 0 _).2 htooShort _)
    · obtain ⟨hne, hlength, hheader⟩ := headerLength_of_long hincomplete htooShort
      have hones := replyIn_of_zero (fun i => if i = headerLength packet then 0 else 255) hincomplete
        (Or.inl hne) (if_pos rfl) 0
      rw [(h 0 _).1 _ fun i => if i = headerLength packet then 0 else 255] at hcounted
      refine hcounted (handlePacket_other hones ?_)
      dsimp only
      rw [hheader, readShort_behind hlength, readShort_behind hlength]
      decide
  · exact readWithin_of_complete

/-- Nothing that was in the buffer matters to a whole series of such packets. -/
theorem handleIcmpResponses_congr {packets : List (List UInt8 × UInt32)} (h : ∀ packet ∈ packets, Complete packet.1)
    (memory memory' : Memory) (checks : List Check) :
    handleIcmpResponses memory packets checks = handleIcmpResponses memory' packets checks := by
  induction packets generalizing memory memory' checks with
  | nil => rfl
  | cons first packets ih =>
      have hread := (readWithin_of_complete (h first List.mem_cons_self) first.2 checks).1 memory memory'
      rw [handleIcmpResponses, handleIcmpResponses, hread]
      exact ih (fun packet hpacket => h packet (List.mem_cons_of_mem _ hpacket)) _ _ _

/-- An IP header and nothing else. -/
def bareHeader : List UInt8 := [0x45, 0, 0, 20, 0, 0, 0, 0, 64, 1, 0, 0, 10, 0, 0, 2, 10, 0, 0, 1]

/-- It is taken for the reply that was in the buffer before. What a raw socket hands on can end as early: of a reply
whose IP header has 60 octets only 4 more are received. -/
theorem bareHeader_counted : ¬∀ packet, ReadWithin packet := by
  intro h
  let before : List UInt8 := bareHeader ++ [0, 0, 0, 0, 5, 0, 1, 0]
  have hunchanged := (h bareHeader 0x0a000002 [pinged ⟨5, 1, 0x0a000002⟩]).2 (by unfold TooShort; decide)
    (recvmsg (fun _ => 0) before)
  exact absurd (congrArg (List.map Check.nreceived) hunchanged) (by decide)

end Sysmon.Icmp
