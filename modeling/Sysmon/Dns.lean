import Sysmon.Lib.Labels

/-!
# Asking a name server

`dns_make_qname` and `dns_packet` of `dns.c`. The name of a query is written into a buffer of zeros that has room for
it, as if it had no dot at its end, and the whole buffer is sent; so a dot at the end leaves a zero too many. The
length of a label is not looked at.
-/

namespace Sysmon.Dns

open Labels

/-- The loop of `dns_make_qname`, with what there is of the label that is being read. -/
def writeLabels : List UInt8 → List UInt8 → List UInt8
  | label, [] => if label = [] then [] else UInt8.ofNat label.length :: label
  | label, c :: s =>
      if c = dot then UInt8.ofNat label.length :: label ++ writeLabels [] s else writeLabels (label ++ [c]) s

/-- `dns_make_qname`: a buffer of two octets more than the name has. -/
def dnsMakeQname : Option (List UInt8) → List UInt8
  | none => []
  | some domainname =>
      let encoded := writeLabels [] domainname
      encoded ++ List.replicate (domainname.length + 2 - encoded.length) 0

def htons (value : UInt16) : List UInt8 := [(value >>> 8).toUInt8, value.toUInt8]

/-- `dns_packet`. The length of the packet is of 16 bits, and nothing is said of a packet that is longer than the memory
it is written to. -/
def dnsPacket (domain : Option (List UInt8)) (aa recursion : Bool) (requestId : UInt16) : Option (List UInt8) :=
  let byte2 : UInt8 := (if aa then 0x04 else 0) ||| (if recursion then 0x01 else 0)
  let reqQname := dnsMakeQname domain
  let fullLength := UInt16.ofNat (12 + reqQname.length + 4)
  let fullPacket := htons requestId ++ [byte2, 0] ++ htons 1 ++ htons 0 ++ htons 0 ++ htons 0 ++ reqQname ++ htons 1 ++
    htons 1
  if fullPacket.length ≤ fullLength.toNat then some fullPacket else none

/-! ### Queries -/

/-- A query for the address of a name: one question and nothing else. -/
structure WellFormedQuery (packet : List UInt8) (labels : List (List UInt8)) : Prop where
  /-- Not a response, and of the standard kind. -/
  opcode : ∃ byte2, packet[2]? = some byte2 ∧ byte2 &&& 0xf8 = 0
  counts : (packet.drop 4).take 8 = [0, 1, 0, 0, 0, 0, 0, 0]
  question : decode (packet.drop 12) = some (labels, [0, 1, 0, 1])

/-- What a name can be long. -/
def WithinLimit (labels : List (List UInt8)) : Prop := (encode labels).length + 1 ≤ 255

/-- A name that can be asked for is, and what is asked for is never another name. -/
def AsksFor (name : List UInt8) (aa recursion : Bool) (requestId : UInt16) : Prop :=
  ∃ packet, dnsPacket (some name) aa recursion requestId = some packet ∧
    (∀ labels, Names name labels → WithinLimit labels → WellFormedQuery packet labels) ∧
    ∀ labels rest, decode (packet.drop 12) = some (labels, rest) → Names name labels

theorem writeLabels_eq (label s : List UInt8) : writeLabels label s = encode (labelsFrom label s) := by
  induction s generalizing label with
  | nil =>
      rw [writeLabels, labelsFrom]
      split <;> simp [octets]
  | cons c s ih =>
      rw [writeLabels, labelsFrom]
      split
      · rw [encode_cons, ih]
        rfl
      · exact ih _

/-- What is sent behind the header. -/
def question (name : List UInt8) : List UInt8 := dnsMakeQname (some name) ++ [0, 1, 0, 1]

/-- The octets behind the name. -/
def padding (name : List UInt8) : List UInt8 :=
  List.replicate (name.length + 2 - (encode (labelsFrom [] name)).length) 0 ++ [0, 1, 0, 1]

variable {name : List UInt8} {labels : List (List UInt8)}

theorem question_eq (name : List UInt8) : question name = encode (labelsFrom [] name) ++ padding name := by
  rw [question, dnsMakeQname, writeLabels_eq, List.append_assoc, padding]

theorem length_dnsMakeQname (name : List UInt8) : (dnsMakeQname (some name)).length = name.length + 2 := by
  have hle := length_encode_labelsFrom [] name
  rw [dnsMakeQname, writeLabels_eq, List.length_append, List.length_replicate]
  rw [List.length_nil] at hle
  omega

/-- The twelve octets in front. -/
def header (aa recursion : Bool) (requestId : UInt16) : List UInt8 :=
  htons requestId ++ [(if aa then 0x04 else 0) ||| (if recursion then 0x01 else 0), 0] ++ [0, 1, 0, 0, 0, 0, 0, 0]

theorem dnsPacket_eq (name : List UInt8) (aa recursion : Bool) (requestId : UInt16) :
    dnsPacket (some name) aa recursion requestId =
      if name.length < 65518 then some (header aa recursion requestId ++ question name) else none := by
  have hpacket : htons requestId ++ [(if aa then 0x04 else 0) ||| (if recursion then 0x01 else 0), 0] ++ htons 1 ++
      htons 0 ++ htons 0 ++ htons 0 ++ dnsMakeQname (some name) ++ htons 1 ++ htons 1 =
      header aa recursion requestId ++ question name := by
    rw [header, question]
    simp only [List.append_assoc]
    rfl
  have hlength : (header aa recursion requestId ++ question name).length = name.length + 18 := by
    rw [List.length_append, question, List.length_append, length_dnsMakeQname]
    simp only [header, htons, List.length_append, List.length_cons, List.length_nil]
    omega
  rw [dnsPacket, hpacket, hlength, length_dnsMakeQname, UInt16.toNat_ofNat']
  have hfits : (name.length + 18 ≤ (12 + (name.length + 2) + 4) % 2 ^ 16) = (name.length < 65518) := by
    rw [eq_iff_iff]
    omega
  simp only [hfits]

theorem wellFormedQuery_header {aa recursion : Bool} {requestId : UInt16} :
    WellFormedQuery (header aa recursion requestId ++ question name) labels ↔
      decode (question name) = some (labels, [0, 1, 0, 1]) := by
  constructor
  · exact fun h => h.question
  · intro h
    refine ⟨⟨(if aa then 0x04 else 0) ||| (if recursion then 0x01 else 0), rfl, ?_⟩, rfl, h⟩
    cases aa <;> cases recursion <;> decide

/-- The name is at hand with a zero behind it, and there may be more of them. -/
theorem question_of_names (h : Names name labels) :
    ∃ more, question name = encode labels ++ 0 :: (more ++ [0, 1, 0, 1]) ∧
      (more = [] ↔ name ≠ [] ∧ name.getLast? ≠ some dot) := by
  obtain rfl | hne := eq_or_ne labels []
  · obtain rfl | rfl := h.text
    · exact ⟨[0], rfl, by simp [dotted]⟩
    · exact ⟨[0, 0], rfl, by simp [dotted]⟩
  · have hlength := length_encode hne
    obtain ⟨hplain, hdot⟩ := labelsFrom_dotted h.valid hne
    have hdotted := dotted_ne_nil (fun label hlabel => (h.valid label hlabel).1) hne
    rw [question_eq, padding]
    obtain rfl | rfl := h.text
    · refine ⟨[], ?_, iff_of_true rfl ⟨hdotted, getLast?_dotted h.valid hne⟩⟩
      rw [hplain, hlength, Nat.add_sub_add_left]
      rfl
    · refine ⟨[0], ?_, iff_of_false (List.cons_ne_nil _ _) (by simp)⟩
      rw [hdot, List.length_append, hlength, List.length_singleton, Nat.add_sub_cancel_left]
      rfl

theorem decode_question_of_names (h : Names name labels) : ∃ more,
    decode (question name) = some (labels, more ++ [0, 1, 0, 1]) ∧
      (more = [] ↔ name ≠ [] ∧ name.getLast? ≠ some dot) := by
  obtain ⟨more, hquestion, hmore⟩ := question_of_names h
  refine ⟨more, ?_, hmore⟩
  rw [hquestion, decode_encode fun label hlabel => (h.valid label hlabel).1, decode_zero]
  simp

theorem decode_padding (name : List UInt8) : (decode (padding name)).isSome := by
  have hle := length_encode_labelsFrom [] name
  rw [List.length_nil, Nat.zero_add] at hle
  obtain ⟨zeros, hzeros⟩ : ∃ zeros, name.length + 2 - (encode (labelsFrom [] name)).length = zeros + 1 :=
    Nat.exists_eq_add_one.mpr (by omega)
  rw [padding, hzeros, List.replicate_succ, List.cons_append, decode_zero]
  rfl

/-- A query is sent for a name and for no other exactly if the name is short enough for a packet, a name that can be
asked for is written without a dot at its end, and what is not a name is not read as one either, because of a label
whose length does not fit. -/
theorem asksFor_iff (name : List UInt8) (aa recursion : Bool) (requestId : UInt16) :
    AsksFor name aa recursion requestId ↔ name.length < 65518 ∧
      (∀ labels, Names name labels → WithinLimit labels → name ≠ [] ∧ name.getLast? ≠ some dot) ∧
      ((∀ labels, ¬Names name labels) → Unreadable (padding name) (labelsFrom [] name)) := by
  have hpacket : AsksFor name aa recursion requestId ↔ name.length < 65518 ∧
      (∀ labels, Names name labels → WithinLimit labels → decode (question name) = some (labels, [0, 1, 0, 1])) ∧
      ∀ labels rest, decode (question name) = some (labels, rest) → Names name labels := by
    rw [AsksFor, dnsPacket_eq]
    split
    · rename_i hlength
      simp only [Option.some.injEq, exists_eq_left', wellFormedQuery_header, hlength, true_and]
      rfl
    · rename_i hlength
      simp [hlength]
  rw [hpacket]
  refine and_congr_right fun _ => and_congr ?_ ?_
  · refine forall_congr' fun labels => forall_congr' fun hnames => forall_congr' fun _ => ?_
    obtain ⟨more, hdecode, hmore⟩ := decode_question_of_names hnames
    rw [hdecode, ← hmore]
    simp
  · by_cases hname : ∃ labels, Names name labels
    · obtain ⟨labels, hnames⟩ := hname
      obtain ⟨more, hdecode, -⟩ := decode_question_of_names hnames
      refine iff_of_true (fun labels' rest hread => ?_) fun hnone => absurd hnames (hnone labels)
      rw [hdecode] at hread
      exact (Prod.mk.inj (Option.some.inj hread)).1 ▸ hnames
    · rw [not_exists] at hname
      rw [← decode_eq_none_iff (decode_padding name), ← question_eq, Option.eq_none_iff_forall_ne_some]
      exact ⟨fun h _ read hread => hname _ (h _ _ hread), fun h labels rest hread => absurd hread (h hname _)⟩

/-- `sysmon.org.`, with the dot. -/
def withDot : List UInt8 := [115, 121, 115, 109, 111, 110, 46, 111, 114, 103, 46]

/-- Between the name and the type there is an octet that belongs to neither. -/
theorem withDot_not_asked :
    ¬∀ (name : List UInt8) (aa recursion : Bool) (requestId : UInt16), AsksFor name aa recursion requestId := by
  intro h
  have hnames : Names withDot [[115, 121, 115, 109, 111, 110], [111, 114, 103]] :=
    ⟨by decide, Or.inr (by decide)⟩
  obtain ⟨packet, hpacket, hquery, -⟩ := h withDot false true 1
  rw [dnsPacket_eq, if_pos (by decide)] at hpacket
  obtain rfl := Option.some.inj hpacket
  have hwell := wellFormedQuery_header.mp (hquery _ hnames (by unfold WithinLimit; decide))
  obtain ⟨more, hdecode, hmore⟩ := decode_question_of_names hnames
  rw [hdecode] at hwell
  have hend := (hmore.mp (by simpa using hwell)).2
  exact absurd hend (by decide)

end Sysmon.Dns
