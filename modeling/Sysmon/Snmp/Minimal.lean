import Sysmon.Snmp.Get

/-!
# Lengths in front of contents

`bw_close` fills in the length of an element where three bytes were kept free for it. Whatever is in the buffer in front of
these bytes and behind them, elements that were closed before or are still open, stays as it is. The length is as short as it
can be, unless the contents want one length byte more than the short form has: then there are two.
-/

namespace Sysmon.Snmp

variable {w : BerWriter} {start : Nat}

/-- There are contents with room for the length in front of them, and `bw_close` closes them. -/
structure Closes (w : BerWriter) (start : Nat) : Prop where
  reserved : 3 ≤ start
  within : start ≤ w.bytes.length
  fits : w.overflow = false
  size : w.bytes.length - start < 0x10000

/-- The length in front of the contents is as short as it can be, and everything else is as it was. -/
def ClosesShortest (w : BerWriter) (start : Nat) : Prop :=
  ∃ header, Ber.Shortest header (w.bytes.length - start) ∧
    bwClose w start = { w with bytes := w.bytes.take (start - 3) ++ header ++ w.bytes.drop start }

/-- The three bytes that were kept free. -/
theorem Closes.split (h : Closes w start) :
    ∃ x y z, w.bytes = w.bytes.take (start - 3) ++ x :: y :: z :: w.bytes.drop start := by
  obtain ⟨hreserved, hwithin, -, -⟩ := h
  have hdrop : w.bytes.drop start = (w.bytes.drop (start - 3)).drop 3 := by
    rw [List.drop_drop, Nat.sub_add_cancel hreserved]
  have hlen : 3 ≤ (w.bytes.drop (start - 3)).length := by
    rw [List.length_drop]
    omega
  have hparts := List.take_append_drop (start - 3) w.bytes
  rw [hdrop]
  match hrest : w.bytes.drop (start - 3), hlen with
  | x :: y :: z :: content, _ =>
      rw [hrest] at hparts
      exact ⟨x, y, z, hparts.symm⟩

theorem bwClose_eq (h : Closes w start) :
    bwClose w start = { w with
      bytes := w.bytes.take (start - 3) ++ Ber.lengthBytes (w.bytes.length - start) ++ w.bytes.drop start } := by
  obtain ⟨x, y, z, hsplit⟩ := h.split
  have hbefore : (w.bytes.take (start - 3)).length + 3 = start := by
    have hreserved := h.reserved
    have hwithin := h.within
    rw [List.length_take]
    omega
  have hclose := bwClose_of_reserved h.fits hsplit
  rw [hbefore, List.length_drop, if_pos h.size] at hclose
  exact hclose

/-- For every buffer and every place in it where contents begin: the length is the shortest exactly if it is not one that
takes a single byte in the long form. -/
theorem bwClose_shortest_iff (h : Closes w start) :
    ClosesShortest w start ↔ ¬(128 ≤ w.bytes.length - start ∧ w.bytes.length - start < 256) := by
  rw [ClosesShortest, bwClose_eq h, ← Ber.lengthBytes_eq_shortLength_iff]
  constructor
  · rintro ⟨header, hshortest, hbytes⟩
    have hheader : Ber.lengthBytes (w.bytes.length - start) = header :=
      List.append_cancel_left (List.append_cancel_right (congrArg BerWriter.bytes hbytes))
    rw [hheader]
    exact (Ber.shortest_iff h.size).mp hshortest
  · intro hheader
    exact ⟨Ber.lengthBytes (w.bytes.length - start), (Ber.shortest_iff h.size).mpr hheader, rfl⟩

/-- One byte of contents. -/
theorem bwClose_shortest_one : ClosesShortest ⟨16, [0x04, 0, 0, 0, 97], false⟩ 4 :=
  (bwClose_shortest_iff ⟨by decide, by decide, rfl, by decide⟩).mpr (by decide)

/-- A string of 128 bytes, as `bw_string` leaves it to be closed, takes two length bytes where one would do. -/
theorem bwClose_not_shortest : ¬∀ w start, Closes w start → ClosesShortest w start := by
  intro h
  have hlen : ([0x04, 0, 0, 0] ++ List.replicate 128 (97 : UInt8)).length - 4 = 128 := by simp
  have hcloses : Closes ⟨1024, [0x04, 0, 0, 0] ++ List.replicate 128 97, false⟩ 4 :=
    ⟨by decide, by simp, rfl, by simp⟩
  obtain ⟨header, hshortest, hbytes⟩ := h _ _ hcloses
  rw [bwClose_eq hcloses] at hbytes
  have hheader := List.append_cancel_left (List.append_cancel_right (congrArg BerWriter.bytes hbytes))
  dsimp only at hshortest hheader
  rw [hlen] at hshortest hheader
  have hle := hshortest.2 [0x81, 128] (by decide)
  rw [← hheader] at hle
  exact absurd hle (by decide)

end Sysmon.Snmp
