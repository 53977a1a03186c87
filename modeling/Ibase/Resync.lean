import Ibase.Codec

/-!
# Where `parse_packet` stops

`parse_packet` passes one byte where no header passes the CRC, and a whole header
where one does but announces too much.  So it misses a frame that starts inside
such a header.  `passing buf i` counts the bytes from `i` on that it passes as
the rest of a header, and `stops_at_frame` says that it stops at the first frame
that does not start in bytes that are passed in this way.
-/

namespace Ibase

open StreamDecoder

/-- How many bytes from `i` on are passed as the rest of an oversized header; a
header that starts in passed bytes counts for nothing. -/
def passing (buf : List UInt8) : Nat → Nat
  | 0 => 0
  | i + 1 =>
    if passing buf i = 0 then if Oversized (buf.drop i) then 14 else 0 else passing buf i - 1

/-- The first frame that does not start in passed bytes starts at `i`. -/
def FirstFrame (buf : List UInt8) (i : Nat) : Prop :=
  FrameStart (buf.drop i) ∧ passing buf i = 0 ∧
    ∀ j < i, FrameStart (buf.drop j) → passing buf j ≠ 0

instance (buf : List UInt8) (i : Nat) : Decidable (FirstFrame buf i) := instDecidableAnd

/-- Up to its first frame the parser stands on every offset that it does not pass
with an oversized header. -/
theorem stands_passing {buf : List UInt8} {i : Nat} (h : FirstFrame buf i) {j : Nat} (hj : j ≤ i) :
    frameDecoder.Stands buf (j + passing buf j) := by
  obtain ⟨hi, -, hleast⟩ := h
  have hlen : 15 ≤ buf.length - i := by
    rw [← List.length_drop]
    exact hi.1.2.1
  induction j with
  | zero => exact .start
  | succ j ih =>
    have hstand := ih (by omega)
    rw [passing]
    by_cases hpass : passing buf j = 0
    · rw [hpass, Nat.add_zero] at hstand
      rw [if_pos hpass]
      by_cases hbig : Oversized (buf.drop j)
      · rw [if_pos hbig]
        have hskip := hstand.skip (frameVerdict_oversized hbig)
        rwa [Nat.add_assoc, Nat.add_comm 1 14]
      · -- neither kind of header, so the parser passes one byte
        have hnot : ¬ Checked (buf.drop j) := by
          intro hc
          rcases hc.oversized_or_frameStart with hover | hstart
          · exact hbig hover
          · exact hleast j (by omega) hstart hpass
        rw [if_neg hbig]
        exact hstand.skip (frameVerdict_not_checked (by rw [List.length_drop]; omega) hnot)
    · rw [if_neg hpass, show j + 1 + (passing buf j - 1) = j + passing buf j by omega]
      exact hstand

/-- **`parse_packet` stops at the first frame that does not start in passed
bytes**: it returns its packet if the frame is complete, and waits at its start
if it is not. -/
theorem stops_at_frame {buf : List UInt8} {bufLen : UInt32} (hbuf : buf.length = bufLen.toNat)
    {i : Nat} (h : FirstFrame buf i) :
    if i + frameSize (buf.drop i) ≤ buf.length then
      ∃ p, (parsePacket buf bufLen).1 = some p ∧
        (parsePacket buf bufLen).2.toNat = i + frameSize (buf.drop i) ∧
        p.data = (buf.drop i).take (frameSize (buf.drop i)) ∧ p = packetAt (buf.drop i)
    else (parsePacket buf bufLen).1 = none ∧ (parsePacket buf bufLen).2.toNat = i := by
  have hstand := stands_passing h (Nat.le_refl i)
  rw [h.2.1, Nat.add_zero] at hstand
  have h15 : 15 ≤ (buf.drop i).length := h.1.1.2.1
  have hv := frameVerdict_frameStart h.1
  rw [parsePacket_fst hbuf, parsePacket_snd hbuf, frameDecoder.first_of_stands hstand]
  rw [List.length_drop] at hv h15
  split
  · rename_i hfull
    rw [if_neg (by omega)] at hv
    rw [frameDecoder.first_frame hv]
    exact ⟨packetAt (buf.drop i), rfl, rfl, data_packetAt h.1.1.2.1, rfl⟩
  · rename_i hpart
    rw [if_pos (by omega)] at hv
    rw [frameDecoder.first_more hv]
    exact ⟨rfl, Nat.add_zero i⟩

/-- A frame behind three bytes of garbage. -/
def garbageFirst : List UInt8 := [1, 0x55, 3] ++ emptyFrame

theorem stops_at_frame_behind_garbage :
    if 3 + frameSize (garbageFirst.drop 3) ≤ garbageFirst.length then
      ∃ p, (parsePacket garbageFirst 18).1 = some p ∧
        (parsePacket garbageFirst 18).2.toNat = 3 + frameSize (garbageFirst.drop 3) ∧
        p.data = (garbageFirst.drop 3).take (frameSize (garbageFirst.drop 3)) ∧
        p = packetAt (garbageFirst.drop 3)
    else (parsePacket garbageFirst 18).1 = none ∧ (parsePacket garbageFirst 18).2.toNat = 3 :=
  stops_at_frame (by decide) (by decide +kernel)

/-- A frame whose flag is the CRC of an oversized header. -/
def coveredFrame : List UInt8 :=
  [0x55, 0, 0, 0, 7, 0, 0, 0, 0x8a, 0, 0xff, 0xff, 0xff, 0xff] ++ emptyFrame

/-- The first frame of the buffer is complete, and `parse_packet` passes it. -/
theorem frame_passed :
    FrameStart (coveredFrame.drop 14) ∧ (∀ j < 14, ¬ FrameStart (coveredFrame.drop j)) ∧
      14 + frameSize (coveredFrame.drop 14) ≤ coveredFrame.length ∧
      parsePacket coveredFrame 29 = (none, 29) := by
  decide +kernel

end Ibase
