import Ibase.Lib.StreamDecoder
import Ibase.Packet

/-!
# `parse_packet` as a decoder of a stream

`frameVerdict` says, in natural numbers and of the unread bytes alone, what
`parse_packet` does with the byte it stands on: pass it, pass a whole header,
wait, or take a frame.  None of these changes when more bytes arrive
(`frameDecoder`), and `parsePacket_fst` and `parsePacket_snd` say that the loop of
the source, with its wrapping 32-bit sums, is this decoder run up to its first frame.
-/

namespace Ibase

open NetworkOrder StreamDecoder

@[simp] theorem headerLength_toNat : headerLength.toNat = 15 := rfl
@[simp] theorem maxBodyLength_toNat : maxBodyLength.toNat = 16369 := rfl
@[simp] theorem maxPacketLength_toNat : maxPacketLength.toNat = 16384 := rfl

/-- The packet that `parse_packet` builds at the start of these bytes. -/
def packetAt (s : List UInt8) : Packet :=
  Packet.new (PacketHeader.ofBytes s).cmd (PacketHeader.ofBytes s).seq
    ((PacketHeader.ofBytes s).isPush == 1) (PacketHeader.ofBytes s)
    (some (s.drop headerLength.toNat)) (PacketHeader.ofBytes s).bodyLen

/-- How long the frame is that the header at the start of these bytes announces. -/
def frameSize (s : List UInt8) : Nat := 15 + (PacketHeader.ofBytes s).bodyLen.toNat

/-- What `parse_packet` does with the unread bytes. -/
def frameVerdict (s : List UInt8) : Verdict Packet :=
  match s with
  | [] => .more
  | b :: _ =>
    if b ≠ packetBeginFlag then .skip 1
    else if s.length < 15 then .more
    else if calcCrc8 s 14 ≠ (PacketHeader.ofBytes s).crc then .skip 1
    else if maxBodyLength < (PacketHeader.ofBytes s).bodyLen then .skip 15
    else if s.length < frameSize s then .more
    else .frame (packetAt s) (frameSize s)

/-! ### The header does not move -/

theorem ofBytes_append {s : List UInt8} (t : List UInt8) (h : 15 ≤ s.length) :
    PacketHeader.ofBytes (s ++ t) = PacketHeader.ofBytes s := by
  have hs : s = (PacketHeader.ofBytes s).bytes ++ s.drop 15 := by
    rw [PacketHeader.bytes_ofBytes s h, List.take_append_drop]
  conv_lhs => rw [hs, List.append_assoc, PacketHeader.ofBytes_bytes]

theorem calcCrc8_append {s : List UInt8} (t : List UInt8) {n : Nat} (h : n ≤ s.length) :
    calcCrc8 (s ++ t) n = calcCrc8 s n := by
  rw [calcCrc8, calcCrc8, List.take_append_of_le_length h]

theorem frameSize_append {s : List UInt8} (t : List UInt8) (h : 15 ≤ s.length) :
    frameSize (s ++ t) = frameSize s := by
  rw [frameSize, frameSize, ofBytes_append t h]

/-- A complete frame is the bytes it was read from. -/
theorem data_packetAt {s : List UInt8} (h : 15 ≤ s.length) :
    (packetAt s).data = s.take (frameSize s) := by
  show (PacketHeader.ofBytes s).bytes ++ (s.drop 15).take _ = _
  rw [PacketHeader.bytes_ofBytes s h, frameSize, List.take_add]

theorem packetAt_append {s : List UInt8} (t : List UInt8) (h : frameSize s ≤ s.length) :
    packetAt (s ++ t) = packetAt s := by
  have h15 : 15 ≤ s.length := by
    rw [frameSize] at h
    omega
  have hbody : ((s ++ t).drop 15).take (PacketHeader.ofBytes s).bodyLen.toNat
      = (s.drop 15).take (PacketHeader.ofBytes s).bodyLen.toNat := by
    rw [List.drop_append_of_le_length h15]
    apply List.take_append_of_le_length
    rw [List.length_drop]
    rw [frameSize] at h
    omega
  rw [packetAt, packetAt, ofBytes_append t h15]
  simp only [Packet.new, headerLength_toNat, hbody]

/-! ### The verdicts, one by one -/

theorem frameVerdict_noFlag {b : UInt8} (s : List UInt8) (h : b ≠ packetBeginFlag) :
    frameVerdict (b :: s) = .skip 1 := by
  rw [frameVerdict, if_pos h]

theorem frameVerdict_flag {s : List UInt8} (h : s.head? = some packetBeginFlag) :
    frameVerdict s =
      if s.length < 15 then .more
      else if calcCrc8 s 14 ≠ (PacketHeader.ofBytes s).crc then .skip 1
      else if maxBodyLength < (PacketHeader.ofBytes s).bodyLen then .skip 15
      else if s.length < frameSize s then .more
      else .frame (packetAt s) (frameSize s) := by
  cases s with
  | nil => exact absurd h (by simp)
  | cons b rest =>
    have hb : b = packetBeginFlag := by simpa using h
    rw [frameVerdict, if_neg (by simp [hb])]

theorem frameVerdict_short {s : List UInt8} (h : s.head? = some packetBeginFlag)
    (hlen : s.length < 15) : frameVerdict s = .more := by
  rw [frameVerdict_flag h, if_pos hlen]

/-- A header that passes the CRC lies at the front of these bytes. -/
def Checked (s : List UInt8) : Prop :=
  s.head? = some packetBeginFlag ∧ 15 ≤ s.length ∧ calcCrc8 s 14 = (PacketHeader.ofBytes s).crc

/-- A frame starts here, complete or not. -/
def FrameStart (s : List UInt8) : Prop :=
  Checked s ∧ (PacketHeader.ofBytes s).bodyLen ≤ maxBodyLength

/-- A header that passes the CRC and announces more than a packet can hold. -/
def Oversized (s : List UInt8) : Prop :=
  Checked s ∧ maxBodyLength < (PacketHeader.ofBytes s).bodyLen

instance (s : List UInt8) : Decidable (Checked s) := instDecidableAnd
instance (s : List UInt8) : Decidable (FrameStart s) := instDecidableAnd
instance (s : List UInt8) : Decidable (Oversized s) := instDecidableAnd

/-- What a checked header announces fits a packet or does not. -/
theorem Checked.oversized_or_frameStart {s : List UInt8} (h : Checked s) :
    Oversized s ∨ FrameStart s :=
  (UInt32.lt_or_le maxBodyLength (PacketHeader.ofBytes s).bodyLen).imp (⟨h, ·⟩) (⟨h, ·⟩)

theorem frameVerdict_not_checked {s : List UInt8} (h15 : 15 ≤ s.length) (h : ¬ Checked s) :
    frameVerdict s = .skip 1 := by
  by_cases hf : s.head? = some packetBeginFlag
  · have hcrc : calcCrc8 s 14 ≠ (PacketHeader.ofBytes s).crc := fun hc => h ⟨hf, h15, hc⟩
    rw [frameVerdict_flag hf, if_neg (Nat.not_lt.mpr h15), if_pos hcrc]
  · cases s with
    | nil => exact absurd h15 (by decide)
    | cons b rest => exact frameVerdict_noFlag rest (fun hb => hf (by rw [hb]; rfl))

theorem frameVerdict_oversized {s : List UInt8} (h : Oversized s) : frameVerdict s = .skip 15 := by
  obtain ⟨⟨hf, h15, hcrc⟩, hbig⟩ := h
  rw [frameVerdict_flag hf, if_neg (Nat.not_lt.mpr h15), if_neg (not_not.mpr hcrc), if_pos hbig]

theorem frameVerdict_frameStart {s : List UInt8} (h : FrameStart s) :
    frameVerdict s =
      if s.length < frameSize s then .more else .frame (packetAt s) (frameSize s) := by
  obtain ⟨⟨hf, h15, hcrc⟩, hle⟩ := h
  rw [frameVerdict_flag hf, if_neg (Nat.not_lt.mpr h15), if_neg (not_not.mpr hcrc),
    if_neg (UInt32.not_lt.mpr hle)]

/-- **A packet is taken where a complete frame starts.** -/
theorem frameStart_of_frame {s : List UInt8} {p : Packet} {n : Nat}
    (h : frameVerdict s = .frame p n) :
    FrameStart s ∧ frameSize s ≤ s.length ∧ p = packetAt s ∧ n = frameSize s := by
  by_cases h15 : 15 ≤ s.length
  · by_cases hc : Checked s
    · rcases hc.oversized_or_frameStart with hbig | hstart
      · rw [frameVerdict_oversized hbig] at h
        exact absurd h (by simp)
      · rw [frameVerdict_frameStart hstart] at h
        split at h
        · exact absurd h (by simp)
        · rename_i hlen
          injection h with hp hn
          exact ⟨hstart, Nat.le_of_not_lt hlen, hp.symm, hn.symm⟩
    · rw [frameVerdict_not_checked h15 hc] at h
      exact absurd h (by simp)
  · -- fewer bytes than a header are never a frame
    cases s with
    | nil => exact absurd h (by simp [frameVerdict])
    | cons b rest =>
      rw [frameVerdict] at h
      split at h
      · exact absurd h (by simp)
      · rw [if_pos (Nat.lt_of_not_le h15)] at h
        exact absurd h (by simp)

theorem frameVerdict_size_pos (s : List UInt8) (h : frameVerdict s ≠ .more) :
    0 < (frameVerdict s).size := by
  cases s with
  | nil => exact absurd rfl h
  | cons b rest =>
    rw [frameVerdict] at h ⊢
    split_ifs at h ⊢
    · exact Nat.one_pos
    · exact absurd rfl h
    · exact Nat.one_pos
    · exact Nat.succ_pos 14
    · exact absurd rfl h
    · show 0 < frameSize (b :: rest)
      rw [frameSize]
      omega

theorem frameVerdict_size_le (s : List UInt8) : (frameVerdict s).size ≤ s.length := by
  cases s with
  | nil => exact Nat.zero_le _
  | cons b rest =>
    have hone : 1 ≤ (b :: rest).length := Nat.succ_pos rest.length
    rw [frameVerdict]
    split_ifs with _ h15 _ _ hfull
    · exact hone
    · exact Nat.zero_le _
    · exact hone
    · exact Nat.le_of_not_lt h15
    · exact Nat.zero_le _
    · exact Nat.le_of_not_lt hfull

/-- **A decision of the parser is not changed by later bytes.** -/
theorem frameVerdict_append (s t : List UInt8) (h : frameVerdict s ≠ .more) :
    frameVerdict (s ++ t) = frameVerdict s := by
  cases s with
  | nil => exact absurd rfl h
  | cons b rest =>
    by_cases hb : b = packetBeginFlag
    · have hhead : (b :: rest).head? = some packetBeginFlag := by rw [hb]; rfl
      have hhead' : (b :: rest ++ t).head? = some packetBeginFlag := by rw [hb]; rfl
      generalize b :: rest = s at h hhead hhead' ⊢
      rw [frameVerdict_flag hhead] at h
      rw [frameVerdict_flag hhead, frameVerdict_flag hhead']
      by_cases h15 : s.length < 15
      · rw [if_pos h15] at h
        exact absurd rfl h
      · rw [if_neg h15] at h ⊢
        have hge : 15 ≤ s.length := by omega
        rw [if_neg (show ¬ (s ++ t).length < 15 by rw [List.length_append]; omega),
          calcCrc8_append t (show 14 ≤ s.length by omega), ofBytes_append t hge,
          frameSize_append t hge]
        by_cases hfull : s.length < frameSize s
        · -- the frame is not complete, so the decision was one of the two skips
          rw [if_pos hfull] at h ⊢
          split_ifs at h ⊢ <;> first | rfl | exact absurd rfl h
        · rw [if_neg hfull,
            if_neg (show ¬ (s ++ t).length < frameSize s by rw [List.length_append]; omega),
            packetAt_append t (by omega)]
    · rw [List.cons_append, frameVerdict_noFlag _ hb, frameVerdict_noFlag _ hb]

/-- **`parse_packet`'s framing as a decoder that can be cut anywhere.** -/
def frameDecoder : Decoder UInt8 Packet where
  verdict := frameVerdict
  size_pos := frameVerdict_size_pos
  size_le := frameVerdict_size_le
  stable := frameVerdict_append

/-- The bytes of the first packet are the last ones that are settled with it. -/
theorem first_data {s : List UInt8} {p : Packet} (h : (frameDecoder.first s).1 = some p) :
    p.data.length ≤ (frameDecoder.first s).2 ∧
      (s.take (frameDecoder.first s).2).drop ((frameDecoder.first s).2 - p.data.length) = p.data := by
  induction s using frameDecoder.verdict_induction with
  | more s hv =>
    rw [frameDecoder.first_more hv] at h
    exact absurd h (by simp)
  | skip s n hv ih =>
    rw [frameDecoder.first_skip hv] at h ⊢
    have hle := frameDecoder.size_le s
    rw [hv, Verdict.size_skip] at hle
    obtain ⟨hlen, hdata⟩ := ih h
    refine ⟨Nat.le_trans hlen (Nat.le_add_left ..), ?_⟩
    rw [List.take_add, Nat.add_sub_assoc hlen, ← List.drop_drop, List.drop_left' (by rw [List.length_take]; omega)]
    exact hdata
  | frame s b n hv _ =>
    rw [frameDecoder.first_frame hv] at h ⊢
    obtain rfl := Option.some.inj h
    have hle := frameDecoder.size_le s
    rw [hv, Verdict.size_frame] at hle
    have hdata : b.data = s.take n := by
      obtain ⟨⟨⟨_, h15, _⟩, _⟩, _, hb, hn⟩ := frameStart_of_frame hv
      rw [hb, hn]
      exact data_packetAt h15
    have hlen : b.data.length = n := by
      rw [hdata, List.length_take]
      omega
    show b.data.length ≤ n ∧ (s.take n).drop (n - b.data.length) = b.data
    rw [hlen, Nat.sub_self, List.drop_zero, hdata]
    exact ⟨Nat.le_refl _, rfl⟩

/-! ### The loop of the source

From here `buf` is `buf[0, buf_len)` exactly, and `c` is the value of
`consume_len` at the start of a round. -/

theorem headD_drop_findIdx (s : List UInt8) (p : UInt8 → Bool) :
    s.drop (s.findIdx p) = [] ∨ ∃ b, (s.drop (s.findIdx p)).head? = some b ∧ p b = true := by
  rcases Nat.lt_or_ge (s.findIdx p) s.length with hlt | hge
  · refine Or.inr ⟨s[s.findIdx p], ?_, List.findIdx_getElem⟩
    rw [List.head?_drop, List.getElem?_eq_getElem hlt]
  · exact Or.inl (List.drop_eq_nil_of_le hge)

/-- Passing the bytes before the next flag settles nothing but these bytes. -/
theorem first_drop_findIdx (s : List UInt8) :
    frameDecoder.first s =
      ((frameDecoder.first (s.drop (s.findIdx (· == packetBeginFlag)))).1,
        s.findIdx (· == packetBeginFlag) +
          (frameDecoder.first (s.drop (s.findIdx (· == packetBeginFlag)))).2) := by
  induction s with
  | nil => simp
  | cons b rest ih =>
    by_cases hb : b = packetBeginFlag
    · have hzero : (b :: rest).findIdx (· == packetBeginFlag) = 0 := by
        rw [List.findIdx_cons, hb]
        rfl
      rw [hzero, List.drop_zero, Nat.zero_add]
    · have hsucc : (b :: rest).findIdx (· == packetBeginFlag)
          = rest.findIdx (· == packetBeginFlag) + 1 := by
        rw [List.findIdx_cons, beq_false_of_ne hb]
        rfl
      rw [frameDecoder.first_skip (s := b :: rest) (frameVerdict_noFlag rest hb), List.drop_one, List.tail_cons, ih,
        hsucc, List.drop_succ_cons]
      simp only [Prod.mk.injEq, true_and]
      omega

theorem skipToFlag_toNat {buf : List UInt8} {bufLen c : UInt32} (hbuf : buf.length = bufLen.toNat)
    (hc : c.toNat ≤ bufLen.toNat) :
    (skipToFlag buf bufLen c).toNat =
      c.toNat + (buf.drop c.toNat).findIdx (· == packetBeginFlag) := by
  have hle : (buf.drop c.toNat).findIdx (· == packetBeginFlag) ≤ (buf.drop c.toNat).length :=
    List.findIdx_le_length
  have hlt : bufLen.toNat < 2 ^ 32 := bufLen.toNat_lt
  rw [List.length_drop] at hle
  rw [skipToFlag, ← hbuf, List.take_length, UInt32.toNat_add, UInt32.toNat_ofNat']
  omega

/-- What one round of the loop does, by the verdict on the bytes from the next
flag on. -/
theorem parseRound_spec {buf : List UInt8} {bufLen c : UInt32} (hbuf : buf.length = bufLen.toNat)
    (hc : c.toNat ≤ bufLen.toNat) :
    ∃ d : UInt32, d.toNat = (skipToFlag buf bufLen c).toNat
        + (frameVerdict (buf.drop (skipToFlag buf bufLen c).toNat)).size ∧
      d.toNat ≤ bufLen.toNat ∧
      parseRound buf bufLen c =
        match frameVerdict (buf.drop (skipToFlag buf bufLen c).toNat) with
        | .more => .done none d
        | .skip _ => .next d
        | .frame packet _ => .done (some packet) d := by
  have hk := skipToFlag_toNat hbuf hc
  have hle : (buf.drop c.toNat).findIdx (· == packetBeginFlag) ≤ (buf.drop c.toNat).length :=
    List.findIdx_le_length
  have hhead := headD_drop_findIdx (buf.drop c.toNat) (· == packetBeginFlag)
  rw [List.drop_drop, ← hk] at hhead
  rw [List.length_drop] at hle
  have hpos : (skipToFlag buf bufLen c).toNat ≤ bufLen.toNat := by omega
  have hlt : bufLen.toNat < 2 ^ 32 := bufLen.toNat_lt
  rw [parseRound]
  generalize skipToFlag buf bufLen c = p at *
  have hvalid : (bufLen - p).toNat = (buf.drop p.toNat).length := by
    rw [UInt32.toNat_sub_of_le _ _ (UInt32.le_iff_toNat_le.mpr hpos), List.length_drop, hbuf]
  have hshort : bufLen - p < headerLength ↔ (buf.drop p.toNat).length < 15 := by
    rw [UInt32.lt_iff_toNat_lt, hvalid, headerLength_toNat]
  have hsize := frameVerdict_size_le (buf.drop p.toNat)
  have hroom : p.toNat + (buf.drop p.toNat).length = bufLen.toNat := by
    rw [List.length_drop, hbuf]
    omega
  generalize hs : buf.drop p.toNat = s at *
  have hflag : s = [] ∨ s.head? = some packetBeginFlag := by
    rcases hhead with h | ⟨b, h, hb⟩
    · exact Or.inl h
    · exact Or.inr (by rw [h, beq_iff_eq.mp hb])
  by_cases h15 : s.length < 15
  · -- fewer bytes than a header: the round returns where it stands
    have hv : frameVerdict s = .more := by
      rcases hflag with h | h
      · rw [h]; rfl
      · exact frameVerdict_short h h15
    refine ⟨p, by rw [hv]; rfl, hpos, ?_⟩
    rw [hv, if_pos (hshort.mpr h15)]
  · have hf : s.head? = some packetBeginFlag := by
      rcases hflag with h | h
      · exact absurd (by rw [h]; decide) h15
      · exact h
    rw [frameVerdict_flag hf, if_neg h15] at hsize ⊢
    rw [if_neg (mt hshort.mp h15)]
    by_cases hcrc : calcCrc8 s 14 ≠ (PacketHeader.ofBytes s).crc
    · rw [if_pos hcrc] at hsize ⊢
      have hd : (p + 1).toNat = p.toNat + 1 := by
        rw [UInt32.toNat_add, UInt32.toNat_one]
        omega
      exact ⟨p + 1, hd, by omega, by rw [if_pos hcrc]⟩
    · rw [if_neg hcrc] at hsize ⊢
      rw [if_neg hcrc]
      by_cases hbig : maxBodyLength < (PacketHeader.ofBytes s).bodyLen
      · rw [if_pos hbig] at hsize ⊢
        have hd : (p + headerLength).toNat = p.toNat + 15 := by
          rw [UInt32.toNat_add, headerLength_toNat]
          omega
        exact ⟨p + headerLength, hd, by omega, by rw [if_pos hbig]⟩
      · -- within the limit the sum of the two lengths does not wrap
        rw [if_neg hbig] at hsize ⊢
        rw [if_neg hbig]
        have hmax : (PacketHeader.ofBytes s).bodyLen.toNat ≤ 16369 := by
          have := mt UInt32.lt_iff_toNat_lt.mpr hbig
          rw [maxBodyLength_toNat] at this
          omega
        have hsum : (headerLength + (PacketHeader.ofBytes s).bodyLen).toNat = frameSize s := by
          rw [UInt32.toNat_add, headerLength_toNat, frameSize]
          omega
        have hfull : bufLen - p < headerLength + (PacketHeader.ofBytes s).bodyLen ↔
            s.length < frameSize s := by
          rw [UInt32.lt_iff_toNat_lt, hvalid, hsum]
        by_cases hwait : s.length < frameSize s
        · exact ⟨p, by rw [if_pos hwait]; rfl, hpos, by rw [if_pos hwait, if_pos (hfull.mpr hwait)]⟩
        · rw [if_neg hwait] at hsize ⊢
          rw [if_neg (mt hfull.mp hwait)]
          have hd : (p + (headerLength + (PacketHeader.ofBytes s).bodyLen)).toNat
              = p.toNat + frameSize s := by
            rw [Verdict.size_frame] at hsize
            rw [UInt32.toNat_add, hsum]
            omega
          exact ⟨_, hd, by rw [hd]; rw [Verdict.size_frame] at hsize; omega, rfl⟩

theorem parseLoop_spec {buf : List UInt8} {bufLen : UInt32} (hbuf : buf.length = bufLen.toNat) :
    ∀ (rounds : Nat) (c : UInt32), c.toNat ≤ bufLen.toNat → bufLen.toNat - c.toNat < rounds →
      (parseLoop buf bufLen rounds c).1 = (frameDecoder.first (buf.drop c.toNat)).1 ∧
      (parseLoop buf bufLen rounds c).2.toNat
        = c.toNat + (frameDecoder.first (buf.drop c.toNat)).2 := by
  intro rounds
  induction rounds with
  | zero => intro c _ hr; exact absurd hr (Nat.not_lt_zero _)
  | succ rounds ih =>
    intro c hc hr
    obtain ⟨d, hd, hdle, hround⟩ := parseRound_spec hbuf hc
    have hk := skipToFlag_toNat hbuf hc
    rw [first_drop_findIdx, List.drop_drop, ← hk, parseLoop, hround]
    cases hv : frameVerdict (buf.drop (skipToFlag buf bufLen c).toNat) with
    | more =>
      rw [frameDecoder.first_more hv]
      rw [hv, Verdict.size_more] at hd
      exact ⟨rfl, by simp only; omega⟩
    | skip n =>
      have hpos := frameVerdict_size_pos _ (by rw [hv]; simp)
      rw [hv, Verdict.size_skip] at hd hpos
      obtain ⟨ih1, ih2⟩ := ih d hdle (by omega)
      rw [frameDecoder.first_skip hv, List.drop_drop, ← hd]
      exact ⟨ih1, by simp only; rw [ih2]; omega⟩
    | frame packet n =>
      rw [frameDecoder.first_frame hv]
      rw [hv, Verdict.size_frame] at hd
      exact ⟨rfl, by simp only; omega⟩

/-- **`parse_packet` is the decoder run up to its first frame.** -/
theorem parsePacket_fst {buf : List UInt8} {bufLen : UInt32} (hbuf : buf.length = bufLen.toNat) :
    (parsePacket buf bufLen).1 = (frameDecoder.first buf).1 := by
  have h := (parseLoop_spec hbuf (bufLen.toNat + 1) 0 (Nat.zero_le _) (by simp)).1
  rwa [UInt32.toNat_zero, List.drop_zero] at h

theorem parsePacket_snd {buf : List UInt8} {bufLen : UInt32} (hbuf : buf.length = bufLen.toNat) :
    (parsePacket buf bufLen).2.toNat = (frameDecoder.first buf).2 := by
  have h := (parseLoop_spec hbuf (bufLen.toNat + 1) 0 (Nat.zero_le _) (by simp)).2
  rwa [UInt32.toNat_zero, List.drop_zero, Nat.zero_add] at h

/-! ### What the encoder emits -/

/-- A packet made by `build_packet` from a body of its length, or from no body;
the size, as a natural number, is within the bound that `build_packet` checks. -/
def Built (p : Packet) : Prop :=
  ∃ (cmd seq : UInt32) (isPush : Bool) (bodyBuf : Option (List UInt8)) (bodyLen : UInt32),
    headerLength.toNat + bodyLen.toNat ≤ maxBodyLength.toNat ∧
    (∀ buf ∈ bodyBuf, bodyLen.toNat ≤ buf.length) ∧
    buildPacket cmd seq isPush bodyBuf bodyLen = some p

/-- The three tests of `parse_packet` as they come out on a frame of the encoder. -/
structure Emitted (p : Packet) : Prop where
  ofBytes_eq : ∀ t, PacketHeader.ofBytes (p.data ++ t) =
    buildHeader p.cmd p.seq p.isPush p.bodyLength
  header_take : p.data.take 15 = (buildHeader p.cmd p.seq p.isPush p.bodyLength).bytes
  length_data : p.data.length = 15 + p.bodyLength.toNat
  bodyLength_le : p.bodyLength.toNat ≤ 16369

/-- What the constructor makes of the header of `build_packet`, for every body
that `parse_packet` lets pass. -/
theorem emitted_new {cmd seq : UInt32} {isPush : Bool} {bodyBuf : Option (List UInt8)}
    {bodyLen : UInt32} (hle : bodyLen.toNat ≤ 16369)
    (hbody : ∀ buf ∈ bodyBuf, bodyLen.toNat ≤ buf.length) :
    Emitted (Packet.new cmd seq isPush (buildHeader cmd seq isPush bodyLen) bodyBuf bodyLen) := by
  refine ⟨?_, ?_, ?_, hle⟩
  · intro t
    show PacketHeader.ofBytes ((PacketHeader.bytes _ ++ _) ++ t) = _
    rw [List.append_assoc, PacketHeader.ofBytes_bytes]
    rfl
  · exact List.take_left' (PacketHeader.length_bytes _)
  · show (PacketHeader.bytes _ ++ _).length = _
    rw [List.length_append, PacketHeader.length_bytes]
    cases bodyBuf with
    | none =>
      rw [List.length_replicate]
      rfl
    | some buf =>
      rw [List.length_take, Nat.min_eq_left (hbody buf rfl)]
      rfl

theorem Built.emitted {p : Packet} (h : Built p) : Emitted p := by
  obtain ⟨cmd, seq, isPush, bodyBuf, bodyLen, hle, hbody, hp⟩ := h
  rw [headerLength_toNat, maxBodyLength_toNat] at hle
  rw [buildPacket] at hp
  split at hp
  · exact absurd hp (by simp)
  · rw [← Option.some.inj hp]
    exact emitted_new (by omega) hbody

/-- The whole frame is written. -/
theorem Emitted.wire_eq {p : Packet} (h : Emitted p) : p.wire = p.data := by
  have hle := h.bodyLength_le
  have hlen : p.length.toNat = p.data.length := by
    rw [h.length_data, Packet.length, UInt32.toNat_add, headerLength_toNat]
    exact Nat.mod_eq_of_lt (by omega)
  rw [Packet.wire, hlen, List.take_length]

theorem Emitted.head? {p : Packet} (h : Emitted p) : p.data.head? = some packetBeginFlag := by
  have h1 : (p.data.take 15).head? = p.data.head? := by rw [List.head?_take, if_neg (by decide)]
  rw [← h1, h.header_take]
  rfl

theorem Emitted.calcCrc8_eq {p : Packet} (h : Emitted p) (t : List UInt8) :
    calcCrc8 (p.data ++ t) 14 = (PacketHeader.ofBytes (p.data ++ t)).crc := by
  have hlen := h.length_data
  have htake : (p.data ++ t).take 14 =
      (buildHeader p.cmd p.seq p.isPush p.bodyLength).bytes.take 14 := by
    rw [List.take_append_of_le_length (by omega), ← h.header_take, List.take_take,
      Nat.min_eq_left (by decide)]
  rw [h.ofBytes_eq, calcCrc8, htake]
  rfl

theorem Emitted.frameSize_eq {p : Packet} (h : Emitted p) (t : List UInt8) :
    frameSize (p.data ++ t) = p.data.length := by
  rw [frameSize, h.ofBytes_eq, h.length_data]
  rfl

theorem Emitted.packetAt_eq {p : Packet} (h : Emitted p) (t : List UInt8) :
    packetAt (p.data ++ t) = p := by
  have hlen := h.length_data
  have hdata : (packetAt (p.data ++ t)).data = p.data := by
    rw [data_packetAt (by rw [List.length_append]; omega), h.frameSize_eq, List.take_left]
  have hpush : ((buildHeader p.cmd p.seq p.isPush p.bodyLength).isPush == 1) = p.isPush := by
    show ((if p.isPush then (1 : UInt8) else 0) == 1) = p.isPush
    cases p.isPush <;> rfl
  have hfields : (packetAt (p.data ++ t)).cmd = p.cmd ∧ (packetAt (p.data ++ t)).seq = p.seq ∧
      (packetAt (p.data ++ t)).isPush = p.isPush ∧
      (packetAt (p.data ++ t)).bodyLength = p.bodyLength := by
    rw [packetAt, h.ofBytes_eq]
    exact ⟨rfl, rfl, hpush, rfl⟩
  obtain ⟨h1, h2, h3, h4⟩ := hfields
  generalize packetAt (p.data ++ t) = q at hdata h1 h2 h3 h4
  obtain ⟨data, cmd, seq, isPush, bodyLength⟩ := q
  obtain ⟨data', cmd', seq', isPush', bodyLength'⟩ := p
  exact (Packet.mk.injEq ..).mpr ⟨hdata, h1, h2, h3, h4⟩

theorem Emitted.not_oversized {p : Packet} (h : Emitted p) (t : List UInt8) :
    ¬ maxBodyLength < (PacketHeader.ofBytes (p.data ++ t)).bodyLen := by
  have hle := h.bodyLength_le
  rw [h.ofBytes_eq, UInt32.lt_iff_toNat_lt, maxBodyLength_toNat]
  exact Nat.not_lt.mpr hle

/-- The parser takes a frame of the encoder as it is. -/
theorem Emitted.frameVerdict_data {p : Packet} (h : Emitted p) (t : List UInt8) :
    frameVerdict (p.data ++ t) = .frame p p.data.length := by
  have hlen := h.length_data
  have hall : (p.data ++ t).length = p.data.length + t.length := List.length_append
  have hhead : (p.data ++ t).head? = some packetBeginFlag := by
    rw [List.head?_append_of_ne_nil _ (List.ne_nil_of_length_pos (by omega)), h.head?]
  rw [frameVerdict_flag hhead, if_neg (by omega), if_neg (not_not.mpr (h.calcCrc8_eq t)),
    if_neg (h.not_oversized t), if_neg (by rw [h.frameSize_eq]; omega), h.packetAt_eq,
    h.frameSize_eq]

/-- The parser waits for the rest of a frame of the encoder. -/
theorem Emitted.frameVerdict_prefix {p : Packet} (h : Emitted p) {s : List UInt8}
    (hpre : s <+: p.data) (hlt : s.length < p.data.length) : frameVerdict s = .more := by
  cases hs : s with
  | nil => rfl
  | cons b rest =>
    rw [← hs]
    obtain ⟨t, ht⟩ := hpre
    have hhead := h.head?
    rw [← ht, List.head?_append_of_ne_nil _ (by rw [hs]; simp)] at hhead
    by_cases h15 : s.length < 15
    · exact frameVerdict_short hhead h15
    · -- the header is complete, so it is the header of `p`
      have hle : 15 ≤ s.length := Nat.le_of_not_lt h15
      have hself := List.append_nil p.data
      have hcrc := h.calcCrc8_eq []
      have hover := h.not_oversized []
      have hsize := h.frameSize_eq []
      rw [hself] at hcrc hover hsize
      rw [← ht, ofBytes_append t hle] at hover
      rw [← ht, ofBytes_append t hle, calcCrc8_append t (by omega)] at hcrc
      rw [← ht, frameSize_append t hle, ht] at hsize
      rw [frameVerdict_flag hhead, if_neg h15, if_neg (not_not.mpr hcrc), if_neg hover,
        if_pos (by omega)]

/-- **Decoding undoes encoding**, and stops in front of what it waits on. -/
theorem run_flatMap_data {ps : List Packet} (h : ∀ p ∈ ps, Emitted p) {s : List UInt8}
    (hs : frameVerdict s = .more) : frameDecoder.run (ps.flatMap Packet.data ++ s) = (ps, s) := by
  induction ps with
  | nil => exact frameDecoder.run_more hs
  | cons p ps ih =>
    rw [List.flatMap_cons, List.append_assoc,
      frameDecoder.run_frame ((h p List.mem_cons_self).frameVerdict_data _), List.drop_left,
      ih (fun p' hp' => h p' (List.mem_cons_of_mem _ hp'))]

end Ibase
