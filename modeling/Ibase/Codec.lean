import Ibase.Framing
import Ibase.Origin

/-!
# The encoder beside the decoder

`build_packet` and `parse_packet` each guard the size of a packet, and each has
its own idea of the `is_push` byte.  `packet_fits_iff` says for which lengths
the two guards keep a packet inside `data_`: the sum of `build_packet` wraps,
that of `parse_packet` does not.  `reencode` says what `build_packet` makes of
the parts of a packet that `parse_packet` returned.
-/

namespace Ibase

open NetworkOrder StreamDecoder

/-! ### Only `buf[0, buf_len)` is read -/

theorem ofBytes_take {s : List UInt8} {n : Nat} (h : 15 ≤ n) (hn : n ≤ s.length) :
    PacketHeader.ofBytes (s.take n) = PacketHeader.ofBytes s := by
  have happ := ofBytes_append (s.drop n) (show 15 ≤ (s.take n).length by
    rw [List.length_take]
    omega)
  rwa [List.take_append_drop, eq_comm] at happ

theorem calcCrc8_take {s : List UInt8} {n : Nat} (h : 14 ≤ n) :
    calcCrc8 (s.take n) 14 = calcCrc8 s 14 := by
  rw [calcCrc8, calcCrc8, List.take_take, Nat.min_eq_left h]

theorem skipToFlag_take (buf : List UInt8) (bufLen c : UInt32) :
    skipToFlag (buf.take bufLen.toNat) bufLen c = skipToFlag buf bufLen c := by
  rw [skipToFlag, skipToFlag, List.take_take, Nat.min_self]

/-- A round does not look behind `buf_len`. -/
theorem parseRound_take {buf : List UInt8} {bufLen c : UInt32} (hbuf : bufLen.toNat ≤ buf.length)
    (hc : c.toNat ≤ bufLen.toNat) :
    parseRound (buf.take bufLen.toNat) bufLen c = parseRound buf bufLen c := by
  have hlen : (buf.take bufLen.toNat).length = bufLen.toNat := by
    rw [List.length_take, Nat.min_eq_left hbuf]
  have hk := skipToFlag_toNat hlen hc
  have hle : ((buf.take bufLen.toNat).drop c.toNat).findIdx (· == packetBeginFlag)
      ≤ ((buf.take bufLen.toNat).drop c.toNat).length := List.findIdx_le_length
  rw [List.length_drop, hlen] at hle
  rw [skipToFlag_take] at hk
  rw [parseRound, parseRound, skipToFlag_take]
  generalize skipToFlag buf bufLen c = k at hk ⊢
  have hkle : k.toNat ≤ bufLen.toNat := by omega
  have hvalid : (bufLen - k).toNat = bufLen.toNat - k.toNat :=
    UInt32.toNat_sub_of_le _ _ (UInt32.le_iff_toNat_le.mpr hkle)
  have hdrop : (buf.take bufLen.toNat).drop k.toNat =
      (buf.drop k.toNat).take (bufLen.toNat - k.toNat) := List.drop_take ..
  have hroom : bufLen.toNat - k.toNat ≤ (buf.drop k.toNat).length := by
    rw [List.length_drop]
    omega
  simp only [hdrop]
  by_cases hshort : bufLen - k < headerLength
  · rw [if_pos hshort, if_pos hshort]
  · have h15 : 15 ≤ bufLen.toNat - k.toNat := by
      have := mt UInt32.lt_iff_toNat_lt.mpr hshort
      rw [headerLength_toNat, hvalid] at this
      omega
    rw [if_neg hshort, if_neg hshort, ofBytes_take h15 hroom,
      calcCrc8_take (s := buf.drop k.toNat) (show 14 ≤ _ by omega)]
    by_cases hcrc : calcCrc8 (buf.drop k.toNat) 14 ≠ (PacketHeader.ofBytes (buf.drop k.toNat)).crc
    · rw [if_pos hcrc, if_pos hcrc]
    rw [if_neg hcrc, if_neg hcrc]
    by_cases hbig : (PacketHeader.ofBytes (buf.drop k.toNat)).bodyLen > maxBodyLength
    · rw [if_pos hbig, if_pos hbig]
    rw [if_neg hbig, if_neg hbig]
    by_cases hwait : bufLen - k < headerLength + (PacketHeader.ofBytes (buf.drop k.toNat)).bodyLen
    · rw [if_pos hwait, if_pos hwait]
    · -- the whole body lies before `buf_len`
      have hmax : (PacketHeader.ofBytes (buf.drop k.toNat)).bodyLen.toNat ≤ 16369 := by
        have := mt UInt32.lt_iff_toNat_lt.mpr hbig
        rw [maxBodyLength_toNat] at this
        omega
      have hbody : (PacketHeader.ofBytes (buf.drop k.toNat)).bodyLen.toNat ≤
          bufLen.toNat - k.toNat - 15 := by
        have := mt UInt32.lt_iff_toNat_lt.mpr hwait
        rw [UInt32.toNat_add, headerLength_toNat, hvalid] at this
        omega
      rw [if_neg hwait, if_neg hwait]
      simp only [Packet.new, headerLength_toNat, List.drop_take, List.take_take,
        Nat.min_eq_left hbody]

theorem parseLoop_take {buf : List UInt8} {bufLen : UInt32} (hbuf : bufLen.toNat ≤ buf.length)
    (rounds : Nat) {c : UInt32} (hc : c.toNat ≤ bufLen.toNat) :
    parseLoop (buf.take bufLen.toNat) bufLen rounds c = parseLoop buf bufLen rounds c := by
  have hlen : (buf.take bufLen.toNat).length = bufLen.toNat := by
    rw [List.length_take, Nat.min_eq_left hbuf]
  induction rounds generalizing c with
  | zero => rfl
  | succ rounds ih =>
    obtain ⟨d, -, hdle, hround⟩ := parseRound_spec hlen hc
    rw [parseLoop, parseLoop, ← parseRound_take hbuf hc, hround]
    cases frameVerdict ((buf.take bufLen.toNat).drop
        (skipToFlag (buf.take bufLen.toNat) bufLen c).toNat) with
    | more => rfl
    | skip n => exact ih hdle
    | frame packet n => rfl

/-- **`parse_packet` reads `buf[0, buf_len)` and nothing behind it.** -/
theorem parsePacket_take {buf : List UInt8} {bufLen : UInt32} (hbuf : bufLen.toNat ≤ buf.length) :
    parsePacket (buf.take bufLen.toNat) bufLen = parsePacket buf bufLen :=
  parseLoop_take hbuf _ (Nat.zero_le _)

/-- **A returned packet is a complete frame of the buffer**, and `consume_len`
is where it ends. -/
theorem parsePacket_some {buf : List UInt8} {bufLen c : UInt32} {p : Packet}
    (hbuf : bufLen.toNat ≤ buf.length) (h : parsePacket buf bufLen = (some p, c)) :
    ∃ off, FrameStart ((buf.take bufLen.toNat).drop off) ∧
      p = packetAt ((buf.take bufLen.toNat).drop off) ∧
      off + (15 + p.bodyLength.toNat) = c.toNat ∧ c.toNat ≤ bufLen.toNat ∧
      p.data = (buf.drop off).take (15 + p.bodyLength.toNat) := by
  have hlen : (buf.take bufLen.toNat).length = bufLen.toNat := by
    rw [List.length_take, Nat.min_eq_left hbuf]
  rw [← parsePacket_take hbuf] at h
  have h1 := parsePacket_fst hlen
  have h2 := parsePacket_snd hlen
  rw [h] at h1 h2
  obtain ⟨off, n, -, hv, hn⟩ := frameDecoder.exists_stands_of_first h1.symm
  obtain ⟨hstart, hfull, hp, rfl⟩ := frameStart_of_frame hv
  have hsize : frameSize ((buf.take bufLen.toNat).drop off) = 15 + p.bodyLength.toNat := by
    rw [hp]
    rfl
  rw [List.length_drop, hlen, hsize] at hfull
  rw [hsize] at hn
  have hc : off + (15 + p.bodyLength.toNat) = c.toNat := (h2.trans hn).symm
  have hdata := data_packetAt hstart.1.2.1
  rw [← hp, hsize, List.drop_take, List.take_take, Nat.min_eq_left hfull] at hdata
  exact ⟨off, hstart, hp, hc, by omega, hdata⟩

/-! ### The sizes -/

theorem buildPacket_eq_none_iff {cmd seq : UInt32} {isPush : Bool} {bodyBuf : Option (List UInt8)}
    {bodyLen : UInt32} :
    buildPacket cmd seq isPush bodyBuf bodyLen = none ↔ maxBodyLength < headerLength + bodyLen := by
  rw [buildPacket]
  split
  · rename_i h
    exact ⟨fun _ => h, fun _ => rfl⟩
  · rename_i h
    exact ⟨fun hnone => absurd hnone (by simp), fun hbig => absurd hbig h⟩

/-- The guard of `build_packet` in natural numbers: it lets a packet pass that is
small enough, or so large that the sum wraps. -/
theorem buildPacket_isSome_iff {cmd seq : UInt32} {isPush : Bool} {bodyBuf : Option (List UInt8)}
    {bodyLen : UInt32} :
    (buildPacket cmd seq isPush bodyBuf bodyLen).isSome ↔
      15 + bodyLen.toNat ≤ 16369 ∨ 2 ^ 32 ≤ 15 + bodyLen.toNat := by
  have hlt : bodyLen.toNat < 2 ^ 32 := bodyLen.toNat_lt
  rw [Option.isSome_iff_ne_none, Ne, buildPacket_eq_none_iff, UInt32.lt_iff_toNat_lt,
    maxBodyLength_toNat, UInt32.toNat_add, headerLength_toNat]
  omega

/-- **A packet always fits `data_` exactly if the sum of the two lengths does not
wrap.**  What `parse_packet` copies always fits and lies inside the buffer. -/
theorem packet_fits_iff (cmd seq : UInt32) (isPush : Bool) (bodyBuf : Option (List UInt8))
    (bodyLen : UInt32) (buf : List UInt8) (bufLen : UInt32) (hbuf : bufLen.toNat ≤ buf.length) :
    ((∀ p, buildPacket cmd seq isPush bodyBuf bodyLen = some p →
        headerLength.toNat + bodyLen.toNat ≤ maxPacketLength.toNat) ∧
      ∀ p c, parsePacket buf bufLen = (some p, c) →
        headerLength.toNat + p.bodyLength.toNat ≤ maxPacketLength.toNat ∧
        ∃ off, off + (headerLength.toNat + p.bodyLength.toNat) = c.toNat ∧
          c.toNat ≤ bufLen.toNat ∧
          p.data = (buf.drop off).take (headerLength.toNat + p.bodyLength.toNat)) ↔
    headerLength.toNat + bodyLen.toNat < 2 ^ 32 := by
  rw [headerLength_toNat, maxPacketLength_toNat]
  constructor
  · rintro ⟨hbuild, -⟩
    by_contra hwrap
    have hsome : (buildPacket cmd seq isPush bodyBuf bodyLen).isSome :=
      buildPacket_isSome_iff.mpr (.inr (Nat.le_of_not_lt hwrap))
    obtain ⟨p, hp⟩ := Option.isSome_iff_exists.mp hsome
    have hfits := hbuild p hp
    omega
  · intro hno
    refine ⟨fun p hp => ?_, fun p c hp => ?_⟩
    · have hsome : (buildPacket cmd seq isPush bodyBuf bodyLen).isSome := by rw [hp]; rfl
      rcases buildPacket_isSome_iff.mp hsome with hle | hwrap
      · omega
      · exact absurd hno (Nat.not_lt.mpr hwrap)
    · obtain ⟨off, ⟨-, hle⟩, hpacket, hc, hcle, hdata⟩ := parsePacket_some hbuf hp
      have hbody : p.bodyLength.toNat ≤ 16369 := by
        rw [hpacket]
        exact UInt32.le_iff_toNat_le.mp hle
      exact ⟨by omega, off, hc, hcle, hdata⟩

/-- The bytes of a frame without a body. -/
def emptyFrame : List UInt8 := (buildHeader 7 1 false 0).bytes

/-- A push with three bytes of body, two bytes before it and one after it. -/
def bodyFrame : List UInt8 := [1, 2] ++ (buildHeader 7 1 true 3).bytes ++ [4, 5, 6] ++ [9]

theorem packet_fits_iff_body :
    (buildPacket 7 1 true (some [4, 5, 6]) 3).isSome ∧ (parsePacket bodyFrame 21).1.isSome ∧
    (∀ p, buildPacket 7 1 true (some [4, 5, 6]) 3 = some p →
        headerLength.toNat + (3 : UInt32).toNat ≤ maxPacketLength.toNat) ∧
      ∀ p c, parsePacket bodyFrame 21 = (some p, c) →
        headerLength.toNat + p.bodyLength.toNat ≤ maxPacketLength.toNat ∧
        ∃ off, off + (headerLength.toNat + p.bodyLength.toNat) = c.toNat ∧
          c.toNat ≤ (21 : UInt32).toNat ∧
          p.data = (bodyFrame.drop off).take (headerLength.toNat + p.bodyLength.toNat) :=
  ⟨by decide +kernel, by decide +kernel,
    (packet_fits_iff 7 1 true (some [4, 5, 6]) 3 bodyFrame 21 (by decide)).mpr (by decide)⟩

/-- From `2 ^ 32 - 15` on the sum wraps, and `build_packet` makes a packet of 4
gigabytes. -/
theorem packet_of_wrapped_length :
    ∃ p, buildPacket 7 1 false none 0xfffffff1 = some p ∧
      maxPacketLength.toNat < headerLength.toNat + (0xfffffff1 : UInt32).toNat := by
  have hsome : (buildPacket 7 1 false none 0xfffffff1).isSome :=
    buildPacket_isSome_iff.mpr (.inr (by decide))
  obtain ⟨p, hp⟩ := Option.isSome_iff_exists.mp hsome
  exact ⟨p, hp, by decide⟩

/-! ### Encoding what was decoded -/

/-- The bytes that `parse_packet` consumed for this packet. -/
def consumedFrame (buf : List UInt8) (c : UInt32) (p : Packet) : List UInt8 :=
  (buf.take c.toNat).drop (c.toNat - p.length.toNat)

/-- `build_packet` on the parts of a header: it writes the `is_push` byte and the
CRC anew. -/
theorem buildHeader_bytes (header : PacketHeader) (isPush : Bool)
    (hflag : header.flag = packetBeginFlag) :
    (buildHeader header.cmd header.seq isPush header.bodyLen).bytes =
      (header.bytes.set 9 (if isPush then 1 else 0)).set 14
        (calcCrc8 (header.bytes.set 9 (if isPush then 1 else 0)) 14) := by
  obtain ⟨flag, cmd, seq, push, bodyLen, crc⟩ := header
  simp only at hflag
  subst hflag
  rfl

theorem set_eq_self {bytes : List UInt8} {i : Nat} {b : UInt8} (h : bytes[i]? = some b) :
    bytes.set i b = bytes := by
  obtain ⟨hi, rfl⟩ := List.getElem?_eq_some_iff.mp h
  exact List.set_getElem_self hi

theorem data_of_buildPacket {cmd seq : UInt32} {isPush : Bool} {bodyBuf : List UInt8}
    {bodyLen : UInt32} {p : Packet} (h : buildPacket cmd seq isPush (some bodyBuf) bodyLen = some p) :
    p.data = (buildHeader cmd seq isPush bodyLen).bytes ++ bodyBuf.take bodyLen.toNat := by
  rw [buildPacket] at h
  split at h
  · exact absurd h (by simp)
  · rw [← Option.some.inj h, Packet.new]

/-- What `build_packet` makes of a frame that starts here. -/
theorem buildPacket_packetAt {s : List UInt8} (hs : FrameStart s) (hfull : frameSize s ≤ s.length)
    (hsize : 15 + (packetAt s).bodyLength.toNat ≤ 16369) :
    ∃ q, buildPacket (packetAt s).cmd (packetAt s).seq (packetAt s).isPush (some (packetAt s).body)
        (packetAt s).bodyLength = some q ∧
      q.length = (packetAt s).length ∧
      q.data = ((packetAt s).data.set 9 (if (packetAt s).isPush then 1 else 0)).set 14
        (calcCrc8 ((packetAt s).data.set 9 (if (packetAt s).isPush then 1 else 0)) 14) := by
  obtain ⟨⟨hf, h15, hcrc⟩, hle⟩ := hs
  have hflag : (PacketHeader.ofBytes s).flag = packetBeginFlag := by
    cases s with
    | nil => exact absurd h15 (by decide)
    | cons b rest => exact Option.some.inj hf
  have hdata : (packetAt s).data = (PacketHeader.ofBytes s).bytes ++ (packetAt s).body := by
    have hbody : (packetAt s).body = (packetAt s).data.drop 15 := rfl
    have htake : (packetAt s).data.take 15 = (PacketHeader.ofBytes s).bytes :=
      List.take_left' (PacketHeader.length_bytes _)
    rw [hbody, ← htake, List.take_append_drop]
  have hbody : (packetAt s).body.length = (packetAt s).bodyLength.toNat := by
    rw [Packet.body, headerLength_toNat, List.length_drop, data_packetAt h15, List.length_take,
      Nat.min_eq_left hfull, frameSize, Nat.add_sub_cancel_left]
    rfl
  have hsome : (buildPacket (packetAt s).cmd (packetAt s).seq (packetAt s).isPush
      (some (packetAt s).body) (packetAt s).bodyLength).isSome :=
    buildPacket_isSome_iff.mpr (.inl hsize)
  obtain ⟨q, hq⟩ := Option.isSome_iff_exists.mp hsome
  have hset : ∀ (i : Nat) (b : UInt8) (bytes : List UInt8), bytes.length = 15 → i < 15 →
      (bytes ++ (packetAt s).body).set i b = bytes.set i b ++ (packetAt s).body := by
    intro i b bytes hbytes hi
    rw [List.set_append, if_pos (by omega)]
  refine ⟨q, hq, ?_, ?_⟩
  · rw [Packet.length, Packet.length, (buildPacket_fields hq).2.2.2]
  · rw [data_of_buildPacket hq, ← hbody, List.take_length, hdata,
      hset 9 _ _ (PacketHeader.length_bytes _) (by decide),
      hset 14 _ _ (by rw [List.length_set, PacketHeader.length_bytes]) (by decide),
      calcCrc8_append _ (by rw [List.length_set, PacketHeader.length_bytes]; decide)]
    exact congrArg (· ++ (packetAt s).body) (buildHeader_bytes (PacketHeader.ofBytes s) _ hflag)

/-- **What `build_packet` makes of the parts of a packet that was parsed**, as long
as it takes packets of that size: the frame that was consumed, its `is_push`
byte written as one or zero and its CRC computed anew.  So it is that frame
exactly if the byte was one or zero. -/
theorem reencode {buf : List UInt8} {bufLen c : UInt32} {p : Packet}
    (hbuf : bufLen.toNat ≤ buf.length) (h : parsePacket buf bufLen = (some p, c))
    (hsize : headerLength.toNat + p.bodyLength.toNat ≤ maxBodyLength.toNat) :
    ∃ q, buildPacket p.cmd p.seq p.isPush (some p.body) p.bodyLength = some q ∧
      q.length = p.length ∧
      q.data = ((consumedFrame buf c p).set 9 (if p.isPush then 1 else 0)).set 14
        (calcCrc8 ((consumedFrame buf c p).set 9 (if p.isPush then 1 else 0)) 14) ∧
      (q.data = consumedFrame buf c p ↔
        (consumedFrame buf c p)[9]? = some 0 ∨ (consumedFrame buf c p)[9]? = some 1) := by
  obtain ⟨off, hs, hp, hc, hcle, hdata⟩ := parsePacket_some hbuf h
  have hlength : p.length.toNat = 15 + p.bodyLength.toNat := by
    rw [headerLength_toNat, maxBodyLength_toNat] at hsize
    rw [Packet.length, UInt32.toNat_add, headerLength_toNat]
    omega
  have hframe : consumedFrame buf c p = p.data := by
    rw [consumedFrame, hlength, ← hc, Nat.add_sub_cancel, List.drop_take, Nat.add_sub_cancel_left,
      hdata]
  have hfull : frameSize ((buf.take bufLen.toNat).drop off) ≤
      ((buf.take bufLen.toNat).drop off).length := by
    have hfs : frameSize ((buf.take bufLen.toNat).drop off) = 15 + p.bodyLength.toNat := by
      rw [hp]
      rfl
    rw [hfs, List.length_drop, List.length_take, Nat.min_eq_left hbuf]
    omega
  rw [hframe]
  clear hframe hdata
  generalize (buf.take bufLen.toNat).drop off = s at hs hp hfull
  subst hp
  obtain ⟨q, hq, hqlen, hqdata⟩ := buildPacket_packetAt hs hfull hsize
  obtain ⟨⟨-, h15, hcrc⟩, -⟩ := hs
  have htake : (packetAt s).data.take 15 = (PacketHeader.ofBytes s).bytes :=
    List.take_left' (PacketHeader.length_bytes _)
  have hget : ∀ i, i < 15 → (packetAt s).data[i]? = (PacketHeader.ofBytes s).bytes[i]? := by
    intro i hi
    rw [← htake, List.getElem?_take_of_lt hi]
  have h9 : (packetAt s).data[9]? = some (PacketHeader.ofBytes s).isPush := hget 9 (by decide)
  have h14 : (packetAt s).data[14]? = some (calcCrc8 (packetAt s).data 14) := by
    have hsame : calcCrc8 (packetAt s).data 14 = calcCrc8 s 14 := by
      rw [← calcCrc8_take (s := (packetAt s).data) (show 14 ≤ 15 by decide), htake,
        PacketHeader.bytes_ofBytes s h15, calcCrc8_take (by decide)]
    rw [hget 14 (by decide), hsame, hcrc]
    rfl
  refine ⟨q, hq, hqlen, hqdata, ?_, ?_⟩
  · intro heq
    have hnine : ((packetAt s).data.set 9 (if (packetAt s).isPush then 1 else 0))[9]? =
        (packetAt s).data[9]? := by
      conv_rhs => rw [← heq, hqdata, List.getElem?_set_ne (by decide)]
    rw [List.getElem?_set_self (List.getElem?_eq_some_iff.mp h9).1] at hnine
    rw [← hnine]
    split
    · exact .inr rfl
    · exact .inl rfl
  · intro hbit
    have hpush : (if (packetAt s).isPush then (1 : UInt8) else 0) = (PacketHeader.ofBytes s).isPush := by
      have hdef : (packetAt s).isPush = ((PacketHeader.ofBytes s).isPush == 1) := rfl
      rw [h9] at hbit
      rcases hbit with h0 | h1
      · rw [hdef, Option.some.inj h0, if_neg (by decide)]
      · rw [hdef, Option.some.inj h1, if_pos (by decide)]
    rw [hqdata, hpush, set_eq_self h9, set_eq_self h14]

theorem parsePacket_of_data {p : Packet} {bufLen : UInt32} (hp : Emitted p)
    (hlen : p.data.length = bufLen.toNat) : parsePacket p.data bufLen = (some p, bufLen) := by
  have hv : frameDecoder.verdict p.data = .frame p p.data.length := by
    have h := hp.frameVerdict_data []
    rwa [List.append_nil] at h
  have h1 := parsePacket_fst hlen
  have h2 := parsePacket_snd hlen
  rw [frameDecoder.first_frame hv] at h1 h2
  exact Prod.ext h1 (UInt32.toNat_inj.mp (h2.trans hlen))

/-- A frame of the encoder comes back as it was. -/
theorem reencode_body :
    ∃ p q, parsePacket bodyFrame 21 = (some p, 20) ∧ p.body = [4, 5, 6] ∧
      buildPacket p.cmd p.seq p.isPush (some p.body) p.bodyLength = some q ∧
      q.data = consumedFrame bodyFrame 20 p ∧ q.data = (bodyFrame.drop 2).take 18 := by
  have h : parsePacket bodyFrame 21 = (some (packetAt (bodyFrame.drop 2)), 20) := by decide +kernel
  have hflag : (consumedFrame bodyFrame 20 (packetAt (bodyFrame.drop 2)))[9]? = some 1 := by
    decide +kernel
  obtain ⟨q, hq, -, -, hiff⟩ := reencode (by decide) h (by decide +kernel)
  have hdata := hiff.mpr (.inr hflag)
  refine ⟨packetAt (bodyFrame.drop 2), q, h, by decide +kernel, hq, hdata, hdata.trans ?_⟩
  decide +kernel

/-- A frame whose `is_push` byte is two. -/
def twoFrame : List UInt8 :=
  [0x55, 0, 0, 0, 7, 0, 0, 0, 1, 2, 0, 0, 0, 0, 0x49]

/-- A frame with a body of 16355 bytes. -/
def longPacket : Packet := Packet.new 7 1 false (buildHeader 7 1 false 16355) none 16355

/-- Two frames that `parse_packet` accepts: from the first `build_packet` makes
other bytes, and from the second no packet. -/
theorem reencode_differs :
    (∃ p q, parsePacket twoFrame 15 = (some p, 15) ∧
      buildPacket p.cmd p.seq p.isPush (some p.body) p.bodyLength = some q ∧
      q.data ≠ consumedFrame twoFrame 15 p) ∧
    ∃ p, parsePacket longPacket.data 16370 = (some p, 16370) ∧
      buildPacket p.cmd p.seq p.isPush (some p.body) p.bodyLength = none := by
  constructor
  · have h : parsePacket twoFrame 15 = (some (packetAt twoFrame), 15) := by decide +kernel
    obtain ⟨q, hq⟩ : ∃ q, buildPacket (packetAt twoFrame).cmd (packetAt twoFrame).seq
        (packetAt twoFrame).isPush (some (packetAt twoFrame).body) (packetAt twoFrame).bodyLength =
        some q := Option.isSome_iff_exists.mp (by decide +kernel)
    refine ⟨packetAt twoFrame, q, h, hq, fun heq => ?_⟩
    have hne : ∀ q ∈ buildPacket (packetAt twoFrame).cmd (packetAt twoFrame).seq
        (packetAt twoFrame).isPush (some (packetAt twoFrame).body) (packetAt twoFrame).bodyLength,
        q.data ≠ consumedFrame twoFrame 15 (packetAt twoFrame) := by decide +kernel
    exact hne q hq heq
  · have hlong : Emitted longPacket := emitted_new (by decide) (by simp)
    have hlen : longPacket.data.length = (16370 : UInt32).toNat := hlong.length_data
    exact ⟨longPacket, parsePacket_of_data hlong hlen, by
      rw [buildPacket_eq_none_iff]
      decide⟩

end Ibase
