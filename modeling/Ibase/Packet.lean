import Ibase.Lib.NetworkOrder

/-!
# Packets on the wire

`packet.hpp` and `packet.cpp`: a packet is a packed header of 15 bytes, its
three words in network byte order and its last byte a CRC over the 14 before
it, followed by the body.  `buildPacket` makes one from its parts and
`parsePacket` looks for one in a buffer.

A `uint32_t` is a `UInt32`, so the sums of the two size checks wrap as they do
in the source.  What `data_` holds behind the header and the body is always zero
and is left out.
-/

namespace Ibase

open NetworkOrder

/-- The table of `calc_crc8`. -/
def crc8Table : List UInt8 := [
  0x00, 0x5e, 0xbc, 0xe2, 0x61, 0x3f, 0xdd, 0x83, 0xc2, 0x9c, 0x7e, 0x20, 0xa3, 0xfd, 0x1f, 0x41,
  0x9d, 0xc3, 0x21, 0x7f, 0xfc, 0xa2, 0x40, 0x1e, 0x5f, 0x01, 0xe3, 0xbd, 0x3e, 0x60, 0x82, 0xdc,
  0x23, 0x7d, 0x9f, 0xc1, 0x42, 0x1c, 0xfe, 0xa0, 0xe1, 0xbf, 0x5d, 0x03, 0x80, 0xde, 0x3c, 0x62,
  0xbe, 0xe0, 0x02, 0x5c, 0xdf, 0x81, 0x63, 0x3d, 0x7c, 0x22, 0xc0, 0x9e, 0x1d, 0x43, 0xa1, 0xff,
  0x46, 0x18, 0xfa, 0xa4, 0x27, 0x79, 0x9b, 0xc5, 0x84, 0xda, 0x38, 0x66, 0xe5, 0xbb, 0x59, 0x07,
  0xdb, 0x85, 0x67, 0x39, 0xba, 0xe4, 0x06, 0x58, 0x19, 0x47, 0xa5, 0xfb, 0x78, 0x26, 0xc4, 0x9a,
  0x65, 0x3b, 0xd9, 0x87, 0x04, 0x5a, 0xb8, 0xe6, 0xa7, 0xf9, 0x1b, 0x45, 0xc6, 0x98, 0x7a, 0x24,
  0xf8, 0xa6, 0x44, 0x1a, 0x99, 0xc7, 0x25, 0x7b, 0x3a, 0x64, 0x86, 0xd8, 0x5b, 0x05, 0xe7, 0xb9,
  0x8c, 0xd2, 0x30, 0x6e, 0xed, 0xb3, 0x51, 0x0f, 0x4e, 0x10, 0xf2, 0xac, 0x2f, 0x71, 0x93, 0xcd,
  0x11, 0x4f, 0xad, 0xf3, 0x70, 0x2e, 0xcc, 0x92, 0xd3, 0x8d, 0x6f, 0x31, 0xb2, 0xec, 0x0e, 0x50,
  0xaf, 0xf1, 0x13, 0x4d, 0xce, 0x90, 0x72, 0x2c, 0x6d, 0x33, 0xd1, 0x8f, 0x0c, 0x52, 0xb0, 0xee,
  0x32, 0x6c, 0x8e, 0xd0, 0x53, 0x0d, 0xef, 0xb1, 0xf0, 0xae, 0x4c, 0x12, 0x91, 0xcf, 0x2d, 0x73,
  0xca, 0x94, 0x76, 0x28, 0xab, 0xf5, 0x17, 0x49, 0x08, 0x56, 0xb4, 0xea, 0x69, 0x37, 0xd5, 0x8b,
  0x57, 0x09, 0xeb, 0xb5, 0x36, 0x68, 0x8a, 0xd4, 0x95, 0xcb, 0x29, 0x77, 0xf4, 0xaa, 0x48, 0x16,
  0xe9, 0xb7, 0x55, 0x0b, 0x88, 0xd6, 0x34, 0x6a, 0x2b, 0x75, 0x97, 0xc9, 0x4a, 0x14, 0xf6, 0xa8,
  0x74, 0x2a, 0xc8, 0x96, 0x15, 0x4b, 0xa9, 0xf7, 0xb6, 0xe8, 0x0a, 0x54, 0xd7, 0x89, 0x6b, 0x35]

/-- `calc_crc8` over `data[0, len)`. -/
def calcCrc8 (data : List UInt8) (len : Nat) : UInt8 :=
  (data.take len).foldl (fun val b => crc8Table.getD (val ^^^ b).toNat 0) 0x77

def packetBeginFlag : UInt8 := 0x55
def headerLength : UInt32 := 15
def maxPacketLength : UInt32 := 16 * 1024
def maxBodyLength : UInt32 := maxPacketLength - headerLength

/-- `packet_header_t`, its words in host order. -/
structure PacketHeader where
  flag : UInt8
  cmd : UInt32
  seq : UInt32
  isPush : UInt8
  bodyLen : UInt32
  crc : UInt8
  deriving DecidableEq, Repr

namespace PacketHeader

/-- The bytes the CRC covers. -/
def checked (header : PacketHeader) : List UInt8 :=
  header.flag :: (hostToNetworkLong header.cmd ++ hostToNetworkLong header.seq ++
    header.isPush :: hostToNetworkLong header.bodyLen)

/-- The packed header in memory. -/
def bytes (header : PacketHeader) : List UInt8 := header.checked ++ [header.crc]

/-- The header that lies at the start of a buffer: `(packet_header_t*)buf`. -/
def ofBytes (buf : List UInt8) : PacketHeader where
  flag := buf.getD 0 0
  cmd := networkToHostLong (buf.getD 1 0) (buf.getD 2 0) (buf.getD 3 0) (buf.getD 4 0)
  seq := networkToHostLong (buf.getD 5 0) (buf.getD 6 0) (buf.getD 7 0) (buf.getD 8 0)
  isPush := buf.getD 9 0
  bodyLen := networkToHostLong (buf.getD 10 0) (buf.getD 11 0) (buf.getD 12 0) (buf.getD 13 0)
  crc := buf.getD 14 0

@[simp] theorem length_bytes (header : PacketHeader) : header.bytes.length = 15 := rfl

theorem ofBytes_bytes (header : PacketHeader) (rest : List UInt8) :
    ofBytes (header.bytes ++ rest) = header := by
  obtain ⟨flag, cmd, seq, isPush, bodyLen, crc⟩ := header
  have h1 := networkToHostLong_hostToNetworkLong cmd
  have h2 := networkToHostLong_hostToNetworkLong seq
  have h3 := networkToHostLong_hostToNetworkLong bodyLen
  exact (PacketHeader.mk.injEq ..).mpr ⟨rfl, h1, h2, rfl, h3, rfl⟩

/-- The first fifteen bytes are the header they hold. -/
theorem bytes_ofBytes (buf : List UInt8) (h : 15 ≤ buf.length) :
    (ofBytes buf).bytes = buf.take 15 := by
  match buf, h with
  | b0 :: b1 :: b2 :: b3 :: b4 :: b5 :: b6 :: b7 :: b8 :: b9 :: b10 :: b11 :: b12 :: b13 :: b14
      :: rest, _ =>
    have h1 := hostToNetworkLong_networkToHostLong b1 b2 b3 b4
    have h2 := hostToNetworkLong_networkToHostLong b5 b6 b7 b8
    have h3 := hostToNetworkLong_networkToHostLong b10 b11 b12 b13
    show b0 :: (hostToNetworkLong (networkToHostLong b1 b2 b3 b4) ++
      hostToNetworkLong (networkToHostLong b5 b6 b7 b8) ++
      b9 :: hostToNetworkLong (networkToHostLong b10 b11 b12 b13)) ++ [b14] = _
    rw [h1, h2, h3]
    rfl

end PacketHeader

/-- `packet_t`.  `data` is what the constructor copies into `data_`. -/
structure Packet where
  data : List UInt8
  cmd : UInt32
  seq : UInt32
  isPush : Bool
  bodyLength : UInt32
  deriving DecidableEq, Repr

namespace Packet

/-- The constructor: the header is copied to the front of the zeroed `data_`,
and `bodyLen` bytes of the body behind it unless the body is a null pointer. -/
def new (cmd seq : UInt32) (isPush : Bool) (header : PacketHeader) (bodyBuf : Option (List UInt8))
    (bodyLen : UInt32) : Packet where
  data := header.bytes ++
    match bodyBuf with
    | some buf => buf.take bodyLen.toNat
    | none => List.replicate bodyLen.toNat 0
  cmd := cmd
  seq := seq
  isPush := isPush
  bodyLength := bodyLen

/-- `length()`. -/
def length (packet : Packet) : UInt32 := headerLength + packet.bodyLength

/-- `data()[0, length())`, the bytes that are written. -/
def wire (packet : Packet) : List UInt8 := packet.data.take packet.length.toNat

/-- `body()[0, body_length())`. -/
def body (packet : Packet) : List UInt8 := packet.data.drop headerLength.toNat

end Packet

/-- The header `build_packet` fills in before it computes the CRC, and then with it. -/
def buildHeader (cmd seq : UInt32) (isPush : Bool) (bodyLen : UInt32) : PacketHeader :=
  let header : PacketHeader :=
    { flag := packetBeginFlag, cmd := cmd, seq := seq, isPush := if isPush then 1 else 0,
      bodyLen := bodyLen, crc := 0 }
  { header with crc := calcCrc8 header.bytes 14 }

/-- `packet_t::build_packet`. -/
def buildPacket (cmd seq : UInt32) (isPush : Bool) (bodyBuf : Option (List UInt8))
    (bodyLen : UInt32) : Option Packet :=
  if headerLength + bodyLen > maxBodyLength then none
  else some (Packet.new cmd seq isPush (buildHeader cmd seq isPush bodyLen) bodyBuf bodyLen)

/-- The inner loop of `parse_packet`: where the next flag byte is, or `bufLen`. -/
def skipToFlag (buf : List UInt8) (bufLen consumeLen : UInt32) : UInt32 :=
  consumeLen +
    UInt32.ofNat (((buf.take bufLen.toNat).drop consumeLen.toNat).findIdx (· == packetBeginFlag))

/-- How one round of `parse_packet`'s loop ends: it returns, or it continues. -/
inductive ParseRound where
  | done (packet : Option Packet) (consumeLen : UInt32)
  | next (consumeLen : UInt32)

/-- One round of the loop of `parse_packet`. -/
def parseRound (buf : List UInt8) (bufLen consumeLen : UInt32) : ParseRound :=
  let consumeLen := skipToFlag buf bufLen consumeLen
  let bufValid := buf.drop consumeLen.toNat
  let bufValidLen := bufLen - consumeLen
  if bufValidLen < headerLength then .done none consumeLen
  else
    let header := PacketHeader.ofBytes bufValid
    if calcCrc8 bufValid 14 ≠ header.crc then .next (consumeLen + 1)
    else if header.bodyLen > maxBodyLength then .next (consumeLen + headerLength)
    else if bufValidLen < headerLength + header.bodyLen then .done none consumeLen
    else
      .done (some (Packet.new header.cmd header.seq (header.isPush == 1) header
          (some (bufValid.drop headerLength.toNat)) header.bodyLen))
        (consumeLen + (headerLength + header.bodyLen))

/-- The loop.  Every round that continues has advanced `consumeLen`, so `bufLen`
rounds and one more are never all used up. -/
def parseLoop (buf : List UInt8) (bufLen : UInt32) : Nat → UInt32 → Option Packet × UInt32
  | 0, consumeLen => (none, consumeLen)
  | rounds + 1, consumeLen =>
    match parseRound buf bufLen consumeLen with
    | .done packet consumeLen => (packet, consumeLen)
    | .next consumeLen => parseLoop buf bufLen rounds consumeLen

/-- `packet_t::parse_packet`: the packet, if any, and the final `consume_len`. -/
def parsePacket (buf : List UInt8) (bufLen : UInt32) : Option Packet × UInt32 :=
  parseLoop buf bufLen (bufLen.toNat + 1) 0

end Ibase
