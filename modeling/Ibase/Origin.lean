import Ibase.Packet

/-!
# Where a packet comes from

A `shared_ptr<packet_t>` is a packet together with the call that made it.  The
origin is not in the source: it tells two requests with equal `cmd` and `seq`
apart, and an acknowledgement from a heartbeat.  It fixes `cmd`, `seq` and
`is_push`, and a `SharedPacket` cannot be built in which the packet disagrees.
-/

namespace Ibase

/-- `reliable_tcp_client_t::heartbeat_cmd`. -/
def heartbeatCmd : UInt32 := 0

/-- The call that made a packet.  A `draw` is the number of the `++cur_seq_` that
gave the packet its `seq`. -/
inductive Origin where
  | received (cmd seq : UInt32) (isPush : Bool)
  | request (draw : Nat) (cmd : UInt32)
  | heartbeat (draw : Nat)
  | ack (push : Origin)
  | response (cmd seq : UInt32)
  | notification (server draw : Nat) (cmd : UInt32)
  deriving DecidableEq, Repr

namespace Origin

def cmd : Origin → UInt32
  | received cmd _ _ => cmd
  | request _ cmd => cmd
  | heartbeat _ => heartbeatCmd
  | ack push => push.cmd
  | response cmd _ => cmd
  | notification _ _ cmd => cmd

def seq : Origin → UInt32
  | received _ seq _ => seq
  | request draw _ => UInt32.ofNat draw
  | heartbeat draw => UInt32.ofNat draw
  | ack push => push.seq
  | response _ seq => seq
  | notification _ draw _ => UInt32.ofNat draw

def isPush : Origin → Bool
  | received _ _ isPush => isPush
  | request _ _ => false
  | heartbeat _ => true
  | ack _ => true
  | response _ _ => false
  | notification _ _ _ => true

end Origin

theorem buildPacket_fields {cmd seq : UInt32} {isPush : Bool} {bodyBuf : Option (List UInt8)}
    {bodyLen : UInt32} {packet : Packet}
    (h : buildPacket cmd seq isPush bodyBuf bodyLen = some packet) :
    packet.cmd = cmd ∧ packet.seq = seq ∧ packet.isPush = isPush ∧ packet.bodyLength = bodyLen := by
  rw [buildPacket] at h
  split at h
  · exact absurd h (by simp)
  · rw [← Option.some.inj h]
    exact ⟨rfl, rfl, rfl, rfl⟩

/-- `std::shared_ptr<packet_t>`. -/
structure SharedPacket where
  packet : Packet
  origin : Origin
  cmd_eq : packet.cmd = origin.cmd
  seq_eq : packet.seq = origin.seq
  isPush_eq : packet.isPush = origin.isPush
  deriving DecidableEq

namespace SharedPacket

def cmd (p : SharedPacket) : UInt32 := p.packet.cmd
def seq (p : SharedPacket) : UInt32 := p.packet.seq
def isPush (p : SharedPacket) : Bool := p.packet.isPush

/-- `packet_t::build_packet` for this origin. -/
def build (origin : Origin) (bodyBuf : Option (List UInt8)) (bodyLen : UInt32) :
    Option SharedPacket :=
  match h : buildPacket origin.cmd origin.seq origin.isPush bodyBuf bodyLen with
  | none => none
  | some packet =>
    some ⟨packet, origin, (buildPacket_fields h).1, (buildPacket_fields h).2.1,
      (buildPacket_fields h).2.2.1⟩

/-- A packet that `parse_packet` made of received bytes. -/
def received (packet : Packet) : SharedPacket :=
  ⟨packet, .received packet.cmd packet.seq packet.isPush, rfl, rfl, rfl⟩

theorem origin_build {origin : Origin} {bodyBuf : Option (List UInt8)} {bodyLen : UInt32}
    {p : SharedPacket} (h : build origin bodyBuf bodyLen = some p) : p.origin = origin := by
  rw [build] at h
  split at h
  · exact absurd h (by simp)
  · rw [← Option.some.inj h]

end SharedPacket

/-- A packet that `send_req_async` made. -/
structure RequestPacket extends SharedPacket where
  isRequest : ∃ draw cmd, origin = .request draw cmd
  deriving DecidableEq

namespace RequestPacket

def build (draw : Nat) (cmd : UInt32) (bodyBuf : Option (List UInt8)) (bodyLen : UInt32) :
    Option RequestPacket :=
  match h : SharedPacket.build (.request draw cmd) bodyBuf bodyLen with
  | none => none
  | some packet => some ⟨packet, draw, cmd, SharedPacket.origin_build h⟩

theorem origin_build {draw : Nat} {cmd : UInt32} {bodyBuf : Option (List UInt8)} {bodyLen : UInt32}
    {p : RequestPacket} (h : build draw cmd bodyBuf bodyLen = some p) :
    p.origin = .request draw cmd := by
  rw [build] at h
  split at h
  · exact absurd h (by simp)
  · rename_i heq
    rw [← Option.some.inj h]
    exact SharedPacket.origin_build heq

end RequestPacket

end Ibase
