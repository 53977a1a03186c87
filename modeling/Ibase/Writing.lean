import Ibase.Lib.Run
import Ibase.Lib.WriteLoop
import Ibase.Client
import Ibase.Session

/-!
# Packets on one socket

`do_write_packet` starts an `asio::async_write` and does not wait for those
before it.  Here the client and the session are surrounded by a `Socket`, on
which each `async_write` is a `WriteLoop` of parts.  The reads of a connection
are kept in sequence by `read_pending_`; nothing does that for its writes, and
two packets mix as soon as one of them is sent in two parts with the other
started in between (`packets_mixed_at_once`).
-/

namespace Ibase

open WriteLoop

/-- A socket and the bytes of the packets being written to it. -/
abbrev PacketSocket := Socket UInt8

instance : Platform Effect PacketSocket where
  perform effect s :=
    match effect with
    | .asyncWrite packet true => s.start packet.packet.wire
    | _ => s

instance : Platform Session.Effect PacketSocket where
  perform effect s :=
    match effect with
    | .asyncWrite packet => s.start packet.packet.wire
    | _ => s

/-- What happens on an open connection that is written to. -/
inductive WriteEvent where
  | doWritePacket (packet : SharedPacket)
  /-- The `async_write_some` in front transfers that many bytes. -/
  | transfer (bytes : Nat)
  /-- The next handler of an `async_write_some` runs. -/
  | resume

/-- No handler that still runs has a part of its packet left, when a write
starts; and a transfer that leaves a part leaves it with no other operation
waiting. -/
def InSequence (s : PacketSocket) : WriteEvent → Prop
  | .doWritePacket _ => s.Settled
  | .transfer bytes => s.Unhurried bytes
  | .resume => True

instance (s : PacketSocket) (e : WriteEvent) : Decidable (InSequence s e) :=
  match e with
  | .doWritePacket _ => inferInstanceAs (Decidable s.Settled)
  | .transfer bytes => inferInstanceAs (Decidable (s.Unhurried bytes))
  | .resume => isTrue trivial

/-- What goes out is whole packets, one after another, and a part of at most one
more; with no operation outstanding it is all the packets written. -/
def WholePackets (s : PacketSocket) : Prop :=
  s.Whole ∧ (s.queue = [] → s.ready = [] → s.wire = s.started.flatMap Write.frame)

/-- What such an event does to the socket. -/
def socketStep (s : PacketSocket) : WriteEvent → Option PacketSocket
  | .doWritePacket packet => some (s.start packet.packet.wire)
  | .transfer bytes => s.transfer bytes
  | .resume => s.resume

/-- The client on an open connection. -/
def Ctx.writeStep (c : Ctx PacketSocket) : WriteEvent → Option (Ctx PacketSocket)
  | .doWritePacket packet => some (c.doWritePacket (some packet))
  | .transfer bytes => (c.env.transfer bytes).map (fun s => { c with env := s })
  | .resume => c.env.resume.map (fun s => { c with env := s })

/-- The session on an open connection. -/
def Session.Ctx.writeStep (s : Session.Ctx PacketSocket) :
    WriteEvent → Option (Session.Ctx PacketSocket)
  | .doWritePacket packet => some (s.doWritePacket packet)
  | .transfer bytes => (s.env.transfer bytes).map (fun e => { s with env := e })
  | .resume => s.env.resume.map (fun e => { s with env := e })

/-! ### Both only write to their socket -/

theorem Ctx.writeStep_eq {c : Ctx PacketSocket} (hc : c.connectState = .connected)
    (ho : c.socketOpen = true) (s : PacketSocket) (e : WriteEvent) :
    writeStep { c with env := s } e = (socketStep s e).map (fun s => { c with env := s }) := by
  cases e with
  | doWritePacket packet =>
    show some ({ c with env := s }.doWritePacket (some packet)) = _
    rw [doWritePacket]
    simp only [isConnected, hc, beq_self_eq_true, Bool.true_eq_false, if_false, ho]
    rfl
  | transfer bytes => rfl
  | resume => rfl

theorem Session.Ctx.writeStep_eq {c : Session.Ctx PacketSocket} (ho : c.socketOpen = true)
    (s : PacketSocket) (e : WriteEvent) :
    writeStep { c with env := s } e = (socketStep s e).map (fun s => { c with env := s }) := by
  cases e with
  | doWritePacket packet =>
    show some ({ c with env := s }.doWritePacket packet) = _
    rw [doWritePacket, if_neg (by simp [isConnected, ho])]
    rfl
  | transfer bytes => rfl
  | resume => rfl

/-! ### Packets in sequence -/

/-- One step in sequence. -/
theorem ordered_socketStep {s t : PacketSocket} {e : WriteEvent}
    (h : ∃ done pending, s.Ordered done pending) (he : InSequence s e)
    (ht : socketStep s e = some t) : ∃ done pending, t.Ordered done pending := by
  obtain ⟨done, pending, h⟩ := h
  cases e with
  | doWritePacket packet =>
    rw [← Option.some.inj ht]
    exact ⟨_, _, Socket.ordered_start h he _⟩
  | transfer bytes => exact Socket.ordered_transfer h he ht
  | resume => exact ⟨_, _, Socket.ordered_resume h ht⟩

theorem wholePackets_run {s : PacketSocket} {es : List WriteEvent}
    (hp : Run.Along socketStep InSequence Socket.new es)
    (h : Run.run socketStep Socket.new es = some s) : WholePackets s := by
  obtain ⟨done, pending, hs⟩ := Run.run_invariant
    (fun _ _ _ hs he ht => ordered_socketStep hs he ht) ⟨[], [], Socket.ordered_new⟩ hp h
  exact ⟨hs.whole, hs.wire_of_idle⟩

/-- **Packets written in sequence stay whole.**  In every run in which no packet
is left partly sent while another write is outstanding or starts, what the client
or the session has put on the wire is whole packets, one after another, and a
part of at most one more. -/
theorem packets_whole_of_inSequence (es : List WriteEvent) :
    (∀ c c' : Ctx PacketSocket,
      c.connectState = .connected → c.socketOpen = true → c.env = Socket.new →
      Run.Along Ctx.writeStep (fun c e => InSequence c.env e) c es →
      Run.run Ctx.writeStep c es = some c' → WholePackets c'.env) ∧
    (∀ c c' : Session.Ctx PacketSocket,
      c.socketOpen = true → c.env = Socket.new →
      Run.Along Session.Ctx.writeStep (fun c e => InSequence c.env e) c es →
      Run.run Session.Ctx.writeStep c es = some c' → WholePackets c'.env) := by
  constructor
  · intro c c' hc ho hnew hp h
    have hself : c = { c with env := Socket.new } := by rw [← hnew]
    rw [hself] at hp h
    rw [Run.run_map _ (Ctx.writeStep_eq hc ho)] at h
    obtain ⟨s, hs, rfl⟩ := Option.map_eq_some_iff.mp h
    exact wholePackets_run (Run.along_map _ (Ctx.writeStep_eq hc ho) hp) hs
  · intro c c' ho hnew hp h
    have hself : c = { c with env := Socket.new } := by rw [← hnew]
    rw [hself] at hp h
    rw [Run.run_map _ (Session.Ctx.writeStep_eq ho)] at h
    obtain ⟨s, hs, rfl⟩ := Option.map_eq_some_iff.mp h
    exact wholePackets_run (Run.along_map _ (Session.Ctx.writeStep_eq ho) hp) hs

/-- A request without a body. -/
def emptyRequest (draw : Nat) (cmd : UInt32) : SharedPacket :=
  ⟨Packet.new cmd (UInt32.ofNat draw) false (buildHeader cmd (UInt32.ofNat draw) false 0) none 0,
    .request draw cmd, rfl, rfl, rfl⟩

/-- A client and a session on an open connection. -/
def connectedClient : Ctx PacketSocket :=
  ⟨{ Client.new with started := true, socketOpen := true, connectState := .connected },
    Socket.new, 0, []⟩

def connectedSession : Session.Ctx PacketSocket := ⟨Session.new 1, Socket.new, 0⟩

/-- A packet that goes out in two parts, and one after it. -/
def twoInSequence : List WriteEvent :=
  [.doWritePacket (emptyRequest 1 7), .transfer 4, .resume, .doWritePacket (emptyRequest 2 7),
    .transfer 11, .resume, .transfer 15]

theorem packets_whole_of_inSequence_two :
    ∃ (c' : Ctx PacketSocket) (s' : Session.Ctx PacketSocket),
      Run.run Ctx.writeStep connectedClient twoInSequence = some c' ∧
      Run.run Session.Ctx.writeStep connectedSession twoInSequence = some s' ∧
      WholePackets c'.env ∧ WholePackets s'.env := by
  have hc : (Run.run Ctx.writeStep connectedClient twoInSequence).isSome = true := by
    decide +kernel
  have hs : (Run.run Session.Ctx.writeStep connectedSession twoInSequence).isSome = true := by
    decide +kernel
  obtain ⟨c', hc'⟩ := Option.isSome_iff_exists.mp hc
  obtain ⟨s', hs'⟩ := Option.isSome_iff_exists.mp hs
  exact ⟨c', s', hc', hs',
    (packets_whole_of_inSequence _).1 _ c' rfl rfl rfl (by decide +kernel) hc',
    (packets_whole_of_inSequence _).2 _ s' rfl rfl (by decide +kernel) hs'⟩

/-- Two packets at once; the first is sent up to its first byte when the send
buffer is full. -/
def twoAtOnce : List WriteEvent :=
  [.doWritePacket (emptyRequest 1 7), .doWritePacket (emptyRequest 2 7), .transfer 1, .resume,
    .transfer 15, .resume, .transfer 14, .resume]

/-- The socket after that: the rest of the first packet went out behind the second. -/
def mixed : PacketSocket where
  started := [⟨0, (emptyRequest 1 7).packet.data⟩, ⟨1, (emptyRequest 2 7).packet.data⟩]
  queue := []
  ready := []
  wire := [(0, 0x55)] ++ (emptyRequest 2 7).packet.data.map (fun b => (1, b)) ++
    ((emptyRequest 1 7).packet.data.drop 1).map (fun b => (0, b))

theorem not_whole_mixed : ¬ mixed.Whole := by
  rintro ⟨done, part, hwire, -, hstarted, hpart⟩
  have hframe : ∀ w ∈ mixed.started, mixed.wire.take 15 ≠ w.frame ∧ w.frame.length = 15 := by
    decide +kernel
  cases done with
  | nil =>
    have hlen : mixed.wire.length = 30 := by decide +kernel
    rw [hwire, List.flatMap_nil, List.nil_append] at hlen
    rcases hpart with rfl | ⟨w, hw, -, hpre⟩
    · exact absurd hlen (by decide)
    · have hle := hpre.length_le
      rw [(hframe w hw).2] at hle
      omega
  | cons w done =>
    obtain ⟨h1, h2⟩ := hframe w (hstarted w List.mem_cons_self)
    apply h1
    rw [hwire, List.flatMap_cons, List.append_assoc, List.take_left' h2]

theorem mixed_bytes (ps : List SharedPacket)
    (h : ∀ p ∈ ps, p = emptyRequest 1 7 ∨ p = emptyRequest 2 7) :
    mixed.wire.map Prod.snd ≠ ps.flatMap (fun p => p.packet.data) := by
  intro heq
  cases ps with
  | nil => exact absurd heq (by decide)
  | cons p ps =>
    have htake := congrArg (List.take 15) heq
    rw [List.flatMap_cons] at htake
    rcases h p List.mem_cons_self with rfl | rfl
    · rw [List.take_left' (by decide)] at htake
      exact absurd htake (by decide +kernel)
    · rw [List.take_left' (by decide)] at htake
      exact absurd htake (by decide +kernel)

/-- **Two packets written at once mix**: what is on the wire is neither whole
packets with a part of one more, nor the bytes of any sequence of the two. -/
theorem packets_mixed_at_once :
    ∃ (c' : Ctx PacketSocket) (s' : Session.Ctx PacketSocket),
      Run.run Ctx.writeStep connectedClient twoAtOnce = some c' ∧
      Run.run Session.Ctx.writeStep connectedSession twoAtOnce = some s' ∧
      ¬ c'.env.Whole ∧ ¬ s'.env.Whole ∧
      ∀ ps : List SharedPacket, (∀ p ∈ ps, p = emptyRequest 1 7 ∨ p = emptyRequest 2 7) →
        c'.env.wire.map Prod.snd ≠ ps.flatMap (fun p => p.packet.data) ∧
        s'.env.wire.map Prod.snd ≠ ps.flatMap (fun p => p.packet.data) := by
  have hrun : Run.run socketStep Socket.new twoAtOnce = some mixed := by decide +kernel
  refine ⟨{ connectedClient with env := mixed }, { connectedSession with env := mixed }, ?_, ?_,
    not_whole_mixed, not_whole_mixed, fun ps hps => ⟨mixed_bytes ps hps, mixed_bytes ps hps⟩⟩
  · have h := Run.run_map _ (Ctx.writeStep_eq (c := connectedClient) rfl rfl) Socket.new twoAtOnce
    rw [hrun] at h
    exact h
  · have h := Run.run_map _ (Session.Ctx.writeStep_eq (c := connectedSession) rfl) Socket.new
      twoAtOnce
    rw [hrun] at h
    exact h

end Ibase
