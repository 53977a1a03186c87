import Ibase.Lib.Pipe
import Ibase.Writing
import Ibase.Reassembly

/-!
# Packets from one end of a connection to the other

The client writes to a session and the session to the client.  Here both ends of one
direction run together: the sender with the `PacketSocket` of `Ibase.Writing`, and the
receiver with the log of reads of `Ibase.Reassembly`.  The bytes that the sender put on
the wire arrive in pieces, cut anywhere.

As long as no two writes mix, the receiver dispatches the packets that were written, in
their order, each as soon as its last byte has arrived.
-/

namespace Ibase

open WriteLoop Pipe

/-- The two ends of one direction of a connection.  `written` are the packets handed to
`do_write_packet`, and `taken` is how many bytes have arrived. -/
structure Direction (σ ρ : Type) where
  sender : σ
  receiver : ρ
  written : List SharedPacket
  taken : Nat

inductive StreamEvent where
  | write (event : WriteEvent)
  /-- The next bytes of the wire fill the slab of the read in flight. -/
  | arrive (time : TimePoint) (bytes : Nat)

def WriteEvent.packet? : WriteEvent → Option SharedPacket
  | .doWritePacket packet => some packet
  | .transfer _ => none
  | .resume => none

/-- The packet that is handed to `do_write_packet` in this event. -/
def StreamEvent.packet? : StreamEvent → Option SharedPacket
  | .write event => event.packet?
  | .arrive _ _ => none

/-- How a sender writes and a receiver reads. -/
structure Ends (σ ρ : Type) where
  socket : σ → PacketSocket
  write : σ → WriteEvent → Option σ
  read : ρ → TimePoint × List UInt8 → Option ρ

namespace Ends

variable {σ ρ : Type} (ends : Ends σ ρ)

/-- The bytes that have arrived. -/
def arrived (d : Direction σ ρ) : List UInt8 := (sent (ends.socket d.sender)).take d.taken

/-- One event; `none` if it cannot happen. -/
def step (d : Direction σ ρ) : StreamEvent → Option (Direction σ ρ)
  | .write event =>
    (ends.write d.sender event).map (fun sender =>
      { d with sender := sender, written := d.written ++ event.packet?.toList })
  | .arrive time bytes =>
    if d.taken + bytes ≤ (sent (ends.socket d.sender)).length then
      (ends.read d.receiver (time, ((sent (ends.socket d.sender)).drop d.taken).take bytes)).map
        (fun receiver => { d with receiver := receiver, taken := d.taken + bytes })
    else none

/-- What is written is written in sequence. -/
def Orderly (d : Direction σ ρ) : StreamEvent → Prop
  | .write event => InSequence (ends.socket d.sender) event
  | .arrive _ _ => True

instance (d : Direction σ ρ) (event : StreamEvent) : Decidable (ends.Orderly d event) :=
  match event with
  | .write event => inferInstanceAs (Decidable (InSequence (ends.socket d.sender) event))
  | .arrive _ _ => isTrue trivial

/-- The receiver has dispatched what was written, in order, up to a part of the next
packet that it keeps; and all of it once all has arrived and no write is outstanding. -/
structure Delivers (d : Direction σ ρ) (packets : List Packet) (unread : List UInt8) : Prop where
  inOrder : Faithful Packet.wire (d.written.map SharedPacket.packet) (ends.arrived d) packets unread
  complete : (ends.socket d.sender).queue = [] → (ends.socket d.sender).ready = [] →
    d.taken = (sent (ends.socket d.sender)).length →
    packets = d.written.map SharedPacket.packet ∧ unread = []

/-- What is asked of the two ends: an open sender only writes to its socket, and each
read of the receiver is a piece of the decoder's input while the receiver is `live`. -/
structure Lawful (isOpen : σ → Prop) (waiting live : ρ → Prop)
    (out : ρ → List Packet × List UInt8) : Prop where
  write : ∀ s event t, isOpen s → ends.write s event = some t →
    isOpen t ∧ socketStep (ends.socket s) event = some (ends.socket t)
  read : ∀ r piece t, waiting r → ends.read r piece = some t →
    waiting t ∧ (live t → live r ∧ out t = frameDecoder.feedOne (out r) piece.2)

/-- What holds of the two ends in a run in sequence. -/
structure Joined (isOpen : σ → Prop) (waiting live : ρ → Prop)
    (out : ρ → List Packet × List UInt8) (d : Direction σ ρ) : Prop where
  isOpen : isOpen d.sender
  waiting : waiting d.receiver
  built : ∀ p ∈ d.written.map SharedPacket.packet, Built p
  carries : ∃ read, Carries frameDecoder Packet.wire (d.written.map SharedPacket.packet)
    (ends.socket d.sender) d.taken read ∧ (live d.receiver → out d.receiver = read)

/-- `parse_packet` takes apart what `build_packet` makes. -/
theorem codec : Codec frameDecoder Packet.wire Built := by
  refine ⟨fun p hb s => ?_, fun p hb s hs hlt => ?_⟩
  · rw [hb.emitted.wire_eq]
    exact hb.emitted.frameVerdict_data s
  · rw [hb.emitted.wire_eq] at hs hlt
    exact hb.emitted.frameVerdict_prefix hs hlt

variable {ends} {isOpen : σ → Prop} {waiting live : ρ → Prop}
  {out : ρ → List Packet × List UInt8} {d e : Direction σ ρ}

theorem Joined.write (hl : ends.Lawful isOpen waiting live out)
    (h : ends.Joined isOpen waiting live out d) {event : WriteEvent} {sender : σ}
    (hsequence : InSequence (ends.socket d.sender) event)
    (hbuilt : ∀ p ∈ event.packet?, Built p.packet) (hs : ends.write d.sender event = some sender) :
    ends.Joined isOpen waiting live out
      { d with sender := sender, written := d.written ++ event.packet?.toList } := by
  obtain ⟨hopen, hsocket⟩ := hl.write d.sender event sender h.isOpen hs
  obtain ⟨read, hcarries, hread⟩ := h.carries
  refine ⟨hopen, h.waiting, ?_, read, ?_, hread⟩
  · intro p hp
    rw [List.map_append] at hp
    rcases List.mem_append.mp hp with hp | hp
    · exact h.built p hp
    · obtain ⟨packet, hpacket, rfl⟩ := List.mem_map.mp hp
      exact hbuilt packet (Option.mem_toList.mp hpacket)
  · show Carries frameDecoder Packet.wire
      ((d.written ++ event.packet?.toList).map SharedPacket.packet) (ends.socket sender) d.taken read
    cases event with
    | doWritePacket packet =>
      rw [List.map_append, ← Option.some.inj hsocket]
      exact hcarries.write hsequence packet.packet
    | transfer bytes =>
      rw [WriteEvent.packet?, Option.toList_none, List.append_nil]
      exact hcarries.transfer hsequence hsocket
    | resume =>
      rw [WriteEvent.packet?, Option.toList_none, List.append_nil]
      exact hcarries.resume hsocket

theorem Joined.arrive (hl : ends.Lawful isOpen waiting live out)
    (h : ends.Joined isOpen waiting live out d) {time : TimePoint} {bytes : Nat} {receiver : ρ}
    (hfit : d.taken + bytes ≤ (sent (ends.socket d.sender)).length)
    (hr : ends.read d.receiver
      (time, ((sent (ends.socket d.sender)).drop d.taken).take bytes) = some receiver) :
    ends.Joined isOpen waiting live out
      { d with receiver := receiver, taken := d.taken + bytes } := by
  obtain ⟨hwaiting, hpiece⟩ := hl.read d.receiver _ receiver h.waiting hr
  obtain ⟨read, hcarries, hread⟩ := h.carries
  refine ⟨h.isOpen, hwaiting, h.built, _, hcarries.arrive hfit, fun hlive => ?_⟩
  obtain ⟨hlive', hout⟩ := hpiece hlive
  rw [hout, hread hlive']

theorem Joined.step (hl : ends.Lawful isOpen waiting live out)
    (h : ends.Joined isOpen waiting live out d) {event : StreamEvent}
    (ho : ends.Orderly d event ∧ ∀ p ∈ event.packet?, Built p.packet)
    (hs : ends.step d event = some e) : ends.Joined isOpen waiting live out e := by
  cases event with
  | write event =>
    obtain ⟨sender, hsender, rfl⟩ := Option.map_eq_some_iff.mp hs
    exact h.write hl ho.1 ho.2 hsender
  | arrive time bytes =>
    rw [Ends.step] at hs
    split at hs
    · rename_i hfit
      obtain ⟨receiver, hreceiver, rfl⟩ := Option.map_eq_some_iff.mp hs
      exact h.arrive hl hfit hreceiver
    · cases hs

/-- **A run in sequence delivers.** -/
theorem Joined.delivers (h : ends.Joined isOpen waiting live out d) (hlive : live d.receiver) :
    ends.Delivers d (out d.receiver).1 (out d.receiver).2 := by
  obtain ⟨read, hcarries, hread⟩ := h.carries
  rw [hread hlive]
  refine ⟨hcarries.faithful codec h.built, fun hqueue hready hall => ?_⟩
  have hfound := hcarries.all_found codec h.built hqueue hready hall
  rw [hfound]
  exact ⟨rfl, rfl⟩

theorem Joined.run (hl : ends.Lawful isOpen waiting live out)
    (h : ends.Joined isOpen waiting live out d) {es : List StreamEvent}
    (ho : Run.Along ends.step ends.Orderly d es)
    (hbuilt : ∀ event ∈ es, ∀ p ∈ event.packet?, Built p.packet)
    (hrun : Run.run ends.step d es = some e) : ends.Joined isOpen waiting live out e :=
  Run.run_invariant (fun _ _ _ hd ho hs => Joined.step hl hd ho hs) h
    (Run.along_and ho (Run.along_of_forall hbuilt d)) hrun

/-- Nothing is written yet. -/
theorem Joined.start {s : σ} {r : ρ} (ho : isOpen s) (hsocket : ends.socket s = Socket.new)
    (hw : waiting r) (hout : out r = ([], [])) : ends.Joined isOpen waiting live out ⟨s, r, [], 0⟩ := by
  refine ⟨ho, hw, fun p hp => absurd hp List.not_mem_nil, ([], []), ?_, fun _ => hout⟩
  show Carries frameDecoder Packet.wire [] (ends.socket s) 0 ([], [])
  rw [hsocket]
  exact .start

end Ends

/-! ### The two directions -/

/-- The client writes and a session reads. -/
def clientToSession : Ends (Ctx PacketSocket) (Session.Ctx Session.ReadLog) where
  socket c := c.env
  write := Ctx.writeStep
  read := Session.Ctx.deliver

/-- A session writes and the client reads. -/
def sessionToClient : Ends (Session.Ctx PacketSocket) (Ctx Client.ReadLog) where
  socket s := s.env
  write := Session.Ctx.writeStep
  read c read := c.deliver (read.1, asReceived read.2)

theorem map_byte_asReceived (bytes : List UInt8) : (asReceived bytes).map RecvByte.byte = bytes := by
  rw [asReceived, List.map_map]
  exact List.map_id _

theorem clientToSession_lawful : clientToSession.Lawful
    (fun c => c.connectState = .connected ∧ c.socketOpen = true) Session.Ctx.stream.Waiting
    (fun _ => True) Session.Ctx.stream.progress := by
  refine ⟨?_, ?_⟩
  · rintro c event c' ⟨hc, ho⟩ hs
    have hstep : c.writeStep event = (socketStep c.env event).map (fun s => { c with env := s }) :=
      Ctx.writeStep_eq hc ho c.env event
    obtain ⟨s, hsocket, rfl⟩ := Option.map_eq_some_iff.mp (hstep.symm.trans hs)
    exact ⟨⟨hc, ho⟩, hsocket⟩
  · intro s piece t hw hs
    obtain ⟨hw', -, hout⟩ := Receiver.Stream.deliver_spec hw hs
    have hpiece := hout rfl
    rw [show piece.2.map Session.Ctx.receiver.byte = piece.2 from List.map_id _] at hpiece
    exact ⟨hw', fun _ => ⟨trivial, hpiece⟩⟩

/-- The client reads the stream as long as it was not stopped since it had been stopped
`emptied` times. -/
theorem sessionToClient_lawful (emptied : Nat) : sessionToClient.Lawful
    (fun s => s.socketOpen = true) (fun c => Ctx.stream.Waiting c ∧ emptied ≤ c.env.emptied)
    (fun c => c.env.emptied = emptied) Ctx.stream.progress := by
  refine ⟨?_, ?_⟩
  · intro s event t ho hs
    have hstep : s.writeStep event = (socketStep s.env event).map (fun e => { s with env := e }) :=
      Session.Ctx.writeStep_eq ho s.env event
    obtain ⟨e, hsocket, rfl⟩ := Option.map_eq_some_iff.mp (hstep.symm.trans hs)
    exact ⟨ho, hsocket⟩
  · rintro c piece d ⟨hw, hle⟩ hs
    obtain ⟨hw', hle', hout⟩ := Receiver.Stream.deliver_spec hw hs
    refine ⟨⟨hw', Nat.le_trans hle hle'⟩, fun hlive => ?_⟩
    have hlive' : c.env.emptied = emptied := Nat.le_antisymm (hle'.trans (Nat.le_of_eq hlive)) hle
    have hpiece := hout (hlive.trans hlive'.symm)
    rw [show (asReceived piece.2).map Ctx.receiver.byte = piece.2 from map_byte_asReceived _] at hpiece
    exact ⟨hlive', hpiece⟩

/-- **Packets written in sequence arrive in sequence.**  In every run of the two ends of a
connection in which no packet is left partly sent while another write is outstanding or
starts, the receiver dispatches the packets that were written, in order, none missing and
none twice, however the socket splits what is sent and what is read.  On the client this
is as long as no callback has stopped it.  The receiver has nothing unread when the
connection starts, and the packets are made by `build_packet` from a body that is there,
with a size that wraps nowhere (`Built`). -/
theorem packets_arrive_in_order (es : List StreamEvent)
    (hbuilt : ∀ event ∈ es, ∀ p ∈ event.packet?, Built p.packet) :
    (∀ (c : Ctx PacketSocket) (s : Session.Ctx Session.ReadLog) d,
      c.connectState = .connected → c.socketOpen = true → c.env = Socket.new →
      s.readBuf.Valid → s.readBuf.length = Session.maxReadBufferSize → s.readBuf.unread = [] →
      s.env.slab = none → s.env.packets = [] →
      Run.Along clientToSession.step clientToSession.Orderly ⟨c, s.doReadPacket, [], 0⟩ es →
      Run.run clientToSession.step ⟨c, s.doReadPacket, [], 0⟩ es = some d →
      clientToSession.Delivers d d.receiver.env.packets d.receiver.readBuf.unread) ∧
    (∀ (s : Session.Ctx PacketSocket) (c : Ctx Client.ReadLog) d,
      s.socketOpen = true → s.env = Socket.new →
      c.readBuf.Valid → c.readBuf.length = maxReadBufferSize → c.readBuf.unread = [] →
      c.env.slab = none → c.env.packets = [] →
      Run.Along sessionToClient.step sessionToClient.Orderly ⟨s, c.onConnected, [], 0⟩ es →
      Run.run sessionToClient.step ⟨s, c.onConnected, [], 0⟩ es = some d →
      d.receiver.env.emptied = c.env.emptied →
      sessionToClient.Delivers d d.receiver.env.packets d.receiver.bytes) := by
  constructor
  · intro c s d hc ho hnew hv hlen hunread hslab hpackets hp hrun
    obtain ⟨hw, hprogress, -⟩ := Session.Ctx.stream.waiting_doRead (s := s) hv hlen hslab
    have hempty : Session.Ctx.stream.progress s.doReadPacket = ([], []) := by
      refine hprogress.trans ?_
      rw [Session.Ctx.progress_stream, hpackets, hunread]
    have hstart : clientToSession.Joined (fun c => c.connectState = .connected ∧ c.socketOpen = true)
        Session.Ctx.stream.Waiting (fun _ => True) Session.Ctx.stream.progress
        ⟨c, s.doReadPacket, [], 0⟩ := .start ⟨hc, ho⟩ hnew hw hempty
    have hdelivers := (hstart.run clientToSession_lawful hp hbuilt hrun).delivers trivial
    rwa [Session.Ctx.progress_stream] at hdelivers
  · intro s c d ho hnew hv hlen hunread hslab hpackets hp hrun hup
    obtain ⟨hw, hprogress, hemptied⟩ := Ctx.waiting_onConnected hv hlen hslab
    have hempty : Ctx.stream.progress c.onConnected = ([], []) := by
      rw [hprogress, Ctx.bytes, hpackets, hunread, List.map_nil]
    have hstart : sessionToClient.Joined (fun s => s.socketOpen = true)
        (fun d => Ctx.stream.Waiting d ∧ c.env.emptied ≤ d.env.emptied)
        (fun d => d.env.emptied = c.env.emptied) Ctx.stream.progress ⟨s, c.onConnected, [], 0⟩ :=
      .start ho hnew ⟨hw, Nat.le_of_eq hemptied.symm⟩ hempty
    exact (hstart.run (sessionToClient_lawful c.env.emptied) hp hbuilt hrun).delivers hup

/-- Two packets; the bytes arrive in three pieces while they are written. -/
def twoInPieces : List StreamEvent :=
  [.write (.doWritePacket (emptyRequest 1 7)), .write (.transfer 4), .arrive 1 4, .write .resume,
    .write (.transfer 11), .arrive 2 6, .write .resume, .write (.doWritePacket (emptyRequest 2 7)),
    .write (.transfer 15), .write .resume, .arrive 3 20]

theorem packets_arrive_in_order_two :
    ∃ d d', Run.run clientToSession.step
        ⟨connectedClient, Session.Ctx.accepted.doReadPacket, [], 0⟩ twoInPieces = some d ∧
      Run.run sessionToClient.step
        ⟨connectedSession, Ctx.constructed.onConnected, [], 0⟩ twoInPieces = some d' ∧
      clientToSession.Delivers d d.receiver.env.packets d.receiver.readBuf.unread ∧
      sessionToClient.Delivers d' d'.receiver.env.packets d'.receiver.bytes := by
  have hbuilt : ∀ event ∈ twoInPieces, ∀ p ∈ event.packet?, Built p.packet := by
    have hempty : ∀ draw cmd, Built (emptyRequest draw cmd).packet :=
      fun draw cmd => ⟨cmd, UInt32.ofNat draw, false, none, 0, by decide, by simp, rfl⟩
    simp [twoInPieces, StreamEvent.packet?, WriteEvent.packet?, hempty]
  have hd : (Run.run clientToSession.step
      ⟨connectedClient, Session.Ctx.accepted.doReadPacket, [], 0⟩ twoInPieces).isSome = true := by
    decide +kernel
  have hd' : (Run.run sessionToClient.step
      ⟨connectedSession, Ctx.constructed.onConnected, [], 0⟩ twoInPieces).map
        (fun d => d.receiver.env.emptied) = some 0 := by
    decide +kernel
  obtain ⟨d, hrun⟩ := Option.isSome_iff_exists.mp hd
  obtain ⟨d', hrun', hup⟩ := Option.map_eq_some_iff.mp hd'
  exact ⟨d, d', hrun, hrun',
    (packets_arrive_in_order _ hbuilt).1 _ _ d rfl rfl rfl (IoBuffer.valid_new ..) rfl
      (by decide +kernel) rfl rfl (by decide +kernel) hrun,
    (packets_arrive_in_order _ hbuilt).2 _ _ d' rfl rfl (IoBuffer.valid_new ..) rfl
      (by decide +kernel) rfl rfl (by decide +kernel) hrun' hup⟩

end Ibase
