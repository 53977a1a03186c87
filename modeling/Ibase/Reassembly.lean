import Ibase.Link
import Ibase.Session

/-!
# Packets out of a stream of bytes

The client and the session read into the slab of `prepare`, `commit` what came
and run `process_packet`.  `Receiver.Stream` is what they have in common there:
the slab of the read in flight and a record of the packets dispatched.  Such a
receiver does with every read what `frameDecoder` does with a piece of its input
(`Stream.deliver_spec`), as long as no handler empties its buffer.

Both objects are surrounded by a `ReadLog`, and `deliver` is one read from its
completion on.
-/

namespace Ibase

open StreamDecoder

/-- Bytes that arrive in a slab behind the unread ones are unread bytes after
their commit. -/
theorem IoBuffer.Valid.received {α : Type} {b : IoBuffer α} (h : b.Valid) (items : List α)
    (hfit : b.tail + items.length ≤ b.length) :
    ((b.fill b.tail items).commit items.length).Valid ∧
    ((b.fill b.tail items).commit items.length).unread = b.unread ++ items :=
  ⟨(h.fill b.tail items).commit hfit, IoBuffer.unread_commit_fill h items⟩

/-! ### Reading a stream -/

namespace Receiver

/-- The handler of a read with the socket it reads from.  `arrive` puts the bytes of a
read into its slab. -/
structure Stream {σ α : Type} (R : Receiver σ α) extends R.Handler where
  record : R.Record
  storage : Nat
  slab : σ → Option Slab
  arrive : Slab → TimePoint × List α → σ → σ
  storage_lt : storage < 2 ^ 32
  readBuf_arrive : ∀ slab read s,
    R.readBuf (arrive slab read s) = (R.readBuf s).fill slab.data read.2
  slab_commit : ∀ n b read s, slab (commit n (arrive b read s)) = none
  slab_set : ∀ b s, slab (R.setReadBuf b s) = slab s
  slab_dispatch : ∀ f p s, slab (R.dispatch f p s) = slab s
  slab_startRead : ∀ s,
    slab (startRead s) = some ((R.readBuf s).prepare (R.readBuf s).sizeToRead).1
  packets_commit : ∀ n b read s, record.packets (commit n (arrive b read s)) = record.packets s
  emptied_commit : ∀ n b read s, record.emptied (commit n (arrive b read s)) = record.emptied s
  packets_startRead : ∀ s, record.packets (startRead s) = record.packets s
  emptied_startRead : ∀ s, record.emptied (startRead s) = record.emptied s

namespace Stream

variable {σ α : Type} {R : Receiver σ α} (D : R.Stream)

/-- The bytes of a read are in the slab and committed. -/
def committed (slab : Slab) (read : TimePoint × List α) (s : σ) : σ :=
  D.commit read.2.length (D.arrive slab read s)

/-- A read that brings something completes, and its handler runs. -/
def deliver (s : σ) (read : TimePoint × List α) : Option σ :=
  match D.slab s with
  | none => none
  | some slab =>
    if read.2 ≠ [] ∧ read.2.length ≤ slab.size then
      some (D.handler read.2.length (D.arrive slab read s))
    else none

/-- Reads one after another. -/
def deliverAll (s : σ) (reads : List (TimePoint × List α)) : Option σ := reads.foldlM D.deliver s

/-- What was dispatched, and what is still unread. -/
def progress (s : σ) : List Packet × List UInt8 := (D.record.packets s, R.bytes s)

/-- Between two reads the slab in flight is the room behind the unread bytes. -/
structure Waiting (s : σ) : Prop where
  valid : (R.readBuf s).Valid
  length_eq : (R.readBuf s).length = D.storage
  slab_eq : ∀ slab, D.slab s = some slab →
    slab.data = (R.readBuf s).tail ∧ slab.data + slab.size ≤ D.storage

variable {D}

theorem waiting_doRead {s : σ} (hv : (R.readBuf s).Valid) (hlen : (R.readBuf s).length = D.storage)
    (hslab : D.slab s = none) :
    D.Waiting (D.doRead s) ∧ D.progress (D.doRead s) = D.progress s ∧
      D.record.emptied (D.doRead s) = D.record.emptied s := by
  rcases D.doRead_cases s with heq | heq
  · rw [heq]
    exact ⟨⟨hv, hlen, by rw [hslab]; simp⟩, rfl, rfl⟩
  rw [heq]
  refine ⟨⟨?_, ?_, fun slab hstart => ?_⟩, ?_, D.emptied_startRead s⟩
  · rw [D.readBuf_startRead]
    exact hv.prepare _
  · rw [D.readBuf_startRead, IoBuffer.length_prepare, hlen]
  · have hfits := IoBuffer.prepare_slab_fits hv (R.readBuf s).sizeToRead
    rw [hlen] at hfits
    rw [D.slab_startRead] at hstart
    rw [← Option.some.inj hstart, D.readBuf_startRead]
    exact ⟨IoBuffer.prepare_slab_data .., hfits⟩
  · rw [progress, progress, D.packets_startRead, bytes, bytes, D.readBuf_startRead,
      IoBuffer.unread_prepare]

theorem slab_process {s : σ} (h : D.slab s = none) : D.slab (R.process s) = none :=
  R.processPacket_invariant (P := fun t => D.slab t = none)
    (fun t ht => (D.slab_set _ t).trans ht)
    (fun t p _ ht => (D.slab_dispatch _ p _).trans ((D.slab_set _ t).trans ht)) _ h

/-- The loop of `process_packet`. -/
theorem process_spec {s : σ} (hv : (R.readBuf s).Valid) (hlen : (R.readBuf s).length = D.storage) :
    ∃ dispatched, D.record.Processed s (R.process s) dispatched :=
  D.record.processPacket_spec hv (hlen ▸ D.storage_lt) (Nat.lt_succ_self _)

theorem progress_process {s : σ} (hv : (R.readBuf s).Valid)
    (hlen : (R.readBuf s).length = D.storage)
    (hup : D.record.emptied (R.process s) = D.record.emptied s) {ps : List Packet}
    {rest : List UInt8} (hrun : frameDecoder.run (R.bytes s) = (ps, rest)) :
    D.progress (R.process s) = (D.record.packets s ++ ps, rest) := by
  obtain ⟨dispatched, h⟩ := process_spec hv hlen
  rw [progress, h.packets_eq, h.all hup, h.bytes_eq hup, hrun]

theorem deliver_eq_some {s t : σ} {read : TimePoint × List α} (h : D.deliver s read = some t) :
    ∃ slab, D.slab s = some slab ∧ read.2 ≠ [] ∧ read.2.length ≤ slab.size ∧
      t = D.doRead (R.process (D.committed slab read s)) := by
  rw [deliver] at h
  split at h
  · exact absurd h (by simp)
  · rename_i slab hslab
    split at h
    · rename_i hfit
      rw [D.handler_pos _ _ (List.length_pos_of_ne_nil hfit.1)] at h
      exact ⟨slab, hslab, hfit.1, hfit.2, (Option.some.inj h).symm⟩
    · exact absurd h (by simp)

/-- The bytes of a read come behind the unread ones. -/
theorem Waiting.committed {s : σ} (hs : D.Waiting s) {slab : Slab} {read : TimePoint × List α}
    (hslab : D.slab s = some slab) (hle : read.2.length ≤ slab.size) :
    (R.readBuf (D.committed slab read s)).Valid ∧
      (R.readBuf (D.committed slab read s)).length = D.storage ∧
      D.progress (D.committed slab read s) =
        (D.record.packets s, R.bytes s ++ read.2.map R.byte) := by
  obtain ⟨hdata, hfit⟩ := hs.slab_eq slab hslab
  obtain ⟨hv, hunread⟩ := hs.valid.received read.2 (by rw [hs.length_eq, ← hdata]; omega)
  have hbuf : R.readBuf (D.committed slab read s) =
      ((R.readBuf s).fill (R.readBuf s).tail read.2).commit read.2.length := by
    rw [Stream.committed, D.readBuf_commit, D.readBuf_arrive, hdata]
  refine ⟨hbuf ▸ hv, ?_, Prod.ext (D.packets_commit ..) ?_⟩
  · rw [hbuf]
    exact hs.length_eq
  · show R.bytes (D.committed slab read s) = _
    rw [bytes, hbuf, hunread, List.map_append]
    rfl

/-- **One read is one piece of the decoder's input**, unless a handler empties the
buffer. -/
theorem deliver_spec {s t : σ} {read : TimePoint × List α} (hs : D.Waiting s)
    (h : D.deliver s read = some t) :
    D.Waiting t ∧ D.record.emptied s ≤ D.record.emptied t ∧
    (D.record.emptied t = D.record.emptied s →
      D.progress t = frameDecoder.feedOne (D.progress s) (read.2.map R.byte)) := by
  obtain ⟨slab, hslab, -, hle, rfl⟩ := deliver_eq_some h
  obtain ⟨hv, hlen, hprogress⟩ := hs.committed hslab hle
  have hemptied : D.record.emptied (D.committed slab read s) = D.record.emptied s :=
    D.emptied_commit ..
  have hnone : D.slab (D.committed slab read s) = none := D.slab_commit ..
  generalize D.committed slab read s = u at hv hlen hprogress hemptied hnone ⊢
  obtain ⟨dispatched, hspec⟩ := process_spec hv hlen
  have hup := hspec.emptied_le
  obtain ⟨hw, hsame, hemptied'⟩ := waiting_doRead hspec.valid (hspec.length_eq.trans hlen)
    (slab_process hnone)
  refine ⟨hw, by omega, fun hno => ?_⟩
  obtain ⟨hpackets, hbytes⟩ := Prod.mk.inj hprogress
  rw [hsame, progress_process hv hlen (by omega) rfl, hpackets, hbytes]
  rfl

theorem deliverAll_spec {s t : σ} {reads : List (TimePoint × List α)} (hs : D.Waiting s)
    (h : D.deliverAll s reads = some t) :
    D.record.emptied s ≤ D.record.emptied t ∧
    (D.record.emptied t = D.record.emptied s →
      D.progress t = frameDecoder.feed (D.progress s) (reads.map (fun r => r.2.map R.byte))) ∧
    ∀ r ∈ reads, r.2 ≠ [] := by
  induction reads generalizing s with
  | nil =>
    rw [← Option.some.inj h]
    exact ⟨Nat.le_refl _, fun _ => rfl, by simp⟩
  | cons read reads ih =>
    obtain ⟨u, hu, hrest⟩ := Option.bind_eq_some_iff.mp h
    obtain ⟨hw, hle, hone⟩ := deliver_spec hs hu
    obtain ⟨hle', hall, hne⟩ := ih hw hrest
    obtain ⟨_, _, hnil, _⟩ := deliver_eq_some hu
    refine ⟨Nat.le_trans hle hle', fun hno => ?_, List.forall_mem_cons.mpr ⟨hnil, hne⟩⟩
    rw [hall (by omega), hone (by omega)]
    rfl

/-- **The same bytes, cut in two ways.** -/
theorem progress_of_flatten {s t t' : σ} {reads reads' : List (TimePoint × List α)}
    (hs : D.Waiting s) (hflat : (reads.map (fun r => r.2.map R.byte)).flatten =
      (reads'.map (fun r => r.2.map R.byte)).flatten)
    (h : D.deliverAll s reads = some t) (h' : D.deliverAll s reads' = some t')
    (hup : D.record.emptied t = D.record.emptied s)
    (hup' : D.record.emptied t' = D.record.emptied s) : D.progress t = D.progress t' := by
  obtain ⟨-, hfeed, hne⟩ := deliverAll_spec hs h
  obtain ⟨-, hfeed', hne'⟩ := deliverAll_spec hs h'
  have hmap : ∀ r : TimePoint × List α, r.2 ≠ [] → r.2.map R.byte ≠ [] := by
    intro r hr
    rwa [Ne, List.map_eq_nil_iff]
  rw [hfeed hup, hfeed' hup']
  exact frameDecoder.feed_congr _ (List.forall_mem_map.mpr (fun r hr => hmap r (hne r hr)))
    (List.forall_mem_map.mpr (fun r hr => hmap r (hne' r hr))) hflat

end Stream

end Receiver

/-! ### The session -/

namespace Session

/-- Surroundings of a session that is read from.  `script` says what the coming
receive callbacks send on the session, and when they return. -/
structure ReadLog where
  slab : Option Slab
  packets : List Packet
  script : List (List SharedPacket × TimePoint)

instance : Platform Effect ReadLog where
  perform effect e :=
    match effect with
    | .asyncReadSome buf => { e with slab := some buf }
    | .recvPacket _ packet => { e with packets := e.packets ++ [packet] }
    | _ => e

namespace Ctx

def runScript (s : Ctx ReadLog) : Ctx ReadLog :=
  match s.env.script with
  | [] => s
  | (packets, until_) :: rest =>
    let s := packets.foldl sendPacket { s with env := { s.env with script := rest } }
    { s with now := s.now.later until_ }

end Ctx

instance : ReceiveCallback ReadLog where
  receivePacketCallback _ _ s := s.runScript

namespace Ctx

/-- A read completes: `bytes` arrived in the slab, and the handler runs. -/
def deliver (s : Ctx ReadLog) (read : TimePoint × List UInt8) : Option (Ctx ReadLog) :=
  match s.env.slab with
  | none => none
  | some slab =>
    if read.2 ≠ [] ∧ read.2.length ≤ slab.size then
      some ({ s with
        readBuf := s.readBuf.fill slab.data read.2
        now := s.now.later read.1
        env := { s.env with slab := none } }.onReadCompleted false read.2.length)
    else none

/-- Reads one after another. -/
def deliverAll (s : Ctx ReadLog) (reads : List (TimePoint × List UInt8)) : Option (Ctx ReadLog) :=
  reads.foldlM deliver s

/-- `t` comes from `s` with the buffer and the log of reads as they were. -/
def Keeps (s t : Ctx ReadLog) : Prop :=
  t.readBuf = s.readBuf ∧ t.env.packets = s.env.packets ∧ t.env.slab = s.env.slab

theorem Keeps.refl (s : Ctx ReadLog) : Keeps s s := ⟨rfl, rfl, rfl⟩

theorem Keeps.trans {s t u : Ctx ReadLog} (h1 : Keeps s t) (h2 : Keeps t u) : Keeps s u :=
  ⟨h2.1.trans h1.1, h2.2.1.trans h1.2.1, h2.2.2.trans h1.2.2⟩

theorem keeps_doWritePacket (s : Ctx ReadLog) (packet : SharedPacket) :
    Keeps s (s.doWritePacket packet) := by
  rw [doWritePacket]
  split
  · exact Keeps.refl s
  · exact ⟨rfl, rfl, rfl⟩

theorem keeps_sendPacket (s : Ctx ReadLog) (packet : SharedPacket) :
    Keeps s (s.sendPacket packet) := by
  rw [sendPacket]
  split
  · exact keeps_doWritePacket
      { s with writePackets := s.writePackets ++ [⟨packet, 1, s.now⟩] } packet
  · exact keeps_doWritePacket s packet

theorem keeps_foldl_sendPacket (packets : List SharedPacket) (s : Ctx ReadLog) :
    Keeps s (packets.foldl sendPacket s) := by
  induction packets generalizing s with
  | nil => exact Keeps.refl s
  | cons packet packets ih => exact (keeps_sendPacket s packet).trans (ih _)

theorem keeps_runScript (s : Ctx ReadLog) : Keeps s s.runScript := by
  rw [runScript]
  split
  · exact Keeps.refl s
  · rename_i packets until_ rest _
    exact keeps_foldl_sendPacket packets { s with env := { s.env with script := rest } }

theorem keeps_ackEntry (s : Ctx ReadLog) (packet : SharedPacket) :
    Keeps s (s.ackEntry packet) := by
  rw [ackEntry]
  split
  · exact Keeps.refl s
  · exact ⟨rfl, rfl, rfl⟩

theorem keeps_dispatchPacket (s : Ctx ReadLog) (packet : SharedPacket) :
    Keeps s (s.dispatchPacket packet) := by
  rw [dispatchPacket]
  split
  · exact (keeps_ackEntry s packet).trans (keeps_runScript _)
  · rw [processRequestPacket]
    generalize s.tracker.onReceivePacket (UInt64.ofNat s.now.tick) packet.cmd packet.seq = received
    split
    · exact ⟨rfl, rfl, rfl⟩
    · exact keeps_runScript { s with tracker := received.2 }

/-- The session records what it dispatches and never empties its buffer. -/
def readRecord : (receiver (E := ReadLog)).Record where
  packets s := s.env.packets
  emptied _ := 0
  readBuf_set _ _ := rfl
  packets_set _ _ := rfl
  emptied_set _ _ := rfl
  packets_dispatch f p s :=
    (keeps_dispatchPacket (s.emit (.recvPacket f p)) (SharedPacket.received p)).2.1
  emptied_dispatch _ _ _ := Nat.le_refl _
  readBuf_dispatch f p s :=
    (keeps_dispatchPacket (s.emit (.recvPacket f p)) (SharedPacket.received p)).1

/-- The session as a reader of a stream. -/
def stream : (receiver (E := ReadLog)).Stream where
  toHandler := readHandler
  record := readRecord
  storage := maxReadBufferSize
  slab s := s.env.slab
  arrive slab read s := { s with
    readBuf := s.readBuf.fill slab.data read.2
    now := s.now.later read.1
    env := { s.env with slab := none } }
  storage_lt := by decide
  readBuf_arrive _ _ _ := rfl
  slab_commit _ _ _ _ := rfl
  slab_set _ _ := rfl
  slab_dispatch f p s :=
    (keeps_dispatchPacket (s.emit (.recvPacket f p)) (SharedPacket.received p)).2.2
  slab_startRead _ := rfl
  packets_commit _ _ _ _ := rfl
  emptied_commit _ _ _ _ := rfl
  packets_startRead _ := rfl
  emptied_startRead _ := rfl

theorem bytes_receiver (s : Ctx ReadLog) : receiver.bytes s = s.readBuf.unread := List.map_id _

theorem progress_stream (s : Ctx ReadLog) :
    stream.progress s = (s.env.packets, s.readBuf.unread) :=
  Prod.ext rfl (bytes_receiver s)

end Ctx

end Session

/-! ### The client -/

/-- Surroundings of a client that is read from. -/
structure Client.ReadLog where
  slab : Option Slab
  packets : List Packet
  emptied : Nat

open Client (ReadLog)

instance : Platform Effect ReadLog where
  perform effect e :=
    match effect with
    | .asyncReadSome buf _ => { e with slab := some buf }
    | .recvPacket _ packet => { e with packets := e.packets ++ [packet] }
    | .stopImpl _ _ => { e with emptied := e.emptied + 1 }
    | _ => e

namespace Link

theorem emit_inert (l : Link ReadLog) {effect : Effect} (h : effect.isInert = true) :
    l.emit effect = l := by
  cases effect <;> first | rfl | exact Bool.noConfusion h

theorem close_env (l : Link ReadLog) : l.close.env = l.env ∧ l.close.readBuf = l.readBuf := by
  rw [close]
  split
  · exact ⟨rfl, rfl⟩
  · simp only
    split
    · exact ⟨rfl, rfl⟩
    · exact ⟨rfl, rfl⟩

/-- `m` comes from `l` with the log of reads as it was, and the buffer left alone
or emptied. -/
def Keeps (l m : Link ReadLog) : Prop :=
  m.env.packets = l.env.packets ∧ m.env.slab = l.env.slab ∧ l.env.emptied ≤ m.env.emptied ∧
    m.readBuf = if m.env.emptied = l.env.emptied then l.readBuf else l.readBuf.clear

theorem Keeps.of_eq {l m : Link ReadLog} (he : m.env = l.env) (hb : m.readBuf = l.readBuf) :
    Keeps l m := by
  refine ⟨by rw [he], by rw [he], by rw [he], ?_⟩
  rw [he, if_pos rfl, hb]

theorem Keeps.trans {l m n : Link ReadLog} (h1 : Keeps l m) (h2 : Keeps m n) : Keeps l n := by
  obtain ⟨hp1, hs1, he1, hb1⟩ := h1
  obtain ⟨hp2, hs2, he2, hb2⟩ := h2
  refine ⟨hp2.trans hp1, hs2.trans hs1, Nat.le_trans he1 he2, ?_⟩
  by_cases hlm : m.env.emptied = l.env.emptied
  · rw [hb2, hb1, if_pos hlm, hlm]
  · rw [hb2, hb1, if_neg hlm, if_neg (by omega : n.env.emptied ≠ l.env.emptied)]
    split
    · rfl
    · rfl

theorem keeps_step {l m : Link ReadLog} (h : Step l m) : Keeps l m := by
  cases h with
  | emit effect h =>
    rw [emit_inert l h]
    exact Keeps.of_eq rfl rfl
  | write packet h hp => exact Keeps.of_eq rfl rfl
  | later t => exact Keeps.of_eq rfl rfl
  | forget h => exact Keeps.of_eq rfl rfl
  | clearStarted => exact Keeps.of_eq rfl rfl
  | start host port h => exact Keeps.of_eq rfl rfl
  | connect h hs => exact Keeps.of_eq rfl rfl
  | stop =>
    obtain ⟨henv, hbuf⟩ := close_env (l.emit (.stopImpl l.started l.connectState))
    have hone : l.stop.env = { l.env with emptied := l.env.emptied + 1 } := henv
    have hclear : l.stop.readBuf = l.readBuf.clear := congrArg IoBuffer.clear hbuf
    refine ⟨by rw [hone], by rw [hone], by rw [hone]; exact Nat.le_succ _, ?_⟩
    rw [hone, if_neg (Nat.succ_ne_self _), hclear]

theorem keeps_steps {l m : Link ReadLog} (h : Relation.ReflTransGen Step l m) : Keeps l m := by
  induction h with
  | refl => exact Keeps.of_eq rfl rfl
  | tail _ hstep ih => exact ih.trans (keeps_step hstep)

theorem keeps_receive (l : Link ReadLog) (packet : SharedPacket) : Keeps l (l.receive packet) := by
  have hack : (l.ack packet).env = l.env ∧ (l.ack packet).readBuf = l.readBuf := by
    unfold ack
    split
    · exact ⟨rfl, rfl⟩
    · split
      · exact ⟨rfl, rfl⟩
      · exact ⟨rfl, rfl⟩
  unfold receive
  split
  · exact Keeps.of_eq hack.1 hack.2
  · exact Keeps.of_eq rfl rfl

end Link

namespace Ctx

/-- A read completes: `bytes` arrived in the slab, and the handler runs. -/
def deliver (c : Ctx ReadLog) (read : TimePoint × List RecvByte) : Option (Ctx ReadLog) :=
  match c.env.slab with
  | none => none
  | some slab =>
    if read.2 ≠ [] ∧ read.2.length ≤ slab.size then
      some ({ c with
        readBuf := c.readBuf.fill slab.data read.2
        now := c.now.later read.1
        env := { c.env with slab := none } }.onReadCompleted false read.2.length)
    else none

/-- Reads one after another. -/
def deliverAll (c : Ctx ReadLog) (reads : List (TimePoint × List RecvByte)) :
    Option (Ctx ReadLog) :=
  reads.foldlM deliver c

theorem keeps_dispatch (f : List RecvByte) (p : Packet) (c : Ctx ReadLog) :
    (c.emit (.recvPacket f p)).link.Keeps (receiver.dispatch f p c).link :=
  (Link.keeps_receive _ (SharedPacket.received p)).trans
    (Link.keeps_steps (moves_dispatchPacket (c.emit (.recvPacket f p)) (SharedPacket.received p)))

/-- The client records what it dispatches and how often it was stopped. -/
def readRecord : (receiver (E := ReadLog)).Record where
  packets c := c.env.packets
  emptied c := c.env.emptied
  readBuf_set _ _ := rfl
  packets_set _ _ := rfl
  emptied_set _ _ := rfl
  packets_dispatch f p c := (keeps_dispatch f p c).1
  emptied_dispatch f p c := (keeps_dispatch f p c).2.2.1
  readBuf_dispatch f p c := (keeps_dispatch f p c).2.2.2

/-- The client as a reader of a stream. -/
def stream : (receiver (E := ReadLog)).Stream where
  toHandler := readHandler
  record := readRecord
  storage := maxReadBufferSize
  slab c := c.env.slab
  arrive slab read c := { c with
    readBuf := c.readBuf.fill slab.data read.2
    now := c.now.later read.1
    env := { c.env with slab := none } }
  storage_lt := by decide
  readBuf_arrive _ _ _ := rfl
  slab_commit _ _ _ _ := rfl
  slab_set _ _ := rfl
  slab_dispatch f p c := (keeps_dispatch f p c).2.1
  slab_startRead _ := rfl
  packets_commit _ _ _ _ := rfl
  emptied_commit _ _ _ _ := rfl
  packets_startRead _ := rfl
  emptied_startRead _ := rfl

/-- The unread bytes, without the connections they came on. -/
def bytes (c : Ctx ReadLog) : List UInt8 := c.readBuf.unread.map RecvByte.byte

theorem waiting_onConnected {c : Ctx ReadLog} (hv : c.readBuf.Valid)
    (hlen : c.readBuf.length = maxReadBufferSize) (hslab : c.env.slab = none) :
    stream.Waiting c.onConnected ∧ stream.progress c.onConnected = (c.env.packets, c.bytes) ∧
      c.onConnected.env.emptied = c.env.emptied :=
  stream.waiting_doRead (s := { c with connectState := .connected }) hv hlen hslab

end Ctx

/-! ### Cutting and encoding -/

/-- A session just accepted, in a silent world. -/
def Session.Ctx.accepted : Session.Ctx Session.ReadLog := ⟨Session.new 1, ⟨none, [], []⟩, 0⟩

/-- A client as constructed, in a silent world. -/
def Ctx.constructed : Ctx ReadLog := ⟨Client.new, ⟨none, [], 0⟩, 0, []⟩

/-- The frame of a request whose body is the flag byte. -/
def flagFrame : Packet := Packet.new 1 7 false (buildHeader 1 7 false 1) (some [0x55]) 1

def asReceived (bytes : List UInt8) : List RecvByte := bytes.map (fun b => ⟨b, 1⟩)

/-- **Reassembly does not depend on chunking.**  Whatever the connection's bytes
are and however they are cut into reads, the same packets are dispatched in the
same order and the same bytes stay unread.  On the client this is as long as the
connection lasts: no callback has stopped the client. -/
theorem reassembly_of_chunks :
    (∀ (s t t' : Session.Ctx Session.ReadLog) (reads reads' : List (TimePoint × List UInt8)),
      s.readBuf.Valid → s.readBuf.length = Session.maxReadBufferSize → s.env.slab = none →
      (reads.map Prod.snd).flatten = (reads'.map Prod.snd).flatten →
      s.doReadPacket.deliverAll reads = some t → s.doReadPacket.deliverAll reads' = some t' →
      t.env.packets = t'.env.packets ∧ t.readBuf.unread = t'.readBuf.unread) ∧
    (∀ (c d d' : Ctx ReadLog) (reads reads' : List (TimePoint × List RecvByte)),
      c.readBuf.Valid → c.readBuf.length = maxReadBufferSize → c.env.slab = none →
      (reads.map (fun r => r.2.map RecvByte.byte)).flatten =
        (reads'.map (fun r => r.2.map RecvByte.byte)).flatten →
      c.onConnected.deliverAll reads = some d → c.onConnected.deliverAll reads' = some d' →
      d.env.emptied = c.env.emptied → d'.env.emptied = c.env.emptied →
      d.env.packets = d'.env.packets ∧ d.bytes = d'.bytes) := by
  constructor
  · intro s t t' reads reads' hv hlen hslab hflat ht ht'
    obtain ⟨hw, -, -⟩ := Session.Ctx.stream.waiting_doRead (s := s) hv hlen hslab
    have hflat' : (reads.map (fun r => r.2.map id)).flatten =
        (reads'.map (fun r => r.2.map id)).flatten := by
      simp only [List.map_id]
      exact hflat
    have hsame := Receiver.Stream.progress_of_flatten hw hflat' ht ht' rfl rfl
    rw [Session.Ctx.progress_stream, Session.Ctx.progress_stream] at hsame
    exact Prod.mk.inj hsame
  · intro c d d' reads reads' hv hlen hslab hflat hd hd' hup hup'
    obtain ⟨hw, -, he⟩ := Ctx.waiting_onConnected hv hlen hslab
    exact Prod.mk.inj (Receiver.Stream.progress_of_flatten hw hflat hd hd' (hup.trans he.symm)
      (hup'.trans he.symm))

/-- A frame in two reads and in one. -/
theorem reassembly_of_chunks_five_eleven :
    ∃ t t' d d',
      Session.Ctx.accepted.doReadPacket.deliverAll
        [(1, flagFrame.data.take 5), (2, flagFrame.data.drop 5)] = some t ∧
      Session.Ctx.accepted.doReadPacket.deliverAll [(3, flagFrame.data)] = some t' ∧
      Ctx.constructed.onConnected.deliverAll
        [(1, asReceived (flagFrame.data.take 5)), (2, asReceived (flagFrame.data.drop 5))] =
          some d ∧
      Ctx.constructed.onConnected.deliverAll [(3, asReceived flagFrame.data)] = some d' ∧
      (t.env.packets = t'.env.packets ∧ t.readBuf.unread = t'.readBuf.unread) ∧
      (d.env.packets = d'.env.packets ∧ d.bytes = d'.bytes) := by
  have hs : (Session.Ctx.accepted.doReadPacket.deliverAll
      [(1, flagFrame.data.take 5), (2, flagFrame.data.drop 5)]).isSome = true := by
    decide +kernel
  have hs' : (Session.Ctx.accepted.doReadPacket.deliverAll [(3, flagFrame.data)]).isSome = true := by
    decide +kernel
  have hc : (Ctx.constructed.onConnected.deliverAll
      [(1, asReceived (flagFrame.data.take 5)), (2, asReceived (flagFrame.data.drop 5))]).map
        (fun d => d.env.emptied) = some 0 := by
    decide +kernel
  have hc' : (Ctx.constructed.onConnected.deliverAll [(3, asReceived flagFrame.data)]).map
      (fun d => d.env.emptied) = some 0 := by
    decide +kernel
  obtain ⟨t, ht⟩ := Option.isSome_iff_exists.mp hs
  obtain ⟨t', ht'⟩ := Option.isSome_iff_exists.mp hs'
  obtain ⟨d, hd, he⟩ := Option.map_eq_some_iff.mp hc
  obtain ⟨d', hd', he'⟩ := Option.map_eq_some_iff.mp hc'
  exact ⟨t, t', d, d', ht, ht', hd, hd',
    reassembly_of_chunks.1 _ t t' _ _ (IoBuffer.valid_new ..) rfl rfl (by decide +kernel) ht ht',
    reassembly_of_chunks.2 _ d d' _ _ (IoBuffer.valid_new ..) rfl rfl (by decide +kernel)
      hd hd' he he'⟩

/-- **Decoding undoes encoding over whole streams.**  A buffer that holds frames
of `build_packet`, and after them perhaps a part of one more, is dispatched
packet by packet, and the part stays unread.  On the client this is as long as
no callback has stopped the client. -/
theorem decode_of_encoded_stream (ps : List Packet) (q : Packet) (part : List UInt8)
    (hps : ∀ p ∈ ps, Built p) (hq : Built q) (hpart : part <+: q.data)
    (hlt : part.length < q.data.length) :
    (∀ s : Session.Ctx Session.ReadLog,
      s.readBuf.Valid → s.readBuf.length = Session.maxReadBufferSize →
      (s.readBuf.unread = ps.flatMap Packet.data →
        s.processPacket.env.packets = s.env.packets ++ ps ∧
        s.processPacket.readBuf.unread = []) ∧
      (s.readBuf.unread = ps.flatMap Packet.data ++ part →
        s.processPacket.env.packets = s.env.packets ++ ps ∧
        s.processPacket.readBuf.unread = part)) ∧
    (∀ c : Ctx ReadLog,
      c.readBuf.Valid → c.readBuf.length = maxReadBufferSize →
      c.processPacket.env.emptied = c.env.emptied →
      (c.bytes = ps.flatMap Packet.data →
        c.processPacket.env.packets = c.env.packets ++ ps ∧ c.processPacket.bytes = []) ∧
      (c.bytes = ps.flatMap Packet.data ++ part →
        c.processPacket.env.packets = c.env.packets ++ ps ∧ c.processPacket.bytes = part)) := by
  have hrun := run_flatMap_data (fun p hp => (hps p hp).emitted)
    (hq.emitted.frameVerdict_prefix hpart hlt)
  have hrun0 := run_flatMap_data (fun p hp => (hps p hp).emitted) (s := []) rfl
  rw [List.append_nil] at hrun0
  constructor
  · intro s hv hlen
    have hread : ∀ {rest ps part}, s.readBuf.unread = rest → frameDecoder.run rest = (ps, part) →
        s.processPacket.env.packets = s.env.packets ++ ps ∧ s.processPacket.readBuf.unread = part := by
      rintro rest ps part rfl hdecoded
      rw [← Session.Ctx.bytes_receiver] at hdecoded
      have hprogress := Session.Ctx.stream.progress_process (s := s) hv hlen rfl hdecoded
      rw [Session.Ctx.progress_stream] at hprogress
      exact Prod.mk.inj hprogress
    exact ⟨fun hs => hread hs hrun0, fun hs => hread hs hrun⟩
  · intro c hv hlen hup
    have hread : ∀ {rest ps part}, c.bytes = rest → frameDecoder.run rest = (ps, part) →
        c.processPacket.env.packets = c.env.packets ++ ps ∧ c.processPacket.bytes = part := by
      rintro rest ps part rfl hdecoded
      exact Prod.mk.inj (Ctx.stream.progress_process (s := c) hv hlen hup hdecoded)
    exact ⟨fun hc => hread hc hrun0, fun hc => hread hc hrun⟩

/-- A buffer that holds two frames and five bytes of a third. -/
theorem decode_of_encoded_stream_two_and_part :
    let stream := flagFrame.data ++ flagFrame.data ++ flagFrame.data.take 5
    let s := { Session.Ctx.accepted with readBuf :=
      (Session.Ctx.accepted.readBuf.fill 0 stream).commit stream.length }
    let c := { Ctx.constructed with readBuf :=
      (Ctx.constructed.readBuf.fill 0 (asReceived stream)).commit stream.length }
    (s.processPacket.env.packets = [flagFrame, flagFrame] ∧
      s.processPacket.readBuf.unread = flagFrame.data.take 5) ∧
    (c.processPacket.env.packets = [flagFrame, flagFrame] ∧
      c.processPacket.bytes = flagFrame.data.take 5) := by
  intro stream s c
  have hbuilt : Built flagFrame := ⟨1, 7, false, some [0x55], 1, by decide, by simp, rfl⟩
  have h := decode_of_encoded_stream [flagFrame, flagFrame] flagFrame (flagFrame.data.take 5)
    (by simp [hbuilt]) hbuilt (List.take_prefix ..) (by decide)
  exact ⟨(h.1 s ⟨by decide, by decide⟩ rfl).2 (by decide +kernel),
    (h.2 c ⟨by decide, by decide⟩ rfl (by decide +kernel)).2 (by decide +kernel)⟩

end Ibase
