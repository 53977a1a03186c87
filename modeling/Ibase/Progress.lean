import Ibase.Lib.Loop
import Ibase.Reassembly

/-!
# The receive path never wedges

The two loops of the receive path come to an end: each round of `parse_packet`
settles a byte at least, and each round of `process_packet` consumes a header.
What stays unread is less than a packet, so there is room in the buffer, and the
next `do_read_packet` asks for it.  `Receiver.Progress` says this of one run of
`process_packet` and `IoBuffer.Ready` of the buffer it leaves.  `Receiver.Reader`
is a stream whose reader knows whether its connection is open, as the client and
the session do, and `Reader.flowing_completeAll` carries both facts over all reads
of a connection.
-/

namespace Ibase

open StreamDecoder

/-! ### `parse_packet` -/

/-- A round of the loop of `parse_packet`. -/
def parseBody (buf : List UInt8) (bufLen : UInt32) (c : UInt32) :
    (Option Packet × UInt32) ⊕ UInt32 :=
  match parseRound buf bufLen c with
  | .done packet d => .inl (packet, d)
  | .next d => .inr d

/-- **`parse_packet` returns.** -/
theorem returns_parsePacket {buf : List UInt8} {bufLen : UInt32}
    (hbuf : buf.length = bufLen.toNat) :
    Loop.Returns (parseBody buf bufLen) 0 (parsePacket buf bufLen) := by
  refine Loop.returns_of_measure (I := fun c => c.toNat ≤ bufLen.toNat)
    (m := fun c => bufLen.toNat - c.toNat) ?_ ?_ ?_ (Nat.zero_le _) (by simp)
  · intro n c r h
    cases hround : parseRound buf bufLen c with
    | done packet d =>
      rw [parseBody, hround] at h
      rw [parseLoop, hround]
      exact Sum.inl.inj h
    | next d =>
      rw [parseBody, hround] at h
      exact absurd h (by simp)
  · intro n c d h
    cases hround : parseRound buf bufLen c with
    | done packet e =>
      rw [parseBody, hround] at h
      exact absurd h (by simp)
    | next e =>
      rw [parseBody, hround] at h
      rw [parseLoop, hround, ← Sum.inr.inj h]
  · intro c d hc h
    obtain ⟨e, he, hle, hround⟩ := parseRound_spec hbuf hc
    have hk := skipToFlag_toNat hbuf hc
    rw [parseBody, hround] at h
    cases hv : frameVerdict (buf.drop (skipToFlag buf bufLen c).toNat) with
    | more =>
      rw [hv] at h
      exact absurd h (by simp)
    | skip n =>
      have hpos := frameVerdict_size_pos _ (by rw [hv]; simp)
      rw [hv] at h
      obtain rfl := Sum.inr.inj h
      exact ⟨hle, by omega⟩
    | frame packet n =>
      rw [hv] at h
      exact absurd h (by simp)

/-- What the parser waits on is less than a packet. -/
theorem length_of_more {s : List UInt8} (h : frameVerdict s = .more) :
    s.length ≤ maxPacketLength.toNat - 1 := by
  rw [maxPacketLength_toNat]
  by_cases h15 : 15 ≤ s.length
  · by_cases hc : Checked s
    · rcases hc.oversized_or_frameStart with hbig | hstart
      · rw [frameVerdict_oversized hbig] at h
        exact absurd h (by simp)
      · rw [frameVerdict_frameStart hstart] at h
        have hbody := UInt32.le_iff_toNat_le.mp hstart.2
        rw [maxBodyLength_toNat] at hbody
        split at h
        · rename_i hlt
          rw [frameSize] at hlt
          omega
        · exact absurd h (by simp)
    · rw [frameVerdict_not_checked h15 hc] at h
      exact absurd h (by simp)
  · omega

/-! ### `process_packet` -/

namespace Receiver

variable {σ α : Type} {R : Receiver σ α}

/-- A round of the loop of `process_packet`. -/
def round (R : Receiver σ α) (s : σ) : σ ⊕ σ :=
  match (R.parse s).1 with
  | none => .inl (R.consumed s)
  | some packet => .inr (R.dispatch (R.frameItems s packet) packet (R.consumed s))

/-- One run of `process_packet`, from `s` to `t`: it returns, so does every
`parse_packet` in it, which consumes no more than there is and something whenever
it returns a packet, and less than a packet stays unread. -/
structure Progress (R : Receiver σ α) (s t : σ) : Prop where
  returns : Loop.Returns R.round s t
  parses : ∀ u, Loop.Reaches R.round s u →
    Loop.Returns (parseBody (R.bytes u) (UInt32.ofNat (R.readBuf u).size)) 0
      (parsePacket (R.bytes u) (UInt32.ofNat (R.readBuf u).size)) ∧
    (R.parse u).2 ≤ (R.readBuf u).size ∧ ((R.parse u).1 ≠ none → 0 < (R.parse u).2)
  unread_le : (R.readBuf t).size ≤ maxPacketLength.toNat - 1

/-- A buffer whose size a `uint32_t` holds. -/
def Small (R : Receiver σ α) (s : σ) : Prop :=
  (R.readBuf s).Valid ∧ (R.readBuf s).length < 2 ^ 32

theorem Small.size_lt {s : σ} (h : R.Small s) : (R.readBuf s).size < 2 ^ 32 := by
  have hle := h.1.tail_le_length
  have hlt := h.2
  rw [IoBuffer.size]
  omega

theorem Small.consumed (L : R.Record) {s : σ} (h : R.Small s) : R.Small (R.consumed s) := by
  rw [Small, L.readBuf_consumed, IoBuffer.length_consume]
  exact ⟨h.1.consume _, h.2⟩

/-- A round that goes on has consumed something. -/
theorem round_next (L : R.Record) {s t : σ} (h : R.Small s) (hr : R.round s = .inr t) :
    R.Small t ∧ (R.readBuf t).size < (R.readBuf s).size := by
  rw [round] at hr
  split at hr
  · exact absurd hr (by simp)
  · rename_i p hp
    have hc := h.consumed L
    have hless : (R.readBuf (R.consumed s)).size < (R.readBuf s).size := by
      rw [R.parse_eq h.size_lt] at hp
      have hpos := frameDecoder.first_snd_pos hp
      have hle := frameDecoder.first_snd_le (R.bytes s)
      rw [R.length_bytes] at hle
      rw [← R.length_bytes, L.bytes_consumed h.size_lt, List.length_drop, R.length_bytes]
      omega
    have hbuf := L.readBuf_dispatch (R.frameItems s p) p (R.consumed s)
    rw [← Sum.inr.inj hr, Small, hbuf]
    split
    · exact ⟨hc, hless⟩
    · -- the handler emptied the buffer
      exact ⟨⟨IoBuffer.Valid.clear _, hc.2⟩, Nat.lt_of_le_of_lt (Nat.zero_le _) hless⟩

theorem returns_processPacket (L : R.Record) {s : σ} (h : R.Small s) {rounds : Nat}
    (hr : (R.readBuf s).size < rounds) :
    Loop.Returns R.round s (R.processPacket rounds s) := by
  refine Loop.returns_of_measure (I := R.Small) (m := fun s => (R.readBuf s).size) ?_ ?_
    (fun s t hs ht => round_next L hs ht) h hr
  · intro n s r hb
    rw [round] at hb
    split at hb
    · rename_i hp
      rw [R.processPacket_none hp]
      exact Sum.inl.inj hb
    · exact absurd hb (by simp)
  · intro n s t hb
    rw [round] at hb
    split at hb
    · exact absurd hb (by simp)
    · rename_i p hp
      rw [R.processPacket_some hp, Sum.inr.inj hb]

/-- **`process_packet` always makes progress.** -/
theorem progress_processPacket (L : R.Record) {s : σ} (h : R.Small s) :
    R.Progress s (R.processPacket ((R.readBuf s).size + 1) s) := by
  have hret := returns_processPacket L h (Nat.lt_succ_self _)
  have hsmall : ∀ u, Loop.Reaches R.round s u → R.Small u :=
    fun u hu => hu.invariant (fun _ _ hs ht => (round_next L hs ht).1) h
  refine ⟨hret, fun u hu => ?_, ?_⟩
  · have hsize := (hsmall u hu).size_lt
    refine ⟨returns_parsePacket ?_, R.parse_snd_le hsize, fun hp => ?_⟩
    · rw [R.length_bytes, UInt32.toNat_ofNat_of_lt' hsize]
    · obtain ⟨p, hp⟩ := Option.ne_none_iff_exists'.mp hp
      rw [R.parse_eq hsize] at hp ⊢
      exact frameDecoder.first_snd_pos hp
  · -- the last round found the parser waiting
    obtain ⟨u, hu, hlast⟩ := hret.last
    have hsize := (hsmall u hu).size_lt
    rw [round] at hlast
    split at hlast
    · rename_i hp
      rw [← Sum.inl.inj hlast, ← R.length_bytes, L.bytes_consumed hsize]
      rw [R.parse_eq hsize] at hp
      have hrun := frameDecoder.run_first (R.bytes u)
      rw [hp] at hrun
      have hmore := frameDecoder.verdict_run_snd (R.bytes u)
      rw [hrun] at hmore
      exact length_of_more hmore
    · exact absurd hlast (by simp)

end Receiver

/-! ### The next read -/

/-- The next `do_read_packet` asks for a positive number of bytes, gets a slab of
that size inside the storage of `size` bytes, and may commit all of it. -/
structure IoBuffer.Ready {α : Type} (b : IoBuffer α) (size : Nat) : Prop where
  asks : 0 < b.sizeToRead
  slab_size : (b.prepare b.sizeToRead).1.size = b.sizeToRead
  slab_fits : (b.prepare b.sizeToRead).1.data + (b.prepare b.sizeToRead).1.size ≤ size
  commit_le : ∀ n ≤ (b.prepare b.sizeToRead).1.size, ((b.prepare b.sizeToRead).2.commit n).tail ≤ size

theorem IoBuffer.ready {α : Type} {b : IoBuffer α} (hv : b.Valid) (h : b.size < b.length) :
    b.Ready b.length := by
  have hle := hv.head_le_tail
  have htail := hv.tail_le_length
  have hfits := prepare_slab_fits hv b.sizeToRead
  have hask : 0 < b.sizeToRead ∧ b.sizeToRead ≤ b.capacity := by
    rw [sizeToRead, capacity, freeSize]
    rw [size] at h ⊢
    split
    · omega
    · omega
  refine ⟨hask.1, ?_, hfits, fun n hn => ?_⟩
  · rw [prepare_slab_size, Nat.min_eq_left hask.2]
  · rw [tail_commit, ← prepare_slab_data]
    omega

/-! ### Reads of a connection -/

namespace Receiver

/-- A stream with the state of its connection. -/
structure Reader {σ α : Type} (R : Receiver σ α) extends R.Stream where
  isOpen : σ → Bool
  /-- Neither is a read in flight nor does `read_pending_` say so. -/
  Idle : σ → Prop
  room : maxPacketLength.toNat ≤ storage
  slab_idle : ∀ s, Idle s → slab s = none
  idle_commit : ∀ n slab read s, Idle (commit n (arrive slab read s))
  idle_dispatch : ∀ f p s, Idle s → Idle (R.dispatch f p s)
  idle_set : ∀ b s, Idle s → Idle (R.setReadBuf b s)
  doRead_closed : ∀ s, isOpen s = false → doRead s = s
  doRead_open : ∀ s, isOpen s = true → Idle s → 0 < (R.readBuf s).sizeToRead →
    doRead s = startRead s

namespace Reader

variable {σ α : Type} {R : Receiver σ α} (D : R.Reader)

/-- A read of any size completes, and its handler runs. -/
def complete (s : σ) (read : TimePoint × List α) : Option σ :=
  match D.slab s with
  | none => none
  | some slab =>
    if read.2.length ≤ slab.size then some (D.handler read.2.length (D.arrive slab read s))
    else none

/-- Reads one after another. -/
def completeAll (s : σ) (reads : List (TimePoint × List α)) : Option σ := reads.foldlM D.complete s

/-- Between two reads: on an open connection a read is in flight, into a slab that
is not empty and may be committed whole, and whatever it brings, the handler makes
progress and leaves the buffer ready for the next one. -/
structure Receiving (s : σ) : Prop where
  reads : D.isOpen s = true → ∃ slab, D.slab s = some slab ∧ 0 < slab.size ∧
    slab.data + slab.size ≤ D.storage ∧
    ∀ n ≤ slab.size, ((R.readBuf s).commit n).tail ≤ D.storage
  progress : ∀ slab read, D.slab s = some slab → read.2 ≠ [] → read.2.length ≤ slab.size →
    R.Progress (D.committed slab read s) (R.process (D.committed slab read s)) ∧
    (R.readBuf (R.process (D.committed slab read s))).Ready D.storage ∧
    D.complete s read = some (D.doRead (R.process (D.committed slab read s)))

/-- What the reads of a connection keep between them. -/
structure Flowing (s : σ) : Prop extends D.Waiting s where
  unread_le : (R.readBuf s).size ≤ maxPacketLength.toNat - 1
  reading : D.isOpen s = true → ∃ slab, D.slab s = some slab ∧ 0 < slab.size

variable {D}

/-- The loop leaves a buffer that is ready, and `do_read_packet` reads into it. -/
theorem ready_of_unread {s : σ} (hv : (R.readBuf s).Valid)
    (hlen : (R.readBuf s).length = D.storage)
    (hle : (R.readBuf s).size ≤ maxPacketLength.toNat - 1) : (R.readBuf s).Ready D.storage := by
  have hroom := D.room
  have hpos : 0 < maxPacketLength.toNat := by decide
  rw [← hlen]
  apply IoBuffer.ready hv
  omega

theorem flowing_doRead {s : σ} (hv : (R.readBuf s).Valid)
    (hlen : (R.readBuf s).length = D.storage)
    (hle : (R.readBuf s).size ≤ maxPacketLength.toNat - 1) (hidle : D.Idle s) :
    D.Flowing (D.doRead s) := by
  obtain ⟨hwaiting, -, -⟩ := Stream.waiting_doRead hv hlen (D.slab_idle s hidle)
  have hsize : (R.readBuf (D.doRead s)).size = (R.readBuf s).size := by
    rcases D.doRead_cases s with heq | heq
    · rw [heq]
    · rw [heq, D.readBuf_startRead, IoBuffer.size_prepare]
  refine ⟨hwaiting, hsize ▸ hle, fun hopen' => ?_⟩
  cases hopen : D.isOpen s with
  | false =>
    rw [D.doRead_closed s hopen, hopen] at hopen'
    exact absurd hopen' (by simp)
  | true =>
    have hready := ready_of_unread hv hlen hle
    rw [D.doRead_open s hopen hidle hready.asks]
    refine ⟨_, D.slab_startRead s, ?_⟩
    rw [hready.slab_size]
    exact hready.asks

theorem idle_process {s : σ} (h : D.Idle s) : D.Idle (R.process s) :=
  R.processPacket_invariant (fun s hs => D.idle_set _ s hs)
    (fun s p _ hs => D.idle_dispatch _ p _ (D.idle_set _ s hs)) _ h

/-- **A read that completes makes progress.** -/
theorem Flowing.progress {s : σ} (hs : D.Flowing s) {slab : Slab} {read : TimePoint × List α}
    (hslab : D.slab s = some slab) (hle : read.2.length ≤ slab.size) :
    R.Progress (D.committed slab read s) (R.process (D.committed slab read s)) ∧
    (R.readBuf (R.process (D.committed slab read s))).Ready D.storage ∧
    D.Flowing (D.doRead (R.process (D.committed slab read s))) := by
  obtain ⟨hv, hlen, -⟩ := hs.toWaiting.committed hslab hle
  have hsmall : R.Small (D.committed slab read s) := ⟨hv, hlen ▸ D.storage_lt⟩
  have hprogress := progress_processPacket D.record hsmall
  obtain ⟨dispatched, hspec⟩ := Stream.process_spec hv hlen
  have hlen' := hspec.length_eq.trans hlen
  refine ⟨hprogress, ready_of_unread hspec.valid hlen' hprogress.unread_le, ?_⟩
  apply flowing_doRead hspec.valid hlen' hprogress.unread_le
  exact idle_process (D.idle_commit ..)

theorem complete_eq {s : σ} {slab : Slab} {read : TimePoint × List α}
    (hslab : D.slab s = some slab) (hle : read.2.length ≤ slab.size) :
    D.complete s read = some (D.handler read.2.length (D.arrive slab read s)) := by
  rw [complete, hslab]
  simp only
  rw [if_pos hle]

theorem flowing_complete {s t : σ} {read : TimePoint × List α} (hs : D.Flowing s)
    (h : D.complete s read = some t) : D.Flowing t := by
  cases hslab : D.slab s with
  | none =>
    rw [complete, hslab] at h
    exact absurd h (by simp)
  | some slab =>
    by_cases hle : read.2.length ≤ slab.size
    · rw [complete_eq hslab hle] at h
      rw [← Option.some.inj h]
      by_cases hpos : 0 < read.2.length
      · rw [D.handler_pos _ _ hpos]
        exact (hs.progress hslab hle).2.2
      · -- nothing came: the handler reads again
        obtain ⟨hv, hlen, -⟩ := hs.toWaiting.committed hslab hle
        have hzero : read.2.length = 0 := Nat.eq_zero_of_not_pos hpos
        have hbuf : (R.readBuf (D.committed slab read s)).size = (R.readBuf s).size := by
          rw [Stream.committed, D.readBuf_commit, D.readBuf_arrive, hzero]
          rfl
        have hidle := D.idle_commit read.2.length slab read s
        rw [Stream.committed] at hv hlen hbuf
        rw [hzero] at hv hlen hbuf hidle ⊢
        rw [D.handler_zero]
        exact flowing_doRead hv hlen (hbuf ▸ hs.unread_le) hidle
    · rw [complete, hslab] at h
      simp only at h
      rw [if_neg hle] at h
      exact absurd h (by simp)

/-- **Every sequence of reads leaves the connection flowing.** -/
theorem flowing_completeAll {s t : σ} {reads : List (TimePoint × List α)} (hs : D.Flowing s)
    (h : D.completeAll s reads = some t) : D.Flowing t := by
  induction reads generalizing s with
  | nil => exact Option.some.inj h ▸ hs
  | cons read reads ih =>
    obtain ⟨u, hu, hrest⟩ := Option.bind_eq_some_iff.mp h
    exact ih (flowing_complete hs hu) hrest

theorem Flowing.receiving {s : σ} (hs : D.Flowing s) : D.Receiving s := by
  refine ⟨fun hopen => ?_, fun slab read hslab hne hle => ?_⟩
  · obtain ⟨slab, hslab, hpos⟩ := hs.reading hopen
    obtain ⟨hdata, hfit⟩ := hs.slab_eq slab hslab
    refine ⟨slab, hslab, hpos, hfit, fun n hn => ?_⟩
    rw [IoBuffer.tail_commit]
    omega
  · obtain ⟨hprogress, hready, -⟩ := hs.progress hslab hle
    refine ⟨hprogress, hready, ?_⟩
    rw [complete_eq hslab hle, D.handler_pos _ _ (List.length_pos_of_ne_nil hne)]
    rfl

/-- The first `do_read_packet` of a connection and the reads after it. -/
theorem receiving_of_start {s t : σ} {reads : List (TimePoint × List α)}
    (hv : (R.readBuf s).Valid) (hlen : (R.readBuf s).length = D.storage)
    (hle : (R.readBuf s).size ≤ maxPacketLength.toNat - 1) (hidle : D.Idle s)
    (h : D.completeAll (D.doRead s) reads = some t) : D.Receiving t :=
  (flowing_completeAll (flowing_doRead hv hlen hle hidle) h).receiving

end Reader

end Receiver

/-! ### The session -/

namespace Session.Ctx

open Session (ReadLog maxReadBufferSize)

theorem pending_doWritePacket (s : Ctx ReadLog) (packet : SharedPacket) :
    (s.doWritePacket packet).readPending = s.readPending := by
  rw [doWritePacket]
  split
  · rfl
  · rfl

theorem pending_sendPacket (s : Ctx ReadLog) (packet : SharedPacket) :
    (s.sendPacket packet).readPending = s.readPending := by
  rw [sendPacket]
  split
  · exact pending_doWritePacket _ packet
  · exact pending_doWritePacket _ packet

theorem pending_runScript (s : Ctx ReadLog) : s.runScript.readPending = s.readPending := by
  have hfold : ∀ (packets : List SharedPacket) (t : Ctx ReadLog),
      (packets.foldl sendPacket t).readPending = t.readPending := by
    intro packets
    induction packets with
    | nil => intro t; rfl
    | cons packet packets ih =>
      intro t
      rw [List.foldl_cons, ih, pending_sendPacket]
  rw [runScript]
  split
  · rfl
  · exact hfold _ _

theorem pending_dispatchPacket (s : Ctx ReadLog) (packet : SharedPacket) :
    (s.dispatchPacket packet).readPending = s.readPending := by
  rw [dispatchPacket]
  split
  · refine (pending_runScript _).trans ?_
    rw [ackEntry]
    split
    · rfl
    · rfl
  · rw [processRequestPacket]
    simp only
    split
    · rfl
    · exact pending_runScript _

/-- The session as a reader. -/
def reader : (receiver (E := ReadLog)).Reader where
  toStream := stream
  isOpen := isConnected
  Idle s := s.env.slab = none ∧ s.readPending = false
  room := by decide
  slab_idle _ h := h.1
  idle_commit _ _ _ _ := ⟨rfl, rfl⟩
  idle_dispatch f p s h :=
    ⟨(stream.slab_dispatch f p s).trans h.1,
      (pending_dispatchPacket (s.emit (.recvPacket f p)) _).trans h.2⟩
  idle_set _ _ h := h
  doRead_closed _ h := if_pos h
  doRead_open _ hopen hidle hsize := doReadPacket_open hopen hidle.2 hsize

end Session.Ctx

/-! ### The client -/

theorem Link.pending_close {E : Type} [Platform Effect E] {l : Link E}
    (h : l.readPending = false) : l.close.readPending = false := by
  rcases Link.close_cases l with ⟨_, hc⟩ | ⟨_, _, hc⟩ | ⟨_, _, hc⟩
  · rw [hc]
    exact h
  · rw [hc]
  · rw [hc]
    rfl

theorem Link.pending_steps {E : Type} [Platform Effect E] {l m : Link E}
    (h : Relation.ReflTransGen Link.Step l m) (hl : l.readPending = false) :
    m.readPending = false := by
  induction h with
  | refl => exact hl
  | tail _ hstep ih =>
    cases hstep with
    | stop => exact Link.pending_close (l := Link.emit _ _) ih
    | emit effect h => exact ih
    | write packet h hp => exact ih
    | later t => exact ih
    | forget h => exact ih
    | clearStarted => exact ih
    | start host port h => exact ih
    | connect h hs => exact ih

namespace Ctx

open Client (ReadLog)

theorem pending_dispatchPacket {c : Ctx ReadLog} (packet : SharedPacket)
    (h : c.readPending = false) : (c.dispatchPacket packet).readPending = false := by
  refine Link.pending_steps (moves_dispatchPacket c packet) ?_
  rw [Link.receive]
  split
  · show (Link.ack _ packet).readPending = false
    rw [Link.ack]
    split
    · exact h
    · split
      · exact h
      · exact h
  · exact h

/-- The client as a reader. -/
def reader : (receiver (E := ReadLog)).Reader where
  toStream := stream
  isOpen := isConnected
  Idle c := c.env.slab = none ∧ c.readPending = false
  room := by decide
  slab_idle _ h := h.1
  idle_commit _ _ _ _ := ⟨rfl, rfl⟩
  idle_dispatch f p c h :=
    ⟨(stream.slab_dispatch f p c).trans h.1,
      pending_dispatchPacket (c := c.emit (.recvPacket f p)) _ h.2⟩
  idle_set _ _ h := h
  doRead_closed _ h := if_pos h
  doRead_open _ hopen hidle hsize := doReadPacket_open hopen hidle.2 hsize

end Ctx

/-! ### The main result -/

/-- **The receive path never wedges.**  Whatever the reads of a connection bring,
and however much each brings, every handler of a read makes progress, and while the
connection is open there is a read in flight into room for at least a byte. -/
theorem receives_forever :
    (∀ (s t : Session.Ctx Session.ReadLog) (reads : List (TimePoint × List UInt8)),
      s.readBuf.Valid → s.readBuf.length = Session.maxReadBufferSize →
      s.readBuf.size ≤ maxPacketLength.toNat - 1 → s.env.slab = none → s.readPending = false →
      Session.Ctx.reader.completeAll s.doReadPacket reads = some t →
      Session.Ctx.reader.Receiving t) ∧
    (∀ (c d : Ctx Client.ReadLog) (reads : List (TimePoint × List RecvByte)),
      c.readBuf.Valid → c.readBuf.length = maxReadBufferSize →
      c.readBuf.size ≤ maxPacketLength.toNat - 1 → c.env.slab = none → c.readPending = false →
      Ctx.reader.completeAll c.onConnected reads = some d → Ctx.reader.Receiving d) := by
  constructor
  · intro s t reads hv hlen hle hslab hpending h
    exact Receiver.Reader.receiving_of_start (D := Session.Ctx.reader) hv hlen hle
      ⟨hslab, hpending⟩ h
  · intro c d reads hv hlen hle hslab hpending h
    exact Receiver.Reader.receiving_of_start (D := Ctx.reader)
      (s := { c with connectState := .connected }) hv hlen hle ⟨hslab, hpending⟩ h

/-- A read of nothing, a read of garbage with half a frame, and the rest of it. -/
theorem receives_forever_three_reads :
    ∃ t d,
      Session.Ctx.reader.completeAll Session.Ctx.accepted.doReadPacket
        [(1, []), (2, 0x55 :: flagFrame.data.take 5), (3, flagFrame.data.drop 5)] = some t ∧
      Ctx.reader.completeAll Ctx.constructed.onConnected
        [(1, []), (2, asReceived (0x55 :: flagFrame.data.take 5)),
          (3, asReceived (flagFrame.data.drop 5))] = some d ∧
      Session.Ctx.reader.Receiving t ∧ Ctx.reader.Receiving d := by
  have hs : (Session.Ctx.reader.completeAll Session.Ctx.accepted.doReadPacket
      [(1, []), (2, 0x55 :: flagFrame.data.take 5), (3, flagFrame.data.drop 5)]).isSome = true := by
    decide +kernel
  have hc : (Ctx.reader.completeAll Ctx.constructed.onConnected
      [(1, []), (2, asReceived (0x55 :: flagFrame.data.take 5)),
        (3, asReceived (flagFrame.data.drop 5))]).isSome = true := by
    decide +kernel
  obtain ⟨t, ht⟩ := Option.isSome_iff_exists.mp hs
  obtain ⟨d, hd⟩ := Option.isSome_iff_exists.mp hc
  exact ⟨t, d, ht, hd,
    receives_forever.1 _ t _ (IoBuffer.valid_new ..) rfl (by decide) rfl rfl ht,
    receives_forever.2 _ d _ (IoBuffer.valid_new ..) rfl (by decide) rfl rfl hd⟩

end Ibase
