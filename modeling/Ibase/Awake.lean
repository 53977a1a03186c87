import Ibase.Progress
import Ibase.World

/-!
# What the client waits for

A client does nothing between two handlers, so it is stuck in a state in which no handler
is to come.  `do_reconnect_check` leaves a client alone that is connecting or connected,
and a client that is disconnected has the check timer only.  So a connecting client must
have an `async_connect` to come back, a connected one a read, and every started one the
check timer (`World.never_stuck`).

The first two hold of the connection whatever runs (`Link.Awake`).  The check timer of a
started client runs as long as no `start_impl` comes between a `stop` that has cleared
`started_` and its `stop_impl` (`Ctx.Checked`).
-/

namespace Ibase

open Relation StreamDecoder

/-! ### What stays unread -/

namespace Receiver

variable {σ α : Type} {R : Receiver σ α}

/-- **Less than a packet stays unread**, if no packet's handler adds to the buffer. -/
theorem size_processPacket (hset : ∀ b s, R.readBuf (R.setReadBuf b s) = b)
    (hdispatch : ∀ f p s, (R.readBuf (R.dispatch f p s)).size ≤ (R.readBuf s).size) {rounds : Nat}
    {s : σ} (hsize : (R.readBuf s).size < 2 ^ 32) (hr : (R.readBuf s).size < rounds) :
    (R.readBuf (R.processPacket rounds s)).size ≤ maxPacketLength.toNat - 1 := by
  induction rounds generalizing s with
  | zero => exact absurd hr (Nat.not_lt_zero _)
  | succ rounds ih =>
    have hconsumed : (R.bytes (R.consumed s)) =
        (R.bytes s).drop (frameDecoder.first (R.bytes s)).2 := by
      rw [bytes, consumed, hset, IoBuffer.unread_consume _ (R.parse_snd_le hsize), List.map_drop,
        R.parse_eq hsize]
      rfl
    cases hp : (R.parse s).1 with
    | none =>
      rw [R.processPacket_none hp, ← R.length_bytes, hconsumed]
      rw [R.parse_eq hsize] at hp
      have hrun := frameDecoder.run_first (R.bytes s)
      rw [hp] at hrun
      have hmore := frameDecoder.verdict_run_snd (R.bytes s)
      rw [hrun] at hmore
      exact length_of_more hmore
    | some p =>
      rw [R.processPacket_some hp]
      have hless := congrArg List.length hconsumed
      have hkeep := hdispatch (R.frameItems s p) p (R.consumed s)
      rw [R.parse_eq hsize] at hp
      have hpos := frameDecoder.first_snd_pos hp
      have hle := frameDecoder.first_snd_le (R.bytes s)
      rw [List.length_drop, R.length_bytes, R.length_bytes] at hless
      rw [R.length_bytes] at hle
      apply ih
      · omega
      · omega

end Receiver

/-! ### What asio still owes -/

namespace Io

/-- The handler of an `async_connect` is to come. -/
def AwaitsConnect (io : Io) : Prop := io.connectOp ≠ none ∨ ∃ tag ec, .connect tag ec ∈ io.ready

/-- The handler of an `async_read_some` is to come. -/
def AwaitsRead (io : Io) : Prop := io.readOps ≠ [] ∨ ∃ tag ec n, .readSome tag ec n ∈ io.ready

/-- No read brings more than the storage holds. -/
structure Bounded (io : Io) : Prop where
  readOps : ∀ op ∈ io.readOps, op.2.size ≤ maxReadBufferSize
  ready : ∀ tag ec n, .readSome tag ec n ∈ io.ready → n ≤ maxReadBufferSize

/-- Nothing that the client tells asio takes a handler out of the queue. -/
theorem ready_perform (io : Io) (effect : Effect) :
    io.ready <+: (Platform.perform effect io : Io).ready := by
  cases effect with
  | asyncReadSome buf isOpen =>
    cases isOpen with
    | true => exact List.prefix_refl _
    | false => exact List.prefix_append ..
  | asyncWrite packet isOpen =>
    cases isOpen with
    | true => exact List.prefix_refl _
    | false => exact List.prefix_append ..
  | asyncConnect host port => exact List.prefix_append ..
  | closeSocket => exact List.prefix_append ..
  | post task => exact List.prefix_append ..
  | cancelTimer timerId => exact List.prefix_append ..
  | _ => exact List.prefix_refl _

theorem AwaitsConnect.abort {io : Io} (h : io.AwaitsConnect) : io.abort.AwaitsConnect := by
  rcases h with h | ⟨tag, ec, h⟩
  · obtain ⟨tag, htag⟩ := Option.ne_none_iff_exists'.mp h
    refine .inr ⟨tag, true, ?_⟩
    simp [Io.abort, aborted, htag]
  · exact .inr ⟨tag, ec, List.mem_append_left _ h⟩

theorem AwaitsConnect.perform {io : Io} (h : io.AwaitsConnect) (effect : Effect) :
    Io.AwaitsConnect (Platform.perform effect io) := by
  have hready : (∃ tag ec, .connect tag ec ∈ io.ready) →
      ∃ tag ec, .connect tag ec ∈ (Platform.perform effect io : Io).ready := by
    rintro ⟨tag, ec, h⟩
    exact ⟨tag, ec, (ready_perform io effect).subset h⟩
  cases effect with
  | asyncConnect host port => exact .inl (by simp [Platform.perform, react])
  | closeSocket => exact h.abort
  | asyncReadSome buf isOpen => cases isOpen <;> exact h.imp_right hready
  | asyncWrite packet isOpen => cases isOpen <;> exact h.imp_right hready
  | _ => exact h.imp_right hready

theorem AwaitsRead.abort {io : Io} (h : io.AwaitsRead) : io.abort.AwaitsRead := by
  rcases h with h | ⟨tag, ec, n, h⟩
  · obtain ⟨op, hop⟩ := List.exists_mem_of_ne_nil _ h
    refine .inr ⟨op.1, true, 0, List.mem_append_right _ ?_⟩
    exact List.mem_append_left _ (List.mem_map.mpr ⟨op, hop, rfl⟩)
  · exact .inr ⟨tag, ec, n, List.mem_append_left _ h⟩

theorem AwaitsRead.perform {io : Io} (h : io.AwaitsRead) (effect : Effect) :
    Io.AwaitsRead (Platform.perform effect io) := by
  have hready : (∃ tag ec n, .readSome tag ec n ∈ io.ready) →
      ∃ tag ec n, .readSome tag ec n ∈ (Platform.perform effect io : Io).ready := by
    rintro ⟨tag, ec, n, h⟩
    exact ⟨tag, ec, n, (ready_perform io effect).subset h⟩
  cases effect with
  | asyncConnect host port => exact h.abort
  | closeSocket => exact h.abort
  | asyncReadSome buf isOpen =>
    cases isOpen with
    | true => exact .inl (by simp [Platform.perform, react])
    | false => exact h.imp_right hready
  | asyncWrite packet isOpen => cases isOpen <;> exact h.imp_right hready
  | _ => exact h.imp_right hready

/-- A read is owed that has just begun. -/
theorem awaitsRead_asyncReadSome (io : Io) (buf : Slab) (isOpen : Bool) :
    Io.AwaitsRead (Platform.perform (Effect.asyncReadSome buf isOpen) io) := by
  cases isOpen with
  | true => exact .inl (by simp [Platform.perform, react])
  | false => exact .inr ⟨io.nowTag, true, 0, by simp [Platform.perform, react]⟩

theorem Bounded.append {io : Io} (h : io.Bounded) {gs : List Handler}
    (hgs : ∀ tag ec n, .readSome tag ec n ∈ gs → n ≤ maxReadBufferSize) (tag : OpTag) (ec : Bool)
    (n : Nat) (hin : .readSome tag ec n ∈ io.ready ++ gs) : n ≤ maxReadBufferSize := by
  rcases List.mem_append.mp hin with hin | hin
  · exact h.ready tag ec n hin
  · exact hgs tag ec n hin

theorem Bounded.abort {io : Io} (h : io.Bounded) : io.abort.Bounded := by
  refine ⟨by simp [Io.abort], h.append ?_⟩
  intro tag ec n hin
  simp [aborted] at hin
  omega

theorem Bounded.perform {io : Io} (h : io.Bounded) {effect : Effect}
    (hread : ∀ buf isOpen, effect = .asyncReadSome buf isOpen → buf.size ≤ maxReadBufferSize) :
    Io.Bounded (Platform.perform effect io) := by
  cases effect with
  | asyncConnect host port => exact ⟨h.abort.readOps, h.abort.ready⟩
  | closeSocket => exact ⟨h.abort.readOps, h.abort.ready⟩
  | asyncReadSome buf isOpen =>
    cases isOpen with
    | true =>
      refine ⟨?_, h.ready⟩
      intro op hop
      rcases List.mem_append.mp hop with hop | hop
      · exact h.readOps op hop
      · rw [List.mem_singleton.mp hop]
        exact hread buf true rfl
    | false => exact ⟨h.readOps, h.append (by simp)⟩
  | asyncWrite packet isOpen =>
    cases isOpen with
    | true => exact ⟨h.readOps, h.ready⟩
    | false => exact ⟨h.readOps, h.append (by simp)⟩
  | post task => exact ⟨h.readOps, h.append (by simp)⟩
  | cancelTimer timerId => exact ⟨h.readOps, h.append (by simp)⟩
  | _ => exact ⟨h.readOps, h.ready⟩

end Io

/-! ### The connection waits for its operations -/

namespace Link

/-- Whoever waits for an operation, waits for one that is to come. -/
structure Awaits (l : Link Io) : Prop where
  connecting : l.connectState = .connecting → l.env.AwaitsConnect
  reading : l.readPending = true → l.env.AwaitsRead
  bounded : l.env.Bounded
  length_eq : l.readBuf.length = maxReadBufferSize

/-- What holds between two handlers: also, a client that is connected reads. -/
structure Awake (l : Link Io) : Prop extends Awaits l where
  connected : l.connectState = .connected → l.readPending = true
  unread_le : l.readBuf.size ≤ maxPacketLength.toNat - 1

variable {l m : Link Io}

/-- An effect other than that of `do_read_packet`. -/
theorem Awaits.emit (h : l.Awaits) {effect : Effect}
    (he : ∀ buf isOpen, effect ≠ .asyncReadSome buf isOpen) : (l.emit effect).Awaits := by
  refine ⟨fun hs => (h.connecting hs).perform effect, fun hp => (h.reading hp).perform effect,
    h.bounded.perform ?_, h.length_eq⟩
  intro buf isOpen heq
  exact absurd heq (he buf isOpen)

/-- The client counts as disconnected, or as before, and reads no more than before. -/
theorem Awaits.aside (h : l.Awaits) (henv : m.env = l.env)
    (hs : m.connectState = l.connectState ∨ m.connectState = .disconnected)
    (hp : m.readPending = true → l.readPending = true)
    (hlen : m.readBuf.length = l.readBuf.length) : m.Awaits := by
  refine ⟨?_, fun hpm => henv ▸ h.reading (hp hpm), henv ▸ h.bounded, hlen.trans h.length_eq⟩
  intro hm
  rcases hs with hs | hs
  · exact henv ▸ h.connecting (hs ▸ hm)
  · rw [hs] at hm
    cases hm

theorem Awaits.close (h : l.Awaits) : l.close.Awaits := by
  have hmark : (l.emit .doClose).Awaits := h.emit (by simp)
  rcases close_cases l with ⟨-, heq⟩ | ⟨-, -, heq⟩ | ⟨-, -, heq⟩
  · rw [heq]
    exact hmark
  · rw [heq]
    exact hmark.aside rfl (.inr rfl) (by simp) rfl
  · rw [heq]
    refine Awaits.emit ?_ (by simp)
    exact hmark.aside rfl (.inr rfl) (by simp) rfl

theorem Awaits.connect (h : l.Awaits) : l.connect.Awaits := by
  have hmark : (l.emit (.doConnect l.readBuf.size)).Awaits := h.emit (by simp)
  refine ⟨fun _ => .inl ?_, fun hp => (hmark.reading hp).perform _,
    hmark.bounded.perform (by simp), hmark.length_eq⟩
  simp [Link.connect, Link.emit, Platform.perform, Io.react]

/-- **What happens outside the handlers of the connection takes nothing from it that it
waits for.** -/
theorem Awaits.step (h : l.Awaits) (hs : Step l m) : m.Awaits := by
  cases hs with
  | emit effect he =>
    refine h.emit ?_
    rintro buf isOpen rfl
    cases he
  | write packet hc hp => exact h.emit (by simp)
  | later t => exact h.aside rfl (.inl rfl) id rfl
  | forget hstop => exact h.aside rfl (.inl rfl) id rfl
  | clearStarted => exact h.aside rfl (.inl rfl) id rfl
  | start host port hf =>
    have hmark : (l.emit .startImpl).Awaits := h.emit (by simp)
    exact Awaits.connect (hmark.aside rfl (.inl rfl) id rfl)
  | stop =>
    have hmark : (l.emit (.stopImpl l.started l.connectState)).Awaits := h.emit (by simp)
    exact hmark.close.aside rfl (.inl rfl) id rfl
  | connect hst hdis => exact h.connect

/-- The buffer is as before, or empty. -/
theorem size_step (hs : Step l m) : m.readBuf.size ≤ l.readBuf.size := by
  cases hs with
  | stop => exact Nat.zero_le _
  | _ => exact Nat.le_refl _

theorem readBuf_close (l : Link Io) : l.close.readBuf = l.readBuf := by
  rcases close_cases l with ⟨-, heq⟩ | ⟨-, -, heq⟩ | ⟨-, -, heq⟩ <;> rw [heq] <;> rfl

theorem connectState_close (l : Link Io) : l.close.connectState = .disconnected := by
  rcases close_cases l with ⟨hdis, heq⟩ | ⟨-, -, heq⟩ | ⟨-, -, heq⟩
  · rw [heq]
    exact hdis
  · rw [heq]
  · rw [heq]
    rfl

/-- Nobody but the handler of a connect makes a client connected. -/
theorem connected_step (hs : Step l m) (h : l.connectState = .connected → l.readPending = true)
    (hm : m.connectState = .connected) : m.readPending = true := by
  cases hs with
  | stop =>
    have hdis := connectState_close (l.emit (.stopImpl l.started l.connectState))
    have hm' : (l.emit (.stopImpl l.started l.connectState)).close.connectState = .connected := hm
    rw [hdis] at hm'
    cases hm'
  | start host port hf => cases hm
  | connect hst hdis => cases hm
  | _ => exact h hm

theorem Awake.step (h : l.Awake) (hs : Step l m) : m.Awake :=
  ⟨h.toAwaits.step hs, connected_step hs h.connected, Nat.le_trans (size_step hs) h.unread_le⟩

theorem Awake.steps (h : l.Awake) (hs : ReflTransGen Step l m) : m.Awake := by
  induction hs with
  | refl => exact h
  | tail _ hstep ih => exact ih.step hstep

theorem Awaits.steps (h : l.Awaits) (hs : ReflTransGen Step l m) : m.Awaits := by
  induction hs with
  | refl => exact h
  | tail _ hstep ih => exact ih.step hstep

theorem size_steps (hs : ReflTransGen Step l m) : m.readBuf.size ≤ l.readBuf.size := by
  induction hs with
  | refl => exact Nat.le_refl _
  | tail _ hstep ih => exact Nat.le_trans (size_step hstep) ih

theorem Awaits.receive (h : l.Awaits) (packet : SharedPacket) : (l.receive packet).Awaits := by
  unfold Link.receive
  split
  · have hack : (l.ack packet).Awaits := by
      rcases l.ack_cases packet with heq | ⟨rspPacket, -, heq⟩
      · rw [heq]
        exact h
      · rw [heq]
        exact h.emit (by simp)
    exact hack.aside rfl (.inl rfl) id rfl
  · exact h

theorem readBuf_receive (l : Link Io) (packet : SharedPacket) :
    (l.receive packet).readBuf = l.readBuf := by
  unfold Link.receive
  split
  · rcases l.ack_cases packet with heq | ⟨rspPacket, -, heq⟩
    · rw [heq]
    · rw [heq]
      rfl
  · rfl

/-- **`do_read_packet` leaves a connected client with a read.**  There is room, since less
than a packet is unread. -/
theorem Awaits.read (h : l.Awaits) (hle : l.readBuf.size ≤ maxPacketLength.toNat - 1) :
    l.read.Awake := by
  have hcap : l.readBuf.capacity = maxReadBufferSize - l.readBuf.size := by
    rw [IoBuffer.capacity, h.length_eq]
  have hroom : maxPacketLength.toNat - 1 < maxReadBufferSize := by decide
  have hask : ¬ l.readBuf.sizeToRead ≤ 0 := by
    rw [IoBuffer.sizeToRead, IoBuffer.freeSize]
    split
    · omega
    · omega
  rw [Link.read]
  split
  · rename_i hs
    exact ⟨h, fun hc => absurd hc hs, hle⟩
  split
  · rename_i hp
    exact ⟨h, fun _ => hp, hle⟩
  · rename_i hs hp
    simp only
    rw [if_neg hask]
    refine ⟨⟨fun hc => ?_, fun _ => Io.awaitsRead_asyncReadSome .., h.bounded.perform ?_, ?_⟩,
      fun _ => rfl, ?_⟩
    · have hc' : l.connectState = .connecting := hc
      rw [not_not.mp hs] at hc'
      cases hc'
    · rintro buf isOpen heq
      obtain ⟨hbuf, -⟩ := Effect.asyncReadSome.inj heq
      rw [← hbuf, IoBuffer.prepare_slab_size, hcap]
      omega
    · exact (IoBuffer.length_prepare ..).trans h.length_eq
    · refine Nat.le_trans (Nat.le_of_eq ?_) hle
      exact IoBuffer.size_prepare ..

/-- An operation completes: it is no longer outstanding, and its handler is queued. -/
theorem Awake.complete (h : l.Awake) {g : Handler} {connectOp : Option OpTag}
    {readOps : List (OpTag × Slab)} {writeOps : List OpTag} {waits : List UInt32}
    {rx : List RecvByte} {buffer : Nat → RecvByte}
    (hconnect : connectOp = l.env.connectOp ∨ ∃ tag ec, g = .connect tag ec)
    (hread : readOps = l.env.readOps ∨
      (∀ op ∈ readOps, op ∈ l.env.readOps) ∧ ∃ tag ec n, g = .readSome tag ec n)
    (hg : ∀ tag ec n, g = .readSome tag ec n → n ≤ maxReadBufferSize) :
    Awake { l with
      readBuf := { l.readBuf with buffer := buffer }
      env := { l.env with
        ready := l.env.ready ++ [g], connectOp := connectOp, readOps := readOps
        writeOps := writeOps, waits := waits, rx := rx } } := by
  refine ⟨⟨fun hs => ?_, fun hp => ?_, ⟨?_, ?_⟩, h.length_eq⟩, h.connected, h.unread_le⟩
  · rcases hconnect with heq | ⟨tag, ec, rfl⟩
    · rcases h.connecting hs with hop | ⟨tag, ec, hin⟩
      · exact .inl (heq ▸ hop)
      · exact .inr ⟨tag, ec, List.mem_append_left _ hin⟩
    · exact .inr ⟨tag, ec, List.mem_append_right _ (List.mem_singleton.mpr rfl)⟩
  · rcases hread with heq | ⟨-, tag, ec, n, rfl⟩
    · rcases h.reading hp with hop | ⟨tag, ec, n, hin⟩
      · exact .inl (heq ▸ hop)
      · exact .inr ⟨tag, ec, n, List.mem_append_left _ hin⟩
    · exact .inr ⟨tag, ec, n, List.mem_append_right _ (List.mem_singleton.mpr rfl)⟩
  · intro op hop
    rcases hread with heq | ⟨hsub, -⟩
    · exact h.bounded.readOps op (heq ▸ hop)
    · exact h.bounded.readOps op (hsub op hop)
  · refine h.bounded.append ?_
    intro tag ec n hin
    exact hg tag ec n (List.mem_singleton.mp hin).symm

theorem Awake.event {e : Ibase.Event} (h : l.Awake) (he : Event e l m) : m.Awake := by
  cases he with
  | steps hs => exact h.steps hs
  | connect tag ec hop => exact h.complete (.inr ⟨tag, ec, rfl⟩) (.inl rfl) (by simp)
  | received op tag slab bytes heq hop hlen =>
    refine h.complete (.inl rfl) (.inr ⟨fun _ => List.mem_of_mem_eraseIdx, _, _, _, rfl⟩) ?_
    intro tag' ec n hg
    have hslab := h.bounded.readOps _ (List.mem_of_getElem? hop)
    obtain ⟨-, -, rfl⟩ := Handler.readSome.inj hg
    exact Nat.le_trans hlen hslab
  | readFailed op r hop =>
    refine h.complete (.inl rfl) (.inr ⟨fun _ => List.mem_of_mem_eraseIdx, _, _, _, rfl⟩) ?_
    intro tag' ec n hg
    obtain ⟨-, -, rfl⟩ := Handler.readSome.inj hg
    exact Nat.zero_le _
  | write op tag ec hop => exact h.complete (.inl rfl) (.inl rfl) (by simp)
  | wait wait id hop => exact h.complete (.inl rfl) (.inl rfl) (by simp)

end Link

/-! ### The handlers of the connection -/

namespace Ctx

/-- The loop of `process_packet` may begin with more than a packet unread. -/
theorem awaits_processPacket {c : Ctx Io} (h : c.link.Awaits) (hsize : c.readBuf.size < 2 ^ 32) :
    c.processPacket.link.Awaits ∧ c.processPacket.readBuf.size ≤ maxPacketLength.toNat - 1 := by
  constructor
  · refine (receiver (E := Io)).processPacket_invariant (P := fun d => d.link.Awaits) ?_ ?_ _ h
    · intro d hd
      exact hd.aside rfl (.inl rfl) id (IoBuffer.length_consume ..)
    · intro d p _ hd
      have hconsumed : (receiver.consumed d).link.Awaits :=
        hd.aside rfl (.inl rfl) id (IoBuffer.length_consume ..)
      have hmark : ((receiver.consumed d).emit
          (.recvPacket (receiver.frameItems d p) p)).link.Awaits := hconsumed.emit (by simp)
      exact (hmark.receive (SharedPacket.received p)).steps (moves_dispatchPacket _ _)
  · refine Receiver.size_processPacket (R := receiver (E := Io)) (fun _ _ => rfl) ?_ hsize
      (Nat.lt_succ_self _)
    intro f p d
    have hsteps := Link.size_steps (moves_dispatchPacket (d.emit (.recvPacket f p))
      (SharedPacket.received p))
    rw [Link.readBuf_receive] at hsteps
    exact hsteps

/-- The read that the client waited for is over. -/
theorem awake_onReadCompleted {c : Ctx Io} (h : ({ c with readPending := false } : Ctx Io).link.Awaits)
    (hunread : c.readBuf.size ≤ maxPacketLength.toNat - 1) (ec : Bool) {length : Nat}
    (hle : length ≤ maxReadBufferSize) : (c.onReadCompleted ec length).link.Awake := by
  rw [onReadCompleted]
  split
  · rw [link_doClose]
    refine ⟨h.close, fun hc => ?_, ?_⟩
    · rw [Link.connectState_close] at hc
      cases hc
    · rw [Link.readBuf_close]
      exact hunread
  rw [processReadData, link_doReadPacket]
  split
  · have hcommit : ({ c with readPending := false, readBuf := c.readBuf.commit length } :
        Ctx Io).link.Awaits := h.aside rfl (.inl rfl) id rfl
    have hsize : (c.readBuf.commit length).size < 2 ^ 32 := by
      have hpacket : maxPacketLength.toNat - 1 < 2 ^ 31 := by decide
      have hread : maxReadBufferSize < 2 ^ 31 := by decide
      rw [IoBuffer.size] at hunread ⊢
      rw [IoBuffer.tail_commit]
      show c.readBuf.tail + length - c.readBuf.head < 2 ^ 32
      omega
    obtain ⟨hawaits, hless⟩ := awaits_processPacket hcommit hsize
    exact hawaits.read hless
  · exact h.read hunread

/-- The connect that the client waited for is over. -/
theorem awake_onConnectCompleted {c : Ctx Io}
    (h : ({ c with connectState := .disconnected } : Ctx Io).link.Awake) (ec : Bool) :
    (c.onConnectCompleted ec).link.Awake := by
  rw [onConnectCompleted]
  split
  · exact h
  · rw [onConnected, link_doReadPacket]
    refine Link.Awaits.read ⟨?_, h.reading, h.bounded, h.length_eq⟩ h.unread_le
    intro hc
    cases hc

theorem awake_onWriteCompleted {c : Ctx Io} (h : c.link.Awake) (ec : Bool) :
    (c.onWriteCompleted ec).link.Awake := by
  rw [onWriteCompleted]
  split
  · rw [link_doClose]
    refine ⟨h.toAwaits.close, fun hc => ?_, ?_⟩
    · rw [Link.connectState_close] at hc
      cases hc
    · rw [Link.readBuf_close]
      exact h.unread_le
  · exact h

end Ctx

namespace World

theorem awake_new : new.link.Awake := by
  refine ⟨⟨?_, ?_, ⟨?_, ?_⟩, rfl⟩, ?_, Nat.zero_le _⟩
  · intro hs
    cases hs
  · intro hp
    cases hp
  · exact fun op hop => absurd hop List.not_mem_nil
  · exact fun tag ec n hin => absurd hin List.not_mem_nil
  · intro hs
    cases hs

/-- The next handler runs.  The client may have waited for it, and does no longer. -/
theorem awake_run {w : World} (h : w.link.Awake) {g : Handler} {rest : List Handler}
    (hr : w.io.ready = g :: rest) (script : List CallbackRun) :
    (w.leave ((({ w with io := { w.io with ready := rest } } : World).enter script).runHandler
      g)).link.Awake := by
  let c := ({ w with io := { w.io with ready := rest } } : World).enter script
  have hbounded : c.env.Bounded :=
    ⟨h.bounded.readOps, fun tag ec n hin => h.bounded.ready tag ec n (hr ▸ List.mem_cons_of_mem g hin)⟩
  have hconnect : (∀ tag ec, g ≠ .connect tag ec) → w.io.AwaitsConnect → c.env.AwaitsConnect := by
    rintro hne (hop | ⟨tag, ec, hin⟩)
    · exact .inl hop
    · rw [hr] at hin
      exact .inr ⟨tag, ec, (List.mem_cons.mp hin).resolve_left (fun heq => hne tag ec heq.symm)⟩
  have hread : (∀ tag ec n, g ≠ .readSome tag ec n) → w.io.AwaitsRead → c.env.AwaitsRead := by
    rintro hne (hop | ⟨tag, ec, n, hin⟩)
    · exact .inl hop
    · rw [hr] at hin
      exact .inr ⟨tag, ec, n, (List.mem_cons.mp hin).resolve_left (fun heq => hne tag ec n heq.symm)⟩
  have hpop : (∀ tag ec, g ≠ .connect tag ec) → (∀ tag ec n, g ≠ .readSome tag ec n) →
      c.link.Awake := fun hc hr => ⟨⟨fun hs => hconnect hc (h.connecting hs),
    fun hp => hread hr (h.reading hp), hbounded, h.length_eq⟩, h.connected, h.unread_le⟩
  cases g with
  | task task => exact (hpop (by simp) (by simp)).steps (Ctx.moves_runTask c task)
  | wait timerId ec => exact (hpop (by simp) (by simp)).steps (Ctx.moves_onTimer c timerId ec)
  | write tag ec => exact Ctx.awake_onWriteCompleted (hpop (by simp) (by simp)) ec
  | connect tag ec =>
    refine Ctx.awake_onConnectCompleted (c := c) ?_ ec
    refine ⟨⟨?_, fun hp => hread (by simp) (h.reading hp), hbounded, h.length_eq⟩, ?_, h.unread_le⟩
    · intro hs
      cases hs
    · intro hs
      cases hs
  | readSome tag ec n =>
    refine Ctx.awake_onReadCompleted (c := c) ?_ h.unread_le ec ?_
    · refine ⟨fun hs => hconnect (by simp) (h.connecting hs), ?_, hbounded, h.length_eq⟩
      intro hp
      cases hp
    · exact h.bounded.ready tag ec n (hr ▸ List.mem_cons_self)

theorem awake_step {w v : World} (h : w.link.Awake) {e : Event} (hs : w.step e = some v) :
    v.link.Awake := by
  rcases step_cases hs with ⟨script, g, rest, hr, rfl⟩ | hev
  · exact awake_run h hr script
  · exact h.event hev

end World

end Ibase
