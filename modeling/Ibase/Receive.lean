import Ibase.Framing
import Ibase.IoBuffer

/-!
# The receive loop

`process_packet` stands word for word in the client and in the session: parse at
the read head, consume, and dispatch the packet, until `parse_packet` returns no
packet.  `Receiver` says where an object keeps its buffer and what it does with
a packet, and `processPacket` is the loop.  `Handler` is the handler of a read
around it.

A packet's handler may empty the buffer (the client's `stop`) and does nothing
else to it.  `Record` says so for a receiver; then the loop is `frameDecoder`
run over the unread bytes (`Record.processPacket_spec`).
-/

namespace Ibase

open StreamDecoder

/-- What surrounds an object and takes the effects of its handlers. -/
class Platform (Effect : Type) (E : Type) where
  perform : Effect → E → E

/-- An object that reads packets out of an `io_buffer`. -/
structure Receiver (σ α : Type) where
  readBuf : σ → IoBuffer α
  setReadBuf : IoBuffer α → σ → σ
  /-- The byte that an item of the storage holds. -/
  byte : α → UInt8
  /-- What happens to a packet, given the items it was parsed from. -/
  dispatch : List α → Packet → σ → σ

namespace Receiver

variable {σ α : Type} (R : Receiver σ α)

/-- `parse_packet(read_buf_.read_head(), read_buf_.size(), consume_len)`. -/
def parse (s : σ) : Option Packet × Nat :=
  ((parsePacket ((R.readBuf s).unread.map R.byte) (UInt32.ofNat (R.readBuf s).size)).1,
    (parsePacket ((R.readBuf s).unread.map R.byte) (UInt32.ofNat (R.readBuf s).size)).2.toNat)

/-- The items of the packet that ends where the consumed ones end. -/
def frameItems (s : σ) (packet : Packet) : List α :=
  ((R.readBuf s).unread.take (R.parse s).2).drop ((R.parse s).2 - packet.data.length)

/-- The state after `read_buf_.consume(consume_len)`. -/
def consumed (s : σ) : σ := R.setReadBuf ((R.readBuf s).consume (R.parse s).2) s

/-- The loop of `process_packet`.  Every round that dispatches has consumed a
header at least, so as many rounds as there are unread bytes and one more are
never all used up. -/
def processPacket : Nat → σ → σ
  | 0, s => s
  | rounds + 1, s =>
    match (R.parse s).1 with
    | none => R.consumed s
    | some packet => processPacket rounds (R.dispatch (R.frameItems s packet) packet (R.consumed s))

/-! ### One round -/

theorem processPacket_none {s : σ} (h : (R.parse s).1 = none) (rounds : Nat) :
    R.processPacket (rounds + 1) s = R.consumed s := by
  rw [processPacket, h]

theorem processPacket_some {s : σ} {p : Packet} (h : (R.parse s).1 = some p) (rounds : Nat) :
    R.processPacket (rounds + 1) s =
      R.processPacket rounds (R.dispatch (R.frameItems s p) p (R.consumed s)) := by
  rw [processPacket, h]

/-- What every round of the loop preserves, the loop preserves. -/
theorem processPacket_invariant {P : σ → Prop} (hnone : ∀ s, P s → P (R.consumed s))
    (hsome : ∀ s p, (R.parse s).1 = some p → P s →
      P (R.dispatch (R.frameItems s p) p (R.consumed s)))
    (rounds : Nat) {s : σ} (h : P s) : P (R.processPacket rounds s) := by
  induction rounds generalizing s with
  | zero => exact h
  | succ rounds ih =>
    cases hp : (R.parse s).1 with
    | none =>
      rw [R.processPacket_none hp]
      exact hnone s h
    | some p =>
      rw [R.processPacket_some hp]
      exact ih (hsome s p hp h)

/-- `process_packet`. -/
def process (s : σ) : σ := R.processPacket ((R.readBuf s).size + 1) s

/-- The handler of a read: it commits what came, runs the loop if that was
something, and has `do_read_packet` start the next read, if it does start one. -/
structure Handler where
  commit : Nat → σ → σ
  startRead : σ → σ
  doRead : σ → σ
  handler : Nat → σ → σ
  readBuf_commit : ∀ n s, R.readBuf (commit n s) = (R.readBuf s).commit n
  readBuf_startRead : ∀ s,
    R.readBuf (startRead s) = ((R.readBuf s).prepare (R.readBuf s).sizeToRead).2
  doRead_cases : ∀ s, doRead s = s ∨ doRead s = startRead s
  handler_pos : ∀ n s, 0 < n → handler n s = doRead (R.process (commit n s))
  handler_zero : ∀ s, handler 0 s = doRead (commit 0 s)

/-- **What the parts of the handler preserve, it preserves.** -/
theorem Handler.invariant {R : Receiver σ α} (H : R.Handler) {P : σ → Prop}
    (hset : ∀ b s, P s → P (R.setReadBuf b s)) (hdispatch : ∀ f p s, P s → P (R.dispatch f p s))
    (hcommit : ∀ n s, P s → P (H.commit n s)) (hstart : ∀ s, P s → P (H.startRead s))
    (n : Nat) {s : σ} (h : P s) : P (H.handler n s) := by
  have hdoRead : ∀ t, P t → P (H.doRead t) := by
    intro t ht
    rcases H.doRead_cases t with heq | heq
    · rw [heq]
      exact ht
    · rw [heq]
      exact hstart t ht
  rcases Nat.eq_zero_or_pos n with rfl | hpos
  · rw [H.handler_zero]
    exact hdoRead _ (hcommit 0 s h)
  · rw [H.handler_pos n s hpos]
    refine hdoRead _ (R.processPacket_invariant (fun t => hset _ t) ?_ _ (hcommit n s h))
    exact fun t p _ ht => hdispatch _ p _ (hset _ t ht)

/-- The bytes that the buffer holds unread. -/
def bytes (s : σ) : List UInt8 := (R.readBuf s).unread.map R.byte

theorem length_bytes (s : σ) : (R.bytes s).length = (R.readBuf s).size := by
  rw [bytes, List.length_map, IoBuffer.length_unread]

theorem parse_eq {s : σ} (hsize : (R.readBuf s).size < 2 ^ 32) :
    R.parse s = frameDecoder.first (R.bytes s) := by
  have hlen : (R.bytes s).length = (UInt32.ofNat (R.readBuf s).size).toNat := by
    rw [length_bytes, UInt32.toNat_ofNat_of_lt' hsize]
  have h1 := parsePacket_fst hlen
  have h2 := parsePacket_snd hlen
  exact Prod.ext h1 h2

theorem parse_snd_le {s : σ} (hsize : (R.readBuf s).size < 2 ^ 32) :
    (R.parse s).2 ≤ (R.readBuf s).size := by
  rw [R.parse_eq hsize, ← R.length_bytes]
  exact frameDecoder.first_snd_le _

/-- The items of a packet carry its bytes. -/
theorem frameItems_map {s : σ} {p : Packet} (hsize : (R.readBuf s).size < 2 ^ 32)
    (hp : (R.parse s).1 = some p) : (R.frameItems s p).map R.byte = p.data := by
  rw [R.parse_eq hsize] at hp
  rw [frameItems, List.map_drop, List.map_take, R.parse_eq hsize]
  exact (first_data hp).2

theorem frameItems_infix (s : σ) (p : Packet) : R.frameItems s p <:+: (R.readBuf s).unread :=
  (List.drop_suffix ..).isInfix.trans (List.take_prefix ..).isInfix

/-! ### What a run of the loop leaves -/

/-- A receiver that keeps a record: the packets it dispatched, and how often a
handler emptied the buffer.  A handler does nothing else to the buffer. -/
structure Record where
  packets : σ → List Packet
  emptied : σ → Nat
  readBuf_set : ∀ b s, R.readBuf (R.setReadBuf b s) = b
  packets_set : ∀ b s, packets (R.setReadBuf b s) = packets s
  emptied_set : ∀ b s, emptied (R.setReadBuf b s) = emptied s
  packets_dispatch : ∀ f p s, packets (R.dispatch f p s) = packets s ++ [p]
  emptied_dispatch : ∀ f p s, emptied s ≤ emptied (R.dispatch f p s)
  readBuf_dispatch : ∀ f p s,
    R.readBuf (R.dispatch f p s) =
      if emptied (R.dispatch f p s) = emptied s then R.readBuf s else (R.readBuf s).clear

namespace Record

variable {R} (L : R.Record)

include L in
theorem readBuf_consumed (s : σ) :
    R.readBuf (R.consumed s) = (R.readBuf s).consume (R.parse s).2 := L.readBuf_set _ s

include L in
theorem bytes_consumed {s : σ} (hsize : (R.readBuf s).size < 2 ^ 32) :
    R.bytes (R.consumed s) = (R.bytes s).drop (frameDecoder.first (R.bytes s)).2 := by
  have hle := R.parse_snd_le hsize
  rw [bytes, L.readBuf_consumed, IoBuffer.unread_consume _ hle, List.map_drop, R.parse_eq hsize]
  rfl

/-- What the loop of `process_packet` makes of a state.  `dispatched` are the
packets of this run, all that the decoder finds unless the buffer was emptied. -/
structure Processed (s t : σ) (dispatched : List Packet) : Prop where
  packets_eq : L.packets t = L.packets s ++ dispatched
  prefix_run : dispatched <+: (frameDecoder.run (R.bytes s)).1
  emptied_le : L.emptied s ≤ L.emptied t
  all : L.emptied t = L.emptied s → dispatched = (frameDecoder.run (R.bytes s)).1
  bytes_eq : L.emptied t = L.emptied s → R.bytes t = (frameDecoder.run (R.bytes s)).2
  valid : (R.readBuf t).Valid
  length_eq : (R.readBuf t).length = (R.readBuf s).length

/-- **The loop is the decoder run over the unread bytes**, dispatching the
packets it finds in their order. -/
theorem processPacket_spec {rounds : Nat} {s : σ} (hv : (R.readBuf s).Valid)
    (hlen : (R.readBuf s).length < 2 ^ 32) (hr : (R.readBuf s).size < rounds) :
    ∃ dispatched, L.Processed s (R.processPacket rounds s) dispatched := by
  induction rounds generalizing s with
  | zero => exact absurd hr (Nat.not_lt_zero _)
  | succ rounds ih =>
    have hsize : (R.readBuf s).size < 2 ^ 32 := by
      have := hv.tail_le_length
      rw [IoBuffer.size]
      omega
    have hrun := frameDecoder.run_first (R.bytes s)
    have hparse := R.parse_eq hsize
    have hbytes := L.bytes_consumed hsize
    have hvc : (R.readBuf (R.consumed s)).Valid := by
      rw [L.readBuf_consumed]
      exact hv.consume _
    have hlc : (R.readBuf (R.consumed s)).length = (R.readBuf s).length := by
      rw [L.readBuf_consumed, IoBuffer.length_consume]
    have hpc : L.packets (R.consumed s) = L.packets s := L.packets_set _ s
    have hec : L.emptied (R.consumed s) = L.emptied s := L.emptied_set _ s
    cases hp : (R.parse s).1 with
    | none =>
      rw [R.processPacket_none hp]
      rw [hparse] at hp
      rw [hp] at hrun
      refine ⟨[], by rw [hpc, List.append_nil], List.nil_prefix, Nat.le_of_eq hec.symm, ?_, ?_,
        hvc, hlc⟩
      · intro _
        rw [hrun]
      · intro _
        rw [hrun, hbytes]
    | some p =>
      rw [R.processPacket_some hp]
      rw [hparse] at hp
      rw [hp] at hrun
      have hpos := frameDecoder.first_snd_pos hp
      have hle := frameDecoder.first_snd_le (R.bytes s)
      rw [R.length_bytes] at hle
      have hshort : (R.readBuf (R.consumed s)).size < rounds := by
        rw [← R.length_bytes, hbytes, List.length_drop, R.length_bytes]
        omega
      have hpd := L.packets_dispatch (R.frameItems s p) p (R.consumed s)
      have hed := L.emptied_dispatch (R.frameItems s p) p (R.consumed s)
      have hbd := L.readBuf_dispatch (R.frameItems s p) p (R.consumed s)
      rw [hpc] at hpd
      rw [hec] at hed hbd
      generalize R.dispatch (R.frameItems s p) p (R.consumed s) = s' at hpd hed hbd ⊢
      by_cases he : L.emptied s' = L.emptied s
      · rw [if_pos he] at hbd
        have hsame : R.bytes s' = (R.bytes s).drop (frameDecoder.first (R.bytes s)).2 := by
          rw [← hbytes, bytes, hbd]
          rfl
        obtain ⟨dispatched, h⟩ := ih (s := s') (by rw [hbd]; exact hvc)
          (by rw [hbd, hlc]; exact hlen) (by rw [hbd]; exact hshort)
        have hprefix := h.prefix_run
        rw [hsame] at hprefix
        refine ⟨p :: dispatched, ?_, ?_, he ▸ h.emptied_le, ?_, ?_, h.valid, ?_⟩
        · rw [h.packets_eq, hpd, List.append_assoc, List.singleton_append]
        · rw [hrun]
          exact List.cons_prefix_cons.mpr ⟨rfl, hprefix⟩
        · intro hno
          rw [hrun, h.all (hno.trans he.symm), hsame]
        · intro hno
          rw [hrun, h.bytes_eq (hno.trans he.symm), hsame]
        · rw [h.length_eq, hbd, hlc]
      · -- the handler emptied the buffer: the loop finds nothing more
        rw [if_neg he] at hbd
        have hnil : R.bytes s' = [] := by
          rw [bytes, hbd, IoBuffer.unread_clear]
          rfl
        obtain ⟨dispatched, h⟩ := ih (s := s') (by rw [hbd]; exact IoBuffer.Valid.clear _)
          (by rw [hbd]; exact hlc ▸ hlen)
          (by rw [hbd]; exact Nat.lt_of_le_of_lt (Nat.zero_le _) hshort)
        have hnone : dispatched = [] := by
          have := h.prefix_run
          rw [hnil, frameDecoder.run_more rfl] at this
          exact List.prefix_nil.mp this
        have hgone : L.emptied (R.processPacket rounds s') ≠ L.emptied s := by
          have := h.emptied_le
          omega
        refine ⟨[p], ?_, ?_, Nat.le_trans hed h.emptied_le, (absurd · hgone), (absurd · hgone),
          h.valid, ?_⟩
        · rw [h.packets_eq, hpd, hnone, List.append_nil]
        · rw [hrun]
          exact List.cons_prefix_cons.mpr ⟨rfl, List.nil_prefix⟩
        · rw [h.length_eq, hbd]
          exact hlc

end Record

end Receiver

end Ibase
