import Ibase.Link
import Ibase.World

/-!
# Where the bytes of a packet come from

`do_close` leaves the unread bytes in `read_buf_`; only `stop_impl` clears it.
So bytes of one connection can be framed with bytes of the next.  They cannot if
every `do_connect` finds `read_buf_` empty and no completion left to run of a
connect or a read that succeeded.

`Wire` is what the framing of received bytes depends on, and `Wire.Phase` says
in which of seven phases it is: nothing can arrive, a connect is outstanding or
has succeeded, the client is connected with no read, with a read outstanding, or
with a read that failed or succeeded.  `do_close`, `do_connect` and
`do_read_packet` move the wire between the phases, and in every phase the bytes
in front of `tail` are bytes of the current connection, in a row.
-/

namespace Ibase

open Relation Memory

/-- Does this handler complete a connect or a read? -/
def Handler.isHot : Handler → Bool
  | .connect .. | .readSome .. => true
  | .task _ | .write .. | .wait .. => false

/-- Did this connect or read fail? -/
def Handler.isFailed : Handler → Bool
  | .connect _ ec => ec
  | .readSome _ ec _ => ec
  | .task _ | .write .. | .wait .. => false

/-- Nothing is unread, and no connect and no read that succeeded is left to run. -/
def ConnectEntry.Clear (e : ConnectEntry) : Prop :=
  e.unread = 0 ∧ ∀ h ∈ e.pending, h.isHot = true → h.isFailed = true

instance (e : ConnectEntry) : Decidable e.Clear :=
  inferInstanceAs (Decidable (e.unread = 0 ∧ ∀ h ∈ e.pending, h.isHot = true → h.isFailed = true))

/-- The bytes received on that connection. -/
def Io.received (io : Io) (conn : Nat) : List RecvByte := io.rx.filter (fun b => b.conn == conn)

namespace IoBuffer

variable {α : Type}

/-- The items in front of `tail`, consumed ones included. -/
def filled (b : IoBuffer α) : List α := segment b.buffer 0 b.tail

theorem Valid.unread_suffix {b : IoBuffer α} (h : b.Valid) : b.unread <:+ b.filled := by
  have hdrop := drop_segment b.buffer 0 h.head_le_tail
  rw [Nat.zero_add] at hdrop
  rw [unread, size, ← hdrop]
  exact List.drop_suffix b.head b.filled

/-- `prepare` keeps the last of them. -/
theorem Valid.filled_prepare {b : IoBuffer α} (h : b.Valid) (n : Nat) :
    (b.prepare n).2.filled <:+ b.filled := by
  show (b.makeRoom n).filled <:+ b.filled
  unfold makeRoom
  split
  · have hmoved := segment_write b.buffer 0 (segment b.buffer b.head b.size)
    rw [length_segment] at hmoved
    show segment (write b.buffer 0 (segment b.buffer b.head b.size)) 0 b.size <:+ b.filled
    rw [hmoved]
    exact h.unread_suffix
  · exact List.suffix_refl _

theorem tail_prepare {b : IoBuffer α} (hz : b.size = 0 → b.tail = 0) (n : Nat)
    (hs : (b.prepare n).2.size = 0) : (b.prepare n).2.tail = 0 := by
  have hsize : b.size = 0 := by rw [← size_prepare b n, hs]
  have ht := hz hsize
  show (b.makeRoom n).tail = 0
  unfold makeRoom
  split
  · show b.tail - b.head = 0
    omega
  · exact ht

/-- `consume` keeps them, or goes back to the start. -/
theorem consume_cases (b : IoBuffer α) (n : Nat) :
    ((b.consume n).tail = b.tail ∧ (b.consume n).filled = b.filled ∧ (b.consume n).size ≠ 0) ∨
    ((b.consume n).tail = 0 ∧ (b.consume n).filled = []) := by
  unfold consume
  split
  · exact .inr ⟨rfl, rfl⟩
  · refine .inl ⟨rfl, rfl, ?_⟩
    show b.tail - (b.head + n) ≠ 0
    omega

end IoBuffer

/-- What the framing of received bytes depends on.  `hot` are the completions of
connects and reads that are queued, and `received` the bytes of this attempt. -/
structure Wire where
  connectState : ConnectState
  readPending : Bool
  socketOpen : Bool
  readBuf : IoBuffer RecvByte
  connectOp : Option OpTag
  readOps : List (OpTag × Slab)
  hot : List Handler
  attempt : Nat
  received : List RecvByte

namespace Wire

/-- The connects and reads that are outstanding fail. -/
def abort (w : Wire) : Wire :=
  { w with
    hot := w.hot ++ (w.readOps.map (fun op => .readSome op.1 true 0) ++
      w.connectOp.toList.map (fun tag => .connect tag true))
    connectOp := none
    readOps := [] }

/-- `do_close`. -/
def close (w : Wire) : Wire :=
  if w.connectState = .disconnected then w
  else
    let w := { w with readPending := false, connectState := .disconnected }
    if w.socketOpen then { w with socketOpen := false }.abort else w

/-- `do_connect`, of a new attempt on which those bytes have been received. -/
def connect (w : Wire) (tag : OpTag) (received : List RecvByte) : Wire :=
  { w.abort with
    connectState := .connecting
    socketOpen := true
    connectOp := some tag
    attempt := w.attempt + 1
    received := received }

def clear (w : Wire) : Wire := { w with readBuf := w.readBuf.clear }

/-- `do_read_packet` of that many bytes; a read on a closed socket fails at once. -/
def startRead (w : Wire) (size closes : Nat) : Wire :=
  if w.socketOpen then
    { w with
      readPending := true
      readBuf := (w.readBuf.prepare size).2
      readOps := w.readOps ++ [(⟨w.attempt, closes⟩, (w.readBuf.prepare size).1)] }
  else
    { w with
      readPending := true
      readBuf := (w.readBuf.prepare size).2
      hot := w.hot ++ [.readSome ⟨w.attempt, closes⟩ true 0] }

/-- The phases. -/
inductive Phase (w : Wire) : Prop
  | down (hs : w.connectState ≠ .connected) (hc : w.connectOp = none) (hr : w.readOps = [])
      (hf : ∀ h ∈ w.hot, h.isFailed = true)
  | dialing (tag : OpTag) (hs : w.connectState ≠ .connected) (hc : w.connectOp = some tag)
      (hr : w.readOps = []) (hf : ∀ h ∈ w.hot, h.isFailed = true) (ht : w.readBuf.tail = 0)
  | dialed (tag : OpTag) (failed : List Handler) (hs : w.connectState ≠ .connected)
      (hc : w.connectOp = none) (hr : w.readOps = []) (hh : w.hot = failed ++ [.connect tag false])
      (hf : ∀ h ∈ failed, h.isFailed = true) (ht : w.readBuf.tail = 0)
  | idle (hs : w.connectState = .connected) (hc : w.connectOp = none) (hr : w.readOps = [])
      (hh : w.hot = []) (hin : w.readBuf.filled <:+ w.received)
  | reading (tag : OpTag) (slab : Slab) (hs : w.connectState = .connected)
      (hp : w.readPending = true) (ho : w.socketOpen = true) (hc : w.connectOp = none)
      (hr : w.readOps = [(tag, slab)]) (hh : w.hot = []) (hin : w.readBuf.filled <:+ w.received)
      (ha : tag.attempt = w.attempt) (hd : slab.data = w.readBuf.tail)
      (hfit : w.readBuf.tail + slab.size ≤ w.readBuf.length)
  | readFailed (tag : OpTag) (n : Nat) (hs : w.connectState = .connected)
      (hp : w.readPending = true) (hc : w.connectOp = none) (hr : w.readOps = [])
      (hh : w.hot = [.readSome tag true n]) (hin : w.readBuf.filled <:+ w.received)
  | readDone (tag : OpTag) (n : Nat) (hc : w.connectOp = none) (hr : w.readOps = [])
      (hh : w.hot = [.readSome tag false n])
      (hfit : w.readBuf.tail + n ≤ w.readBuf.length)
      (hin : segment w.readBuf.buffer 0 (w.readBuf.tail + n) <:+: w.received)
      (hs : w.connectState = .connected → w.readPending = true ∧
        segment w.readBuf.buffer 0 (w.readBuf.tail + n) <:+ w.received)

/-- **The bytes in front of `tail` stand in a row among those of this connection.** -/
structure Sound (w : Wire) : Prop where
  valid : w.readBuf.Valid
  length_eq : w.readBuf.length = maxReadBufferSize
  rewound : w.readBuf.size = 0 → w.readBuf.tail = 0
  filled_infix : w.readBuf.filled <:+: w.received
  phase : w.Phase

/-- No read is outstanding, and none that succeeded is left to run. -/
structure Quiet (w : Wire) : Prop where
  readOps : w.readOps = []
  hot : ∀ tag n, .readSome tag false n ∉ w.hot

/-! ### The moves -/

theorem failed_abort {w : Wire} (h : ∀ g ∈ w.hot, g.isFailed = true) :
    ∀ g ∈ w.abort.hot, g.isFailed = true := by
  intro g hg
  rcases List.mem_append.mp hg with hg | hg
  · exact h g hg
  rcases List.mem_append.mp hg with hg | hg
  · obtain ⟨op, -, rfl⟩ := List.mem_map.mp hg
    rfl
  · obtain ⟨tag, -, rfl⟩ := List.mem_map.mp hg
    rfl

/-- Aborting, when there is nothing to abort. -/
theorem abort_hot_of_none {w : Wire} (hc : w.connectOp = none) (hr : w.readOps = []) :
    w.abort.hot = w.hot := by
  rw [abort, hc, hr]
  exact List.append_nil _

theorem Phase.close {w : Wire} (h : w.Phase) : w.close.Phase := by
  unfold Wire.close
  by_cases hd : w.connectState = .disconnected
  · rw [if_pos hd]
    exact h
  rw [if_neg hd]
  simp only
  cases h with
  | down hs hc hr hf =>
    split
    · exact .down (by simp [abort]) rfl rfl (failed_abort hf)
    · exact .down (by simp) hc hr hf
  | dialing tag hs hc hr hf ht =>
    split
    · exact .down (by simp [abort]) rfl rfl (failed_abort hf)
    · exact .dialing tag (by simp) hc hr hf ht
  | dialed tag failed hs hc hr hh hf ht =>
    split
    · exact .dialed tag failed (by simp [abort]) rfl rfl ((abort_hot_of_none hc hr).trans hh) hf ht
    · exact .dialed tag failed (by simp) hc hr hh hf ht
  | idle hs hc hr hh hin =>
    have hf : ∀ g ∈ w.hot, g.isFailed = true := by simp [hh]
    split
    · exact .down (by simp [abort]) rfl rfl (failed_abort hf)
    · exact .down (by simp) hc hr hf
  | reading tag slab hs hp ho hc hr hh hin ha hd hfit =>
    rw [if_pos ho]
    exact .down (by simp [abort]) rfl rfl (failed_abort (by simp [hh]))
  | readFailed tag n hs hp hc hr hh hin =>
    have hf : ∀ g ∈ w.hot, g.isFailed = true := by simp [hh, Handler.isFailed]
    split
    · exact .down (by simp [abort]) rfl rfl (failed_abort hf)
    · exact .down (by simp) hc hr hf
  | readDone tag n hc hr hh hfit hin hs =>
    split
    · exact .readDone tag n rfl rfl ((abort_hot_of_none hc hr).trans hh) hfit hin (by simp [abort])
    · exact .readDone tag n hc hr hh hfit hin (by simp)

/-- What `do_close` leaves alone. -/
theorem close_keeps (w : Wire) : w.close.connectState = .disconnected ∧
    w.close.readBuf = w.readBuf ∧ w.close.received = w.received := by
  unfold close
  split
  · exact ⟨‹_›, rfl, rfl⟩
  · simp only
    split <;> exact ⟨rfl, rfl, rfl⟩

theorem Sound.close {w : Wire} (h : w.Sound) : w.close.Sound := by
  obtain ⟨-, hb, hr⟩ := close_keeps w
  refine ⟨hb ▸ h.valid, hb ▸ h.length_eq, hb ▸ h.rewound, ?_, h.phase.close⟩
  rw [hb, hr]
  exact h.filled_infix

/-- `stop_impl` clears the buffer of a client that it has disconnected. -/
theorem Sound.clear {w : Wire} (h : w.Sound) (hd : w.connectState = .disconnected) :
    w.clear.Sound := by
  have hs : w.connectState ≠ .connected := by
    rw [hd]
    decide
  refine ⟨IoBuffer.Valid.clear _, h.length_eq, fun _ => rfl, List.nil_infix, ?_⟩
  cases h.phase with
  | down _ hc hr hf => exact .down hs hc hr hf
  | dialing tag _ hc hr hf _ => exact .dialing tag hs hc hr hf rfl
  | dialed tag failed _ hc hr hh hf _ => exact .dialed tag failed hs hc hr hh hf rfl
  | idle hs' => exact absurd hs' hs
  | reading _ _ hs' => exact absurd hs' hs
  | readFailed _ _ hs' => exact absurd hs' hs
  | readDone tag n hc hr hh hfit hin _ =>
    refine .readDone tag n hc hr hh ?_ ?_ (fun hs' => absurd hs' hs)
    · show 0 + n ≤ w.readBuf.length
      omega
    · -- what is committed then is older bytes of the same connection
      refine List.IsInfix.trans ?_ hin
      have hle : 0 + n ≤ w.readBuf.tail + n := by omega
      exact (take_segment w.readBuf.buffer 0 hle) ▸ (List.take_prefix _ _).isInfix

/-- A `do_connect` with nothing unread, when every completion left to run failed. -/
theorem Sound.connect {w : Wire} (h : w.Sound) (tag : OpTag) (received : List RecvByte)
    (hsize : w.readBuf.size = 0) (hf : ∀ g ∈ w.hot, g.isFailed = true) :
    (w.connect tag received).Sound := by
  have htail := h.rewound hsize
  refine ⟨h.valid, h.length_eq, h.rewound, ?_, ?_⟩
  · show segment w.readBuf.buffer 0 w.readBuf.tail <:+: received
    rw [htail]
    exact List.nil_infix
  · exact .dialing tag (by simp [Wire.connect]) rfl rfl (failed_abort hf) htail

theorem Quiet.abort {w : Wire} (h : w.Quiet) : w.abort.Quiet := by
  refine ⟨rfl, fun tag n hin => ?_⟩
  rcases List.mem_append.mp hin with hin | hin
  · exact h.hot tag n hin
  · simp at hin

theorem Quiet.close {w : Wire} (h : w.Quiet) : w.close.Quiet := by
  unfold Wire.close
  split
  · exact h
  · simp only
    split
    · exact Quiet.abort ⟨h.readOps, h.hot⟩
    · exact ⟨h.readOps, h.hot⟩

/-! ### Reading -/

/-- `do_read_packet` of a connected client with no read pending. -/
theorem Sound.startRead {w : Wire} (h : w.Sound) (hs : w.connectState = .connected)
    (hp : w.readPending = false) (size closes : Nat) : (w.startRead size closes).Sound := by
  have hidle : w.connectOp = none ∧ w.readOps = [] ∧ w.hot = [] ∧
      w.readBuf.filled <:+ w.received := by
    cases h.phase with
    | down hs' => exact absurd hs hs'
    | dialing tag hs' => exact absurd hs hs'
    | dialed tag failed hs' => exact absurd hs hs'
    | idle _ hc hr hh hin => exact ⟨hc, hr, hh, hin⟩
    | reading tag slab _ hp' => exact absurd (hp.symm.trans hp') (by decide)
    | readFailed tag n _ hp' => exact absurd (hp.symm.trans hp') (by decide)
    | readDone tag n _ _ _ _ _ hs' => exact absurd (hp.symm.trans (hs' hs).1) (by decide)
  obtain ⟨hc, hr, hh, hin⟩ := hidle
  have hin' := (h.valid.filled_prepare size).trans hin
  have hv := h.valid.prepare size
  have hl : (w.readBuf.prepare size).2.length = maxReadBufferSize :=
    (IoBuffer.length_prepare _ _).trans h.length_eq
  have hz := IoBuffer.tail_prepare h.rewound size
  have hfit := IoBuffer.prepare_slab_fits h.valid size
  unfold Wire.startRead
  split
  · refine ⟨hv, hl, hz, hin'.isInfix, ?_⟩
    refine .reading ⟨w.attempt, closes⟩ (w.readBuf.prepare size).1 hs rfl ‹_› hc ?_ hh hin' rfl rfl ?_
    · rw [hr]
      rfl
    · show _ ≤ (w.readBuf.prepare size).2.length
      rw [IoBuffer.length_prepare]
      exact hfit
  · refine ⟨hv, hl, hz, hin'.isInfix, ?_⟩
    refine .readFailed ⟨w.attempt, closes⟩ 0 hs rfl hc hr ?_ hin'
    rw [hh]
    rfl

/-- Consuming, while nothing can arrive. -/
theorem Sound.consume {w : Wire} (h : w.Sound) (hq : w.Quiet) (n : Nat) :
    Sound { w with readBuf := w.readBuf.consume n } := by
  have hl : (w.readBuf.consume n).length = maxReadBufferSize :=
    (IoBuffer.length_consume _ _).trans h.length_eq
  have hfilled : (w.readBuf.consume n).filled <:+ w.readBuf.filled := by
    rcases w.readBuf.consume_cases n with ⟨-, heq, -⟩ | ⟨-, heq⟩
    · rw [heq]
    · rw [heq]
      exact List.nil_suffix
  have htail : w.readBuf.tail = 0 → (w.readBuf.consume n).tail = 0 := by
    intro h0
    have hle := IoBuffer.tail_consume_le w.readBuf n
    omega
  refine ⟨h.valid.consume n, hl, ?_, hfilled.isInfix.trans h.filled_infix, ?_⟩
  · intro hs
    rcases w.readBuf.consume_cases n with ⟨-, -, hne⟩ | ⟨h0, -⟩
    · exact absurd hs hne
    · exact h0
  cases h.phase with
  | down hs hc hr hf => exact .down hs hc hr hf
  | dialing tag hs hc hr hf ht => exact .dialing tag hs hc hr hf (htail ht)
  | dialed tag failed hs hc hr hh hf ht => exact .dialed tag failed hs hc hr hh hf (htail ht)
  | idle hs hc hr hh hin => exact .idle hs hc hr hh (hfilled.trans hin)
  | reading tag slab _ _ _ _ hr => exact absurd (hr.symm.trans hq.readOps) (by simp)
  | readFailed tag n' hs hp hc hr hh hin =>
    exact .readFailed tag n' hs hp hc hr hh (hfilled.trans hin)
  | readDone tag n' _ _ hh => exact absurd (hh ▸ List.mem_singleton.mpr rfl) (hq.hot tag n')

/-! ### The completions -/

/-- A connect or a read that failed. -/
theorem Sound.pop_failed {w : Wire} (h : w.Sound) {g : Handler} {rest : List Handler}
    (hh : w.hot = g :: rest) (hg : g.isFailed = true) :
    Sound { w with hot := rest, readPending := false } := by
  refine ⟨h.valid, h.length_eq, h.rewound, h.filled_infix, ?_⟩
  have htail : (∀ g' ∈ w.hot, g'.isFailed = true) → ∀ g' ∈ rest, g'.isFailed = true :=
    fun hf g' hg' => hf g' (hh ▸ List.mem_cons_of_mem g hg')
  cases h.phase with
  | down hs hc hr hf => exact .down hs hc hr (htail hf)
  | dialing tag hs hc hr hf ht => exact .dialing tag hs hc hr (htail hf) ht
  | dialed tag failed hs hc hr hh' hf ht =>
    rw [hh] at hh'
    cases failed with
    | nil =>
      obtain ⟨rfl, -⟩ := List.cons.inj hh'
      exact absurd hg (by simp [Handler.isFailed])
    | cons g' failed =>
      obtain ⟨-, hrest⟩ := List.cons.inj hh'
      exact .dialed tag failed hs hc hr hrest (fun g'' h' => hf g'' (List.mem_cons_of_mem _ h')) ht
  | idle hs hc hr hh' hin => exact absurd (hh.symm.trans hh') (by simp)
  | reading tag slab hs hp ho hc hr hh' => exact absurd (hh.symm.trans hh') (by simp)
  | readFailed tag n hs hp hc hr hh' hin =>
    obtain ⟨-, hrest⟩ := List.cons.inj (hh.symm.trans hh')
    exact .idle hs hc hr hrest hin
  | readDone tag n hc hr hh' =>
    obtain ⟨rfl, -⟩ := List.cons.inj (hh.symm.trans hh')
    exact absurd hg (by simp [Handler.isFailed])

/-- One handler at the front did not fail. -/
theorem not_all_failed {hot rest : List Handler} {g : Handler} (hh : hot = g :: rest)
    (hg : g.isFailed = false) : ¬ ∀ g ∈ hot, g.isFailed = true := by
  intro hf
  have htrue := hf g (hh ▸ List.mem_cons_self)
  rw [hg] at htrue
  cases htrue

/-- A connect that failed. -/
theorem Sound.connect_failed {w : Wire} (h : w.Sound) {tag : OpTag} {rest : List Handler}
    (hh : w.hot = .connect tag true :: rest) :
    Sound { w with hot := rest, connectState := .disconnected } := by
  refine ⟨h.valid, h.length_eq, h.rewound, h.filled_infix, ?_⟩
  cases (h.pop_failed hh rfl).phase with
  | down hs hc hr hf => exact .down (by simp) hc hr hf
  | dialing tag hs hc hr hf ht => exact .dialing tag (by simp) hc hr hf ht
  | dialed tag failed hs hc hr hh' hf ht => exact .dialed tag failed (by simp) hc hr hh' hf ht
  | idle hs hc hr hh' hin => exact .down (by simp) hc hr (by simp [show rest = [] from hh'])
  | reading tag slab hs hp => exact absurd hp (by simp)
  | readFailed tag n hs hp => exact absurd hp (by simp)
  | readDone tag n hc hr hh' hfit hin hs => exact .readDone tag n hc hr hh' hfit hin (by simp)

/-- A connect that succeeded. -/
theorem Sound.connect_done {w : Wire} (h : w.Sound) {tag : OpTag} {rest : List Handler}
    (hh : w.hot = .connect tag false :: rest) :
    Sound { w with hot := rest, connectState := .connected } := by
  refine ⟨h.valid, h.length_eq, h.rewound, h.filled_infix, ?_⟩
  have hno := not_all_failed hh rfl
  cases h.phase with
  | down hs hc hr hf => exact absurd hf hno
  | dialing tag hs hc hr hf ht => exact absurd hf hno
  | dialed tag' failed hs hc hr hh' hf ht =>
    rw [hh] at hh'
    cases failed with
    | nil =>
      refine .idle rfl hc hr (List.cons.inj hh').2 ?_
      show segment w.readBuf.buffer 0 w.readBuf.tail <:+ w.received
      rw [ht]
      exact List.nil_suffix
    | cons g' failed =>
      obtain ⟨rfl, -⟩ := List.cons.inj hh'
      exact absurd (hf _ List.mem_cons_self) (by simp [Handler.isFailed])
  | idle hs hc hr hh' hin => exact absurd (hh.symm.trans hh') (by simp)
  | reading tag slab hs hp ho hc hr hh' => exact absurd (hh.symm.trans hh') (by simp)
  | readFailed tag n hs hp hc hr hh' hin => exact absurd (hh.symm.trans hh') (by simp)
  | readDone tag n hc hr hh' => exact absurd (hh.symm.trans hh') (by simp)

/-- A read that succeeded: its bytes join the unread ones. -/
theorem Sound.read_done {w : Wire} (h : w.Sound) {tag : OpTag} {n : Nat} {rest : List Handler}
    (hh : w.hot = .readSome tag false n :: rest) :
    Sound { w with hot := rest, readPending := false, readBuf := w.readBuf.commit n } ∧ rest = [] ∧
      w.readOps = [] := by
  have hno := not_all_failed hh rfl
  cases h.phase with
  | down hs hc hr hf => exact absurd hf hno
  | dialing tag hs hc hr hf ht => exact absurd hf hno
  | dialed tag' failed hs hc hr hh' hf ht =>
    rw [hh] at hh'
    cases failed with
    | nil => exact absurd (List.cons.inj hh').1 (by simp)
    | cons g' failed =>
      obtain ⟨rfl, -⟩ := List.cons.inj hh'
      exact absurd (hf _ List.mem_cons_self) (by simp [Handler.isFailed])
  | idle hs hc hr hh' hin => exact absurd (hh.symm.trans hh') (by simp)
  | reading tag slab hs hp ho hc hr hh' => exact absurd (hh.symm.trans hh') (by simp)
  | readFailed tag' n' hs hp hc hr hh' hin => exact absurd (hh.symm.trans hh') (by simp)
  | readDone tag' n' hc hr hh' hfit hin hs =>
    obtain ⟨hg, hrest⟩ := List.cons.inj (hh.symm.trans hh')
    obtain ⟨-, -, rfl⟩ : tag = tag' ∧ true = true ∧ n = n' := by simpa using hg
    refine ⟨⟨h.valid.commit hfit, h.length_eq, fun hz => ?_, hin, ?_⟩, hrest, hr⟩
    · have hle := h.valid.head_le_tail
      have hz' : w.readBuf.tail + n - w.readBuf.head = 0 := hz
      have hsize : w.readBuf.size = 0 := by
        rw [IoBuffer.size]
        omega
      have htail := h.rewound hsize
      show w.readBuf.tail + n = 0
      omega
    · by_cases hcon : w.connectState = .connected
      · exact .idle hcon hc hr hrest (hs hcon).2
      · exact .down hcon hc hr (by simp [hrest])

/-- A connect completes. -/
theorem Sound.connect_completes {w : Wire} (h : w.Sound) {tag : OpTag}
    (hop : w.connectOp = some tag) (ec : Bool) :
    Sound { w with connectOp := none, hot := w.hot ++ [.connect tag ec] } := by
  refine ⟨h.valid, h.length_eq, h.rewound, h.filled_infix, ?_⟩
  cases h.phase with
  | dialing tag' hs hc hr hf ht =>
    cases ec with
    | false => exact .dialed tag w.hot hs rfl hr rfl hf ht
    | true =>
      refine .down hs rfl hr (fun g hg => ?_)
      rcases List.mem_append.mp hg with hg | hg
      · exact hf g hg
      · rw [List.mem_singleton.mp hg]
        rfl
  | down hs hc => exact absurd (hop.symm.trans hc) (by simp)
  | dialed tag' failed hs hc => exact absurd (hop.symm.trans hc) (by simp)
  | idle hs hc => exact absurd (hop.symm.trans hc) (by simp)
  | reading tag' slab hs hp ho hc => exact absurd (hop.symm.trans hc) (by simp)
  | readFailed tag' n hs hp hc => exact absurd (hop.symm.trans hc) (by simp)
  | readDone tag' n hc => exact absurd (hop.symm.trans hc) (by simp)

/-- The phase of a client with a read outstanding. -/
theorem Sound.reading_of_readOps {w : Wire} (h : w.Sound) {op : Nat} {r : OpTag × Slab}
    (hop : w.readOps[op]? = some r) :
    w.readOps.eraseIdx op = [] ∧ w.connectState = .connected ∧ w.readPending = true ∧
      w.connectOp = none ∧ w.hot = [] ∧ w.readBuf.filled <:+ w.received ∧
      r.1.attempt = w.attempt ∧ r.2.data = w.readBuf.tail ∧
      w.readBuf.tail + r.2.size ≤ w.readBuf.length := by
  have hne : w.readOps ≠ [] := by
    intro hnil
    rw [hnil] at hop
    exact absurd hop (by simp)
  cases h.phase with
  | reading tag slab hs hp ho hc hr hh hin ha hd hfit =>
    rw [hr] at hop ⊢
    cases op with
    | zero =>
      obtain rfl := Option.some.inj hop
      exact ⟨rfl, hs, hp, hc, hh, hin, ha, hd, hfit⟩
    | succ op => exact absurd hop (by simp)
  | down hs hc hr => exact absurd hr hne
  | dialing tag hs hc hr => exact absurd hr hne
  | dialed tag failed hs hc hr => exact absurd hr hne
  | idle hs hc hr => exact absurd hr hne
  | readFailed tag n hs hp hc hr => exact absurd hr hne
  | readDone tag n hc hr => exact absurd hr hne

/-- A read completes with an error. -/
theorem Sound.read_fails {w : Wire} (h : w.Sound) {op : Nat} {r : OpTag × Slab}
    (hop : w.readOps[op]? = some r) :
    Sound { w with readOps := w.readOps.eraseIdx op, hot := w.hot ++ [.readSome r.1 true 0] } := by
  obtain ⟨hr, hs, hp, hc, hh, hin, -⟩ := h.reading_of_readOps hop
  refine ⟨h.valid, h.length_eq, h.rewound, h.filled_infix, .readFailed r.1 0 hs hp hc hr ?_ hin⟩
  rw [hh]
  rfl

/-- A read completes with bytes. -/
theorem Sound.read_arrives {w : Wire} (h : w.Sound) {op : Nat} {r : OpTag × Slab}
    (hop : w.readOps[op]? = some r) {items : List RecvByte} (hlen : items.length ≤ r.2.size) :
    Sound { w with
      readBuf := w.readBuf.fill r.2.data items
      readOps := w.readOps.eraseIdx op
      hot := w.hot ++ [.readSome r.1 false items.length]
      received := w.received ++ items } := by
  obtain ⟨hr, hs, hp, hc, hh, hin, -, hd, hfit⟩ := h.reading_of_readOps hop
  -- the bytes arrive right behind those in front of `tail`
  have hseg : segment (w.readBuf.fill r.2.data items).buffer 0 (w.readBuf.tail + items.length) =
      w.readBuf.filled ++ items := by
    have happ := segment_write_append w.readBuf.buffer items (Nat.zero_le w.readBuf.tail)
    rw [Nat.sub_zero] at happ
    rw [hd]
    exact happ
  have hsuf : w.readBuf.filled ++ items <:+ w.received ++ items := by
    obtain ⟨t, ht⟩ := hin
    exact ⟨t, by rw [← ht, List.append_assoc]⟩
  have hold : (w.readBuf.fill r.2.data items).filled = w.readBuf.filled := by
    rw [hd]
    exact segment_write_below _ _ (Nat.le_of_eq (Nat.zero_add _))
  refine ⟨h.valid.fill _ _, h.length_eq, h.rewound, ?_, ?_⟩
  · show (w.readBuf.fill r.2.data items).filled <:+: w.received ++ items
    rw [hold]
    exact h.filled_infix.trans (List.prefix_append ..).isInfix
  · refine .readDone r.1 items.length hc hr ?_ ?_ ?_ (fun _ => ⟨hp, ?_⟩)
    · show w.hot ++ [_] = _
      rw [hh]
      rfl
    · show w.readBuf.tail + items.length ≤ w.readBuf.length
      omega
    · show segment (w.readBuf.fill r.2.data items).buffer 0 (w.readBuf.tail + items.length) <:+: _
      rw [hseg]
      exact hsuf.isInfix
    · show segment (w.readBuf.fill r.2.data items).buffer 0 (w.readBuf.tail + items.length) <:+ _
      rw [hseg]
      exact hsuf

end Wire

/-! ### The wire of a client -/

/-- Does this effect start or end a connect or a read? -/
def Effect.isWired : Effect → Bool
  | asyncConnect .. | asyncReadSome .. | closeSocket => true
  | _ => false

namespace Link

def wire (l : Link Io) : Wire where
  connectState := l.connectState
  readPending := l.readPending
  socketOpen := l.socketOpen
  readBuf := l.readBuf
  connectOp := l.env.connectOp
  readOps := l.env.readOps
  hot := l.env.ready.filter Handler.isHot
  attempt := l.env.attempt
  received := l.env.received l.env.attempt

theorem wire_emit (l : Link Io) {e : Effect} (h : e.isWired = false) :
    (l.emit e).wire = l.wire := by
  cases e with
  | asyncConnect host port => exact Bool.noConfusion h
  | asyncReadSome buf isOpen => exact Bool.noConfusion h
  | closeSocket => exact Bool.noConfusion h
  | asyncWrite packet isOpen =>
    cases isOpen with
    | true => rfl
    | false =>
      simp [wire, Link.emit, Platform.perform, Io.react, Handler.isHot, Io.received]
  | post task =>
    simp [wire, Link.emit, Platform.perform, Io.react, Handler.isHot, Io.received]
  | cancelTimer timerId =>
    have hwait : ((l.env.waits.filter (fun id => id = timerId)).map
        (fun id => Handler.wait id true)).filter Handler.isHot = [] := by
      simp [List.filter_map, Function.comp_def, Handler.isHot]
    simp only [wire, Link.emit, Platform.perform, Io.react, Io.received, List.filter_append, hwait,
      List.append_nil]
  | _ => rfl

theorem hot_aborted (io : Io) : io.aborted.filter Handler.isHot =
    io.readOps.map (fun op => .readSome op.1 true 0) ++
      io.connectOp.toList.map (fun tag => .connect tag true) := by
  simp [Io.aborted, List.filter_map, Function.comp_def, Handler.isHot]

theorem wire_closeSocket (l : Link Io) : (l.emit .closeSocket).wire = l.wire.abort := by
  simp only [wire, Link.emit, Platform.perform, Io.react, Io.abort, Wire.abort, List.filter_append,
    hot_aborted, Io.received]

theorem wire_close (l : Link Io) : l.close.wire = l.wire.close := by
  unfold Wire.close
  rcases close_cases l with ⟨hd, heq⟩ | ⟨hd, ho, heq⟩ | ⟨hd, ho, heq⟩
  · have hd' : l.wire.connectState = .disconnected := hd
    rw [heq, if_pos hd']
    rfl
  · have hd' : l.wire.connectState ≠ .disconnected := hd
    have ho' : ¬ l.wire.socketOpen = true := by simpa using (show l.wire.socketOpen = false from ho)
    rw [heq, if_neg hd', if_neg ho']
    rfl
  · have hd' : l.wire.connectState ≠ .disconnected := hd
    have ho' : l.wire.socketOpen = true := ho
    rw [heq, if_neg hd', if_pos ho', wire_closeSocket]
    rfl

theorem wire_connect (l : Link Io) : l.connect.wire =
    l.wire.connect ⟨l.env.attempt + 1, l.env.closes⟩ (l.env.received (l.env.attempt + 1)) := by
  simp only [wire, connect, Link.emit, Platform.perform, Io.react, Io.abort, Wire.connect, Wire.abort,
    List.filter_append, hot_aborted, Io.received]

theorem wire_startRead (l : Link Io) (size : Nat) :
    ({ l with readPending := true, readBuf := (l.readBuf.prepare size).2 }.emit
      (.asyncReadSome (l.readBuf.prepare size).1 l.socketOpen)).wire =
    l.wire.startRead size l.env.closes := by
  unfold Wire.startRead
  cases ho : l.socketOpen with
  | true =>
    rw [if_pos (show l.wire.socketOpen = true from ho)]
    simp only [wire, Link.emit, Platform.perform, Io.react, Io.nowTag, Io.received, ho]
  | false =>
    rw [if_neg (show ¬ l.wire.socketOpen = true from fun h => by simp [wire, ho] at h)]
    simp only [wire, Link.emit, Platform.perform, Io.react, Io.nowTag, Io.received, ho,
      List.filter_append, List.filter_singleton, Handler.isHot]
    rfl

end Link

namespace Io

/-- Every `do_connect` so far met the condition. -/
def Cleared (io : Io) : Prop := ∀ e ∈ io.connectLog, e.Clear

instance (io : Io) : Decidable io.Cleared := inferInstanceAs (Decidable (∀ e ∈ io.connectLog, e.Clear))

/-- **Every packet so far is a frame of bytes in a row of one connection.** -/
def Framed (io : Io) : Prop :=
  ∀ frame p, .recvPacket frame p ∈ io.trace → frame.map RecvByte.byte = p.data ∧
    ∃ conn, frame <:+: io.received conn

theorem cleared_of_perform {io : Io} {effect : Effect}
    (h : Io.Cleared (Platform.perform effect io)) : io.Cleared := by
  cases effect with
  | doConnect unread => exact fun e he => h e (List.mem_append_left _ he)
  | asyncReadSome buf isOpen => cases isOpen <;> exact h
  | asyncWrite packet isOpen => cases isOpen <;> exact h
  | _ => exact h

theorem rx_perform (io : Io) (effect : Effect) :
    (Platform.perform effect io : Io).rx = io.rx := by
  cases effect with
  | asyncReadSome buf isOpen => cases isOpen <;> rfl
  | asyncWrite packet isOpen => cases isOpen <;> rfl
  | _ => rfl

/-- Bytes that arrive later do not matter. -/
theorem Framed.of_prefix {io jo : Io} (h : io.Framed) (ht : jo.trace = io.trace)
    (hrx : io.rx <+: jo.rx) : jo.Framed := by
  intro frame p hin
  rw [ht] at hin
  obtain ⟨hdata, conn, hconn⟩ := h frame p hin
  exact ⟨hdata, conn, hconn.trans (hrx.filter _).isInfix⟩

theorem Framed.perform {io : Io} (h : io.Framed) {e : Effect}
    (he : ∀ frame p, e = .recvPacket frame p → frame.map RecvByte.byte = p.data ∧
      ∃ conn, frame <:+: io.received conn) : Io.Framed (Platform.perform e io) := by
  have hrx : ∀ conn, (Platform.perform e io : Io).received conn = io.received conn :=
    fun conn => congrArg (List.filter (fun b : RecvByte => b.conn == conn)) (rx_perform io e)
  intro frame p hin
  simp only [hrx]
  rcases List.mem_append.mp hin with hin | hin
  · exact h frame p hin
  · exact he frame p (List.mem_singleton.mp hin).symm

end Io

namespace Link

theorem close_framed {l : Link Io} (h : l.env.Framed) : l.close.env.Framed := by
  have hmark := h.perform (e := .doClose) (by simp)
  rcases close_cases l with ⟨-, heq⟩ | ⟨-, -, heq⟩ | ⟨-, -, heq⟩
  · rw [heq]
    exact hmark
  · rw [heq]
    exact hmark
  · rw [heq]
    exact hmark.perform (by simp)

theorem cleared_of_close {l : Link Io} (h : l.close.env.Cleared) : l.env.Cleared := by
  rcases close_cases l with ⟨-, heq⟩ | ⟨-, -, heq⟩ | ⟨-, -, heq⟩
  · rw [heq] at h
    exact Io.cleared_of_perform h
  · rw [heq] at h
    exact Io.cleared_of_perform h
  · rw [heq] at h
    exact Io.cleared_of_perform (Io.cleared_of_perform h)

/-- What a step does to the wire, and what the logs say of a `do_connect`. -/
theorem wire_step {l m : Link Io} (h : Step l m) :
    m.wire = l.wire ∨ m.wire = l.wire.close.clear ∨
    ∃ tag received, m.wire = l.wire.connect tag received ∧
      (m.env.Cleared → l.readBuf.size = 0 ∧ ∀ g ∈ l.wire.hot, g.isFailed = true) := by
  -- the entry of a `do_connect` that began with this connection
  have hentry : ∀ (k : Link Io), k.connect.env.Cleared →
      k.readBuf.size = 0 ∧ ∀ g ∈ k.wire.hot, g.isFailed = true := by
    intro k hk
    have hlog := Io.cleared_of_perform hk
    obtain ⟨hsize, hpending⟩ := hlog _ (List.mem_append_right _ (List.mem_singleton.mpr rfl))
    refine ⟨hsize, fun g hg => ?_⟩
    obtain ⟨hready, hhot⟩ := List.mem_filter.mp hg
    refine hpending g (List.mem_append_left _ (List.mem_filter.mpr ⟨hready, ?_⟩)) hhot
    cases g <;> first | rfl | exact Bool.noConfusion hhot
  cases h with
  | emit effect h => exact .inl (wire_emit l (by cases effect <;> first | rfl | exact Bool.noConfusion h))
  | write packet h hp => exact .inl (wire_emit l rfl)
  | later t => exact .inl rfl
  | forget h => exact .inl rfl
  | clearStarted => exact .inl rfl
  | start host port h =>
    have hmark := wire_emit l (e := .startImpl) rfl
    refine .inr (.inr ⟨_, _, (wire_connect _).trans (congrArg (fun w : Wire => w.connect _ _) hmark), ?_⟩)
    intro hk
    have h' := hentry { l.emit .startImpl with started := true, host := host, port := port } hk
    exact ⟨h'.1, fun g hg => h'.2 g ((congrArg Wire.hot hmark) ▸ hg)⟩
  | stop =>
    have hmark := wire_emit l (e := .stopImpl l.started l.connectState) rfl
    refine .inr (.inl ?_)
    rw [← hmark, ← wire_close]
    rfl
  | connect h hs => exact .inr (.inr ⟨_, _, wire_connect l, hentry l⟩)

theorem cleared_of_step {l m : Link Io} (h : Step l m) (hm : m.env.Cleared) : l.env.Cleared := by
  cases h with
  | emit effect h => exact Io.cleared_of_perform hm
  | write packet h hp => exact Io.cleared_of_perform hm
  | later t => exact hm
  | forget h => exact hm
  | clearStarted => exact hm
  | start host port h =>
    exact Io.cleared_of_perform (Io.cleared_of_perform (Io.cleared_of_perform hm))
  | connect h hs => exact Io.cleared_of_perform (Io.cleared_of_perform hm)
  | stop => exact Io.cleared_of_perform (cleared_of_close hm)

theorem framed_step {l m : Link Io} (h : Step l m) (hl : l.env.Framed) : m.env.Framed := by
  cases h with
  | emit effect h =>
    exact hl.perform (by cases effect <;> first | exact Bool.noConfusion h | simp)
  | write packet h hp => exact hl.perform (by simp)
  | later t => exact hl
  | forget h => exact hl
  | clearStarted => exact hl
  | start host port h =>
    exact Io.Framed.perform (Io.Framed.perform (hl.perform (by simp)) (by simp)) (by simp)
  | connect h hs => exact Io.Framed.perform (hl.perform (by simp)) (by simp)
  | stop => exact close_framed (hl.perform (by simp))

/-- The acknowledgement of a packet leaves the reads alone. -/
theorem receive_keeps (l : Link Io) (packet : SharedPacket) :
    (l.receive packet).wire = l.wire ∧ ((l.receive packet).env.Cleared → l.env.Cleared) ∧
      (l.env.Framed → (l.receive packet).env.Framed) := by
  have hack : (l.ack packet).wire = l.wire ∧ ((l.ack packet).env.Cleared → l.env.Cleared) ∧
      (l.env.Framed → (l.ack packet).env.Framed) := by
    rcases l.ack_cases packet with heq | ⟨rspPacket, -, heq⟩
    · rw [heq]
      exact ⟨rfl, id, id⟩
    · rw [heq]
      exact ⟨wire_emit l rfl, Io.cleared_of_perform, fun h => h.perform (by simp)⟩
  unfold Link.receive
  split
  · exact hack
  · exact ⟨rfl, id, id⟩

/-- The wire is sound, and so is every packet so far. -/
structure Traced (l : Link Io) : Prop where
  sound : l.wire.Sound
  framed : l.env.Framed

theorem traced_step {l m : Link Io} (h : Step l m) (hl : l.env.Cleared → l.Traced)
    (hm : m.env.Cleared) : m.Traced := by
  obtain ⟨hsound, hframed⟩ := hl (cleared_of_step h hm)
  refine ⟨?_, framed_step h hframed⟩
  rcases wire_step h with heq | heq | ⟨tag, received, heq, hclear⟩
  · rw [heq]
    exact hsound
  · rw [heq]
    exact hsound.close.clear l.wire.close_keeps.1
  · obtain ⟨hsize, hfailed⟩ := hclear hm
    rw [heq]
    exact hsound.connect tag received hsize hfailed

theorem traced_steps {l m : Link Io} (h : ReflTransGen Step l m) (hl : l.env.Cleared → l.Traced) :
    m.env.Cleared → m.Traced := by
  induction h with
  | refl => exact hl
  | tail _ hstep ih => exact traced_step hstep ih

theorem cleared_of_steps {l m : Link Io} (h : ReflTransGen Step l m) (hm : m.env.Cleared) :
    l.env.Cleared := by
  induction h with
  | refl => exact hm
  | tail _ hstep ih => exact ih (cleared_of_step hstep hm)

theorem quiet_steps {l m : Link Io} (h : ReflTransGen Step l m) (hl : l.wire.Quiet) :
    m.wire.Quiet := by
  induction h with
  | refl => exact hl
  | tail _ hstep ih =>
    rcases wire_step hstep with heq | heq | ⟨tag, received, heq, -⟩
    · rw [heq]
      exact ih
    · rw [heq]
      exact ⟨ih.close.readOps, ih.close.hot⟩
    · rw [heq]
      exact ⟨rfl, ih.abort.hot⟩

theorem Traced.read {l : Link Io} (h : l.Traced) : l.read.Traced := by
  rcases read_cases l with heq | ⟨hs, hp, size, heq⟩
  · rw [heq]
    exact h
  rw [heq]
  refine ⟨?_, Io.Framed.perform h.framed (by simp)⟩
  rw [wire_startRead]
  exact h.sound.startRead hs hp size l.env.closes

theorem Traced.close {l : Link Io} (h : l.Traced) : l.close.Traced := by
  refine ⟨?_, close_framed h.framed⟩
  rw [wire_close]
  exact h.sound.close

theorem received_append (io : Io) {tag : OpTag} (bytes : List UInt8) {conn : Nat}
    (h : tag.attempt = conn) :
    (io.rx ++ World.receivedOn tag bytes).filter (fun b => b.conn == conn) =
      io.received conn ++ World.receivedOn tag bytes := by
  have hall : (World.receivedOn tag bytes).filter (fun b => b.conn == conn) =
      World.receivedOn tag bytes := by
    refine List.filter_eq_self.mpr (fun b hb => ?_)
    obtain ⟨byte, -, rfl⟩ := List.mem_map.mp hb
    exact beq_iff_eq.mpr h
  rw [List.filter_append, hall]
  rfl

/-- An event outside the handlers. -/
theorem traced_event {e : Ibase.Event} {l m : Link Io} (h : Event e l m) (hl : l.env.Cleared → l.Traced) :
    m.env.Cleared → m.Traced := by
  cases h with
  | steps h => exact traced_steps h hl
  | connect tag ec h =>
    intro hm
    obtain ⟨hsound, hframed⟩ := hl hm
    refine ⟨?_, hframed.of_prefix rfl (List.prefix_refl _)⟩
    have hw := hsound.connect_completes h ec
    simp only [wire, List.filter_append]
    exact hw
  | received op tag slab bytes he h hlen =>
    intro hm
    obtain ⟨hsound, hframed⟩ := hl hm
    refine ⟨?_, hframed.of_prefix rfl (List.prefix_append ..)⟩
    have hcount : (World.receivedOn tag bytes).length = bytes.length := List.length_map _
    have hw := hsound.read_arrives h (hcount.symm ▸ hlen)
    have hrec := received_append l.env bytes (hsound.reading_of_readOps h).2.2.2.2.2.2.1
    rw [hcount, show l.wire.received ++ World.receivedOn tag bytes = _ from hrec.symm] at hw
    simp only [wire, List.filter_append (p := Handler.isHot)]
    exact hw
  | readFailed op r h =>
    intro hm
    obtain ⟨hsound, hframed⟩ := hl hm
    refine ⟨?_, hframed.of_prefix rfl (List.prefix_refl _)⟩
    have hw := hsound.read_fails h
    simp only [wire, List.filter_append]
    exact hw
  | write op tag ec h =>
    intro hm
    obtain ⟨hsound, hframed⟩ := hl hm
    refine ⟨?_, hframed.of_prefix rfl (List.prefix_refl _)⟩
    simp only [wire, List.filter_append, show [Handler.write tag ec].filter Handler.isHot = [] from rfl,
      List.append_nil]
    exact hsound
  | wait wait id' h =>
    intro hm
    obtain ⟨hsound, hframed⟩ := hl hm
    refine ⟨?_, hframed.of_prefix rfl (List.prefix_refl _)⟩
    simp only [wire, List.filter_append, show [Handler.wait id' false].filter Handler.isHot = [] from rfl,
      List.append_nil]
    exact hsound

end Link

/-! ### The handlers -/

namespace Ctx

/-- The connection is traced if the logs met the condition so far. -/
def KeepsTrace (c : Ctx Io) : Prop := c.env.Cleared → c.link.Traced

theorem KeepsTrace.moves {c d : Ctx Io} (h : c.KeepsTrace) (hm : c.Moves d) : d.KeepsTrace :=
  Link.traced_steps hm h

theorem KeepsTrace.doClose {c : Ctx Io} (h : c.KeepsTrace) : c.doClose.KeepsTrace := by
  intro hlog
  rw [link_doClose]
  exact (h (Link.cleared_of_close (link_doClose c ▸ hlog : c.link.close.env.Cleared))).close

theorem KeepsTrace.doReadPacket {c : Ctx Io} (h : c.KeepsTrace) : c.doReadPacket.KeepsTrace := by
  intro hlog
  have hlog' : c.link.read.env.Cleared := link_doReadPacket c ▸ hlog
  rw [link_doReadPacket]
  refine (h ?_).read
  rcases Link.read_cases c.link with heq | ⟨-, -, size, heq⟩
  · rwa [heq] at hlog'
  · rw [heq] at hlog'
    exact Io.cleared_of_perform hlog'

/-- `process_packet`, when no read is outstanding or left to run. -/
theorem KeepsTrace.processPacket {c : Ctx Io}
    (h : c.env.Cleared → c.link.Traced ∧ c.link.wire.Quiet) : c.processPacket.KeepsTrace := by
  refine fun hlog => ((receiver (E := Io)).processPacket_invariant
    (P := fun c => c.env.Cleared → c.link.Traced ∧ c.link.wire.Quiet) ?_ ?_ _ h hlog).1
  · intro s hs hlog
    obtain ⟨⟨hsound, hframed⟩, hq⟩ := hs hlog
    exact ⟨⟨hsound.consume hq _, hframed⟩, ⟨hq.readOps, hq.hot⟩⟩
  · intro s p hp hs hlog
    have hmove := moves_dispatchPacket
      ((receiver.consumed s).emit (.recvPacket (receiver.frameItems s p) p)) (SharedPacket.received p)
    have hwire : ((receiver.consumed s).emit (.recvPacket (receiver.frameItems s p) p)).link.wire =
        (receiver.consumed s).link.wire := Link.wire_emit (receiver.consumed s).link rfl
    obtain ⟨hwire', hclear, hframe'⟩ := Link.receive_keeps
      ((receiver.consumed s).emit (.recvPacket (receiver.frameItems s p) p)).link
      (SharedPacket.received p)
    rw [hwire] at hwire'
    have hmark := hclear (Link.cleared_of_steps hmove hlog)
    obtain ⟨⟨hsound, hframed⟩, hq⟩ := hs (Io.cleared_of_perform hmark)
    have hframe : (receiver.frameItems s p).map RecvByte.byte = p.data ∧
        ∃ conn, receiver.frameItems s p <:+: s.env.received conn := by
      have hsize : s.readBuf.size < 2 ^ 32 := by
        have h1 : s.readBuf.tail ≤ s.readBuf.length := hsound.valid.tail_le_length
        have h2 : s.readBuf.length = 128 * 1024 := hsound.length_eq
        rw [IoBuffer.size]
        omega
      refine ⟨receiver.frameItems_map hsize hp, s.env.attempt, ?_⟩
      exact ((receiver.frameItems_infix s p).trans hsound.valid.unread_suffix.isInfix).trans
        hsound.filled_infix
    have hkeep : (((receiver.consumed s).emit
        (.recvPacket (receiver.frameItems s p) p)).link.receive (SharedPacket.received p)).Traced := by
      refine ⟨hwire' ▸ hsound.consume hq _, hframe' ?_⟩
      refine hframed.perform (fun frame p' heq => ?_)
      obtain ⟨rfl, rfl⟩ := Effect.recvPacket.inj heq
      exact hframe
    exact ⟨Link.traced_steps hmove (fun _ => hkeep) hlog,
      Link.quiet_steps hmove (hwire' ▸ ⟨hq.readOps, hq.hot⟩)⟩

/-- `process_read_data`. -/
theorem KeepsTrace.processReadData {c : Ctx Io} {n : Nat}
    (h : c.env.Cleared →
      Link.Traced { c.link with readBuf := c.readBuf.commit n } ∧ c.link.wire.Quiet) :
    (c.processReadData n).KeepsTrace := by
  refine KeepsTrace.doReadPacket ?_
  split
  · exact KeepsTrace.processPacket
      (fun hlog => ⟨(h hlog).1, ⟨(h hlog).2.readOps, (h hlog).2.hot⟩⟩)
  · rename_i hn
    obtain rfl : n = 0 := by omega
    exact fun hlog => (h hlog).1

end Ctx

/-! ### Whole runs -/

namespace World

def KeepsTrace (w : World) : Prop := w.io.Cleared → w.link.Traced

theorem keepsTrace_new : new.KeepsTrace := by
  intro _
  refine ⟨⟨IoBuffer.valid_new _ _, rfl, fun _ => rfl, List.nil_infix, ?_⟩, ?_⟩
  · exact .down (by decide) rfl rfl (fun g hg => absurd hg List.not_mem_nil)
  · exact fun frame p hin => absurd hin List.not_mem_nil

/-- The next handler runs. -/
theorem KeepsTrace.run {w : World} (h : w.KeepsTrace) {g : Handler} {rest : List Handler}
    (hr : w.io.ready = g :: rest) (script : List CallbackRun) :
    (({ w with io := { w.io with ready := rest } } : World).enter script).runHandler g |>.KeepsTrace := by
  have hcold : g.isHot = false →
      (({ w with io := { w.io with ready := rest } } : World).enter script).KeepsTrace := by
    intro hg hlog
    obtain ⟨hsound, hframed⟩ := h hlog
    refine ⟨?_, hframed.of_prefix rfl (List.prefix_refl _)⟩
    have hhot : w.link.wire.hot = rest.filter Handler.isHot := by
      show w.io.ready.filter Handler.isHot = _
      rw [hr, List.filter_cons_of_neg (by simp [hg])]
    have hw : ({ w.link.wire with hot := rest.filter Handler.isHot } : Wire).Sound := by
      rw [← hhot]
      exact hsound
    exact hw
  have hhot : g.isHot = true → w.link.wire.hot = g :: rest.filter Handler.isHot := by
    intro hg
    show w.io.ready.filter Handler.isHot = _
    rw [hr, List.filter_cons_of_pos hg]
  cases g with
  | task task => exact (hcold rfl).moves (Ctx.moves_runTask _ task)
  | wait timerId ec => exact (hcold rfl).moves (Ctx.moves_onTimer _ timerId ec)
  | write tag ec =>
    cases ec with
    | true => exact (hcold rfl).doClose
    | false => exact hcold rfl
  | connect tag ec =>
    cases ec with
    | true => exact fun hlog => ⟨(h hlog).sound.connect_failed (hhot rfl), (h hlog).framed⟩
    | false =>
      refine Ctx.KeepsTrace.doReadPacket (c := { (({ w with io := { w.io with ready := rest } } :
        World).enter script) with connectState := .connected }) (fun hlog => ?_)
      exact ⟨(h hlog).sound.connect_done (hhot rfl), (h hlog).framed⟩
  | readSome tag ec length =>
    cases ec with
    | true =>
      refine Ctx.KeepsTrace.doClose (c := { (({ w with io := { w.io with ready := rest } } :
        World).enter script) with readPending := false }) (fun hlog => ?_)
      exact ⟨(h hlog).sound.pop_failed (hhot rfl) rfl, (h hlog).framed⟩
    | false =>
      refine Ctx.KeepsTrace.processReadData (c := { (({ w with io := { w.io with ready := rest } } :
        World).enter script) with readPending := false }) (fun hlog => ?_)
      obtain ⟨hdone, hrest, hops⟩ := (h hlog).sound.read_done (hhot rfl)
      refine ⟨⟨hdone, (h hlog).framed⟩, ⟨hops, fun tag n hin => ?_⟩⟩
      have hin' : .readSome tag false n ∈ rest.filter Handler.isHot := hin
      rw [hrest] at hin'
      exact absurd hin' List.not_mem_nil

theorem KeepsTrace.step {w v : World} (h : w.KeepsTrace) {e : Event} (hs : w.step e = some v) :
    v.KeepsTrace := by
  rcases step_cases hs with ⟨script, g, rest, hr, rfl⟩ | hev
  · exact h.run hr script
  · exact Link.traced_event hev h

theorem keepsTrace_run {w : World} {es : List Event} (h : Run.run step new es = some w) :
    w.KeepsTrace :=
  Run.run_invariant (P := fun _ _ => True) (fun _ _ _ hw _ hs => hw.step hs) keepsTrace_new
    (Run.along_true _ _) h

/-- **Every packet is a frame that lies within the bytes of one connection**, in
every run in which each `do_connect` finds nothing unread, and no connect and no
read left to run that succeeded. -/
theorem packet_of_one_connection {es : List Event} {w : World}
    (h : Run.run step new es = some w) (hlog : w.io.Cleared) {frame : List RecvByte} {p : Packet}
    (hp : .recvPacket frame p ∈ w.io.trace) :
    frame.map RecvByte.byte = p.data ∧ ∃ conn, frame <:+: w.io.received conn :=
  (keepsTrace_run h hlog).framed frame p hp

/-- A frame of a response. -/
def responseFrame : List UInt8 := (Packet.new 1 7 false (buildHeader 1 7 false 0) none 0).data

/-- A connection receives these bytes and ends, and six seconds after it began a
tick has begun the next one, which receives those. -/
def cutBetween (first second : List UInt8) : List Event :=
  [.start "host" 1, .run [], .connected, .run [], .run [], .received 0 first, .run [],
    .advance 6000000000, .readFailed 0, .run [], .expired 0, .run [], .connected, .run [],
    .received 0 second, .run []]

/-- The packets of a trace, each with the connections its bytes came from. -/
def packetsOf (trace : List Effect) : List (List Nat) :=
  trace.filterMap (fun effect =>
    match effect with
    | .recvPacket frame _ => some (frame.map RecvByte.conn)
    | _ => none)

theorem exists_of_packetsOf (trace : List Effect) (conns : List Nat)
    (h : conns ∈ packetsOf trace) :
    ∃ frame p, .recvPacket frame p ∈ trace ∧ frame.map RecvByte.conn = conns := by
  obtain ⟨effect, hin, heq⟩ := List.mem_filterMap.mp h
  cases effect with
  | recvPacket frame p => exact ⟨frame, p, hin, Option.some.inj heq⟩
  | _ => exact absurd heq (by simp)

/-- Each connection receives a whole frame. -/
theorem packet_of_one_connection_twice :
    ∃ w frame p, Run.run step new (cutBetween responseFrame responseFrame) = some w ∧
      .recvPacket frame p ∈ w.io.trace ∧ frame.map RecvByte.conn = List.replicate 15 2 ∧
      frame.map RecvByte.byte = p.data ∧ ∃ conn, frame <:+: w.io.received conn := by
  have hrun : (Run.run step new (cutBetween responseFrame responseFrame)).map (fun w =>
      (packetsOf w.io.trace, decide w.io.Cleared)) =
      some ([List.replicate 15 1, List.replicate 15 2], true) := by
    decide +kernel
  obtain ⟨w, hw, heq⟩ := Option.map_eq_some_iff.mp hrun
  obtain ⟨hpackets, hlog⟩ := Prod.mk.inj heq
  obtain ⟨frame, p, hin, hconn⟩ := exists_of_packetsOf w.io.trace
    (List.replicate 15 2) (by rw [hpackets]; simp)
  exact ⟨w, frame, p, hw, hin, hconn, packet_of_one_connection hw (of_decide_eq_true hlog) hin⟩

/-- **A frame can be made of the bytes of two connections.**  The first one ends
after five bytes of a frame; they stay in `read_buf_`, and the next connection
begins with the other ten. -/
theorem packet_of_two_connections :
    ∃ w frame p, Run.run step new (cutBetween (responseFrame.take 5) (responseFrame.drop 5)) =
      some w ∧ .recvPacket frame p ∈ w.io.trace ∧
      frame.map RecvByte.conn = List.replicate 5 1 ++ List.replicate 10 2 ∧
      ¬ ∃ conn, frame <:+: w.io.received conn := by
  have hrun : (Run.run step new (cutBetween (responseFrame.take 5) (responseFrame.drop 5))).map
      (fun w => packetsOf w.io.trace) = some [List.replicate 5 1 ++ List.replicate 10 2] := by
    decide +kernel
  obtain ⟨w, hw, heq⟩ := Option.map_eq_some_iff.mp hrun
  obtain ⟨frame, p, hin, hconn⟩ := exists_of_packetsOf w.io.trace
    (List.replicate 5 1 ++ List.replicate 10 2) (by rw [heq]; simp)
  refine ⟨w, frame, p, hw, hin, hconn, ?_⟩
  rintro ⟨conn, hwithin⟩
  have hall : ∀ n ∈ frame.map RecvByte.conn, n = conn := by
    intro n hn
    obtain ⟨b, hb, rfl⟩ := List.mem_map.mp hn
    exact beq_iff_eq.mp (List.mem_filter.mp (hwithin.subset hb)).2
  rw [hconn] at hall
  have h1 : 1 = conn := hall 1 (by simp)
  have h2 : 2 = conn := hall 2 (by simp)
  omega

end World

end Ibase
