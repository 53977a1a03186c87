import Ibase.Lib.Run
import Ibase.Lib.Custody
import Ibase.Client
import Ibase.Session

/-!
# Who holds a packet that is being sent

`do_write_packet` gives `async_write` the bytes of a packet and a handler that
captures `weak_this` and nothing more.  So `write_packets_` alone can hold the
packet until the write has completed: the acks, the heartbeats and the responses
are never there, and an entry may be gone before its write is.

`Writes` is what asio keeps of the writes.  An event is one of the functions that
send a packet or change `write_packets_` or the connection, at any time and with
any arguments, so that every handler is a run of these events
(`reaches_onReadCompleted`, `reaches_onTimer`).
-/

namespace Ibase

open Custody

/-- The writes that have not completed, each with the packets that its handler
captured. -/
structure Writes where
  outstanding : List (Loan SharedPacket)

/-- `async_write` with the handler of `do_write_packet`. -/
def Writes.asyncWrite (w : Writes) (packet : SharedPacket) : Writes :=
  ⟨w.outstanding ++ [⟨packet, []⟩]⟩

/-! ### The client -/

/-- Closing the socket, or connecting it again, ends every write; a write on a
closed socket sends nothing. -/
instance : Platform Effect Writes where
  perform effect w :=
    match effect with
    | .asyncWrite packet isOpen => if isOpen then w.asyncWrite packet else w
    | .asyncConnect _ _ | .closeSocket => ⟨[]⟩
    | _ => w

/-- Did the last send of this entry go unanswered, with no try left? -/
def SendingPacketInfo.timedOut (curTimePoint : TimePoint) (it : SendingPacketInfo) : Bool :=
  !decide (secondsPassed curTimePoint it.lastSendTimePoint < it.sendOpt.intervalSeconds.toNat) &&
    decide (it.curTries ≥ it.sendOpt.tries)

namespace SendingPacketInfo

variable {it : SendingPacketInfo} {curTimePoint : TimePoint}

theorem timedOut_early
    (h : secondsPassed curTimePoint it.lastSendTimePoint < it.sendOpt.intervalSeconds.toNat) :
    it.timedOut curTimePoint = false := by
  rw [timedOut, decide_eq_true h]
  rfl

theorem timedOut_spent
    (h : ¬ secondsPassed curTimePoint it.lastSendTimePoint < it.sendOpt.intervalSeconds.toNat)
    (htries : it.curTries ≥ it.sendOpt.tries) : it.timedOut curTimePoint = true := by
  rw [timedOut, decide_eq_false h, decide_eq_true htries]
  rfl

theorem timedOut_unspent (htries : ¬ it.curTries ≥ it.sendOpt.tries) :
    it.timedOut curTimePoint = false := by
  rw [timedOut, decide_eq_false htries]
  exact Bool.and_false _

end SendingPacketInfo

inductive Client.SendEvent where
  | sendReqAsync (cmd : UInt32) (reqBuf : Option (List UInt8)) (reqLen : UInt32)
      (opt : Option SendOpt) (callback : Callback)
  /-- A thread in `stop` clears `started_`. -/
  | clearStarted
  | runTask (task : Task)
  | connectCompleted (ec : Bool)
  | readFailed
  /-- The receive path changes its two fields. -/
  | read (readPending : Bool) (readBuf : IoBuffer RecvByte)
  /-- `process_packet` hands over a packet. -/
  | dispatchPacket (packet : SharedPacket) (script : List CallbackRun)
  | doReconnectCheck (curTimePoint : TimePoint)
  | doResenderCheck (curTimePoint : TimePoint) (script : List CallbackRun)
  | doHeartbeatCheck (curTimePoint : TimePoint)
  | rescheduleTimer (timerId : UInt32)
  /-- A write completes. -/
  | written (op : Nat)
  /-- The handler of a write runs. -/
  | writeHandler (ec : Bool)
  | advance (time : TimePoint)

namespace Ctx

/-- What `write_packets_` holds. -/
def heldPackets (c : Ctx Writes) : List SharedPacket :=
  c.writePackets.map (fun it => it.packet.toSharedPacket)

/-- Every packet that is being sent is held. -/
def KeepsPackets (c : Ctx Writes) : Prop := Covered c.heldPackets c.env.outstanding

def Sending (c : Ctx Writes) (packet : SharedPacket) : Prop := Lent packet c.env.outstanding

def sendStep (c : Ctx Writes) : Client.SendEvent → Option (Ctx Writes)
  | .sendReqAsync cmd reqBuf reqLen opt callback =>
    some (c.sendReqAsync cmd reqBuf reqLen opt callback)
  | .clearStarted => some { c with started := false }
  | .runTask task => some (c.runTask task)
  | .connectCompleted ec => some (c.onConnectCompleted ec)
  | .readFailed => some (c.onReadCompleted true 0)
  | .read readPending readBuf => some { c with readPending := readPending, readBuf := readBuf }
  | .dispatchPacket packet script => some ({ c with script := script }.dispatchPacket packet)
  | .doReconnectCheck curTimePoint => some (c.doReconnectCheck curTimePoint)
  | .doResenderCheck curTimePoint script =>
    some ({ c with script := script }.doResenderCheck curTimePoint)
  | .doHeartbeatCheck curTimePoint => some (c.doHeartbeatCheck curTimePoint)
  | .rescheduleTimer timerId => some (c.rescheduleTimer timerId)
  | .written op =>
    if op < c.env.outstanding.length then
      some { c with env := ⟨c.env.outstanding.eraseIdx op⟩ }
    else none
  | .writeHandler ec => some (c.onWriteCompleted ec)
  | .advance time => some { c with now := c.now.later time }

/-- Does a packet that is written now go out on a socket? -/
def CanWrite (c : Ctx Writes) : Prop := c.isConnected = true ∧ c.socketOpen = true

/-- `stop_impl` would find no write on a connection that it does not close. -/
def Stoppable (c : Ctx Writes) : Prop :=
  c.env.outstanding = [] ∨ c.connectState ≠ .disconnected

/-- If the coming callbacks call `stop`, they can. -/
def StopsSafely (c : Ctx Writes) : Prop :=
  (∃ run ∈ c.script, UserCall.stop ∈ run.calls) → c.Stoppable

/-- No ack or heartbeat goes out, no entry goes whose packet is being sent, and
`stop_impl` finds the connection of every write. -/
def Careful (c : Ctx Writes) : Client.SendEvent → Prop
  | .runTask (.sendCancelImpl sendId) =>
    ∀ it ∈ c.writePackets.find? (fun it => it.sendId == sendId), ¬ c.Sending it.packet.toSharedPacket
  | .runTask .stopImpl => c.Stoppable
  | .dispatchPacket packet script =>
    { c with script := script }.StopsSafely ∧
      if packet.isPush then ¬ c.CanWrite
      else ∀ it ∈ c.writePackets.find? (matchesPacket packet), ¬ c.Sending it.packet.toSharedPacket
  | .doResenderCheck curTimePoint script =>
    { c with script := script }.StopsSafely ∧
      ∀ it ∈ c.writePackets, it.timedOut curTimePoint = true → ¬ c.Sending it.packet.toSharedPacket
  | .doHeartbeatCheck curTimePoint =>
    secondsPassed curTimePoint c.lastHeartbeatTimepoint < heartbeatIntervalSeconds ∨ ¬ c.CanWrite
  | _ => True

/-- What every function keeps. -/
structure Sound (c : Ctx Writes) : Prop where
  keeps : c.KeepsPackets
  closed : c.socketOpen = false → c.env.outstanding = []

theorem sound_of_nil {c : Ctx Writes} (h : c.env.outstanding = []) : c.Sound := by
  refine ⟨?_, fun _ => h⟩
  rw [KeepsPackets, h]
  exact covered_nil _

/-! ### What ends the writes -/

/-- What a function that sends nothing does to the writes: nothing, or it ends all
of them. -/
structure Settles (c d : Ctx Writes) : Prop where
  script : d.script <:+ c.script
  writes : (d.env = c.env ∧ d.connectState = c.connectState ∧ d.socketOpen = c.socketOpen ∧
      d.writePackets = c.writePackets) ∨
    (d.env.outstanding = [] ∧ (d.writePackets = c.writePackets ∨ d.writePackets = []))

namespace Settles

variable {c d e : Ctx Writes}

theorem same (hscript : d.script = c.script) (henv : d.env = c.env)
    (hstate : d.connectState = c.connectState) (hopen : d.socketOpen = c.socketOpen)
    (hpackets : d.writePackets = c.writePackets) : Settles c d :=
  ⟨hscript ▸ List.suffix_refl _, .inl ⟨henv, hstate, hopen, hpackets⟩⟩

theorem ended (hscript : d.script = c.script) (hnil : d.env.outstanding = [])
    (hpackets : d.writePackets = c.writePackets ∨ d.writePackets = []) : Settles c d :=
  ⟨hscript ▸ List.suffix_refl _, .inr ⟨hnil, hpackets⟩⟩

theorem refl (c : Ctx Writes) : Settles c c := same rfl rfl rfl rfl rfl

theorem trans (h : Settles c d) (h' : Settles d e) : Settles c e := by
  refine ⟨h'.script.trans h.script, ?_⟩
  rcases h'.writes with ⟨henv', hstate', hopen', hpackets'⟩ | ⟨hnil', hpackets'⟩
  · rw [henv', hstate', hopen', hpackets']
    exact h.writes
  · refine .inr ⟨hnil', ?_⟩
    rcases hpackets' with heq | hempty
    · rw [heq]
      exact h.writes.elim (fun hsame => .inl hsame.2.2.2) And.right
    · exact .inr hempty

theorem sound (h : Settles c d) (hc : c.Sound) : d.Sound := by
  rcases h.writes with ⟨henv, -, hopen, hpackets⟩ | ⟨hnil, -⟩
  · refine ⟨?_, ?_⟩
    · rw [KeepsPackets, heldPackets, henv, hpackets]
      exact hc.keeps
    · rw [henv, hopen]
      exact hc.closed
  · exact sound_of_nil hnil

theorem stoppable (h : Settles c d) (hc : c.Stoppable) : d.Stoppable := by
  rcases h.writes with ⟨henv, hstate, -, -⟩ | ⟨hnil, -⟩
  · rw [Stoppable, henv, hstate]
    exact hc
  · exact .inl hnil

theorem stopsSafely (h : Settles c d) (hc : c.StopsSafely) : d.StopsSafely := by
  rintro ⟨run, hin, hstop⟩
  exact h.stoppable (hc ⟨run, h.script.subset hin, hstop⟩)

end Settles

theorem settles_doClose {c : Ctx Writes} (hc : c.Sound) : Settles c c.doClose := by
  rw [doClose]
  simp only
  split
  · exact .same rfl rfl rfl rfl rfl
  · split
    · exact .ended rfl rfl (.inl rfl)
    · rename_i hshut
      exact .ended rfl (hc.closed (Bool.eq_false_of_not_eq_true hshut)) (.inl rfl)

/-- **`do_close` ends every write** of a connection. -/
theorem outstanding_doClose {c : Ctx Writes} (hc : c.Sound) (hs : c.Stoppable) :
    c.doClose.env.outstanding = [] := by
  rcases hs with hnil | hstate
  · rcases (settles_doClose hc).writes with ⟨henv, -⟩ | ⟨hnil', -⟩
    · rw [henv, hnil]
    · exact hnil'
  · rw [doClose]
    simp only
    split
    · rename_i hdis
      exact absurd hdis hstate
    · split
      · rfl
      · rename_i hshut
        exact hc.closed (Bool.eq_false_of_not_eq_true hshut)

theorem settles_doConnect (c : Ctx Writes) : Settles c c.doConnect := by
  rw [doConnect]
  split
  · exact .refl c
  · exact .ended rfl rfl (.inl rfl)

theorem settles_startImpl (c : Ctx Writes) (host : String) (port : UInt16) :
    Settles c (c.startImpl host port) := by
  rw [startImpl]
  split
  · exact .refl c
  · exact .ended rfl rfl (.inl rfl)

theorem foldl_dropped_writes (infos : List SendingPacketInfo) (c : Ctx Writes) :
    infos.foldl (fun c info => c.emit (.dropped info)) c = c := by
  induction infos generalizing c with
  | nil => rfl
  | cons info infos ih => exact ih c

theorem script_doClose {E : Type} [Platform Effect E] (c : Ctx E) : c.doClose.script = c.script := by
  rw [doClose]
  simp only
  split
  · rfl
  · split
    · rfl
    · rfl

theorem settles_stopImpl {c : Ctx Writes} (hc : c.Sound) (hs : c.Stoppable) :
    Settles c c.stopImpl := by
  have hnil := outstanding_doClose (c := { c.stopTimer c.checkTimerId with checkTimerId := 0 }.emit
    (.stopImpl c.started c.connectState)) ⟨hc.keeps, hc.closed⟩ hs
  rw [stopImpl]
  simp only [foldl_dropped_writes]
  exact .ended (script_doClose _) hnil (.inr rfl)

theorem settles_sendReqAsync (c : Ctx Writes) (cmd : UInt32) (reqBuf : Option (List UInt8))
    (reqLen : UInt32) (opt : Option SendOpt) (callback : Callback) :
    Settles c (c.sendReqAsync cmd reqBuf reqLen opt callback) := by
  rw [sendReqAsync]
  simp only
  split
  · exact .same rfl rfl rfl rfl rfl
  · exact .same rfl rfl rfl rfl rfl

theorem settles_userCall {c : Ctx Writes} (hc : c.Sound) {call : UserCall}
    (hs : call = .stop → c.Stoppable) : Settles c (c.userCall call) := by
  cases call with
  | sendReqAsync cmd reqBuf reqLen opt callback => exact settles_sendReqAsync c ..
  | sendCancel sendId => exact .same rfl rfl rfl rfl rfl
  | subscribeNotification cmd callback => exact .same rfl rfl rfl rfl rfl
  | unsubscribeNotification cmd => exact .same rfl rfl rfl rfl rfl
  | start host port => exact settles_startImpl c host port
  | stop =>
    show Settles c (if c.started = false then c else { c with started := false }.stopImpl)
    split
    · exact .refl c
    · have hclear : Settles c { c with started := false } := .same rfl rfl rfl rfl rfl
      exact hclear.trans (settles_stopImpl (hclear.sound hc) (hs rfl))

theorem settles_calls {calls : List UserCall} {c : Ctx Writes} (hc : c.Sound)
    (hs : .stop ∈ calls → c.Stoppable) : Settles c (calls.foldl userCall c) := by
  induction calls generalizing c with
  | nil => exact .refl c
  | cons call calls ih =>
    have hfirst : Settles c (c.userCall call) :=
      settles_userCall hc (fun heq => hs (heq ▸ List.mem_cons_self))
    refine hfirst.trans (ih (hfirst.sound hc) (fun hin => ?_))
    exact hfirst.stoppable (hs (List.mem_cons_of_mem _ hin))

/-- **The user's part of a callback sends nothing.** -/
theorem settles_runCallback {c : Ctx Writes} (hc : c.Sound) (hs : c.StopsSafely) :
    Settles c c.runCallback := by
  rw [runCallback]
  split
  · exact .refl c
  · rename_i run rest hscript
    have hdrop : Settles c { c with script := rest } := by
      refine ⟨?_, .inl ⟨rfl, rfl, rfl, rfl⟩⟩
      rw [hscript]
      exact List.suffix_cons run rest
    have hcalls : Settles { c with script := rest }
        (run.calls.foldl userCall { c with script := rest }) :=
      settles_calls (hdrop.sound hc) (fun hin => hs ⟨run, hscript ▸ List.mem_cons_self, hin⟩)
    exact (hdrop.trans hcalls).trans (.same rfl rfl rfl rfl rfl)

/-! ### What sends a packet -/

theorem doWritePacket_of_can {c : Ctx Writes} (hcan : c.CanWrite) (packet : SharedPacket) :
    c.doWritePacket (some packet) = { c with env := c.env.asyncWrite packet } := by
  show (if c.isConnected = false then c else c.emit (.asyncWrite packet c.socketOpen)) = _
  rw [hcan.1, if_neg (by simp), hcan.2]
  rfl

/-- Nothing is sent when there is no connection. -/
theorem doWritePacket_of_not {c : Ctx Writes} (hnot : ¬ c.CanWrite) (packet : Option SharedPacket) :
    c.doWritePacket packet = c := by
  cases packet with
  | none => rfl
  | some packet =>
    show (if c.isConnected = false then c else c.emit (.asyncWrite packet c.socketOpen)) = c
    split
    · rfl
    · rename_i hconn
      have hshut : c.socketOpen = false := by
        refine Bool.eq_false_of_not_eq_true (fun hopen => hnot ⟨?_, hopen⟩)
        exact Bool.eq_true_of_not_eq_false hconn
      rw [hshut]
      rfl

/-- A packet that `write_packets_` holds may be sent. -/
theorem Sound.doWritePacket {c : Ctx Writes} (hc : c.Sound) {packet : SharedPacket}
    (hin : packet ∈ c.heldPackets) : (c.doWritePacket (some packet)).Sound := by
  by_cases hcan : c.CanWrite
  · rw [doWritePacket_of_can hcan]
    exact ⟨hc.keeps.lend hin [], fun hshut => absurd (hcan.2.symm.trans hshut) (by simp)⟩
  · rw [doWritePacket_of_not hcan]
    exact hc

/-! ### The sweep of the list -/

/-- The sweep of `do_resender_check`: the entries that time out are not needed any
more. -/
def sweeper (curTimePoint : TimePoint) : Sweeper (Ctx Writes) SharedPacket SendingPacketInfo where
  entries c := c.writePackets
  loans c := c.env.outstanding
  item it := it.packet.toSharedPacket
  gone := SendingPacketInfo.timedOut curTimePoint
  sweep := resendFrom curTimePoint

/-- What the sweep keeps beside the packets. -/
def Callable (c : Ctx Writes) : Prop :=
  (c.socketOpen = false → c.env.outstanding = []) ∧ c.StopsSafely

/-- The packet of an entry is sent, or there is no connection. -/
theorem Callable.doWritePacket {c : Ctx Writes} (h : c.Callable) (packet : SharedPacket) :
    (c.doWritePacket (some packet)).writePackets = c.writePackets ∧
      ((c.doWritePacket (some packet)).env.outstanding = c.env.outstanding ∨
        ∃ own, (c.doWritePacket (some packet)).env.outstanding =
          c.env.outstanding ++ [⟨packet, own⟩]) ∧
      (c.doWritePacket (some packet)).Callable := by
  by_cases hcan : c.CanWrite
  · rw [doWritePacket_of_can hcan]
    refine ⟨rfl, .inr ⟨[], rfl⟩, fun hshut => absurd (hcan.2.symm.trans hshut) (by simp), fun _ => ?_⟩
    exact .inr (by rw [eq_of_beq hcan.1]; simp)
  · rw [doWritePacket_of_not hcan]
    exact ⟨rfl, .inl rfl, h⟩

theorem sweeper_lawful (curTimePoint : TimePoint) : (sweeper curTimePoint).Lawful Callable := by
  refine ⟨fun _ _ => rfl, ?_⟩
  intro visited it rest c hentries hcovers hcall
  have hc : c.Sound := ⟨hcovers, hcall.1⟩
  by_cases hearly : secondsPassed curTimePoint it.lastSendTimePoint < it.sendOpt.intervalSeconds.toNat
  · exact .keep it c (SendingPacketInfo.timedOut_early hearly) rfl hentries (.inl rfl) hcall
      (if_pos hearly)
  by_cases htries : it.curTries ≥ it.sendOpt.tries
  · have hgone := SendingPacketInfo.timedOut_spent hearly htries
    have hsettles : Settles c (c.doSendReqCallback it (-1) it.packet.toSharedPacket) :=
      settles_runCallback (c := c) hc hcall.2
    have hround : (sweeper curTimePoint).sweep visited (it :: rest) c =
        if it ∈ (c.doSendReqCallback it (-1) it.packet.toSharedPacket).writePackets then
          resendFrom curTimePoint visited rest
            { c.doSendReqCallback it (-1) it.packet.toSharedPacket with
              writePackets := visited ++ rest }
        else c.doSendReqCallback it (-1) it.packet.toSharedPacket :=
      (if_neg hearly).trans (if_pos htries)
    generalize c.doSendReqCallback it (-1) it.packet.toSharedPacket = d at hsettles hround
    have hd := hsettles.sound hc
    have hcall' : d.Callable := ⟨hd.closed, hsettles.stopsSafely hcall.2⟩
    by_cases hin : it ∈ d.writePackets
    · refine .drop { d with writePackets := visited ++ rest } hgone rfl ?_ hcall'
        (hround.trans (if_pos hin))
      exact hsettles.writes.imp (fun hsame => congrArg Writes.outstanding hsame.1) And.left
    · -- the callback has stopped the client
      rw [if_neg hin] at hround
      exact .stop (by rw [hround]; exact hd.keeps) (by rw [hround]; exact hcall')
  · let sent := { it with curTries := it.curTries + 1, lastSendTimePoint := curTimePoint }
    let marked := { c with writePackets := visited ++ sent :: rest }
    have hmarked : marked.Callable := hcall
    obtain ⟨hentries', hloans, hwritten⟩ := hmarked.doWritePacket it.packet.toSharedPacket
    exact .keep sent (marked.doWritePacket (some it.packet.toSharedPacket))
      (SendingPacketInfo.timedOut_unspent htries) rfl hentries' hloans hwritten
      ((if_neg hearly).trans (if_neg htries))

/-! ### The functions of the client -/

/-- An entry whose packet is not being sent may go. -/
theorem Sound.eraseP {c : Ctx Writes} (hc : c.Sound) {p : SendingPacketInfo → Bool}
    (hgone : ∀ it ∈ c.writePackets.find? p, ¬ c.Sending it.packet.toSharedPacket) :
    Sound { c with writePackets := c.writePackets.eraseP p } :=
  ⟨hc.keeps.eraseP hgone, hc.closed⟩

theorem sound_sendReqAsyncImpl {c : Ctx Writes} (hc : c.Sound) (packet : RequestPacket)
    (sendDraw : Nat) (opt : SendOpt) (callback : Callback) :
    (c.sendReqAsyncImpl packet sendDraw opt callback).Sound := by
  have hqueued : Sound { c with
      writePackets := c.writePackets ++ [⟨packet, opt, sendDraw, callback, 1, c.now⟩] } := by
    refine ⟨hc.keeps.mono ?_, hc.closed⟩
    exact List.map_subset _ (List.subset_append_left ..)
  refine hqueued.doWritePacket ?_
  simp [heldPackets]

theorem sound_sendCancelImpl {c : Ctx Writes} (hc : c.Sound) {sendId : UInt32}
    (hgone : ∀ it ∈ c.writePackets.find? (fun it => it.sendId == sendId),
      ¬ c.Sending it.packet.toSharedPacket) : (c.sendCancelImpl sendId).Sound := by
  rw [sendCancelImpl]
  split
  · exact hc
  · exact hc.eraseP hgone

theorem sound_runTask {c : Ctx Writes} (hc : c.Sound) {task : Task}
    (h : c.Careful (.runTask task)) : (c.runTask task).Sound := by
  cases task with
  | startImpl host port => exact (settles_startImpl c host port).sound hc
  | stopImpl => exact (settles_stopImpl hc h).sound hc
  | sendReqAsyncImpl packet sendDraw opt callback => exact sound_sendReqAsyncImpl hc ..
  | sendCancelImpl sendId => exact sound_sendCancelImpl hc h
  | subscribeNotificationImpl cmd callback => exact ⟨hc.keeps, hc.closed⟩
  | unsubscribeNotificationImpl cmd => exact ⟨hc.keeps, hc.closed⟩
  | startTimerImpl timerId delay interval =>
    rw [runTask, startTimerImpl]
    split
    · exact ⟨hc.keeps, hc.closed⟩
    · exact ⟨hc.keeps, hc.closed⟩
  | stopTimerImpl timerId =>
    rw [runTask, stopTimerImpl]
    split
    · exact ⟨hc.keeps, hc.closed⟩
    · exact ⟨hc.keeps, hc.closed⟩

theorem settles_ackPushPacket {c : Ctx Writes} (hnot : ¬ c.CanWrite) (packet : SharedPacket) :
    Settles c (c.ackPushPacket packet) := by
  rw [ackPushPacket]
  split
  · exact .refl c
  · rw [doWritePacket_of_not hnot]
    exact .refl c

theorem settles_processPushPacket {c : Ctx Writes} (hc : c.Sound) (hs : c.StopsSafely)
    (hnot : ¬ c.CanWrite) (packet : SharedPacket) : Settles c (c.processPushPacket packet) := by
  have hack := settles_ackPushPacket hnot packet
  rw [processPushPacket]
  simp only
  generalize c.ackPushPacket packet = d at hack ⊢
  have htracker : Settles c { d with
      tracker := (d.tracker.onReceivePacket (UInt64.ofNat d.now.tick) packet.cmd packet.seq).2 } :=
    hack.trans (.same rfl rfl rfl rfl rfl)
  split
  · exact htracker
  · split
    · exact htracker
    · refine htracker.trans ?_
      exact settles_runCallback (htracker.sound hc) (htracker.stopsSafely hs)

theorem sound_processResponsePacket {c : Ctx Writes} (hc : c.Sound) (hs : c.StopsSafely)
    {packet : SharedPacket} (hgone : ∀ it ∈ c.writePackets.find? (matchesPacket packet),
      ¬ c.Sending it.packet.toSharedPacket) : (c.processResponsePacket packet).Sound := by
  rw [processResponsePacket]
  split
  · exact hc
  · have herased := hc.eraseP hgone
    exact (settles_runCallback herased hs).sound herased

theorem sound_dispatchPacket {c : Ctx Writes} (hc : c.Sound) {packet : SharedPacket}
    {script : List CallbackRun} (h : c.Careful (.dispatchPacket packet script)) :
    ({ c with script := script }.dispatchPacket packet).Sound := by
  obtain ⟨hs, hkind⟩ := h
  have hscript : Sound { c with script := script } := ⟨hc.keeps, hc.closed⟩
  rw [dispatchPacket]
  split
  · rename_i hpush
    rw [if_pos hpush] at hkind
    exact (settles_processPushPacket hscript hs hkind packet).sound hscript
  · rename_i hpush
    rw [if_neg hpush] at hkind
    exact sound_processResponsePacket hscript hs hkind

theorem sound_doResenderCheck {c : Ctx Writes} (hc : c.Sound) {curTimePoint : TimePoint}
    {script : List CallbackRun} (h : c.Careful (.doResenderCheck curTimePoint script)) :
    ({ c with script := script }.doResenderCheck curTimePoint).Sound := by
  obtain ⟨hs, hgone⟩ := h
  obtain ⟨hkeeps, hclosed, -⟩ := (sweeper_lawful curTimePoint).covers_sweep
    (s := { c with script := script }) rfl (.start hc.keeps hgone) ⟨hc.closed, hs⟩
  exact ⟨hkeeps, hclosed⟩

theorem sound_doReconnectCheck {c : Ctx Writes} (hc : c.Sound) (curTimePoint : TimePoint) :
    (c.doReconnectCheck curTimePoint).Sound := by
  rw [doReconnectCheck]
  split
  · exact hc
  split
  · exact hc
  split
  · exact hc
  · exact (settles_doConnect c).sound hc

theorem sound_doHeartbeatCheck {c : Ctx Writes} (hc : c.Sound) {curTimePoint : TimePoint}
    (h : c.Careful (.doHeartbeatCheck curTimePoint)) :
    (c.doHeartbeatCheck curTimePoint).Sound := by
  rw [doHeartbeatCheck]
  split
  · exact hc
  · rename_i hdue
    split
    · exact hc
    · have hnot : ¬ CanWrite { c with curSeq := c.curSeq + 1 } := h.resolve_left hdue
      rw [doWritePacket_of_not hnot]
      exact ⟨hc.keeps, hc.closed⟩

theorem sound_doReadPacket {c : Ctx Writes} (hc : c.Sound) : c.doReadPacket.Sound := by
  rcases c.doReadPacket_cases with heq | heq
  · rw [heq]
    exact hc
  · rw [heq]
    exact ⟨hc.keeps, hc.closed⟩

theorem sound_onConnectCompleted {c : Ctx Writes} (hc : c.Sound) (ec : Bool) :
    (c.onConnectCompleted ec).Sound := by
  rw [onConnectCompleted]
  split
  · exact ⟨hc.keeps, hc.closed⟩
  · exact sound_doReadPacket ⟨hc.keeps, hc.closed⟩

theorem sound_rescheduleTimer {c : Ctx Writes} (hc : c.Sound) (timerId : UInt32) :
    (c.rescheduleTimer timerId).Sound := by
  rw [rescheduleTimer]
  split
  · exact ⟨hc.keeps, hc.closed⟩
  · exact ⟨hc.keeps, hc.closed⟩

/-- **A careful event keeps every packet that is being sent.** -/
theorem Sound.sendStep {c d : Ctx Writes} {e : Client.SendEvent} (hc : c.Sound)
    (h : c.Careful e) (hs : c.sendStep e = some d) : d.Sound := by
  cases e with
  | written op =>
    simp only [Ctx.sendStep] at hs
    split at hs
    · rw [← Option.some.inj hs]
      refine ⟨hc.keeps.eraseIdx op, fun hshut => ?_⟩
      show c.env.outstanding.eraseIdx op = []
      rw [hc.closed hshut]
      rfl
    · exact absurd hs (by simp)
  | sendReqAsync cmd reqBuf reqLen opt callback =>
    exact Option.some.inj hs ▸ (settles_sendReqAsync c ..).sound hc
  | clearStarted => exact Option.some.inj hs ▸ ⟨hc.keeps, hc.closed⟩
  | runTask task => exact Option.some.inj hs ▸ sound_runTask hc h
  | connectCompleted ec => exact Option.some.inj hs ▸ sound_onConnectCompleted hc ec
  | readFailed =>
    have hpending : Sound { c with readPending := false } := ⟨hc.keeps, hc.closed⟩
    exact Option.some.inj hs ▸ (settles_doClose hpending).sound hpending
  | read readPending readBuf => exact Option.some.inj hs ▸ ⟨hc.keeps, hc.closed⟩
  | dispatchPacket packet script => exact Option.some.inj hs ▸ sound_dispatchPacket hc h
  | doReconnectCheck curTimePoint => exact Option.some.inj hs ▸ sound_doReconnectCheck hc _
  | doResenderCheck curTimePoint script => exact Option.some.inj hs ▸ sound_doResenderCheck hc h
  | doHeartbeatCheck curTimePoint => exact Option.some.inj hs ▸ sound_doHeartbeatCheck hc h
  | rescheduleTimer timerId => exact Option.some.inj hs ▸ sound_rescheduleTimer hc timerId
  | writeHandler ec =>
    rw [← Option.some.inj hs, onWriteCompleted]
    split
    · exact (settles_doClose hc).sound hc
    · exact hc
  | advance time => exact Option.some.inj hs ▸ ⟨hc.keeps, hc.closed⟩

/-! ### The handlers are runs of these events -/

/-- **The handler of a read is a run of these events.** -/
theorem reaches_onReadCompleted (c : Ctx Writes) (ec : Bool) (length : Nat) :
    Run.Reaches sendStep c (c.onReadCompleted ec length) := by
  cases ec with
  | true =>
    have hclose : c.sendStep .readFailed = some ({ c with readPending := false }.doClose) := rfl
    exact (Run.Reaches.refl c).concat hclose
  | false =>
    refine readHandler.invariant (P := Run.Reaches sendStep c) ?_ ?_ ?_ ?_ length (.refl c)
    · exact fun b d h => h.concat (e := .read d.readPending b) rfl
    · exact fun _ p d h => h.concat (e := .dispatchPacket (SharedPacket.received p) d.script) rfl
    · exact fun n d h => h.concat (e := .read false (d.readBuf.commit n)) rfl
    · exact fun d h => h.concat (e := .read true (d.readBuf.prepare d.readBuf.sizeToRead).2) rfl

theorem script_doReconnectCheck (c : Ctx Writes) (curTimePoint : TimePoint) :
    (c.doReconnectCheck curTimePoint).script = c.script := by
  rw [doReconnectCheck]
  split
  · rfl
  split
  · rfl
  split
  · rfl
  rw [doConnect]
  split
  · rfl
  · rfl

/-- **So is the handler of the timer.** -/
theorem reaches_onTimer (c : Ctx Writes) (timerId : UInt32) (ec : Bool) :
    Run.Reaches sendStep c (c.onTimer timerId ec) := by
  rw [onTimer]
  split
  · exact .refl c
  split
  · exact .refl c
  · have hreconnect : Run.Reaches sendStep c (c.doReconnectCheck c.now) :=
      (Run.Reaches.refl c).concat (e := .doReconnectCheck c.now) rfl
    have hresend := hreconnect.concat (e := .doResenderCheck c.now c.script) rfl
    rw [← script_doReconnectCheck c c.now] at hresend
    have hheartbeat := hresend.concat (e := .doHeartbeatCheck c.now) rfl
    exact hheartbeat.concat (e := .rescheduleTimer timerId) rfl

/-! ### The packets that nobody holds -/

/-- A packet that no entry of `write_packets_` holds is lost as soon as it is sent. -/
theorem not_keepsPackets_doWritePacket {c : Ctx Writes} (hcan : c.CanWrite) {packet : SharedPacket}
    (hfree : packet ∉ c.heldPackets) : ¬ (c.doWritePacket (some packet)).KeepsPackets := by
  rw [doWritePacket_of_can hcan]
  exact not_covered (List.mem_append_right _ List.mem_cons_self) hfree

/-- `write_packets_` holds requests only. -/
theorem origin_of_held {c : Ctx Writes} {packet : SharedPacket} (hin : packet ∈ c.heldPackets) :
    ∃ draw cmd, packet.origin = .request draw cmd := by
  obtain ⟨it, -, rfl⟩ := List.mem_map.mp hin
  exact it.packet.isRequest

theorem exists_build_empty (origin : Origin) :
    ∃ packet, SharedPacket.build origin none 0 = some packet ∧ packet.origin = origin := by
  cases hbuild : SharedPacket.build origin none 0 with
  | none =>
    rw [SharedPacket.build] at hbuild
    split at hbuild
    · rename_i hnone
      rw [buildPacket, if_neg (by decide)] at hnone
      exact absurd hnone (by simp)
    · exact absurd hbuild (by simp)
  | some packet => exact ⟨packet, rfl, SharedPacket.origin_build hbuild⟩

theorem not_keepsPackets_ackPushPacket {c : Ctx Writes} (hcan : c.CanWrite) (push : SharedPacket) :
    ¬ (c.ackPushPacket push).KeepsPackets := by
  obtain ⟨packet, hbuild, horigin⟩ := exists_build_empty (.ack push.origin)
  rw [ackPushPacket, hcan.1, if_neg (by simp), hbuild]
  refine not_keepsPackets_doWritePacket hcan (fun hin => ?_)
  obtain ⟨draw, cmd, hrequest⟩ := origin_of_held hin
  exact absurd (horigin.symm.trans hrequest) (by simp)

end Ctx

/-! ### The session -/

namespace Session

/-- The writes of a session, with what the coming receive callbacks send on it, and
when they return. -/
structure Writes extends Ibase.Writes where
  script : List (List SharedPacket × TimePoint)

instance : Platform Effect Writes where
  perform effect w :=
    match effect with
    | .asyncWrite packet => { w with toWrites := w.toWrites.asyncWrite packet }
    | _ => w

namespace Ctx

/-- The receive callback. -/
def runCallback (s : Ctx Writes) : Ctx Writes :=
  match s.env.script with
  | [] => s
  | (packets, until_) :: rest =>
    let s := packets.foldl sendPacket { s with env := { s.env with script := rest } }
    { s with now := s.now.later until_ }

end Ctx

instance : ReceiveCallback Writes where
  receivePacketCallback _ _ s := s.runCallback

/-- Did the last send of this entry go unanswered, with no try left? -/
def SendingPacketInfo.timedOut (curTimePoint : TimePoint) (it : SendingPacketInfo) : Bool :=
  !decide (secondsPassed curTimePoint it.lastSendTimePoint < resendIntervalInSeconds) &&
    decide (it.curTries ≥ maxResendTries)

inductive SendEvent where
  | doStart
  | sendPacket (packet : SharedPacket)
  /-- The receive path changes its two fields. -/
  | read (readPending : Bool) (readBuf : IoBuffer UInt8)
  /-- `process_packet` hands over a packet. -/
  | dispatchPacket (packet : SharedPacket) (script : List (List SharedPacket × TimePoint))
  | doResenderCheck (curTimePoint : TimePoint)
  /-- A write completes. -/
  | written (op : Nat)
  | advance (time : TimePoint)

namespace Ctx

/-- What `write_packets_` holds. -/
def heldPackets (s : Ctx Writes) : List SharedPacket := s.writePackets.map (fun it => it.packet)

/-- Every packet that is being sent is held. -/
def KeepsPackets (s : Ctx Writes) : Prop := Covered s.heldPackets s.env.outstanding

def Sending (s : Ctx Writes) (packet : SharedPacket) : Prop := Lent packet s.env.outstanding

def sendStep (s : Ctx Writes) : SendEvent → Option (Ctx Writes)
  | .doStart => some s.doStart
  | .sendPacket packet => some (s.sendPacket packet)
  | .read readPending readBuf => some { s with readPending := readPending, readBuf := readBuf }
  | .dispatchPacket packet script =>
    some ({ s with env := { s.env with script := script } }.dispatchPacket packet)
  | .doResenderCheck curTimePoint => some (s.doResenderCheck curTimePoint)
  | .written op =>
    if op < s.env.outstanding.length then
      some { s with env := { s.env with outstanding := s.env.outstanding.eraseIdx op } }
    else none
  | .advance time => some { s with now := s.now.later time }

/-- Does the next callback send pushes only? -/
def SendsPushes (script : List (List SharedPacket × TimePoint)) : Prop :=
  ∀ run ∈ script.head?, ∀ packet ∈ run.1, packet.isPush = true

/-- No response is sent, and no entry goes whose packet is being sent. -/
def Careful (s : Ctx Writes) : SendEvent → Prop
  | .sendPacket packet => packet.isPush = true
  | .dispatchPacket packet script =>
    if packet.isPush then
      (∀ it ∈ s.writePackets.find? (matchesPacket packet), ¬ s.Sending it.packet) ∧
        SendsPushes script
    else
      (s.tracker.onReceivePacket (UInt64.ofNat s.now.tick) packet.cmd packet.seq).1 = true ∨
        SendsPushes script
  | .doResenderCheck curTimePoint =>
    ∀ it ∈ s.writePackets, it.timedOut curTimePoint = true → ¬ s.Sending it.packet
  | _ => True

/-! ### What sends a packet -/

theorem keepsPackets_doWritePacket {s : Ctx Writes} (hs : s.KeepsPackets) {packet : SharedPacket}
    (hin : packet ∈ s.heldPackets) : (s.doWritePacket packet).KeepsPackets := by
  rw [doWritePacket]
  split
  · exact hs
  · exact hs.lend hin []

theorem keepsPackets_sendPacket {s : Ctx Writes} (hs : s.KeepsPackets) {packet : SharedPacket}
    (hpush : packet.isPush = true) : (s.sendPacket packet).KeepsPackets := by
  rw [sendPacket, if_pos hpush]
  refine keepsPackets_doWritePacket ?_ ?_
  · exact Covered.mono hs (List.map_subset _ (List.subset_append_left ..))
  · refine List.mem_map.mpr ⟨⟨packet, 1, s.now⟩, ?_, rfl⟩
    exact List.mem_append_right s.writePackets List.mem_cons_self

theorem keepsPackets_runCallback {s : Ctx Writes} (hs : s.KeepsPackets)
    (hpushes : SendsPushes s.env.script) : s.runCallback.KeepsPackets := by
  have hsend : ∀ (packets : List SharedPacket) (u : Ctx Writes), u.KeepsPackets →
      (∀ packet ∈ packets, packet.isPush = true) → (packets.foldl sendPacket u).KeepsPackets := by
    intro packets
    induction packets with
    | nil => exact fun _ hu _ => hu
    | cons packet packets ih =>
      intro u hu hall
      refine ih _ (keepsPackets_sendPacket hu (hall packet List.mem_cons_self)) ?_
      exact fun packet' hin => hall packet' (List.mem_cons_of_mem _ hin)
  rw [runCallback]
  split
  · exact hs
  · rename_i packets until_ rest hscript
    rw [SendsPushes, hscript] at hpushes
    exact hsend packets { s with env := { s.env with script := rest } } hs (hpushes _ rfl)

/-! ### The functions of the session -/

theorem keepsPackets_ackEntry {s : Ctx Writes} (hs : s.KeepsPackets) {packet : SharedPacket}
    (hgone : ∀ it ∈ s.writePackets.find? (matchesPacket packet), ¬ s.Sending it.packet) :
    (s.ackEntry packet).KeepsPackets := by
  rw [ackEntry]
  split
  · exact hs
  · exact Covered.eraseP hs hgone

theorem script_ackEntry (s : Ctx Writes) (packet : SharedPacket) :
    (s.ackEntry packet).env.script = s.env.script := by
  rw [ackEntry]
  split
  · rfl
  · rfl

theorem keepsPackets_dispatchPacket {s : Ctx Writes} (hs : s.KeepsPackets) {packet : SharedPacket}
    {script : List (List SharedPacket × TimePoint)}
    (h : s.Careful (.dispatchPacket packet script)) :
    ({ s with env := { s.env with script := script } }.dispatchPacket packet).KeepsPackets := by
  have hscript : KeepsPackets { s with env := { s.env with script := script } } := hs
  simp only [Careful] at h
  rw [dispatchPacket]
  split at h
  · rename_i hpush
    rw [if_pos hpush]
    refine keepsPackets_runCallback (keepsPackets_ackEntry hscript h.1) ?_
    rw [script_ackEntry]
    exact h.2
  · rename_i hpush
    rw [if_neg hpush, processRequestPacket]
    simp only
    split
    · exact hscript
    · rename_i hnew
      exact keepsPackets_runCallback hscript (h.resolve_left hnew)

/-- The sweep of `do_resender_check`: the entries that time out are not needed any
more. -/
def sweeper (curTimePoint : TimePoint) : Sweeper (Ctx Writes) SharedPacket SendingPacketInfo where
  entries s := s.writePackets
  loans s := s.env.outstanding
  item it := it.packet
  gone := SendingPacketInfo.timedOut curTimePoint
  sweep := resendFrom curTimePoint

/-- The packet of an entry is sent, or the socket is closed. -/
theorem lends_doWritePacket (s : Ctx Writes) (packet : SharedPacket) :
    (s.doWritePacket packet).writePackets = s.writePackets ∧
      ((s.doWritePacket packet).env.outstanding = s.env.outstanding ∨
        ∃ own, (s.doWritePacket packet).env.outstanding =
          s.env.outstanding ++ [⟨packet, own⟩]) := by
  rw [doWritePacket]
  split
  · exact ⟨rfl, .inl rfl⟩
  · exact ⟨rfl, .inr ⟨[], rfl⟩⟩

theorem sweeper_lawful (curTimePoint : TimePoint) :
    (sweeper curTimePoint).Lawful (fun _ => True) := by
  refine ⟨fun _ _ => rfl, fun visited it rest s hentries _ _ => ?_⟩
  by_cases hearly : secondsPassed curTimePoint it.lastSendTimePoint < resendIntervalInSeconds
  · have hkeep : it.timedOut curTimePoint = false := by
      simp [SendingPacketInfo.timedOut, hearly]
    exact .keep it s hkeep rfl hentries (.inl rfl) trivial (if_pos hearly)
  by_cases htries : it.curTries ≥ maxResendTries
  · have hgone : it.timedOut curTimePoint = true := by
      simp [SendingPacketInfo.timedOut, hearly, htries]
    exact .drop ({ s with writePackets := visited ++ rest }.emit (.gaveUp it)) hgone rfl (.inl rfl)
      trivial ((if_neg hearly).trans (if_pos htries))
  · have hkeep : it.timedOut curTimePoint = false := by
      simp [SendingPacketInfo.timedOut, htries]
    let sent := { it with curTries := it.curTries + 1, lastSendTimePoint := curTimePoint }
    let marked := { s with writePackets := visited ++ sent :: rest }
    obtain ⟨hentries', hloans⟩ := lends_doWritePacket marked it.packet
    exact .keep sent (marked.doWritePacket it.packet) hkeep rfl hentries' hloans trivial
      ((if_neg hearly).trans (if_neg htries))

theorem keepsPackets_doResenderCheck {s : Ctx Writes} (hs : s.KeepsPackets)
    {curTimePoint : TimePoint} (h : s.Careful (.doResenderCheck curTimePoint)) :
    (s.doResenderCheck curTimePoint).KeepsPackets :=
  ((sweeper_lawful curTimePoint).covers_sweep (s := s) rfl (.start hs h) trivial).1

theorem keepsPackets_doReadPacket {s : Ctx Writes} (hs : s.KeepsPackets) :
    s.doReadPacket.KeepsPackets := by
  rcases s.doReadPacket_cases with heq | heq
  · rw [heq]
    exact hs
  · rw [heq]
    exact hs

/-- **A careful event keeps every packet that is being sent.** -/
theorem KeepsPackets.sendStep {s u : Ctx Writes} {e : SendEvent} (hs : s.KeepsPackets)
    (h : s.Careful e) (he : s.sendStep e = some u) : u.KeepsPackets := by
  cases e with
  | doStart =>
    have hstarted : KeepsPackets { s.startTimer 1 1 with checkTimerId := s.timer.nextTimerId } := hs
    exact Option.some.inj he ▸ keepsPackets_doReadPacket hstarted
  | sendPacket packet => exact Option.some.inj he ▸ keepsPackets_sendPacket hs h
  | read readPending readBuf =>
    rw [← Option.some.inj he]
    exact hs
  | dispatchPacket packet script => exact Option.some.inj he ▸ keepsPackets_dispatchPacket hs h
  | doResenderCheck curTimePoint => exact Option.some.inj he ▸ keepsPackets_doResenderCheck hs h
  | written op =>
    simp only [Ctx.sendStep] at he
    split at he
    · rw [← Option.some.inj he]
      exact Covered.eraseIdx hs op
    · exact absurd he (by simp)
  | advance time =>
    rw [← Option.some.inj he]
    exact hs

/-! ### The packets that nobody holds -/

/-- **The handler of a read is a run of these events.** -/
theorem reaches_onReadCompleted (s : Ctx Writes) (ec : Bool) (length : Nat) :
    Run.Reaches sendStep s (s.onReadCompleted ec length) := by
  cases ec with
  | true => exact (Run.Reaches.refl s).concat (e := .read false s.readBuf) rfl
  | false =>
    refine readHandler.invariant (P := Run.Reaches sendStep s) ?_ ?_ ?_ ?_ length (.refl s)
    · exact fun b u h => h.concat (e := .read u.readPending b) rfl
    · exact fun _ p u h => h.concat (e := .dispatchPacket (SharedPacket.received p) u.env.script) rfl
    · exact fun n u h => h.concat (e := .read false (u.readBuf.commit n)) rfl
    · exact fun u h => h.concat (e := .read true (u.readBuf.prepare u.readBuf.sizeToRead).2) rfl

/-- **So is the handler of the timer.** -/
theorem reaches_onPriodicallyTimer (s : Ctx Writes) : Run.Reaches sendStep s s.onPriodicallyTimer :=
  (Run.Reaches.refl s).concat (e := .doResenderCheck s.now) rfl

end Ctx

end Session

/-! ### The main result -/

/-- A client and a session as constructed, nothing sent yet. -/
def Ctx.idle : Ctx Writes := ⟨Client.new, ⟨[]⟩, 0, []⟩

def Session.Ctx.idle (sessionId : UInt32) : Session.Ctx Session.Writes :=
  ⟨Session.new sessionId, ⟨⟨[]⟩, []⟩, 0⟩

/-- A request, and a notification of a server. -/
def plainRequest : RequestPacket :=
  ⟨⟨Packet.new 9 2 false (buildHeader 9 2 false 0) none 0, .request 2 9, rfl, rfl, rfl⟩, 2, 9, rfl⟩

def plainNotification : SharedPacket :=
  ⟨Packet.new 6 2 true (buildHeader 6 2 true 0) none 0, .notification 0 2 6, rfl, rfl, rfl⟩

end Ibase
