import Mathlib
import Ibase.Client

/-!
# The connection inside the client

Most of what a handler does leaves the connection alone.  `Link` is the client
without its requests, subscriptions and timers, and `Link.Step` is everything
that can happen to it between two completions of the socket: the client stops,
starts, connects, closes or writes a request or a heartbeat, time passes in a
callback, or the client tells its surroundings something that has nothing to do
with the socket.  Each handler moves its `link` by such steps
(`moves_onPriodicallyTimer`, `moves_runTask`), and a packet that arrives first
moves it as `Link.receive` says (`moves_dispatchPacket`); so a property of links
is proved once for each step and not once for each handler.
-/

namespace Ibase

open Relation

/-- A packet that the client writes by itself, and not to acknowledge one. -/
def SharedPacket.Plain (p : SharedPacket) : Prop :=
  (∃ draw cmd, p.origin = .request draw cmd) ∨ ∃ draw, p.origin = .heartbeat draw

theorem RequestPacket.plain (p : RequestPacket) : p.toSharedPacket.Plain := .inl p.isRequest

/-- The client without its requests, subscriptions and timers. -/
structure Link (E : Type) where
  socketOpen : Bool
  host : String
  port : UInt16
  started : Bool
  readPending : Bool
  readBuf : IoBuffer RecvByte
  connectState : ConnectState
  tracker : RecentlyPacketTracker
  now : TimePoint
  env : E

/-- Does this effect have nothing to do with the socket? -/
def Effect.isInert : Effect → Bool
  | asyncConnect .. | asyncReadSome .. | asyncWrite .. | closeSocket => false
  | doClose | doConnect .. | startImpl | stopImpl .. | recvPacket .. => false
  | post .. | expiresAfter .. | cancelTimer .. => true
  | sendReqCallback .. | recvNotificationCallback .. => true
  | cancelled .. | dropped .. | danglingIterator => true

namespace Link

variable {E : Type} [Platform Effect E]

def emit (l : Link E) (effect : Effect) : Link E := { l with env := Platform.perform effect l.env }

/-- `do_close`. -/
def close (l : Link E) : Link E :=
  let l := l.emit .doClose
  if l.connectState = .disconnected then l
  else
    let l := { l with readPending := false, connectState := .disconnected }
    if l.socketOpen then { l with socketOpen := false }.emit .closeSocket else l

/-- `do_connect` of a started client. -/
def connect (l : Link E) : Link E :=
  { l.emit (.doConnect l.readBuf.size) with connectState := .connecting, socketOpen := true }.emit
    (.asyncConnect l.host l.port)

/-- `start_impl` of a client that is not started. -/
def start (l : Link E) (host : String) (port : UInt16) : Link E :=
  { l.emit .startImpl with started := true, host := host, port := port }.connect

/-- The part of `stop_impl` that ends the connection. -/
def stop (l : Link E) : Link E :=
  let l := (l.emit (.stopImpl l.started l.connectState)).close
  { l with readBuf := l.readBuf.clear }

/-- `do_read_packet`. -/
def read (l : Link E) : Link E :=
  if l.connectState ≠ .connected then l
  else if l.readPending then l
  else
    let sizeToRead := l.readBuf.sizeToRead
    if sizeToRead ≤ 0 then l
    else
      { l with readPending := true, readBuf := (l.readBuf.prepare sizeToRead).2 }.emit
        (.asyncReadSome (l.readBuf.prepare sizeToRead).1 l.socketOpen)

/-- `ack_push_packet`. -/
def ack (l : Link E) (packet : SharedPacket) : Link E :=
  if l.connectState ≠ .connected then l
  else
    match SharedPacket.build (.ack packet.origin) none 0 with
    | none => l
    | some rspPacket => l.emit (.asyncWrite rspPacket l.socketOpen)

/-- What a packet does to the connection, before the user is told of it. -/
def receive (l : Link E) (packet : SharedPacket) : Link E :=
  if packet.isPush then
    { l.ack packet with
      tracker := (l.tracker.onReceivePacket (UInt64.ofNat l.now.tick) packet.cmd packet.seq).2 }
  else l

/-- Among what was done to these surroundings there is a `stop_impl`. -/
def HasStopped (env : E) : Prop :=
  ∃ (env' : E) (started : Bool) (connectState : ConnectState) (effects : List Effect),
    env = effects.foldl (fun e effect => Platform.perform effect e)
      (Platform.perform (Effect.stopImpl started connectState) env')

/-- What happens to a connection outside the handlers of its own completions. -/
inductive Step : Link E → Link E → Prop
  | emit (l : Link E) (effect : Effect) (h : effect.isInert = true) : Step l (l.emit effect)
  | write (l : Link E) (packet : SharedPacket) (h : l.connectState = .connected)
      (hp : packet.Plain) : Step l (l.emit (.asyncWrite packet l.socketOpen))
  | later (l : Link E) (t : TimePoint) : Step l { l with now := l.now.later t }
  | forget (l : Link E) (h : HasStopped l.env) : Step l { l with tracker := l.tracker.clear }
  | clearStarted (l : Link E) : Step l { l with started := false }
  | start (l : Link E) (host : String) (port : UInt16) (h : l.started = false) :
      Step l (l.start host port)
  | stop (l : Link E) : Step l l.stop
  | connect (l : Link E) (h : l.started = true) (hs : l.connectState = .disconnected) :
      Step l l.connect

/-- The cases of `do_close`. -/
theorem close_cases (l : Link E) :
    (l.connectState = .disconnected ∧ l.close = l.emit .doClose) ∨
    (l.connectState ≠ .disconnected ∧ l.socketOpen = false ∧ l.close =
      { l.emit .doClose with readPending := false, connectState := .disconnected }) ∨
    (l.connectState ≠ .disconnected ∧ l.socketOpen = true ∧ l.close =
      { l.emit .doClose with
        readPending := false, connectState := .disconnected, socketOpen := false }.emit
          .closeSocket) := by
  obtain ⟨socketOpen, _, _, _, _, _, connectState, _, _, _⟩ := l
  cases connectState <;> cases socketOpen <;> simp [close, Link.emit]

/-- `do_read_packet` starts a read or does nothing. -/
theorem read_cases (l : Link E) :
    l.read = l ∨ (l.connectState = .connected ∧ l.readPending = false ∧ ∃ size, l.read =
      { l with readPending := true, readBuf := (l.readBuf.prepare size).2 }.emit
        (.asyncReadSome (l.readBuf.prepare size).1 l.socketOpen)) := by
  unfold Link.read
  split
  · exact .inl rfl
  rename_i hs
  split
  · exact .inl rfl
  rename_i hp
  simp only
  split
  · exact .inl rfl
  · exact .inr ⟨not_not.mp hs, by simpa using hp, _, rfl⟩

/-- `ack_push_packet` writes the acknowledgement or does nothing. -/
theorem ack_cases (l : Link E) (packet : SharedPacket) :
    l.ack packet = l ∨ ∃ rspPacket, rspPacket.origin = .ack packet.origin ∧
      l.ack packet = l.emit (.asyncWrite rspPacket l.socketOpen) := by
  unfold ack
  split
  · exact .inl rfl
  · split
    · exact .inl rfl
    · exact .inr ⟨_, SharedPacket.origin_build ‹_›, rfl⟩

end Link

namespace Ctx

variable {E : Type} [Platform Effect E]

def link (c : Ctx E) : Link E :=
  ⟨c.socketOpen, c.host, c.port, c.started, c.readPending, c.readBuf, c.connectState, c.tracker,
    c.now, c.env⟩

/-- `c'` comes from `c` by steps of the link. -/
abbrev Moves (c c' : Ctx E) : Prop := ReflTransGen Link.Step c.link c'.link

theorem moves_of_link_eq {c c' : Ctx E} (h : c'.link = c.link) : c.Moves c' := by
  rw [Moves, h]

theorem moves_emit (c : Ctx E) {effect : Effect} (h : effect.isInert = true) :
    c.Moves (c.emit effect) := ReflTransGen.single (.emit c.link effect h)

theorem moves_foldl {α : Type} (f : Ctx E → α → Ctx E) (h : ∀ c a, Moves c (f c a)) (as : List α)
    (c : Ctx E) : c.Moves (as.foldl f c) := by
  induction as generalizing c with
  | nil => exact ReflTransGen.refl
  | cons a as ih => exact (h c a).trans (ih (f c a))

/-! ### Starting, stopping, closing -/

theorem link_doClose (c : Ctx E) : c.doClose.link = c.link.close := by
  obtain ⟨⟨socketOpen, _, _, _, _, _, _, _, _, _, _, _, connectState, _, _, _⟩, _, _, _⟩ := c
  cases connectState <;> cases socketOpen <;> rfl

theorem link_doConnect {c : Ctx E} (h : c.started = true) : c.doConnect.link = c.link.connect := by
  rw [doConnect, if_neg (by rw [h]; decide)]
  rfl

theorem moves_startTimer (c : Ctx E) (delaySeconds intervalSeconds : UInt32) :
    c.Moves (c.startTimer delaySeconds intervalSeconds) :=
  moves_emit { c with timer := { c.timer with curTimerId := c.timer.curTimerId + 1 } } rfl

theorem moves_startImpl (c : Ctx E) (host : String) (port : UInt16) :
    c.Moves (c.startImpl host port) := by
  unfold startImpl
  by_cases h : c.started = true
  · rw [if_pos h]
  · rw [if_neg h]
    have hfalse : c.started = false := by simpa using h
    have hc : ({ c.emit .startImpl with started := true, host := host, port := port } :
        Ctx E).doConnect.link = c.link.start host port := link_doConnect rfl
    have h1 : c.Moves ({ c.emit .startImpl with started := true, host := host, port := port } :
        Ctx E).doConnect := by
      rw [Moves, hc]
      exact ReflTransGen.single (.start c.link host port hfalse)
    exact h1.trans (moves_startTimer _ 1 1)

/-- What `stop_impl` does to the connection, before it drops the requests. -/
def endConnection (c : Ctx E) : Ctx E :=
  let c := { c.stopTimer c.checkTimerId with checkTimerId := 0 }
  let c := (c.emit (.stopImpl c.started c.connectState)).doClose
  { c with readBuf := c.readBuf.clear }

theorem moves_endConnection (c : Ctx E) : c.Moves c.endConnection := by
  have h1 : c.Moves { c.stopTimer c.checkTimerId with checkTimerId := 0 } := moves_emit c rfl
  have h2 : c.endConnection.link = (c.stopTimer c.checkTimerId).link.stop := by
    have hclose := link_doClose
      ({ c.stopTimer c.checkTimerId with checkTimerId := 0 }.emit
        (.stopImpl c.started c.connectState))
    exact congrArg (fun l : Link E => { l with readBuf := l.readBuf.clear }) hclose
  rw [Moves, h2]
  exact h1.tail (.stop _)

theorem hasStopped_emit {c : Ctx E} (h : Link.HasStopped c.env) (effect : Effect) :
    Link.HasStopped (c.emit effect).env := by
  obtain ⟨env', started, connectState, effects, henv⟩ := h
  refine ⟨env', started, connectState, effects ++ [effect], ?_⟩
  rw [List.foldl_append, ← henv]
  rfl

theorem hasStopped_doClose {c : Ctx E} (h : Link.HasStopped c.env) :
    Link.HasStopped c.doClose.env := by
  have hmark := hasStopped_emit h .doClose
  unfold doClose
  simp only
  split
  · exact hmark
  split
  · exact hasStopped_emit (c := { c.emit .doClose with
      readPending := false, connectState := .disconnected, socketOpen := false }) hmark .closeSocket
  · exact hmark

theorem hasStopped_foldl {α : Type} (f : Ctx E → α → Ctx E)
    (hf : ∀ c a, Link.HasStopped c.env → Link.HasStopped (f c a).env) (as : List α) {c : Ctx E}
    (h : Link.HasStopped c.env) : Link.HasStopped (as.foldl f c).env := by
  induction as generalizing c with
  | nil => exact h
  | cons a as ih => exact ih (hf c a h)

theorem moves_stopImpl (c : Ctx E) : c.Moves c.stopImpl := by
  have h1 := moves_foldl (fun (c : Ctx E) info => c.emit (.dropped info))
    (fun c info => moves_emit c rfl) c.endConnection.writePackets c.endConnection
  have hstop : Link.HasStopped c.endConnection.env :=
    hasStopped_doClose ⟨_, c.started, c.connectState, [], rfl⟩
  have hdropped := hasStopped_foldl (fun (c : Ctx E) info => c.emit (.dropped info))
    (fun c info h => hasStopped_emit h _) c.endConnection.writePackets hstop
  exact ((moves_endConnection c).trans h1).tail (.forget _ hdropped)

/-! ### The user -/

theorem moves_sendReqAsync (c : Ctx E) (cmd : UInt32) (reqBuf : Option (List UInt8))
    (reqLen : UInt32) (opt : Option SendOpt) (callback : Callback) :
    c.Moves (c.sendReqAsync cmd reqBuf reqLen opt callback) := by
  rw [sendReqAsync]
  split
  · exact moves_of_link_eq rfl
  · exact moves_emit c rfl

theorem moves_userCall (c : Ctx E) (call : UserCall) : c.Moves (c.userCall call) := by
  cases call with
  | sendReqAsync cmd reqBuf reqLen opt callback => exact moves_sendReqAsync ..
  | sendCancel sendId => exact moves_emit c rfl
  | subscribeNotification cmd callback => exact moves_emit c rfl
  | unsubscribeNotification cmd => exact moves_emit c rfl
  | start host port => exact moves_startImpl c host port
  | stop =>
    rw [userCall]
    split
    · exact ReflTransGen.refl
    · exact (ReflTransGen.single (.clearStarted c.link)).trans
        (moves_stopImpl { c with started := false })

theorem moves_runCallback (c : Ctx E) : c.Moves c.runCallback := by
  unfold runCallback
  split
  · exact ReflTransGen.refl
  · rename_i run rest hscript
    have hcalls := moves_foldl userCall moves_userCall run.calls { c with script := rest }
    exact hcalls.tail (.later _ run.until_)

theorem moves_doSendReqCallback (c : Ctx E) (info : SendingPacketInfo) (result : Int)
    (packet : SharedPacket) : c.Moves (c.doSendReqCallback info result packet) :=
  (moves_emit c rfl).trans (moves_runCallback _)

theorem moves_doRecvNotificationCallback (c : Ctx E) (callback : Callback) (packet : SharedPacket) :
    c.Moves (c.doRecvNotificationCallback callback packet) :=
  (moves_emit c rfl).trans (moves_runCallback _)

/-! ### Packets -/

theorem moves_doWritePacket (c : Ctx E) (packet : Option SharedPacket)
    (hp : ∀ p ∈ packet, p.Plain) : c.Moves (c.doWritePacket packet) := by
  cases packet with
  | none => exact ReflTransGen.refl
  | some packet =>
    show c.Moves (if c.isConnected = false then c else c.emit (.asyncWrite packet c.socketOpen))
    split
    · exact ReflTransGen.refl
    · rename_i h
      have hs : c.connectState = .connected := by simpa [isConnected] using h
      exact ReflTransGen.single (.write c.link packet hs (hp packet rfl))

theorem link_ackPushPacket (c : Ctx E) (packet : SharedPacket) :
    (c.ackPushPacket packet).link = c.link.ack packet := by
  unfold ackPushPacket Link.ack
  by_cases h : c.connectState = .connected
  · have hl : ¬ c.link.connectState ≠ .connected := not_not.mpr h
    rw [if_neg (by simp [isConnected, h]), if_neg hl]
    cases SharedPacket.build (.ack packet.origin) none 0 with
    | none => rfl
    | some rspPacket => exact congrArg link (if_neg (by simp [isConnected, h]))
  · have hl : c.link.connectState ≠ .connected := h
    rw [if_pos (by simp [isConnected, h]), if_pos hl]

theorem ack_now (l : Link E) (packet : SharedPacket) :
    (l.ack packet).now = l.now ∧ (l.ack packet).tracker = l.tracker := by
  unfold Link.ack
  split
  · exact ⟨rfl, rfl⟩
  · split <;> exact ⟨rfl, rfl⟩

theorem moves_processResponsePacket (c : Ctx E) (packet : SharedPacket) :
    c.Moves (c.processResponsePacket packet) := by
  rw [processResponsePacket]
  split
  · exact ReflTransGen.refl
  · rename_i it _
    exact moves_doSendReqCallback
      { c with writePackets := c.writePackets.eraseP (matchesPacket packet) } it 0 packet

/-- A push is acknowledged and its id is kept before the user is told of it. -/
theorem moves_processPushPacket (c : Ctx E) {packet : SharedPacket} (hp : packet.isPush = true) :
    ReflTransGen Link.Step (c.link.receive packet) (c.processPushPacket packet).link := by
  have hack := link_ackPushPacket c packet
  obtain ⟨hnow, htracker⟩ := ack_now c.link packet
  rw [processPushPacket, Link.receive, if_pos hp, ← hnow, ← htracker, ← hack]
  generalize c.ackPushPacket packet = d
  simp only
  split
  · exact ReflTransGen.refl
  split
  · exact ReflTransGen.refl
  · exact moves_doRecvNotificationCallback { d with
      tracker := (d.tracker.onReceivePacket (UInt64.ofNat d.now.tick) packet.cmd packet.seq).2 } _
      packet

theorem moves_dispatchPacket (c : Ctx E) (packet : SharedPacket) :
    ReflTransGen Link.Step (c.link.receive packet) (c.dispatchPacket packet).link := by
  rw [dispatchPacket]
  split
  · exact moves_processPushPacket c ‹_›
  · rename_i hp
    rw [Link.receive, if_neg hp]
    exact moves_processResponsePacket c packet

/-! ### The periodic timer -/

theorem moves_doReconnectCheck (c : Ctx E) (curTimePoint : TimePoint) :
    c.Moves (c.doReconnectCheck curTimePoint) := by
  rw [doReconnectCheck]
  split
  · exact ReflTransGen.refl
  split
  · exact ReflTransGen.refl
  split
  · exact ReflTransGen.refl
  rename_i h1 h2 _
  have hdis : c.connectState = .disconnected := by
    cases hs : c.connectState with
    | disconnected => rfl
    | connecting => exact absurd hs h2
    | connected => exact absurd hs h1
  by_cases hst : c.started = true
  · rw [Moves, link_doConnect hst]
    exact ReflTransGen.single (.connect c.link hst hdis)
  · rw [doConnect, if_pos (by simpa using hst)]

theorem moves_resendFrom (curTimePoint : TimePoint) (visited rest : List SendingPacketInfo)
    (c : Ctx E) : c.Moves (resendFrom curTimePoint visited rest c) := by
  induction rest generalizing visited c with
  | nil =>
    rw [resendFrom]
  | cons it rest ih =>
    rw [resendFrom]
    split
    · exact ih _ c
    split
    · have h1 := moves_doSendReqCallback c it (-1) it.packet.toSharedPacket
      generalize c.doSendReqCallback it (-1) it.packet.toSharedPacket = d at h1 ⊢
      simp only
      split
      · exact h1.trans (ih visited { d with writePackets := visited ++ rest })
      · exact h1.trans (moves_emit d rfl)
    · have h1 := moves_doWritePacket { c with writePackets := visited ++
        { it with curTries := it.curTries + 1, lastSendTimePoint := curTimePoint } :: rest }
        (some it.packet.toSharedPacket) (by
          intro p hp
          exact Option.some.inj hp ▸ it.packet.plain)
      exact ReflTransGen.trans h1 (ih _ _)

theorem moves_doHeartbeatCheck (c : Ctx E) (curTimePoint : TimePoint) :
    c.Moves (c.doHeartbeatCheck curTimePoint) := by
  rw [doHeartbeatCheck]
  split
  · exact ReflTransGen.refl
  split
  · exact ReflTransGen.refl
  · refine moves_doWritePacket { c with curSeq := c.curSeq + 1 } _ ?_
    intro p hp
    exact .inr ⟨_, SharedPacket.origin_build hp⟩

theorem moves_onPriodicallyTimer (c : Ctx E) : c.Moves c.onPriodicallyTimer :=
  ((moves_doReconnectCheck c c.now).trans (moves_resendFrom _ _ _ _)).trans
    (moves_doHeartbeatCheck _ _)

theorem moves_rescheduleTimer (c : Ctx E) (timerId : UInt32) :
    c.Moves (c.rescheduleTimer timerId) := by
  rw [rescheduleTimer]
  generalize c.timer.rescheduleTimer timerId = r
  split
  · exact moves_of_link_eq rfl
  · exact moves_emit { c with timer := r.1 } rfl

theorem moves_onTimer (c : Ctx E) (timerId : UInt32) (ec : Bool) :
    c.Moves (c.onTimer timerId ec) := by
  rw [onTimer]
  split
  · exact ReflTransGen.refl
  split
  · exact ReflTransGen.refl
  · exact (moves_onPriodicallyTimer c).trans (moves_rescheduleTimer _ timerId)

/-! ### Posted functions -/

theorem moves_runTask (c : Ctx E) (task : Task) : c.Moves (c.runTask task) := by
  cases task with
  | startImpl host port => exact moves_startImpl c host port
  | stopImpl => exact moves_stopImpl c
  | sendReqAsyncImpl packet sendDraw opt callback =>
    refine moves_doWritePacket
      { c with writePackets := c.writePackets ++ [⟨packet, opt, sendDraw, callback, 1, c.now⟩] } _ ?_
    intro p hp
    exact Option.some.inj hp ▸ packet.plain
  | sendCancelImpl sendId =>
    rw [runTask, sendCancelImpl]
    split
    · exact ReflTransGen.refl
    · exact moves_emit
        { c with writePackets := c.writePackets.eraseP (fun it => it.sendId == sendId) } rfl
  | subscribeNotificationImpl cmd callback => exact moves_of_link_eq rfl
  | unsubscribeNotificationImpl cmd => exact moves_of_link_eq rfl
  | startTimerImpl timerId delay interval =>
    rw [runTask, startTimerImpl]
    generalize c.timer.startTimerImpl timerId () delay interval = r
    split
    · exact moves_of_link_eq rfl
    · exact moves_emit { c with timer := r.1 } rfl
  | stopTimerImpl timerId =>
    rw [runTask, stopTimerImpl]
    generalize c.timer.stopTimerImpl timerId = r
    split
    · exact moves_emit { c with timer := r.1 } rfl
    · exact moves_of_link_eq rfl

/-! ### Reading -/

theorem link_doReadPacket (c : Ctx E) : c.doReadPacket.link = c.link.read := by
  unfold doReadPacket Link.read
  by_cases h : c.connectState = .connected
  · have hl : ¬ c.link.connectState ≠ .connected := not_not.mpr h
    rw [if_neg (by simp [isConnected, h]), if_neg hl]
    by_cases hp : c.readPending = true
    · have hlp : c.link.readPending = true := hp
      rw [if_pos hp, if_pos hlp]
    · have hlp : ¬ c.link.readPending = true := hp
      rw [if_neg hp, if_neg hlp]
      by_cases hs : c.readBuf.sizeToRead ≤ 0
      · exact (congrArg link (if_pos hs)).trans (if_pos hs).symm
      · exact (congrArg link (if_neg hs)).trans (if_neg hs).symm
  · have hl : c.link.connectState ≠ .connected := h
    rw [if_pos (by simp [isConnected, h]), if_pos hl]

end Ctx

end Ibase
