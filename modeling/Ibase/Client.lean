import Ibase.Receive
import Ibase.RecentlyPacketTracker
import Ibase.Itimer
import Ibase.Origin

/-!
# The client

`reliable_tcp_client.cpp`, one function of the source each.  A handler runs on
the io thread with a clock and with the user behind its callbacks; `Ctx` is the
client's fields with these.  What a handler asks of asio or tells the user goes
to the `Platform` at once, as an `Effect`, so that the same functions run under
different models of what is around them.

A callback of the user may call the client's functions again.  `script` says
what each callback does, in the order they are made; what it does happens in
the middle of the handler, as in the source.
-/

namespace Ibase

/-- A `std::function` of the user, by name. -/
abbrev Callback := Nat

/-- A received byte.  `conn` is not in the source: it is the number of the
connection the byte was read on, and nothing the client does depends on it. -/
structure RecvByte where
  byte : UInt8
  conn : Nat
  deriving DecidableEq, Repr

inductive ConnectState where
  | disconnected
  | connecting
  | connected
  deriving DecidableEq, Repr

structure SendOpt where
  tries : UInt32
  intervalSeconds : UInt32
  deriving DecidableEq, Repr

def defaultSendOpt : SendOpt := ⟨3, 3⟩

/-- `reliable_tcp_client_t::sending_packet_info`.  `sendDraw` is the number of the
`++cur_send_id_` that gave the entry its `send_id_`. -/
structure SendingPacketInfo where
  packet : RequestPacket
  sendOpt : SendOpt
  sendDraw : Nat
  callback : Callback
  curTries : UInt32
  lastSendTimePoint : TimePoint
  deriving DecidableEq

def SendingPacketInfo.sendId (info : SendingPacketInfo) : UInt32 := UInt32.ofNat info.sendDraw

def maxReadBufferSize : Nat := 128 * 1024
def reconnectIntervalSeconds : Int := 5
def heartbeatIntervalSeconds : Int := 5

/-- The functions posted to the io thread. -/
inductive Task where
  | startImpl (host : String) (port : UInt16)
  | stopImpl
  | sendReqAsyncImpl (packet : RequestPacket) (sendDraw : Nat) (opt : SendOpt) (callback : Callback)
  | sendCancelImpl (sendId : UInt32)
  | subscribeNotificationImpl (cmd : UInt32) (callback : Callback)
  | unsubscribeNotificationImpl (cmd : UInt32)
  | startTimerImpl (timerId : UInt32) (delaySeconds intervalSeconds : UInt32)
  | stopTimerImpl (timerId : UInt32)
  deriving DecidableEq

/-- What a handler does to the world around the client.  From `doClose` on these
only mark that something happened. -/
inductive Effect where
  | asyncConnect (host : String) (port : UInt16)
  | asyncReadSome (buf : Slab) (isOpen : Bool)
  | asyncWrite (packet : SharedPacket) (isOpen : Bool)
  | closeSocket
  | post (task : Task)
  | expiresAfter (timerId seconds : UInt32)
  | cancelTimer (timerId : UInt32)
  | sendReqCallback (info : SendingPacketInfo) (result : Int) (packet : SharedPacket)
  | recvNotificationCallback (callback : Callback) (packet : SharedPacket)
  | doClose
  | doConnect (unread : Nat)
  | startImpl
  | stopImpl (started : Bool) (connectState : ConnectState)
  | recvPacket (frame : List RecvByte) (packet : Packet)
  | cancelled (info : SendingPacketInfo)
  | dropped (info : SendingPacketInfo)
  | danglingIterator
  deriving DecidableEq


/-- A call of a public function. -/
inductive UserCall where
  | sendReqAsync (cmd : UInt32) (reqBuf : Option (List UInt8)) (reqLen : UInt32)
      (opt : Option SendOpt) (callback : Callback)
  | sendCancel (sendId : UInt32)
  | subscribeNotification (cmd : UInt32) (callback : Callback)
  | unsubscribeNotification (cmd : UInt32)
  | start (host : String) (port : UInt16)
  | stop
  deriving DecidableEq

/-- One run of a callback: what it calls, and the time when it returns. -/
structure CallbackRun where
  calls : List UserCall
  until_ : TimePoint

/-- `reliable_tcp_client_t`.  `curSeq` and `curSendId` count the numbers drawn;
the fields of the source are their low 32 bits. -/
structure Client where
  socketOpen : Bool
  host : String
  port : UInt16
  started : Bool
  readPending : Bool
  readBuf : IoBuffer RecvByte
  writePackets : List SendingPacketInfo
  notifications : UInt32 → Option Callback
  curSeq : Nat
  curSendId : Nat
  timer : Itimer Unit
  checkTimerId : UInt32
  connectState : ConnectState
  lastConnectTimepoint : TimePoint
  lastHeartbeatTimepoint : TimePoint
  tracker : RecentlyPacketTracker

/-- A client as constructed. -/
def Client.new : Client where
  socketOpen := false
  host := ""
  port := 0
  started := false
  readPending := false
  readBuf := IoBuffer.new ⟨0, 0⟩ maxReadBufferSize
  writePackets := []
  notifications := fun _ => none
  curSeq := 0
  curSendId := 0
  timer := Itimer.new
  checkTimerId := 0
  connectState := .disconnected
  lastConnectTimepoint := 0
  lastHeartbeatTimepoint := 0
  tracker := RecentlyPacketTracker.new

/-- The client inside a handler. -/
structure Ctx (E : Type) extends Client where
  env : E
  now : TimePoint
  script : List CallbackRun

namespace Ctx

variable {E : Type} [Platform Effect E]

def emit (c : Ctx E) (effect : Effect) : Ctx E := { c with env := Platform.perform effect c.env }

def isConnected (c : Ctx E) : Bool := c.connectState == .connected

/-! ### The timer object -/

def startTimer (c : Ctx E) (delaySeconds intervalSeconds : UInt32) : Ctx E :=
  { c with timer := { c.timer with curTimerId := c.timer.curTimerId + 1 } }.emit
    (.post (.startTimerImpl c.timer.nextTimerId delaySeconds intervalSeconds))

def stopTimer (c : Ctx E) (timerId : UInt32) : Ctx E := c.emit (.post (.stopTimerImpl timerId))

/-! ### Connecting and closing -/

def doClose (c : Ctx E) : Ctx E :=
  let c := c.emit .doClose
  if c.connectState = .disconnected then c
  else
    let c := { c with readPending := false, connectState := .disconnected }
    if c.socketOpen then { c with socketOpen := false }.emit .closeSocket else c

/-- An `endpoint` that does not resolve is an `asyncConnect` that fails. -/
def doConnect (c : Ctx E) : Ctx E :=
  if c.started = false then c
  else
    let c := c.emit (.doConnect c.readBuf.size)
    { c with lastConnectTimepoint := c.now, connectState := .connecting, socketOpen := true }.emit
      (.asyncConnect c.host c.port)

def startImpl (c : Ctx E) (host : String) (port : UInt16) : Ctx E :=
  if c.started then c
  else
    let c := { c.emit .startImpl with started := true, host := host, port := port }
    let c := c.doConnect
    let timerId := c.timer.nextTimerId
    { c.startTimer 1 1 with checkTimerId := timerId }

def stopImpl (c : Ctx E) : Ctx E :=
  let c := c.stopTimer c.checkTimerId
  let c := { c with checkTimerId := 0 }
  let c := (c.emit (.stopImpl c.started c.connectState)).doClose
  let c := { c with readBuf := c.readBuf.clear }
  let c := { c.writePackets.foldl (fun c info => c.emit (.dropped info)) c with writePackets := [] }
  { c with
    notifications := fun _ => none
    tracker := c.tracker.clear
    lastConnectTimepoint := 0
    lastHeartbeatTimepoint := 0 }

/-! ### The public functions, called on the io thread -/

/-- `send_req_async`: nothing is posted when the packet cannot be built. -/
def sendReqAsync (c : Ctx E) (cmd : UInt32) (reqBuf : Option (List UInt8)) (reqLen : UInt32)
    (opt : Option SendOpt) (callback : Callback) : Ctx E :=
  let c := { c with curSeq := c.curSeq + 1 }
  match RequestPacket.build c.curSeq cmd reqBuf reqLen with
  | none => c
  | some packet =>
    let c := { c with curSendId := c.curSendId + 1 }
    c.emit (.post (.sendReqAsyncImpl packet c.curSendId (opt.getD defaultSendOpt) callback))

/-- `start` and `stop` run their `_impl` at once when they are called here. -/
def userCall (c : Ctx E) : UserCall → Ctx E
  | .sendReqAsync cmd reqBuf reqLen opt callback => c.sendReqAsync cmd reqBuf reqLen opt callback
  | .sendCancel sendId => c.emit (.post (.sendCancelImpl sendId))
  | .subscribeNotification cmd callback => c.emit (.post (.subscribeNotificationImpl cmd callback))
  | .unsubscribeNotification cmd => c.emit (.post (.unsubscribeNotificationImpl cmd))
  | .start host port => c.startImpl host port
  | .stop => if c.started = false then c else { c with started := false }.stopImpl

/-- The user's part of a callback. -/
def runCallback (c : Ctx E) : Ctx E :=
  match c.script with
  | [] => c
  | run :: rest =>
    let c := run.calls.foldl userCall { c with script := rest }
    { c with now := c.now.later run.until_ }

def doSendReqCallback (c : Ctx E) (info : SendingPacketInfo) (result : Int) (packet : SharedPacket) :
    Ctx E :=
  (c.emit (.sendReqCallback info result packet)).runCallback

def doRecvNotificationCallback (c : Ctx E) (callback : Callback) (packet : SharedPacket) : Ctx E :=
  (c.emit (.recvNotificationCallback callback packet)).runCallback

/-! ### Reading and writing -/

def doReadPacket (c : Ctx E) : Ctx E :=
  if c.isConnected = false then c
  else if c.readPending then c
  else
    let sizeToRead := c.readBuf.sizeToRead
    if sizeToRead ≤ 0 then c
    else
      { c with readPending := true, readBuf := (c.readBuf.prepare sizeToRead).2 }.emit
        (.asyncReadSome (c.readBuf.prepare sizeToRead).1 c.socketOpen)

/-- The read that `do_read_packet` starts. -/
def startRead (c : Ctx E) : Ctx E :=
  { c with readPending := true, readBuf := (c.readBuf.prepare c.readBuf.sizeToRead).2 }.emit
    (.asyncReadSome (c.readBuf.prepare c.readBuf.sizeToRead).1 c.socketOpen)

theorem doReadPacket_cases (c : Ctx E) : c.doReadPacket = c ∨ c.doReadPacket = c.startRead := by
  rw [doReadPacket]
  split
  · exact .inl rfl
  split
  · exact .inl rfl
  simp only
  split
  · exact .inl rfl
  · exact .inr rfl

theorem doReadPacket_open {c : Ctx E} (hopen : c.isConnected = true)
    (hpending : c.readPending = false) (hsize : 0 < c.readBuf.sizeToRead) :
    c.doReadPacket = c.startRead := by
  rw [doReadPacket, if_neg (by simp [hopen]), if_neg (by simp [hpending])]
  simp only
  rw [if_neg (Nat.not_le.mpr hsize)]
  rfl

/-- `do_write_packet`; a null pointer is `none`. -/
def doWritePacket (c : Ctx E) (packet : Option SharedPacket) : Ctx E :=
  match packet with
  | none => c
  | some packet => if c.isConnected = false then c else c.emit (.asyncWrite packet c.socketOpen)

def sendReqAsyncImpl (c : Ctx E) (packet : RequestPacket) (sendDraw : Nat) (opt : SendOpt)
    (callback : Callback) : Ctx E :=
  let info : SendingPacketInfo := ⟨packet, opt, sendDraw, callback, 1, c.now⟩
  { c with writePackets := c.writePackets ++ [info] }.doWritePacket (some packet.toSharedPacket)

def sendCancelImpl (c : Ctx E) (sendId : UInt32) : Ctx E :=
  match c.writePackets.find? (fun it => it.sendId == sendId) with
  | none => c
  | some it =>
    { c with writePackets := c.writePackets.eraseP (fun it => it.sendId == sendId) }.emit
      (.cancelled it)

def subscribeNotificationImpl (c : Ctx E) (cmd : UInt32) (callback : Callback) : Ctx E :=
  { c with notifications := Function.update c.notifications cmd (some callback) }

def unsubscribeNotificationImpl (c : Ctx E) (cmd : UInt32) : Ctx E :=
  { c with notifications := Function.update c.notifications cmd none }

/-! ### Packets -/

def ackPushPacket (c : Ctx E) (packet : SharedPacket) : Ctx E :=
  if c.isConnected = false then c
  else c.doWritePacket (SharedPacket.build (.ack packet.origin) none 0)

/-- Does this entry wait for that response? -/
def matchesPacket (packet : SharedPacket) (it : SendingPacketInfo) : Bool :=
  it.packet.cmd == packet.cmd && it.packet.seq == packet.seq

def processResponsePacket (c : Ctx E) (packet : SharedPacket) : Ctx E :=
  match c.writePackets.find? (matchesPacket packet) with
  | none => c
  | some it =>
    { c with writePackets := c.writePackets.eraseP (matchesPacket packet) }.doSendReqCallback it 0
      packet

def processPushPacket (c : Ctx E) (packet : SharedPacket) : Ctx E :=
  let c := c.ackPushPacket packet
  let received := c.tracker.onReceivePacket (UInt64.ofNat c.now.tick) packet.cmd packet.seq
  let c := { c with tracker := received.2 }
  if received.1 then c
  else
    match c.notifications packet.cmd with
    | none => c
    | some callback => c.doRecvNotificationCallback callback packet

def dispatchPacket (c : Ctx E) (packet : SharedPacket) : Ctx E :=
  if packet.isPush then c.processPushPacket packet else c.processResponsePacket packet

/-- The client as a reader of packets. -/
def receiver : Receiver (Ctx E) RecvByte where
  readBuf := fun c => c.readBuf
  setReadBuf := fun readBuf c => { c with readBuf := readBuf }
  byte := RecvByte.byte
  dispatch := fun frame packet c =>
    (c.emit (.recvPacket frame packet)).dispatchPacket (SharedPacket.received packet)

def processPacket (c : Ctx E) : Ctx E := receiver.processPacket (c.readBuf.size + 1) c

def processReadData (c : Ctx E) (readDataSize : Nat) : Ctx E :=
  (if readDataSize > 0 then { c with readBuf := c.readBuf.commit readDataSize }.processPacket
    else c).doReadPacket

/-! ### The periodic timer -/

def doReconnectCheck (c : Ctx E) (curTimePoint : TimePoint) : Ctx E :=
  if c.connectState = .connected then c
  else if c.connectState = .connecting then c
  else if secondsPassed curTimePoint c.lastConnectTimepoint < reconnectIntervalSeconds then c
  else c.doConnect

/-- The sweep of `do_resender_check`: `visited` is the part of the list before
the iterator and the second argument the part from it on.  A callback can change
the list only by `stop`, which clears it; the iterator then points nowhere. -/
def resendFrom (curTimePoint : TimePoint) :
    List SendingPacketInfo → List SendingPacketInfo → Ctx E → Ctx E
  | _, [], c => c
  | visited, it :: rest, c =>
    if secondsPassed curTimePoint it.lastSendTimePoint < it.sendOpt.intervalSeconds.toNat then
      resendFrom curTimePoint (visited ++ [it]) rest c
    else if it.curTries ≥ it.sendOpt.tries then
      let c := c.doSendReqCallback it (-1) it.packet.toSharedPacket
      if it ∈ c.writePackets then
        resendFrom curTimePoint visited rest { c with writePackets := visited ++ rest }
      else c.emit .danglingIterator
    else
      let sent := { it with curTries := it.curTries + 1, lastSendTimePoint := curTimePoint }
      resendFrom curTimePoint (visited ++ [sent]) rest
        ({ c with writePackets := visited ++ sent :: rest }.doWritePacket
          (some it.packet.toSharedPacket))

def doResenderCheck (c : Ctx E) (curTimePoint : TimePoint) : Ctx E :=
  resendFrom curTimePoint [] c.writePackets c

def doHeartbeatCheck (c : Ctx E) (curTimePoint : TimePoint) : Ctx E :=
  if secondsPassed curTimePoint c.lastHeartbeatTimepoint < heartbeatIntervalSeconds then c
  else if c.isConnected = false then c
  else
    let c := { c with curSeq := c.curSeq + 1 }
    c.doWritePacket (SharedPacket.build (.heartbeat c.curSeq) none 0)

def onPriodicallyTimer (c : Ctx E) : Ctx E :=
  let curTimepoint := c.now
  ((c.doReconnectCheck curTimepoint).doResenderCheck curTimepoint).doHeartbeatCheck curTimepoint

/-! ### The handlers of asio -/

def onConnected (c : Ctx E) : Ctx E := { c with connectState := .connected }.doReadPacket

/-- The handler of `async_connect`. -/
def onConnectCompleted (c : Ctx E) (ec : Bool) : Ctx E :=
  if ec then { c with connectState := .disconnected } else c.onConnected

/-- The handler of `async_read_some`. -/
def onReadCompleted (c : Ctx E) (ec : Bool) (length : Nat) : Ctx E :=
  let c := { c with readPending := false }
  if ec then c.doClose else c.processReadData length

/-- The handler of a read that brings something or nothing, in its parts. -/
def readHandler : (receiver (E := E)).Handler where
  commit n c := { c with readPending := false, readBuf := c.readBuf.commit n }
  startRead := startRead
  doRead := doReadPacket
  handler n c := c.onReadCompleted false n
  readBuf_commit _ _ := rfl
  readBuf_startRead _ := rfl
  doRead_cases := doReadPacket_cases
  handler_pos n c h := by
    rw [onReadCompleted, if_neg (by decide), processReadData, if_pos h]
    rfl
  handler_zero _ := rfl

/-- The handler of `async_write`. -/
def onWriteCompleted (c : Ctx E) (ec : Bool) : Ctx E := if ec then c.doClose else c

/-- `itimer::start_timer_impl` and `itimer::stop_timer_impl` on the client's timer. -/
def startTimerImpl (c : Ctx E) (timerId delaySeconds intervalSeconds : UInt32) : Ctx E :=
  let r := c.timer.startTimerImpl timerId () delaySeconds intervalSeconds
  let c := { c with timer := r.1 }
  match r.2 with
  | none => c
  | some seconds => c.emit (.expiresAfter timerId seconds)

def stopTimerImpl (c : Ctx E) (timerId : UInt32) : Ctx E :=
  let r := c.timer.stopTimerImpl timerId
  let c := { c with timer := r.1 }
  if r.2 then c.emit (.cancelTimer timerId) else c

/-- `itimer::reschedule_timer`. -/
def rescheduleTimer (c : Ctx E) (timerId : UInt32) : Ctx E :=
  let r := c.timer.rescheduleTimer timerId
  let c := { c with timer := r.1 }
  match r.2 with
  | none => c
  | some seconds => c.emit (.expiresAfter timerId seconds)

/-- The handler of `async_wait`, `itimer::on_timer`: the one task is
`on_priodically_timer`. -/
def onTimer (c : Ctx E) (timerId : UInt32) (ec : Bool) : Ctx E :=
  if ec then c
  else
    match c.timer.find timerId with
    | none => c
    | some _ => c.onPriodicallyTimer.rescheduleTimer timerId

/-- A posted function. -/
def runTask (c : Ctx E) : Task → Ctx E
  | .startImpl host port => c.startImpl host port
  | .stopImpl => c.stopImpl
  | .sendReqAsyncImpl packet sendDraw opt callback =>
    c.sendReqAsyncImpl packet sendDraw opt callback
  | .sendCancelImpl sendId => c.sendCancelImpl sendId
  | .subscribeNotificationImpl cmd callback => c.subscribeNotificationImpl cmd callback
  | .unsubscribeNotificationImpl cmd => c.unsubscribeNotificationImpl cmd
  | .startTimerImpl timerId delay interval => c.startTimerImpl timerId delay interval
  | .stopTimerImpl timerId => c.stopTimerImpl timerId

end Ctx

end Ibase
