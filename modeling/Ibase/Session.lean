import Ibase.Receive
import Ibase.RecentlyPacketTracker
import Ibase.Itimer
import Ibase.Origin

/-!
# The server's end of a connection

`reliable_tcp_session.cpp`, one function of the source each.  The socket is
open as long as the session lives, since nothing calls `do_stop`.  A received
packet is handed to `receive_packet_callback_`, which may send packets on the
same session before it returns; `ReceiveCallback` says what it does.
-/

namespace Ibase

/-- `reliable_tcp_session_t::sending_packet_info`. -/
structure Session.SendingPacketInfo where
  packet : SharedPacket
  curTries : UInt32
  lastSendTimePoint : TimePoint
  deriving DecidableEq

namespace Session

def maxReadBufferSize : Nat := 128 * 1024
def maxResendTries : UInt32 := 3
def resendIntervalInSeconds : Int := 3

/-- What a handler does to the world around the session.  From `recvPacket` on
these only mark that something happened. -/
inductive Effect where
  | asyncReadSome (buf : Slab)
  | asyncWrite (packet : SharedPacket)
  | post (task : TimerTask)
  | recvPacket (frame : List UInt8) (packet : Packet)
  | queued (info : SendingPacketInfo)
  | acked (info : SendingPacketInfo) (packet : SharedPacket)
  | gaveUp (info : SendingPacketInfo)
  deriving DecidableEq

end Session

/-- `reliable_tcp_session_t`. -/
structure Session where
  sessionId : UInt32
  socketOpen : Bool
  readPending : Bool
  readBuf : IoBuffer UInt8
  writePackets : List Session.SendingPacketInfo
  timer : Itimer Unit
  checkTimerId : UInt32
  tracker : RecentlyPacketTracker

namespace Session

/-- A session as constructed, around an accepted socket. -/
def new (sessionId : UInt32) : Session where
  sessionId := sessionId
  socketOpen := true
  readPending := false
  readBuf := IoBuffer.new 0 maxReadBufferSize
  writePackets := []
  timer := Itimer.new
  checkTimerId := 0
  tracker := RecentlyPacketTracker.new

/-- The session inside a handler. -/
structure Ctx (E : Type) extends Session where
  env : E
  now : TimePoint

/-- `receive_packet_callback_`. -/
class ReceiveCallback (E : Type) where
  receivePacketCallback : UInt32 → SharedPacket → Ctx E → Ctx E

namespace Ctx

variable {E : Type} [Platform Effect E]

def emit (s : Ctx E) (effect : Effect) : Ctx E := { s with env := Platform.perform effect s.env }

def isConnected (s : Ctx E) : Bool := s.socketOpen

def startTimer (s : Ctx E) (delaySeconds intervalSeconds : UInt32) : Ctx E :=
  { s with timer := { s.timer with curTimerId := s.timer.curTimerId + 1 } }.emit
    (.post (.startTimerImpl s.timer.nextTimerId delaySeconds intervalSeconds))

/-! ### Reading and writing -/

def doReadPacket (s : Ctx E) : Ctx E :=
  if s.isConnected = false then s
  else if s.readPending then s
  else
    let sizeToRead := s.readBuf.sizeToRead
    if sizeToRead ≤ 0 then s
    else
      { s with readPending := true, readBuf := (s.readBuf.prepare sizeToRead).2 }.emit
        (.asyncReadSome (s.readBuf.prepare sizeToRead).1)

/-- The read that `do_read_packet` starts. -/
def startRead (s : Ctx E) : Ctx E :=
  { s with readPending := true, readBuf := (s.readBuf.prepare s.readBuf.sizeToRead).2 }.emit
    (.asyncReadSome (s.readBuf.prepare s.readBuf.sizeToRead).1)

theorem doReadPacket_cases (s : Ctx E) : s.doReadPacket = s ∨ s.doReadPacket = s.startRead := by
  rw [doReadPacket]
  split
  · exact .inl rfl
  split
  · exact .inl rfl
  simp only
  split
  · exact .inl rfl
  · exact .inr rfl

theorem doReadPacket_open {s : Ctx E} (hopen : s.isConnected = true)
    (hpending : s.readPending = false) (hsize : 0 < s.readBuf.sizeToRead) :
    s.doReadPacket = s.startRead := by
  rw [doReadPacket, if_neg (by simp [hopen]), if_neg (by simp [hpending])]
  simp only
  rw [if_neg (Nat.not_le.mpr hsize)]
  rfl

def doWritePacket (s : Ctx E) (packet : SharedPacket) : Ctx E :=
  if s.isConnected = false then s else s.emit (.asyncWrite packet)

/-- `start`, `do_start`. -/
def doStart (s : Ctx E) : Ctx E :=
  let timerId := s.timer.nextTimerId
  { s.startTimer 1 1 with checkTimerId := timerId }.doReadPacket

def sendPacket (s : Ctx E) (packet : SharedPacket) : Ctx E :=
  if packet.isPush then
    let info : SendingPacketInfo := ⟨packet, 1, s.now⟩
    ({ s with writePackets := s.writePackets ++ [info] }.emit (.queued info)).doWritePacket packet
  else s.doWritePacket packet

/-! ### Packets -/

/-- Does this frame answer that entry? -/
def matchesPacket (packet : SharedPacket) (it : SendingPacketInfo) : Bool :=
  it.packet.cmd == packet.cmd && it.packet.seq == packet.seq

variable [ReceiveCallback E]

def processRequestPacket (s : Ctx E) (packet : SharedPacket) : Ctx E :=
  let received := s.tracker.onReceivePacket (UInt64.ofNat s.now.tick) packet.cmd packet.seq
  let s := { s with tracker := received.2 }
  if received.1 then s else ReceiveCallback.receivePacketCallback s.sessionId packet s

/-- The first half of `process_push_packet`: drop the entry the frame answers. -/
def ackEntry (s : Ctx E) (packet : SharedPacket) : Ctx E :=
  match s.writePackets.find? (matchesPacket packet) with
  | none => s
  | some it =>
    { s with writePackets := s.writePackets.eraseP (matchesPacket packet) }.emit (.acked it packet)

def processPushPacket (s : Ctx E) (packet : SharedPacket) : Ctx E :=
  let s := s.ackEntry packet
  ReceiveCallback.receivePacketCallback s.sessionId packet s

def dispatchPacket (s : Ctx E) (packet : SharedPacket) : Ctx E :=
  if packet.isPush then s.processPushPacket packet else s.processRequestPacket packet

/-- The session as a reader of packets. -/
def receiver : Receiver (Ctx E) UInt8 where
  readBuf := fun s => s.readBuf
  setReadBuf := fun readBuf s => { s with readBuf := readBuf }
  byte := id
  dispatch := fun frame packet s =>
    (s.emit (.recvPacket frame packet)).dispatchPacket (SharedPacket.received packet)

def processPacket (s : Ctx E) : Ctx E := receiver.processPacket (s.readBuf.size + 1) s

def processReadData (s : Ctx E) (readDataSize : Nat) : Ctx E :=
  (if readDataSize > 0 then { s with readBuf := s.readBuf.commit readDataSize }.processPacket
    else s).doReadPacket

/-- The handler of `async_read_some`. -/
def onReadCompleted (s : Ctx E) (ec : Bool) (length : Nat) : Ctx E :=
  let s := { s with readPending := false }
  if ec then s else s.processReadData length

/-- The handler of a read that brings something or nothing, in its parts. -/
def readHandler : (receiver (E := E)).Handler where
  commit n s := { s with readPending := false, readBuf := s.readBuf.commit n }
  startRead := startRead
  doRead := doReadPacket
  handler n s := s.onReadCompleted false n
  readBuf_commit _ _ := rfl
  readBuf_startRead _ := rfl
  doRead_cases := doReadPacket_cases
  handler_pos n s h := by
    rw [onReadCompleted, if_neg (by decide), processReadData, if_pos h]
    rfl
  handler_zero _ := rfl

/-! ### The periodic timer -/

/-- The sweep of `do_resender_check`: `visited` is the part of the list before
the iterator and the second argument the part from it on. -/
def resendFrom (curTimePoint : TimePoint) :
    List SendingPacketInfo → List SendingPacketInfo → Ctx E → Ctx E
  | _, [], s => s
  | visited, it :: rest, s =>
    if secondsPassed curTimePoint it.lastSendTimePoint < resendIntervalInSeconds then
      resendFrom curTimePoint (visited ++ [it]) rest s
    else if it.curTries ≥ maxResendTries then
      resendFrom curTimePoint visited rest
        ({ s with writePackets := visited ++ rest }.emit (.gaveUp it))
    else
      let sent := { it with curTries := it.curTries + 1, lastSendTimePoint := curTimePoint }
      resendFrom curTimePoint (visited ++ [sent]) rest
        ({ s with writePackets := visited ++ sent :: rest }.doWritePacket it.packet)

def doResenderCheck (s : Ctx E) (curTimePoint : TimePoint) : Ctx E :=
  resendFrom curTimePoint [] s.writePackets s

def onPriodicallyTimer (s : Ctx E) : Ctx E := s.doResenderCheck s.now

end Ctx

end Session

end Ibase
