import Mathlib
import Ibase.Session

/-!
# The server

`reliable_tcp_server.cpp`, one function of the source each.  A session is an
object of its own: `heap` keeps the sessions by number, and `sessions_` holds
the number where the source has a `shared_ptr`.  The number is the one that
`++cur_session_id` drew, and the session id its low 32 bits.

A session's handler runs on the session, and the server around it hears of the
packets through `receive_packet_callback_`.  `Around` is that server: for the
time of the callback the session goes back to the heap, so that what the
processor calls finds it there.
-/

namespace Ibase

/-- A `req_processor_t` of the user, by name. -/
abbrev Processor := Nat

/-- `reliable_tcp_server_t::session_info`. -/
structure SessionInfo where
  session : Nat
  lastRecvTimepoint : TimePoint
  deriving DecidableEq

/-- A call of a public function. -/
inductive ServerCall where
  | start
  | stop
  | registerReqProcessor (cmd : UInt32) (processor : Processor)
  | unregisterReqProcessor (cmd : UInt32)
  | sendRspForReq (sessionId cmd seq : UInt32) (rspBuf : Option (List UInt8)) (rspLen : UInt32)
  | publishNotification (cmd : UInt32) (notificationBuf : Option (List UInt8))
      (notificationLen : UInt32)
  deriving DecidableEq

/-- One run of a processor: what it calls, and the time when it returns. -/
structure ProcessorRun where
  calls : List ServerCall
  until_ : TimePoint

/-- `reliable_tcp_server_t`.  `curSessionId` and `curSeq` count the numbers drawn;
`serial` is not in the source, it tells server objects apart. -/
structure Server where
  serial : Nat
  started : Bool
  acceptorOpen : Bool
  req2Processor : UInt32 → Option Processor
  sessions : List (UInt32 × SessionInfo)
  curSessionId : Nat
  curSeq : Nat
  timer : Itimer Unit
  checkTimerId : UInt32

namespace Server

def maxHeartbeatIntervalSeconds : Int := 20

/-- What a handler does to the world around the server.  `invoked` says for which
session object a processor runs, and when. -/
inductive Effect where
  | asyncAccept (isOpen : Bool)
  | closeAcceptor
  | post (task : TimerTask)
  | session (session : Nat) (effect : Session.Effect)
  | invoked (session : Nat) (processor : Processor) (packet : SharedPacket) (time : TimePoint)
  deriving DecidableEq

/-- A server as constructed; the acceptor listens already. -/
def new (serial : Nat) : Server where
  serial := serial
  started := false
  acceptorOpen := true
  req2Processor := fun _ => none
  sessions := []
  curSessionId := 0
  curSeq := 0
  timer := Itimer.new
  checkTimerId := 0

/-- `sessions_[id] = info`; the map is in the order of the ids. -/
def insertSession (sessions : List (UInt32 × SessionInfo)) (id : UInt32) (info : SessionInfo) :
    List (UInt32 × SessionInfo) :=
  sessions.filter (fun p => p.1 < id) ++ (id, info) :: sessions.filter (fun p => id < p.1)

/-- The server inside a handler. -/
structure Ctx (E : Type) extends Server where
  heap : Nat → Option Session
  env : E
  now : TimePoint
  script : List ProcessorRun

/-- The server around one of its sessions. -/
structure Around (E : Type) where
  server : Ctx E
  number : Nat

variable {E : Type} [Platform Effect E]

namespace Ctx

def emit (s : Ctx E) (effect : Effect) : Ctx E := { s with env := Platform.perform effect s.env }

instance : Platform Session.Effect (Around E) where
  perform effect a := { a with server := a.server.emit (.session a.number effect) }

/-- The session of that number, inside a handler. -/
def enter (s : Ctx E) (number : Nat) (session : Session) : Session.Ctx (Around E) :=
  { session with env := ⟨s, number⟩, now := s.now }

/-- The server with the session back in its place. -/
def whole (s : Session.Ctx (Around E)) : Ctx E :=
  { s.env.server with
    heap := Function.update s.env.server.heap s.env.number (some s.toSession)
    now := s.now }

/-- A function of a session, run on the session of that number. -/
def onSession (s : Ctx E) (number : Nat) (f : Session.Ctx (Around E) → Session.Ctx (Around E)) :
    Ctx E :=
  match s.heap number with
  | none => s
  | some session => whole (f (s.enter number session))

/-! ### The timer object -/

def startTimer (s : Ctx E) (delaySeconds intervalSeconds : UInt32) : Ctx E :=
  { s with timer := { s.timer with curTimerId := s.timer.curTimerId + 1 } }.emit
    (.post (.startTimerImpl s.timer.nextTimerId delaySeconds intervalSeconds))

def stopTimer (s : Ctx E) (timerId : UInt32) : Ctx E := s.emit (.post (.stopTimerImpl timerId))

/-! ### Starting and stopping -/

def doAccept (s : Ctx E) : Ctx E := s.emit (.asyncAccept s.acceptorOpen)

def startAccept (s : Ctx E) : Ctx E := s.doAccept

def doClose (s : Ctx E) : Ctx E :=
  if s.acceptorOpen then { s with acceptorOpen := false }.emit .closeAcceptor else s

/-- `start_impl` and what it returns. -/
def startImpl (s : Ctx E) : Bool × Ctx E :=
  if s.started then (true, s)
  else
    let s := { s with started := true }.startAccept
    let timerId := s.timer.nextTimerId
    (timerId != 0, { s.startTimer 1 1 with checkTimerId := timerId })

def stopImpl (s : Ctx E) : Ctx E :=
  let s := s.stopTimer s.checkTimerId
  let s := { s with checkTimerId := 0 }
  { s.doClose with sessions := [], req2Processor := fun _ => none }

/-! ### Sending -/

def registerReqProcessorImpl (s : Ctx E) (cmd : UInt32) (processor : Processor) : Ctx E :=
  { s with req2Processor := Function.update s.req2Processor cmd (some processor) }

def unregisterReqProcessorImpl (s : Ctx E) (cmd : UInt32) : Ctx E :=
  { s with req2Processor := Function.update s.req2Processor cmd none }

/-- `get_session`. -/
def getSession (s : Ctx E) (sessionId : UInt32) : Option Nat :=
  (s.sessions.lookup sessionId).map SessionInfo.session

/-- `send_packet` and what it returns; the origin has the `cmd`, the `seq` and
`is_push`. -/
def sendPacket (s : Ctx E) (sessionId : UInt32) (origin : Origin) (rspBuf : Option (List UInt8))
    (rspLen : UInt32) : Bool × Ctx E :=
  match SharedPacket.build origin rspBuf rspLen with
  | none => (false, s)
  | some packet =>
    match s.getSession sessionId with
    | none => (false, s)
    | some session => (true, s.onSession session (fun s => s.sendPacket packet))

def sendRspForReqImpl (s : Ctx E) (sessionId cmd seq : UInt32) (rspBuf : Option (List UInt8))
    (rspLen : UInt32) : Bool × Ctx E :=
  s.sendPacket sessionId (.response cmd seq) rspBuf rspLen

/-- `publish_notification_impl`; it returns `true`. -/
def publishNotificationImpl (s : Ctx E) (cmd : UInt32) (notificationBuf : Option (List UInt8))
    (notificationLen : UInt32) : Bool × Ctx E :=
  let s := { s with curSeq := s.curSeq + 1 }
  let origin := .notification s.serial s.curSeq cmd
  (true, s.sessions.foldl (fun s p =>
    match s.heap p.2.session with
    | none => s
    | some session => (s.sendPacket session.sessionId origin notificationBuf notificationLen).2) s)

/-- `start` and `stop` run their `_impl` at once when they are called here. -/
def serverCall (s : Ctx E) : ServerCall → Ctx E
  | .start => s.startImpl.2
  | .stop => if s.started = false then s else { s with started := false }.stopImpl
  | .registerReqProcessor cmd processor => s.registerReqProcessorImpl cmd processor
  | .unregisterReqProcessor cmd => s.unregisterReqProcessorImpl cmd
  | .sendRspForReq sessionId cmd seq rspBuf rspLen =>
    (s.sendRspForReqImpl sessionId cmd seq rspBuf rspLen).2
  | .publishNotification cmd buf len => (s.publishNotificationImpl cmd buf len).2

/-! ### Packets -/

/-- The user's part of a call of a processor. -/
def runProcessor (s : Ctx E) : Ctx E :=
  match s.script with
  | [] => s
  | run :: rest =>
    let s := run.calls.foldl serverCall { s with script := rest }
    { s with now := s.now.later run.until_ }

def onHeartbeat (s : Ctx E) (sessionId : UInt32) : Ctx E :=
  { s with
    sessions := s.sessions.map (fun p =>
      if p.1 = sessionId then (p.1, { p.2 with lastRecvTimepoint := s.now }) else p) }

/-- `dispatch_packet`; `number` is that of the session, for the mark. -/
def dispatchPacket (s : Ctx E) (number : Nat) (sessionId : UInt32) (packet : SharedPacket) : Ctx E :=
  let s := s.onHeartbeat sessionId
  if packet.isPush then s
  else
    match s.req2Processor packet.cmd with
    | none => s
    | some processor => (s.emit (.invoked number processor packet s.now)).runProcessor

/-- The handler of a session keeps the session alive, so its object is there when
the callback returns. -/
instance : Session.ReceiveCallback (Around E) where
  receivePacketCallback sessionId packet s :=
    let server := (whole s).dispatchPacket s.env.number sessionId packet
    match server.heap s.env.number with
    | none => s
    | some session => server.enter s.env.number session

/-! ### Sessions -/

def addNewSession (s : Ctx E) : Ctx E :=
  let s := { s with curSessionId := s.curSessionId + 1 }
  let number := s.curSessionId
  let id := UInt32.ofNat number
  let timestamp := s.now
  let s := { s with heap := Function.update s.heap number (some (Session.new id)) }
  let s := s.onSession number (fun s => s.doStart)
  { s with sessions := insertSession s.sessions id ⟨number, timestamp⟩ }

/-- The handler of `async_accept`. -/
def onAccepted (s : Ctx E) (ec : Bool) : Ctx E :=
  if s.acceptorOpen = false then s
  else (if ec then s else s.addNewSession).doAccept

def onPriodicallyTimer (s : Ctx E) : Ctx E :=
  let curTimepoint := s.now
  { s with
    sessions := s.sessions.filter (fun p =>
      secondsPassed curTimepoint p.2.lastRecvTimepoint < maxHeartbeatIntervalSeconds) }

end Ctx

end Server

end Ibase
