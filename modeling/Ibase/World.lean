import Ibase.Lib.Run
import Ibase.Link

/-!
# The client among threads, timers and the network

`Io` is what asio keeps for the client: the queue of handlers that are ready to
run, and the operations that are outstanding on its socket and its timers.
Closing the socket, and connecting it again, makes every outstanding operation
complete with an error behind the handlers that are queued; an operation that
has already completed keeps its result.  A `World` is the client with its `Io`
and with the calls that other threads are in the middle of, and `World.step` is
one event: a thread takes one more step in `send_req_async` or `stop`, an
operation completes, a timer expires, or the next ready handler runs.

What the source does not have here are marks for the reader: the numbers in an
`OpTag`, the bytes received so far, and the logs of `do_connect` and `stop_impl`.
-/

namespace Ibase

open Relation

/-- When an operation was started: in which connection attempt, and after how
many calls of `do_close`. -/
structure OpTag where
  attempt : Nat
  closes : Nat
  deriving DecidableEq, Repr

/-- A handler that is ready to run. -/
inductive Handler where
  | task (task : Task)
  | connect (tag : OpTag) (ec : Bool)
  | readSome (tag : OpTag) (ec : Bool) (length : Nat)
  | write (tag : OpTag) (ec : Bool)
  | wait (timerId : UInt32) (ec : Bool)
  deriving DecidableEq

/-- The operation on the socket that this handler completes, if any. -/
def Handler.tag? : Handler → Option OpTag
  | connect tag _ => some tag
  | readSome tag _ _ => some tag
  | write tag _ => some tag
  | task _ => none
  | wait _ _ => none

/-- Is this the completion of an operation on the socket that succeeded? -/
def Handler.succeeded : Handler → Bool
  | connect _ false => true
  | readSome _ false _ => true
  | write _ false => true
  | _ => false

/-- What `do_connect` finds: how many bytes are unread, how often `do_close` has
been called, and the completions of earlier operations on the socket that have
not run, those that connecting is about to abort included. -/
structure ConnectEntry where
  unread : Nat
  closes : Nat
  pending : List Handler
  deriving DecidableEq

/-- What `stop_impl` finds: whether the client counts as started, the state of its
connection, the connect that is outstanding, and the handlers that are queued. -/
structure StopEntry where
  started : Bool
  connectState : ConnectState
  connectOp : Option OpTag
  ready : List Handler
  deriving DecidableEq

structure Io where
  ready : List Handler
  connectOp : Option OpTag
  readOps : List (OpTag × Slab)
  writeOps : List OpTag
  waits : List UInt32
  /-- The bytes received, on any connection. -/
  rx : List RecvByte
  /-- How many connection attempts began, and how many times `do_close` was called. -/
  attempt : Nat
  closes : Nat
  /-- How many times `do_close` had been called when the last attempt began. -/
  attemptCloses : Nat
  /-- Has `stop_impl` run, and no `start_impl` since? -/
  stopped : Bool
  connectLog : List ConnectEntry
  stopLog : List StopEntry
  /-- Every effect so far. -/
  trace : List Effect
  deriving DecidableEq

namespace Io

def new : Io where
  ready := []
  connectOp := none
  readOps := []
  writeOps := []
  waits := []
  rx := []
  attempt := 0
  closes := 0
  attemptCloses := 0
  stopped := false
  connectLog := []
  stopLog := []
  trace := []

/-- The handlers of the outstanding operations, each with an error. -/
def aborted (io : Io) : List Handler :=
  io.readOps.map (fun op => .readSome op.1 true 0) ++
    (io.connectOp.toList.map (fun tag => .connect tag true) ++
      io.writeOps.map (fun tag => .write tag true))

/-- The operations that are outstanding complete with `operation_aborted`. -/
def abort (io : Io) : Io :=
  { io with ready := io.ready ++ io.aborted, connectOp := none, readOps := [], writeOps := [] }

/-- The completions of operations on the socket that have not run. -/
def pending (io : Io) : List Handler :=
  io.ready.filter (fun h => h.tag?.isSome) ++ io.aborted

/-- The tag of an operation started now. -/
def nowTag (io : Io) : OpTag := ⟨io.attempt, io.closes⟩

/-- What an effect of the client does to asio. -/
def react (io : Io) : Effect → Io
  | .asyncConnect _ _ =>
    let io := io.abort
    { io with attempt := io.attempt + 1, attemptCloses := io.closes
              connectOp := some ⟨io.attempt + 1, io.closes⟩ }
  | .asyncReadSome buf true => { io with readOps := io.readOps ++ [(io.nowTag, buf)] }
  | .asyncReadSome _ false => { io with ready := io.ready ++ [.readSome io.nowTag true 0] }
  | .asyncWrite _ true => { io with writeOps := io.writeOps ++ [io.nowTag] }
  | .asyncWrite _ false => { io with ready := io.ready ++ [.write io.nowTag true] }
  | .closeSocket => io.abort
  | .post task => { io with ready := io.ready ++ [.task task] }
  | .expiresAfter timerId _ => { io with waits := io.waits ++ [timerId] }
  | .cancelTimer timerId =>
    { io with
      waits := io.waits.filter (fun id => id ≠ timerId)
      ready := io.ready ++
        (io.waits.filter (fun id => id = timerId)).map (fun id => .wait id true) }
  | .doClose => { io with closes := io.closes + 1 }
  | .doConnect unread =>
    { io with connectLog := io.connectLog ++ [⟨unread, io.closes, io.pending⟩] }
  | .startImpl => { io with stopped := false }
  | .stopImpl started connectState =>
    { io with stopped := true
              stopLog := io.stopLog ++ [⟨started, connectState, io.connectOp, io.ready⟩] }
  | .sendReqCallback _ _ _ | .recvNotificationCallback _ _ | .recvPacket _ _ | .cancelled _
  | .dropped _ | .danglingIterator => io

end Io

instance : Platform Effect Io where
  perform effect io := { io.react effect with trace := io.trace ++ [effect] }

/-- Nothing that the client tells asio makes an operation succeed. -/
theorem Io.succeeded_of_perform {io : Io} {effect : Effect} {g : Handler} (hg : g.succeeded = true)
    (h : g ∈ (Platform.perform effect io : Io).ready) : g ∈ io.ready := by
  have happend : ∀ gs : List Handler, (∀ g' ∈ gs, g'.succeeded = false) → g ∈ io.ready ++ gs →
      g ∈ io.ready := by
    intro gs hgs hin
    rcases List.mem_append.mp hin with hin | hin
    · exact hin
    · exact absurd hg (by simp [hgs g hin])
  have habort : g ∈ io.abort.ready → g ∈ io.ready := by
    refine happend io.aborted (fun g' hg' => ?_)
    rcases List.mem_append.mp hg' with hg' | hg'
    · obtain ⟨op, -, rfl⟩ := List.mem_map.mp hg'
      rfl
    rcases List.mem_append.mp hg' with hg' | hg'
    · obtain ⟨tag, -, rfl⟩ := List.mem_map.mp hg'
      rfl
    · obtain ⟨tag, -, rfl⟩ := List.mem_map.mp hg'
      rfl
  cases effect with
  | asyncConnect host port => exact habort h
  | closeSocket => exact habort h
  | asyncReadSome buf isOpen =>
    cases isOpen with
    | true => exact h
    | false => exact happend _ (by simp [Handler.succeeded]) h
  | asyncWrite packet isOpen =>
    cases isOpen with
    | true => exact h
    | false => exact happend _ (by simp [Handler.succeeded]) h
  | post task => exact happend _ (by simp [Handler.succeeded]) h
  | cancelTimer timerId => exact happend _ (by simp [Handler.succeeded]) h
  | _ => exact h

/-- A thread in the middle of `send_req_async`: the packet is built, and the send
id is drawn or not. -/
structure SendCall where
  packet : RequestPacket
  opt : SendOpt
  callback : Callback
  sendDraw : Option Nat
  deriving DecidableEq

structure World where
  client : Client
  io : Io
  now : TimePoint
  sendCalls : List SendCall
  /-- How many threads in `stop` have found `started_` true, and how many of these
  have then cleared it. -/
  stopTested : Nat
  stopCleared : Nat

namespace World

def new : World := ⟨Client.new, Io.new, 0, [], 0, 0⟩

/-- The client inside a handler that starts now. -/
def enter (w : World) (script : List CallbackRun) : Ctx Io := ⟨w.client, w.io, w.now, script⟩

/-- The world after a handler. -/
def leave (w : World) (c : Ctx Io) : World :=
  { w with client := c.toClient, io := c.env, now := c.now }

/-- What the client tells asio outside a handler. -/
def emit (w : World) (effect : Effect) : World :=
  { w with io := Platform.perform effect w.io }

end World

/-- Run a ready handler. -/
def Ctx.runHandler (c : Ctx Io) : Handler → Ctx Io
  | .task task => c.runTask task
  | .connect _ ec => c.onConnectCompleted ec
  | .readSome _ ec length => c.onReadCompleted ec length
  | .write _ ec => c.onWriteCompleted ec
  | .wait timerId ec => c.onTimer timerId ec

/-- One event. -/
inductive Event where
  /-- A thread calls `send_req_async`; the call goes on by the two events after. -/
  | sendDrawSeq (cmd : UInt32) (reqBuf : Option (List UInt8)) (reqLen : UInt32)
      (opt : Option SendOpt) (callback : Callback)
  | sendDrawId (call : Nat)
  | sendPost (call : Nat)
  | sendCancel (sendId : UInt32)
  | subscribeNotification (cmd : UInt32) (callback : Callback)
  | unsubscribeNotification (cmd : UInt32)
  | start (host : String) (port : UInt16)
  /-- A thread calls `stop`; the call goes on by the two events after. -/
  | stopTest
  | stopClear
  | stopPost
  | connected
  | connectFailed
  /-- An outstanding read or write completes. -/
  | received (op : Nat) (bytes : List UInt8)
  | readFailed (op : Nat)
  | written (op : Nat)
  | writeFailed (op : Nat)
  | expired (wait : Nat)
  | advance (time : TimePoint)
  /-- The next ready handler runs, with the user behind its callbacks. -/
  | run (script : List CallbackRun)

namespace World

/-- The bytes of a read, as received on that connection. -/
def receivedOn (tag : OpTag) (bytes : List UInt8) : List RecvByte :=
  bytes.map (fun b => ⟨b, tag.attempt⟩)

/-- One event; `none` if it cannot happen. -/
def step (w : World) : Event → Option World
  | .sendDrawSeq cmd reqBuf reqLen opt callback =>
    let w := { w with client := { w.client with curSeq := w.client.curSeq + 1 } }
    match RequestPacket.build w.client.curSeq cmd reqBuf reqLen with
    | none => some w
    | some packet =>
      some { w with sendCalls := w.sendCalls ++ [⟨packet, opt.getD defaultSendOpt, callback, none⟩] }
  | .sendDrawId call =>
    match w.sendCalls[call]? with
    | some ⟨packet, opt, callback, none⟩ =>
      let w := { w with client := { w.client with curSendId := w.client.curSendId + 1 } }
      some { w with
        sendCalls := w.sendCalls.set call ⟨packet, opt, callback, some w.client.curSendId⟩ }
    | _ => none
  | .sendPost call =>
    match w.sendCalls[call]? with
    | some ⟨packet, opt, callback, some sendDraw⟩ =>
      some ({ w with sendCalls := w.sendCalls.eraseIdx call }.emit
        (.post (.sendReqAsyncImpl packet sendDraw opt callback)))
    | _ => none
  | .sendCancel sendId => some (w.emit (.post (.sendCancelImpl sendId)))
  | .subscribeNotification cmd callback =>
    some (w.emit (.post (.subscribeNotificationImpl cmd callback)))
  | .unsubscribeNotification cmd => some (w.emit (.post (.unsubscribeNotificationImpl cmd)))
  | .start host port => some (w.emit (.post (.startImpl host port)))
  | .stopTest =>
    some (if w.client.started then { w with stopTested := w.stopTested + 1 } else w)
  | .stopClear =>
    if w.stopTested = 0 then none
    else
      some { w with
        stopTested := w.stopTested - 1
        stopCleared := w.stopCleared + 1
        client := { w.client with started := false } }
  | .stopPost =>
    if w.stopCleared = 0 then none
    else some ({ w with stopCleared := w.stopCleared - 1 }.emit (.post .stopImpl))
  | .connected =>
    w.io.connectOp.map (fun tag =>
      { w with io := { w.io with connectOp := none, ready := w.io.ready ++ [.connect tag false] } })
  | .connectFailed =>
    w.io.connectOp.map (fun tag =>
      { w with io := { w.io with connectOp := none, ready := w.io.ready ++ [.connect tag true] } })
  | .received op bytes =>
    match w.io.readOps[op]? with
    | none => none
    | some (tag, slab) =>
      if bytes ≠ [] ∧ bytes.length ≤ slab.size then
        some { w with
          client := { w.client with
            readBuf := w.client.readBuf.fill slab.data (receivedOn tag bytes) }
          io := { w.io with
            readOps := w.io.readOps.eraseIdx op
            rx := w.io.rx ++ receivedOn tag bytes
            ready := w.io.ready ++ [.readSome tag false bytes.length] } }
      else none
  | .readFailed op =>
    w.io.readOps[op]?.map (fun r =>
      { w with io := { w.io with
          readOps := w.io.readOps.eraseIdx op
          ready := w.io.ready ++ [.readSome r.1 true 0] } })
  | .written op =>
    w.io.writeOps[op]?.map (fun tag =>
      { w with io := { w.io with
          writeOps := w.io.writeOps.eraseIdx op
          ready := w.io.ready ++ [.write tag false] } })
  | .writeFailed op =>
    w.io.writeOps[op]?.map (fun tag =>
      { w with io := { w.io with
          writeOps := w.io.writeOps.eraseIdx op
          ready := w.io.ready ++ [.write tag true] } })
  | .expired wait =>
    w.io.waits[wait]?.map (fun id =>
      { w with io := { w.io with
          waits := w.io.waits.eraseIdx wait
          ready := w.io.ready ++ [.wait id false] } })
  | .advance time => some { w with now := w.now.later time }
  | .run script =>
    match w.io.ready with
    | [] => none
    | handler :: rest =>
      let w := { w with io := { w.io with ready := rest } }
      some (w.leave ((w.enter script).runHandler handler))

/-! ### What an event does to the connection -/

/-- The connection of a world, between two handlers. -/
def link (w : World) : Link Io := (w.enter []).link

end World

/-- What an event does to the connection, if no handler runs: the client moves as
inside a handler, or an operation completes. -/
inductive Link.Event (e : Ibase.Event) : Link Io → Link Io → Prop
  | steps {l m : Link Io} (h : ReflTransGen Step l m) : Event e l m
  | connect (l : Link Io) (tag : OpTag) (ec : Bool) (h : l.env.connectOp = some tag) :
      Event e l { l with env := { l.env with
        connectOp := none, ready := l.env.ready ++ [.connect tag ec] } }
  | received (l : Link Io) (op : Nat) (tag : OpTag) (slab : Slab) (bytes : List UInt8)
      (he : e = .received op bytes) (h : l.env.readOps[op]? = some (tag, slab))
      (hlen : bytes.length ≤ slab.size) :
      Event e l { l with
        readBuf := l.readBuf.fill slab.data (World.receivedOn tag bytes)
        env := { l.env with
          readOps := l.env.readOps.eraseIdx op
          rx := l.env.rx ++ World.receivedOn tag bytes
          ready := l.env.ready ++ [.readSome tag false bytes.length] } }
  | readFailed (l : Link Io) (op : Nat) (r : OpTag × Slab) (h : l.env.readOps[op]? = some r) :
      Event e l { l with env := { l.env with
        readOps := l.env.readOps.eraseIdx op
        ready := l.env.ready ++ [.readSome r.1 true 0] } }
  | write (l : Link Io) (op : Nat) (tag : OpTag) (ec : Bool) (h : l.env.writeOps[op]? = some tag) :
      Event e l { l with env := { l.env with
        writeOps := l.env.writeOps.eraseIdx op
        ready := l.env.ready ++ [.write tag ec] } }
  | wait (l : Link Io) (wait : Nat) (id : UInt32) (h : l.env.waits[wait]? = some id) :
      Event e l { l with env := { l.env with
        waits := l.env.waits.eraseIdx wait
        ready := l.env.ready ++ [.wait id false] } }

namespace World

theorem event_of_link_eq {w v : World} {e : Event} (h : v.link = w.link) :
    Link.Event e w.link v.link :=
  .steps (h ▸ ReflTransGen.refl)

theorem event_emit {w : World} (v : World) {e : Event} {effect : Effect}
    (h : effect.isInert = true) (hv : v.link = w.link.emit effect) :
    Link.Event e w.link v.link :=
  .steps (hv ▸ ReflTransGen.single (.emit w.link effect h))

/-- **An event runs the next handler, or does to the connection what `Link.Event`
says.** -/
theorem step_cases {w v : World} {e : Event} (hs : w.step e = some v) :
    (∃ script g rest, w.io.ready = g :: rest ∧ v = w.leave
      ((({ w with io := { w.io with ready := rest } } : World).enter script).runHandler g)) ∨
    Link.Event e w.link v.link := by
  cases e with
  | sendDrawSeq cmd reqBuf reqLen opt callback =>
    simp only [step] at hs
    split at hs
    · exact .inr (Option.some.inj hs ▸ event_of_link_eq rfl)
    · exact .inr (Option.some.inj hs ▸ event_of_link_eq rfl)
  | sendDrawId call =>
    simp only [step] at hs
    split at hs
    · exact .inr (Option.some.inj hs ▸ event_of_link_eq rfl)
    · exact absurd hs (by simp)
  | sendPost call =>
    simp only [step] at hs
    split at hs
    · exact .inr (Option.some.inj hs ▸ event_emit _ rfl rfl)
    · exact absurd hs (by simp)
  | sendCancel sendId => exact .inr (Option.some.inj hs ▸ event_emit _ rfl rfl)
  | subscribeNotification cmd callback => exact .inr (Option.some.inj hs ▸ event_emit _ rfl rfl)
  | unsubscribeNotification cmd => exact .inr (Option.some.inj hs ▸ event_emit _ rfl rfl)
  | start host port => exact .inr (Option.some.inj hs ▸ event_emit _ rfl rfl)
  | stopTest =>
    simp only [step] at hs
    split at hs
    · exact .inr (Option.some.inj hs ▸ event_of_link_eq rfl)
    · exact .inr (Option.some.inj hs ▸ event_of_link_eq rfl)
  | stopClear =>
    simp only [step] at hs
    split at hs
    · exact absurd hs (by simp)
    · exact .inr (Option.some.inj hs ▸ .steps (ReflTransGen.single (.clearStarted w.link)))
  | stopPost =>
    simp only [step] at hs
    split at hs
    · exact absurd hs (by simp)
    · exact .inr (Option.some.inj hs ▸ event_emit _ rfl rfl)
  | connected =>
    obtain ⟨tag, hop, rfl⟩ := Option.map_eq_some_iff.mp hs
    exact .inr (.connect w.link tag false hop)
  | connectFailed =>
    obtain ⟨tag, hop, rfl⟩ := Option.map_eq_some_iff.mp hs
    exact .inr (.connect w.link tag true hop)
  | received op bytes =>
    simp only [step] at hs
    split at hs
    · exact absurd hs (by simp)
    rename_i tag slab hop
    split at hs
    · rename_i hb
      exact .inr (Option.some.inj hs ▸ .received w.link op tag slab bytes rfl hop hb.2)
    · exact absurd hs (by simp)
  | readFailed op =>
    obtain ⟨r, hop, rfl⟩ := Option.map_eq_some_iff.mp hs
    exact .inr (.readFailed w.link op r hop)
  | written op =>
    obtain ⟨tag, hop, rfl⟩ := Option.map_eq_some_iff.mp hs
    exact .inr (.write w.link op tag false hop)
  | writeFailed op =>
    obtain ⟨tag, hop, rfl⟩ := Option.map_eq_some_iff.mp hs
    exact .inr (.write w.link op tag true hop)
  | expired wait =>
    obtain ⟨id, hop, rfl⟩ := Option.map_eq_some_iff.mp hs
    exact .inr (.wait w.link wait id hop)
  | advance time => exact .inr (Option.some.inj hs ▸ .steps (ReflTransGen.single (.later w.link time)))
  | run script =>
    simp only [step] at hs
    split at hs
    · exact absurd hs (by simp)
    · rename_i g rest hr
      exact .inl ⟨script, g, rest, hr, (Option.some.inj hs).symm⟩

theorem run_eq_some {w v : World} {script : List CallbackRun} {g : Handler} {rest : List Handler}
    (hs : w.step (.run script) = some v) (hr : w.io.ready = g :: rest) :
    v = w.leave ((({ w with io := { w.io with ready := rest } } : World).enter script).runHandler g) := by
  simp only [step] at hs
  rw [hr] at hs
  exact (Option.some.inj hs).symm

end World

end Ibase
