import Ibase.Book

/-!
# The life of a request

The client keeps the book: each of its handlers moves `Ctx.book` by steps of
`Book`, as long as no callback calls `stop`.  Most functions do so whatever is in
`write_packets_` (`Turns`); the response, the sweep, `send_cancel_impl` and
`stop_impl` are the ones that work on the list (`Books`).
-/

namespace Ibase

open Relation

/-! ### What the trace says of requests -/

/-- The request that is posted with this handler. -/
def Handler.request? : Handler → Option Request
  | .task (.sendReqAsyncImpl packet sendDraw _ _) => some ⟨packet.origin, sendDraw⟩
  | _ => none

def Effect.accepted? : Effect → Option Request
  | .post (.sendReqAsyncImpl packet sendDraw _ _) => some ⟨packet.origin, sendDraw⟩
  | _ => none

def Effect.ended? : Effect → Option (Status × Request)
  | .sendReqCallback info result _ => some (.completed result, info.request)
  | .cancelled info => some (.cancelled, info.request)
  | .dropped info => some (.dropped, info.request)
  | _ => none

def Effect.callback? : Effect → Option (SendingPacketInfo × Int × SharedPacket)
  | .sendReqCallback info result packet => some (info, result, packet)
  | _ => none

def Effect.packet? : Effect → Option Packet
  | .recvPacket _ packet => some packet
  | _ => none

/-- Does the book have nothing to say of this effect? -/
def Effect.isAside : Effect → Bool
  | .post (.sendReqAsyncImpl ..) => false
  | .sendReqCallback .. | .cancelled _ | .dropped _ | .recvPacket .. => false
  | _ => true

def Io.book (io : Io) (calls : List SendCall) (queue : List SendingPacketInfo)
    (curSeq curSendId : Nat) : Book where
  calls := calls
  accepted := io.trace.filterMap Effect.accepted?
  posted := io.ready.filterMap Handler.request?
  queue := queue
  ended := io.trace.filterMap Effect.ended?
  callbacks := io.trace.filterMap Effect.callback?
  packets := io.trace.filterMap Effect.packet?
  curSeq := curSeq
  curSendId := curSendId

theorem Io.request_aborted (io : Io) : io.aborted.filterMap Handler.request? = [] := by
  simp [Io.aborted, Handler.request?, List.filterMap_map, Function.comp_def]

/-- What an effect adds to the trace. -/
theorem Io.book_perform (io : Io) (effect : Effect) (calls : List SendCall)
    (queue : List SendingPacketInfo) (curSeq curSendId : Nat) :
    (Platform.perform effect io : Io).book calls queue curSeq curSendId =
      { io.book calls queue curSeq curSendId with
        accepted := io.trace.filterMap Effect.accepted? ++ effect.accepted?.toList
        posted := io.ready.filterMap Handler.request? ++ effect.accepted?.toList
        ended := io.trace.filterMap Effect.ended? ++ effect.ended?.toList
        callbacks := io.trace.filterMap Effect.callback? ++ effect.callback?.toList
        packets := io.trace.filterMap Effect.packet? ++ effect.packet?.toList } := by
  have hready : (io.react effect).ready.filterMap Handler.request? =
      io.ready.filterMap Handler.request? ++ effect.accepted?.toList := by
    cases effect with
    | asyncConnect host port =>
      exact (List.filterMap_append ..).trans (congrArg _ io.request_aborted)
    | closeSocket => exact (List.filterMap_append ..).trans (congrArg _ io.request_aborted)
    | asyncReadSome buf isOpen =>
      cases isOpen with
      | true => exact (List.append_nil _).symm
      | false => exact List.filterMap_append ..
    | asyncWrite packet isOpen =>
      cases isOpen with
      | true => exact (List.append_nil _).symm
      | false => exact List.filterMap_append ..
    | post task =>
      refine (List.filterMap_append ..).trans (congrArg _ ?_)
      cases task <;> rfl
    | cancelTimer timerId =>
      refine (List.filterMap_append ..).trans (congrArg _ ?_)
      simp [List.filterMap_map, Function.comp_def, Handler.request?, Effect.accepted?]
    | _ => exact (List.append_nil _).symm
  have happ : ∀ {β : Type} (f : Effect → Option β),
      (io.trace ++ [effect]).filterMap f = io.trace.filterMap f ++ (f effect).toList := by
    intro β f
    rw [List.filterMap_append]
    refine congrArg _ ?_
    cases hf : f effect <;> simp [List.filterMap, hf]
  simp only [Platform.perform, Io.book, hready, happ]

theorem Io.book_perform_aside (io : Io) {effect : Effect} (h : effect.isAside = true)
    (calls : List SendCall) (queue : List SendingPacketInfo) (curSeq curSendId : Nat) :
    (Platform.perform effect io : Io).book calls queue curSeq curSendId =
      io.book calls queue curSeq curSendId := by
  rw [Io.book_perform]
  have hnone : effect.accepted? = none ∧ effect.ended? = none ∧ effect.callback? = none ∧
      effect.packet? = none := by
    cases effect with
    | post task => cases task <;> first | exact ⟨rfl, rfl, rfl, rfl⟩ | exact Bool.noConfusion h
    | _ => first | exact ⟨rfl, rfl, rfl, rfl⟩ | exact Bool.noConfusion h
  obtain ⟨h1, h2, h3, h4⟩ := hnone
  simp only [h1, h2, h3, h4, Option.toList_none, List.append_nil]
  rfl

namespace Ctx

/-- The book, with that list in the place of `write_packets_`. -/
def bookOf (calls : List SendCall) (queue : List SendingPacketInfo) (c : Ctx Io) : Book :=
  c.env.book calls queue c.curSeq c.curSendId

def book (calls : List SendCall) (c : Ctx Io) : Book := c.bookOf calls c.writePackets

/-- No callback to come calls `stop`. -/
def Calm (c : Ctx Io) : Prop := ∀ run ∈ c.script, .stop ∉ run.calls

/-- `d` comes from `c` by steps of the book that leave `write_packets_` alone. -/
structure Turns (c d : Ctx Io) : Prop where
  writePackets : d.writePackets = c.writePackets
  script : d.script <:+ c.script
  steps : ∀ calls queue, ReflTransGen Book.Step (c.bookOf calls queue) (d.bookOf calls queue)

/-- `d` comes from `c` by steps of the book. -/
structure Books (c d : Ctx Io) : Prop where
  script : d.script <:+ c.script
  steps : ∀ calls, ReflTransGen Book.Step (c.book calls) (d.book calls)

theorem Calm.of_suffix {c d : Ctx Io} (h : c.Calm) (hs : d.script <:+ c.script) : d.Calm :=
  fun run hrun => h run (hs.subset hrun)

theorem Turns.refl (c : Ctx Io) : c.Turns c :=
  ⟨rfl, List.suffix_refl _, fun _ _ => ReflTransGen.refl⟩

theorem Turns.trans {c d e : Ctx Io} (h1 : c.Turns d) (h2 : d.Turns e) : c.Turns e :=
  ⟨h2.writePackets.trans h1.writePackets, h2.script.trans h1.script,
    fun calls queue => (h1.steps calls queue).trans (h2.steps calls queue)⟩

theorem Turns.of_eq {c d : Ctx Io} (hw : d.writePackets = c.writePackets)
    (hs : d.script = c.script) (hb : ∀ calls queue, d.bookOf calls queue = c.bookOf calls queue) :
    c.Turns d :=
  ⟨hw, hs ▸ List.suffix_refl _, fun calls queue => hb calls queue ▸ ReflTransGen.refl⟩

theorem Turns.books {c d : Ctx Io} (h : c.Turns d) : c.Books d :=
  ⟨h.script, fun calls => by
    rw [book, book, h.writePackets]
    exact h.steps calls c.writePackets⟩

theorem Books.trans {c d e : Ctx Io} (h1 : c.Books d) (h2 : d.Books e) : c.Books e :=
  ⟨h2.script.trans h1.script, fun calls => (h1.steps calls).trans (h2.steps calls)⟩

/-- One step. -/
theorem Books.single {c d : Ctx Io} (hs : d.script = c.script)
    (h : ∀ calls, ∃ b, d.book calls = b ∧ Book.Step (c.book calls) b) : c.Books d := by
  refine ⟨hs ▸ List.suffix_refl _, fun calls => ?_⟩
  obtain ⟨b, heq, hstep⟩ := h calls
  exact heq.symm ▸ ReflTransGen.single hstep

theorem turns_emit (c : Ctx Io) {e : Effect} (h : e.isAside = true) : c.Turns (c.emit e) :=
  .of_eq rfl rfl (fun _ _ => Io.book_perform_aside _ h ..)

theorem bookOf_post (c : Ctx Io) (packet : RequestPacket) (sendDraw : Nat) (opt : SendOpt)
    (callback : Callback) (calls : List SendCall) (queue : List SendingPacketInfo) :
    (c.emit (.post (.sendReqAsyncImpl packet sendDraw opt callback))).bookOf calls queue =
      { c.bookOf calls queue with
        accepted := (c.bookOf calls queue).accepted ++ [⟨packet.origin, sendDraw⟩]
        posted := (c.bookOf calls queue).posted ++ [⟨packet.origin, sendDraw⟩] } := by
  refine (Io.book_perform ..).trans ?_
  simp only [Effect.ended?, Effect.callback?, Effect.packet?, Option.toList_none, List.append_nil]
  rfl

theorem bookOf_callback (c : Ctx Io) (info : SendingPacketInfo) (result : Int)
    (packet : SharedPacket) (calls : List SendCall) (queue : List SendingPacketInfo) :
    (c.emit (.sendReqCallback info result packet)).bookOf calls queue =
      { c.bookOf calls queue with
        ended := (c.bookOf calls queue).ended ++ [(.completed result, info.request)]
        callbacks := (c.bookOf calls queue).callbacks ++ [(info, result, packet)] } := by
  refine (Io.book_perform ..).trans ?_
  simp only [Effect.accepted?, Effect.packet?, Option.toList_none, List.append_nil]
  rfl

theorem bookOf_cancelled (c : Ctx Io) (info : SendingPacketInfo) (calls : List SendCall)
    (queue : List SendingPacketInfo) :
    (c.emit (.cancelled info)).bookOf calls queue =
      { c.bookOf calls queue with
        ended := (c.bookOf calls queue).ended ++ [(.cancelled, info.request)] } := by
  refine (Io.book_perform ..).trans ?_
  simp only [Effect.accepted?, Effect.callback?, Effect.packet?, Option.toList_none, List.append_nil]
  rfl

theorem bookOf_dropped (c : Ctx Io) (info : SendingPacketInfo) (calls : List SendCall)
    (queue : List SendingPacketInfo) :
    (c.emit (.dropped info)).bookOf calls queue =
      { c.bookOf calls queue with
        ended := (c.bookOf calls queue).ended ++ [(.dropped, info.request)] } := by
  refine (Io.book_perform ..).trans ?_
  simp only [Effect.accepted?, Effect.callback?, Effect.packet?, Option.toList_none, List.append_nil]
  rfl

theorem bookOf_recvPacket (c : Ctx Io) (frame : List RecvByte) (packet : Packet)
    (calls : List SendCall) (queue : List SendingPacketInfo) :
    (c.emit (.recvPacket frame packet)).bookOf calls queue =
      { c.bookOf calls queue with packets := (c.bookOf calls queue).packets ++ [packet] } := by
  refine (Io.book_perform ..).trans ?_
  simp only [Effect.accepted?, Effect.ended?, Effect.callback?, Option.toList_none, List.append_nil]
  rfl

/-! ### Connecting, closing, reading, writing -/

theorem turns_startTimer (c : Ctx Io) (delaySeconds intervalSeconds : UInt32) :
    c.Turns (c.startTimer delaySeconds intervalSeconds) := by
  have h := turns_emit { c with timer := { c.timer with curTimerId := c.timer.curTimerId + 1 } }
    (e := .post (.startTimerImpl c.timer.nextTimerId delaySeconds intervalSeconds)) rfl
  exact ⟨h.writePackets, h.script, h.steps⟩

theorem turns_doClose (c : Ctx Io) : c.Turns c.doClose := by
  have hmark := turns_emit c (e := .doClose) rfl
  unfold doClose
  simp only
  split
  · exact hmark
  split
  · have hclose := turns_emit { c.emit .doClose with
      readPending := false, connectState := .disconnected, socketOpen := false }
      (e := .closeSocket) rfl
    exact hmark.trans ⟨hclose.writePackets, hclose.script, hclose.steps⟩
  · exact ⟨hmark.writePackets, hmark.script, hmark.steps⟩

theorem turns_doConnect (c : Ctx Io) : c.Turns c.doConnect := by
  unfold doConnect
  split
  · exact Turns.refl c
  · have hmark := turns_emit c (e := .doConnect c.readBuf.size) rfl
    have hconnect := turns_emit { c.emit (.doConnect c.readBuf.size) with
      lastConnectTimepoint := c.now, connectState := .connecting, socketOpen := true }
      (e := .asyncConnect c.host c.port) rfl
    exact hmark.trans ⟨hconnect.writePackets, hconnect.script, hconnect.steps⟩

theorem turns_startImpl (c : Ctx Io) (host : String) (port : UInt16) :
    c.Turns (c.startImpl host port) := by
  unfold startImpl
  split
  · exact Turns.refl c
  · have hmark := turns_emit c (e := .startImpl) rfl
    have hconnect := turns_doConnect
      { c.emit .startImpl with started := true, host := host, port := port }
    have htimer := turns_startTimer
      { c.emit .startImpl with started := true, host := host, port := port }.doConnect 1 1
    have hall := hmark.trans (Turns.trans ⟨hconnect.writePackets, hconnect.script, hconnect.steps⟩ htimer)
    exact ⟨hall.writePackets, hall.script, hall.steps⟩

theorem turns_doReadPacket (c : Ctx Io) : c.Turns c.doReadPacket := by
  rcases c.doReadPacket_cases with heq | heq
  · rw [heq]
    exact Turns.refl c
  · rw [heq]
    have h := turns_emit { c with
        readPending := true, readBuf := (c.readBuf.prepare c.readBuf.sizeToRead).2 }
      (e := .asyncReadSome (c.readBuf.prepare c.readBuf.sizeToRead).1 c.socketOpen) rfl
    exact ⟨h.writePackets, h.script, h.steps⟩

theorem turns_doWritePacket (c : Ctx Io) (packet : Option SharedPacket) :
    c.Turns (c.doWritePacket packet) := by
  cases packet with
  | none => exact Turns.refl c
  | some packet =>
    rw [doWritePacket]
    split
    · exact Turns.refl c
    · exact turns_emit c rfl

theorem turns_ackPushPacket (c : Ctx Io) (packet : SharedPacket) :
    c.Turns (c.ackPushPacket packet) := by
  rw [ackPushPacket]
  split
  · exact Turns.refl c
  · exact turns_doWritePacket ..

/-! ### The user -/

theorem turns_sendReqAsync (c : Ctx Io) (cmd : UInt32) (reqBuf : Option (List UInt8))
    (reqLen : UInt32) (opt : Option SendOpt) (callback : Callback) :
    c.Turns (c.sendReqAsync cmd reqBuf reqLen opt callback) := by
  rw [sendReqAsync]
  split
  · exact ⟨rfl, List.suffix_refl _, fun calls queue => ReflTransGen.single (.drawSeq _)⟩
  · rename_i packet hpacket
    refine ⟨rfl, List.suffix_refl _, fun calls queue => ?_⟩
    have horigin := RequestPacket.origin_build hpacket
    have hpost := bookOf_post { c with curSeq := c.curSeq + 1, curSendId := c.curSendId + 1 } packet
      (c.curSendId + 1) (opt.getD defaultSendOpt) callback calls queue
    have hstep := Book.Step.accept (c.bookOf calls queue) packet.origin cmd horigin
    exact ReflTransGen.single (hpost.symm ▸ hstep)

theorem turns_userCall (c : Ctx Io) {call : UserCall} (h : call ≠ .stop) :
    c.Turns (c.userCall call) := by
  cases call with
  | sendReqAsync cmd reqBuf reqLen opt callback => exact turns_sendReqAsync ..
  | sendCancel sendId => exact turns_emit c rfl
  | subscribeNotification cmd callback => exact turns_emit c rfl
  | unsubscribeNotification cmd => exact turns_emit c rfl
  | start host port => exact turns_startImpl c host port
  | stop => exact absurd rfl h

theorem turns_foldl_userCall {calls : List UserCall} (h : .stop ∉ calls) (c : Ctx Io) :
    c.Turns (calls.foldl userCall c) := by
  induction calls generalizing c with
  | nil => exact Turns.refl c
  | cons call calls ih =>
    have hne : call ≠ .stop := fun heq => h (heq ▸ List.mem_cons_self)
    exact (turns_userCall c hne).trans (ih (fun hin => h (List.mem_cons_of_mem _ hin)) _)

theorem turns_runCallback {c : Ctx Io} (h : c.Calm) : c.Turns c.runCallback := by
  unfold runCallback
  split
  · exact Turns.refl c
  · rename_i run rest hscript
    have hstop : .stop ∉ run.calls := h run (by rw [hscript]; exact List.mem_cons_self)
    have hfold := turns_foldl_userCall hstop { c with script := rest }
    have hrest : rest <:+ c.script := by
      rw [hscript]
      exact List.suffix_cons ..
    exact ⟨hfold.writePackets, hfold.script.trans hrest, hfold.steps⟩

theorem turns_doRecvNotificationCallback {c : Ctx Io} (h : c.Calm) (callback : Callback)
    (packet : SharedPacket) : c.Turns (c.doRecvNotificationCallback callback packet) :=
  (turns_emit c rfl).trans
    (turns_runCallback (c := c.emit (.recvNotificationCallback callback packet)) h)

/-! ### Packets -/

theorem turns_processPushPacket {c : Ctx Io} (h : c.Calm) (packet : SharedPacket) :
    c.Turns (c.processPushPacket packet) := by
  have hack := turns_ackPushPacket c packet
  rw [processPushPacket]
  generalize c.ackPushPacket packet = d at hack ⊢
  generalize d.tracker.onReceivePacket (UInt64.ofNat d.now.tick) packet.cmd packet.seq = received
  have htracker : c.Turns { d with tracker := received.2 } :=
    ⟨hack.writePackets, hack.script, hack.steps⟩
  simp only
  split
  · exact htracker
  split
  · exact htracker
  · exact htracker.trans
      (turns_doRecvNotificationCallback (h.of_suffix htracker.script) _ packet)

/-- A response ends the request that it answers, before the user is told. -/
theorem books_processResponsePacket {c : Ctx Io} (h : c.Calm) {packet : SharedPacket}
    (hpush : packet.isPush = false) (hin : packet.packet ∈ c.env.trace.filterMap Effect.packet?) :
    c.Books (c.processResponsePacket packet) := by
  rw [processResponsePacket]
  split
  · exact (Turns.refl c).books
  · rename_i it hit
    have hrun := turns_runCallback (c := { c with
      writePackets := c.writePackets.eraseP (matchesPacket packet) }.emit
        (.sendReqCallback it 0 packet)) h
    have htold : c.Books ({ c with
        writePackets := c.writePackets.eraseP (matchesPacket packet) }.emit
          (.sendReqCallback it 0 packet)) := by
      exact Books.single rfl (fun calls =>
        ⟨_, bookOf_callback _ it 0 packet calls _, .answer (c.book calls) it packet hit hpush hin⟩)
    exact htold.trans hrun.books

theorem books_dispatchPacket {c : Ctx Io} (h : c.Calm) {packet : SharedPacket}
    (hin : packet.packet ∈ c.env.trace.filterMap Effect.packet?) :
    c.Books (c.dispatchPacket packet) := by
  rw [dispatchPacket]
  split
  · exact (turns_processPushPacket h packet).books
  · rename_i hpush
    exact books_processResponsePacket h (by simpa using hpush) hin

theorem books_processPacket {c : Ctx Io} (h : c.Calm) : c.Books c.processPacket := by
  refine (receiver (E := Io)).processPacket_invariant (P := fun d => c.Books d) ?_ ?_ _
    (Turns.refl c).books
  · exact fun s hs => ⟨hs.script, hs.steps⟩
  · intro s p _ hs
    have hmark : s.Books ((receiver.consumed s).emit (.recvPacket (receiver.frameItems s p) p)) := by
      exact Books.single rfl (fun calls =>
        ⟨_, bookOf_recvPacket (receiver.consumed s) _ p calls _, .receive (s.book calls) p⟩)
    have hto := hs.trans hmark
    refine hto.trans (books_dispatchPacket (h.of_suffix hto.script) ?_)
    show p ∈ (s.env.trace ++ [Effect.recvPacket _ p]).filterMap Effect.packet?
    rw [List.filterMap_append]
    exact List.mem_append_right _ (List.mem_singleton.mpr rfl)

theorem books_onReadCompleted {c : Ctx Io} (h : c.Calm) (ec : Bool) (length : Nat) :
    c.Books (c.onReadCompleted ec length) := by
  have hflag : c.Turns { c with readPending := false } := ⟨rfl, List.suffix_refl _, fun _ _ => .refl⟩
  rw [onReadCompleted]
  cases ec with
  | true => exact (hflag.trans (turns_doClose _)).books
  | false =>
    refine Books.trans ?_ (turns_doReadPacket _).books
    split
    · have hproc := books_processPacket
        (c := { c with readPending := false, readBuf := c.readBuf.commit length }) h
      exact ⟨hproc.script, hproc.steps⟩
    · exact hflag.books

/-! ### The periodic timer -/

theorem turns_doReconnectCheck (c : Ctx Io) (curTimePoint : TimePoint) :
    c.Turns (c.doReconnectCheck curTimePoint) := by
  rw [doReconnectCheck]
  split
  · exact Turns.refl c
  split
  · exact Turns.refl c
  split
  · exact Turns.refl c
  · exact turns_doConnect c

/-- The sweep.  What a callback does comes after the step that ends its request,
although the entry is erased only when the callback has returned. -/
theorem books_resendFrom (curTimePoint : TimePoint) (visited rest : List SendingPacketInfo)
    {c : Ctx Io} (h : c.Calm) (hw : c.writePackets = visited ++ rest) :
    c.Books (resendFrom curTimePoint visited rest c) := by
  induction rest generalizing visited c with
  | nil =>
    rw [resendFrom]
    exact (Turns.refl c).books
  | cons it rest ih =>
    rw [resendFrom]
    split
    · exact ih (visited ++ [it]) h (by rw [hw, List.append_assoc, List.singleton_append])
    split
    · have hrun := turns_runCallback (c := c.emit (.sendReqCallback it (-1) it.packet.toSharedPacket)) h
      have hkept : it ∈ (c.doSendReqCallback it (-1) it.packet.toSharedPacket).writePackets := by
        have hsame : (c.doSendReqCallback it (-1) it.packet.toSharedPacket).writePackets = c.writePackets :=
          hrun.writePackets
        rw [hsame, hw]
        exact List.mem_append_right _ List.mem_cons_self
      have hdone : c.Books { c.doSendReqCallback it (-1) it.packet.toSharedPacket with
          writePackets := visited ++ rest } := by
        refine ⟨hrun.script, fun calls => ?_⟩
        have hend := bookOf_callback c it (-1) it.packet.toSharedPacket calls (visited ++ rest)
        have hstep := Book.Step.giveUp (c.book calls) visited rest it hw
        exact (ReflTransGen.single (hend.symm ▸ hstep)).trans (hrun.steps calls (visited ++ rest))
      simp only
      rw [if_pos hkept]
      exact hdone.trans (ih visited (h.of_suffix hdone.script) rfl)
    · have hsent : c.Books { c with writePackets := visited ++
          { it with curTries := it.curTries + 1, lastSendTimePoint := curTimePoint } :: rest } :=
        ⟨List.suffix_refl _, fun calls =>
          ReflTransGen.single (Book.Step.resend (c.book calls) visited rest it _ hw rfl)⟩
      have hwrite := turns_doWritePacket { c with writePackets := visited ++
        { it with curTries := it.curTries + 1, lastSendTimePoint := curTimePoint } :: rest }
        (some it.packet.toSharedPacket)
      refine (hsent.trans hwrite.books).trans (ih _ (h.of_suffix hwrite.script) ?_)
      rw [hwrite.writePackets, List.append_assoc, List.singleton_append]

theorem turns_doHeartbeatCheck (c : Ctx Io) (curTimePoint : TimePoint) :
    c.Turns (c.doHeartbeatCheck curTimePoint) := by
  rw [doHeartbeatCheck]
  split
  · exact Turns.refl c
  split
  · exact Turns.refl c
  · have hdraw : c.Turns { c with curSeq := c.curSeq + 1 } :=
      ⟨rfl, List.suffix_refl _, fun _ _ => ReflTransGen.single (.drawSeq _)⟩
    exact hdraw.trans (turns_doWritePacket ..)

theorem books_onPriodicallyTimer {c : Ctx Io} (h : c.Calm) : c.Books c.onPriodicallyTimer := by
  have hreconnect := turns_doReconnectCheck c c.now
  have hsweep := books_resendFrom c.now [] (c.doReconnectCheck c.now).writePackets
    (h.of_suffix hreconnect.script) rfl
  exact (hreconnect.books.trans hsweep).trans (turns_doHeartbeatCheck _ _).books

theorem turns_rescheduleTimer (c : Ctx Io) (timerId : UInt32) :
    c.Turns (c.rescheduleTimer timerId) := by
  rw [rescheduleTimer]
  generalize c.timer.rescheduleTimer timerId = r
  have htimer : c.Turns { c with timer := r.1 } := .of_eq rfl rfl (fun _ _ => rfl)
  split
  · exact htimer
  · exact htimer.trans (turns_emit _ rfl)

theorem books_onTimer {c : Ctx Io} (h : c.Calm) (timerId : UInt32) (ec : Bool) :
    c.Books (c.onTimer timerId ec) := by
  rw [onTimer]
  split
  · exact (Turns.refl c).books
  split
  · exact (Turns.refl c).books
  · exact (books_onPriodicallyTimer h).trans (turns_rescheduleTimer _ timerId).books

/-! ### Posted functions -/

theorem bookOf_foldl_dropped (infos : List SendingPacketInfo) (c : Ctx Io) (calls : List SendCall)
    (queue : List SendingPacketInfo) :
    (infos.foldl (fun c info => c.emit (.dropped info)) c).bookOf calls queue =
      { c.bookOf calls queue with
        ended := (c.bookOf calls queue).ended ++ infos.map (fun info => (.dropped, info.request)) } ∧
    (infos.foldl (fun c info => c.emit (.dropped info)) c).script = c.script := by
  induction infos generalizing c with
  | nil => exact ⟨by simp, rfl⟩
  | cons info infos ih =>
    obtain ⟨hbook, hscript⟩ := ih (c.emit (.dropped info))
    refine ⟨?_, hscript⟩
    rw [List.foldl_cons, hbook, bookOf_dropped]
    simp

theorem books_stopImpl (c : Ctx Io) : c.Books c.stopImpl := by
  have htimer : c.Turns { c.stopTimer c.checkTimerId with checkTimerId := 0 } := by
    have h := turns_emit c (e := .post (.stopTimerImpl c.checkTimerId)) rfl
    exact ⟨h.writePackets, h.script, h.steps⟩
  have hmark := htimer.trans (turns_emit _ (e := .stopImpl c.started c.connectState) rfl)
  have hclose : c.Turns c.endConnection := by
    have h := hmark.trans (turns_doClose _)
    exact ⟨h.writePackets, h.script, h.steps⟩
  have hfold := bookOf_foldl_dropped c.endConnection.writePackets c.endConnection
  exact hclose.books.trans (Books.single (hfold [] []).2 (fun calls =>
    ⟨_, (hfold calls []).1, .dropAll (c.endConnection.book calls)⟩))

theorem books_sendCancelImpl (c : Ctx Io) (sendId : UInt32) :
    c.Books (c.sendCancelImpl sendId) := by
  rw [sendCancelImpl]
  split
  · exact (Turns.refl c).books
  · rename_i it hit
    exact Books.single rfl (fun calls =>
      ⟨_, bookOf_cancelled _ it calls _, .cancel (c.book calls) sendId it hit⟩)

/-- A posted function, other than the one that queues a request. -/
theorem books_runTask (c : Ctx Io) {task : Task} (h : Handler.request? (.task task) = none) :
    c.Books (c.runTask task) := by
  cases task with
  | startImpl host port => exact (turns_startImpl c host port).books
  | stopImpl => exact books_stopImpl c
  | sendReqAsyncImpl packet sendDraw opt callback => exact absurd h (by simp [Handler.request?])
  | sendCancelImpl sendId => exact books_sendCancelImpl c sendId
  | subscribeNotificationImpl cmd callback =>
    exact Turns.books ⟨rfl, List.suffix_refl _, fun _ _ => ReflTransGen.refl⟩
  | unsubscribeNotificationImpl cmd =>
    exact Turns.books ⟨rfl, List.suffix_refl _, fun _ _ => ReflTransGen.refl⟩
  | startTimerImpl timerId delay interval =>
    rw [runTask, startTimerImpl]
    generalize c.timer.startTimerImpl timerId () delay interval = r
    have htimer : c.Turns { c with timer := r.1 } := .of_eq rfl rfl (fun _ _ => rfl)
    split
    · exact htimer.books
    · exact (htimer.trans (turns_emit _ rfl)).books
  | stopTimerImpl timerId =>
    rw [runTask, stopTimerImpl]
    generalize c.timer.stopTimerImpl timerId = r
    have htimer : c.Turns { c with timer := r.1 } := .of_eq rfl rfl (fun _ _ => rfl)
    split
    · exact (htimer.trans (turns_emit _ rfl)).books
    · exact htimer.books

/-- A handler, other than the task that queues a request. -/
theorem books_runHandler {c : Ctx Io} (h : c.Calm) {g : Handler} (hg : g.request? = none) :
    c.Books (c.runHandler g) := by
  cases g with
  | task task => exact books_runTask c hg
  | wait timerId ec => exact books_onTimer h timerId ec
  | readSome tag ec length => exact books_onReadCompleted h ec length
  | write tag ec =>
    cases ec with
    | true => exact (turns_doClose c).books
    | false => exact (Turns.refl c).books
  | connect tag ec =>
    cases ec with
    | true => exact Turns.books ⟨rfl, List.suffix_refl _, fun _ _ => ReflTransGen.refl⟩
    | false =>
      have hread := turns_doReadPacket { c with connectState := .connected }
      exact Turns.books ⟨hread.writePackets, hread.script, hread.steps⟩

end Ctx

/-! ### Whole runs -/

/-- A handler that carries no request is queued. -/
theorem Io.book_queued {io jo : Io} {g : Handler} (hr : jo.ready = io.ready ++ [g])
    (ht : jo.trace = io.trace) (hg : g.request? = none) (calls : List SendCall)
    (queue : List SendingPacketInfo) (curSeq curSendId : Nat) :
    jo.book calls queue curSeq curSendId = io.book calls queue curSeq curSendId := by
  have hposted : jo.ready.filterMap Handler.request? = io.ready.filterMap Handler.request? := by
    rw [hr, List.filterMap_append, List.filterMap_cons_none hg, List.filterMap_nil, List.append_nil]
  simp only [Io.book, hposted, ht]

namespace World

def book (w : World) : Book :=
  w.io.book w.sendCalls w.client.writePackets w.client.curSeq w.client.curSendId

/-- The books go on from `w` to `v`. -/
abbrev Books (w v : World) : Prop := ReflTransGen Book.Step w.book v.book

theorem books_of_eq {w v : World} (h : v.book = w.book) : w.Books v := by rw [Books, h]

theorem books_emit (w : World) {effect : Effect} (h : effect.isAside = true) :
    w.Books (w.emit effect) := books_of_eq (Io.book_perform_aside _ h ..)

/-- An operation completes. -/
theorem books_queued {w : World} {g : Handler} (hg : g.request? = none) {client : Client} {io : Io}
    (hc : client.writePackets = w.client.writePackets ∧ client.curSeq = w.client.curSeq ∧
      client.curSendId = w.client.curSendId)
    (hr : io.ready = w.io.ready ++ [g]) (ht : io.trace = w.io.trace) :
    w.Books { w with client := client, io := io } := by
  refine books_of_eq ?_
  show io.book _ client.writePackets client.curSeq client.curSendId = _
  rw [hc.1, hc.2.1, hc.2.2]
  exact Io.book_queued hr ht hg ..

/-- The next handler runs. -/
theorem books_run {w : World} {g : Handler} {rest : List Handler} (hr : w.io.ready = g :: rest)
    {script : List CallbackRun} (h : ∀ run ∈ script, .stop ∉ run.calls) :
    w.Books (w.leave
      ((({ w with io := { w.io with ready := rest } } : World).enter script).runHandler g)) := by
  cases hg : g.request? with
  | none =>
    have hpop : w.book = (({ w with io := { w.io with ready := rest } } : World).enter script).book
        w.sendCalls := by
      simp only [book, Io.book, hr, List.filterMap_cons_none hg]
      rfl
    have hrun := (Ctx.books_runHandler (c := ({ w with io := { w.io with ready := rest } } :
      World).enter script) h hg).steps w.sendCalls
    rw [Books, hpop]
    exact hrun
  | some r =>
    cases g with
    | task task =>
      cases task with
      | sendReqAsyncImpl packet sendDraw opt callback =>
        have hhead : w.book.posted = r :: rest.filterMap Handler.request? := by
          show w.io.ready.filterMap Handler.request? = _
          rw [hr, List.filterMap_cons_some hg]
        obtain rfl : (⟨packet.origin, sendDraw⟩ : Request) = r := Option.some.inj hg
        have henqueue := Book.Step.enqueue w.book ⟨packet, opt, sendDraw, callback, 1, w.now⟩ _ hhead
        have hwrite := Ctx.turns_doWritePacket { (({ w with io := { w.io with ready := rest } } :
          World).enter script) with
            writePackets := w.client.writePackets ++ [⟨packet, opt, sendDraw, callback, 1, w.now⟩] }
          (some packet.toSharedPacket)
        exact (ReflTransGen.single henqueue).trans (hwrite.books.steps w.sendCalls)
      | _ => exact absurd hg (by simp [Handler.request?])
    | _ => exact absurd hg (by simp [Handler.request?])

/-- One event. -/
theorem books_step {w v : World} {e : Event} (hs : w.step e = some v)
    (h : ∀ script, e = .run script → ∀ run ∈ script, .stop ∉ run.calls) : w.Books v := by
  cases e with
  | sendDrawSeq cmd reqBuf reqLen opt callback =>
    simp only [step] at hs
    split at hs
    · exact Option.some.inj hs ▸ ReflTransGen.single (.drawSeq w.book)
    · rename_i packet hpacket
      refine Option.some.inj hs ▸ ReflTransGen.single ?_
      exact .call w.book ⟨packet, opt.getD defaultSendOpt, callback, none⟩ cmd
        (RequestPacket.origin_build hpacket) rfl
  | sendDrawId call =>
    simp only [step] at hs
    split at hs
    · rename_i packet opt callback hcall
      exact Option.some.inj hs ▸
        ReflTransGen.single (.drawId w.book call ⟨packet, opt, callback, none⟩ hcall rfl)
    · exact absurd hs (by simp)
  | sendPost call =>
    simp only [step] at hs
    split at hs
    · rename_i packet opt callback sendDraw hcall
      have hpost := Ctx.bookOf_post (w.enter []) packet sendDraw opt callback
        (w.sendCalls.eraseIdx call) w.client.writePackets
      have hstep := Book.Step.post w.book call ⟨packet, opt, callback, some sendDraw⟩ sendDraw hcall rfl
      have hbook : v.book = _ := (congrArg World.book (Option.some.inj hs)).symm.trans hpost
      rw [Books, hbook]
      exact ReflTransGen.single hstep
    · exact absurd hs (by simp)
  | sendCancel sendId => exact Option.some.inj hs ▸ books_emit w rfl
  | subscribeNotification cmd callback => exact Option.some.inj hs ▸ books_emit w rfl
  | unsubscribeNotification cmd => exact Option.some.inj hs ▸ books_emit w rfl
  | start host port => exact Option.some.inj hs ▸ books_emit w rfl
  | stopTest =>
    simp only [step] at hs
    split at hs
    · exact Option.some.inj hs ▸ books_of_eq rfl
    · exact Option.some.inj hs ▸ books_of_eq rfl
  | stopClear =>
    simp only [step] at hs
    split at hs
    · exact absurd hs (by simp)
    · exact Option.some.inj hs ▸ books_of_eq rfl
  | stopPost =>
    simp only [step] at hs
    split at hs
    · exact absurd hs (by simp)
    · exact Option.some.inj hs ▸ books_emit { w with stopCleared := w.stopCleared - 1 } rfl
  | connected =>
    obtain ⟨tag, -, rfl⟩ := Option.map_eq_some_iff.mp hs
    exact books_queued (g := .connect tag false) rfl ⟨rfl, rfl, rfl⟩ rfl rfl
  | connectFailed =>
    obtain ⟨tag, -, rfl⟩ := Option.map_eq_some_iff.mp hs
    exact books_queued (g := .connect tag true) rfl ⟨rfl, rfl, rfl⟩ rfl rfl
  | received op bytes =>
    simp only [step] at hs
    split at hs
    · exact absurd hs (by simp)
    rename_i tag slab _
    split at hs
    · exact Option.some.inj hs ▸
        books_queued (g := .readSome tag false bytes.length) rfl ⟨rfl, rfl, rfl⟩ rfl rfl
    · exact absurd hs (by simp)
  | readFailed op =>
    obtain ⟨r, -, rfl⟩ := Option.map_eq_some_iff.mp hs
    exact books_queued (g := .readSome r.1 true 0) rfl ⟨rfl, rfl, rfl⟩ rfl rfl
  | written op =>
    obtain ⟨tag, -, rfl⟩ := Option.map_eq_some_iff.mp hs
    exact books_queued (g := .write tag false) rfl ⟨rfl, rfl, rfl⟩ rfl rfl
  | writeFailed op =>
    obtain ⟨tag, -, rfl⟩ := Option.map_eq_some_iff.mp hs
    exact books_queued (g := .write tag true) rfl ⟨rfl, rfl, rfl⟩ rfl rfl
  | expired wait =>
    obtain ⟨id, -, rfl⟩ := Option.map_eq_some_iff.mp hs
    exact books_queued (g := .wait id false) rfl ⟨rfl, rfl, rfl⟩ rfl rfl
  | advance time => exact Option.some.inj hs ▸ books_of_eq rfl
  | run script =>
    simp only [step] at hs
    split at hs
    · exact absurd hs (by simp)
    · rename_i g rest hr
      exact Option.some.inj hs ▸ books_run hr (h script rfl)

/-- No callback of the run calls `stop`. -/
def Calm (es : List Event) : Prop :=
  ∀ script, .run script ∈ es → ∀ run ∈ script, .stop ∉ run.calls

theorem good_new : new.book.Good := by
  refine ⟨List.Perm.refl _, ⟨List.nodup_nil, ?_⟩, ⟨List.nodup_nil, ?_⟩, ?_⟩
  · exact fun n hn => absurd hn List.not_mem_nil
  · exact fun n hn => absurd hn List.not_mem_nil
  · exact fun info result packet hin => absurd hin List.not_mem_nil

theorem good_run {es : List Event} {w : World} (hrun : Run.run step new es = some w)
    (hcalm : Calm es) : w.book.Good := by
  have hcalm' : ∀ e ∈ es, ∀ script, e = .run script → ∀ run ∈ script, .stop ∉ run.calls :=
    fun e he script heq => hcalm script (heq ▸ he)
  exact Run.run_invariant (I := fun w : World => w.book.Good)
    (fun s e t hs he hst => hs.steps (books_step hst he)) good_new
    (Run.along_of_forall hcalm' new) hrun

/-- A completed request was told to the user, with that result. -/
theorem callback_of_completed {w : World} {result : Int} {r : Request}
    (h : (.completed result, r) ∈ w.book.ended) :
    ∃ info packet, (info, result, packet) ∈ w.book.callbacks ∧ info.request = r := by
  obtain ⟨effect, hin, heq⟩ := List.mem_filterMap.mp h
  cases effect with
  | sendReqCallback info result' packet =>
    obtain ⟨hresult, hr⟩ := Prod.mk.inj (Option.some.inj heq)
    obtain rfl := Status.completed.inj hresult
    exact ⟨info, packet, List.mem_filterMap.mpr ⟨_, hin, rfl⟩, hr⟩
  | cancelled info => exact absurd heq (by simp [Effect.ended?])
  | dropped info => exact absurd heq (by simp [Effect.ended?])
  | _ => exact absurd heq (by simp [Effect.ended?])

/-- How a request can end. -/
theorem status_of_ended {w : World} (hgood : w.book.Good) {s : Status} {r : Request}
    (h : (s, r) ∈ w.book.ended) :
    s ∈ [Status.posted, .queued, .completed 0, .completed (-1), .cancelled, .dropped] := by
  cases s with
  | completed result =>
    obtain ⟨info, packet, hin, -⟩ := callback_of_completed h
    rcases hgood.answered info result packet hin with ⟨rfl, -⟩ | ⟨rfl, -⟩ <;> simp
  | posted => simp
  | queued => simp
  | cancelled => simp
  | dropped => simp

theorem callbacks_sublist (trace : List Effect) :
    ((trace.filterMap Effect.callback?).map (fun c => c.1.request)).Sublist
      ((trace.filterMap Effect.ended?).map Prod.snd) := by
  induction trace with
  | nil => exact List.Sublist.refl _
  | cons effect trace ih =>
    cases effect with
    | sendReqCallback info result packet => exact ih.cons_cons info.request
    | cancelled info => exact ih.cons info.request
    | dropped info => exact ih.cons info.request
    | _ => exact ih

/-- A `send_cancel` removes the request of that id, if ids are not used twice. -/
theorem cancel_removes {w v : World} (hnodup : (w.client.writePackets.map SendingPacketInfo.sendId).Nodup)
    {sendId : UInt32} {rest : List Handler} {script : List CallbackRun}
    (hr : w.io.ready = .task (.sendCancelImpl sendId) :: rest)
    (hs : w.step (.run script) = some v) {info : SendingPacketInfo}
    (hin : info ∈ w.client.writePackets) (hid : info.sendId = sendId) :
    (.cancelled, info.request) ∈ v.book.ledger ∧
      ∀ info' ∈ v.client.writePackets, info'.sendId ≠ sendId := by
  cases hfind : w.client.writePackets.find? (fun it => it.sendId == sendId) with
  | none =>
    have hno := List.find?_eq_none.mp hfind info hin
    exact absurd (beq_iff_eq.mpr hid) hno
  | some it =>
    have hit : it.sendId = sendId := beq_iff_eq.mp (List.find?_some hfind :)
    obtain rfl : it = info :=
      List.inj_on_of_nodup_map hnodup (List.mem_of_find?_eq_some hfind) hin (hit.trans hid.symm)
    have hv := run_eq_some hs hr
    simp only [Ctx.runHandler, Ctx.runTask, Ctx.sendCancelImpl, enter, hfind] at hv
    rw [hv]
    refine ⟨List.mem_append_right _ (List.mem_append_right _ ?_), fun info' hin' heq => ?_⟩
    · refine List.mem_filterMap.mpr ⟨.cancelled it, ?_, rfl⟩
      exact List.mem_append_right _ (List.mem_singleton.mpr rfl)
    · have hperm := (Ledger.perm_cons_eraseP hfind).map SendingPacketInfo.sendId
      have hout := (List.nodup_cons.mp (hperm.nodup_iff.mp hnodup)).1
      exact hout (List.mem_map.mpr ⟨info', hin', heq.trans hit.symm⟩)

/-- **The life of a request.**  In every run in which no callback calls `stop`,
each accepted request is in one place of the book, and each callback was the one
of a request that is completed with that result, with 0 only for a response of
the same `cmd` and `seq`.  While fewer than `2 ^ 32` numbers are drawn, the
pending requests differ in `seq` and in their ids, and a cancel removes its own. -/
theorem request_lifecycle {es : List Event} {w : World} (hrun : Run.run step new es = some w)
    (hcalm : Calm es) :
    (∀ r ∈ w.book.accepted,
      ∃ s ∈ [Status.posted, .queued, .completed 0, .completed (-1), .cancelled, .dropped],
        w.book.ledger.count (s, r) = 1 ∧ ∀ s', (s', r) ∈ w.book.ledger → s' = s) ∧
    (∀ s r, (s, r) ∈ w.book.ledger → r ∈ w.book.accepted) ∧
    (w.book.callbacks.map (fun c => c.1.request)).Nodup ∧
    (∀ info result packet, (info, result, packet) ∈ w.book.callbacks →
      (.completed result, info.request) ∈ w.book.ledger ∧
      (result = 0 → packet.isPush = false ∧ packet.cmd = info.packet.cmd ∧
        packet.seq = info.packet.seq ∧ packet.packet ∈ w.book.packets)) ∧
    ((∀ info ∈ w.client.writePackets, w.client.curSeq < info.packet.origin.draw + 2 ^ 32 ∧
        w.client.curSendId < info.sendDraw + 2 ^ 32) →
      (w.client.writePackets.map (fun info => info.packet.seq)).Nodup ∧
      (w.client.writePackets.map SendingPacketInfo.sendId).Nodup ∧
      ∀ (sendId : UInt32) (rest : List Handler) (script : List CallbackRun) (v : World),
        w.io.ready = .task (.sendCancelImpl sendId) :: rest → w.step (.run script) = some v →
        ∀ info ∈ w.client.writePackets, info.sendId = sendId →
          (.cancelled, info.request) ∈ v.book.ledger ∧
            ∀ info' ∈ v.client.writePackets, info'.sendId ≠ sendId) := by
  have hgood := good_run hrun hcalm
  refine ⟨?_, ?_, ?_, ?_, ?_⟩
  · intro r hr
    obtain ⟨s, hcount, honly⟩ := hgood.one_place hr
    refine ⟨s, ?_, hcount, honly⟩
    have hin : (s, r) ∈ w.book.ledger := List.count_pos_iff.mp (by omega)
    rcases List.mem_append.mp hin with hin | hin
    · obtain ⟨_, -, heq⟩ := List.mem_map.mp hin
      simp [← (Prod.mk.inj heq).1]
    rcases List.mem_append.mp hin with hin | hin
    · obtain ⟨_, -, heq⟩ := List.mem_map.mp hin
      simp [← (Prod.mk.inj heq).1]
    · exact status_of_ended hgood hin
  · intro s r hin
    exact hgood.balance.mem_iff.mpr (List.mem_map.mpr ⟨_, hin, rfl⟩)
  · have hended : (w.book.ended.map Prod.snd).Nodup := by
      have hall := hgood.balance.nodup_iff.mp hgood.nodup
      rw [Book.map_snd_ledger] at hall
      exact List.Nodup.of_append_right (List.Nodup.of_append_right hall)
    exact hended.sublist (callbacks_sublist w.io.trace)
  · intro info result packet hin
    refine ⟨?_, fun h0 => ?_⟩
    · obtain ⟨effect, hmem, heq⟩ := List.mem_filterMap.mp hin
      cases effect with
      | sendReqCallback info' result' packet' =>
        obtain ⟨rfl, rfl, rfl⟩ : info' = info ∧ result' = result ∧ packet' = packet := by
          simpa [Effect.callback?] using heq
        refine List.mem_append_right _ (List.mem_append_right _ ?_)
        exact List.mem_filterMap.mpr ⟨_, hmem, rfl⟩
      | _ => exact absurd heq (by simp [Effect.callback?])
    · rcases hgood.answered info result packet hin with ⟨-, h⟩ | ⟨h, -⟩
      · exact h
      · rw [h0] at h
        exact absurd h (by decide)
  · intro hwindow
    have hids := hgood.nodup_sendId (fun info hin => (hwindow info hin).2)
    exact ⟨hgood.nodup_seq (fun info hin => (hwindow info hin).1), hids,
      fun _ _ _ _ hr hs _ => cancel_removes hids hr hs⟩

/-- A request is sent, and its response arrives twice. -/
def answeredTwice : List Event :=
  let response := (Packet.new 7 1 false (buildHeader 7 1 false 0) none 0).data
  [.start "host" 1, .run [], .connected, .run [], .run [], .sendDrawSeq 7 none 0 none 0,
    .sendDrawId 0, .sendPost 0, .run [], .received 0 response, .run [], .received 0 response, .run []]

/-- Its callback runs once. -/
theorem request_lifecycle_answered :
    ∃ w, Run.run step new answeredTwice = some w ∧
      w.book.ledger.count (.completed 0, ⟨.request 1 7, 1⟩) = 1 := by
  have hrun : (Run.run step new answeredTwice).map (fun w => (w.book.accepted,
      decide ((Status.completed 0, ⟨.request 1 7, 1⟩) ∈ w.book.ledger))) =
      some ([⟨.request 1 7, 1⟩], true) := by
    decide +kernel
  have hcalm : Calm answeredTwice := by
    intro script hin run hmem
    obtain rfl : script = [] := by simpa [answeredTwice] using hin
    exact absurd hmem List.not_mem_nil
  obtain ⟨w, hw, heq⟩ := Option.map_eq_some_iff.mp hrun
  obtain ⟨hacc, hin⟩ := Prod.mk.inj heq
  obtain ⟨s, -, hcount, honly⟩ := (request_lifecycle hw hcalm).1 ⟨.request 1 7, 1⟩ (by simp [hacc])
  obtain rfl := honly _ (of_decide_eq_true hin)
  exact ⟨w, hw, hcount⟩

end World

end Ibase
