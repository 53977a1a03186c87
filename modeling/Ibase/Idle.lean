import Ibase.Lifecycle

/-!
# What the client does without sending by itself

A request is tried in two places, when it is queued and in the sweep, and a heartbeat
is sent in one.  Every other function leaves the entries of `write_packets_` as they
are, though some go, and puts nothing on the wire but acknowledgements
(`Ctx.Idles`), whatever the callbacks do.  What the user does in a callback puts
nothing there and calls nobody back (`Ctx.Mutes`).
-/

namespace Ibase

/-- Is this neither a request or a heartbeat on the wire, nor the end of a request
without a response, nor a lost iterator? -/
def Effect.isIdle : Effect → Bool
  | .asyncWrite packet _ =>
    match packet.origin with
    | .request .. => false
    | .heartbeat _ => false
    | _ => true
  | .sendReqCallback _ result _ => result == 0
  | .danglingIterator => false
  | _ => true

/-- Does this effect neither write nor call back? -/
def Effect.isMute : Effect → Bool
  | .asyncWrite .. | .sendReqCallback .. | .danglingIterator => false
  | _ => true

theorem Effect.isIdle_of_isMute {e : Effect} (h : e.isMute = true) : e.isIdle = true := by
  cases e <;> first | rfl | exact Bool.noConfusion h

/-- Is this neither the task that queues a request nor the timer? -/
def Handler.isQuiet : Handler → Bool
  | .task (.sendReqAsyncImpl ..) => false
  | .wait _ false => false
  | _ => true

theorem Handler.request?_of_isQuiet {g : Handler} (h : g.isQuiet = true) : g.request? = none := by
  cases g with
  | task task => cases task <;> first | rfl | exact Bool.noConfusion h
  | _ => rfl

/-- The draws of the requests that are posted. -/
def Io.postedDraws (io : Io) : List Nat :=
  (io.ready.filterMap Handler.request?).map (fun r => r.origin.draw)

theorem Io.postedDraws_perform (io : Io) (effect : Effect) :
    (Platform.perform effect io : Io).postedDraws =
      io.postedDraws ++ effect.accepted?.toList.map (fun r => r.origin.draw) := by
  have hposted := congrArg Book.posted (Io.book_perform io effect [] [] 0 0)
  have hready : ((Platform.perform effect io : Io).ready.filterMap Handler.request?) =
      io.ready.filterMap Handler.request? ++ effect.accepted?.toList := hposted
  rw [postedDraws, hready, List.map_append]
  rfl

namespace Ctx

/-- `d` comes from `c` by functions that change no entry, post requests with new numbers
only, and have these effects. -/
structure Goes (P : Effect → Bool) (c d : Ctx Io) : Prop where
  queue : d.writePackets.Sublist c.writePackets
  heartbeat : d.lastHeartbeatTimepoint = c.lastHeartbeatTimepoint ∨ d.lastHeartbeatTimepoint = 0
  now : c.now ≤ d.now
  curSeq : c.curSeq ≤ d.curSeq
  posted : ∃ draws, d.env.postedDraws = c.env.postedDraws ++ draws ∧ draws.Nodup ∧
    ∀ n ∈ draws, c.curSeq < n ∧ n ≤ d.curSeq
  trace : ∃ effects, d.env.trace = c.env.trace ++ effects ∧ ∀ e ∈ effects, P e = true

/-- `d` comes from `c` by functions that try no request and send no heartbeat. -/
abbrev Idles (c d : Ctx Io) : Prop := c.Goes Effect.isIdle d

/-- `d` comes from `c` by what the user does in a callback. -/
abbrev Mutes (c d : Ctx Io) : Prop := c.Goes Effect.isMute d

namespace Goes

variable {P : Effect → Bool} {c d e : Ctx Io}

theorem of_env (hqueue : d.writePackets.Sublist c.writePackets)
    (hheartbeat : d.lastHeartbeatTimepoint = c.lastHeartbeatTimepoint ∨ d.lastHeartbeatTimepoint = 0)
    (hnow : c.now ≤ d.now) (hseq : c.curSeq ≤ d.curSeq) (henv : d.env = c.env) : c.Goes P d := by
  refine ⟨hqueue, hheartbeat, hnow, hseq, ⟨[], ?_, List.nodup_nil, ?_⟩, ⟨[], ?_, ?_⟩⟩
  · rw [henv, List.append_nil]
  · exact fun n hn => absurd hn List.not_mem_nil
  · rw [henv, List.append_nil]
  · exact fun e he => absurd he List.not_mem_nil

/-- A function that changes none of this. -/
theorem of_eq (hqueue : d.writePackets = c.writePackets)
    (hheartbeat : d.lastHeartbeatTimepoint = c.lastHeartbeatTimepoint) (hnow : d.now = c.now)
    (hseq : d.curSeq = c.curSeq) (henv : d.env = c.env) : c.Goes P d :=
  of_env (hqueue ▸ List.Sublist.refl _) (.inl hheartbeat) (Nat.le_of_eq (congrArg Fin.val hnow.symm))
    (Nat.le_of_eq hseq.symm) henv

theorem refl (c : Ctx Io) : c.Goes P c := of_eq rfl rfl rfl rfl rfl

theorem trans (h : c.Goes P d) (h' : d.Goes P e) : c.Goes P e := by
  obtain ⟨draws, hposted, hnodup, hdraws⟩ := h.posted
  obtain ⟨draws', hposted', hnodup', hdraws'⟩ := h'.posted
  obtain ⟨effects, htrace, hidle⟩ := h.trace
  obtain ⟨effects', htrace', hidle'⟩ := h'.trace
  refine ⟨h'.queue.trans h.queue, ?_, Nat.le_trans h.now h'.now, Nat.le_trans h.curSeq h'.curSeq,
    ⟨draws ++ draws', ?_, ?_, ?_⟩, ⟨effects ++ effects', ?_, ?_⟩⟩
  · rcases h'.heartbeat with heq | hzero
    · rw [heq]
      exact h.heartbeat
    · exact .inr hzero
  · rw [hposted', hposted, List.append_assoc]
  · refine List.nodup_append.mpr ⟨hnodup, hnodup', ?_⟩
    intro n hn m hm heq
    have hle := (hdraws n hn).2
    have hlt := (hdraws' m hm).1
    omega
  · intro n hn
    rcases List.mem_append.mp hn with hn | hn
    · exact ⟨(hdraws n hn).1, Nat.le_trans (hdraws n hn).2 h'.curSeq⟩
    · exact ⟨Nat.lt_of_le_of_lt h.curSeq (hdraws' n hn).1, (hdraws' n hn).2⟩
  · rw [htrace', htrace, List.append_assoc]
  · intro f hf
    rcases List.mem_append.mp hf with hf | hf
    · exact hidle f hf
    · exact hidle' f hf

theorem foldl {α : Type} {f : Ctx Io → α → Ctx Io} (hf : ∀ c a, Goes P c (f c a)) (as : List α)
    (c : Ctx Io) : c.Goes P (as.foldl f c) := by
  induction as generalizing c with
  | nil => exact refl c
  | cons a as ih => exact (hf c a).trans (ih (f c a))

theorem emit (h : c.Goes P d) {f : Effect} (hf : P f = true) (hnone : f.accepted? = none) :
    c.Goes P (d.emit f) := by
  refine h.trans ⟨List.Sublist.refl _, .inl rfl, Nat.le_refl _, Nat.le_refl _,
    ⟨[], ?_, List.nodup_nil, fun n hn => absurd hn List.not_mem_nil⟩, ⟨[f], rfl, ?_⟩⟩
  · refine (Io.postedDraws_perform d.env f).trans ?_
    rw [hnone]
    rfl
  · intro g hg
    rw [List.mem_singleton.mp hg]
    exact hf

theorem idles (h : c.Mutes d) : c.Idles d := by
  obtain ⟨effects, htrace, hmute⟩ := h.trace
  exact ⟨h.queue, h.heartbeat, h.now, h.curSeq, h.posted, effects, htrace,
    fun e he => Effect.isIdle_of_isMute (hmute e he)⟩

end Goes

/-! ### Connecting and closing -/

theorem mutes_startTimer (c : Ctx Io) (delaySeconds intervalSeconds : UInt32) :
    c.Mutes (c.startTimer delaySeconds intervalSeconds) := by
  have hdraw : c.Mutes { c with timer := { c.timer with curTimerId := c.timer.curTimerId + 1 } } :=
    .of_eq rfl rfl rfl rfl rfl
  exact hdraw.emit rfl rfl

theorem mutes_doClose (c : Ctx Io) : c.Mutes c.doClose := by
  have hmark : c.Mutes (c.emit .doClose) := (Goes.refl c).emit rfl rfl
  rw [doClose]
  simp only
  split
  · exact hmark
  split
  · have hset : c.Mutes { c.emit .doClose with
        readPending := false, connectState := .disconnected, socketOpen := false } :=
      hmark.trans (.of_eq rfl rfl rfl rfl rfl)
    exact hset.emit rfl rfl
  · exact hmark.trans (.of_eq rfl rfl rfl rfl rfl)

theorem mutes_doConnect (c : Ctx Io) : c.Mutes c.doConnect := by
  rw [doConnect]
  split
  · exact .refl c
  · have hmark : c.Mutes (c.emit (.doConnect c.readBuf.size)) := (Goes.refl c).emit rfl rfl
    have hset : c.Mutes { c.emit (.doConnect c.readBuf.size) with
        lastConnectTimepoint := c.now, connectState := .connecting, socketOpen := true } :=
      hmark.trans (.of_eq rfl rfl rfl rfl rfl)
    exact hset.emit rfl rfl

theorem mutes_startImpl (c : Ctx Io) (host : String) (port : UInt16) :
    c.Mutes (c.startImpl host port) := by
  rw [startImpl]
  split
  · exact .refl c
  · have hmark : c.Mutes (c.emit .startImpl) := (Goes.refl c).emit rfl rfl
    have hset : c.Mutes { c.emit .startImpl with started := true, host := host, port := port } :=
      hmark.trans (.of_eq rfl rfl rfl rfl rfl)
    have hconnect := hset.trans (mutes_doConnect _)
    exact (hconnect.trans (mutes_startTimer _ 1 1)).trans (.of_eq rfl rfl rfl rfl rfl)

/-- `stop_impl` drops every request. -/
theorem mutes_stopImpl (c : Ctx Io) : c.Mutes c.stopImpl := by
  have htimer : c.Mutes { c.stopTimer c.checkTimerId with checkTimerId := 0 } :=
    ((Goes.refl c).emit (f := .post (.stopTimerImpl c.checkTimerId)) rfl rfl).trans
      (.of_eq rfl rfl rfl rfl rfl)
  have hmark := htimer.emit (f := .stopImpl c.started c.connectState) rfl rfl
  have hclose : c.Mutes c.endConnection :=
    (hmark.trans (mutes_doClose _)).trans (.of_eq rfl rfl rfl rfl rfl)
  have hdropped := hclose.trans (Goes.foldl
    (f := fun (c : Ctx Io) info => c.emit (.dropped info)) (fun c info => (Goes.refl c).emit rfl rfl)
    c.endConnection.writePackets c.endConnection)
  exact hdropped.trans (.of_env (List.nil_sublist _) (.inr rfl) (Nat.le_refl _) (Nat.le_refl _) rfl)

/-! ### The user -/

/-- `send_req_async` posts a request with a number of its own. -/
theorem mutes_sendReqAsync (c : Ctx Io) (cmd : UInt32) (reqBuf : Option (List UInt8))
    (reqLen : UInt32) (opt : Option SendOpt) (callback : Callback) :
    c.Mutes (c.sendReqAsync cmd reqBuf reqLen opt callback) := by
  rw [sendReqAsync]
  simp only
  split
  · exact .of_env (List.Sublist.refl _) (.inl rfl) (Nat.le_refl _) (Nat.le_succ _) rfl
  · rename_i packet hpacket
    have horigin := RequestPacket.origin_build hpacket
    refine ⟨List.Sublist.refl _, .inl rfl, Nat.le_refl _, Nat.le_succ _,
      ⟨[c.curSeq + 1], ?_, List.nodup_singleton _, ?_⟩, ⟨[_], rfl, ?_⟩⟩
    · refine (Io.postedDraws_perform _ _).trans ?_
      show c.env.postedDraws ++ [packet.origin.draw] = _
      rw [horigin]
      rfl
    · intro n hn
      rw [List.mem_singleton.mp hn]
      exact ⟨Nat.lt_succ_self _, Nat.le_refl _⟩
    · intro e he
      rw [List.mem_singleton.mp he]
      rfl

theorem mutes_userCall (c : Ctx Io) (call : UserCall) : c.Mutes (c.userCall call) := by
  cases call with
  | sendReqAsync cmd reqBuf reqLen opt callback => exact mutes_sendReqAsync ..
  | sendCancel sendId => exact (Goes.refl c).emit rfl rfl
  | subscribeNotification cmd callback => exact (Goes.refl c).emit rfl rfl
  | unsubscribeNotification cmd => exact (Goes.refl c).emit rfl rfl
  | start host port => exact mutes_startImpl c host port
  | stop =>
    rw [userCall]
    split
    · exact .refl c
    · have hclear : c.Mutes { c with started := false } := .of_eq rfl rfl rfl rfl rfl
      exact hclear.trans (mutes_stopImpl _)

theorem mutes_runCallback (c : Ctx Io) : c.Mutes c.runCallback := by
  rw [runCallback]
  split
  · exact .refl c
  · rename_i run rest _
    have hdrop : c.Mutes { c with script := rest } := .of_eq rfl rfl rfl rfl rfl
    have hcalls := hdrop.trans (Goes.foldl mutes_userCall run.calls _)
    refine hcalls.trans (.of_env (List.Sublist.refl _) (.inl rfl) ?_ (Nat.le_refl _) rfl)
    exact TimePoint.le_later ..

/-! ### Reading, acknowledging and answering -/

theorem idles_startRead (c : Ctx Io) : c.Idles c.startRead := by
  have hset : c.Idles { c with
      readPending := true, readBuf := (c.readBuf.prepare c.readBuf.sizeToRead).2 } :=
    .of_eq rfl rfl rfl rfl rfl
  exact hset.emit rfl rfl

theorem idles_doReadPacket (c : Ctx Io) : c.Idles c.doReadPacket := by
  rcases c.doReadPacket_cases with heq | heq
  · rw [heq]
    exact .refl c
  · rw [heq]
    exact idles_startRead c

theorem idles_ackPushPacket (c : Ctx Io) (packet : SharedPacket) :
    c.Idles (c.ackPushPacket packet) := by
  rw [ackPushPacket]
  by_cases hconnected : c.isConnected = false
  · rw [if_pos hconnected]
    exact .refl c
  · rw [if_neg hconnected]
    cases hrsp : SharedPacket.build (.ack packet.origin) none 0 with
    | none => exact .refl c
    | some rsp =>
      show c.Idles (if c.isConnected = false then c else c.emit (.asyncWrite rsp c.socketOpen))
      rw [if_neg hconnected]
      refine (Goes.refl c).emit ?_ rfl
      rw [Effect.isIdle, SharedPacket.origin_build hrsp]

theorem idles_sendCancelImpl (c : Ctx Io) (sendId : UInt32) : c.Idles (c.sendCancelImpl sendId) := by
  rw [sendCancelImpl]
  split
  · exact .refl c
  · have herase : c.Idles { c with
        writePackets := c.writePackets.eraseP (fun it => it.sendId == sendId) } :=
      .of_env List.eraseP_sublist (.inl rfl) (Nat.le_refl _) (Nat.le_refl _) rfl
    exact herase.emit rfl rfl

theorem idles_processResponsePacket (c : Ctx Io) (packet : SharedPacket) :
    c.Idles (c.processResponsePacket packet) := by
  rw [processResponsePacket]
  split
  · exact .refl c
  · rename_i it _
    have herase : c.Idles { c with writePackets := c.writePackets.eraseP (matchesPacket packet) } :=
      .of_env List.eraseP_sublist (.inl rfl) (Nat.le_refl _) (Nat.le_refl _) rfl
    have htold := herase.emit (f := .sendReqCallback it 0 packet) rfl rfl
    exact htold.trans ((mutes_runCallback _).idles)

theorem idles_processPushPacket (c : Ctx Io) (packet : SharedPacket) :
    c.Idles (c.processPushPacket packet) := by
  have hack := idles_ackPushPacket c packet
  rw [processPushPacket]
  generalize c.ackPushPacket packet = d at hack ⊢
  generalize d.tracker.onReceivePacket (UInt64.ofNat d.now.tick) packet.cmd packet.seq = received
  have htracker : c.Idles { d with tracker := received.2 } := hack.trans (.of_eq rfl rfl rfl rfl rfl)
  simp only
  split
  · exact htracker
  split
  · exact htracker
  · rename_i callback _
    have htold := htracker.emit (f := .recvNotificationCallback callback packet) rfl rfl
    exact htold.trans ((mutes_runCallback _).idles)

theorem idles_dispatchPacket (c : Ctx Io) (packet : SharedPacket) :
    c.Idles (c.dispatchPacket packet) := by
  rw [dispatchPacket]
  split
  · exact idles_processPushPacket c packet
  · exact idles_processResponsePacket c packet

theorem idles_onReadCompleted (c : Ctx Io) (ec : Bool) (length : Nat) :
    c.Idles (c.onReadCompleted ec length) := by
  cases ec with
  | true =>
    have hset : c.Idles { c with readPending := false } := .of_eq rfl rfl rfl rfl rfl
    exact hset.trans (mutes_doClose _).idles
  | false =>
    refine readHandler.invariant (P := fun d => c.Idles d) ?_ ?_ ?_ ?_ length (.refl c)
    · exact fun b d hd => hd.trans (.of_eq rfl rfl rfl rfl rfl)
    · exact fun f p d hd => (hd.emit rfl rfl).trans (idles_dispatchPacket _ _)
    · exact fun n d hd => hd.trans (.of_eq rfl rfl rfl rfl rfl)
    · exact fun d hd => hd.trans (idles_startRead d)

/-! ### The timer and the posted functions -/

theorem idles_doReconnectCheck (c : Ctx Io) (curTimePoint : TimePoint) :
    c.Idles (c.doReconnectCheck curTimePoint) := by
  rw [doReconnectCheck]
  split
  · exact .refl c
  split
  · exact .refl c
  split
  · exact .refl c
  · exact (mutes_doConnect c).idles

theorem idles_rescheduleTimer (c : Ctx Io) (timerId : UInt32) :
    c.Idles (c.rescheduleTimer timerId) := by
  rw [rescheduleTimer]
  generalize c.timer.rescheduleTimer timerId = r
  have htimer : c.Idles { c with timer := r.1 } := .of_eq rfl rfl rfl rfl rfl
  split
  · exact htimer
  · exact htimer.emit rfl rfl

/-- A posted function, other than the one that queues a request. -/
theorem idles_runTask (c : Ctx Io) {task : Task} (h : Handler.request? (.task task) = none) :
    c.Idles (c.runTask task) := by
  cases task with
  | startImpl host port => exact (mutes_startImpl c host port).idles
  | stopImpl => exact (mutes_stopImpl c).idles
  | sendReqAsyncImpl packet sendDraw opt callback => cases h
  | sendCancelImpl sendId => exact idles_sendCancelImpl c sendId
  | subscribeNotificationImpl cmd callback => exact .of_eq rfl rfl rfl rfl rfl
  | unsubscribeNotificationImpl cmd => exact .of_eq rfl rfl rfl rfl rfl
  | startTimerImpl timerId delay interval =>
    rw [runTask, startTimerImpl]
    generalize c.timer.startTimerImpl timerId () delay interval = r
    have htimer : c.Idles { c with timer := r.1 } := .of_eq rfl rfl rfl rfl rfl
    split
    · exact htimer
    · exact htimer.emit rfl rfl
  | stopTimerImpl timerId =>
    rw [runTask, stopTimerImpl]
    generalize c.timer.stopTimerImpl timerId = r
    have htimer : c.Idles { c with timer := r.1 } := .of_eq rfl rfl rfl rfl rfl
    split
    · exact htimer.emit rfl rfl
    · exact htimer

/-- **A handler, other than that of the timer and the task that queues a request.** -/
theorem idles_runHandler (c : Ctx Io) {g : Handler} (hg : g.isQuiet = true) :
    c.Idles (c.runHandler g) := by
  cases g with
  | task task => exact idles_runTask c (Handler.request?_of_isQuiet hg)
  | wait timerId ec =>
    cases ec with
    | true => exact .refl c
    | false => cases hg
  | readSome tag ec length => exact idles_onReadCompleted c ec length
  | write tag ec =>
    cases ec with
    | true => exact (mutes_doClose c).idles
    | false => exact .refl c
  | connect tag ec =>
    cases ec with
    | true => exact .of_eq rfl rfl rfl rfl rfl
    | false =>
      have hset : c.Idles { c with connectState := .connected } := .of_eq rfl rfl rfl rfl rfl
      exact hset.trans (idles_doReadPacket _)

end Ctx

/-! ### Events -/

def SendCall.seqDraw (call : SendCall) : Nat := call.packet.origin.draw

namespace World

/-- The draws of the requests that are not in `write_packets_` yet. -/
def waitingDraws (w : World) : List Nat := w.sendCalls.map SendCall.seqDraw ++ w.io.postedDraws

/-- `v` comes from `w` by an event that tries no request and sends no heartbeat. -/
structure Idles (w v : World) : Prop where
  queue : v.client.writePackets.Sublist w.client.writePackets
  heartbeat : v.client.lastHeartbeatTimepoint = w.client.lastHeartbeatTimepoint ∨
    v.client.lastHeartbeatTimepoint = 0
  now : w.now ≤ v.now
  curSeq : w.client.curSeq ≤ v.client.curSeq
  waiting : ∃ draws, v.waitingDraws.Perm (w.waitingDraws ++ draws) ∧ draws.Nodup ∧
    ∀ n ∈ draws, w.client.curSeq < n ∧ n ≤ v.client.curSeq
  trace : ∃ effects, v.io.trace = w.io.trace ++ effects ∧ ∀ e ∈ effects, e.isIdle = true

variable {w v : World}

theorem Idles.of_eq (effects : List Effect)
    (hclient : v.client.writePackets = w.client.writePackets ∧
      v.client.lastHeartbeatTimepoint = w.client.lastHeartbeatTimepoint ∧
      v.client.curSeq = w.client.curSeq)
    (hnow : w.now ≤ v.now) (hwaiting : v.waitingDraws.Perm w.waitingDraws)
    (htrace : v.io.trace = w.io.trace ++ effects) (hidle : ∀ e ∈ effects, e.isIdle = true) :
    w.Idles v := by
  obtain ⟨hqueue, hheartbeat, hseq⟩ := hclient
  refine ⟨hqueue ▸ List.Sublist.refl _, .inl hheartbeat, hnow, Nat.le_of_eq hseq.symm,
    ⟨[], ?_, List.nodup_nil, fun n hn => absurd hn List.not_mem_nil⟩, effects, htrace, hidle⟩
  rw [List.append_nil]
  exact hwaiting

/-- An event that the handlers do not see. -/
theorem Idles.same (hclient : v.client.writePackets = w.client.writePackets ∧
      v.client.lastHeartbeatTimepoint = w.client.lastHeartbeatTimepoint ∧
      v.client.curSeq = w.client.curSeq)
    (hnow : w.now ≤ v.now) (hwaiting : v.waitingDraws.Perm w.waitingDraws)
    (htrace : v.io.trace = w.io.trace) : w.Idles v := by
  refine .of_eq [] hclient hnow hwaiting ?_ (fun e he => absurd he List.not_mem_nil)
  rw [htrace, List.append_nil]

theorem idles_emit (w : World) (effect : Effect) (h : effect.isIdle = true)
    (hnone : effect.accepted? = none) : w.Idles (w.emit effect) := by
  refine .of_eq [effect] ⟨rfl, rfl, rfl⟩ (Nat.le_refl _) ?_ rfl ?_
  · have hposted := Io.postedDraws_perform w.io effect
    rw [hnone, Option.toList_none, List.map_nil, List.append_nil] at hposted
    show (w.sendCalls.map _ ++ (Platform.perform effect w.io : Io).postedDraws).Perm _
    rw [hposted]
    exact .refl _
  · intro e he
    exact List.mem_singleton.mp he ▸ h

/-- An operation completes. -/
theorem idles_queued {g : Handler} (hg : g.request? = none) {client : Client} {io : Io}
    (hclient : client.writePackets = w.client.writePackets ∧
      client.lastHeartbeatTimepoint = w.client.lastHeartbeatTimepoint ∧
      client.curSeq = w.client.curSeq)
    (hready : io.ready = w.io.ready ++ [g]) (htrace : io.trace = w.io.trace) :
    w.Idles { w with client := client, io := io } := by
  have hposted : io.postedDraws = w.io.postedDraws := by
    rw [Io.postedDraws, hready, List.filterMap_append, List.filterMap_cons_none hg,
      List.filterMap_nil, List.append_nil]
    rfl
  refine .same hclient (Nat.le_refl _) ?_ htrace
  show (w.sendCalls.map _ ++ io.postedDraws).Perm _
  rw [hposted]
  exact .refl _

/-- A thread goes on in `send_req_async`. -/
theorem idles_sendPost {call : Nat} {packet : RequestPacket} {opt : SendOpt} {callback : Callback}
    {sendDraw : Nat} (hcall : w.sendCalls[call]? = some ⟨packet, opt, callback, some sendDraw⟩) :
    w.Idles ({ w with sendCalls := w.sendCalls.eraseIdx call }.emit
      (.post (.sendReqAsyncImpl packet sendDraw opt callback))) := by
  refine .of_eq [.post (.sendReqAsyncImpl packet sendDraw opt callback)] ⟨rfl, rfl, rfl⟩
    (Nat.le_refl _) ?_ rfl ?_
  · obtain ⟨hlt, heq⟩ := List.getElem?_eq_some_iff.mp hcall
    have hperm : w.sendCalls.Perm (w.sendCalls[call] :: w.sendCalls.eraseIdx call) :=
      (List.getElem_cons_eraseIdx_perm hlt).symm
    let posting : Effect := .post (.sendReqAsyncImpl packet sendDraw opt callback)
    have hposted := Io.postedDraws_perform w.io posting
    show ((w.sendCalls.eraseIdx call).map SendCall.seqDraw ++
      (Platform.perform posting w.io : Io).postedDraws).Perm _
    rw [hposted, ← List.append_assoc]
    refine List.perm_append_comm.trans ?_
    rw [← List.append_assoc, waitingDraws]
    refine List.Perm.append_right _ ?_
    have hmap := hperm.map SendCall.seqDraw
    rw [List.map_cons, heq] at hmap
    exact hmap.symm
  · intro e he
    exact List.mem_singleton.mp he ▸ rfl

theorem idles_sendDrawSeq (w : World) {packet : RequestPacket} {cmd : UInt32} {opt : SendOpt}
    {callback : Callback} (h : packet.origin = .request (w.client.curSeq + 1) cmd) :
    w.Idles { w with
      client := { w.client with curSeq := w.client.curSeq + 1 }
      sendCalls := w.sendCalls ++ [⟨packet, opt, callback, none⟩] } := by
  refine ⟨List.Sublist.refl _, .inl rfl, Nat.le_refl _, Nat.le_succ _,
    ⟨[w.client.curSeq + 1], ?_, List.nodup_singleton _, ?_⟩, [], (List.append_nil _).symm,
    fun e he => absurd he List.not_mem_nil⟩
  · show ((w.sendCalls ++ [_]).map SendCall.seqDraw ++ w.io.postedDraws).Perm
      (w.sendCalls.map SendCall.seqDraw ++ w.io.postedDraws ++ _)
    rw [List.map_append, List.append_assoc, List.append_assoc]
    refine List.Perm.append_left _ ?_
    have hdraw : SendCall.seqDraw ⟨packet, opt, callback, none⟩ = w.client.curSeq + 1 :=
      congrArg Origin.draw h
    rw [List.map_singleton, hdraw]
    exact List.perm_append_comm
  · intro n hn
    obtain rfl := List.mem_singleton.mp hn
    exact ⟨Nat.lt_succ_self _, Nat.le_refl _⟩

/-- A send id is drawn. -/
theorem idles_sendDrawId {call : Nat} {packet : RequestPacket} {opt : SendOpt} {callback : Callback}
    {sendDraw : Option Nat} (hcall : w.sendCalls[call]? = some ⟨packet, opt, callback, sendDraw⟩)
    (sendDraw' : Option Nat) : w.Idles { w with
      client := { w.client with curSendId := w.client.curSendId + 1 }
      sendCalls := w.sendCalls.set call ⟨packet, opt, callback, sendDraw'⟩ } := by
  refine .same ⟨rfl, rfl, rfl⟩ (Nat.le_refl _) ?_ rfl
  have hsame : (w.sendCalls.set call ⟨packet, opt, callback, sendDraw'⟩).map SendCall.seqDraw =
      w.sendCalls.map SendCall.seqDraw := by
    refine List.ext_getElem? (fun i => ?_)
    rw [List.getElem?_map, List.getElem?_map, List.getElem?_set]
    split
    · rename_i hi
      have hlt : call < w.sendCalls.length := (List.getElem?_eq_some_iff.mp hcall).1
      rw [← hi, hcall]
      simp only [if_pos hlt]
      rfl
    · rfl
  show (List.map _ (w.sendCalls.set call _) ++ _).Perm _
  rw [hsame]
  exact .refl _

/-- The next handler is neither that of the timer nor the task that queues a request. -/
theorem idles_run {g : Handler} {rest : List Handler} (hr : w.io.ready = g :: rest)
    (script : List CallbackRun) (hquiet : g.isQuiet = true) :
    w.Idles (w.leave
      ((({ w with io := { w.io with ready := rest } } : World).enter script).runHandler g)) := by
  have hg := Handler.request?_of_isQuiet hquiet
  have h := Ctx.idles_runHandler (({ w with io := { w.io with ready := rest } } : World).enter script)
    hquiet
  have hpop : ({ w.io with ready := rest } : Io).postedDraws = w.io.postedDraws := by
    rw [Io.postedDraws, Io.postedDraws, hr, List.filterMap_cons_none hg]
  obtain ⟨draws, hposted, hnodup, hfresh⟩ := h.posted
  refine ⟨h.queue, h.heartbeat, h.now, h.curSeq, ⟨draws, ?_, hnodup, hfresh⟩, h.trace⟩
  have hposted' : ((({ w with io := { w.io with ready := rest } } : World).enter
      script).runHandler g).env.postedDraws = w.io.postedDraws ++ draws :=
    hposted.trans (congrArg (· ++ draws) hpop)
  rw [waitingDraws, waitingDraws, List.append_assoc]
  exact .of_eq (congrArg (w.sendCalls.map SendCall.seqDraw ++ ·) hposted')

theorem idles_event {e : Event} (hs : w.step e = some v) (he : ∀ script, e ≠ .run script) :
    w.Idles v := by
  cases e with
  | sendDrawSeq cmd reqBuf reqLen opt callback =>
    simp only [step] at hs
    split at hs
    · refine Option.some.inj hs ▸ ⟨List.Sublist.refl _, .inl rfl, Nat.le_refl _,
        Nat.le_succ _, ⟨[], ?_, List.nodup_nil, fun n hn => absurd hn List.not_mem_nil⟩,
        [], (List.append_nil _).symm, fun e he => absurd he List.not_mem_nil⟩
      rw [List.append_nil]
      exact .refl _
    · rename_i packet hpacket
      exact Option.some.inj hs ▸ idles_sendDrawSeq w (RequestPacket.origin_build hpacket)
  | sendDrawId call =>
    simp only [step] at hs
    split at hs
    · rename_i packet opt callback hcall
      exact Option.some.inj hs ▸ idles_sendDrawId hcall (some (w.client.curSendId + 1))
    · exact absurd hs (by simp)
  | sendPost call =>
    simp only [step] at hs
    split at hs
    · rename_i packet opt callback sendDraw hcall
      exact Option.some.inj hs ▸ idles_sendPost hcall
    · exact absurd hs (by simp)
  | sendCancel sendId => exact Option.some.inj hs ▸ idles_emit w _ rfl rfl
  | subscribeNotification cmd callback => exact Option.some.inj hs ▸ idles_emit w _ rfl rfl
  | unsubscribeNotification cmd => exact Option.some.inj hs ▸ idles_emit w _ rfl rfl
  | start host port => exact Option.some.inj hs ▸ idles_emit w _ rfl rfl
  | stopTest =>
    simp only [step] at hs
    refine Option.some.inj hs ▸ ?_
    split
    · exact .same ⟨rfl, rfl, rfl⟩ (Nat.le_refl _) (.refl _) rfl
    · exact .same ⟨rfl, rfl, rfl⟩ (Nat.le_refl _) (.refl _) rfl
  | stopClear =>
    simp only [step] at hs
    split at hs
    · exact absurd hs (by simp)
    · exact Option.some.inj hs ▸ .same ⟨rfl, rfl, rfl⟩ (Nat.le_refl _) (.refl _) rfl
  | stopPost =>
    simp only [step] at hs
    split at hs
    · exact absurd hs (by simp)
    · have h := idles_emit { w with stopCleared := w.stopCleared - 1 } (.post .stopImpl) rfl rfl
      exact Option.some.inj hs ▸ ⟨h.queue, h.heartbeat, h.now, h.curSeq, h.waiting, h.trace⟩
  | connected =>
    obtain ⟨tag, -, rfl⟩ := Option.map_eq_some_iff.mp hs
    exact idles_queued (g := .connect tag false) rfl ⟨rfl, rfl, rfl⟩ rfl rfl
  | connectFailed =>
    obtain ⟨tag, -, rfl⟩ := Option.map_eq_some_iff.mp hs
    exact idles_queued (g := .connect tag true) rfl ⟨rfl, rfl, rfl⟩ rfl rfl
  | received op bytes =>
    simp only [step] at hs
    split at hs
    · exact absurd hs (by simp)
    rename_i tag slab _
    split at hs
    · exact Option.some.inj hs ▸
        idles_queued (g := .readSome tag false bytes.length) rfl ⟨rfl, rfl, rfl⟩ rfl rfl
    · exact absurd hs (by simp)
  | readFailed op =>
    obtain ⟨r, -, rfl⟩ := Option.map_eq_some_iff.mp hs
    exact idles_queued (g := .readSome r.1 true 0) rfl ⟨rfl, rfl, rfl⟩ rfl rfl
  | written op =>
    obtain ⟨tag, -, rfl⟩ := Option.map_eq_some_iff.mp hs
    exact idles_queued (g := .write tag false) rfl ⟨rfl, rfl, rfl⟩ rfl rfl
  | writeFailed op =>
    obtain ⟨tag, -, rfl⟩ := Option.map_eq_some_iff.mp hs
    exact idles_queued (g := .write tag true) rfl ⟨rfl, rfl, rfl⟩ rfl rfl
  | expired wait =>
    obtain ⟨id, -, rfl⟩ := Option.map_eq_some_iff.mp hs
    exact idles_queued (g := .wait id false) rfl ⟨rfl, rfl, rfl⟩ rfl rfl
  | advance time =>
    exact Option.some.inj hs ▸ .same ⟨rfl, rfl, rfl⟩ (TimePoint.le_later _ _) (.refl _) rfl
  | run script => exact absurd rfl (he script)

/-- The handler that runs at this event, and the client it runs in. -/
def running (w : World) : Event → Option (Ctx Io × Handler)
  | .run script =>
    match w.io.ready with
    | [] => none
    | g :: rest => some (({ w with io := { w.io with ready := rest } } : World).enter script, g)
  | _ => none

theorem running_eq_some {e : Event} {c : Ctx Io} {g : Handler} (h : w.running e = some (c, g)) :
    ∃ script rest, e = .run script ∧ w.io.ready = g :: rest ∧
      c = ({ w with io := { w.io with ready := rest } } : World).enter script := by
  cases e with
  | run script =>
    rw [running] at h
    cases hr : w.io.ready with
    | nil =>
      rw [hr] at h
      cases h
    | cons g' rest =>
      rw [hr] at h
      obtain ⟨hc, hg⟩ := Prod.mk.inj (Option.some.inj h)
      exact ⟨script, rest, rfl, hg ▸ rfl, hc.symm⟩
  | _ => cases h

/-- **An event is idle, or a handler runs that tries requests or sends heartbeats.** -/
theorem step_idles {e : Event} (hs : w.step e = some v) :
    (w.Idles v ∧ ∀ c g, w.running e = some (c, g) → g.isQuiet = true) ∨
    ∃ c g, w.running e = some (c, g) ∧ g.isQuiet = false ∧ v = w.leave (c.runHandler g) := by
  by_cases he : ∃ script, e = .run script
  · obtain ⟨script, rfl⟩ := he
    simp only [step] at hs
    split at hs
    · exact absurd hs (by simp)
    rename_i g rest hr
    have hrunning : w.running (.run script) =
        some (({ w with io := { w.io with ready := rest } } : World).enter script, g) := by
      rw [running, hr]
    by_cases hquiet : g.isQuiet = true
    · refine .inl ⟨Option.some.inj hs ▸ idles_run hr script hquiet, fun c g' h => ?_⟩
      rw [hrunning] at h
      obtain ⟨-, rfl⟩ := Prod.mk.inj (Option.some.inj h)
      exact hquiet
    · exact .inr ⟨_, g, hrunning, Bool.eq_false_of_not_eq_true hquiet, (Option.some.inj hs).symm⟩
  · refine .inl ⟨idles_event hs (fun script heq => he ⟨script, heq⟩), fun c g h => ?_⟩
    obtain ⟨script, -, heq, -⟩ := running_eq_some h
    exact absurd ⟨script, heq⟩ he

end World

end Ibase
