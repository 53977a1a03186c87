import Ibase.Awake

/-!
# Starting and stopping inside a handler

`start_impl` starts the check timer and `stop_impl` stops it, and neither happens at once:
`itimer` posts both.  All else that the client does inside a handler, connecting included,
leaves the check timer alone, whatever the user's callbacks do (`Ctx.Act`); and nothing a
handler does takes a handler out of the queue (`Ctx.Onward`).
-/

namespace Ibase

open Relation

/-- Does this handler start or stop a timer? -/
def Handler.isTimerTask : Handler → Bool
  | .task (.startTimerImpl ..) | .task (.stopTimerImpl _) => true
  | _ => false

/-- Has this handler nothing to do with starting or stopping? -/
def Handler.isPlain (g : Handler) : Bool := !g.isTimerTask && !g == .task .stopImpl

theorem Handler.not_isTimerTask {g : Handler} (h : g.isPlain = true) : g.isTimerTask = false := by
  simp only [isPlain, Bool.and_eq_true, Bool.not_eq_true'] at h
  exact h.1

/-- Has this effect nothing to do with it? -/
def Effect.isPlain : Effect → Bool
  | .post task => (Handler.task task).isPlain
  | .expiresAfter .. | .cancelTimer _ | .startImpl => false
  | _ => true

def Effect.isStart : Effect → Bool
  | .startImpl => true
  | _ => false

/-- How often `start_impl` has set `started_`. -/
def Io.starts (io : Io) : Nat := io.trace.countP Effect.isStart

/-- Nothing of this is about the check timer. -/
structure Io.Passes (io io' : Io) : Prop where
  waits : io'.waits = io.waits
  ready : ∃ gs, io'.ready = io.ready ++ gs ∧ ∀ g ∈ gs, g.isPlain = true
  starts : io'.starts = io.starts
  attempt : io.attempt ≤ io'.attempt

theorem Io.Passes.refl (io : Io) : io.Passes io :=
  ⟨rfl, ⟨[], (List.append_nil _).symm, by simp⟩, rfl, Nat.le_refl _⟩

theorem Io.Passes.trans {io io' io'' : Io} (h : io.Passes io') (h' : io'.Passes io'') :
    io.Passes io'' := by
  obtain ⟨gs, hready, hgs⟩ := h.ready
  obtain ⟨gs', hready', hgs'⟩ := h'.ready
  refine ⟨h'.waits.trans h.waits, ⟨gs ++ gs', ?_, fun g hg => ?_⟩, h'.starts.trans h.starts,
    Nat.le_trans h.attempt h'.attempt⟩
  · rw [hready', hready, List.append_assoc]
  · exact (List.mem_append.mp hg).elim (hgs g) (hgs' g)

theorem Io.passes_perform (io : Io) {effect : Effect} (h : effect.isPlain = true) :
    io.Passes (Platform.perform effect io) := by
  have habort : ∀ g ∈ io.aborted, g.isPlain = true := by
    intro g hg
    rcases List.mem_append.mp hg with hg | hg
    · obtain ⟨op, -, rfl⟩ := List.mem_map.mp hg
      rfl
    rcases List.mem_append.mp hg with hg | hg
    · obtain ⟨tag, -, rfl⟩ := List.mem_map.mp hg
      rfl
    · obtain ⟨tag, -, rfl⟩ := List.mem_map.mp hg
      rfl
  have hstarts : (io.trace ++ [effect]).countP Effect.isStart = io.starts := by
    rw [List.countP_append, starts]
    cases effect <;> first | rfl | cases h
  have hsame : ∃ gs, io.ready = io.ready ++ gs ∧ ∀ g ∈ gs, g.isPlain = true :=
    ⟨[], (List.append_nil _).symm, fun g hg => absurd hg List.not_mem_nil⟩
  have hone : ∀ g : Handler, g.isPlain = true →
      ∃ gs, io.ready ++ [g] = io.ready ++ gs ∧ ∀ g ∈ gs, g.isPlain = true :=
    fun g hg => ⟨[g], rfl, fun g' hg' => List.mem_singleton.mp hg' ▸ hg⟩
  cases effect with
  | asyncConnect host port => exact ⟨rfl, ⟨io.aborted, rfl, habort⟩, hstarts, Nat.le_succ _⟩
  | closeSocket => exact ⟨rfl, ⟨io.aborted, rfl, habort⟩, hstarts, Nat.le_refl _⟩
  | asyncReadSome buf isOpen =>
    cases isOpen with
    | true => exact ⟨rfl, hsame, hstarts, Nat.le_refl _⟩
    | false => exact ⟨rfl, hone _ rfl, hstarts, Nat.le_refl _⟩
  | asyncWrite packet isOpen =>
    cases isOpen with
    | true => exact ⟨rfl, hsame, hstarts, Nat.le_refl _⟩
    | false => exact ⟨rfl, hone _ rfl, hstarts, Nat.le_refl _⟩
  | post task => exact ⟨rfl, hone (.task task) h, hstarts, Nat.le_refl _⟩
  | expiresAfter timerId seconds => cases h
  | cancelTimer timerId => cases h
  | startImpl => cases h
  | _ => exact ⟨rfl, hsame, hstarts, Nat.le_refl _⟩

namespace Ctx

/-- What the client does inside a handler, as far as the check timer is concerned. -/
inductive Act : Ctx Io → Ctx Io → Prop
  | same (c d : Ctx Io) (ht : d.timer = c.timer) (hc : d.checkTimerId = c.checkTimerId)
      (hs : d.started = c.started) (he : d.env = c.env)
      (hl : d.lastConnectTimepoint = c.lastConnectTimepoint ∨ d.started = false)
      (hk : d.connectState = .connecting → c.connectState = .connecting) : Act c d
  | emit (c : Ctx Io) (effect : Effect) (h : effect.isPlain = true) : Act c (c.emit effect)
  | connect (c : Ctx Io) (h : c.started = true) : Act c c.doConnect
  | start (c : Ctx Io) (host : String) (port : UInt16) (h : c.started = false) :
      Act c (c.startImpl host port)
  | stop (c : Ctx Io) :
      Act c { c.stopTimer c.checkTimerId with started := false, checkTimerId := 0 }

/-- `d` comes from `c` by such acts. -/
abbrev Acts (c d : Ctx Io) : Prop := ReflTransGen Act c d

theorem acts_same {c d : Ctx Io} (ht : d.timer = c.timer) (hc : d.checkTimerId = c.checkTimerId)
    (hs : d.started = c.started) (he : d.env = c.env)
    (hl : d.lastConnectTimepoint = c.lastConnectTimepoint)
    (hk : d.connectState = .connecting → c.connectState = .connecting) : c.Acts d :=
  .single (.same c d ht hc hs he (.inl hl) hk)

theorem acts_emit (c : Ctx Io) {effect : Effect} (h : effect.isPlain = true) :
    c.Acts (c.emit effect) := .single (.emit c effect h)

theorem acts_foldl {α : Type} {f : Ctx Io → α → Ctx Io} (hf : ∀ c a, Acts c (f c a)) (as : List α)
    (c : Ctx Io) : c.Acts (as.foldl f c) := by
  induction as generalizing c with
  | nil => exact .refl
  | cons a as ih => exact (hf c a).trans (ih (f c a))

/-! ### Connecting and closing -/

theorem acts_doClose (c : Ctx Io) : c.Acts c.doClose := by
  have hmark : c.Acts (c.emit .doClose) := acts_emit c rfl
  rw [doClose]
  simp only
  split
  · exact hmark
  split
  · have hset : c.Acts { c.emit .doClose with
        readPending := false, connectState := .disconnected, socketOpen := false } :=
      hmark.trans (acts_same rfl rfl rfl rfl rfl (by simp))
    exact hset.trans (acts_emit _ rfl)
  · exact hmark.trans (acts_same rfl rfl rfl rfl rfl (by simp))

theorem acts_doConnect (c : Ctx Io) : c.Acts c.doConnect := by
  cases hs : c.started with
  | true => exact .single (.connect c hs)
  | false => rw [doConnect, if_pos hs]

theorem acts_startImpl (c : Ctx Io) (host : String) (port : UInt16) :
    c.Acts (c.startImpl host port) := by
  cases hs : c.started with
  | true =>
    rw [startImpl, if_pos hs]
  | false => exact .single (.start c host port hs)

/-- `stop_impl` leaves `started_` to `stop`, and the map of the timers to the task it posts. -/
theorem stopImpl_fields (c : Ctx Io) :
    c.stopImpl.timer = c.timer ∧ c.stopImpl.started = c.started := by
  have hclose : ∀ d : Ctx Io, d.doClose.timer = d.timer ∧ d.doClose.started = d.started := by
    intro d
    rw [doClose]
    simp only
    split
    · exact ⟨rfl, rfl⟩
    split
    · exact ⟨rfl, rfl⟩
    · exact ⟨rfl, rfl⟩
  have hdropped : ∀ (infos : List SendingPacketInfo) (d : Ctx Io),
      (infos.foldl (fun c info => c.emit (.dropped info)) d).timer = d.timer ∧
      (infos.foldl (fun c info => c.emit (.dropped info)) d).started = d.started := by
    intro infos
    induction infos with
    | nil => exact fun d => ⟨rfl, rfl⟩
    | cons info infos ih => exact fun d => ih _
  have h1 := hdropped c.endConnection.writePackets c.endConnection
  have h2 := hclose ({ c.stopTimer c.checkTimerId with checkTimerId := 0 }.emit
    (.stopImpl c.started c.connectState))
  exact ⟨h1.1.trans h2.1, h1.2.trans h2.2⟩

/-- `stop_impl` of a client that is not started. -/
theorem acts_stopImpl (c : Ctx Io) : c.Acts ({ c with started := false } : Ctx Io).stopImpl := by
  let c' : Ctx Io := { c with started := false }
  have hstop : c.Acts { c'.stopTimer c'.checkTimerId with checkTimerId := 0 } := .single (.stop c)
  have hmark : c.Acts ({ c'.stopTimer c'.checkTimerId with checkTimerId := 0 }.emit
      (.stopImpl c'.started c'.connectState)) := hstop.trans (acts_emit _ rfl)
  have hclose : c.Acts c'.endConnection :=
    (hmark.trans (acts_doClose _)).trans (acts_same rfl rfl rfl rfl rfl id)
  have hdropped := hclose.trans (acts_foldl (f := fun (c : Ctx Io) info => c.emit (.dropped info))
    (fun c info => acts_emit c rfl) c'.endConnection.writePackets c'.endConnection)
  exact hdropped.tail (.same _ _ rfl rfl rfl rfl (.inr (stopImpl_fields c').2) id)

/-! ### The user -/

theorem acts_sendReqAsync (c : Ctx Io) (cmd : UInt32) (reqBuf : Option (List UInt8))
    (reqLen : UInt32) (opt : Option SendOpt) (callback : Callback) :
    c.Acts (c.sendReqAsync cmd reqBuf reqLen opt callback) := by
  rw [sendReqAsync]
  simp only
  split
  · exact acts_same rfl rfl rfl rfl rfl id
  · have hdraw : c.Acts { c with curSeq := c.curSeq + 1, curSendId := c.curSendId + 1 } :=
      acts_same rfl rfl rfl rfl rfl id
    exact hdraw.trans (acts_emit _ rfl)

theorem acts_userCall (c : Ctx Io) (call : UserCall) : c.Acts (c.userCall call) := by
  cases call with
  | sendReqAsync cmd reqBuf reqLen opt callback => exact acts_sendReqAsync ..
  | sendCancel sendId => exact acts_emit c rfl
  | subscribeNotification cmd callback => exact acts_emit c rfl
  | unsubscribeNotification cmd => exact acts_emit c rfl
  | start host port => exact acts_startImpl c host port
  | stop =>
    rw [userCall]
    split
    · exact .refl
    · exact acts_stopImpl c

theorem acts_runCallback (c : Ctx Io) : c.Acts c.runCallback := by
  rw [runCallback]
  split
  · exact .refl
  · rename_i run rest _
    have hdrop : c.Acts { c with script := rest } := acts_same rfl rfl rfl rfl rfl id
    have hcalls := hdrop.trans (acts_foldl acts_userCall run.calls _)
    exact hcalls.trans (acts_same rfl rfl rfl rfl rfl id)

theorem acts_doSendReqCallback (c : Ctx Io) (info : SendingPacketInfo) (result : Int)
    (packet : SharedPacket) : c.Acts (c.doSendReqCallback info result packet) :=
  (acts_emit c rfl).trans (acts_runCallback _)

/-! ### Reading and writing -/

theorem acts_startRead (c : Ctx Io) : c.Acts c.startRead := by
  have hset : c.Acts { c with
      readPending := true, readBuf := (c.readBuf.prepare c.readBuf.sizeToRead).2 } :=
    acts_same rfl rfl rfl rfl rfl id
  exact hset.trans (acts_emit _ rfl)

theorem acts_doReadPacket (c : Ctx Io) : c.Acts c.doReadPacket := by
  rcases c.doReadPacket_cases with heq | heq
  · rw [heq]
  · rw [heq]
    exact acts_startRead c

theorem acts_doWritePacket (c : Ctx Io) (packet : Option SharedPacket) :
    c.Acts (c.doWritePacket packet) := by
  cases packet with
  | none => exact .refl
  | some packet =>
    show c.Acts (if c.isConnected = false then c else c.emit (.asyncWrite packet c.socketOpen))
    split
    · exact .refl
    · exact acts_emit c rfl

theorem acts_ackPushPacket (c : Ctx Io) (packet : SharedPacket) :
    c.Acts (c.ackPushPacket packet) := by
  rw [ackPushPacket]
  split
  · exact .refl
  · exact acts_doWritePacket c _

/-! ### Packets -/

theorem acts_processResponsePacket (c : Ctx Io) (packet : SharedPacket) :
    c.Acts (c.processResponsePacket packet) := by
  rw [processResponsePacket]
  split
  · exact .refl
  · rename_i it _
    have herase : c.Acts { c with writePackets := c.writePackets.eraseP (matchesPacket packet) } :=
      acts_same rfl rfl rfl rfl rfl id
    exact herase.trans (acts_doSendReqCallback _ it 0 packet)

theorem acts_processPushPacket (c : Ctx Io) (packet : SharedPacket) :
    c.Acts (c.processPushPacket packet) := by
  have hack := acts_ackPushPacket c packet
  rw [processPushPacket]
  generalize c.ackPushPacket packet = d at hack ⊢
  generalize d.tracker.onReceivePacket (UInt64.ofNat d.now.tick) packet.cmd packet.seq = received
  have htracker : c.Acts { d with tracker := received.2 } := hack.trans (acts_same rfl rfl rfl rfl rfl id)
  simp only
  split
  · exact htracker
  split
  · exact htracker
  · exact (htracker.trans (acts_emit _ rfl)).trans (acts_runCallback _)

theorem acts_dispatchPacket (c : Ctx Io) (packet : SharedPacket) :
    c.Acts (c.dispatchPacket packet) := by
  rw [dispatchPacket]
  split
  · exact acts_processPushPacket c packet
  · exact acts_processResponsePacket c packet

theorem acts_onReadCompleted (c : Ctx Io) (ec : Bool) (length : Nat) :
    c.Acts (c.onReadCompleted ec length) := by
  cases ec with
  | true =>
    have hset : c.Acts { c with readPending := false } := acts_same rfl rfl rfl rfl rfl id
    exact hset.trans (acts_doClose _)
  | false =>
    refine readHandler.invariant (P := fun d => c.Acts d) ?_ ?_ ?_ ?_ length .refl
    · exact fun b d hd => hd.trans (acts_same rfl rfl rfl rfl rfl id)
    · exact fun f p d hd => (hd.trans (acts_emit d rfl)).trans (acts_dispatchPacket _ _)
    · exact fun n d hd => hd.trans (acts_same rfl rfl rfl rfl rfl id)
    · exact fun d hd => hd.trans (acts_startRead d)

/-! ### The periodic timer -/

theorem acts_doReconnectCheck (c : Ctx Io) (curTimePoint : TimePoint) :
    c.Acts (c.doReconnectCheck curTimePoint) := by
  rw [doReconnectCheck]
  split
  · exact .refl
  split
  · exact .refl
  split
  · exact .refl
  · exact acts_doConnect c

theorem acts_resendFrom (curTimePoint : TimePoint) (visited rest : List SendingPacketInfo)
    (c : Ctx Io) : c.Acts (resendFrom curTimePoint visited rest c) := by
  induction rest generalizing visited c with
  | nil =>
    rw [resendFrom]
  | cons it rest ih =>
    rw [resendFrom]
    split
    · exact ih _ c
    split
    · have htold := acts_doSendReqCallback c it (-1) it.packet.toSharedPacket
      generalize c.doSendReqCallback it (-1) it.packet.toSharedPacket = d at htold ⊢
      simp only
      split
      · have hgone : c.Acts { d with writePackets := visited ++ rest } :=
          htold.trans (acts_same rfl rfl rfl rfl rfl id)
        exact hgone.trans (ih visited _)
      · exact htold.trans (acts_emit d rfl)
    · have hsent : c.Acts { c with writePackets := visited ++
          { it with curTries := it.curTries + 1, lastSendTimePoint := curTimePoint } :: rest } :=
        acts_same rfl rfl rfl rfl rfl id
      exact (hsent.trans (acts_doWritePacket _ _)).trans (ih _ _)

theorem acts_doHeartbeatCheck (c : Ctx Io) (curTimePoint : TimePoint) :
    c.Acts (c.doHeartbeatCheck curTimePoint) := by
  rw [doHeartbeatCheck]
  split
  · exact .refl
  split
  · exact .refl
  · have hdraw : c.Acts { c with curSeq := c.curSeq + 1 } := acts_same rfl rfl rfl rfl rfl id
    exact hdraw.trans (acts_doWritePacket _ _)

theorem acts_onPriodicallyTimer (c : Ctx Io) : c.Acts c.onPriodicallyTimer :=
  ((acts_doReconnectCheck c c.now).trans (acts_resendFrom _ _ _ _)).trans
    (acts_doHeartbeatCheck _ _)
/-! ### What an act leaves -/

/-- `start_impl` of a client that is not started. -/
theorem startImpl_started {c : Ctx Io} (h : c.started = false) (host : String) (port : UInt16) :
    (c.startImpl host port).timer = { c.timer with curTimerId := c.timer.curTimerId + 1 } ∧
    (c.startImpl host port).checkTimerId = c.timer.nextTimerId ∧
    (c.startImpl host port).env.waits = c.env.waits ∧
    (c.startImpl host port).env.ready = c.env.ready ++ c.env.aborted ++
      [.task (.startTimerImpl c.timer.nextTimerId 1 1)] ∧
    (c.startImpl host port).env.starts = c.env.starts + 1 ∧
    (c.startImpl host port).env.attempt = c.env.attempt + 1 := by
  simp only [startImpl, doConnect, h, Bool.false_eq_true, Bool.true_eq_false, if_false]
  refine ⟨rfl, rfl, rfl, rfl, ?_, rfl⟩
  simp [startTimer, Ctx.emit, Platform.perform, Io.starts, List.countP_cons, Effect.isStart]

/-- A `do_connect` that connects. -/
theorem doConnect_started {c : Ctx Io} (h : c.started = true) :
    c.doConnect.timer = c.timer ∧ c.doConnect.checkTimerId = c.checkTimerId ∧
    c.doConnect.started = c.started ∧ c.env.Passes c.doConnect.env ∧
    c.env.attempt < c.doConnect.env.attempt := by
  rw [doConnect, if_neg (by simp [h])]
  have hmark : c.env.Passes (c.emit (.doConnect c.readBuf.size)).env := Io.passes_perform c.env rfl
  exact ⟨rfl, rfl, rfl, hmark.trans (Io.passes_perform _ rfl), Nat.lt_succ_self _⟩

/-- What a handler never takes back: only `start_impl` sets `started_`, and no handler
posts a `stop_impl`. -/
structure Onward (c d : Ctx Io) : Prop where
  ready : c.env.ready <+: d.env.ready
  stopImpl : .task .stopImpl ∈ d.env.ready → .task .stopImpl ∈ c.env.ready
  attempt : c.env.attempt ≤ d.env.attempt
  starts : c.env.starts ≤ d.env.starts
  curTimerId : c.timer.curTimerId ≤ d.timer.curTimerId
  started : d.started = true → (c.started = true ∧ d.checkTimerId = c.checkTimerId) ∨
    (c.env.starts < d.env.starts ∧ c.env.attempt < d.env.attempt)
  last : d.lastConnectTimepoint = c.lastConnectTimepoint ∨ d.started = false ∨
    c.env.attempt < d.env.attempt
  connecting : d.connectState = .connecting → c.connectState = .connecting ∨
    c.env.attempt < d.env.attempt

variable {c d e : Ctx Io}

theorem Onward.refl (c : Ctx Io) : c.Onward c :=
  ⟨List.prefix_refl _, id, Nat.le_refl _, Nat.le_refl _, Nat.le_refl _, fun h => .inl ⟨h, rfl⟩,
    .inl rfl, .inl⟩

theorem Onward.trans (h : c.Onward d) (h' : d.Onward e) : c.Onward e := by
  have hattempt := h.attempt
  have hstarts := h.starts
  have hattempt' := h'.attempt
  have hstarts' := h'.starts
  refine ⟨h.ready.trans h'.ready, fun hin => h.stopImpl (h'.stopImpl hin),
    Nat.le_trans hattempt hattempt', Nat.le_trans hstarts hstarts',
    Nat.le_trans h.curTimerId h'.curTimerId, fun he => ?_, ?_, fun he => ?_⟩
  · rcases h'.started he with ⟨hd, hcheck'⟩ | hlt
    · rcases h.started hd with ⟨hc, hcheck⟩ | hlt
      · exact .inl ⟨hc, hcheck'.trans hcheck⟩
      · exact .inr ⟨by omega, by omega⟩
    · exact .inr ⟨by omega, by omega⟩
  · rcases h'.last with heq' | hstopped | hlt
    · rcases h.last with heq | hstopped | hlt
      · exact .inl (heq'.trans heq)
      · -- what a client does that was stopped and not started again
        cases he : e.started with
        | false => exact .inr (.inl rfl)
        | true =>
          rcases h'.started he with ⟨hd, -⟩ | hlt
          · rw [hstopped] at hd
            cases hd
          · exact .inr (.inr (by omega))
      · exact .inr (.inr (by omega))
    · exact .inr (.inl hstopped)
    · exact .inr (.inr (by omega))
  · rcases h'.connecting he with hd | hlt
    · exact (h.connecting hd).imp_right (fun hlt => by omega)
    · exact .inr (by omega)

/-- What has nothing to do with starting or stopping. -/
theorem onward_of_passes (ht : d.timer = c.timer) (hc : d.checkTimerId = c.checkTimerId)
    (hs : d.started = c.started) (he : c.env.Passes d.env)
    (hl : d.lastConnectTimepoint = c.lastConnectTimepoint ∨ d.started = false ∨
      c.env.attempt < d.env.attempt)
    (hk : d.connectState = .connecting → c.connectState = .connecting ∨
      c.env.attempt < d.env.attempt) : c.Onward d := by
  obtain ⟨gs, hready, hgs⟩ := he.ready
  refine ⟨hready ▸ List.prefix_append .., fun hin => ?_, he.attempt, Nat.le_of_eq he.starts.symm,
    Nat.le_of_eq (congrArg Itimer.curTimerId ht.symm), fun hd => .inl ⟨hs ▸ hd, hc⟩, hl, hk⟩
  rw [hready] at hin
  rcases List.mem_append.mp hin with hin | hin
  · exact hin
  · cases hgs _ hin

theorem Act.onward (h : c.Act d) : c.Onward d := by
  cases h with
  | same d ht hc hs he hl hk =>
    exact onward_of_passes ht hc hs (he ▸ .refl _) (hl.imp_right Or.inl) (fun hd => .inl (hk hd))
  | emit effect h =>
    exact onward_of_passes rfl rfl rfl (Io.passes_perform c.env h) (.inl rfl) .inl
  | connect h =>
    obtain ⟨ht, hc, hs, he, hlt⟩ := doConnect_started h
    exact onward_of_passes ht hc hs he (.inr (.inr hlt)) (fun _ => .inr hlt)
  | start host port h =>
    obtain ⟨htimer, -, -, hready, hstarts, hattempt⟩ := startImpl_started h host port
    refine ⟨?_, ?_, ?_, ?_, ?_, fun _ => .inr ⟨?_, ?_⟩, .inr (.inr ?_), fun _ => .inr ?_⟩
    · rw [hready, List.append_assoc]
      exact List.prefix_append ..
    · rw [hready]
      intro hin
      simpa [Io.aborted] using hin
    · omega
    · omega
    · rw [htimer]
      exact Nat.le_succ _
    · omega
    · omega
    · omega
    · omega
  | stop =>
    refine ⟨List.prefix_append .., ?_, Nat.le_refl _, ?_, Nat.le_refl _, ?_, .inr (.inl rfl), .inl⟩
    · intro hin
      rcases List.mem_append.mp hin with hin | hin
      · exact hin
      · cases List.mem_singleton.mp hin
    · simp [stopTimer, Ctx.emit, Platform.perform, Io.starts, Effect.isStart]
    · intro hd
      cases hd

theorem Acts.onward (h : c.Acts d) : c.Onward d := by
  induction h with
  | refl => exact .refl c
  | tail _ hact ih => exact ih.trans hact.onward

/-- The map of the timers is for the io thread alone. -/
theorem Act.timers_eq (h : c.Act d) : d.timer.timers = c.timer.timers := by
  cases h with
  | same d ht hc hs he hl hk => exact congrArg Itimer.timers ht
  | emit effect h => rfl
  | connect h => exact congrArg Itimer.timers (doConnect_started h).1
  | start host port h => rw [(startImpl_started h host port).1]
  | stop => rfl

theorem Acts.timers_eq (h : c.Acts d) : d.timer.timers = c.timer.timers := by
  induction h with
  | refl => rfl
  | tail _ hact ih => exact hact.timers_eq.trans ih

/-! ### The timer object on the io thread -/

/-- The timer object changes its map. -/
theorem onward_timers (c : Ctx Io) (timers : List (UInt32 × TimerInfo Unit)) :
    c.Onward { c with timer := ⟨c.timer.curTimerId, timers⟩ } :=
  ⟨List.prefix_refl _, id, Nat.le_refl _, Nat.le_refl _, Nat.le_refl _, fun h => .inl ⟨h, rfl⟩,
    .inl rfl, .inl⟩

/-- It arms or cancels a wait. -/
theorem onward_wait (c : Ctx Io) {effect : Effect}
    (h : (∃ id seconds, effect = .expiresAfter id seconds) ∨ ∃ id, effect = .cancelTimer id) :
    c.Onward (c.emit effect) := by
  rcases h with ⟨id, seconds, rfl⟩ | ⟨id, rfl⟩
  · refine ⟨List.prefix_refl _, fun hin => hin, Nat.le_refl _, ?_, Nat.le_refl _,
      fun h => .inl ⟨h, rfl⟩, .inl rfl, .inl⟩
    simp [Ctx.emit, Platform.perform, Io.starts, Effect.isStart]
  · refine ⟨List.prefix_append .., ?_, Nat.le_refl _, ?_, Nat.le_refl _, fun h => .inl ⟨h, rfl⟩,
      .inl rfl, .inl⟩
    · intro hin
      rcases List.mem_append.mp hin with hin | hin
      · exact hin
      · obtain ⟨_, -, heq⟩ := List.mem_map.mp hin
        cases heq
    · simp [Ctx.emit, Platform.perform, Io.starts, Effect.isStart]

/-! ### A whole handler -/

/-- A handler other than those of the timers and `stop_impl`. -/
theorem acts_runHandler (c : Ctx Io) {g : Handler} (hg : g.isPlain = true)
    (hw : ∀ id, g ≠ .wait id false) : c.Acts (c.runHandler g) := by
  cases g with
  | task task =>
    cases task with
    | startImpl host port => exact acts_startImpl c host port
    | stopImpl => cases hg
    | sendReqAsyncImpl packet sendDraw opt callback =>
      have hqueue : c.Acts { c with
          writePackets := c.writePackets ++ [⟨packet, opt, sendDraw, callback, 1, c.now⟩] } :=
        acts_same rfl rfl rfl rfl rfl id
      exact hqueue.trans (acts_doWritePacket { c with
        writePackets := c.writePackets ++ [⟨packet, opt, sendDraw, callback, 1, c.now⟩] }
        (some packet.toSharedPacket))
    | sendCancelImpl sendId =>
      rw [runHandler, runTask, sendCancelImpl]
      split
      · exact .refl
      · have herase : c.Acts { c with
            writePackets := c.writePackets.eraseP (fun it => it.sendId == sendId) } :=
          acts_same rfl rfl rfl rfl rfl id
        exact herase.trans (acts_emit _ rfl)
    | subscribeNotificationImpl cmd callback => exact acts_same rfl rfl rfl rfl rfl id
    | unsubscribeNotificationImpl cmd => exact acts_same rfl rfl rfl rfl rfl id
    | startTimerImpl id delay interval => cases hg
    | stopTimerImpl id => cases hg
  | wait id ec =>
    cases ec with
    | true => exact .refl
    | false => exact absurd rfl (hw id)
  | readSome tag ec length => exact acts_onReadCompleted c ec length
  | write tag ec =>
    cases ec with
    | true => exact acts_doClose c
    | false => exact .refl
  | connect tag ec =>
    cases ec with
    | true => exact acts_same rfl rfl rfl rfl rfl (by simp [runHandler, onConnectCompleted])
    | false =>
      have hset : c.Acts { c with connectState := .connected } :=
        acts_same rfl rfl rfl rfl rfl (by simp)
      exact hset.trans (acts_doReadPacket _)

theorem onward_rescheduleTimer (c : Ctx Io) (id : UInt32) : c.Onward (c.rescheduleTimer id) := by
  rw [rescheduleTimer]
  cases hfind : c.timer.find id with
  | none =>
    rw [Itimer.rescheduleTimer, hfind]
    exact .refl c
  | some info =>
    rw [Itimer.rescheduleTimer_of_find hfind]
    by_cases hzero : info.intervalSeconds = 0
    · rw [if_pos hzero]
      exact onward_timers c _
    · rw [if_neg hzero]
      exact (onward_timers c _).trans (onward_wait _ (.inl ⟨_, _, rfl⟩))

theorem onward_runHandler (c : Ctx Io) {g : Handler}
    (hstop : g = .task .stopImpl → c.started = false) : c.Onward (c.runHandler g) := by
  by_cases hplain : g.isPlain = true ∧ ∀ id, g ≠ .wait id false
  · exact Acts.onward (acts_runHandler c hplain.1 hplain.2)
  · cases g with
    | task task =>
      cases task with
      | stopImpl =>
        have hs : ({ c with started := false } : Ctx Io) = c := by rw [← hstop rfl]
        have hacts := acts_stopImpl c
        rw [hs] at hacts
        exact Acts.onward hacts
      | startTimerImpl id delay interval =>
        rw [runHandler, runTask, startTimerImpl, Itimer.startTimerImpl_eq]
        exact (onward_timers c _).trans (onward_wait _ (.inl ⟨_, _, rfl⟩))
      | stopTimerImpl id =>
        rw [runHandler, runTask, Ctx.stopTimerImpl]
        cases hfind : c.timer.find id with
        | none =>
          rw [Itimer.stopTimerImpl, hfind]
          exact .refl c
        | some info =>
          rw [Itimer.stopTimerImpl_of_find hfind]
          exact (onward_timers c _).trans (onward_wait _ (.inr ⟨_, rfl⟩))
      | _ => exact absurd ⟨rfl, by simp⟩ hplain
    | wait id ec =>
      rw [runHandler, onTimer]
      split
      · exact .refl c
      split
      · exact .refl c
      · exact (Acts.onward (acts_onPriodicallyTimer c)).trans (onward_rescheduleTimer _ id)
    | _ => exact absurd ⟨rfl, by simp⟩ hplain

/-- No handler gives an id back. -/
theorem curTimerId_runHandler (c : Ctx Io) (g : Handler) :
    c.timer.curTimerId ≤ (c.runHandler g).timer.curTimerId := by
  by_cases hg : g = .task .stopImpl
  · subst hg
    exact Nat.le_of_eq (congrArg Itimer.curTimerId (stopImpl_fields c).1).symm
  · exact (onward_runHandler c (fun heq => absurd heq hg)).curTimerId

end Ctx

end Ibase
