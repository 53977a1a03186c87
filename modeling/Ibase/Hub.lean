import Mathlib
import Ibase.Server

/-!
# What the server does to its sessions

The server's functions reach a session through a number, and a session's
handler may come back to the server through a processor.  `Hub` is the server
without its map, its processors and its acceptor: the sessions and the two
counters.  `Hub.Step` is everything that can happen to it, eleven kinds of
things, six of them to one session (`Session.Step`).  Every function of the
server moves its `hub` by such steps, also those that run inside each other.

`A` says which packets arrive at the server.
-/

namespace Ibase

open Relation

namespace Session

/-- Does this effect neither write a packet nor say what became of one? -/
def Effect.isAside : Effect → Bool
  | asyncReadSome .. | post .. | recvPacket .. => true
  | asyncWrite .. | queued .. | acked .. | gaveUp .. => false

/-- What `do_write_packet` asks of asio. -/
def written (s : Session) (packet : SharedPacket) : List Effect :=
  if s.socketOpen then [.asyncWrite packet] else []

/-- One thing that happens to a session of the server `serial`, which has drawn
`curSeq` numbers. -/
inductive Step (A : SharedPacket → Prop) (serial curSeq : Nat) :
    Session → List Effect → Session → Prop
  | aside {s s' : Session} (effects : List Effect) (he : ∀ e ∈ effects, e.isAside = true)
      (hw : s'.writePackets = s.writePackets) (ht : s'.tracker = s.tracker)
      (ho : s'.socketOpen = s.socketOpen) : Step A serial curSeq s effects s'
  | respond (s : Session) (packet : SharedPacket) (cmd seq : UInt32)
      (h : packet.origin = .response cmd seq) : Step A serial curSeq s (s.written packet) s
  | push (s : Session) (packet : SharedPacket) (draw : Nat) (cmd : UInt32) (time : TimePoint)
      (h : packet.origin = .notification serial draw cmd) (hdraw : 0 < draw ∧ draw ≤ curSeq) :
      Step A serial curSeq s (.queued ⟨packet, 1, time⟩ :: s.written packet)
        { s with writePackets := s.writePackets ++ [⟨packet, 1, time⟩] }
  | ack (s : Session) (packet : SharedPacket) (it : SendingPacketInfo) (hp : A packet)
      (hpush : packet.isPush = true)
      (h : s.writePackets.find? (Ctx.matchesPacket packet) = some it) :
      Step A serial curSeq s [.acked it packet]
        { s with writePackets := s.writePackets.eraseP (Ctx.matchesPacket packet) }
  | resend (s : Session) (visited rest : List SendingPacketInfo) (it : SendingPacketInfo)
      (time : TimePoint) (h : s.writePackets = visited ++ it :: rest)
      (ht : it.curTries < maxResendTries) :
      Step A serial curSeq s (s.written it.packet)
        { s with writePackets := visited ++
            { it with curTries := it.curTries + 1, lastSendTimePoint := time } :: rest }
  | giveUp (s : Session) (visited rest : List SendingPacketInfo) (it : SendingPacketInfo)
      (h : s.writePackets = visited ++ it :: rest) (ht : it.curTries ≥ maxResendTries) :
      Step A serial curSeq s [.gaveUp it] { s with writePackets := visited ++ rest }

end Session

/-- The server without its map, its processors and its acceptor. -/
structure Hub (E : Type) where
  serial : Nat
  curSeq : Nat
  curSessionId : Nat
  heap : Nat → Option Session
  now : TimePoint
  env : E

/-- Does this effect concern no session? -/
def Server.Effect.isAside : Server.Effect → Bool
  | asyncAccept .. | closeAcceptor | post .. => true
  | session .. | invoked .. => false

namespace Hub

variable {E : Type} [Platform Server.Effect E] {A : SharedPacket → Prop}

def emit (h : Hub E) (effect : Server.Effect) : Hub E :=
  { h with env := Platform.perform effect h.env }

/-- What a session tells its surroundings. -/
def emitAll (h : Hub E) (number : Nat) (effects : List Session.Effect) : Hub E :=
  { h with
    env := effects.foldl
      (fun e effect => Platform.perform (Server.Effect.session number effect) e) h.env }

def setSession (h : Hub E) (number : Nat) (s : Session) : Hub E :=
  { h with heap := Function.update h.heap number (some s) }

/-- What `process_request_packet` gets from the tracker. -/
def received (h : Hub E) (s : Session) (packet : SharedPacket) : Bool × RecentlyPacketTracker :=
  s.tracker.onReceivePacket (UInt64.ofNat h.now.tick) packet.cmd packet.seq

/-- What happens to the sessions of a server. -/
inductive Step (A : SharedPacket → Prop) : Hub E → Hub E → Prop
  | emit (h : Hub E) (effect : Server.Effect) (he : effect.isAside = true) : Step A h (h.emit effect)
  | later (h : Hub E) (t : TimePoint) : Step A h { h with now := h.now.later t }
  | draw (h : Hub E) : Step A h { h with curSeq := h.curSeq + 1 }
  | accept (h : Hub E) :
      Step A h ({ h with curSessionId := h.curSessionId + 1 }.setSession (h.curSessionId + 1)
        (Session.new (UInt32.ofNat (h.curSessionId + 1))))
  | session (h : Hub E) (number : Nat) {s s' : Session} {effects : List Session.Effect}
      (hs : h.heap number = some s) (hstep : Session.Step A h.serial h.curSeq s effects s') :
      Step A h ((h.setSession number s').emitAll number effects)
  | request (h : Hub E) (number : Nat) {s : Session} (packet : SharedPacket)
      (hs : h.heap number = some s) (hp : A packet) (hpush : packet.isPush = false) :
      Step A h (h.setSession number { s with tracker := (h.received s packet).2 })
  | invoke (h : Hub E) (number : Nat) {s : Session} (packet : SharedPacket) (processor : Processor)
      (hs : h.heap number = some s) (hp : A packet) (hpush : packet.isPush = false)
      (hnew : (h.received s packet).1 = false) :
      Step A h ((h.setSession number { s with tracker := (h.received s packet).2 }).emit
        (.invoked number processor packet h.now))

omit [Platform Server.Effect E] in
theorem heap_setSession {h : Hub E} {number n : Nat} {s t : Session}
    (ht : (h.setSession number s).heap n = some t) :
    (n = number ∧ t = s) ∨ (n ≠ number ∧ h.heap n = some t) := by
  have ht' : Function.update h.heap number (some s) n = some t := ht
  by_cases hn : n = number
  · subst hn
    rw [Function.update_self] at ht'
    exact .inl ⟨rfl, (Option.some.inj ht').symm⟩
  · rw [Function.update_of_ne hn] at ht'
    exact .inr ⟨hn, ht'⟩

omit [Platform Server.Effect E] in
theorem heap_none_setSession {h : Hub E} {number n : Nat} {s : Session}
    (hn : (h.setSession number s).heap n = none) : n ≠ number ∧ h.heap n = none := by
  have hn' : Function.update h.heap number (some s) n = none := hn
  by_cases heq : n = number
  · rw [heq, Function.update_self] at hn'
    exact absurd hn' (by simp)
  · rw [Function.update_of_ne heq] at hn'
    exact ⟨heq, hn'⟩

/-- The counters only grow, and the server stays the same. -/
theorem step_counters {h k : Hub E} (hs : Step A h k) :
    k.serial = h.serial ∧ h.curSeq ≤ k.curSeq := by
  cases hs with
  | emit effect he => exact ⟨rfl, Nat.le_refl _⟩
  | later t => exact ⟨rfl, Nat.le_refl _⟩
  | draw => exact ⟨rfl, Nat.le_succ _⟩
  | accept => exact ⟨rfl, Nat.le_refl _⟩
  | session number hs hstep => exact ⟨rfl, Nat.le_refl _⟩
  | request number packet hs hp hpush => exact ⟨rfl, Nat.le_refl _⟩
  | invoke number packet processor hs hp hpush hnew => exact ⟨rfl, Nat.le_refl _⟩

theorem steps_counters {h k : Hub E} (hs : ReflTransGen (Step A) h k) :
    k.serial = h.serial ∧ h.curSeq ≤ k.curSeq := by
  induction hs with
  | refl => exact ⟨rfl, Nat.le_refl _⟩
  | tail _ hstep ih =>
    obtain ⟨h1, h2⟩ := step_counters hstep
    exact ⟨h1.trans ih.1, Nat.le_trans ih.2 h2⟩

end Hub

namespace Server.Ctx

variable {E : Type} [Platform Server.Effect E] {A : SharedPacket → Prop}

def hub (s : Ctx E) : Hub E := ⟨s.serial, s.curSeq, s.curSessionId, s.heap, s.now, s.env⟩

/-- `t` comes from `s` by steps of the hub. -/
abbrev Moves (A : SharedPacket → Prop) (s t : Ctx E) : Prop := ReflTransGen (Hub.Step A) s.hub t.hub

theorem moves_of_hub_eq {s t : Ctx E} (h : t.hub = s.hub) : s.Moves A t := by
  rw [Moves, h]

theorem moves_emit (s : Ctx E) {effect : Effect} (he : effect.isAside = true) :
    s.Moves A (s.emit effect) := ReflTransGen.single (.emit s.hub effect he)

theorem moves_foldl {α : Type} (f : Ctx E → α → Ctx E) (h : ∀ s a, Moves A s (f s a)) (as : List α)
    (s : Ctx E) : s.Moves A (as.foldl f s) := by
  induction as generalizing s with
  | nil => exact ReflTransGen.refl
  | cons a as ih => exact (h s a).trans (ih (f s a))

/-! ### The server around a session -/

/-- What the session says reaches the surroundings of the server, and nothing else
of the server changes. -/
theorem perform_around (a : Around E) (effects : List Session.Effect) :
    effects.foldl (fun a effect => Platform.perform effect a) a =
      ⟨{ a.server with
          env := effects.foldl
            (fun e effect => Platform.perform (Effect.session a.number effect) e) a.server.env },
        a.number⟩ := by
  induction effects generalizing a with
  | nil => rfl
  | cons effect effects ih => exact ih (Platform.perform effect a)

omit [Platform Effect E] in
theorem hub_whole_enter {s : Ctx E} {number : Nat} {session : Session}
    (h : s.heap number = some session) : (whole (s.enter number session)).hub = s.hub := by
  have hheap : Function.update s.heap number (some session) = s.heap := by
    rw [← h]
    exact Function.update_eq_self number s.heap
  exact congrArg (fun heap => (⟨s.serial, s.curSeq, s.curSessionId, heap, s.now, s.env⟩ : Hub E)) hheap

/-- One step of the session in a handler is one step of the server. -/
theorem moves_of_step {s t : Session.Ctx (Around E)} (effects : List Session.Effect)
    (hstep : Session.Step A s.env.server.serial s.env.server.curSeq s.toSession effects t.toSession)
    (henv : t.env = effects.foldl (fun a effect => Platform.perform effect a) s.env)
    (hnow : t.now = s.now) : (whole s).Moves A (whole t) := by
  have hs : (whole s).hub.heap s.env.number = some s.toSession := Function.update_self ..
  have hsingle := Hub.Step.session (whole s).hub s.env.number hs hstep
  have heq : ((whole s).hub.setSession s.env.number t.toSession).emitAll s.env.number effects =
      (whole t).hub := by
    rw [perform_around] at henv
    simp only [Hub.setSession, Hub.emitAll, hub, whole, henv, hnow, Function.update_idem]
  exact ReflTransGen.single (heq ▸ hsingle)

/-- A run of a session's function is a run of the server. -/
theorem moves_onSession {s : Ctx E} {number : Nat}
    {f : Session.Ctx (Around E) → Session.Ctx (Around E)}
    (hf : ∀ session, s.heap number = some session →
      (whole (s.enter number session)).Moves A (whole (f (s.enter number session)))) :
    s.Moves A (s.onSession number f) := by
  unfold onSession
  split
  · exact ReflTransGen.refl
  · rename_i session hsession
    have h := hf session hsession
    rwa [Moves, hub_whole_enter hsession] at h

/-! ### The functions of a session -/

theorem moves_session_emit (s : Session.Ctx (Around E)) {effect : Session.Effect}
    (he : effect.isAside = true) : (whole s).Moves A (whole (s.emit effect)) :=
  moves_of_step [effect] (.aside _ (by simpa using he) rfl rfl rfl) rfl rfl

theorem moves_session_doReadPacket (s : Session.Ctx (Around E)) :
    (whole s).Moves A (whole s.doReadPacket) := by
  rcases s.doReadPacket_cases with heq | heq
  · rw [heq]
  · rw [heq]
    have hbuf : (whole s).Moves A (whole { s with
        readPending := true, readBuf := (s.readBuf.prepare s.readBuf.sizeToRead).2 }) :=
      moves_of_step [] (.aside _ (by simp) rfl rfl rfl) rfl rfl
    exact hbuf.trans (moves_session_emit _ rfl)

theorem moves_session_doStart (s : Session.Ctx (Around E)) :
    (whole s).Moves A (whole s.doStart) := by
  have htimer : (whole s).Moves A (whole { s.startTimer 1 1 with
      checkTimerId := s.timer.nextTimerId }) :=
    moves_of_step [.post (.startTimerImpl s.timer.nextTimerId 1 1)]
      (.aside _ (by simp [Session.Effect.isAside]) rfl rfl rfl) rfl rfl
  exact htimer.trans (moves_session_doReadPacket _)

omit [Platform Effect E] in
theorem session_doWritePacket [Platform Session.Effect E] (s : Session.Ctx E)
    (packet : SharedPacket) :
    s.doWritePacket packet = { s with
      env := (s.toSession.written packet).foldl (fun e effect => Platform.perform effect e) s.env } := by
  unfold Session.Ctx.doWritePacket Session.Ctx.isConnected Session.written
  cases h : s.socketOpen with
  | false => rfl
  | true => rfl

/-- A response, or a notification that this server published. -/
theorem moves_session_sendPacket (s : Session.Ctx (Around E)) {packet : SharedPacket}
    (h : (∃ cmd seq, packet.origin = .response cmd seq) ∨
      ∃ draw cmd, packet.origin = .notification s.env.server.serial draw cmd ∧
        0 < draw ∧ draw ≤ s.env.server.curSeq) :
    (whole s).Moves A (whole (s.sendPacket packet)) := by
  rcases h with ⟨cmd, seq, h⟩ | ⟨draw, cmd, h, hdraw⟩
  · have hpush : packet.isPush = false := by
      rw [SharedPacket.isPush, packet.isPush_eq, h]
      rfl
    rw [Session.Ctx.sendPacket, if_neg (by simp [hpush]), session_doWritePacket]
    exact moves_of_step _ (.respond _ packet cmd seq h) rfl rfl
  · have hpush : packet.isPush = true := by
      rw [SharedPacket.isPush, packet.isPush_eq, h]
      rfl
    rw [Session.Ctx.sendPacket, if_pos hpush, session_doWritePacket]
    exact moves_of_step _ (.push _ packet draw cmd s.now h hdraw) rfl rfl

theorem moves_session_ackEntry (s : Session.Ctx (Around E)) {packet : SharedPacket} (hp : A packet)
    (hpush : packet.isPush = true) : (whole s).Moves A (whole (s.ackEntry packet)) := by
  unfold Session.Ctx.ackEntry
  split
  · exact ReflTransGen.refl
  · rename_i it hit
    exact moves_of_step _ (.ack _ packet it hp hpush hit) rfl rfl

theorem moves_session_resendFrom (curTimePoint : TimePoint)
    (visited rest : List Session.SendingPacketInfo) (s : Session.Ctx (Around E))
    (hs : s.writePackets = visited ++ rest) :
    (whole s).Moves A (whole (Session.Ctx.resendFrom curTimePoint visited rest s)) := by
  induction rest generalizing visited s with
  | nil =>
    rw [Session.Ctx.resendFrom]
  | cons it rest ih =>
    rw [Session.Ctx.resendFrom]
    split
    · exact ih _ s (by rw [hs, List.append_assoc, List.singleton_append])
    split
    · rename_i htries
      have hstep : (whole s).Moves A (whole
          (({ s with writePackets := visited ++ rest } : Session.Ctx (Around E)).emit (.gaveUp it))) :=
        moves_of_step _ (.giveUp _ visited rest it hs htries) rfl rfl
      exact hstep.trans (ih _ _ rfl)
    · rename_i htries
      simp only
      rw [session_doWritePacket]
      have hstep : (whole s).Moves A (whole ({ s with
          writePackets := visited ++
            { it with curTries := it.curTries + 1, lastSendTimePoint := curTimePoint } :: rest
          env := (s.toSession.written it.packet).foldl
            (fun e effect => Platform.perform effect e) s.env } : Session.Ctx (Around E))) :=
        moves_of_step _ (.resend _ visited rest it curTimePoint hs (UInt32.not_le.mp htries)) rfl rfl
      refine ReflTransGen.trans hstep (ih _ _ ?_)
      rw [List.append_assoc]
      rfl

theorem moves_session_onPriodicallyTimer (s : Session.Ctx (Around E)) :
    (whole s).Moves A (whole s.onPriodicallyTimer) :=
  moves_session_resendFrom s.now [] s.writePackets s rfl

/-! ### The functions of the server -/

theorem moves_doAccept (s : Ctx E) : s.Moves A s.doAccept := moves_emit s rfl

theorem moves_startTimer (s : Ctx E) (delaySeconds intervalSeconds : UInt32) :
    s.Moves A (s.startTimer delaySeconds intervalSeconds) :=
  moves_emit { s with timer := { s.timer with curTimerId := s.timer.curTimerId + 1 } } rfl

theorem moves_startImpl (s : Ctx E) : s.Moves A s.startImpl.2 := by
  unfold startImpl
  split
  · exact ReflTransGen.refl
  · have h1 : s.Moves A { s with started := true }.startAccept := moves_doAccept { s with started := true }
    exact h1.trans (moves_startTimer _ 1 1)

theorem moves_doClose (s : Ctx E) : s.Moves A s.doClose := by
  unfold doClose
  split
  · exact moves_emit { s with acceptorOpen := false } rfl
  · exact ReflTransGen.refl

theorem moves_stopImpl (s : Ctx E) : s.Moves A s.stopImpl := by
  have h1 : s.Moves A { s.stopTimer s.checkTimerId with checkTimerId := 0 } := moves_emit s rfl
  exact h1.trans (moves_doClose _)

/-- A response, or a notification that was published. -/
theorem moves_sendPacket (s : Ctx E) (sessionId : UInt32) {origin : Origin}
    (rspBuf : Option (List UInt8)) (rspLen : UInt32)
    (h : (∃ cmd seq, origin = .response cmd seq) ∨
      ∃ draw cmd, origin = .notification s.serial draw cmd ∧ 0 < draw ∧ draw ≤ s.curSeq) :
    s.Moves A (s.sendPacket sessionId origin rspBuf rspLen).2 := by
  unfold sendPacket
  split
  · exact ReflTransGen.refl
  rename_i packet hpacket
  split
  · exact ReflTransGen.refl
  · refine moves_onSession (fun session _ => moves_session_sendPacket _ ?_)
    rw [SharedPacket.origin_build hpacket]
    exact h

theorem moves_publishNotificationImpl (s : Ctx E) (cmd : UInt32) (buf : Option (List UInt8))
    (len : UInt32) : s.Moves A (s.publishNotificationImpl cmd buf len).2 := by
  have hsend : ∀ (t : Ctx E) (session : Session), t.serial = s.serial → s.curSeq + 1 ≤ t.curSeq →
      t.Moves A (t.sendPacket session.sessionId
        (.notification s.serial (s.curSeq + 1) cmd) buf len).2 := by
    intro t session hserial hseq
    exact moves_sendPacket t _ buf len (.inr ⟨s.curSeq + 1, cmd, by rw [hserial], Nat.succ_pos _, hseq⟩)
  have hfold : ∀ f : Ctx E → UInt32 × SessionInfo → Ctx E,
      (∀ (t : Ctx E) p, t.serial = s.serial → s.curSeq + 1 ≤ t.curSeq → t.Moves A (f t p)) →
      ∀ (ps : List (UInt32 × SessionInfo)) (t : Ctx E), t.serial = s.serial →
        s.curSeq + 1 ≤ t.curSeq → t.Moves A (ps.foldl f t) := by
    intro f hf ps
    induction ps with
    | nil => exact fun t _ _ => ReflTransGen.refl
    | cons p ps ih =>
      intro t hserial hseq
      have hstep := hf t p hserial hseq
      obtain ⟨hserial', hseq'⟩ := Hub.steps_counters hstep
      exact hstep.trans (ih _ (hserial'.trans hserial) (Nat.le_trans hseq hseq'))
  have hdraw : s.Moves A { s with curSeq := s.curSeq + 1 } := ReflTransGen.single (.draw s.hub)
  refine hdraw.trans (hfold _ (fun t p hserial hseq => ?_) s.sessions
    { s with curSeq := s.curSeq + 1 } rfl (Nat.le_refl _))
  split
  · exact ReflTransGen.refl
  · exact hsend t _ hserial hseq

theorem moves_serverCall (s : Ctx E) (call : ServerCall) : s.Moves A (s.serverCall call) := by
  cases call with
  | start => exact moves_startImpl s
  | stop =>
    rw [serverCall]
    split
    · exact ReflTransGen.refl
    · exact moves_stopImpl { s with started := false }
  | registerReqProcessor cmd processor => exact moves_of_hub_eq rfl
  | unregisterReqProcessor cmd => exact moves_of_hub_eq rfl
  | sendRspForReq sessionId cmd seq rspBuf rspLen =>
    exact moves_sendPacket s sessionId rspBuf rspLen (.inl ⟨cmd, seq, rfl⟩)
  | publishNotification cmd buf len => exact moves_publishNotificationImpl s cmd buf len

theorem moves_runProcessor (s : Ctx E) : s.Moves A s.runProcessor := by
  unfold runProcessor
  split
  · exact ReflTransGen.refl
  · rename_i run rest _
    have hcalls : s.Moves A (run.calls.foldl serverCall { s with script := rest }) :=
      moves_foldl serverCall moves_serverCall run.calls { s with script := rest }
    exact hcalls.tail (.later _ run.until_)

/-- A packet runs no processor, or it is a request and runs one. -/
theorem dispatchPacket_cases (s : Ctx E) (number : Nat) (sessionId : UInt32)
    (packet : SharedPacket) :
    (s.dispatchPacket number sessionId packet).hub = s.hub ∨
    (packet.isPush = false ∧ ∃ processor, ReflTransGen (Hub.Step A)
      (s.hub.emit (.invoked number processor packet s.now))
      (s.dispatchPacket number sessionId packet).hub) := by
  unfold dispatchPacket
  simp only
  split
  · exact .inl rfl
  rename_i hpush
  split
  · exact .inl rfl
  · rename_i processor _
    exact .inr ⟨by simpa using hpush, processor, moves_runProcessor
      ((s.onHeartbeat sessionId).emit (.invoked number processor packet s.now))⟩

/-- What the callback of a session leaves is what the server made of the packet. -/
theorem whole_receivePacketCallback (s : Session.Ctx (Around E)) (sessionId : UInt32)
    (packet : SharedPacket) :
    (whole (Session.ReceiveCallback.receivePacketCallback sessionId packet s)).hub = (whole s).hub ∨
    (whole (Session.ReceiveCallback.receivePacketCallback sessionId packet s)).hub =
      ((whole s).dispatchPacket s.env.number sessionId packet).hub := by
  unfold Session.ReceiveCallback.receivePacketCallback instReceiveCallbackAround
  simp only
  split
  · exact .inl rfl
  · exact .inr (hub_whole_enter ‹_›)

theorem moves_session_dispatchPacket (s : Session.Ctx (Around E)) {packet : SharedPacket}
    (hp : A packet) : (whole s).Moves A (whole (s.dispatchPacket packet)) := by
  have hs : (whole s).hub.heap s.env.number = some s.toSession := Function.update_self ..
  unfold Session.Ctx.dispatchPacket
  by_cases hpush : packet.isPush = true
  · rw [if_pos hpush]
    refine (moves_session_ackEntry s hp hpush).trans ?_
    show (whole (s.ackEntry packet)).Moves A (whole
      (Session.ReceiveCallback.receivePacketCallback (s.ackEntry packet).sessionId packet
        (s.ackEntry packet)))
    generalize s.ackEntry packet = t
    rcases whole_receivePacketCallback t t.sessionId packet with h | h
    · exact moves_of_hub_eq h
    · rcases dispatchPacket_cases (A := A) (whole t) t.env.number t.sessionId packet with
        h' | ⟨hfalse, -⟩
      · exact moves_of_hub_eq (h.trans h')
      · exact absurd hpush (by simp [hfalse])
  · have hreq : packet.isPush = false := by simpa using hpush
    rw [if_neg hpush]
    have hkept : (whole { s with tracker := ((whole s).hub.received s.toSession packet).2 }).hub =
        (whole s).hub.setSession s.env.number
          { s.toSession with tracker := ((whole s).hub.received s.toSession packet).2 } := by
      simp only [Hub.setSession, hub, whole, Function.update_idem]
    have hrequest : (whole s).Moves A
        (whole { s with tracker := ((whole s).hub.received s.toSession packet).2 }) := by
      rw [Moves, hkept]
      exact ReflTransGen.single (.request (whole s).hub s.env.number packet hs hp hreq)
    show (whole s).Moves A (whole (if ((whole s).hub.received s.toSession packet).1 then
        { s with tracker := ((whole s).hub.received s.toSession packet).2 }
      else Session.ReceiveCallback.receivePacketCallback s.sessionId packet
        { s with tracker := ((whole s).hub.received s.toSession packet).2 }))
    split
    · exact hrequest
    · rename_i hnew
      rcases whole_receivePacketCallback
        { s with tracker := ((whole s).hub.received s.toSession packet).2 } s.sessionId packet with h | h
      · rw [Moves, h]
        exact hrequest
      · rw [Moves, h]
        rcases dispatchPacket_cases (A := A)
          (whole { s with tracker := ((whole s).hub.received s.toSession packet).2 }) s.env.number
          s.sessionId packet with h' | ⟨-, processor, h'⟩
        · rw [h']
          exact hrequest
        · -- the tracker and the processor's call are one step
          refine ReflTransGen.trans ?_ h'
          rw [hkept]
          exact ReflTransGen.single
            (.invoke (whole s).hub s.env.number packet processor hs hp hreq (by simpa using hnew))

/-! ### The handlers of the server -/

theorem moves_addNewSession (s : Ctx E) : s.Moves A s.addNewSession := by
  have haccept : s.Moves A { s with
      curSessionId := s.curSessionId + 1
      heap := Function.update s.heap (s.curSessionId + 1)
        (some (Session.new (UInt32.ofNat (s.curSessionId + 1)))) } :=
    ReflTransGen.single (.accept s.hub)
  exact haccept.trans (moves_onSession (fun session _ => moves_session_doStart _))

theorem moves_onAccepted (s : Ctx E) (ec : Bool) : s.Moves A (s.onAccepted ec) := by
  unfold onAccepted
  split
  · exact ReflTransGen.refl
  · cases ec with
    | true => exact moves_doAccept s
    | false => exact (moves_addNewSession s).trans (moves_doAccept _)

end Server.Ctx

end Ibase
