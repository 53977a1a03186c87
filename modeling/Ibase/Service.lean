import Ibase.Lib.Run
import Ibase.Network

/-!
# The server and its map of sessions

In a `Network` only the packets of one client arrive.  Here the server is alone:
any packet may reach any of its sessions, at any time.

`sessions_` has one entry for an id, and the session of the entry has that id
(`Ctx.Housed`).  Every function keeps this, since only `add_new_session` makes
entries and nothing changes the id of a session; what the other functions do to the
map and to the ids is `Ctx.Keeps`.
-/

namespace Ibase

namespace Server

inductive ServiceEvent where
  /-- An `async_accept` completes. -/
  | accept (ec : Bool)
  | receives (session : Nat) (packet : SharedPacket) (script : List ProcessorRun)
  | sessionTimer (session : Nat)
  | serverTimer
  /-- A thread calls a function of the server, and the io thread runs it. -/
  | serverCall (call : ServerCall)
  /-- A thread in `stop` clears `started_`, and posts `stop_impl`. -/
  | clearStarted
  | stopImpl
  | advance (time : TimePoint)

namespace Ctx

/-- One event; `none` if it cannot happen. -/
def serviceStep (s : Ctx Log) : ServiceEvent → Option (Ctx Log)
  | .accept ec => some (s.onAccepted ec)
  | .receives session packet script =>
    if s.isLive session then some (s.runSession session script (fun s => s.dispatchPacket packet))
    else none
  | .sessionTimer session =>
    if s.isLive session then some (s.runSession session [] (fun s => s.onPriodicallyTimer))
    else none
  | .serverTimer => some s.onPriodicallyTimer
  | .serverCall call => some (s.serverCall call)
  | .clearStarted => some { s with started := false }
  | .stopImpl => some s.stopImpl
  | .advance time => some { s with now := s.now.later time }

variable {E : Type}

/-- The id that the session of this number has. -/
def sessionIdAt (s : Ctx E) (number : Nat) : Option UInt32 := (s.heap number).map Session.sessionId

/-- The ids in `sessions_`, each with the number of its session. -/
def roll (s : Ctx E) : List (UInt32 × Nat) := s.sessions.map (fun p => (p.1, p.2.session))

theorem exists_session {s : Ctx E} {number : Nat} {id : UInt32}
    (h : s.sessionIdAt number = some id) :
    ∃ session, s.heap number = some session ∧ session.sessionId = id := Option.map_eq_some_iff.mp h

/-- Every entry of `sessions_` is for a session with the id of the entry. -/
structure Housed (s : Ctx E) : Prop where
  ids : ∀ p ∈ s.roll, s.sessionIdAt p.2 = some p.1
  nodup : (s.roll.map Prod.fst).Nodup
  drawn : ∀ number, s.curSessionId < number → s.sessionIdAt number = none

/-- What the functions do that add no session: the ids stay, and entries may go. -/
structure Keeps (s t : Ctx E) : Prop where
  ids : t.sessionIdAt = s.sessionIdAt
  roll : t.roll.Sublist s.roll
  curSessionId : t.curSessionId = s.curSessionId

namespace Keeps

variable {s t u : Ctx E}

theorem refl (s : Ctx E) : s.Keeps s := ⟨rfl, List.Sublist.refl _, rfl⟩

theorem trans (h : s.Keeps t) (h' : t.Keeps u) : s.Keeps u :=
  ⟨h'.ids.trans h.ids, h'.roll.trans h.roll, h'.curSessionId.trans h.curSessionId⟩

/-- A function that changes neither the sessions nor the map. -/
theorem of_eq (hheap : t.heap = s.heap) (hsessions : t.sessions = s.sessions)
    (hcur : t.curSessionId = s.curSessionId) : s.Keeps t := by
  refine ⟨?_, ?_, hcur⟩
  · funext number
    rw [sessionIdAt, sessionIdAt, hheap]
  · rw [Ctx.roll, Ctx.roll, hsessions]

theorem foldl {α : Type} {f : Ctx E → α → Ctx E} (hf : ∀ s a, Keeps s (f s a)) (as : List α)
    (s : Ctx E) : s.Keeps (as.foldl f s) := by
  induction as generalizing s with
  | nil => exact refl s
  | cons a as ih => exact (hf s a).trans (ih (f s a))

theorem housed (h : s.Keeps t) (hs : s.Housed) : t.Housed := by
  refine ⟨?_, ?_, ?_⟩
  · intro p hp
    rw [h.ids]
    exact hs.ids p (h.roll.subset hp)
  · exact hs.nodup.sublist (h.roll.map Prod.fst)
  · intro number hlt
    rw [h.ids]
    exact hs.drawn number (h.curSessionId ▸ hlt)

end Keeps

/-! ### The functions of a session -/

/-- A function of a session that leaves the session its id and the server its map. -/
structure Stays (s t : Session.Ctx (Around E)) : Prop where
  sessionId : t.sessionId = s.sessionId
  number : t.env.number = s.env.number
  server : s.env.server.Keeps t.env.server

namespace Stays

variable {s t u : Session.Ctx (Around E)}

theorem refl (s : Session.Ctx (Around E)) : Stays s s := ⟨rfl, rfl, .refl _⟩

theorem trans (h : Stays s t) (h' : Stays t u) : Stays s u :=
  ⟨h'.sessionId.trans h.sessionId, h'.number.trans h.number, h.server.trans h'.server⟩

theorem sessionIdAt_whole (s : Session.Ctx (Around E)) (number : Nat) :
    (whole s).sessionIdAt number =
      if number = s.env.number then some s.sessionId else s.env.server.sessionIdAt number := by
  show (Function.update s.env.server.heap s.env.number (some s.toSession) number).map _ = _
  by_cases hn : number = s.env.number
  · rw [if_pos hn, hn, Function.update_self]
    rfl
  · rw [if_neg hn, Function.update_of_ne hn]
    rfl

theorem whole (h : Stays s t) : (Ctx.whole s).Keeps (Ctx.whole t) := by
  refine ⟨?_, h.server.roll, h.server.curSessionId⟩
  funext number
  rw [sessionIdAt_whole, sessionIdAt_whole, h.number, h.sessionId, h.server.ids]

variable [Platform Effect E]

theorem emit (s : Session.Ctx (Around E)) (effect : Session.Effect) : Stays s (s.emit effect) :=
  ⟨rfl, rfl, .of_eq rfl rfl rfl⟩

theorem doWritePacket (s : Session.Ctx (Around E)) (packet : SharedPacket) :
    Stays s (s.doWritePacket packet) := by
  rw [Session.Ctx.doWritePacket]
  split
  · exact refl s
  · exact emit s _

theorem doReadPacket (s : Session.Ctx (Around E)) : Stays s s.doReadPacket := by
  rcases s.doReadPacket_cases with heq | heq
  · rw [heq]
    exact refl s
  · rw [heq]
    exact ⟨rfl, rfl, .of_eq rfl rfl rfl⟩

theorem doStart (s : Session.Ctx (Around E)) : Stays s s.doStart := by
  have htimer : Stays s { s.startTimer 1 1 with checkTimerId := s.timer.nextTimerId } :=
    ⟨rfl, rfl, .of_eq rfl rfl rfl⟩
  exact htimer.trans (doReadPacket _)

theorem sendPacket (s : Session.Ctx (Around E)) (packet : SharedPacket) :
    Stays s (s.sendPacket packet) := by
  rw [Session.Ctx.sendPacket]
  split
  · have hqueued : Stays s (({ s with
        writePackets := s.writePackets ++ [⟨packet, 1, s.now⟩] } : Session.Ctx (Around E)).emit
          (.queued ⟨packet, 1, s.now⟩)) := ⟨rfl, rfl, .of_eq rfl rfl rfl⟩
    exact hqueued.trans (doWritePacket _ packet)
  · exact doWritePacket s packet

theorem ackEntry (s : Session.Ctx (Around E)) (packet : SharedPacket) :
    Stays s (s.ackEntry packet) := by
  rw [Session.Ctx.ackEntry]
  split
  · exact refl s
  · exact ⟨rfl, rfl, .of_eq rfl rfl rfl⟩

theorem resendFrom (curTimePoint : TimePoint) (visited rest : List Session.SendingPacketInfo)
    (s : Session.Ctx (Around E)) :
    Stays s (Session.Ctx.resendFrom curTimePoint visited rest s) := by
  induction rest generalizing visited s with
  | nil =>
    rw [Session.Ctx.resendFrom]
    exact refl s
  | cons it rest ih =>
    rw [Session.Ctx.resendFrom]
    split
    · exact ih _ s
    split
    · have hgone : Stays s (({ s with writePackets := visited ++ rest } :
          Session.Ctx (Around E)).emit (.gaveUp it)) := ⟨rfl, rfl, .of_eq rfl rfl rfl⟩
      exact hgone.trans (ih _ _)
    · have hsent : Stays s { s with writePackets := visited ++
          { it with curTries := it.curTries + 1, lastSendTimePoint := curTimePoint } :: rest } :=
        ⟨rfl, rfl, .of_eq rfl rfl rfl⟩
      exact (hsent.trans (doWritePacket _ it.packet)).trans (ih _ _)

end Stays

theorem sessionIdAt_whole_enter {s : Ctx E} {number : Nat} {session : Session}
    (h : s.heap number = some session) : (whole (s.enter number session)).sessionIdAt = s.sessionIdAt := by
  funext n
  rw [Stays.sessionIdAt_whole]
  split
  · rename_i hn
    rw [show n = number from hn, sessionIdAt, h]
    rfl
  · rfl

/-- A run of a session's function. -/
theorem keeps_onSession {s : Ctx E} {number : Nat}
    {f : Session.Ctx (Around E) → Session.Ctx (Around E)}
    (hf : ∀ session, s.heap number = some session →
      (whole (s.enter number session)).Keeps (whole (f (s.enter number session)))) :
    s.Keeps (s.onSession number f) := by
  rw [onSession]
  split
  · exact .refl s
  · rename_i session hsession
    have h := hf session hsession
    exact ⟨h.ids.trans (sessionIdAt_whole_enter hsession), h.roll, h.curSessionId⟩

/-! ### The functions of the server -/

section

variable [Platform Effect E]

theorem keeps_startImpl (s : Ctx E) : s.Keeps s.startImpl.2 := by
  rw [startImpl]
  split
  · exact .refl s
  · exact .of_eq rfl rfl rfl

theorem keeps_doClose (s : Ctx E) : s.Keeps s.doClose := by
  rw [doClose]
  split
  · exact .of_eq rfl rfl rfl
  · exact .refl s

theorem keeps_stopImpl (s : Ctx E) : s.Keeps s.stopImpl := by
  have hclose := keeps_doClose { s.stopTimer s.checkTimerId with checkTimerId := 0 }
  exact ⟨hclose.ids, List.nil_sublist _, hclose.curSessionId⟩

theorem keeps_sendPacket (s : Ctx E) (sessionId : UInt32) (origin : Origin)
    (rspBuf : Option (List UInt8)) (rspLen : UInt32) :
    s.Keeps (s.sendPacket sessionId origin rspBuf rspLen).2 := by
  rw [sendPacket]
  split
  · exact .refl s
  · rename_i packet hpacket
    split
    · exact .refl s
    · exact keeps_onSession (f := fun t => t.sendPacket packet)
        (fun session _ => (Stays.sendPacket _ packet).whole)

theorem keeps_publishNotificationImpl (s : Ctx E) (cmd : UInt32) (buf : Option (List UInt8))
    (len : UInt32) : s.Keeps (s.publishNotificationImpl cmd buf len).2 := by
  have hdraw : s.Keeps { s with curSeq := s.curSeq + 1 } := .of_eq rfl rfl rfl
  refine hdraw.trans (Keeps.foldl (fun t p => ?_) s.sessions _)
  split
  · exact .refl t
  · exact keeps_sendPacket t ..

theorem keeps_serverCall (s : Ctx E) (call : ServerCall) : s.Keeps (s.serverCall call) := by
  cases call with
  | start => exact keeps_startImpl s
  | stop =>
    rw [serverCall]
    split
    · exact .refl s
    · have hclear : s.Keeps { s with started := false } := .of_eq rfl rfl rfl
      exact hclear.trans (keeps_stopImpl _)
  | registerReqProcessor cmd processor => exact .of_eq rfl rfl rfl
  | unregisterReqProcessor cmd => exact .of_eq rfl rfl rfl
  | sendRspForReq sessionId cmd seq rspBuf rspLen => exact keeps_sendPacket s ..
  | publishNotification cmd buf len => exact keeps_publishNotificationImpl s cmd buf len

theorem keeps_runProcessor (s : Ctx E) : s.Keeps s.runProcessor := by
  rw [runProcessor]
  split
  · exact .refl s
  · rename_i run rest _
    have hdrop : s.Keeps { s with script := rest } := .of_eq rfl rfl rfl
    have hcalls := Keeps.foldl keeps_serverCall run.calls { s with script := rest }
    exact (hdrop.trans hcalls).trans (.of_eq rfl rfl rfl)

omit [Platform Effect E] in
theorem keeps_onHeartbeat (s : Ctx E) (sessionId : UInt32) : s.Keeps (s.onHeartbeat sessionId) := by
  have hroll : (s.onHeartbeat sessionId).roll = s.roll := by
    show (s.sessions.map _).map _ = s.sessions.map _
    rw [List.map_map]
    refine List.map_congr_left (fun p _ => ?_)
    show (fun p : UInt32 × SessionInfo => (p.1, p.2.session)) (if p.1 = sessionId then _ else p) = _
    split
    · rfl
    · rfl
  exact ⟨rfl, hroll ▸ List.Sublist.refl _, rfl⟩

theorem keeps_dispatchPacket (s : Ctx E) (number : Nat) (sessionId : UInt32)
    (packet : SharedPacket) : s.Keeps (s.dispatchPacket number sessionId packet) := by
  refine (keeps_onHeartbeat s sessionId).trans ?_
  rw [dispatchPacket]
  generalize s.onHeartbeat sessionId = t
  split
  · exact .refl t
  split
  · exact .refl t
  · rename_i processor _
    have hmark : t.Keeps (t.emit (.invoked number processor packet t.now)) := .of_eq rfl rfl rfl
    exact hmark.trans (keeps_runProcessor _)

/-! ### The packets of a session -/

theorem keeps_receivePacketCallback (s : Session.Ctx (Around E)) (sessionId : UInt32)
    (packet : SharedPacket) :
    (whole s).Keeps
      (whole (Session.ReceiveCallback.receivePacketCallback sessionId packet s)) := by
  have hserver := keeps_dispatchPacket (whole s) s.env.number sessionId packet
  unfold Session.ReceiveCallback.receivePacketCallback instReceiveCallbackAround
  simp only
  split
  · exact .refl _
  · rename_i session hsession
    exact ⟨(sessionIdAt_whole_enter hsession).trans hserver.ids, hserver.roll, hserver.curSessionId⟩

theorem keeps_session_dispatchPacket (s : Session.Ctx (Around E)) (packet : SharedPacket) :
    (whole s).Keeps (whole (s.dispatchPacket packet)) := by
  rw [Session.Ctx.dispatchPacket]
  split
  · have hack := (Stays.ackEntry s packet).whole
    exact hack.trans (keeps_receivePacketCallback _ _ packet)
  · have htracker : Stays s { s with tracker :=
        (s.tracker.onReceivePacket (UInt64.ofNat s.now.tick) packet.cmd packet.seq).2 } :=
      ⟨rfl, rfl, .of_eq rfl rfl rfl⟩
    rw [Session.Ctx.processRequestPacket]
    simp only
    split
    · exact htracker.whole
    · exact htracker.whole.trans (keeps_receivePacketCallback _ _ packet)

/-! ### New sessions -/

theorem mem_insertSession {sessions : List (UInt32 × SessionInfo)} {id : UInt32} {info : SessionInfo}
    {p : UInt32 × SessionInfo} (h : p ∈ insertSession sessions id info) :
    p = (id, info) ∨ p ∈ sessions := by
  rcases List.mem_append.mp h with hin | hin
  · exact .inr (List.mem_of_mem_filter hin)
  · rcases List.mem_cons.mp hin with rfl | hin
    · exact .inl rfl
    · exact .inr (List.mem_of_mem_filter hin)

/-- The map has one entry for an id. -/
theorem nodup_insertSession {sessions : List (UInt32 × SessionInfo)}
    (h : (sessions.map Prod.fst).Nodup) (id : UInt32) (info : SessionInfo) :
    ((insertSession sessions id info).map Prod.fst).Nodup := by
  have hsub : ∀ f : UInt32 × SessionInfo → Bool, ((sessions.filter f).map Prod.fst).Nodup :=
    fun f => h.sublist (List.filter_sublist.map _)
  rw [insertSession, List.map_append, List.map_cons, List.nodup_append]
  refine ⟨hsub _, List.nodup_cons.mpr ⟨?_, hsub _⟩, ?_⟩
  · intro hin
    obtain ⟨p, hp, heq⟩ := List.mem_map.mp hin
    have hlt := of_decide_eq_true (List.mem_filter.mp hp).2
    rw [heq] at hlt
    exact absurd hlt (UInt32.lt_irrefl id)
  · intro a ha b hb heq
    obtain ⟨p, hp, rfl⟩ := List.mem_map.mp ha
    have hlt := of_decide_eq_true (List.mem_filter.mp hp).2
    rcases List.mem_cons.mp hb with rfl | hb
    · rw [heq] at hlt
      exact absurd hlt (UInt32.lt_irrefl _)
    · obtain ⟨q, hq, rfl⟩ := List.mem_map.mp hb
      have hgt := of_decide_eq_true (List.mem_filter.mp hq).2
      rw [← heq] at hgt
      exact absurd (UInt32.lt_trans hlt hgt) (UInt32.lt_irrefl _)

/-- **A new session is in the map under its own id.** -/
theorem Housed.addNewSession {s : Ctx E} (h : s.Housed) : s.addNewSession.Housed := by
  have hstart : Keeps _ (onSession _ (s.curSessionId + 1) _) := keeps_onSession
    (s := { s with
      curSessionId := s.curSessionId + 1
      heap := Function.update s.heap (s.curSessionId + 1)
        (some (Session.new (UInt32.ofNat (s.curSessionId + 1)))) })
    (fun session _ => (Stays.doStart _).whole)
  have hids : ∀ number, s.addNewSession.sessionIdAt number =
      if number = s.curSessionId + 1 then some (UInt32.ofNat (s.curSessionId + 1))
      else s.sessionIdAt number := by
    intro number
    refine (congrFun hstart.ids number).trans ?_
    show (Function.update s.heap _ _ number).map _ = _
    by_cases hn : number = s.curSessionId + 1
    · rw [if_pos hn, hn, Function.update_self]
      rfl
    · rw [if_neg hn, Function.update_of_ne hn]
      rfl
  have hcur : s.addNewSession.curSessionId = s.curSessionId + 1 := hstart.curSessionId
  have hsub : ∀ p ∈ s.addNewSession.sessions,
      p = (UInt32.ofNat (s.curSessionId + 1), ⟨s.curSessionId + 1, s.now⟩) ∨
        (p.1, p.2.session) ∈ s.roll := by
    intro p hp
    refine (mem_insertSession hp).imp_right (fun hin => hstart.roll.subset ?_)
    exact List.mem_map_of_mem hin
  refine ⟨?_, ?_, ?_⟩
  · intro p hp
    obtain ⟨q, hq, rfl⟩ := List.mem_map.mp hp
    rw [hids]
    rcases hsub q hq with rfl | hin
    · exact if_pos rfl
    · have hid := h.ids _ hin
      by_cases hn : q.2.session = s.curSessionId + 1
      · have hnone := h.drawn (s.curSessionId + 1) (Nat.lt_succ_self _)
        rw [hn, hnone] at hid
        cases hid
      · rw [if_neg hn]
        exact hid
  · have hold := h.nodup.sublist (hstart.roll.map Prod.fst)
    rw [Ctx.roll, List.map_map] at hold ⊢
    exact nodup_insertSession hold _ _
  · intro number hlt
    rw [hcur] at hlt
    rw [hids, if_neg (by omega)]
    exact h.drawn number (by omega)

end

/-! ### Whole runs -/

theorem housed_new (serial : Nat) (now : TimePoint) : (new serial now).Housed :=
  ⟨fun _ hp => absurd hp List.not_mem_nil, List.nodup_nil, fun _ _ => rfl⟩

theorem keeps_runSession {s : Ctx Log} {number : Nat} (script : List ProcessorRun)
    {f : Session.Ctx (Around Log) → Session.Ctx (Around Log)}
    (hf : ∀ t : Session.Ctx (Around Log), (whole t).Keeps (whole (f t))) :
    s.Keeps (s.runSession number script f) := by
  have hset : s.Keeps { s with script := script } := .of_eq rfl rfl rfl
  have hrun : Keeps _ (onSession _ number f) :=
    keeps_onSession (s := { s with script := script }) (fun session _ => hf _)
  exact (hset.trans hrun).trans (.of_eq rfl rfl rfl)

theorem keeps_onPriodicallyTimer (s : Ctx E) : s.Keeps s.onPriodicallyTimer :=
  ⟨rfl, List.filter_sublist.map _, rfl⟩

theorem Housed.onAccepted {s : Ctx Log} (h : s.Housed) (ec : Bool) : (s.onAccepted ec).Housed := by
  have haccept : ∀ t : Ctx Log, t.Housed → t.doAccept.Housed := by
    intro t ht
    have hkeeps : t.Keeps t.doAccept := .of_eq rfl rfl rfl
    exact hkeeps.housed ht
  rw [Ctx.onAccepted]
  split
  · exact h
  cases ec with
  | true => exact haccept s h
  | false => exact haccept _ h.addNewSession

/-- An event in which every packet that arrives is in `A`. -/
theorem moves_serviceStep {A : SharedPacket → Prop} {s t : Ctx Log} {event : ServiceEvent}
    (hA : ∀ number packet script, event = .receives number packet script → A packet)
    (hs : s.serviceStep event = some t) : s.Moves A t := by
  cases event with
  | accept ec => exact Option.some.inj hs ▸ moves_onAccepted s ec
  | receives number packet script =>
    rw [serviceStep] at hs
    split at hs
    · rw [← Option.some.inj hs]
      exact Network.moves_runSession script
        (fun t => moves_session_dispatchPacket t (hA number packet script rfl))
    · cases hs
  | sessionTimer number =>
    rw [serviceStep] at hs
    split at hs
    · rw [← Option.some.inj hs]
      exact Network.moves_runSession [] moves_session_onPriodicallyTimer
    · cases hs
  | serverTimer => exact Option.some.inj hs ▸ moves_of_hub_eq rfl
  | serverCall call => exact Option.some.inj hs ▸ moves_serverCall s call
  | clearStarted => exact Option.some.inj hs ▸ moves_of_hub_eq rfl
  | stopImpl => exact Option.some.inj hs ▸ moves_stopImpl s
  | advance time => exact Option.some.inj hs ▸ Relation.ReflTransGen.single (.later s.hub time)

/-- **Every event keeps the map.** -/
theorem Housed.step {s t : Ctx Log} {event : ServiceEvent} (h : s.Housed)
    (hs : s.serviceStep event = some t) : t.Housed := by
  cases event with
  | accept ec => exact Option.some.inj hs ▸ h.onAccepted ec
  | receives session packet script =>
    rw [serviceStep] at hs
    split at hs
    · rw [← Option.some.inj hs]
      exact (keeps_runSession script (fun t => keeps_session_dispatchPacket t packet)).housed h
    · cases hs
  | sessionTimer session =>
    rw [serviceStep] at hs
    split at hs
    · rw [← Option.some.inj hs]
      exact (keeps_runSession [] (fun t => (Stays.resendFrom t.now [] t.writePackets t).whole)).housed h
    · cases hs
  | serverTimer => exact Option.some.inj hs ▸ (keeps_onPriodicallyTimer s).housed h
  | serverCall call => exact Option.some.inj hs ▸ (keeps_serverCall s call).housed h
  | clearStarted =>
    have hkeeps : s.Keeps { s with started := false } := .of_eq rfl rfl rfl
    exact Option.some.inj hs ▸ hkeeps.housed h
  | stopImpl => exact Option.some.inj hs ▸ (keeps_stopImpl s).housed h
  | advance time =>
    have hkeeps : s.Keeps { s with now := s.now.later time } := .of_eq rfl rfl rfl
    exact Option.some.inj hs ▸ hkeeps.housed h

theorem housed_of_run {serial : Nat} {now : TimePoint} {events : List ServiceEvent} {s : Ctx Log}
    (hrun : Run.run serviceStep (new serial now) events = some s) : s.Housed :=
  Run.run_invariant (P := fun _ _ => True) (fun _ _ _ h _ hs => h.step hs) (housed_new serial now)
    (Run.along_true _ events) hrun

end Ctx

end Server

end Ibase
