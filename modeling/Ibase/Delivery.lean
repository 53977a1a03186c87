import Ibase.Invocation
import Ibase.Service

/-!
# What a session remembers, and what was handed over

`process_request_packet` tells the tracker of a request before the server has looked
for a processor, and the tracker keeps it also when there is none.  The copies that
come in the next minute are dropped, whether somebody has registered in between or
not (`Delivery.dropped_unhandled`).

A `Delivery` is the server with a list of the requests that were no repeats, each with
whether it found a processor.  A run does right by its requests exactly if no copy
comes within a minute of one that found none and that nobody has been handed
(`Delivery.delivers_iff`).
-/

namespace Ibase

open Relation RecentlyPacketTracker SlidingWindow

open Server (Log ServiceEvent Effect invocations)

/-- A request that was no repeat, and whether there was a processor for it. -/
structure Arrival where
  session : Nat
  packet : SharedPacket
  tick : Nat
  handed : Bool
  deriving DecidableEq

namespace Arrival

/-- What the tracker of that session keeps of it. -/
def mark (a : Arrival) : UInt64 × Nat := (packetId a.packet.cmd a.packet.seq, a.tick)

def invocation (a : Arrival) : Invocation := ⟨a.session, a.packet, a.tick⟩

/-- Is this a copy of that request, on that session? -/
def CopyOf (a : Arrival) (session : Nat) (packet : SharedPacket) : Prop :=
  a.session = session ∧ a.packet.cmd = packet.cmd ∧ a.packet.seq = packet.seq

instance (a : Arrival) (session : Nat) (packet : SharedPacket) :
    Decidable (a.CopyOf session packet) := inferInstanceAs (Decidable (_ ∧ _))

end Arrival

/-- The request that arrives in this event, and at which session. -/
def Server.ServiceEvent.request? : ServiceEvent → Option (Nat × SharedPacket)
  | .receives session packet _ => if packet.isPush then none else some (session, packet)
  | _ => none

namespace Server.Ctx

/-- Would the tracker of that session take this request for a repeat? -/
def suppresses {E : Type} (s : Ctx E) (number : Nat) (packet : SharedPacket) : Bool :=
  match s.heap number with
  | none => false
  | some session => (s.hub.received session packet).1

/-- What is written down when this request arrives. -/
def arrival? {E : Type} (s : Ctx E) (number : Nat) (packet : SharedPacket) : Option Arrival :=
  if s.suppresses number packet then none
  else some ⟨number, packet, s.now.tick, (s.req2Processor packet.cmd).isSome⟩

end Server.Ctx

/-- The server, and the requests so far that were no repeats. -/
structure Delivery where
  server : Server.Ctx Log
  arrivals : List Arrival

namespace Delivery

def new (serial : Nat) (now : TimePoint) : Delivery := ⟨Server.Ctx.new serial now, []⟩

def step (d : Delivery) (event : ServiceEvent) : Option Delivery :=
  (d.server.serviceStep event).map (fun s =>
    ⟨s, d.arrivals ++ (event.request?.bind (fun r => d.server.arrival? r.1 r.2)).toList⟩)

/-- The session does right by the request of this event: it drops the request only if a
copy was handed to a processor, and hands it over if none was and there is one. -/
structure Delivers (d : Delivery) (event : ServiceEvent) (number : Nat) (packet : SharedPacket) :
    Prop where
  dropped : d.server.suppresses number packet = true →
    ∃ i ∈ invocations d.server.env.trace, i.session = number ∧ i.packet.cmd = packet.cmd ∧
      i.packet.seq = packet.seq
  handed : (∀ i ∈ invocations d.server.env.trace, i.session = number →
      i.packet.cmd = packet.cmd → i.packet.seq ≠ packet.seq) →
    ∀ processor, d.server.req2Processor packet.cmd = some processor →
      ∀ s, d.server.serviceStep event = some s → ∃ rest, s.env.trace =
        d.server.env.trace ++ .invoked number processor packet d.server.now :: rest

/-- If a copy of this request was no repeat in the last sixty ticks, then some copy
has found a processor. -/
def Attended (d : Delivery) (number : Nat) (packet : SharedPacket) : Prop :=
  (∃ a ∈ d.arrivals, a.CopyOf number packet ∧ d.server.now.tick < a.tick + 60) →
    ∃ a ∈ d.arrivals, a.CopyOf number packet ∧ a.handed = true

instance (d : Delivery) (number : Nat) (packet : SharedPacket) : Decidable (d.Attended number packet) :=
  inferInstanceAs (Decidable ((∃ a ∈ d.arrivals, _ ∧ _) → ∃ a ∈ d.arrivals, _ ∧ _))

/-! ### The trackers and the list -/

/-- The trackers have kept the requests of the list, and the processors were called for
those that were handed over. -/
structure Kept (arrivals : List Arrival) (h : Hub Log) : Prop where
  heap_le : ∀ number s, h.heap number = some s → number ≤ h.curSessionId
  arrived_le : ∀ a ∈ arrivals, a.session ≤ h.curSessionId
  tracks : ∀ number s, h.heap number = some s → ∃ used, used ≤ h.now.tick ∧
    Tracks s.tracker ((arrivals.filter (fun a => a.session = number)).map Arrival.mark) used
  invoked : invocations h.env.trace =
    (arrivals.filter (fun a => a.handed)).map Arrival.invocation

theorem kept_new (serial : Nat) (now : TimePoint) : Kept [] (Server.Ctx.new serial now).hub :=
  ⟨fun _ _ h => absurd h (by simp [Server.Ctx.hub, Server.Ctx.new]),
    fun _ ha => absurd ha List.not_mem_nil,
    fun _ _ h => absurd h (by simp [Server.Ctx.hub, Server.Ctx.new]), rfl⟩

variable {arrivals : List Arrival} {h k : Hub Log} {A : SharedPacket → Prop}

theorem Kept.of_env (hk : Kept arrivals h) {env : Log}
    (henv : invocations env.trace = invocations h.env.trace) :
    Kept arrivals { h with env := env } :=
  ⟨hk.heap_le, hk.arrived_le, hk.tracks, henv.trans hk.invoked⟩

theorem Kept.retracked (hk : Kept arrivals h) {number : Nat} {s s' : Session}
    (hs : h.heap number = some s)
    (ht : ∃ used, used ≤ h.now.tick ∧ Tracks s'.tracker
      ((arrivals.filter (fun a => a.session = number)).map Arrival.mark) used) :
    Kept arrivals (h.setSession number s') := by
  refine ⟨?_, hk.arrived_le, ?_, hk.invoked⟩
  · intro n t hn
    rcases Hub.heap_setSession hn with ⟨rfl, -⟩ | ⟨-, hn⟩
    · exact hk.heap_le n s hs
    · exact hk.heap_le n t hn
  · intro n t hn
    rcases Hub.heap_setSession hn with ⟨rfl, rfl⟩ | ⟨-, hn⟩
    · exact ht
    · exact hk.tracks n t hn

theorem Kept.setSession (hk : Kept arrivals h) {number : Nat} {s s' : Session}
    (hs : h.heap number = some s) (ht : s'.tracker = s.tracker) :
    Kept arrivals (h.setSession number s') := by
  refine hk.retracked hs ?_
  rw [ht]
  exact hk.tracks number s hs

/-- **What happens while no request arrives leaves the trackers alone.** -/
theorem Kept.step (hA : ∀ p, A p → p.isPush = true) (hs : Hub.Step A h k)
    (hk : Kept arrivals h) : Kept arrivals k := by
  cases hs with
  | emit effect he =>
    refine hk.of_env ?_
    show invocations (h.env.trace ++ [effect]) = _
    rw [invocations, List.filterMap_append]
    cases effect <;> first | exact List.append_nil _ | exact Bool.noConfusion he
  | later t =>
    refine ⟨hk.heap_le, hk.arrived_le, ?_, hk.invoked⟩
    intro number s hn
    obtain ⟨used, hle, htracks⟩ := hk.tracks number s hn
    exact ⟨used, Nat.le_trans hle (TimePoint.tick_mono (h.now.le_later t)), htracks⟩
  | draw => exact ⟨hk.heap_le, hk.arrived_le, hk.tracks, hk.invoked⟩
  | accept =>
    refine ⟨?_, fun a ha => Nat.le_succ_of_le (hk.arrived_le a ha), ?_, hk.invoked⟩
    · intro n t hn
      rcases Hub.heap_setSession hn with ⟨rfl, -⟩ | ⟨-, hn⟩
      · exact Nat.le_refl _
      · exact Nat.le_succ_of_le (hk.heap_le n t hn)
    · intro n t hn
      rcases Hub.heap_setSession hn with ⟨rfl, rfl⟩ | ⟨-, hn⟩
      · -- nothing has arrived at a session that was not there
        have hnone : arrivals.filter (fun a => a.session = h.curSessionId + 1) = [] := by
          refine List.filter_eq_nil_iff.mpr (fun a ha heq => ?_)
          have hle := hk.arrived_le a ha
          rw [of_decide_eq_true heq] at hle
          exact absurd hle (Nat.not_succ_le_self _)
        refine ⟨0, Nat.zero_le _, ?_⟩
        rw [hnone]
        exact tracks_new
      · exact hk.tracks n t hn
  | session number hs hstep =>
    have hset := hk.setSession hs (Session.tracker_of_step hstep)
    refine hset.of_env ?_
    exact (congrArg invocations (Hub.trace_emitAll h number _)).trans
      (Server.invocations_session h.env.trace number _)
  | request number packet hs hp hpush =>
    rw [hA packet hp] at hpush
    cases hpush
  | invoke number packet processor hs hp hpush hnew =>
    rw [hA packet hp] at hpush
    cases hpush

theorem Kept.steps (hA : ∀ p, A p → p.isPush = true) (hs : ReflTransGen (Hub.Step A) h k)
    (hk : Kept arrivals h) : Kept arrivals k := by
  induction hs with
  | refl => exact hk
  | tail _ hstep ih => exact ih.step hA hstep

theorem Kept.received (hk : Kept arrivals h) {number : Nat} {s : Session}
    (hs : h.heap number = some s) (packet : SharedPacket) :
    ((h.received s packet).1 = true ↔
      ∃ a ∈ arrivals, a.CopyOf number packet ∧ h.now.tick < a.tick + 60) ∧
    ∃ used, used ≤ h.now.tick ∧ Tracks (h.received s packet).2
      (((arrivals.filter (fun a => a.session = number)).map Arrival.mark) ++
        if (h.received s packet).1 then [] else [(packetId packet.cmd packet.seq, h.now.tick)])
      used := by
  obtain ⟨used, hle, htracks⟩ := hk.tracks number s hs
  have hseen : Seen 60 ((arrivals.filter (fun a => a.session = number)).map Arrival.mark) h.now.tick
      (packetId packet.cmd packet.seq) ↔
      ∃ a ∈ arrivals, a.CopyOf number packet ∧ h.now.tick < a.tick + 60 := by
    constructor
    · rintro ⟨x, hx, hid, hlt⟩
      obtain ⟨a, ha, rfl⟩ := List.mem_map.mp hx
      obtain ⟨hin, hnumber⟩ := List.mem_filter.mp ha
      exact ⟨a, hin, ⟨of_decide_eq_true hnumber, packetId_inj.mp hid⟩, hlt⟩
    · rintro ⟨a, hin, ⟨hnumber, hcopy⟩, hlt⟩
      refine ⟨a.mark, List.mem_map_of_mem (List.mem_filter.mpr ⟨hin, ?_⟩),
        packetId_inj.mpr hcopy, hlt⟩
      exact decide_eq_true hnumber
  rcases htracks.receive_cases hle h.now.tick_lt packet.cmd packet.seq with
    ⟨hdup, hwas, hafter⟩ | ⟨hnew, hnot, hafter⟩
  · have hfst : (h.received s packet).1 = true := hdup
    refine ⟨⟨fun _ => hseen.mp hwas, fun _ => hfst⟩, h.now.tick, Nat.le_refl _, ?_⟩
    rw [if_pos hfst, List.append_nil]
    exact hafter
  · have hfst : (h.received s packet).1 = false := hnew
    refine ⟨⟨fun htrue => ?_, fun hsome => absurd (hseen.mpr hsome) hnot⟩, h.now.tick,
      Nat.le_refl _, ?_⟩
    · rw [hfst] at htrue
      cases htrue
    · rw [hfst, if_neg (by decide)]
      exact hafter

theorem Kept.dropped (hk : Kept arrivals h) {number : Nat} {s : Session}
    (hs : h.heap number = some s) {packet : SharedPacket} (hdup : (h.received s packet).1 = true) :
    Kept arrivals (h.setSession number { s with tracker := (h.received s packet).2 }) := by
  obtain ⟨-, used, hle, htracks⟩ := hk.received hs packet
  rw [if_pos hdup, List.append_nil] at htracks
  exact hk.retracked hs ⟨used, hle, htracks⟩

/-- A request was none that the tracker knows, and perhaps a processor was called. -/
theorem Kept.arrived (hk : Kept arrivals h) {number : Nat} {s : Session}
    (hs : h.heap number = some s) {packet : SharedPacket} (hnew : (h.received s packet).1 = false)
    (handed : Bool) {env : Log}
    (henv : invocations env.trace = invocations h.env.trace ++
      if handed then [⟨number, packet, h.now.tick⟩] else []) :
    Kept (arrivals ++ [⟨number, packet, h.now.tick, handed⟩])
      { h.setSession number { s with tracker := (h.received s packet).2 } with env := env } := by
  obtain ⟨-, used, hle, htracks⟩ := hk.received hs packet
  rw [hnew, if_neg (by decide)] at htracks
  refine ⟨?_, ?_, ?_, ?_⟩
  · intro n t hn
    rcases Hub.heap_setSession hn with ⟨rfl, -⟩ | ⟨-, hn⟩
    · exact hk.heap_le n s hs
    · exact hk.heap_le n t hn
  · intro a ha
    rcases List.mem_append.mp ha with ha | ha
    · exact hk.arrived_le a ha
    · rw [List.mem_singleton.mp ha]
      exact hk.heap_le number s hs
  · intro n t hn
    rw [List.filter_append, List.map_append]
    rcases Hub.heap_setSession hn with ⟨rfl, rfl⟩ | ⟨hne, hn⟩
    · refine ⟨used, hle, ?_⟩
      rw [List.filter_cons_of_pos (by exact decide_eq_true rfl)]
      exact htracks
    · obtain ⟨used', hle', htracks'⟩ := hk.tracks n t hn
      refine ⟨used', hle', ?_⟩
      rw [List.filter_cons_of_neg (by simpa using Ne.symm hne), List.filter_nil, List.map_nil,
        List.append_nil]
      exact htracks'
  · rw [henv, hk.invoked, List.filter_append, List.map_append]
    cases handed with
    | true => rfl
    | false => rfl

/-! ### A request reaches the server -/

end Delivery

namespace Server.Ctx

variable {E : Type} [Platform Effect E] {A : SharedPacket → Prop}

/-- The session's object is there when the callback returns. -/
theorem hub_receivePacketCallback (s : Session.Ctx (Around E)) (sessionId : UInt32)
    (packet : SharedPacket) :
    (whole (Session.ReceiveCallback.receivePacketCallback sessionId packet s)).hub =
      ((whole s).dispatchPacket s.env.number sessionId packet).hub := by
  have hkeeps := keeps_dispatchPacket (whole s) s.env.number sessionId packet
  have hid : ((whole s).dispatchPacket s.env.number sessionId packet).sessionIdAt s.env.number =
      some s.sessionId := by
    rw [hkeeps.ids, Stays.sessionIdAt_whole, if_pos rfl]
  obtain ⟨session, hsession, -⟩ := exists_session hid
  unfold Session.ReceiveCallback.receivePacketCallback instReceiveCallbackAround
  simp only
  rw [hsession]
  exact hub_whole_enter hsession

omit [Platform Effect E] in
theorem hub_onHeartbeat (s : Ctx E) (sessionId : UInt32) : (s.onHeartbeat sessionId).hub = s.hub := rfl

theorem dispatchPacket_request (s : Ctx E) (number : Nat) (sessionId : UInt32)
    {packet : SharedPacket} (hpush : packet.isPush = false) :
    (s.req2Processor packet.cmd = none ∧ (s.dispatchPacket number sessionId packet).hub = s.hub) ∨
    ∃ processor, s.req2Processor packet.cmd = some processor ∧
      ReflTransGen (Hub.Step A) (s.hub.emit (.invoked number processor packet s.now))
        (s.dispatchPacket number sessionId packet).hub := by
  have hsame : (s.onHeartbeat sessionId).req2Processor = s.req2Processor := rfl
  rw [dispatchPacket]
  simp only [hpush, hsame]
  rw [if_neg (by decide)]
  cases hprocessor : s.req2Processor packet.cmd with
  | none => exact .inl ⟨rfl, hub_onHeartbeat s sessionId⟩
  | some processor =>
    exact .inr ⟨processor, rfl, moves_runProcessor
      ((s.onHeartbeat sessionId).emit (.invoked number processor packet s.now))⟩

/-- The session and its tracker, after `on_receive_packet`. -/
def noted (s : Ctx E) (number : Nat) (session : Session) (packet : SharedPacket) : Hub E :=
  s.hub.setSession number { session with tracker := (s.hub.received session packet).2 }

end Server.Ctx

/-- **A request is dropped, finds no processor, or is handed to one.** -/
theorem Server.Ctx.runSession_request {A : SharedPacket → Prop} {s : Server.Ctx Log} {number : Nat}
    {session : Session} (hs : s.heap number = some session) {packet : SharedPacket}
    (hpush : packet.isPush = false) (script : List ProcessorRun) :
    ((s.hub.received session packet).1 = true ∧
      (s.runSession number script (fun t => t.dispatchPacket packet)).hub =
        s.noted number session packet) ∨
    ((s.hub.received session packet).1 = false ∧ s.req2Processor packet.cmd = none ∧
      (s.runSession number script (fun t => t.dispatchPacket packet)).hub =
        s.noted number session packet) ∨
    ((s.hub.received session packet).1 = false ∧ ∃ processor,
      s.req2Processor packet.cmd = some processor ∧
      ReflTransGen (Hub.Step A)
        ((s.noted number session packet).emit (.invoked number processor packet s.now))
        (s.runSession number script (fun t => t.dispatchPacket packet)).hub) := by
  have hrun : (s.runSession number script (fun t => t.dispatchPacket packet)).hub =
      (whole (Session.Ctx.dispatchPacket ({ s with script := script }.enter number session)
        packet)).hub := by
    rw [runSession, onSession]
    simp only [hs]
    rfl
  have hnoted : (whole { ({ s with script := script } : Server.Ctx Log).enter number session with
      tracker := (s.hub.received session packet).2 }).hub = s.noted number session packet := rfl
  rw [hrun, Session.Ctx.dispatchPacket, if_neg (by rw [hpush]; decide)]
  cases hdup : (s.hub.received session packet).1 with
  | true =>
    refine .inl ⟨rfl, ?_⟩
    rw [← hnoted]
    exact congrArg (fun t => (whole t).hub) (if_pos hdup)
  | false =>
    have hcallback : Session.Ctx.processRequestPacket
        ({ s with script := script }.enter number session) packet =
        Session.ReceiveCallback.receivePacketCallback session.sessionId packet
          { ({ s with script := script } : Server.Ctx Log).enter number session with
            tracker := (s.hub.received session packet).2 } := by
      refine if_neg ?_
      show ¬ (s.hub.received session packet).1 = true
      rw [hdup]
      decide
    rw [hcallback, hub_receivePacketCallback]
    rcases dispatchPacket_request (A := A)
      (whole { ({ s with script := script } : Server.Ctx Log).enter number session with
        tracker := (s.hub.received session packet).2 }) number session.sessionId hpush with
      ⟨hnone, hsame⟩ | ⟨processor, hsome, hmoves⟩
    · exact .inr (.inl ⟨rfl, hnone, hsame.trans hnoted⟩)
    · exact .inr (.inr ⟨rfl, processor, hsome, hnoted ▸ hmoves⟩)

namespace Delivery

theorem receives_of_request? {event : ServiceEvent} {number : Nat} {packet : SharedPacket}
    (h : event.request? = some (number, packet)) :
    packet.isPush = false ∧ ∃ script, event = .receives number packet script := by
  cases event with
  | receives number' packet' script =>
    rw [Server.ServiceEvent.request?] at h
    by_cases hpush : packet'.isPush = true
    · rw [if_pos hpush] at h
      cases h
    · rw [if_neg hpush] at h
      obtain ⟨rfl, rfl⟩ := Prod.mk.inj (Option.some.inj h)
      exact ⟨Bool.eq_false_of_not_eq_true hpush, script, rfl⟩
  | _ => cases h

theorem moves_of_no_request {s t : Server.Ctx Log} {event : ServiceEvent}
    (hnone : event.request? = none) (hs : s.serviceStep event = some t) :
    s.Moves (fun p => p.isPush = true) t := by
  refine Server.Ctx.moves_serviceStep (fun number packet script heq => ?_) hs
  rw [heq, Server.ServiceEvent.request?] at hnone
  by_contra hno
  rw [if_neg hno] at hnone
  cases hnone

theorem exists_of_isLive {s : Server.Ctx Log} (h : s.Housed) {number : Nat}
    (hlive : s.isLive number = true) : ∃ session, s.heap number = some session := by
  obtain ⟨p, hp, heq⟩ := List.any_eq_true.mp hlive
  have hid := h.ids (p.1, p.2.session) (List.mem_map_of_mem hp)
  obtain ⟨session, hsession, -⟩ := Server.Ctx.exists_session hid
  exact ⟨session, eq_of_beq heq ▸ hsession⟩

theorem suppresses_of_heap {s : Server.Ctx Log} {number : Nat} {session : Session}
    (hs : s.heap number = some session) (packet : SharedPacket) :
    s.suppresses number packet = (s.hub.received session packet).1 := by
  rw [Server.Ctx.suppresses, hs]

/-- What every event keeps. -/
structure Sound (d : Delivery) : Prop where
  housed : d.server.Housed
  kept : Kept d.arrivals d.server.hub

theorem sound_new (serial : Nat) (now : TimePoint) : (new serial now).Sound :=
  ⟨Server.Ctx.housed_new serial now, kept_new serial now⟩

theorem Sound.request {d : Delivery} (h : d.Sound) {number : Nat} {packet : SharedPacket}
    (hpush : packet.isPush = false) (script : List ProcessorRun)
    (hlive : d.server.isLive number = true) :
    Kept (d.arrivals ++ (d.server.arrival? number packet).toList)
      (d.server.runSession number script (fun t => t.dispatchPacket packet)).hub := by
  obtain ⟨session, hsession⟩ := exists_of_isLive h.housed hlive
  rw [Server.Ctx.arrival?, suppresses_of_heap hsession]
  rcases Server.Ctx.runSession_request (A := fun p => p.isPush = true) hsession hpush script with
    ⟨hdup, hhub⟩ | ⟨hnew, hnone, hhub⟩ | ⟨hnew, processor, hsome, hmoves⟩
  · rw [if_pos hdup, hhub, Option.toList_none, List.append_nil]
    exact h.kept.dropped hsession hdup
  · rw [hnew, if_neg (by decide), hnone, hhub]
    exact h.kept.arrived hsession hnew false (List.append_nil _).symm
  · rw [hnew, if_neg (by decide), hsome]
    refine Kept.steps (fun _ hp => hp) hmoves ?_
    exact h.kept.arrived hsession hnew true (List.filterMap_append ..)

/-- **Every event keeps the list and the trackers together.** -/
theorem Sound.step {d d' : Delivery} {event : ServiceEvent} (h : d.Sound)
    (hs : d.step event = some d') : d'.Sound := by
  obtain ⟨s, hserver, rfl⟩ := Option.map_eq_some_iff.mp hs
  refine ⟨h.housed.step hserver, ?_⟩
  show Kept (d.arrivals ++ _) s.hub
  cases hrequest : event.request? with
  | none =>
    rw [Option.bind_none, Option.toList_none, List.append_nil]
    exact Kept.steps (fun _ hp => hp) (moves_of_no_request hrequest hserver) h.kept
  | some r =>
    obtain ⟨hpush, script, rfl⟩ := receives_of_request? hrequest
    rw [Server.Ctx.serviceStep] at hserver
    split at hserver
    · rename_i hlive
      rw [← Option.some.inj hserver]
      exact h.request hpush script hlive
    · cases hserver

theorem Kept.invoked_iff {arrivals : List Arrival} {h : Hub Log} (hk : Kept arrivals h)
    {number : Nat} {packet : SharedPacket} :
    (∃ i ∈ invocations h.env.trace, i.session = number ∧ i.packet.cmd = packet.cmd ∧
      i.packet.seq = packet.seq) ↔ ∃ a ∈ arrivals, a.CopyOf number packet ∧ a.handed = true := by
  rw [hk.invoked]
  constructor
  · rintro ⟨i, hi, hcopy⟩
    obtain ⟨a, ha, rfl⟩ := List.mem_map.mp hi
    obtain ⟨hin, hhanded⟩ := List.mem_filter.mp ha
    exact ⟨a, hin, hcopy, hhanded⟩
  · rintro ⟨a, hin, hcopy, hhanded⟩
    exact ⟨a.invocation, List.mem_map_of_mem (List.mem_filter.mpr ⟨hin, hhanded⟩), hcopy⟩

theorem Sound.delivers_iff_attended {d : Delivery} (h : d.Sound) {event : ServiceEvent} {number : Nat}
    {packet : SharedPacket} (hrequest : event.request? = some (number, packet))
    (hlive : d.server.isLive number = true) :
    d.Delivers event number packet ↔ d.Attended number packet := by
  obtain ⟨session, hsession⟩ := exists_of_isLive h.housed hlive
  have hreceived := (h.kept.received hsession packet).1
  have hsuppress := suppresses_of_heap hsession packet
  constructor
  · intro hd hrecent
    have hdropped : d.server.suppresses number packet = true :=
      hsuppress.trans (hreceived.mpr hrecent)
    exact h.kept.invoked_iff.mp (hd.dropped hdropped)
  · intro ha
    have hdropped : d.server.suppresses number packet = true →
        ∃ i ∈ invocations d.server.env.trace, i.session = number ∧ i.packet.cmd = packet.cmd ∧
          i.packet.seq = packet.seq := by
      intro hdup
      exact h.kept.invoked_iff.mpr (ha (hreceived.mp (hsuppress.symm.trans hdup)))
    refine ⟨hdropped, ?_⟩
    intro hnobody processor hprocessor s hs
    obtain ⟨hpush, script, rfl⟩ := receives_of_request? hrequest
    rw [Server.Ctx.serviceStep, if_pos hlive] at hs
    rw [← Option.some.inj hs]
    rcases Server.Ctx.runSession_request (A := fun p => p.isPush = true) hsession hpush script with
      ⟨hdup, -⟩ | ⟨-, hnone, -⟩ | ⟨-, processor', hsome, hmoves⟩
    · obtain ⟨i, hi, hnumber, hcmd, hseq⟩ := hdropped (hsuppress.trans hdup)
      exact absurd hseq (hnobody i hi hnumber hcmd)
    · rw [hprocessor] at hnone
      cases hnone
    · rw [hprocessor] at hsome
      obtain ⟨rest, hrest⟩ := Hub.steps_grow hmoves
      refine ⟨rest, hrest.symm.trans ?_⟩
      rw [Option.some.inj hsome]
      show (d.server.env.trace ++ [_]) ++ rest = _
      rw [List.append_assoc]
      rfl

/-- **A run does right by every request exactly if every request of it is attended
to.** -/
theorem delivers_iff (serial : Nat) (now : TimePoint) (events : List ServiceEvent) :
    Run.Along step (fun d event => ∀ r ∈ event.request?, d.server.isLive r.1 = true →
      d.Delivers event r.1 r.2) (new serial now) events ↔
    Run.Along step (fun d event => ∀ r ∈ event.request?, d.server.isLive r.1 = true →
      d.Attended r.1 r.2) (new serial now) events := by
  refine Run.along_iff (C := fun _ _ => True) (fun _ _ _ h hs => h.step hs) (fun d event h _ => ?_)
    (sound_new serial now) (Run.along_true _ events)
  refine forall_congr' (fun r => forall_congr' (fun hr => forall_congr' (fun hlive => ?_)))
  exact h.delivers_iff_attended hr hlive

/-! ### A late start -/

/-- A request for `cmd` 11. -/
def lateRequest : SharedPacket :=
  SharedPacket.received (Packet.new 11 3 false (buildHeader 11 3 false 0) none 0)

/-- A session is there and a request comes, before there is a processor for it. -/
def beforeProcessor : List ServiceEvent :=
  [.accept false, .receives 1 lateRequest [], .serverCall (.registerReqProcessor 11 0)]

/-- **The copy that comes after the registration is dropped, and nobody has been
handed the request.** -/
theorem dropped_unhandled :
    ∃ d, Run.run step (new 0 0) beforeProcessor = some d ∧ d.server.isLive 1 = true ∧
      d.server.req2Processor lateRequest.cmd = some 0 ∧
      d.server.suppresses 1 lateRequest = true ∧ invocations d.server.env.trace = [] ∧
      ¬ Run.Along step (fun d event => ∀ r ∈ event.request?, d.server.isLive r.1 = true →
        d.Delivers event r.1 r.2) (new 0 0)
          (beforeProcessor ++ [.receives 1 lateRequest []]) := by
  have hrun : (Run.run step (new 0 0) beforeProcessor).map (fun d => (d.server.isLive 1,
      d.server.req2Processor lateRequest.cmd, d.server.suppresses 1 lateRequest,
      invocations d.server.env.trace)) = some (true, some 0, true, []) := by
    decide +kernel
  obtain ⟨d, hd, heq⟩ := Option.map_eq_some_iff.mp hrun
  simp only [Prod.mk.injEq] at heq
  obtain ⟨hlive, hprocessor, hdup, hnone⟩ := heq
  refine ⟨d, hd, hlive, hprocessor, hdup, hnone, fun hall => ?_⟩
  have h := (Run.along_of_append hall hd).1 (1, lateRequest) rfl hlive
  obtain ⟨i, hi, -⟩ := h.dropped hdup
  rw [hnone] at hi
  exact absurd hi List.not_mem_nil

end Delivery

end Ibase
