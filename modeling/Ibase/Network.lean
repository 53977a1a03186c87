import Ibase.World
import Ibase.Hub

/-!
# The client and the servers on its port

A `Network` is the client of `World` and the server object that it talks to now;
there may have been others before.  Packets travel whole.  The network may hand a
packet that was written to the other side at any later time, to any session, and
more than once; it may keep it back for good.  That is more than a connection
does, so that what holds here holds with every loss of a connection, with the
copies that were still on their way then, and with a read that completed before
the connection was closed and is processed after.

The handlers of the server may run at any time too.
-/

namespace Ibase

open Relation

/-- What a server object did. -/
structure Server.Log where
  trace : List Server.Effect

instance : Platform Server.Effect Server.Log where
  perform effect log := ⟨log.trace ++ [effect]⟩

namespace Hub

/-- A session's effects are written down in their order. -/
theorem trace_emitAll (h : Hub Server.Log) (number : Nat) (effects : List Session.Effect) :
    (h.emitAll number effects).env.trace =
      h.env.trace ++ effects.map (Server.Effect.session number) := by
  obtain ⟨_, _, _, _, _, log⟩ := h
  induction effects generalizing log with
  | nil => exact (List.append_nil _).symm
  | cons effect effects ih =>
    refine (ih ⟨log.trace ++ [.session number effect]⟩).trans ?_
    exact List.append_assoc ..

theorem step_grows {A : SharedPacket → Prop} {h k : Hub Server.Log} (hs : Step A h k) :
    h.env.trace <+: k.env.trace := by
  cases hs with
  | emit effect he => exact List.prefix_append ..
  | later t => exact List.prefix_refl _
  | draw => exact List.prefix_refl _
  | accept => exact List.prefix_refl _
  | @session number s s' effects hs hstep =>
    rw [trace_emitAll]
    exact List.prefix_append ..
  | request number packet hs hp hpush => exact List.prefix_refl _
  | invoke number packet processor hs hp hpush hnew => exact List.prefix_append ..

theorem steps_grow {A : SharedPacket → Prop} {h k : Hub Server.Log}
    (hs : ReflTransGen (Step A) h k) : h.env.trace <+: k.env.trace := by
  induction hs with
  | refl => exact List.prefix_refl _
  | tail _ hstep ih => exact ih.trans (step_grows hstep)

end Hub

namespace Server.Ctx

/-- A server object as constructed, when the clock shows `now`. -/
def new (serial : Nat) (now : TimePoint) : Ctx Log :=
  { Server.new serial with heap := fun _ => none, env := ⟨[]⟩, now := now, script := [] }

/-- Does `sessions_` hold that session? -/
def isLive {E : Type} (s : Ctx E) (number : Nat) : Bool :=
  s.sessions.any (fun p => p.2.session == number)

/-- A handler of a session, with the user behind its processors. -/
def runSession (s : Ctx Log) (number : Nat) (script : List ProcessorRun)
    (f : Session.Ctx (Around Log) → Session.Ctx (Around Log)) : Ctx Log :=
  { { s with script := script }.onSession number f with script := [] }

end Server.Ctx

/-- The packet that this effect puts on the wire. -/
def Effect.sent? : Effect → Option SharedPacket
  | .asyncWrite packet true => some packet
  | _ => none

/-- The packet that this effect puts on the wire. -/
def Server.Effect.sent? : Server.Effect → Option SharedPacket
  | .session _ (.asyncWrite packet) => some packet
  | _ => none

/-- Is this push a repeat for the tracker of the client? -/
def Client.suppresses (c : Client) (now : TimePoint) (packet : SharedPacket) : Bool :=
  (c.tracker.onReceivePacket (UInt64.ofNat now.tick) packet.cmd packet.seq).1

/-- `process_packet` finds this packet in what the client has read. -/
def World.receive (w : World) (packet : SharedPacket) (script : List CallbackRun) : World :=
  w.leave ((w.enter script).dispatchPacket packet)

/-- `heard` are the pushes that the client has received, and `accepted` those that
were no repeats, with their ticks. -/
structure Network where
  client : World
  server : Server.Ctx Server.Log
  /-- What the server objects did that were there before. -/
  past : List (List Server.Effect)
  stopTested : Nat
  stopCleared : Nat
  heard : List SharedPacket
  accepted : List (SharedPacket × Nat)

namespace Network

/-- A client and a server as constructed. -/
def new : Network := ⟨World.new, Server.Ctx.new 0 0, [], 0, 0, [], []⟩

/-- What each of the server objects did. -/
def logs (n : Network) : List (List Server.Effect) := n.past ++ [n.server.env.trace]

/-- The packets that the client has written. -/
def uplink (n : Network) : List SharedPacket := n.client.io.trace.filterMap Effect.sent?

/-- The packets that a server has written. -/
def downlink (n : Network) : List SharedPacket :=
  n.logs.flatMap (fun log => log.filterMap Server.Effect.sent?)

/-- What is written down when the client receives a packet. -/
def hear (n : Network) (packet : SharedPacket) : Network :=
  if packet.isPush then
    { n with
      heard := n.heard ++ [packet]
      accepted :=
        if n.client.client.suppresses n.client.now packet then n.accepted
        else n.accepted ++ [(packet, n.client.now.tick)] }
  else n

/-- One event. -/
inductive Event where
  /-- An event of the client other than a read of bytes. -/
  | client (event : Ibase.Event)
  | clientReceives (packet : SharedPacket) (script : List CallbackRun)
  /-- An `async_accept` completes. -/
  | accept (ec : Bool)
  | sessionReceives (session : Nat) (packet : SharedPacket) (script : List ProcessorRun)
  | sessionTimer (session : Nat)
  | serverTimer
  /-- A thread calls a function of the server, and the io thread runs it. -/
  | serverCall (call : ServerCall)
  /-- A thread calls `stop` of the server; the call goes on by the two events after. -/
  | stopTest
  | stopClear
  | stopPost
  /-- The clock of the server goes on. -/
  | advance (time : TimePoint)
  /-- The server object is destroyed, and a new one is there. -/
  | replace (now : TimePoint)

/-- One event; `none` if it cannot happen. -/
def step (n : Network) : Event → Option Network
  | .client (.received _ _) => none
  | .client event => (n.client.step event).map (fun w => { n with client := w })
  | .clientReceives packet script =>
    if packet ∈ n.downlink then
      some { n.hear packet with client := n.client.receive packet script }
    else none
  | .accept ec => some { n with server := n.server.onAccepted ec }
  | .sessionReceives session packet script =>
    if n.server.isLive session ∧ packet ∈ n.uplink then
      some { n with server := n.server.runSession session script (fun s => s.dispatchPacket packet) }
    else none
  | .sessionTimer session =>
    if n.server.isLive session then
      some { n with server := n.server.runSession session [] (fun s => s.onPriodicallyTimer) }
    else none
  | .serverTimer => some { n with server := n.server.onPriodicallyTimer }
  | .serverCall call => some { n with server := n.server.serverCall call }
  | .stopTest =>
    some (if n.server.started then { n with stopTested := n.stopTested + 1 } else n)
  | .stopClear =>
    if n.stopTested = 0 then none
    else
      some { n with
        stopTested := n.stopTested - 1
        stopCleared := n.stopCleared + 1
        server := { n.server with started := false } }
  | .stopPost =>
    if n.stopCleared = 0 then none
    else some { n with stopCleared := n.stopCleared - 1, server := n.server.stopImpl }
  | .advance time => some { n with server := { n.server with now := n.server.now.later time } }
  | .replace now =>
    some { n with
      server := Server.Ctx.new (n.server.serial + 1) now
      past := n.logs
      stopTested := 0
      stopCleared := 0 }

/-- A client finds its server: the first session is there. -/
def connectFirst : List Event :=
  [.serverCall .start, .client (.start "host" 1), .client (.run []), .client .connected,
    .client (.run []), .client (.run []), .accept false]

/-! ### What an event does -/

/-- What the server and its sessions do, while packets that the client wrote arrive. -/
abbrev ServerMoves (n : Network) (s : Server.Ctx Server.Log) : Prop :=
  n.server.Moves (fun p => p ∈ n.uplink) s

/-- The four kinds of events. -/
inductive Happens (n : Network) : Event → Network → Prop
  | client (event : Ibase.Event) (w : World) (he : ∀ op bytes, event ≠ .received op bytes)
      (h : n.client.step event = some w) : Happens n (.client event) { n with client := w }
  | hear (packet : SharedPacket) (script : List CallbackRun) (hp : packet ∈ n.downlink) :
      Happens n (.clientReceives packet script)
        { n.hear packet with client := n.client.receive packet script }
  | server (e : Event) (s : Server.Ctx Server.Log) (stopTested stopCleared : Nat)
      (h : n.ServerMoves s) :
      Happens n e { n with server := s, stopTested := stopTested, stopCleared := stopCleared }
  | replace (now : TimePoint) :
      Happens n (.replace now) { n with
        server := Server.Ctx.new (n.server.serial + 1) now
        past := n.logs
        stopTested := 0
        stopCleared := 0 }

theorem moves_runSession {A : SharedPacket → Prop} {s : Server.Ctx Server.Log} {number : Nat}
    (script : List ProcessorRun)
    {f : Session.Ctx (Server.Around Server.Log) → Session.Ctx (Server.Around Server.Log)}
    (hf : ∀ t : Session.Ctx (Server.Around Server.Log),
      (Server.Ctx.whole t).Moves A (Server.Ctx.whole (f t))) :
    s.Moves A (s.runSession number script f) :=
  Server.Ctx.moves_onSession (s := { s with script := script }) (fun _ _ => hf _)

/-- **Every event is of one of the four kinds.** -/
theorem step_happens {n m : Network} {e : Event} (h : n.step e = some m) : n.Happens e m := by
  cases e with
  | client event =>
    have hbytes : ∀ op bytes, event ≠ .received op bytes := by
      rintro op bytes rfl
      exact absurd h (by simp [step])
    have hstep : n.step (.client event) =
        (n.client.step event).map (fun w => { n with client := w }) := by
      cases event <;> first | rfl | exact absurd rfl (hbytes _ _)
    rw [hstep] at h
    obtain ⟨w, hw, rfl⟩ := Option.map_eq_some_iff.mp h
    exact .client event w hbytes hw
  | clientReceives packet script =>
    simp only [step] at h
    split at h
    · rename_i hp
      exact Option.some.inj h ▸ .hear packet script hp
    · exact absurd h (by simp)
  | accept ec =>
    exact Option.some.inj h ▸ .server _ _ _ _ (Server.Ctx.moves_onAccepted n.server ec)
  | sessionReceives session packet script =>
    simp only [step] at h
    split at h
    · rename_i hp
      exact Option.some.inj h ▸ .server _ _ _ _
        (moves_runSession script (fun t => Server.Ctx.moves_session_dispatchPacket t hp.2))
    · exact absurd h (by simp)
  | sessionTimer session =>
    simp only [step] at h
    split at h
    · exact Option.some.inj h ▸ .server _ _ _ _
        (moves_runSession [] Server.Ctx.moves_session_onPriodicallyTimer)
    · exact absurd h (by simp)
  | serverTimer => exact Option.some.inj h ▸ .server _ _ _ _ (Server.Ctx.moves_of_hub_eq rfl)
  | serverCall call =>
    exact Option.some.inj h ▸ .server _ _ _ _ (Server.Ctx.moves_serverCall n.server call)
  | stopTest =>
    simp only [step] at h
    split at h
    · exact Option.some.inj h ▸ .server _ n.server _ _ ReflTransGen.refl
    · exact Option.some.inj h ▸ .server _ n.server _ _ ReflTransGen.refl
  | stopClear =>
    simp only [step] at h
    split at h
    · exact absurd h (by simp)
    · exact Option.some.inj h ▸ .server _ _ _ _ (Server.Ctx.moves_of_hub_eq rfl)
  | stopPost =>
    simp only [step] at h
    split at h
    · exact absurd h (by simp)
    · exact Option.some.inj h ▸ .server _ _ _ _ (Server.Ctx.moves_stopImpl n.server)
  | advance time =>
    exact Option.some.inj h ▸ .server _ _ _ _ (ReflTransGen.single (.later n.server.hub time))
  | replace now => exact Option.some.inj h ▸ .replace now

/-! ### What is on the wire stays -/

theorem mem_uplink {n : Network} {packet : SharedPacket} :
    packet ∈ n.uplink ↔ .asyncWrite packet true ∈ n.client.io.trace := by
  rw [uplink, List.mem_filterMap]
  constructor
  · rintro ⟨effect, hin, heq⟩
    cases effect with
    | asyncWrite packet' isOpen =>
      cases isOpen with
      | true => exact Option.some.inj heq ▸ hin
      | false => exact absurd heq (by simp [Effect.sent?])
    | _ => exact absurd heq (by simp [Effect.sent?])
  · exact fun hin => ⟨_, hin, rfl⟩

theorem mem_downlink {n : Network} {packet : SharedPacket} :
    packet ∈ n.downlink ↔
      ∃ log ∈ n.logs, ∃ number, .session number (.asyncWrite packet) ∈ log := by
  rw [downlink, List.mem_flatMap]
  refine exists_congr (fun log => and_congr_right (fun _ => ?_))
  rw [List.mem_filterMap]
  constructor
  · rintro ⟨effect, hin, heq⟩
    cases effect with
    | session number effect =>
      cases effect with
      | asyncWrite packet' => exact ⟨number, Option.some.inj heq ▸ hin⟩
      | _ => exact absurd heq (by simp [Server.Effect.sent?])
    | _ => exact absurd heq (by simp [Server.Effect.sent?])
  · rintro ⟨number, hin⟩
    exact ⟨_, hin, rfl⟩

theorem downlink_subset {n m : Network} {e : Event} (h : n.Happens e m) {packet : SharedPacket}
    (hin : packet ∈ n.downlink) : packet ∈ m.downlink := by
  obtain ⟨log, hlog, number, hw⟩ := mem_downlink.mp hin
  cases h with
  | client event w he h => exact hin
  | hear packet' script hp =>
    have hsame : (n.hear packet').logs = n.logs := by
      unfold hear
      split <;> rfl
    exact mem_downlink.mpr ⟨log, hsame ▸ hlog, number, hw⟩
  | server _ s stopTested stopCleared h =>
    rcases List.mem_append.mp hlog with hlog | hlog
    · exact mem_downlink.mpr ⟨log, List.mem_append_left _ hlog, number, hw⟩
    · rw [List.mem_singleton.mp hlog] at hw
      exact mem_downlink.mpr ⟨_, List.mem_append_right _ (List.mem_singleton.mpr rfl), number,
        (Hub.steps_grow h).subset hw⟩
  | replace now => exact mem_downlink.mpr ⟨log, List.mem_append_left _ hlog, number, hw⟩

end Network

end Ibase
