import Ibase.Uplink

/-!
# How often a processor runs

A request may reach a server many times: the client writes it again and again,
on every connection it has, and the network may be slow.  What keeps a processor
from running for each copy is the tracker of the session.  It belongs to one
session and remembers sixty seconds, and this is all there is: for copies of one
request the same session runs processors at ticks at least sixty apart
(`Network.invocations_apart`), and two sessions run them as they please.
-/

namespace Ibase

open Relation RecentlyPacketTracker

/-- A processor ran for a packet that a session had received. -/
structure Invocation where
  session : Nat
  packet : SharedPacket
  tick : Nat
  deriving DecidableEq

namespace Invocation

def id (i : Invocation) : UInt64 := packetId i.packet.cmd i.packet.seq

/-- If by the same session and for the same id, `j` is at least sixty ticks after `i`. -/
def Apart (i j : Invocation) : Prop := i.session = j.session → i.id = j.id → i.tick + 60 ≤ j.tick

end Invocation

namespace Server

def Effect.invocation? : Effect → Option Invocation
  | .invoked number _ packet time => some ⟨number, packet, time.tick⟩
  | _ => none

def invocations (log : List Effect) : List Invocation := log.filterMap Effect.invocation?

theorem invocations_session (log : List Effect) (number : Nat) (effects : List Session.Effect) :
    invocations (log ++ effects.map (Effect.session number)) = invocations log := by
  have hnone : (effects.map (Effect.session number)).filterMap Effect.invocation? = [] := by
    rw [List.filterMap_eq_nil_iff]
    intro effect hin
    obtain ⟨effect', -, rfl⟩ := List.mem_map.mp hin
    rfl
  rw [invocations, List.filterMap_append, hnone, List.append_nil]
  rfl

end Server

open Server (Log invocations)

theorem Session.tracker_of_step {A : SharedPacket → Prop} {serial curSeq : Nat} {s s' : Session}
    {effects : List Effect} (h : Step A serial curSeq s effects s') : s'.tracker = s.tracker := by
  cases h with
  | aside _ he hw ht ho => exact ht
  | respond packet cmd seq h => rfl
  | push packet draw cmd time h hdraw => rfl
  | ack packet it hp hpush h => rfl
  | resend visited rest it time h ht => rfl
  | giveUp visited rest it h ht => rfl

namespace Hub

/-- Every session's tracker remembers what the session called processors for. -/
structure Remembers (h : Hub Log) : Prop where
  heap_le : ∀ number s, h.heap number = some s → number ≤ h.curSessionId
  invoked_le : ∀ i ∈ invocations h.env.trace, i.session ≤ h.curSessionId
  tracks : ∀ number s, h.heap number = some s → ∃ hist used, Tracks s.tracker hist used ∧
    used ≤ h.now.tick ∧
    ∀ i ∈ invocations h.env.trace, i.session = number → (i.id, i.tick) ∈ hist
  apart : (invocations h.env.trace).Pairwise Invocation.Apart

variable {A : SharedPacket → Prop}

theorem Remembers.setSession {h : Hub Log} (hr : h.Remembers) {number : Nat} {s : Session}
    (hs : h.heap number = some s) (s' : Session)
    (ht : ∃ hist used, Tracks s'.tracker hist used ∧ used ≤ h.now.tick ∧
      ∀ i ∈ invocations h.env.trace, i.session = number → (i.id, i.tick) ∈ hist) :
    (h.setSession number s').Remembers := by
  refine ⟨fun n t hn => ?_, hr.invoked_le, fun n t hn => ?_, hr.apart⟩
  · rcases heap_setSession hn with ⟨rfl, -⟩ | ⟨-, hn⟩
    · exact hr.heap_le n s hs
    · exact hr.heap_le n t hn
  · rcases heap_setSession hn with ⟨rfl, rfl⟩ | ⟨-, hn⟩
    · exact ht
    · exact hr.tracks n t hn

theorem Remembers.of_env {h : Hub Log} (hr : h.Remembers) {env : Log}
    (henv : invocations env.trace = invocations h.env.trace) :
    ({ h with env := env } : Hub Log).Remembers := by
  refine ⟨hr.heap_le, ?_, ?_, ?_⟩
  · rw [henv]
    exact hr.invoked_le
  · rw [henv]
    exact hr.tracks
  · rw [henv]
    exact hr.apart

/-- The tracker of a session after a request, and what that says of the calls that
the session made before. -/
theorem Remembers.received {h : Hub Log} (hr : h.Remembers) {number : Nat} {s : Session}
    (hs : h.heap number = some s) (packet : SharedPacket) :
    (∃ hist used, Tracks (h.received s packet).2 hist used ∧ used ≤ h.now.tick ∧
      (∀ i ∈ invocations h.env.trace, i.session = number → (i.id, i.tick) ∈ hist) ∧
      ((h.received s packet).1 = false → (packetId packet.cmd packet.seq, h.now.tick) ∈ hist)) ∧
    ((h.received s packet).1 = false → ∀ i ∈ invocations h.env.trace, i.session = number →
      i.id = packetId packet.cmd packet.seq → i.tick + 60 ≤ h.now.tick) := by
  obtain ⟨hist, used, htracks, hused, hin⟩ := hr.tracks number s hs
  rcases htracks.receive_cases hused h.now.tick_lt packet.cmd packet.seq with
    ⟨hdup, -, hafter⟩ | ⟨hnew, hunseen, hafter⟩
  · have hno : (h.received s packet).1 ≠ false := by
      show ¬ (s.tracker.onReceivePacket _ _ _).1 = false
      rw [hdup]
      decide
    exact ⟨⟨hist, _, hafter, Nat.le_refl _, hin, (absurd · hno)⟩, (absurd · hno)⟩
  · refine ⟨⟨_, _, hafter, Nat.le_refl _, ?_, ?_⟩, ?_⟩
    · intro i hi hnum
      exact List.mem_append_left _ (hin i hi hnum)
    · intro _
      exact List.mem_append_right _ (List.mem_singleton.mpr rfl)
    · intro _ i hi hnum hid
      by_contra hlt
      exact hunseen ⟨_, hin i hi hnum, hid, Nat.lt_of_not_le hlt⟩

/-- **Every step keeps the calls apart.** -/
theorem remembers_step {h k : Hub Log} (hs : Step A h k) (hr : h.Remembers) : k.Remembers := by
  cases hs with
  | emit effect he =>
    refine hr.of_env ?_
    show invocations (h.env.trace ++ [effect]) = _
    rw [invocations, List.filterMap_append]
    cases effect <;> first | exact List.append_nil _ | exact Bool.noConfusion he
  | later t =>
    refine ⟨hr.heap_le, hr.invoked_le, fun number s hn => ?_, hr.apart⟩
    obtain ⟨hist, used, htracks, hused, hin⟩ := hr.tracks number s hn
    exact ⟨hist, used, htracks,
      Nat.le_trans hused (TimePoint.tick_mono (h.now.le_later t)), hin⟩
  | draw => exact ⟨hr.heap_le, hr.invoked_le, hr.tracks, hr.apart⟩
  | accept =>
    refine ⟨fun n t hn => ?_, fun i hi => Nat.le_succ_of_le (hr.invoked_le i hi),
      fun n t hn => ?_, hr.apart⟩
    · rcases heap_setSession hn with ⟨rfl, -⟩ | ⟨-, hn⟩
      · exact Nat.le_refl _
      · exact Nat.le_succ_of_le (hr.heap_le n t hn)
    · rcases heap_setSession hn with ⟨rfl, rfl⟩ | ⟨-, hn⟩
      · -- a new session has not called a processor
        refine ⟨[], 0, tracks_new, Nat.zero_le _, fun i hi hnum => ?_⟩
        have hle := hr.invoked_le i hi
        rw [hnum] at hle
        exact absurd hle (Nat.not_succ_le_self _)
      · exact hr.tracks n t hn
  | session number hs hstep =>
    have hset := hr.setSession hs _ (Session.tracker_of_step hstep ▸ hr.tracks number _ hs)
    refine hset.of_env ?_
    exact (congrArg invocations (trace_emitAll h number _)).trans
      (Server.invocations_session h.env.trace number _)
  | request number packet hs hp hpush =>
    obtain ⟨⟨hist, used, htracks, hused, hin, -⟩, -⟩ := hr.received hs packet
    exact hr.setSession hs _ ⟨hist, used, htracks, hused, hin⟩
  | @invoke number s packet processor hs hp hpush hnew =>
    obtain ⟨⟨hist, used, htracks, hused, hin, hkept⟩, hapart⟩ := hr.received hs packet
    have hset := hr.setSession hs { s with tracker := (h.received s packet).2 }
      ⟨hist, used, htracks, hused, hin⟩
    have hinv : invocations (h.env.trace ++ [.invoked number processor packet h.now]) =
        invocations h.env.trace ++ [⟨number, packet, h.now.tick⟩] := by
      rw [invocations, List.filterMap_append]
      rfl
    refine ⟨hset.heap_le, ?_, ?_, ?_⟩
    · show ∀ i ∈ invocations (h.env.trace ++ [_]), _
      rw [hinv]
      intro i hi
      rcases List.mem_append.mp hi with hi | hi
      · exact hr.invoked_le i hi
      · rw [List.mem_singleton.mp hi]
        exact hr.heap_le number s hs
    · intro n t hn
      show ∃ hist used, _ ∧ _ ∧ ∀ i ∈ invocations (h.env.trace ++ [_]), _
      rw [hinv]
      rcases heap_setSession hn with ⟨rfl, rfl⟩ | ⟨hne, hn⟩
      · refine ⟨hist, used, htracks, hused, fun i hi hnum => ?_⟩
        rcases List.mem_append.mp hi with hi | hi
        · exact hin i hi hnum
        · rw [List.mem_singleton.mp hi]
          exact hkept hnew
      · obtain ⟨hist', used', htracks', hused', hin'⟩ := hr.tracks n t hn
        refine ⟨hist', used', htracks', hused', fun i hi hnum => ?_⟩
        rcases List.mem_append.mp hi with hi | hi
        · exact hin' i hi hnum
        · rw [List.mem_singleton.mp hi] at hnum
          exact absurd hnum.symm hne
    · show (invocations (h.env.trace ++ [_])).Pairwise _
      rw [hinv]
      refine List.pairwise_append.mpr ⟨hr.apart, List.pairwise_singleton _ _, ?_⟩
      intro i hi j hj hnum hid
      rw [List.mem_singleton.mp hj] at hnum hid ⊢
      exact hapart hnew i hi hnum hid

theorem remembers_steps {h k : Hub Log} (hs : ReflTransGen (Step A) h k) (hr : h.Remembers) :
    k.Remembers := by
  induction hs with
  | refl => exact hr
  | tail _ hstep ih => exact remembers_step hstep ih

end Hub

/-! ### Whole runs -/

namespace Hub

variable {A P : SharedPacket → Prop}

/-- A processor runs for a packet that has arrived and is no push. -/
theorem invoked_steps {h k : Hub Log} (hs : ReflTransGen (Step A) h k)
    (hA : ∀ p, A p → p.isPush = false → P p)
    (hi : ∀ i ∈ invocations h.env.trace, P i.packet) :
    ∀ i ∈ invocations k.env.trace, P i.packet := by
  induction hs with
  | refl => exact hi
  | tail _ hstep ih =>
    cases hstep with
    | emit effect he =>
      intro i hin
      have hin' : i ∈ invocations (_ ++ [effect]) := hin
      rw [invocations, List.filterMap_append] at hin'
      rcases List.mem_append.mp hin' with hin' | hin'
      · exact ih i hin'
      · cases effect <;> first | exact absurd hin' List.not_mem_nil | exact Bool.noConfusion he
    | later t => exact ih
    | draw => exact ih
    | accept => exact ih
    | session number hs hstep =>
      intro i hin
      rw [trace_emitAll, Server.invocations_session] at hin
      exact ih i hin
    | request number packet hs hp hpush => exact ih
    | invoke number packet processor hs hp hpush hnew =>
      intro i hin
      have hin' : i ∈ invocations (_ ++ [.invoked number processor packet _]) := hin
      rw [invocations, List.filterMap_append] at hin'
      rcases List.mem_append.mp hin' with hin' | hin'
      · exact ih i hin'
      · rw [List.mem_singleton.mp hin']
        exact hA packet hp hpush

end Hub

namespace Network

/-- The calls of processors so far. -/
structure Calling (n : Network) : Prop where
  hub : n.server.hub.Remembers
  past : ∀ log ∈ n.past, (invocations log).Pairwise Invocation.Apart
  received : ∀ log ∈ n.logs, ∀ i ∈ invocations log,
    i.packet ∈ n.uplink ∧ i.packet.isPush = false

theorem remembers_new (serial : Nat) (now : TimePoint) :
    (Server.Ctx.new serial now).hub.Remembers :=
  ⟨fun _ _ h => absurd h (by simp [Server.Ctx.hub, Server.Ctx.new]),
    fun i hi => absurd hi List.not_mem_nil,
    fun _ _ h => absurd h (by simp [Server.Ctx.hub, Server.Ctx.new]), List.Pairwise.nil⟩

theorem calling_new : new.Calling := by
  refine ⟨remembers_new 0 0, fun log hlog => absurd hlog List.not_mem_nil, fun log hlog i hi => ?_⟩
  rw [List.mem_singleton.mp hlog] at hi
  exact absurd hi List.not_mem_nil

theorem calling_step {n m : Network} {e : Event} (h : n.Happens e m) (hl : n.Listening)
    (hc : n.Calling) : m.Calling := by
  have hup : ∀ log ∈ n.logs, ∀ i ∈ invocations log, i.packet ∈ m.uplink ∧ i.packet.isPush = false :=
    fun log hlog i hi =>
      ⟨uplink_subset h hl (hc.received log hlog i hi).1, (hc.received log hlog i hi).2⟩
  cases h with
  | client event w he h => exact ⟨hc.hub, hc.past, hup⟩
  | hear packet script hp =>
    unfold hear at hup ⊢
    split
    · exact ⟨hc.hub, hc.past, by rwa [if_pos ‹_›] at hup⟩
    · exact ⟨hc.hub, hc.past, by rwa [if_neg ‹_›] at hup⟩
  | server _ s stopTested stopCleared h =>
    refine ⟨Hub.remembers_steps h hc.hub, hc.past, fun log hlog => ?_⟩
    rcases List.mem_append.mp hlog with hlog | hlog
    · exact hup log (List.mem_append_left _ hlog)
    · rw [List.mem_singleton.mp hlog]
      exact Hub.invoked_steps (P := fun p => p ∈ n.uplink ∧ p.isPush = false) h
        (fun p hp hpush => ⟨hp, hpush⟩)
        (hup _ (List.mem_append_right _ (List.mem_singleton.mpr rfl)))
  | replace now =>
    refine ⟨remembers_new _ now, fun log hlog => ?_, fun log hlog i hi => ?_⟩
    · rcases List.mem_append.mp hlog with hlog | hlog
      · exact hc.past log hlog
      · rw [List.mem_singleton.mp hlog]
        exact hc.hub.apart
    · rcases List.mem_append.mp hlog with hlog | hlog
      · exact hup log hlog i hi
      · rw [List.mem_singleton.mp hlog] at hi
        exact absurd hi List.not_mem_nil

theorem calling_run {es : List Event} {n : Network} (h : Run.run step new es = some n) :
    n.Listening ∧ n.Calling :=
  Run.run_invariant (P := fun _ _ => True) (I := fun n => n.Listening ∧ n.Calling)
    (fun _ _ _ hi _ hs => ⟨listening_step (step_happens hs) hi.1,
      calling_step (step_happens hs) hi.1 hi.2⟩)
    ⟨listening_new, calling_new⟩ (Run.along_true new es) h

/-- **A processor runs once a minute at most for one request of one session.**  The
packets it runs for are requests, each made by one call of `send_req_async`. -/
theorem invocations_apart {es : List Event} {n : Network} (h : Run.run step new es = some n)
    {log : List Server.Effect} (hlog : log ∈ n.logs) :
    (∀ i ∈ invocations log, ∃ draw cmd, i.packet.origin = .request draw cmd) ∧
    (invocations log).Pairwise (fun i j => i.session = j.session →
      i.packet.origin = j.packet.origin → i.tick + 60 ≤ j.tick) := by
  obtain ⟨hlisten, hcall⟩ := calling_run h
  refine ⟨fun i hi => ?_, ?_⟩
  · obtain ⟨hup, hpush⟩ := hcall.received log hlog i hi
    have hpush' : i.packet.origin.isPush = false := i.packet.isPush_eq ▸ hpush
    rcases hlisten.wrote _ hup with (hrequest | ⟨draw, horigin⟩) | ⟨q, -, horigin⟩
    · exact hrequest
    · rw [horigin] at hpush'
      exact absurd hpush' (by simp [Origin.isPush])
    · rw [horigin] at hpush'
      exact absurd hpush' (by simp [Origin.isPush])
  · have hapart : (invocations log).Pairwise Invocation.Apart := by
      rcases List.mem_append.mp hlog with hlog | hlog
      · exact hcall.past log hlog
      · rw [List.mem_singleton.mp hlog]
        exact hcall.hub.apart
    refine hapart.imp (fun {i j} hij hsession horigin => hij hsession ?_)
    have hcmd : i.packet.cmd = j.packet.cmd := by
      rw [SharedPacket.cmd, SharedPacket.cmd, i.packet.cmd_eq, j.packet.cmd_eq, horigin]
    have hseq : i.packet.seq = j.packet.seq := by
      rw [SharedPacket.seq, SharedPacket.seq, i.packet.seq_eq, j.packet.seq_eq, horigin]
    exact packetId_inj.mpr ⟨hcmd, hseq⟩

/-- The first request of a client, `cmd` 7. -/
def firstRequest : SharedPacket :=
  ⟨Packet.new 7 1 false (buildHeader 7 1 false 0) none 0, .request 1 7, rfl, rfl, rfl⟩

/-- A client connects and sends a request, and there is a processor for it. -/
def sendFirst : List Event :=
  connectFirst ++
    [.serverCall (.registerReqProcessor 7 1), .client (.sendDrawSeq 7 none 0 none 0),
      .client (.sendDrawId 0), .client (.sendPost 0), .client (.run [])]

/-- The connection is lost after the request, and the client connects again and
sends the request again. -/
def sendAgain : List Event :=
  sendFirst ++
    [.sessionReceives 1 firstRequest [], .client (.readFailed 0), .client (.run []),
      .client (.run []), .client (.advance (seconds 6)), .client (.expired 0), .client (.run []),
      .client .connected, .client (.run []), .accept false, .client (.advance (seconds 10)),
      .client (.expired 0), .client (.run []), .sessionReceives 2 firstRequest []]

/-- The processor takes a minute, and a copy of the request waits behind it. -/
def sendLate : List Event :=
  sendFirst ++
    [.client (.advance (seconds 3)), .client (.expired 0), .client (.run []),
      .sessionReceives 1 firstRequest [⟨[], seconds 61⟩], .sessionReceives 1 firstRequest []]

/-- **A request may run its processor twice**: for two sessions in a row, and for one
session a minute apart. -/
theorem invocations_twice :
    (∃ n, Run.run step new sendAgain = some n ∧ ∃ log ∈ n.logs,
      ¬ ((invocations log).map (fun i => i.packet.origin)).Nodup) ∧
    ∃ n, Run.run step new sendLate = some n ∧ ∃ log ∈ n.logs,
      ¬ ((invocations log).map (fun i => (i.session, i.packet.origin))).Nodup := by
  have hagain : (Run.run step new sendAgain).map (fun n => decide (∃ log ∈ n.logs,
      ¬ ((invocations log).map (fun i => i.packet.origin)).Nodup)) = some true := by
    decide +kernel
  have hlate : (Run.run step new sendLate).map (fun n => decide (∃ log ∈ n.logs,
      ¬ ((invocations log).map (fun i => (i.session, i.packet.origin))).Nodup)) = some true := by
    decide +kernel
  obtain ⟨n, hn, htwice⟩ := Option.map_eq_some_iff.mp hagain
  obtain ⟨m, hm, htwice'⟩ := Option.map_eq_some_iff.mp hlate
  exact ⟨⟨n, hn, of_decide_eq_true htwice⟩, m, hm, of_decide_eq_true htwice'⟩

/-- The two calls behind a slow processor. -/
theorem invocations_apart_late :
    ∃ n, Run.run step new sendLate = some n ∧ ∀ log ∈ n.logs,
      (invocations log).Pairwise (fun i j => i.session = j.session →
        i.packet.origin = j.packet.origin → i.tick + 60 ≤ j.tick) := by
  have hrun : (Run.run step new sendLate).isSome = true := by
    decide +kernel
  obtain ⟨n, hn⟩ := Option.isSome_iff_exists.mp hrun
  exact ⟨n, hn, fun log hlog => (invocations_apart hn hlog).2⟩

end Network

end Ibase
