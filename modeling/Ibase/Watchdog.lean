import Ibase.Lib.Lease
import Ibase.Emission
import Ibase.Delivery
import Ibase.Publication

/-!
# Which sessions the server keeps

`sessions_` is a table of leases.  `add_new_session` grants one, `on_heartbeat` renews
it, the periodic timer ends those that nothing renewed for twenty seconds, and
`stop_impl` ends them all.  Session ids wrap, so a new session takes the place of an old
one that had its id.

Every push renews the lease of its session, and every request that is no repeat; a
request that the session's tracker knows is dropped before `on_heartbeat`.
-/

namespace Ibase

open Lease

namespace Server

abbrev SessionMark := Lease.Mark Nat TimePoint

namespace Effect

/-- `stop_impl` stops the timer, and nothing else of the server does. -/
def isStop : Effect → Bool
  | .post (.stopTimerImpl _) => true
  | _ => false

def clear? (e : Effect) : Option SessionMark := if e.isStop then some .clear else none

theorem filterMap_clear? {effects : List Effect} (h : ∀ e ∈ effects, e.isStop = false) :
    effects.filterMap clear? = [] := by
  refine List.filterMap_eq_nil_iff.mpr (fun e he => ?_)
  rw [clear?, h e he]
  rfl

end Effect

/-- The check that the periodic timer makes. -/
def Silent (cur last : TimePoint) : Prop := maxHeartbeatIntervalSeconds ≤ secondsPassed cur last

namespace Ctx

/-- The session of that number is in `sessions_`, with that time. -/
def Kept {E : Type} (s : Ctx E) (number : Nat) (time : TimePoint) : Prop :=
  ∃ id, (id, ⟨number, time⟩) ∈ s.sessions

/-- What an event does to the sessions before a processor runs. -/
def mark? (s : Ctx Log) : ServiceEvent → Option SessionMark
  | .accept false => if s.acceptorOpen then some (.grant (s.curSessionId + 1) s.now) else none
  | .receives number packet _ =>
    if !packet.isPush && s.suppresses number packet then none else some (.renew number s.now)
  | .serverTimer => some (.check s.now)
  | _ => none

/-- What a step does to the sessions. -/
def marks (s : Ctx Log) (event : ServiceEvent) (t : Ctx Log) : List SessionMark :=
  (s.mark? event).toList ++ (t.env.trace.drop s.env.trace.length).filterMap Effect.clear?

/-- What a run does to the sessions. -/
def marksAlong : Ctx Log → List ServiceEvent → List SessionMark
  | _, [] => []
  | s, event :: events =>
    match s.serviceStep event with
    | none => []
    | some t => s.marks event t ++ marksAlong t events

/-! ### Functions that leave the sessions alone -/

/-- `t` comes from `s` with the same sessions, and without a stop. -/
structure Quiet (s t : Ctx Log) : Prop where
  sessions : t.sessions = s.sessions
  trace : ∃ effects, t.env.trace = s.env.trace ++ effects ∧ ∀ e ∈ effects, e.isStop = false

namespace Quiet

variable {s t u : Ctx Log}

theorem of_eq (hsessions : t.sessions = s.sessions) (henv : t.env = s.env) : s.Quiet t :=
  ⟨hsessions, [], by rw [henv, List.append_nil], fun _ he => absurd he List.not_mem_nil⟩

theorem refl (s : Ctx Log) : s.Quiet s := of_eq rfl rfl

theorem trans (h : s.Quiet t) (h' : t.Quiet u) : s.Quiet u := by
  obtain ⟨effects, htrace, hno⟩ := h.trace
  obtain ⟨effects', htrace', hno'⟩ := h'.trace
  refine ⟨h'.sessions.trans h.sessions, effects ++ effects', ?_, ?_⟩
  · rw [htrace', htrace, List.append_assoc]
  · intro e he
    rcases List.mem_append.mp he with he | he
    · exact hno e he
    · exact hno' e he

theorem emit (s : Ctx Log) {e : Effect} (h : e.isStop = false) : s.Quiet (s.emit e) :=
  ⟨rfl, [e], rfl, fun _ hf => List.mem_singleton.mp hf ▸ h⟩

theorem foldl {α : Type} {f : Ctx Log → α → Ctx Log} (hf : ∀ s a, Quiet s (f s a)) (as : List α)
    (s : Ctx Log) : s.Quiet (as.foldl f s) := by
  induction as generalizing s with
  | nil => exact refl s
  | cons a as ih => exact (hf s a).trans (ih (f s a))

end Quiet

/-- What a function of a session does alone. -/
theorem Emits.quiet {A : SharedPacket → Prop} {s t : Session.Ctx (Around Log)} (h : Emits A s t) :
    (whole s).Quiet (whole t) := by
  obtain ⟨effects, henv, -⟩ := h.env
  refine ⟨?_, effects.map (Effect.session s.env.number), ?_, fun e he => ?_⟩
  · rw [whole, henv]
    rfl
  · rw [whole, henv]
    rfl
  · obtain ⟨effect, -, rfl⟩ := List.mem_map.mp he
    rfl

theorem quiet_onSession {A : SharedPacket → Prop} {s : Ctx Log} {number : Nat}
    {f : Session.Ctx (Around Log) → Session.Ctx (Around Log)} (hf : ∀ t, Emits A t (f t)) :
    s.Quiet (s.onSession number f) := by
  rw [onSession]
  split
  · exact .refl s
  · exact ⟨(hf _).quiet.sessions, (hf _).quiet.trace⟩

theorem quiet_startImpl (s : Ctx Log) : s.Quiet s.startImpl.2 := by
  rw [startImpl]
  split
  · exact .refl s
  · refine ⟨rfl, [.asyncAccept s.acceptorOpen, .post (.startTimerImpl s.timer.nextTimerId 1 1)], ?_, ?_⟩
    · exact List.append_assoc s.env.trace [_] [_]
    · intro e he
      rcases List.mem_cons.mp he with rfl | he
      · rfl
      · rw [List.mem_singleton.mp he]
        rfl

theorem quiet_sendPacket (s : Ctx Log) (sessionId : UInt32) (origin : Origin)
    (rspBuf : Option (List UInt8)) (rspLen : UInt32) :
    s.Quiet (s.sendPacket sessionId origin rspBuf rspLen).2 := by
  rw [sendPacket]
  split
  · exact .refl s
  split
  · exact .refl s
  · exact quiet_onSession (A := fun _ => True) (fun t => Emits.sendPacket t trivial)

theorem quiet_publishNotificationImpl (s : Ctx Log) (cmd : UInt32) (buf : Option (List UInt8))
    (len : UInt32) : s.Quiet (s.publishNotificationImpl cmd buf len).2 := by
  have hdraw : s.Quiet { s with curSeq := s.curSeq + 1 } := .of_eq rfl rfl
  refine hdraw.trans (Quiet.foldl (fun t p => ?_) s.sessions _)
  split
  · exact .refl t
  · exact quiet_sendPacket t ..

/-! ### Marks -/

/-- `t` comes from `s` by these marks and the stops since. -/
def Marked (marks : List SessionMark) (s t : Ctx Log) : Prop :=
  ∃ effects, t.env.trace = s.env.trace ++ effects ∧
    t.Kept = (marks ++ effects.filterMap Effect.clear?).foldl (After UInt32.ofNat Silent) s.Kept

theorem Quiet.kept {s t : Ctx Log} (h : s.Quiet t) : t.Kept = s.Kept := by
  funext number time
  rw [Kept, Kept, h.sessions]

theorem Quiet.marked {s t : Ctx Log} (h : s.Quiet t) : Marked [] s t := by
  obtain ⟨effects, htrace, hno⟩ := h.trace
  refine ⟨effects, htrace, ?_⟩
  rw [Effect.filterMap_clear? hno]
  exact h.kept

/-- Nothing was done to the sessions before the marks. -/
theorem Quiet.marked_trans {s t u : Ctx Log} (h : s.Quiet t) {marks : List SessionMark}
    (h' : Marked marks t u) : Marked marks s u := by
  obtain ⟨effects, htrace, hno⟩ := h.trace
  obtain ⟨effects', htrace', hkept⟩ := h'
  refine ⟨effects ++ effects', ?_, ?_⟩
  · rw [htrace', htrace, List.append_assoc]
  · rw [List.filterMap_append, Effect.filterMap_clear? hno, List.nil_append, hkept, h.kept]

namespace Marked

variable {s t u : Ctx Log} {marks : List SessionMark}

theorem trans (h : Marked marks s t) (h' : Marked [] t u) : Marked marks s u := by
  obtain ⟨effects, htrace, hkept⟩ := h
  obtain ⟨effects', htrace', hkept'⟩ := h'
  refine ⟨effects ++ effects', ?_, ?_⟩
  · rw [htrace', htrace, List.append_assoc]
  · rw [List.filterMap_append, ← List.append_assoc, List.foldl_append, ← hkept]
    exact hkept'

theorem single {mark : SessionMark} (htrace : t.env = s.env)
    (hkept : ∀ number time, t.Kept number time ↔ After UInt32.ofNat Silent s.Kept mark number time) :
    Marked [mark] s t := by
  refine ⟨[], by rw [htrace, List.append_nil], ?_⟩
  funext number time
  exact propext (hkept number time)

theorem foldl {α : Type} {f : Ctx Log → α → Ctx Log} (hf : ∀ s a, Marked [] s (f s a))
    (as : List α) (s : Ctx Log) : Marked [] s (as.foldl f s) := by
  induction as generalizing s with
  | nil => exact (Quiet.refl s).marked
  | cons a as ih => exact (hf s a).trans (ih (f s a))

/-- The marks of a step. -/
theorem kept_eq {event : ServiceEvent} (h : Marked (s.mark? event).toList s t) :
    t.Kept = (s.marks event t).foldl (After UInt32.ofNat Silent) s.Kept := by
  obtain ⟨effects, htrace, hkept⟩ := h
  rw [Ctx.marks, htrace, List.drop_left]
  exact hkept

end Marked

/-- **A stop ends every session.** -/
theorem marked_stopImpl (s : Ctx Log) : Marked [] s s.stopImpl := by
  have hcleared : ∀ number time, ¬ s.stopImpl.Kept number time := by
    rintro number time ⟨id, hin⟩
    exact absurd hin List.not_mem_nil
  let stopped : Ctx Log := { s.stopTimer s.checkTimerId with checkTimerId := 0 }
  have hclose : stopped.Quiet stopped.doClose := by
    rw [doClose]
    split
    · have hclosed : Quiet _ (emit { stopped with acceptorOpen := false } .closeAcceptor) := .emit _ rfl
      exact ⟨hclosed.sessions, hclosed.trace⟩
    · exact .refl stopped
  obtain ⟨effects, htrace, hno⟩ := hclose.trace
  refine ⟨.post (.stopTimerImpl s.checkTimerId) :: effects, ?_, ?_⟩
  · refine htrace.trans ?_
    show (s.env.trace ++ [_]) ++ effects = _
    rw [List.append_assoc, List.singleton_append]
  · have hclear : Effect.clear? (.post (.stopTimerImpl s.checkTimerId)) = some .clear := rfl
    rw [List.filterMap_cons_some hclear, Effect.filterMap_clear? hno]
    funext number time
    exact propext (iff_of_false (hcleared number time) not_after_clear)

theorem marked_serverCall (s : Ctx Log) (call : ServerCall) : Marked [] s (s.serverCall call) := by
  cases call with
  | start => exact (quiet_startImpl s).marked
  | stop =>
    rw [serverCall]
    split
    · exact (Quiet.refl s).marked
    · have hclear : s.Quiet { s with started := false } := .of_eq rfl rfl
      exact hclear.marked_trans (marked_stopImpl _)
  | registerReqProcessor cmd processor => exact Quiet.marked (.of_eq rfl rfl)
  | unregisterReqProcessor cmd => exact Quiet.marked (.of_eq rfl rfl)
  | sendRspForReq sessionId cmd seq rspBuf rspLen => exact (quiet_sendPacket s ..).marked
  | publishNotification cmd buf len => exact (quiet_publishNotificationImpl s cmd buf len).marked

theorem marked_runProcessor (s : Ctx Log) : Marked [] s s.runProcessor := by
  rw [runProcessor]
  split
  · exact (Quiet.refl s).marked
  · rename_i run rest _
    have hdrop : s.Quiet { s with script := rest } := .of_eq rfl rfl
    have hcalls := Marked.foldl marked_serverCall run.calls { s with script := rest }
    exact (hdrop.marked_trans hcalls).trans (Quiet.marked (.of_eq rfl rfl))

/-! ### Grants -/

/-- The number of a session gives its id. -/
def Numbered {E : Type} (s : Ctx E) : Prop := ∀ p ∈ s.roll, p.1 = UInt32.ofNat p.2

theorem Keeps.numbered {E : Type} {s t : Ctx E} (h : s.Keeps t) (hs : s.Numbered) : t.Numbered :=
  fun p hp => hs p (h.roll.subset hp)

theorem mem_insertSession_iff {sessions : List (UInt32 × SessionInfo)} {id : UInt32}
    {info : SessionInfo} {p : UInt32 × SessionInfo} :
    p ∈ insertSession sessions id info ↔ p = (id, info) ∨ (p ∈ sessions ∧ p.1 ≠ id) := by
  rw [insertSession, List.mem_append, List.mem_cons, List.mem_filter, List.mem_filter,
    decide_eq_true_iff, decide_eq_true_iff]
  have hne : p.1 ≠ id ↔ p.1 < id ∨ id < p.1 := by
    rw [ne_eq, UInt32.lt_iff_toNat_lt, UInt32.lt_iff_toNat_lt, ← UInt32.toNat_inj]
    omega
  rw [hne]
  tauto

/-- **A new session takes the place of one with its id.** -/
theorem marked_insertSession {s : Ctx Log} (h : s.Numbered) (number : Nat) (time : TimePoint) :
    Marked [.grant number time] s
      { s with sessions := insertSession s.sessions (UInt32.ofNat number) ⟨number, time⟩ } := by
  refine .single rfl (fun n t => ?_)
  rw [after_grant]
  constructor
  · rintro ⟨id, hin⟩
    rcases mem_insertSession_iff.mp hin with heq | ⟨hold, hid⟩
    · cases heq
      exact .inl ⟨rfl, rfl⟩
    · have hnumber : id = UInt32.ofNat n := h (id, n) (List.mem_map_of_mem hold)
      exact .inr ⟨fun heq => hid (hnumber.trans heq.symm), id, hold⟩
  · rintro (⟨rfl, rfl⟩ | ⟨hid, id, hold⟩)
    · exact ⟨_, mem_insertSession_iff.mpr (.inl rfl)⟩
    · have hnumber : id = UInt32.ofNat n := h (id, n) (List.mem_map_of_mem hold)
      exact ⟨id, mem_insertSession_iff.mpr (.inr ⟨hold, fun heq => hid (heq.symm.trans hnumber)⟩)⟩

theorem quiet_onSession_doStart (s : Ctx Log) (number : Nat) :
    s.Quiet (s.onSession number (fun t => t.doStart)) :=
  quiet_onSession (A := fun _ => False) Emits.doStart

theorem marked_addNewSession {s : Ctx Log} (h : s.Numbered) :
    Marked [.grant (s.curSessionId + 1) s.now] s s.addNewSession := by
  let drawn : Ctx Log := { s with
    curSessionId := s.curSessionId + 1
    heap := Function.update s.heap (s.curSessionId + 1)
      (some (Session.new (UInt32.ofNat (s.curSessionId + 1)))) }
  have hdrawn : s.Quiet drawn := .of_eq rfl rfl
  have hstart := quiet_onSession_doStart drawn (s.curSessionId + 1)
  have hnumbered : (drawn.onSession (s.curSessionId + 1) (fun t => t.doStart)).Numbered := by
    intro p hp
    refine h p ?_
    rw [Ctx.roll, hstart.sessions] at hp
    exact hp
  exact (hdrawn.trans hstart).marked_trans (marked_insertSession hnumbered _ s.now)

/-! ### Renewals -/

/-- The entry of a session in the map is found by its id. -/
theorem sessions_onHeartbeat {s : Ctx Log} (hs : s.Housed) (h : s.Numbered) {number : Nat}
    {last : TimePoint} (hlive : s.Kept number last) :
    (s.onHeartbeat (UInt32.ofNat number)).sessions = s.sessions.map (fun p =>
      if number = p.2.session then (p.1, { p.2 with lastRecvTimepoint := s.now }) else p) := by
  refine List.map_congr_left (fun p hp => ?_)
  have hnumber : p.1 = UInt32.ofNat p.2.session := h (p.1, p.2.session) (List.mem_map_of_mem hp)
  have hid : p.1 = UInt32.ofNat number ↔ number = p.2.session := by
    refine ⟨fun heq => ?_, fun heq => heq ▸ hnumber⟩
    obtain ⟨id, hin⟩ := hlive
    have hsame : id = UInt32.ofNat number := h (id, number) (List.mem_map_of_mem hin)
    have hfound := hs.getSession hp
    rw [heq, ← hsame, hs.getSession hin] at hfound
    exact Option.some.inj hfound
  exact ite_congr (propext hid) (fun _ => rfl) (fun _ => rfl)

/-- **A packet renews its session.** -/
theorem marked_onHeartbeat {s : Ctx Log} (hs : s.Housed) (h : s.Numbered) {number : Nat}
    {last : TimePoint} (hlive : s.Kept number last) :
    Marked [.renew number s.now] s (s.onHeartbeat (UInt32.ofNat number)) := by
  refine .single rfl (fun n t => ?_)
  rw [after_renew, Kept, sessions_onHeartbeat hs h hlive]
  by_cases hn : number = n
  · rw [if_pos hn]
    constructor
    · rintro ⟨id, hin⟩
      obtain ⟨p, hp, heq⟩ := List.mem_map.mp hin
      by_cases hsession : number = p.2.session
      · rw [if_pos hsession] at heq
        cases heq
        exact ⟨rfl, p.2.lastRecvTimepoint, p.1, hp⟩
      · rw [if_neg hsession] at heq
        rw [heq] at hsession
        exact absurd hn hsession
    · rintro ⟨rfl, time, id, hin⟩
      exact ⟨id, List.mem_map.mpr ⟨(id, ⟨n, time⟩), hin, if_pos hn⟩⟩
  · rw [if_neg hn]
    constructor
    · rintro ⟨id, hin⟩
      obtain ⟨p, hp, heq⟩ := List.mem_map.mp hin
      by_cases hsession : number = p.2.session
      · rw [if_pos hsession] at heq
        cases heq
        exact absurd hsession hn
      · rw [if_neg hsession] at heq
        exact ⟨id, heq ▸ hp⟩
    · rintro ⟨id, hin⟩
      exact ⟨id, List.mem_map.mpr ⟨(id, ⟨n, t⟩), hin, if_neg hn⟩⟩

theorem marked_dispatchPacket {s : Ctx Log} (hs : s.Housed) (h : s.Numbered) {number : Nat}
    {last : TimePoint} (hlive : s.Kept number last) (packet : SharedPacket) :
    Marked [.renew number s.now] s (s.dispatchPacket number (UInt32.ofNat number) packet) := by
  refine (marked_onHeartbeat hs h hlive).trans ?_
  rw [dispatchPacket]
  generalize s.onHeartbeat (UInt32.ofNat number) = t
  split
  · exact (Quiet.refl t).marked
  split
  · exact (Quiet.refl t).marked
  · exact (Quiet.emit t rfl).marked_trans (marked_runProcessor _)

/-- The session is there when the callback returns. -/
theorem quiet_receivePacketCallback (s : Session.Ctx (Around Log)) (sessionId : UInt32)
    (packet : SharedPacket) :
    ((whole s).dispatchPacket s.env.number sessionId packet).Quiet
      (whole (Session.ReceiveCallback.receivePacketCallback sessionId packet s)) := by
  have hkeeps := keeps_dispatchPacket (whole s) s.env.number sessionId packet
  have hid : ((whole s).dispatchPacket s.env.number sessionId packet).sessionIdAt s.env.number =
      some s.sessionId := by
    rw [hkeeps.ids, Stays.sessionIdAt_whole, if_pos rfl]
  obtain ⟨session, hsession, -⟩ := exists_session hid
  unfold Session.ReceiveCallback.receivePacketCallback instReceiveCallbackAround
  simp only
  rw [hsession]
  exact .of_eq rfl rfl

/-- The handler of a session in `sessions_`, up to where it hands the packet over. -/
theorem marked_receivePacketCallback {s t : Session.Ctx (Around Log)} (hs : (whole s).Housed)
    (h : (whole s).Numbered) {last : TimePoint} (hlive : (whole s).Kept s.env.number last)
    (hid : s.sessionId = UInt32.ofNat s.env.number) (hstays : Stays s t)
    (hemits : Emits (fun _ => False) s t)
    (packet : SharedPacket) :
    Marked [.renew s.env.number s.now] (whole s)
      (whole (Session.ReceiveCallback.receivePacketCallback t.sessionId packet t)) := by
  have hkeeps := hstays.whole
  have hlive' : (whole t).Kept t.env.number last := by
    rw [hemits.quiet.kept, hstays.number]
    exact hlive
  have hdispatch := marked_dispatchPacket (hkeeps.housed hs) (hkeeps.numbered h) hlive' packet
  have hsame : t.sessionId = UInt32.ofNat t.env.number := by
    rw [hstays.sessionId, hstays.number, hid]
  have hnow : (whole t).now = s.now := hemits.now
  rw [hnow, hstays.number, ← hstays.number, ← hsame, hstays.number] at hdispatch
  have hcallback := quiet_receivePacketCallback t t.sessionId packet
  rw [hstays.number] at hcallback
  exact hemits.quiet.marked_trans (hdispatch.trans hcallback.marked)

/-! ### Events -/

/-- What every event keeps. -/
structure Sound (s : Ctx Log) : Prop where
  housed : s.Housed
  numbered : s.Numbered

theorem Keeps.sound {s t : Ctx Log} (h : s.Keeps t) (hs : s.Sound) : t.Sound :=
  ⟨h.housed hs.housed, h.numbered hs.numbered⟩

theorem Sound.addNewSession {s : Ctx Log} (h : s.Sound) : s.addNewSession.Sound := by
  refine ⟨h.housed.addNewSession, fun p hp => ?_⟩
  obtain ⟨q, hq, rfl⟩ := List.mem_map.mp hp
  rcases mem_insertSession hq with rfl | hold
  · rfl
  · rw [(quiet_onSession_doStart _ (s.curSessionId + 1)).sessions] at hold
    exact h.numbered _ (List.mem_map_of_mem hold)

theorem kept_of_isLive {s : Ctx Log} {number : Nat} (h : s.isLive number = true) :
    ∃ last, s.Kept number last := by
  obtain ⟨p, hp, heq⟩ := List.any_eq_true.mp h
  rw [← eq_of_beq heq]
  exact ⟨p.2.lastRecvTimepoint, p.1, hp⟩

/-- A session in the map is there, and has the id of its number. -/
theorem Sound.exists_session {s : Ctx Log} (h : s.Sound) {number : Nat} {last : TimePoint}
    (hlive : s.Kept number last) :
    ∃ session, s.heap number = some session ∧ session.sessionId = UInt32.ofNat number := by
  obtain ⟨id, hin⟩ := hlive
  have hid := h.housed.ids (id, number) (List.mem_map_of_mem hin)
  obtain ⟨session, hsession, heq⟩ := Ctx.exists_session hid
  exact ⟨session, hsession, heq.trans (h.numbered (id, number) (List.mem_map_of_mem hin))⟩

theorem marked_receives {s : Ctx Log} (h : s.Sound) {number : Nat} (hlive : s.isLive number = true)
    (packet : SharedPacket) (script : List ProcessorRun) :
    Marked (s.mark? (.receives number packet script)).toList s
      (s.runSession number script (fun t => t.dispatchPacket packet)) := by
  obtain ⟨last, hkept⟩ := kept_of_isLive hlive
  obtain ⟨session, hsession, hid⟩ := h.exists_session hkept
  let c : Session.Ctx (Around Log) := ({ s with script := script } : Ctx Log).enter number session
  have henter : s.Quiet (whole c) := .of_eq rfl rfl
  have hkeeps : s.Keeps (whole c) :=
    ⟨sessionIdAt_whole_enter (s := { s with script := script }) hsession, List.Sublist.refl _, rfl⟩
  have hend : (whole (c.dispatchPacket packet)).Quiet
      (s.runSession number script (fun t => t.dispatchPacket packet)) := by
    rw [runSession, onSession]
    simp only [hsession]
    exact .of_eq rfl rfl
  have hcallback := fun t => marked_receivePacketCallback (t := t) (hkeeps.housed h.housed)
    (hkeeps.numbered h.numbered) (s := c) hkept hid
  suffices hmarked : Marked (s.mark? (.receives number packet script)).toList (whole c)
      (whole (c.dispatchPacket packet)) from henter.marked_trans (hmarked.trans hend.marked)
  rw [mark?, Session.Ctx.dispatchPacket]
  cases packet.isPush with
  | true => exact hcallback _ (Stays.ackEntry c packet) (Emits.ackEntry c packet) packet
  | false =>
    have hsuppress : s.suppresses number packet = (s.hub.received session packet).1 :=
      Delivery.suppresses_of_heap hsession packet
    let told : Session.Ctx (Around Log) := { c with tracker := (s.hub.received session packet).2 }
    have hstays : Stays c told := ⟨rfl, rfl, .refl _⟩
    have hemits : Emits (fun _ => False) c told := .of_eq rfl rfl
    have hrequest : c.processRequestPacket packet = if s.suppresses number packet then told
        else Session.ReceiveCallback.receivePacketCallback told.sessionId packet told := by
      rw [hsuppress]
      rfl
    rw [hrequest]
    cases s.suppresses number packet with
    | true => exact hemits.quiet.marked
    | false => exact hcallback told hstays hemits packet

theorem marked_onPriodicallyTimer (s : Ctx Log) :
    Marked [.check s.now] s s.onPriodicallyTimer := by
  refine .single rfl (fun number time => ?_)
  rw [after_check, Silent, Int.not_le, Kept, Kept, ← exists_and_right]
  refine exists_congr (fun id => ?_)
  rw [onPriodicallyTimer, List.mem_filter, decide_eq_true_iff]

/-- **What a step does to the sessions is in its marks.** -/
theorem kept_step {s t : Ctx Log} {event : ServiceEvent} (h : s.Sound)
    (hs : s.serviceStep event = some t) :
    t.Sound ∧ t.Kept = (s.marks event t).foldl (After UInt32.ofNat Silent) s.Kept := by
  suffices hstep : t.Sound ∧ Marked (s.mark? event).toList s t from ⟨hstep.1, hstep.2.kept_eq⟩
  cases event with
  | accept ec =>
    obtain rfl := Option.some.inj hs
    have haccept : ∀ u : Ctx Log, u.Quiet u.doAccept := fun u => .emit u rfl
    have hkeeps : ∀ u : Ctx Log, u.Keeps u.doAccept := fun _ => .of_eq rfl rfl rfl
    rw [onAccepted]
    split
    · rename_i hclosed
      refine ⟨h, ?_⟩
      cases ec with
      | true => exact (Quiet.refl s).marked
      | false =>
        rw [mark?, hclosed]
        exact (Quiet.refl s).marked
    · rename_i hopen
      cases ec with
      | true => exact ⟨(hkeeps s).sound h, (haccept s).marked⟩
      | false =>
        rw [mark?, if_pos (Bool.eq_true_of_not_eq_false hopen)]
        exact ⟨(hkeeps _).sound h.addNewSession,
          (marked_addNewSession h.numbered).trans (haccept s.addNewSession).marked⟩
  | receives number packet script =>
    rw [serviceStep] at hs
    split at hs
    · rename_i hlive
      obtain rfl := Option.some.inj hs
      exact ⟨(keeps_runSession script (fun t => keeps_session_dispatchPacket t packet)).sound h,
        marked_receives h hlive packet script⟩
    · cases hs
  | sessionTimer number =>
    rw [serviceStep] at hs
    split at hs
    · obtain rfl := Option.some.inj hs
      have hquiet : Quiet _ (onSession { s with script := [] } number _) :=
        quiet_onSession (A := fun _ => True)
          (fun t => Emits.resendFrom t.now [] t.writePackets t (fun _ _ => trivial))
      refine ⟨(keeps_runSession [] (fun t =>
        (Stays.resendFrom t.now [] t.writePackets t).whole)).sound h, ?_⟩
      exact Quiet.marked ⟨hquiet.sessions, hquiet.trace⟩
    · cases hs
  | serverTimer =>
    obtain rfl := Option.some.inj hs
    exact ⟨(keeps_onPriodicallyTimer s).sound h, marked_onPriodicallyTimer s⟩
  | serverCall call =>
    obtain rfl := Option.some.inj hs
    exact ⟨(keeps_serverCall s call).sound h, marked_serverCall s call⟩
  | clearStarted =>
    obtain rfl := Option.some.inj hs
    have hkeeps : s.Keeps { s with started := false } := .of_eq rfl rfl rfl
    exact ⟨hkeeps.sound h, Quiet.marked (.of_eq rfl rfl)⟩
  | stopImpl =>
    obtain rfl := Option.some.inj hs
    exact ⟨(keeps_stopImpl s).sound h, marked_stopImpl s⟩
  | advance time =>
    obtain rfl := Option.some.inj hs
    have hkeeps : s.Keeps { s with now := s.now.later time } := .of_eq rfl rfl rfl
    exact ⟨hkeeps.sound h, Quiet.marked (.of_eq rfl rfl)⟩

theorem kept_run {events : List ServiceEvent} {s t : Ctx Log} (h : s.Sound)
    (hrun : Run.run serviceStep s events = some t) :
    t.Kept = (s.marksAlong events).foldl (After UInt32.ofNat Silent) s.Kept := by
  induction events generalizing s with
  | nil => exact Option.some.inj hrun ▸ rfl
  | cons event events ih =>
    obtain ⟨u, hs, hrest⟩ := Run.run_cons hrun
    obtain ⟨hsound, hkept⟩ := kept_step h hs
    rw [marksAlong, hs]
    simp only
    rw [List.foldl_append, ← hkept]
    exact ih hsound hrest

/-- **A session is kept exactly as long as it is heard of.**  In every run of a server, a
session is in `sessions_` if and only if it was accepted, every check of the timer since
has found that it was accepted or renewed by a packet less than twenty seconds before, and
since then no stop has come and no new session has got its id; `last_recv_timepoint_` is the
time when it was renewed last, or accepted. -/
theorem kept_iff_holds {serial : Nat} {now : TimePoint} {events : List ServiceEvent} {s : Ctx Log}
    (hrun : Run.run serviceStep (new serial now) events = some s) (number : Nat) (time : TimePoint) :
    (∃ id, (id, ⟨number, time⟩) ∈ s.sessions) ↔
      Holds UInt32.ofNat Silent ((new serial now).marksAlong events) number time := by
  have hsound : (new serial now).Sound :=
    ⟨housed_new serial now, fun _ hp => absurd hp List.not_mem_nil⟩
  have hnone : (new serial now).Kept = fun _ _ => False := by
    funext n t
    exact propext ⟨fun ⟨_, hin⟩ => absurd hin List.not_mem_nil, False.elim⟩
  rw [holds_eq_foldl, ← hnone, ← kept_run hsound hrun]
  rfl

/-- Two sessions; one is heard of fifteen seconds later, and the other never. -/
def oneSilent : List ServiceEvent :=
  [.serverCall .start, .accept false, .accept false, .advance (seconds 15),
    .receives 1 (SharedPacket.received (Packet.new 0 1 false (buildHeader 0 1 false 0) none 0)) [],
    .serverTimer, .advance (seconds 20), .serverTimer]

/-- **The silent one is gone at the tick that finds it twenty seconds old.** -/
theorem kept_iff_holds_oneSilent :
    ∃ s, Run.run serviceStep (new 0 0) oneSilent = some s ∧
      (s.sessions.map fun p => (p.2.session, p.2.lastRecvTimepoint)) = [(1, seconds 15)] ∧
      ∀ number time, (∃ id, (id, ⟨number, time⟩) ∈ s.sessions) ↔
        Holds UInt32.ofNat Silent ((new 0 0).marksAlong oneSilent) number time := by
  have hmap : (Run.run serviceStep (new 0 0) oneSilent).map (fun s =>
      s.sessions.map fun p => (p.2.session, p.2.lastRecvTimepoint)) = some [(1, seconds 15)] := by
    decide +kernel
  obtain ⟨s, hrun, hsessions⟩ := Option.map_eq_some_iff.mp hmap
  exact ⟨s, hrun, hsessions, kept_iff_holds hrun⟩

end Ctx

end Server

end Ibase
