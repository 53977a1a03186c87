import Ibase.Answer
import Ibase.Expiry

/-!
# When sixty seconds are enough

The tracker of a session remembers a request for sixty seconds, and the client sends its
copies for as long as the tries of the request last.  A processor runs once for all of
them if the last copy arrives before the tracker has forgotten the first: this takes a
timer that is not late by more than `lag`, a network that keeps no copy back for more than
`delay`, and options that fit (`Clocked.invoked_once`).

A `Clocked` network has the times beside it: when `send_req_async_impl` ran for a request,
and when the handler began that wrote a packet.
-/

namespace Ibase

open Growth Retry
open Server (invocations)

/-! ### What the client writes -/

/-- `P` holds of the request that this effect writes, if it writes one. -/
def Effect.Try (P : SharedPacket → Prop) : Effect → Prop
  | .asyncWrite packet _ => (∃ draw cmd, packet.origin = .request draw cmd) → P packet
  | _ => True

theorem Effect.try_of_isUncounted {P : SharedPacket → Prop} {e : Effect}
    (h : e.isUncounted = true) : e.Try P := by
  cases e with
  | asyncWrite packet isOpen =>
    rintro ⟨draw, cmd, horigin⟩
    rw [isUncounted, horigin] at h
    cases h
  | _ => trivial

theorem Effect.Try.mono {P Q : SharedPacket → Prop} {e : Effect} (h : e.Try P)
    (hPQ : ∀ packet, P packet → Q packet) : e.Try Q := by
  cases e with
  | asyncWrite packet isOpen => exact fun hrequest => hPQ packet (h hrequest)
  | _ => trivial

namespace Ctx

/-- `d` comes from `c` by effects, with `P` of every request that is written. -/
abbrev Writes (P : SharedPacket → Prop) (c d : Ctx Io) : Prop :=
  Grows (Effect.Try P) c.env.trace d.env.trace

variable {P : SharedPacket → Prop}

theorem Goes.writes {Q : Effect → Bool} {c d : Ctx Io} (h : c.Goes Q d)
    (hQ : ∀ e, Q e = true → e.isUncounted = true) : c.Writes P d := by
  obtain ⟨effects, htrace, hall⟩ := h.trace
  exact ⟨effects, htrace, fun e he => Effect.try_of_isUncounted (hQ e (hall e he))⟩

theorem Idles.writes {c d : Ctx Io} (h : c.Idles d) : c.Writes P d :=
  Goes.writes h (fun _ => Effect.isUncounted_of_isIdle)

theorem writes_doWritePacket (c : Ctx Io) {packet : SharedPacket} (h : P packet) :
    c.Writes P (c.doWritePacket (some packet)) := by
  rw [doWritePacket]
  split
  · exact .refl _
  · exact .concat _ (fun _ => h)

/-- **The sweep writes the entries that it tries**, whatever its callbacks do. -/
theorem writes_resendFrom (curTimePoint : TimePoint) (visited rest : List SendingPacketInfo)
    (c : Ctx Io) : c.Writes (fun p => ∃ it ∈ rest, it.packet.toSharedPacket = p ∧
      it.isTried curTimePoint = true) (resendFrom curTimePoint visited rest c) := by
  induction rest generalizing visited c with
  | nil =>
    rw [resendFrom]
    exact .refl _
  | cons it rest ih =>
    let P (p : SharedPacket) : Prop := ∃ i ∈ it :: rest,
      i.packet.toSharedPacket = p ∧ i.isTried curTimePoint = true
    have hlater : ∀ visited' d, Ctx.Writes P d (resendFrom curTimePoint visited' rest d) := by
      refine fun visited' d => (ih visited' d).mono (fun _ he => he.mono (fun p hp => ?_))
      obtain ⟨i, hi, htried⟩ := hp
      exact ⟨i, List.mem_cons_of_mem it hi, htried⟩
    rw [resendFrom]
    split
    · exact hlater _ c
    rename_i hdue
    split
    · have hmark : Grows (Effect.Try P) c.env.trace
          (c.env.trace ++ [.sendReqCallback it (-1) it.packet.toSharedPacket]) := .concat _ trivial
      have htold := hmark.trans (Idles.writes (mutes_runCallback
        (c.emit (.sendReqCallback it (-1) it.packet.toSharedPacket))).idles)
      simp only
      split
      · exact htold.trans (hlater _ _)
      · exact htold.trans (.concat _ trivial)
    · rename_i htries
      have htried : it.isTried curTimePoint = true := by
        rw [SendingPacketInfo.isTried_eq, SendingPacketInfo.isDue, decide_eq_false hdue,
          decide_eq_false htries]
        rfl
      exact Grows.trans (writes_doWritePacket { c with writePackets := visited ++
        { it with curTries := it.curTries + 1, lastSendTimePoint := curTimePoint } :: rest }
        ⟨it, List.mem_cons_self, rfl, htried⟩) (hlater _ _)

theorem writes_onTimer (c : Ctx Io) {timerId : UInt32} {info : TimerInfo Unit}
    (hfind : c.timer.find timerId = some info) :
    c.Writes (fun p => ∃ it ∈ c.writePackets, it.packet.toSharedPacket = p ∧
      it.isTried c.now = true) (c.onTimer timerId false) := by
  have hreconnect := idles_doReconnectCheck c c.now
  have hsweep := writes_resendFrom c.now [] (c.doReconnectCheck c.now).writePackets
    (c.doReconnectCheck c.now)
  have hbeat := goes_doHeartbeatCheck ((c.doReconnectCheck c.now).doResenderCheck c.now) c.now
  have htimer := idles_rescheduleTimer
    (((c.doReconnectCheck c.now).doResenderCheck c.now).doHeartbeatCheck c.now) timerId
  rw [onTimer, if_neg (by decide), hfind]
  refine (hreconnect.writes.trans (Grows.trans ?_ (hbeat.writes (fun _ h => h)))).trans htimer.writes
  refine hsweep.mono (fun _ he => he.mono (fun p hp => ?_))
  obtain ⟨it, hit, htried⟩ := hp
  exact ⟨it, hreconnect.queue.subset hit, htried⟩

end Ctx

/-- A request that `send_req_async_impl` ran for, and when. -/
structure Submission where
  packet : RequestPacket
  opt : SendOpt
  time : TimePoint

namespace Submission

/-- The nanoseconds between two tries, if the timer is late by `lag`. -/
def period (lag : ℕ) (s : Submission) : ℕ := s.opt.intervalSeconds.toNat * 1000000000 + lag

/-- How long after the first try the last one is. -/
def span (lag : ℕ) (s : Submission) : ℕ := (s.opt.tries.toNat - 1) * s.period lag

end Submission

namespace World

/-- The request that this event puts into `write_packets_`. -/
def submission? (w : World) (e : Event) : Option Submission :=
  match w.running e with
  | some (_, .task (.sendReqAsyncImpl packet _ opt _)) => some ⟨packet, opt, w.now⟩
  | _ => none

/-- What a step writes, with the time when it began. -/
def written (w v : World) : List (SharedPacket × TimePoint) :=
  ((w.newEffects v).filterMap Effect.sent?).map (fun packet => (packet, w.now))

/-- This event tries that request. -/
def Tries (w : World) (e : Event) (packet : SharedPacket) : Prop :=
  (∃ s, w.submission? e = some s ∧ s.packet.toSharedPacket = packet) ∨
    (w.now ∈ w.sweeps e ∧ ∃ it ∈ w.client.writePackets, it.packet.toSharedPacket = packet ∧
      it.isTried w.now = true)

variable {w v : World} {e : Event}

/-- **A request is written when it is tried.** -/
theorem writes_step (hs : w.step e = some v) :
    Grows (Effect.Try (w.Tries e)) w.io.trace v.io.trace := by
  rcases step_idles hs with ⟨hidle, -⟩ | ⟨c, g, hrunning, hloud, rfl⟩
  · obtain ⟨effects, htrace, hall⟩ := hidle.trace
    exact ⟨effects, htrace, fun f hf =>
      Effect.try_of_isUncounted (Effect.isUncounted_of_isIdle (hall f hf))⟩
  obtain ⟨script, rest, rfl, -, rfl⟩ := running_eq_some hrunning
  let c := ({ w with io := { w.io with ready := rest } } : World).enter script
  cases g with
  | wait timerId ec =>
    cases ec with
    | true => cases hloud
    | false =>
      cases hfind : c.timer.find timerId with
      | none =>
        have hsame : c.onTimer timerId false = c := by
          rw [Ctx.onTimer, if_neg (by decide), hfind]
        show c.Writes _ (c.onTimer timerId false)
        rw [hsame]
        exact .refl _
      | some info =>
        refine (c.writes_onTimer hfind).mono (fun _ he => he.mono (fun p hp => .inr ⟨?_, hp⟩))
        rw [sweeps, beating, hrunning]
        simp only
        rw [show (({ w with io := { w.io with ready := rest } } : World).enter script).timer.find
          timerId = some info from hfind]
        exact List.mem_singleton.mpr rfl
  | task task =>
    cases task with
    | sendReqAsyncImpl packet sendDraw opt callback =>
      refine Ctx.writes_doWritePacket (P := w.Tries (.run script)) { c with writePackets :=
        c.writePackets ++ [⟨packet, opt, sendDraw, callback, 1, c.now⟩] }
        (.inl ⟨⟨packet, opt, w.now⟩, ?_, rfl⟩)
      rw [submission?, hrunning]
    | _ => cases hloud
  | _ => cases hloud

theorem submission?_eq_some {s : Submission} (h : w.submission? e = some s) :
    ∃ script sendDraw callback rest, e = .run script ∧
      w.io.ready = .task (.sendReqAsyncImpl s.packet sendDraw s.opt callback) :: rest ∧
      s.time = w.now := by
  rw [submission?] at h
  split at h
  · rename_i c packet sendDraw opt callback hrunning
    obtain ⟨script, rest, rfl, hready, -⟩ := running_eq_some hrunning
    obtain rfl := Option.some.inj h
    exact ⟨script, sendDraw, callback, rest, rfl, hready, rfl⟩
  · cases h

theorem Queues.submission? {it : SendingPacketInfo} (h : w.Queues e it) :
    w.submission? e = some ⟨it.packet, it.sendOpt, w.now⟩ := by
  obtain ⟨script, rest, rfl, hready⟩ := h.run
  rw [World.submission?, running, hready]

/-- No tick comes more than `lag` after an entry became due. -/
def Punctual (lag : ℕ) (w : World) (e : Event) : Prop :=
  ∀ t ∈ w.sweeps e, ∀ it ∈ w.client.writePackets,
    t.val ≤ it.lastSendTimePoint.val + (it.interval + lag)

-- over the list, and not over all the time points there are
instance (lag : ℕ) (w : World) (e : Event) : Decidable (w.Punctual lag e) :=
  List.decidableBAll (fun t : TimePoint => ∀ it ∈ w.client.writePackets,
    t.val ≤ it.lastSendTimePoint.val + (it.interval + lag)) (w.sweeps e)

/-- Every request was submitted once and was tried on time. -/
structure OnTime (lag : ℕ) (submitted : List Submission) (sent : List (SharedPacket × TimePoint))
    (w : World) : Prop where
  tallied : ∃ attempts, w.Tallies attempts ∧
    ∀ s ∈ submitted, ∃ a ∈ attempts, a.packet = s.packet.toSharedPacket
  once : (submitted.map (fun s => s.packet.origin)).Nodup
  last_le : ∀ it ∈ w.client.writePackets, it.lastSendTimePoint ≤ w.now
  entries : ∀ it ∈ w.client.writePackets, ∃ s ∈ submitted, s.packet = it.packet ∧
    s.opt = it.sendOpt ∧ Policy.Prompt Fin.val (s.period lag) s.time it.item
  sent : ∀ x ∈ sent, (∃ draw cmd, x.1.origin = .request draw cmd) →
    ∃ s ∈ submitted, s.packet.toSharedPacket = x.1 ∧ s.time ≤ x.2 ∧
      x.2.val ≤ s.time.val + s.span lag

variable {lag : ℕ} {submitted : List Submission} {sent : List (SharedPacket × TimePoint)}

theorem mem_written {x : SharedPacket × TimePoint} (h : x ∈ w.written v) :
    .asyncWrite x.1 true ∈ w.newEffects v ∧ x.2 = w.now := by
  obtain ⟨packet, hin, rfl⟩ := List.mem_map.mp h
  obtain ⟨effect, heffect, hsome⟩ := List.mem_filterMap.mp hin
  cases effect with
  | asyncWrite packet' isOpen =>
    cases isOpen with
    | true => exact ⟨Option.some.inj hsome ▸ heffect, rfl⟩
    | false => cases hsome
  | _ => cases hsome

theorem OnTime.idle (h : w.OnTime lag submitted sent)
    (htallied : ∀ attempts, w.Tallies attempts → v.Tallies attempts)
    (hqueue : v.client.writePackets.Sublist w.client.writePackets) (hnow : w.now ≤ v.now)
    (hwrites : ∀ P, Grows (Effect.Try P) w.io.trace v.io.trace) :
    v.OnTime lag submitted (sent ++ w.written v) := by
  obtain ⟨attempts, hall, hsubmitted⟩ := h.tallied
  refine ⟨⟨attempts, htallied attempts hall, hsubmitted⟩, h.once,
    fun it hit => Nat.le_trans (h.last_le it (hqueue.subset hit)) hnow,
    fun it hit => h.entries it (hqueue.subset hit), fun x hx hrequest => ?_⟩
  rcases List.mem_append.mp hx with hx | hx
  · exact h.sent x hx hrequest
  · obtain ⟨effects, htrace, hnew⟩ := hwrites (fun _ => False)
    have hin := (mem_written hx).1
    rw [newEffects_eq htrace] at hin
    exact (hnew _ hin hrequest).elim

/-- The draw of a request that is queued now was none of an earlier one. -/
theorem OnTime.submission_new (h : w.OnTime lag submitted sent) {s : Submission}
    (hs : w.submission? e = some s) : s.packet.origin ∉ submitted.map (fun s => s.packet.origin) := by
  intro hin
  obtain ⟨s', hs', horigin⟩ := List.mem_map.mp hin
  obtain ⟨attempts, hall, hsubmitted⟩ := h.tallied
  obtain ⟨a, ha, heq⟩ := hsubmitted s' hs'
  obtain ⟨script, sendDraw, callback, rest, -, hready, -⟩ := submission?_eq_some hs
  refine (hall.past a ha).2 (List.mem_append_right _ ?_)
  have hdraw : a.packet.origin.draw = s.packet.origin.draw := by
    rw [heq]
    exact congrArg Origin.draw horigin
  rw [hdraw, Io.postedDraws, hready]
  exact List.mem_cons_self

theorem OnTime.entry (h : w.OnTime lag submitted sent) (hpunctual : w.Punctual lag e)
    {old it : SendingPacketInfo} (hold : old ∈ w.client.writePackets)
    (hswept : sweptAll SendingPacketInfo.swept (w.sweeps e) old = some it) :
    it.lastSendTimePoint ≤ w.now ∧ ∃ s ∈ submitted, s.packet = it.packet ∧
      s.opt = it.sendOpt ∧ Policy.Prompt Fin.val (s.period lag) s.time it.item := by
  obtain ⟨s, hs, hpacket, hopt, hprompt⟩ := h.entries old hold
  have hlast := h.last_le old hold
  obtain ⟨hpacket', -, hopt', -⟩ := SendingPacketInfo.sweptAll_fields hswept
  unfold Punctual at hpunctual
  unfold sweeps at hswept hpunctual
  cases hbeating : w.beating e with
  | none =>
    rw [hbeating] at hswept
    obtain rfl := Option.some.inj hswept
    exact ⟨hlast, s, hs, hpacket, hopt, hprompt⟩
  | some c =>
    rw [hbeating] at hswept hpunctual
    obtain ⟨last, hfirst, heq⟩ := Option.bind_eq_some_iff.mp hswept
    have hswept' : old.swept w.now = some it := hfirst.trans heq
    have hlate := hpunctual w.now (List.mem_singleton.mpr rfl) old hold
    have hsweep := SendingPacketInfo.retries.sweep w.now old
    rw [hswept'] at hsweep
    have hperiod : s.period lag = old.interval + lag := by
      rw [Submission.period, hopt]
      rfl
    refine ⟨?_, s, hs, hpacket.trans hpacket'.symm, hopt.trans hopt'.symm,
      hprompt.sweep hlast (hperiod ▸ hlate) hsweep.symm⟩
    rw [SendingPacketInfo.swept] at hswept'
    split at hswept'
    · exact Option.some.inj hswept' ▸ hlast
    split at hswept'
    · cases hswept'
    · exact Option.some.inj hswept' ▸ Nat.le_refl _

theorem OnTime.wrote (h : w.OnTime lag submitted sent) (hpunctual : w.Punctual lag e)
    {packet : SharedPacket} (htried : w.Tries e packet) :
    ∃ s ∈ submitted ++ (w.submission? e).toList, s.packet.toSharedPacket = packet ∧
      s.time ≤ w.now ∧ w.now.val ≤ s.time.val + s.span lag := by
  rcases htried with ⟨s, hs, rfl⟩ | ⟨hsweep, it, hit, rfl, htried⟩
  · obtain ⟨-, -, -, -, -, -, htime⟩ := submission?_eq_some hs
    refine ⟨s, List.mem_append_right _ (Option.mem_toList.mpr hs), rfl, htime ▸ Nat.le_refl _, ?_⟩
    rw [htime]
    exact Nat.le_add_right _ _
  · obtain ⟨s, hs, hpacket, hopt, hprompt⟩ := h.entries it hit
    have hlate := hpunctual w.now hsweep it hit
    have hperiod : s.period lag = it.interval + lag := by
      rw [Submission.period, hopt]
      rfl
    refine ⟨s, List.mem_append_left _ hs, congrArg _ hpacket,
      Nat.le_trans hprompt.after (h.last_le it hit), ?_⟩
    rw [Submission.span, hopt]
    exact hprompt.tried_le (hperiod ▸ hlate) htried

/-- **A step of a punctual client keeps its requests on time.** -/
theorem OnTime.step (h : w.OnTime lag submitted sent) (hs : w.step e = some v) (hnow : w.now ≤ v.now)
    (hpunctual : w.Punctual lag e) :
    v.OnTime lag (submitted ++ (w.submission? e).toList) (sent ++ w.written v) := by
  obtain ⟨attempts, hall, hsubmitted⟩ := h.tallied
  refine ⟨⟨attempts ++ w.attempted e, tallies_step hall hs, fun s hs => ?_⟩, ?_, fun it hit => ?_,
    fun it hit => ?_, fun x hx hrequest => ?_⟩
  · rcases List.mem_append.mp hs with hs | hs
    · obtain ⟨a, ha, heq⟩ := hsubmitted s hs
      exact ⟨a, List.mem_append_left _ ha, heq⟩
    · obtain ⟨script, sendDraw, callback, rest, rfl, hready, -⟩ :=
        submission?_eq_some (Option.mem_toList.mp hs)
      have hattempted : w.attempted (.run script) = [⟨s.packet.toSharedPacket,
          (({ w with io := { w.io with ready := rest } } : World).enter script).isConnected⟩] := by
        rw [attempted, running, hready]
        rfl
      exact ⟨_, List.mem_append_right _ (hattempted ▸ List.mem_singleton.mpr rfl), rfl⟩
  · rw [List.map_append]
    cases hsome : w.submission? e with
    | none =>
      rw [Option.toList_none, List.map_nil, List.append_nil]
      exact h.once
    | some s =>
      refine List.nodup_append.mpr ⟨h.once, List.nodup_singleton _, fun a ha b hb heq => ?_⟩
      rw [heq, List.mem_singleton.mp hb] at ha
      exact h.submission_new hsome ha
  · rcases entries_step hs it hit with hqueues | ⟨old, hold, hswept⟩
    · exact hqueues.lastSendTimePoint ▸ hnow
    · exact Nat.le_trans (h.entry hpunctual hold hswept).1 hnow
  · rcases entries_step hs it hit with hqueues | ⟨old, hold, hswept⟩
    · refine ⟨⟨it.packet, it.sendOpt, w.now⟩, List.mem_append_right _
        (Option.mem_toList.mpr hqueues.submission?), rfl, rfl, ?_⟩
      rw [SendingPacketInfo.item, hqueues.curTries, hqueues.lastSendTimePoint]
      exact .once _ _ _
    · obtain ⟨s, hs, hentry⟩ := (h.entry hpunctual hold hswept).2
      exact ⟨s, List.mem_append_left _ hs, hentry⟩
  · rcases List.mem_append.mp hx with hx | hx
    · obtain ⟨s, hs, hsent⟩ := h.sent x hx hrequest
      exact ⟨s, List.mem_append_left _ hs, hsent⟩
    · obtain ⟨effects, htrace, hnew⟩ := writes_step hs
      obtain ⟨hin, htime⟩ := mem_written hx
      rw [newEffects_eq htrace] at hin
      rw [htime]
      exact h.wrote hpunctual (hnew _ hin hrequest)

theorem OnTime.receive (h : w.OnTime lag submitted sent) (packet : SharedPacket)
    (script : List CallbackRun) : (w.receive packet script).OnTime lag submitted
      (sent ++ w.written (w.receive packet script)) := by
  have hidle := Ctx.idles_dispatchPacket (w.enter script) packet
  exact h.idle (fun _ hall => tallies_receive hall packet script) hidle.queue hidle.now
    (fun _ => hidle.writes)

theorem onTime_new : new.OnTime lag [] [] :=
  ⟨⟨[], tallies_new, fun _ hs => absurd hs List.not_mem_nil⟩, List.nodup_nil,
    fun _ hit => absurd hit List.not_mem_nil, fun _ hit => absurd hit List.not_mem_nil,
    fun _ hx => absurd hx List.not_mem_nil⟩

end World

/-! ### What the server runs -/

/-- **A step runs a processor once at most**, and only for a request that arrives in it. -/
theorem Delivery.Sound.invocations_step {d : Delivery} (h : d.Sound) {event : Server.ServiceEvent}
    {s : Server.Ctx Server.Log} (hs : d.server.serviceStep event = some s) :
    invocations s.env.trace = invocations d.server.env.trace ∨
    ∃ number packet script, event = .receives number packet script ∧ packet.isPush = false ∧
      invocations s.env.trace =
        invocations d.server.env.trace ++ [⟨number, packet, d.server.now.tick⟩] := by
  have hstep : d.step event = some ⟨s, d.arrivals ++
      (event.request?.bind (fun r => d.server.arrival? r.1 r.2)).toList⟩ := by
    rw [Delivery.step, hs]
    rfl
  have hbefore : invocations d.server.env.trace = _ := h.kept.invoked
  have hafter : invocations s.env.trace = _ := (h.step hstep).kept.invoked
  rw [List.filter_append, List.map_append, ← hbefore] at hafter
  cases hrequest : event.request? with
  | none =>
    rw [hrequest] at hafter
    exact .inl (hafter.trans (List.append_nil _))
  | some r =>
    obtain ⟨hpush, script, rfl⟩ := Delivery.receives_of_request? hrequest
    rw [hrequest, Option.bind_some, Server.Ctx.arrival?] at hafter
    split at hafter
    · exact .inl (hafter.trans (List.append_nil _))
    · cases hhanded : (d.server.req2Processor r.2.cmd).isSome with
      | false =>
        rw [hhanded] at hafter
        exact .inl (hafter.trans (List.append_nil _))
      | true =>
        rw [hhanded] at hafter
        exact .inr ⟨r.1, r.2, script, rfl, hpush, hafter⟩

/-! ### Both, with the times -/

/-- A network, the requests that were submitted, and the packets that the client wrote. -/
structure Clocked where
  network : Network
  submitted : List Submission
  sent : List (SharedPacket × TimePoint)

namespace Clocked

def new : Clocked := ⟨Network.new, [], []⟩

/-- The request that is submitted at this event. -/
def submission? (c : Clocked) : Network.Event → Option Submission
  | .client event => c.network.client.submission? event
  | _ => none

def step (c : Clocked) (e : Network.Event) : Option Clocked :=
  (c.network.step e).map (fun n =>
    ⟨n, c.submitted ++ (c.submission? e).toList, c.sent ++ c.network.client.written n.client⟩)

/-- The tick is late by `lag` at most, and so is the request by `delay`: the clocks of the
two sides agree, and it was written in a handler that began so long before. -/
def Timely (lag delay : ℕ) (c : Clocked) : Network.Event → Prop
  | .client event => c.network.client.Punctual lag event
  | .sessionReceives _ packet _ => packet.isPush = false → ∃ x ∈ c.sent, x.1 = packet ∧
      x.2 ≤ c.network.server.now ∧ c.network.server.now.val ≤ x.2.val + delay
  | _ => True

instance (lag delay : ℕ) (c : Clocked) : (e : Network.Event) → Decidable (c.Timely lag delay e)
  | .client event => inferInstanceAs (Decidable (c.network.client.Punctual lag event))
  | .sessionReceives _ packet _ => inferInstanceAs (Decidable (packet.isPush = false →
      ∃ x ∈ c.sent, x.1 = packet ∧ x.2 ≤ c.network.server.now ∧
        c.network.server.now.val ≤ x.2.val + delay))
  | .clientReceives .. | .accept _ | .sessionTimer _ | .serverTimer | .serverCall _ | .stopTest
  | .stopClear | .stopPost | .advance _ | .replace _ => inferInstanceAs (Decidable True)

/-- A processor ran for a packet that had been written so long before. -/
def Fresh (delay : ℕ) (sent : List (SharedPacket × TimePoint)) (i : Invocation) : Prop :=
  ∃ x ∈ sent, x.1 = i.packet ∧ x.2.tick ≤ i.tick ∧ i.tick * 1000000000 ≤ x.2.val + delay

structure Good (lag delay : ℕ) (c : Clocked) : Prop where
  listening : c.network.Listening
  calling : c.network.Calling
  onTime : c.network.client.OnTime lag c.submitted c.sent
  delivery : ∃ arrivals, Delivery.Sound ⟨c.network.server, arrivals⟩
  fresh : ∀ log ∈ c.network.logs, ∀ i ∈ invocations log, Fresh delay c.sent i

variable {lag delay : ℕ} {c d : Clocked} {e : Network.Event}

/-- The client makes a step of its own, or receives a packet, or nothing happens to it. -/
theorem client_of_step {n m : Network} (h : n.step e = some m) :
    (∃ event, e = .client event ∧ n.client.step event = some m.client) ∨
    (∃ packet script, e = .clientReceives packet script ∧
      m.client = n.client.receive packet script) ∨
    ((∀ event, e ≠ .client event) ∧ m.client = n.client) := by
  cases e with
  | client event =>
    have hclient : ∃ w, n.client.step event = some w ∧ { n with client := w } = m := by
      cases event <;> first | exact Option.map_eq_some_iff.mp h | cases h
    obtain ⟨w, hw, rfl⟩ := hclient
    exact .inl ⟨event, rfl, hw⟩
  | clientReceives packet script =>
    simp only [Network.step] at h
    split at h
    · exact .inr (.inl ⟨packet, script, rfl, Option.some.inj h ▸ rfl⟩)
    · cases h
  | sessionReceives session packet script | sessionTimer session =>
    simp only [Network.step] at h
    split at h
    · exact .inr (.inr ⟨fun _ hno => (by cases hno), Option.some.inj h ▸ rfl⟩)
    · cases h
  | stopClear | stopPost =>
    simp only [Network.step] at h
    split at h
    · cases h
    · exact .inr (.inr ⟨fun _ hno => (by cases hno), Option.some.inj h ▸ rfl⟩)
  | stopTest =>
    simp only [Network.step] at h
    split at h
    · exact .inr (.inr ⟨fun _ hno => (by cases hno), Option.some.inj h ▸ rfl⟩)
    · exact .inr (.inr ⟨fun _ hno => (by cases hno), Option.some.inj h ▸ rfl⟩)
  | _ => exact .inr (.inr ⟨fun _ hno => (by cases hno), Option.some.inj h ▸ rfl⟩)

theorem Good.onTime_step (h : c.Good lag delay) (htimely : c.Timely lag delay e) {n : Network}
    (hs : c.network.step e = some n) : n.client.OnTime lag
      (c.submitted ++ (c.submission? e).toList) (c.sent ++ c.network.client.written n.client) := by
  have hlater : c.network.client.now ≤ n.client.now := by
    cases Network.step_happens hs with
    | client event w he hw => exact (World.later_of_step hw he h.listening.noRead).now_le
    | hear packet script hp => exact (Ctx.idles_dispatchPacket (c.network.client.enter script) packet).now
    | server _ s stopTested stopCleared hmoves => exact Nat.le_refl _
    | replace now => exact Nat.le_refl _
  rcases client_of_step hs with ⟨event, rfl, hw⟩ | ⟨packet, script, rfl, hw⟩ | ⟨hother, hw⟩
  · exact h.onTime.step hw hlater htimely
  · show n.client.OnTime lag (c.submitted ++ []) _
    rw [List.append_nil, hw]
    exact h.onTime.receive packet script
  · have hnone : c.submission? e = none := by
      cases e with
      | client event => exact absurd rfl (hother event)
      | _ => rfl
    rw [hnone, Option.toList_none, List.append_nil, hw]
    exact h.onTime.idle (fun _ hall => hall) (List.Sublist.refl _) (Nat.le_refl _)
      (fun _ => .refl _)

theorem Fresh.append {sent : List (SharedPacket × TimePoint)} {i : Invocation}
    (h : Fresh delay sent i) (sent' : List (SharedPacket × TimePoint)) :
    Fresh delay (sent ++ sent') i := by
  obtain ⟨x, hx, hfresh⟩ := h
  exact ⟨x, List.mem_append_left _ hx, hfresh⟩

theorem Good.fresh_step (h : c.Good lag delay) (htimely : c.Timely lag delay e) {n : Network}
    (hs : c.network.step e = some n) : (∃ arrivals, Delivery.Sound ⟨n.server, arrivals⟩) ∧
      ∀ log ∈ n.logs, ∀ i ∈ invocations log, Fresh delay c.sent i := by
  obtain ⟨arrivals, hsound⟩ := h.delivery
  have hpast : ∀ log ∈ c.network.past, ∀ i ∈ invocations log, Fresh delay c.sent i :=
    fun log hlog => h.fresh log (List.mem_append_left _ hlog)
  have hself : ∀ i ∈ invocations c.network.server.env.trace, Fresh delay c.sent i :=
    h.fresh _ (List.mem_append_right _ (List.mem_singleton.mpr rfl))
  rcases Network.server_of_step hs with ⟨hlogs, event, he, hevent⟩ | ⟨hlogs, serial, now, hnew⟩ |
    ⟨hlogs, hsame⟩
  · have hstep : Delivery.step ⟨c.network.server, arrivals⟩ event = some ⟨n.server, _⟩ :=
      Option.map_eq_some_iff.mpr ⟨n.server, hevent, rfl⟩
    refine ⟨⟨_, hsound.step hstep⟩, fun log hlog i hi => ?_⟩
    rw [Network.logs, hlogs] at hlog
    rcases List.mem_append.mp hlog with hlog | hlog
    · exact hpast log hlog i hi
    rw [List.mem_singleton.mp hlog] at hi
    rcases hsound.invocations_step hevent with hnone | ⟨number, packet, script, rfl, hpush, hran⟩
    · exact hself i (hnone ▸ hi)
    · rw [hran] at hi
      rcases List.mem_append.mp hi with hi | hi
      · exact hself i hi
      · -- the processor that runs in this step
        have hreceives : e = .sessionReceives number packet script := by
          cases e with
          | sessionReceives session packet' script' => cases he; rfl
          | _ => cases he
        subst hreceives
        obtain ⟨x, hx, hpacket, hle, hdelay⟩ := htimely hpush
        obtain rfl := List.mem_singleton.mp hi
        refine ⟨x, hx, hpacket, TimePoint.tick_mono hle, ?_⟩
        exact Nat.le_trans (Nat.div_mul_le_self _ _) hdelay
  · refine ⟨⟨[], hnew ▸ Delivery.sound_new serial now⟩, fun log hlog i hi => ?_⟩
    rw [Network.logs, hlogs, hnew] at hlog
    rcases List.mem_append.mp hlog with hlog | hlog
    · exact h.fresh log hlog i hi
    · rw [List.mem_singleton.mp hlog] at hi
      exact absurd hi List.not_mem_nil
  · refine ⟨⟨arrivals, hsame ▸ hsound⟩, fun log hlog i hi => ?_⟩
    rw [Network.logs, hlogs, hsame] at hlog
    exact h.fresh log hlog i hi

/-- **Every timely step keeps the times in order.** -/
theorem Good.step (h : c.Good lag delay) (htimely : c.Timely lag delay e)
    (hs : c.step e = some d) : d.Good lag delay := by
  obtain ⟨n, hn, rfl⟩ := Option.map_eq_some_iff.mp hs
  obtain ⟨hdelivery, hfresh⟩ := h.fresh_step htimely hn
  have hhappens := Network.step_happens hn
  exact ⟨Network.listening_step hhappens h.listening,
    Network.calling_step hhappens h.listening h.calling, h.onTime_step htimely hn, hdelivery,
    fun log hlog i hi => (hfresh log hlog i hi).append _⟩

theorem good_new (lag delay : ℕ) : new.Good lag delay := by
  refine ⟨Network.listening_new, Network.calling_new, World.onTime_new,
    ⟨[], Delivery.sound_new 0 0⟩, fun log hlog i hi => ?_⟩
  rw [List.mem_singleton.mp hlog] at hi
  exact absurd hi List.not_mem_nil

/-- The calls for one request came within a minute. -/
theorem Good.within (h : c.Good lag delay) {s : Submission} (hs : s ∈ c.submitted)
    (hfits : s.span lag + delay ≤ 59 * 1000000000) {log : List Server.Effect}
    (hlog : log ∈ c.network.logs) {i : Invocation} (hi : i ∈ invocations log)
    (horigin : i.packet.origin = s.packet.origin) :
    s.time.tick ≤ i.tick ∧ i.tick < s.time.tick + 60 := by
  obtain ⟨hup, hpush⟩ := h.calling.received log hlog i hi
  obtain ⟨x, hx, hpacket, hle, hdelay⟩ := h.fresh log hlog i hi
  obtain ⟨s', hs', hsame, hafter, hbefore⟩ :=
    h.onTime.sent x hx (hpacket ▸ h.listening.request hup hpush)
  have hsubmitted : s'.packet.origin = s.packet.origin := by
    rw [← horigin, ← hpacket, ← hsame]
  obtain rfl := List.inj_on_of_nodup_map h.onTime.once hs' hs hsubmitted
  refine ⟨Nat.le_trans (TimePoint.tick_mono hafter) hle, ?_⟩
  rw [TimePoint.tick]
  omega

/-- **A processor runs once for a request.**  In every run in which no tick of the client
comes more than `lag` after an entry became due and no copy of a request arrives more than
`delay` after it was written, a processor of a session runs once at most for a request
whose copies all come within the fifty-nine seconds that the tracker of the session
remembers for sure: `(tries - 1) * (interval + lag) + delay`. -/
theorem invoked_once {es : List Network.Event} {c : Clocked} (h : Run.run step new es = some c)
    (htimely : Run.Along step (Timely lag delay) new es) {s : Submission} (hs : s ∈ c.submitted)
    (hfits : (s.opt.tries.toNat - 1) * (s.opt.intervalSeconds.toNat * 1000000000 + lag) + delay ≤
      59 * 1000000000)
    {log : List Server.Effect} (hlog : log ∈ c.network.logs) (number : Nat) :
    (invocations log).countP
      (fun i => i.session = number ∧ i.packet.origin = s.packet.origin) ≤ 1 := by
  have hgood := Run.run_invariant (fun _ _ _ hi he hs => Good.step hi he hs) (good_new lag delay)
    htimely h
  have hapart : (invocations log).Pairwise Invocation.Apart := by
    rcases List.mem_append.mp hlog with hlog | hlog
    · exact hgood.calling.past log hlog
    · rw [List.mem_singleton.mp hlog]
      exact hgood.calling.hub.apart
  refine Growth.countP_le_one (hapart.imp_of_mem (fun {i j} hi hj hij => ?_))
  rintro ⟨hpi, hpj⟩
  obtain ⟨hsession, horigin⟩ := of_decide_eq_true hpi
  obtain ⟨hsession', horigin'⟩ := of_decide_eq_true hpj
  have hsame := horigin.trans horigin'.symm
  have hid : i.id = j.id := by
    refine RecentlyPacketTracker.packetId_inj.mpr ⟨?_, ?_⟩
    · rw [SharedPacket.cmd, SharedPacket.cmd, i.packet.cmd_eq, j.packet.cmd_eq, hsame]
    · rw [SharedPacket.seq, SharedPacket.seq, i.packet.seq_eq, j.packet.seq_eq, hsame]
  have hlater := hij (hsession.trans hsession'.symm) hid
  have hfirst := (hgood.within hs hfits hlog hi horigin).1
  have hlast := (hgood.within hs hfits hlog hj horigin').2
  omega

/-- The first request is written again three seconds later, and both copies arrive. -/
def sendTwice : List Network.Event :=
  Network.sendFirst ++
    [.sessionReceives 1 Network.firstRequest [], .client (.advance (seconds 3)),
      .client (.expired 0), .client (.run []), .advance (seconds 4),
      .sessionReceives 1 Network.firstRequest []]

/-- With a timer that is late by a second at most, and a network by five. -/
theorem invoked_once_copies :
    ∃ c s, Run.run step new sendTwice = some c ∧ s ∈ c.submitted ∧
      c.sent.map Prod.fst = [Network.firstRequest, Network.firstRequest] ∧
      ∃ log ∈ c.network.logs, (invocations log).map Invocation.session = [1] ∧
        (invocations log).countP
          (fun i => i.session = 1 ∧ i.packet.origin = s.packet.origin) ≤ 1 := by
  have hmap : (Run.run step new sendTwice).map (fun c => (c.submitted.map Submission.opt,
      c.sent.map Prod.fst, c.network.logs.map (fun log => (invocations log).map Invocation.session))) =
      some ([defaultSendOpt], [Network.firstRequest, Network.firstRequest], [[1]]) := by
    decide +kernel
  have htimely : Run.Along step (Timely 1000000000 5000000000) new sendTwice := by decide +kernel
  obtain ⟨c, hrun, heq⟩ := Option.map_eq_some_iff.mp hmap
  obtain ⟨hopts, hrest⟩ := Prod.mk.inj heq
  obtain ⟨hsent, hlogs⟩ := Prod.mk.inj hrest
  obtain ⟨s, hs, hopt⟩ := List.mem_map.mp (hopts ▸ List.mem_singleton.mpr rfl :
    defaultSendOpt ∈ c.submitted.map Submission.opt)
  obtain ⟨log, hlog, hran⟩ := List.mem_map.mp (hlogs ▸ List.mem_singleton.mpr rfl :
    [1] ∈ c.network.logs.map (fun log => (invocations log).map Invocation.session))
  refine ⟨c, s, hrun, hs, hsent, log, hlog, hran, invoked_once hrun htimely hs ?_ hlog 1⟩
  rw [hopt]
  decide

end Clocked

end Ibase
