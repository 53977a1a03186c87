import Ibase.Acknowledgement

/-!
# New notifications and copies of old ones

The client takes a push for a copy if its tracker holds the `cmd` and the `seq`.
The tracker outlives the connection, and `seq` starts again with every server
object, so that the first notifications of a new server can look like copies of
those of the server before.  They are acknowledged all the same, and nobody hears
of them (`Network.suppressed_unheard`).  It happens exactly when a push arrives
for the first time less than sixty ticks after the client has accepted another
with its `cmd` and `seq` (`Network.recognizes_iff_fresh`).
-/

namespace Ibase

open Relation RecentlyPacketTracker

namespace Ctx

theorem ackPushPacket_eq (c : Ctx Io) (packet : SharedPacket) :
    ∃ env, c.ackPushPacket packet = { c with env := env } ∧ c.env.trace <+: env.trace := by
  unfold ackPushPacket
  split
  · exact ⟨c.env, rfl, List.prefix_refl _⟩
  unfold doWritePacket
  split
  · exact ⟨c.env, rfl, List.prefix_refl _⟩
  · exact ⟨_, by rw [if_neg ‹_›]; rfl, List.prefix_append ..⟩

theorem delivered_of_new {c : Ctx Io} {packet : SharedPacket} {callback : Callback}
    (hpush : packet.isPush = true) (hnew : c.toClient.suppresses c.now packet = false)
    (hsub : c.notifications packet.cmd = some callback) :
    ∃ written rest, (c.dispatchPacket packet).env.trace =
      c.env.trace ++ written ++ .recvNotificationCallback callback packet :: rest := by
  obtain ⟨env, hack, written, htrace⟩ := c.ackPushPacket_eq packet
  have hfresh : (c.tracker.onReceivePacket (UInt64.ofNat c.now.tick) packet.cmd packet.seq).1 =
      false := hnew
  rw [dispatchPacket, if_pos hpush, processPushPacket, hack]
  simp only [hfresh, hsub]
  rw [if_neg (by decide)]
  generalize (c.tracker.onReceivePacket (UInt64.ofNat c.now.tick) packet.cmd packet.seq).2 = tracker
  obtain ⟨rest, hrest⟩ := (Link.later_steps (moves_runCallback
    (({ c with env := env, tracker := tracker } : Ctx Io).emit
      (.recvNotificationCallback callback packet)))).grows
  refine ⟨written, rest, hrest.symm.trans ?_⟩
  show (env.trace ++ [_]) ++ rest = _
  rw [← htrace, List.append_assoc]
  rfl

end Ctx

namespace Network

/-- The client does right by this push: it is suppressed only if a copy of it was
received before, and a first copy goes to the subscriber. -/
structure Recognizes (n : Network) (packet : SharedPacket) : Prop where
  suppressed : n.client.client.suppresses n.client.now packet = true →
    ∃ q ∈ n.heard, q.origin = packet.origin
  delivered : (∀ q ∈ n.heard, q.origin ≠ packet.origin) →
    ∀ callback, n.client.client.notifications packet.cmd = some callback →
      ∀ script, ∃ written rest, (n.client.receive packet script).io.trace =
        n.client.io.trace ++ written ++ .recvNotificationCallback callback packet :: rest

/-- If this push was not received before, then no other with its `cmd` and `seq` was
accepted in the last sixty ticks. -/
def Fresh (n : Network) (packet : SharedPacket) : Prop :=
  (∀ q ∈ n.heard, q.origin ≠ packet.origin) → ∀ a ∈ n.accepted, a.1.cmd = packet.cmd →
    a.1.seq = packet.seq → a.2 + 60 ≤ n.client.now.tick

instance (n : Network) (packet : SharedPacket) : Decidable (n.Fresh packet) :=
  inferInstanceAs (Decidable ((∀ q ∈ n.heard, q.origin ≠ packet.origin) → ∀ a ∈ n.accepted,
    a.1.cmd = packet.cmd → a.1.seq = packet.seq → a.2 + 60 ≤ n.client.now.tick))

/-- The push that the client receives in this event. -/
def Event.push? : Event → Option SharedPacket
  | .clientReceives packet _ => if packet.isPush then some packet else none
  | _ => none

theorem isPush_of_push? {e : Event} {packet : SharedPacket} (h : packet ∈ e.push?) :
    packet.isPush = true := by
  cases e with
  | clientReceives packet' script =>
    simp only [Event.push?] at h
    split at h
    · exact Option.some.inj h ▸ ‹_›
    · exact absurd h (by simp)
  | _ => exact absurd h (by simp [Event.push?])

theorem Listening.accepted_of_suppresses {n : Network} (hl : n.Listening) {packet : SharedPacket}
    (h : n.client.client.suppresses n.client.now packet = true) :
    ∃ a ∈ n.accepted, a.1.cmd = packet.cmd ∧ a.1.seq = packet.seq ∧
      n.client.now.tick < a.2 + 60 := by
  obtain ⟨hist, used, htracks, hused, hin, -⟩ := hl.knows
  rcases htracks.receive_cases hused n.client.now.tick_lt packet.cmd packet.seq with
    ⟨-, ⟨x, hx, hid, hlt⟩, -⟩ | ⟨hnew, -, -⟩
  · obtain ⟨a, ha, rfl⟩ := hin x hx
    obtain ⟨hcmd, hseq⟩ := packetId_inj.mp hid
    exact ⟨a, ha, hcmd, hseq, hlt⟩
  · exact absurd (hnew.symm.trans h) (by decide)

/-- Without a `stop_impl` the tracker takes what was accepted in the last minute for copies. -/
theorem Listening.suppresses_of_accepted {n : Network} (hl : n.Listening)
    (hstop : n.client.io.stopLog = []) {packet : SharedPacket} {a : SharedPacket × Nat}
    (ha : a ∈ n.accepted) (hcmd : a.1.cmd = packet.cmd) (hseq : a.1.seq = packet.seq)
    (hlt : n.client.now.tick < a.2 + 60) :
    n.client.client.suppresses n.client.now packet = true := by
  obtain ⟨hist, used, htracks, hused, -, hall⟩ := hl.knows
  rcases htracks.receive_cases hused n.client.now.tick_lt packet.cmd packet.seq with
    ⟨hdup, -, -⟩ | ⟨-, hunseen, -⟩
  · exact hdup
  · exact absurd ⟨_, hall hstop a ha, packetId_inj.mpr ⟨hcmd, hseq⟩, hlt⟩ hunseen

theorem Listening.recognizes_iff {n : Network} (hl : n.Listening)
    (hstop : n.client.io.stopLog = []) {packet : SharedPacket} (hpush : packet.isPush = true) :
    n.Recognizes packet ↔ n.Fresh packet := by
  constructor
  · intro h hfirst a ha hcmd hseq
    by_contra hlt
    obtain ⟨q, hq, horigin⟩ :=
      h.suppressed (hl.suppresses_of_accepted hstop ha hcmd hseq (Nat.lt_of_not_le hlt))
    exact hfirst q hq horigin
  · intro h
    have hno : (∀ q ∈ n.heard, q.origin ≠ packet.origin) →
        n.client.client.suppresses n.client.now packet = false := by
      intro hfirst
      by_contra hsup
      obtain ⟨a, ha, hcmd, hseq, hlt⟩ := hl.accepted_of_suppresses (by simpa using hsup)
      exact absurd (h hfirst a ha hcmd hseq) (Nat.not_le_of_lt hlt)
    refine ⟨fun hsup => ?_, fun hfirst callback hsub script => ?_⟩
    · by_contra hnone
      have hfirst : ∀ q ∈ n.heard, q.origin ≠ packet.origin :=
        fun q hq horigin => hnone ⟨q, hq, horigin⟩
      rw [hno hfirst] at hsup
      exact absurd hsup (by decide)
    · exact Ctx.delivered_of_new (c := n.client.enter script) hpush (hno hfirst) hsub

/-- **The client does right by every push of a run exactly if every push of it is
fresh**, as long as there is no `stop_impl`.  The pushes are notifications, each of
one call of `publish_notification` of one server. -/
theorem recognizes_iff_fresh {es : List Event}
    (hstop : Run.Along step (fun n _ => n.client.io.stopLog = []) new es) :
    (Run.Along step (fun n e => ∀ packet ∈ e.push?, n.Recognizes packet) new es ↔
      Run.Along step (fun n e => ∀ packet ∈ e.push?, n.Fresh packet) new es) ∧
    Run.Along step (fun n e => ∀ packet ∈ e.push?, packet ∈ n.downlink →
      ∃ server draw cmd, packet.origin = .notification server draw cmd) new es := by
  constructor
  · refine Run.along_iff (I := fun n => n.Listening ∧ n.Settled)
      (fun _ _ _ hi hs => settled_event hi hs) (fun n e hi hnil => ?_)
      ⟨listening_new, settled_new⟩ hstop
    refine forall_congr' (fun packet => imp_congr_right (fun hp => ?_))
    exact hi.1.recognizes_iff hnil (isPush_of_push? hp)
  · refine Run.along_of_invariant (I := fun n => n.Listening ∧ n.Settled)
      (fun _ _ _ hi hs => settled_event hi hs) (fun n e hi packet hp hdown => ?_)
      ⟨listening_new, settled_new⟩ es
    exact hi.2.notification hdown (isPush_of_push? hp)

/-- The first notification of the server after the first one. -/
def secondNotification : SharedPacket := firstOf 1

/-- The server is replaced after its first notification, the client connects to the
new one after so long, and that publishes its first notification too. -/
def publishAgain (time : TimePoint) : List Event :=
  connectFirst ++
    [.client (.subscribeNotification 5 0), .client (.run []),
      .serverCall (.publishNotification 5 none 0), .clientReceives firstNotification [],
      .client (.readFailed 0), .client (.run []), .client (.run []), .replace (seconds 0),
      .serverCall .start, .client (.advance time), .client (.expired 0), .client (.run []),
      .client .connected, .client (.run []), .accept false,
      .serverCall (.publishNotification 5 none 0)]

/-- More than a minute later, and the second notification arrives twice. -/
def publishLater : List Event :=
  publishAgain (seconds 66) ++
    [.clientReceives secondNotification [], .clientReceives secondNotification []]

/-- Both notifications are heard, and the copy is not. -/
theorem recognizes_first :
    ∃ n, Run.run step new publishLater = some n ∧
      n.heard.map SharedPacket.origin =
        [.notification 0 1 5, .notification 1 1 5, .notification 1 1 5] ∧
      n.accepted.map (fun a => a.1.origin) = [.notification 0 1 5, .notification 1 1 5] ∧
      Run.Along step (fun n e => ∀ packet ∈ e.push?, n.Recognizes packet) new publishLater := by
  have hrun : (Run.run step new publishLater).map (fun n => (n.heard.map SharedPacket.origin,
      n.accepted.map (fun a => a.1.origin))) =
      some ([.notification 0 1 5, .notification 1 1 5, .notification 1 1 5],
        [.notification 0 1 5, .notification 1 1 5]) := by
    decide +kernel
  have hstop : Run.Along step (fun n _ => n.client.io.stopLog = []) new publishLater := by
    decide +kernel
  have hfresh : Run.Along step (fun n e => ∀ packet ∈ e.push?, n.Fresh packet) new publishLater := by
    decide +kernel
  obtain ⟨n, hn, heq⟩ := Option.map_eq_some_iff.mp hrun
  obtain ⟨hheard, haccepted⟩ := Prod.mk.inj heq
  exact ⟨n, hn, hheard, haccepted, (recognizes_iff_fresh hstop).1.mpr hfresh⟩

/-- **The first notification of a new server is taken for a copy**: it is
acknowledged, and the subscriber does not hear of it. -/
theorem suppressed_unheard :
    ∃ n, Run.run step new (publishAgain (seconds 6)) = some n ∧ n.client.io.stopLog = [] ∧
      n.client.client.notifications secondNotification.cmd = some 0 ∧
      ¬ n.Recognizes secondNotification ∧
      ∃ m, n.step (.clientReceives secondNotification []) = some m ∧
        (∀ callback, .recvNotificationCallback callback secondNotification ∉ m.client.io.trace) ∧
        ∃ p ∈ m.uplink, p.origin = .ack secondNotification.origin := by
  have hrun : (Run.run step new (publishAgain (seconds 6))).map (fun n => (n.client.io.stopLog,
      n.client.client.notifications secondNotification.cmd, n.heard.map SharedPacket.origin,
      n.client.client.suppresses n.client.now secondNotification)) =
      some ([], some 0, [.notification 0 1 5], true) := by
    decide +kernel
  have hnext : ((Run.run step new (publishAgain (seconds 6))).bind (fun n =>
      n.step (.clientReceives secondNotification []))).map (fun m =>
        (m.client.io.trace.any (fun effect => match effect with
          | .recvNotificationCallback _ packet => packet = secondNotification
          | _ => false), m.uplink.map SharedPacket.origin)) =
      some (false, [.ack (.notification 0 1 5), .ack (.notification 1 1 5)]) := by
    decide +kernel
  obtain ⟨n, hn, heq⟩ := Option.map_eq_some_iff.mp hrun
  simp only [Prod.mk.injEq] at heq
  obtain ⟨hstop, hsub, hheard, hsup⟩ := heq
  rw [hn] at hnext
  obtain ⟨m, hm, heq⟩ := Option.map_eq_some_iff.mp hnext
  obtain ⟨hnone, hup⟩ := Prod.mk.inj heq
  refine ⟨n, hn, hstop, hsub, fun h => ?_, m, hm, fun callback hin => ?_, ?_⟩
  · obtain ⟨q, hq, horigin⟩ := h.suppressed hsup
    have hmem : q.origin ∈ n.heard.map SharedPacket.origin := List.mem_map_of_mem hq
    rw [hheard, horigin] at hmem
    exact absurd hmem (by decide)
  · have hany := List.any_eq_false.mp hnone _ hin
    exact hany (decide_eq_true rfl)
  · have hack : Origin.ack secondNotification.origin ∈ m.uplink.map SharedPacket.origin := by
      rw [hup]
      exact List.mem_cons_of_mem _ (List.mem_singleton.mpr rfl)
    obtain ⟨p, hp, horigin⟩ := List.mem_map.mp hack
    exact ⟨p, hp, horigin⟩

end Network

end Ibase
