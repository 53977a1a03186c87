import Ibase.Network

/-!
# What the client writes and hears

The client's side of a network.  What it writes are its requests and heartbeats,
and for each push it has received an acknowledgement (`Network.Listening`).  Its
tracker holds pushes that it accepted and nothing else.
-/

namespace Ibase

open Relation RecentlyPacketTracker

namespace Link

/-- `m` is a later state of the connection than `l`, and no packet was received in
between. -/
structure Later (l m : Link Io) : Prop where
  grows : l.env.trace <+: m.env.trace
  wrote : ∀ p isOpen, .asyncWrite p isOpen ∈ m.env.trace →
    .asyncWrite p isOpen ∈ l.env.trace ∨ p.Plain
  reads : ∀ tag length, .readSome tag false length ∈ m.env.ready →
    .readSome tag false length ∈ l.env.ready
  stops : l.env.stopLog <+: m.env.stopLog
  tracker : m.tracker = l.tracker ∨ (m.tracker = l.tracker.clear ∧ m.env.stopLog ≠ [])
  now_le : l.now ≤ m.now

theorem Later.of_eq {l m : Link Io} (henv : m.env = l.env) (ht : m.tracker = l.tracker)
    (hn : m.now = l.now) : Later l m := by
  refine ⟨?_, ?_, ?_, ?_, .inl ht, hn ▸ Nat.le_refl _⟩
  · rw [henv]
  · rw [henv]
    exact fun _ _ => .inl
  · rw [henv]
    exact fun _ _ => id
  · rw [henv]

theorem Later.refl (l : Link Io) : Later l l := .of_eq rfl rfl rfl

theorem Later.trans {l m n : Link Io} (h1 : Later l m) (h2 : Later m n) : Later l n := by
  refine ⟨h1.grows.trans h2.grows, fun p isOpen hin => ?_, fun tag length hin => ?_,
    h1.stops.trans h2.stops, ?_, Nat.le_trans h1.now_le h2.now_le⟩
  · rcases h2.wrote p isOpen hin with hin | hp
    · exact h1.wrote p isOpen hin
    · exact .inr hp
  · exact h1.reads tag length (h2.reads tag length hin)
  · rcases h2.tracker with h | ⟨h, hstop⟩
    · rw [h]
      refine h1.tracker.imp_right (fun ⟨h', hstop⟩ => ⟨h', fun hnil => hstop ?_⟩)
      exact List.prefix_nil.mp (hnil ▸ h2.stops)
    · rw [h]
      rcases h1.tracker with h' | ⟨h', -⟩
      · exact .inr ⟨by rw [h'], hstop⟩
      · exact .inr ⟨by rw [h']; rfl, hstop⟩

/-- `stop_impl` is written down for good. -/
theorem stopLog_perform (io : Io) (effect : Effect) :
    io.stopLog <+: (Platform.perform effect io : Io).stopLog := by
  cases effect with
  | stopImpl started connectState => exact List.prefix_append ..
  | asyncReadSome buf isOpen => cases isOpen <;> exact List.prefix_refl _
  | asyncWrite packet isOpen => cases isOpen <;> exact List.prefix_refl _
  | _ => exact List.prefix_refl _

theorem stopLog_of_hasStopped {io : Io} (h : HasStopped io) : io.stopLog ≠ [] := by
  obtain ⟨env, started, connectState, effects, rfl⟩ := h
  have hgrows : ∀ (effects : List Effect) (io : Io),
      io.stopLog <+: (effects.foldl (fun e effect => Platform.perform effect e) io).stopLog := by
    intro effects
    induction effects with
    | nil => exact fun io => List.prefix_refl _
    | cons effect effects ih => exact fun io => (stopLog_perform io effect).trans (ih _)
  intro hnil
  have hprefix := hgrows effects (Platform.perform (Effect.stopImpl started connectState) env)
  rw [hnil] at hprefix
  exact absurd (List.prefix_nil.mp hprefix) (by simp [Platform.perform, Io.react])

theorem later_emit (l : Link Io) {e : Effect}
    (he : ∀ p isOpen, e = .asyncWrite p isOpen → p.Plain) : Later l (l.emit e) := by
  refine ⟨List.prefix_append .., fun p isOpen hin => ?_, fun tag length hin => ?_,
    stopLog_perform _ e, .inl rfl, Nat.le_refl _⟩
  · rcases List.mem_append.mp hin with hin | hin
    · exact .inl hin
    · exact .inr (he p isOpen (List.mem_singleton.mp hin).symm)
  · exact Io.succeeded_of_perform rfl hin

theorem later_close (l : Link Io) : Later l l.close := by
  have hmark : Later l (l.emit .doClose) := later_emit l (by simp)
  rcases close_cases l with ⟨-, heq⟩ | ⟨-, -, heq⟩ | ⟨-, -, heq⟩
  · rw [heq]
    exact hmark
  · rw [heq]
    exact hmark.trans (.of_eq rfl rfl rfl)
  · rw [heq]
    have hdown : Later l { l.emit .doClose with
        readPending := false, connectState := .disconnected, socketOpen := false } :=
      hmark.trans (.of_eq rfl rfl rfl)
    exact hdown.trans (later_emit _ (by simp))

theorem later_connect (l : Link Io) : Later l l.connect := by
  have hmark : Later l { l.emit (.doConnect l.readBuf.size) with
      connectState := .connecting, socketOpen := true } :=
    (later_emit l (by simp)).trans (.of_eq rfl rfl rfl)
  exact hmark.trans (later_emit _ (by simp))

theorem later_read (l : Link Io) : Later l l.read := by
  rcases read_cases l with heq | ⟨-, -, size, heq⟩
  · rw [heq]
    exact .refl l
  · rw [heq]
    have hbuf : Later l { l with readPending := true, readBuf := (l.readBuf.prepare size).2 } :=
      .of_eq rfl rfl rfl
    exact hbuf.trans (later_emit _ (by simp))

theorem later_step {l m : Link Io} (h : Step l m) : Later l m := by
  cases h with
  | emit effect h =>
    refine later_emit l ?_
    rintro p isOpen rfl
    exact Bool.noConfusion h
  | write packet h hp =>
    refine later_emit l ?_
    rintro p isOpen heq
    exact (Effect.asyncWrite.inj heq).1 ▸ hp
  | later t =>
    exact ⟨List.prefix_refl _, fun _ _ => .inl, fun _ _ => id, List.prefix_refl _, .inl rfl,
      l.now.le_later t⟩
  | forget h =>
    exact ⟨List.prefix_refl _, fun _ _ => .inl, fun _ _ => id, List.prefix_refl _,
      .inr ⟨rfl, stopLog_of_hasStopped h⟩, Nat.le_refl _⟩
  | clearStarted => exact .of_eq rfl rfl rfl
  | start host port h =>
    have hmark : Later l { l.emit .startImpl with started := true, host := host, port := port } :=
      (later_emit l (by simp)).trans (.of_eq rfl rfl rfl)
    exact hmark.trans (later_connect _)
  | stop =>
    have hclose := (later_emit l (e := .stopImpl l.started l.connectState) (by simp)).trans
      (later_close _)
    exact hclose.trans (.of_eq rfl rfl rfl)
  | connect h hs => exact later_connect l

theorem later_steps {l m : Link Io} (h : ReflTransGen Step l m) : Later l m := by
  induction h with
  | refl => exact .refl l
  | tail _ hstep ih => exact ih.trans (later_step hstep)

/-- An event outside the handlers that is no read of bytes. -/
theorem later_event {e : Ibase.Event} {l m : Link Io} (h : Event e l m)
    (he : ∀ op bytes, e ≠ .received op bytes) : Later l m := by
  have hqueue : ∀ (k : Link Io) (g : Handler), (∀ tag length, g ≠ .readSome tag false length) →
      k.tracker = l.tracker → k.now = l.now → k.env.trace = l.env.trace →
      k.env.stopLog = l.env.stopLog → k.env.ready = l.env.ready ++ [g] → Later l k := by
    intro k g hg ht hn htrace hstop hready
    refine ⟨by rw [htrace], ?_, fun tag length hin => ?_, by rw [hstop], .inl ht,
      hn ▸ Nat.le_refl _⟩
    · rw [htrace]
      exact fun _ _ => .inl
    · rw [hready] at hin
      rcases List.mem_append.mp hin with hin | hin
      · exact hin
      · exact absurd (List.mem_singleton.mp hin).symm (hg tag length)
  cases h with
  | steps h => exact later_steps h
  | connect tag ec h => exact hqueue _ (.connect tag ec) (by simp) rfl rfl rfl rfl rfl
  | received op tag slab bytes he' h hlen => exact absurd he' (he op bytes)
  | readFailed op r h => exact hqueue _ (.readSome r.1 true 0) (by simp) rfl rfl rfl rfl rfl
  | write op tag ec h => exact hqueue _ (.write tag ec) (by simp) rfl rfl rfl rfl rfl
  | wait wait id' h => exact hqueue _ (.wait id' false) (by simp) rfl rfl rfl rfl rfl

end Link

namespace Ctx

theorem later_doReadPacket (c : Ctx Io) : c.link.Later c.doReadPacket.link := by
  rw [link_doReadPacket]
  exact Link.later_read _

theorem later_doClose (c : Ctx Io) : c.link.Later c.doClose.link := by
  rw [link_doClose]
  exact Link.later_close _

/-- A handler that is no read of bytes. -/
theorem later_runHandler (c : Ctx Io) {g : Handler}
    (hg : ∀ tag length, g ≠ .readSome tag false length) : c.link.Later (c.runHandler g).link := by
  cases g with
  | task task => exact Link.later_steps (moves_runTask c task)
  | wait timerId ec => exact Link.later_steps (moves_onTimer c timerId ec)
  | write tag ec =>
    cases ec with
    | true => exact later_doClose c
    | false => exact .refl _
  | connect tag ec =>
    cases ec with
    | true => exact .of_eq rfl rfl rfl
    | false =>
      have hup : c.link.Later { c with connectState := .connected }.link := .of_eq rfl rfl rfl
      exact hup.trans (later_doReadPacket { c with connectState := .connected })
  | readSome tag ec length =>
    cases ec with
    | true =>
      have hread : c.link.Later { c with readPending := false }.link := .of_eq rfl rfl rfl
      exact hread.trans (later_doClose { c with readPending := false })
    | false => exact absurd rfl (hg tag length)

end Ctx

namespace World

/-- No read of bytes has completed. -/
def NoRead (w : World) : Prop := ∀ tag length, .readSome tag false length ∉ w.io.ready

theorem later_of_step {w v : World} {e : Event} (hs : w.step e = some v)
    (he : ∀ op bytes, e ≠ .received op bytes) (hr : w.NoRead) : w.link.Later v.link := by
  rcases step_cases hs with ⟨script, g, rest, hready, rfl⟩ | hevent
  · have htail : w.link.Later ({ w with io := { w.io with ready := rest } } : World).link := by
      refine ⟨List.prefix_refl _, fun _ _ => .inl, fun tag length hin => ?_, List.prefix_refl _,
        .inl rfl, Nat.le_refl _⟩
      exact hready ▸ List.mem_cons_of_mem g hin
    have hrun : _ := Ctx.later_runHandler
      (({ w with io := { w.io with ready := rest } } : World).enter script) (g := g) (by
        rintro tag length rfl
        exact hr tag length (hready ▸ List.mem_cons_self))
    exact htail.trans hrun
  · exact Link.later_event hevent he

theorem NoRead.later {w v : World} (hr : w.NoRead) (h : w.link.Later v.link) : v.NoRead :=
  fun tag length hin => hr tag length (h.reads tag length hin)

/-- A packet is received: it is acknowledged and the tracker sees it, and the rest
is as always. -/
theorem later_receive (w : World) (packet : SharedPacket) (script : List CallbackRun) :
    (w.link.receive packet).Later (w.receive packet script).link :=
  Link.later_steps (Ctx.moves_dispatchPacket (w.enter script) packet)

end World

namespace Link

theorem receive_grows (l : Link Io) (q : SharedPacket) : l.env.trace <+: (l.receive q).env.trace := by
  have hack : l.env.trace <+: (l.ack q).env.trace := by
    rcases l.ack_cases q with heq | ⟨rspPacket, -, heq⟩
    · rw [heq]
    · rw [heq]
      exact List.prefix_append ..
  unfold receive
  split
  · exact hack
  · exact List.prefix_refl _

/-- The one thing written is the acknowledgement of a push. -/
theorem receive_wrote {l : Link Io} {q p : SharedPacket} {isOpen : Bool}
    (h : .asyncWrite p isOpen ∈ (l.receive q).env.trace) :
    .asyncWrite p isOpen ∈ l.env.trace ∨ (q.isPush = true ∧ p.origin = .ack q.origin) := by
  by_cases hpush : q.isPush = true
  · have hack : .asyncWrite p isOpen ∈ (l.ack q).env.trace := by
      rw [receive, if_pos hpush] at h
      exact h
    rcases l.ack_cases q with heq | ⟨rspPacket, horigin, heq⟩
    · rw [heq] at hack
      exact .inl hack
    · rw [heq] at hack
      rcases List.mem_append.mp hack with hin | hin
      · exact .inl hin
      · obtain ⟨rfl, -⟩ := Effect.asyncWrite.inj (List.mem_singleton.mp hin)
        exact .inr ⟨hpush, horigin⟩
  · rw [receive, if_neg hpush] at h
    exact .inl h

theorem receive_reads {l : Link Io} {q : SharedPacket} {tag : OpTag} {length : Nat}
    (h : .readSome tag false length ∈ (l.receive q).env.ready) :
    .readSome tag false length ∈ l.env.ready := by
  by_cases hpush : q.isPush = true
  · have hack : .readSome tag false length ∈ (l.ack q).env.ready := by
      rw [receive, if_pos hpush] at h
      exact h
    rcases l.ack_cases q with heq | ⟨rspPacket, -, heq⟩
    · exact heq ▸ hack
    · rw [heq] at hack
      exact Io.succeeded_of_perform rfl hack
  · rw [receive, if_neg hpush] at h
    exact h

theorem receive_now (l : Link Io) (q : SharedPacket) : (l.receive q).now = l.now := by
  unfold receive
  split
  · exact (Ctx.ack_now l q).1
  · rfl

theorem receive_stops (l : Link Io) (q : SharedPacket) :
    (l.receive q).env.stopLog = l.env.stopLog := by
  have hack : (l.ack q).env.stopLog = l.env.stopLog := by
    rcases l.ack_cases q with heq | ⟨rspPacket, -, heq⟩
    · rw [heq]
    · rw [heq]
      cases l.socketOpen <;> rfl
  unfold receive
  split
  · exact hack
  · rfl

end Link

/-- The id and the tick of a push that was accepted. -/
def acceptance (a : SharedPacket × Nat) : UInt64 × Nat := (packetId a.1.cmd a.1.seq, a.2)

/-- The tracker holds pushes that were accepted, and all of them unless there was a
`stop_impl`. -/
def Link.Knows (l : Link Io) (accepted : List (SharedPacket × Nat)) : Prop :=
  ∃ hist used, Tracks l.tracker hist used ∧ used ≤ l.now.tick ∧
    (∀ x ∈ hist, ∃ a ∈ accepted, acceptance a = x) ∧
    (l.env.stopLog = [] → ∀ a ∈ accepted, acceptance a ∈ hist)

theorem Link.Knows.later {l m : Link Io} {accepted : List (SharedPacket × Nat)}
    (hk : l.Knows accepted) (h : l.Later m) : m.Knows accepted := by
  obtain ⟨hist, used, htracks, hused, hin, hall⟩ := hk
  have hused' := Nat.le_trans hused (TimePoint.tick_mono h.now_le)
  rcases h.tracker with heq | ⟨heq, hstop⟩
  · refine ⟨hist, used, heq ▸ htracks, hused', hin, fun hnil => hall ?_⟩
    exact List.prefix_nil.mp (hnil ▸ h.stops)
  · exact ⟨[], used, heq ▸ htracks.clear, hused', fun x hx => absurd hx List.not_mem_nil,
      (absurd · hstop)⟩

namespace Network

/-- The client's side of a network. -/
structure Listening (n : Network) : Prop where
  noRead : n.client.NoRead
  wrote : ∀ p ∈ n.uplink, p.Plain ∨ ∃ q ∈ n.heard, p.origin = .ack q.origin
  heard : ∀ q ∈ n.heard, q.isPush = true ∧ q ∈ n.downlink
  accepted : ∀ a ∈ n.accepted, a.1 ∈ n.heard
  knows : n.client.link.Knows n.accepted

theorem accepted_repeat {n : Network} {packet : SharedPacket} (hpush : packet.isPush = true)
    (h : n.client.client.suppresses n.client.now packet = true) :
    (n.hear packet).accepted = n.accepted := by
  rw [hear, if_pos hpush]
  exact if_pos h

theorem accepted_new {n : Network} {packet : SharedPacket} (hpush : packet.isPush = true)
    (h : n.client.client.suppresses n.client.now packet = false) :
    (n.hear packet).accepted = n.accepted ++ [(packet, n.client.now.tick)] := by
  rw [hear, if_pos hpush]
  exact if_neg (by simp [h])

/-- What the tracker holds once it has seen a push. -/
theorem Listening.knows_hear {n : Network} (hl : n.Listening) (packet : SharedPacket) :
    (n.client.link.receive packet).Knows (n.hear packet).accepted := by
  obtain ⟨hist, used, htracks, hused, hin, hall⟩ := hl.knows
  have hstop := n.client.link.receive_stops packet
  by_cases hpush : packet.isPush = true
  · have htracker : (n.client.link.receive packet).tracker =
        (n.client.client.tracker.onReceivePacket (UInt64.ofNat n.client.now.tick) packet.cmd
          packet.seq).2 := by
      rw [Link.receive, if_pos hpush]
      rfl
    rw [Link.Knows, htracker, Link.receive_now, hstop]
    rcases htracks.receive_cases hused n.client.now.tick_lt packet.cmd packet.seq with
      ⟨hdup, -, hafter⟩ | ⟨hnew, -, hafter⟩
    · rw [accepted_repeat hpush hdup]
      exact ⟨hist, _, hafter, Nat.le_refl _, hin, hall⟩
    · rw [accepted_new hpush hnew]
      refine ⟨_, _, hafter, Nat.le_refl _, fun x hx => ?_, fun hnil a ha => ?_⟩
      · rcases List.mem_append.mp hx with hx | hx
        · obtain ⟨a, ha, heq⟩ := hin x hx
          exact ⟨a, List.mem_append_left _ ha, heq⟩
        · exact ⟨_, List.mem_append_right _ (List.mem_singleton.mpr rfl),
            (List.mem_singleton.mp hx).symm⟩
      · rcases List.mem_append.mp ha with ha | ha
        · exact List.mem_append_left _ (hall hnil a ha)
        · rw [List.mem_singleton.mp ha]
          exact List.mem_append_right _ (List.mem_singleton.mpr rfl)
  · rw [Link.receive, if_neg hpush, hear, if_neg hpush]
    exact ⟨hist, used, htracks, hused, hin, hall⟩

theorem heard_hear (n : Network) (packet : SharedPacket) :
    (n.hear packet).heard = n.heard ++ (if packet.isPush then [packet] else []) := by
  unfold hear
  split
  · rfl
  · exact (List.append_nil _).symm

theorem accepted_hear {n : Network} {packet : SharedPacket} {a : SharedPacket × Nat}
    (h : a ∈ (n.hear packet).accepted) : a ∈ n.accepted ∨ (packet.isPush = true ∧ a.1 = packet) := by
  unfold hear at h
  split at h
  · rename_i hpush
    simp only at h
    split at h
    · exact .inl h
    · rcases List.mem_append.mp h with h | h
      · exact .inl h
      · exact .inr ⟨hpush, congrArg Prod.fst (List.mem_singleton.mp h)⟩
  · exact .inl h

theorem listening_new : new.Listening := by
  refine ⟨fun tag length => List.not_mem_nil, fun p hp => absurd hp List.not_mem_nil,
    fun q hq => absurd hq List.not_mem_nil, fun a ha => absurd ha List.not_mem_nil,
    [], 0, tracks_new, Nat.zero_le _, fun x hx => absurd hx List.not_mem_nil,
    fun _ a ha => absurd ha List.not_mem_nil⟩

/-- **Every event keeps it.** -/
theorem listening_step {n m : Network} {e : Event} (h : n.Happens e m) (hl : n.Listening) :
    m.Listening := by
  have hdown : ∀ q ∈ n.heard, q.isPush = true ∧ q ∈ m.downlink :=
    fun q hq => ⟨(hl.heard q hq).1, downlink_subset h (hl.heard q hq).2⟩
  cases h with
  | client event w he h =>
    have hlater := World.later_of_step h he hl.noRead
    refine ⟨hl.noRead.later hlater, fun p hp => ?_, hdown, hl.accepted, hl.knows.later hlater⟩
    rcases hlater.wrote p true (mem_uplink.mp hp) with hin | hplain
    · exact hl.wrote p (mem_uplink.mpr hin)
    · exact .inl hplain
  | hear packet script hp =>
    have hlater := n.client.later_receive packet script
    have hheard : ∀ q ∈ n.heard, q ∈ (n.hear packet).heard := by
      rw [heard_hear]
      exact fun q hq => List.mem_append_left _ hq
    have hself : packet.isPush = true → packet ∈ (n.hear packet).heard := by
      intro hpush
      rw [heard_hear, if_pos hpush]
      exact List.mem_append_right _ (List.mem_singleton.mpr rfl)
    refine ⟨fun tag length hin => ?_, fun p hin => ?_, fun q hq => ?_, fun a ha => ?_,
      (hl.knows_hear packet).later hlater⟩
    · exact hl.noRead tag length (Link.receive_reads (hlater.reads tag length hin))
    · rcases hlater.wrote p true (mem_uplink.mp hin) with hin | hplain
      · rcases Link.receive_wrote hin with hin | ⟨hpush, horigin⟩
        · exact (hl.wrote p (mem_uplink.mpr hin)).imp_right
            (fun ⟨q, hq, horigin⟩ => ⟨q, hheard q hq, horigin⟩)
        · exact .inr ⟨packet, hself hpush, horigin⟩
      · exact .inl hplain
    · have hq' : q ∈ n.heard ++ (if packet.isPush then [packet] else []) := heard_hear n packet ▸ hq
      rcases List.mem_append.mp hq' with hq' | hq'
      · exact hdown q hq'
      · split at hq'
        · rename_i hpush
          rw [List.mem_singleton.mp hq']
          exact ⟨hpush, downlink_subset (.hear packet script hp) hp⟩
        · exact absurd hq' List.not_mem_nil
    · rcases accepted_hear ha with ha | ⟨hpush, heq⟩
      · exact hheard _ (hl.accepted a ha)
      · exact heq ▸ hself hpush
  | server _ s stopTested stopCleared h =>
    exact ⟨hl.noRead, hl.wrote, hdown, hl.accepted, hl.knows⟩
  | replace now => exact ⟨hl.noRead, hl.wrote, hdown, hl.accepted, hl.knows⟩

/-- What the client has written stays on the wire. -/
theorem uplink_subset {n m : Network} {e : Event} (h : n.Happens e m) (hl : n.Listening)
    {p : SharedPacket} (hin : p ∈ n.uplink) : p ∈ m.uplink := by
  have hp := mem_uplink.mp hin
  cases h with
  | client event w he h =>
    exact mem_uplink.mpr ((World.later_of_step h he hl.noRead).grows.subset hp)
  | hear packet script hpacket =>
    have hgrows := (n.client.link.receive_grows packet).trans
      (n.client.later_receive packet script).grows
    exact mem_uplink.mpr (hgrows.subset hp)
  | server _ s stopTested stopCleared h => exact hin
  | replace now => exact hin

end Network

end Ibase
