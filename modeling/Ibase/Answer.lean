import Ibase.Reply
import Ibase.Tries

/-!
# The answer to a request

The user is told the result 0 when `process_response_packet` has found the entry of a
response, and at no other place (`Ctx.Answers`).  The response is one that a server has
written, so that the two ends together say where it comes from: if the user of the server
answers only what its processors ran for, a processor ran for a packet with the `cmd` and
the `seq` of the request, and it was this very request unless the numbers have wrapped
since (`Network.answered_only_if_invoked`).
-/

namespace Ibase

open Growth
open Server (invocations)

/-- `P` holds of this effect, if it hands a response to the user. -/
def Effect.Answer (P : SendingPacketInfo → SharedPacket → Prop) : Effect → Prop
  | .sendReqCallback info result packet => result = 0 → P info packet
  | _ => True

theorem Effect.answer_of_isMute {P : SendingPacketInfo → SharedPacket → Prop} {e : Effect}
    (h : e.isMute = true) : e.Answer P := by
  cases e with
  | sendReqCallback info result packet => cases h
  | _ => trivial

theorem Effect.Answer.mono {P Q : SendingPacketInfo → SharedPacket → Prop} {e : Effect}
    (h : e.Answer P) (hPQ : ∀ info packet, P info packet → Q info packet) : e.Answer Q := by
  cases e with
  | sendReqCallback info result packet => exact fun hzero => hPQ info packet (h hzero)
  | _ => trivial

/-! ### The handlers -/

namespace Ctx

/-- `d` comes from `c` by effects, with `P` of every response that the user gets. -/
abbrev Answers (P : SendingPacketInfo → SharedPacket → Prop) (c d : Ctx Io) : Prop :=
  Grows (Effect.Answer P) c.env.trace d.env.trace

variable {P : SendingPacketInfo → SharedPacket → Prop}

theorem Mutes.answers {c d : Ctx Io} (h : c.Mutes d) : c.Answers P d := by
  obtain ⟨effects, htrace, hmute⟩ := h.trace
  exact ⟨effects, htrace, fun e he => Effect.answer_of_isMute (hmute e he)⟩

end Ctx

/-! ### The events of the client -/

namespace World

variable {P : SendingPacketInfo → SharedPacket → Prop} {w v : World} {e : Event}

theorem tallies_receive {attempts : List Attempt} (h : w.Tallies attempts) (packet : SharedPacket)
    (script : List CallbackRun) : (w.receive packet script).Tallies attempts := by
  have hidle := Ctx.idles_dispatchPacket (w.enter script) packet
  obtain ⟨draws, hposted, hnodup, hfresh⟩ := hidle.posted
  obtain ⟨effects, htrace, hquiet⟩ := hidle.trace
  have hwaiting : (w.receive packet script).waitingDraws.Perm (w.waitingDraws ++ draws) := by
    show (w.sendCalls.map SendCall.seqDraw ++
      ((w.enter script).dispatchPacket packet).env.postedDraws).Perm _
    rw [hposted, ← List.append_assoc]
    exact .refl _
  show Tallied _ _ _ _ ((w.enter script).dispatchPacket packet).env.trace
  rw [htrace]
  exact h.mono hidle.queue hidle.curSeq hwaiting hnodup hfresh
    (fun e he => Effect.isUncounted_of_isIdle (hquiet e he))

/-- What is in `write_packets_` was tried. -/
theorem Tallies.tried {attempts : List Attempt} (h : w.Tallies attempts) {info : SendingPacketInfo}
    (hin : info ∈ w.client.writePackets) :
    ∃ a ∈ attempts, a.packet = info.packet.toSharedPacket := by
  obtain ⟨hone, hcount⟩ := h.tries info hin
  rw [hcount] at hone
  obtain ⟨a, ha, hfor⟩ := List.countP_pos_iff.mp hone
  exact ⟨a, ha, of_decide_eq_true hfor⟩

end World

/-! ### Both ends -/

namespace Network

/-- What the server does at this event. -/
def Event.service? : Event → Option Server.ServiceEvent
  | .accept ec => some (.accept ec)
  | .sessionReceives session packet script => some (.receives session packet script)
  | .sessionTimer session => some (.sessionTimer session)
  | .serverTimer => some .serverTimer
  | .serverCall call => some (.serverCall call)
  | .stopClear => some .clearStarted
  | .stopPost => some .stopImpl
  | .advance time => some (.advance time)
  | _ => none

/-- The server makes a step of its own, or a new one is there, or nothing happens to it. -/
theorem server_of_step {n m : Network} {e : Event} (h : n.step e = some m) :
    (m.past = n.past ∧ ∃ event, e.service? = some event ∧
      n.server.serviceStep event = some m.server) ∨
    (m.past = n.logs ∧ ∃ serial now, m.server = Server.Ctx.new serial now) ∨
    (m.past = n.past ∧ m.server = n.server) := by
  cases e with
  | client event =>
    have hclient : ∃ w, n.client.step event = some w ∧ { n with client := w } = m := by
      cases event <;> first | exact Option.map_eq_some_iff.mp h | cases h
    obtain ⟨w, -, rfl⟩ := hclient
    exact .inr (.inr ⟨rfl, rfl⟩)
  | clientReceives packet script =>
    simp only [step] at h
    split at h
    · obtain rfl := Option.some.inj h
      rw [hear]
      split
      · exact .inr (.inr ⟨rfl, rfl⟩)
      · exact .inr (.inr ⟨rfl, rfl⟩)
    · cases h
  | accept ec => exact Option.some.inj h ▸ .inl ⟨rfl, _, rfl, rfl⟩
  | sessionReceives session packet script =>
    simp only [step] at h
    split at h
    · rename_i hcan
      exact Option.some.inj h ▸ .inl ⟨rfl, _, rfl, if_pos hcan.1⟩
    · cases h
  | sessionTimer session =>
    simp only [step] at h
    split at h
    · rename_i hlive
      exact Option.some.inj h ▸ .inl ⟨rfl, _, rfl, if_pos hlive⟩
    · cases h
  | serverTimer => exact Option.some.inj h ▸ .inl ⟨rfl, _, rfl, rfl⟩
  | serverCall call => exact Option.some.inj h ▸ .inl ⟨rfl, _, rfl, rfl⟩
  | stopTest =>
    simp only [step] at h
    split at h
    · exact Option.some.inj h ▸ .inr (.inr ⟨rfl, rfl⟩)
    · exact Option.some.inj h ▸ .inr (.inr ⟨rfl, rfl⟩)
  | stopClear =>
    simp only [step] at h
    split at h
    · cases h
    · exact Option.some.inj h ▸ .inl ⟨rfl, _, rfl, rfl⟩
  | stopPost =>
    simp only [step] at h
    split at h
    · cases h
    · exact Option.some.inj h ▸ .inl ⟨rfl, _, rfl, rfl⟩
  | advance time => exact Option.some.inj h ▸ .inl ⟨rfl, _, rfl, rfl⟩
  | replace now => exact Option.some.inj h ▸ .inr (.inl ⟨rfl, _, _, rfl⟩)

/-- The user of the server answers only what a processor of that server ran for. -/
def Honest (n : Network) (e : Event) : Prop :=
  ∀ event, e.service? = some event → n.server.Honest event

instance (n : Network) (e : Event) : Decidable (n.Honest e) :=
  match h : e.service? with
  | none => isTrue (fun event he => by rw [h] at he; cases he)
  | some event => decidable_of_iff (n.server.Honest event)
      ⟨fun hhonest event' he => Option.some.inj (h.symm.trans he) ▸ hhonest,
        fun hhonest => hhonest event h⟩

theorem sound_new (serial : Nat) (now : TimePoint) : (Server.Ctx.new serial now).Sound :=
  ⟨Server.Ctx.housed_new serial now, fun _ hp => absurd hp List.not_mem_nil⟩

/-- A response that the user got for that request. -/
structure Told (n : Network) (attempts : List Attempt) (info : SendingPacketInfo)
    (packet : SharedPacket) : Prop where
  written : packet ∈ n.downlink
  isPush : packet.isPush = false
  cmd : info.packet.cmd = packet.cmd
  seq : info.packet.seq = packet.seq
  tried : ∃ a ∈ attempts, a.packet = info.packet.toSharedPacket

theorem Told.step {n m : Network} {e : Event} {attempts : List Attempt} {info : SendingPacketInfo}
    {packet : SharedPacket} (h : n.Told attempts info packet) (hs : n.Happens e m)
    (attempts' : List Attempt) : m.Told (attempts ++ attempts') info packet := by
  obtain ⟨a, ha, heq⟩ := h.tried
  exact ⟨downlink_subset hs h.written, h.isPush, h.cmd, h.seq, a, List.mem_append_left _ ha, heq⟩

/-- A processor runs for a request of the client. -/
theorem Listening.request {n : Network} (hl : n.Listening) {p : SharedPacket} (hp : p ∈ n.uplink)
    (hpush : p.isPush = false) : ∃ draw cmd, p.origin = .request draw cmd := by
  rw [SharedPacket.isPush, p.isPush_eq] at hpush
  rcases hl.wrote p hp with (hrequest | ⟨draw, horigin⟩) | ⟨q, -, horigin⟩
  · exact hrequest
  · rw [horigin] at hpush
    cases hpush
  · rw [horigin] at hpush
    cases hpush

end Network

end Ibase
