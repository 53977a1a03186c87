import Ibase.Service

/-!
# What a session does to the server

A function of a session that hands no packet over changes nothing of the server around
it but the list of what was done.  `Emits A` says so, and that every packet that was
written is in `A`: `do_write_packet` and `send_packet` write the packet that they are
given, `do_resender_check` those of `write_packets_`, and the others none.
-/

namespace Ibase

namespace Server

namespace Ctx

/-- The server with these effects of that session added to the list. -/
def logged (s : Ctx Log) (number : Nat) (effects : List Session.Effect) : Ctx Log :=
  { s with env := ⟨s.env.trace ++ effects.map (Effect.session number)⟩ }

theorem logged_nil (s : Ctx Log) (number : Nat) : s.logged number [] = s := by
  rw [logged, List.map_nil, List.append_nil]

theorem logged_append (s : Ctx Log) (number : Nat) (effects effects' : List Session.Effect) :
    (s.logged number effects).logged number effects' = s.logged number (effects ++ effects') := by
  rw [logged, logged, logged, List.map_append, ← List.append_assoc]

/-- `t` comes from `s` by effects alone, and the packets written are in `A`. -/
structure Emits (A : SharedPacket → Prop) (s t : Session.Ctx (Around Log)) : Prop where
  now : t.now = s.now
  env : ∃ effects, t.env = ⟨s.env.server.logged s.env.number effects, s.env.number⟩ ∧
    ∀ packet, .asyncWrite packet ∈ effects → A packet

namespace Emits

variable {A : SharedPacket → Prop} {s t u : Session.Ctx (Around Log)}

theorem of_eq (hnow : t.now = s.now) (henv : t.env = s.env) : Emits A s t := by
  refine ⟨hnow, [], ?_, fun packet hin => absurd hin List.not_mem_nil⟩
  rw [henv, logged_nil]

theorem refl (s : Session.Ctx (Around Log)) : Emits A s s := of_eq rfl rfl

theorem trans (h : Emits A s t) (h' : Emits A t u) : Emits A s u := by
  obtain ⟨effects, henv, hwritten⟩ := h.env
  obtain ⟨effects', henv', hwritten'⟩ := h'.env
  refine ⟨h'.now.trans h.now, effects ++ effects', ?_, fun packet hin => ?_⟩
  · rw [henv', henv, logged_append]
  · rcases List.mem_append.mp hin with hin | hin
    · exact hwritten packet hin
    · exact hwritten' packet hin

theorem emit (s : Session.Ctx (Around Log)) {effect : Session.Effect}
    (h : ∀ packet, effect = .asyncWrite packet → A packet) : Emits A s (s.emit effect) := by
  refine ⟨rfl, [effect], rfl, fun packet hin => ?_⟩
  exact h packet (List.mem_singleton.mp hin).symm

theorem doWritePacket (s : Session.Ctx (Around Log)) {packet : SharedPacket} (h : A packet) :
    Emits A s (s.doWritePacket packet) := by
  rw [Session.Ctx.doWritePacket]
  split
  · exact refl s
  · exact emit s (fun p hp => Session.Effect.asyncWrite.inj hp ▸ h)

theorem doReadPacket (s : Session.Ctx (Around Log)) : Emits A s s.doReadPacket := by
  rcases s.doReadPacket_cases with heq | heq
  · rw [heq]
    exact refl s
  · rw [heq]
    have hset : Emits A s { s with
        readPending := true, readBuf := (s.readBuf.prepare s.readBuf.sizeToRead).2 } :=
      .of_eq rfl rfl
    exact hset.trans (emit _ (fun _ h => by cases h))

theorem doStart (s : Session.Ctx (Around Log)) : Emits A s s.doStart := by
  have hdraw : Emits A s { s with
      timer := { s.timer with curTimerId := s.timer.curTimerId + 1 } } := .of_eq rfl rfl
  have htimer : Emits A s (s.startTimer 1 1) := hdraw.trans (emit _ (fun _ h => by cases h))
  have hset : Emits A (s.startTimer 1 1) { s.startTimer 1 1 with
      checkTimerId := s.timer.nextTimerId } := .of_eq rfl rfl
  exact (htimer.trans hset).trans (doReadPacket _)

theorem sendPacket (s : Session.Ctx (Around Log)) {packet : SharedPacket} (h : A packet) :
    Emits A s (s.sendPacket packet) := by
  rw [Session.Ctx.sendPacket]
  split
  · have hset : Emits A s { s with writePackets := s.writePackets ++ [⟨packet, 1, s.now⟩] } :=
      .of_eq rfl rfl
    exact (hset.trans (emit _ (fun _ h => by cases h))).trans (doWritePacket _ h)
  · exact doWritePacket s h

theorem ackEntry (s : Session.Ctx (Around Log)) (packet : SharedPacket) :
    Emits A s (s.ackEntry packet) := by
  rw [Session.Ctx.ackEntry]
  split
  · exact refl s
  · have herase : Emits A s { s with
        writePackets := s.writePackets.eraseP (Session.Ctx.matchesPacket packet) } := .of_eq rfl rfl
    exact herase.trans (emit _ (fun _ h => by cases h))

/-- The sweep writes packets of its entries. -/
theorem resendFrom (curTimePoint : TimePoint) (visited rest : List Session.SendingPacketInfo)
    (s : Session.Ctx (Around Log)) (h : ∀ it ∈ rest, A it.packet) :
    Emits A s (Session.Ctx.resendFrom curTimePoint visited rest s) := by
  induction rest generalizing visited s with
  | nil =>
    rw [Session.Ctx.resendFrom]
    exact refl s
  | cons it rest ih =>
    have hrest : ∀ it ∈ rest, A it.packet := fun i hi => h i (List.mem_cons_of_mem it hi)
    rw [Session.Ctx.resendFrom]
    split
    · exact ih _ s hrest
    split
    · have hset : Emits A s { s with writePackets := visited ++ rest } := .of_eq rfl rfl
      exact (hset.trans (emit _ (fun _ h => by cases h))).trans (ih _ _ hrest)
    · have hset : Emits A s { s with writePackets := visited ++
          { it with curTries := it.curTries + 1, lastSendTimePoint := curTimePoint } :: rest } :=
        .of_eq rfl rfl
      exact (hset.trans (doWritePacket _ (h it List.mem_cons_self))).trans (ih _ _ hrest)

end Emits

end Ctx

end Server

end Ibase
