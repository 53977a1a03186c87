import Ibase.Tries

/-!
# Heartbeats

`do_heartbeat_check` compares the time of the tick with `last_heartbeat_timepoint_`, and
nothing ever sets that but `stop_impl`, to the epoch of the clock.  So a heartbeat goes
out at every tick that finds the client connected five seconds after that epoch, one
second after the last.

`marksAlong` are the heartbeats of a run and the calls of `stop_impl`, with the times of
their handlers; two heartbeats follow each other there if no stop came between.
-/

namespace Ibase

/-- A heartbeat that was sent at this time, or a call of `stop_impl`. -/
inductive Mark where
  | beat (time : TimePoint)
  | reset
  deriving DecidableEq

namespace Mark

/-- If these are two heartbeats, they are far enough apart. -/
def Apart : Mark → Mark → Prop
  | beat s, beat t => heartbeatIntervalSeconds ≤ secondsPassed t s
  | _, _ => True

instance : DecidableRel Apart
  | beat s, beat t => inferInstanceAs (Decidable (heartbeatIntervalSeconds ≤ secondsPassed t s))
  | beat _, reset => isTrue trivial
  | reset, _ => isTrue trivial

end Mark

namespace Effect

def isHeartbeat : Effect → Bool
  | .asyncWrite packet _ =>
    match packet.origin with
    | .heartbeat _ => true
    | _ => false
  | _ => false

def isStop : Effect → Bool
  | .stopImpl .. => true
  | _ => false

/-- What this effect of a handler that began at `now` marks. -/
def mark? (now : TimePoint) (e : Effect) : Option Mark :=
  if e.isHeartbeat then some (.beat now) else if e.isStop then some .reset else none

/-- The stop that this effect marks. -/
def stop? (e : Effect) : Option Mark := if e.isStop then some .reset else none

theorem not_isHeartbeat_of_isIdle {e : Effect} (h : e.isIdle = true) : e.isHeartbeat = false := by
  cases e with
  | asyncWrite packet isOpen =>
    rw [isIdle] at h
    rw [isHeartbeat]
    cases horigin : packet.origin with
    | heartbeat draw =>
      rw [horigin] at h
      cases h
    | _ => rfl
  | _ => rfl

theorem filterMap_mark? {effects : List Effect} (h : ∀ e ∈ effects, e.isHeartbeat = false)
    (now : TimePoint) : effects.filterMap (mark? now) = effects.filterMap stop? := by
  refine List.filterMap_congr (fun e he => ?_)
  rw [mark?, h e he, stop?]
  rfl

end Effect

namespace Ctx

/-- `d` comes from `c` without a heartbeat. -/
structure Unbeaten (c d : Ctx Io) : Prop where
  heartbeat : d.lastHeartbeatTimepoint = c.lastHeartbeatTimepoint ∨ d.lastHeartbeatTimepoint = 0
  trace : ∃ effects, d.env.trace = c.env.trace ++ effects ∧ ∀ e ∈ effects, e.isHeartbeat = false

namespace Unbeaten

variable {c d e : Ctx Io}

theorem of_idles (h : c.Idles d) : c.Unbeaten d := by
  obtain ⟨effects, htrace, hidle⟩ := h.trace
  exact ⟨h.heartbeat, effects, htrace, fun f hf => Effect.not_isHeartbeat_of_isIdle (hidle f hf)⟩

theorem trans (h : c.Unbeaten d) (h' : d.Unbeaten e) : c.Unbeaten e := by
  obtain ⟨effects, htrace, hno⟩ := h.trace
  obtain ⟨effects', htrace', hno'⟩ := h'.trace
  refine ⟨?_, effects ++ effects', ?_, ?_⟩
  · rcases h'.heartbeat with heq | hzero
    · rw [heq]
      exact h.heartbeat
    · exact .inr hzero
  · rw [htrace', htrace, List.append_assoc]
  · intro f hf
    rcases List.mem_append.mp hf with hf | hf
    · exact hno f hf
    · exact hno' f hf

theorem emit (c : Ctx Io) {f : Effect} (h : f.isHeartbeat = false) : c.Unbeaten (c.emit f) :=
  ⟨.inl rfl, [f], rfl, fun _ hg => List.mem_singleton.mp hg ▸ h⟩

end Unbeaten

/-- A request is no heartbeat. -/
theorem unbeaten_doWritePacket (c : Ctx Io) (packet : RequestPacket) :
    c.Unbeaten (c.doWritePacket (some packet.toSharedPacket)) := by
  rw [doWritePacket]
  split
  · exact .of_idles (.refl c)
  · refine .emit c ?_
    obtain ⟨draw, cmd, horigin⟩ := packet.isRequest
    rw [Effect.isHeartbeat, horigin]

theorem unbeaten_resendFrom (curTimePoint : TimePoint) (visited rest : List SendingPacketInfo)
    (c : Ctx Io) : c.Unbeaten (resendFrom curTimePoint visited rest c) := by
  induction rest generalizing visited c with
  | nil => exact .of_idles (.refl c)
  | cons it rest ih =>
    rw [resendFrom]
    split
    · exact ih _ c
    split
    · have htold : c.Unbeaten (c.doSendReqCallback it (-1) it.packet.toSharedPacket) :=
        (Unbeaten.emit c rfl).trans (.of_idles (mutes_runCallback _).idles)
      simp only
      split
      · have hset : c.Unbeaten { c.doSendReqCallback it (-1) it.packet.toSharedPacket with
            writePackets := visited ++ rest } := ⟨htold.heartbeat, htold.trace⟩
        exact hset.trans (ih visited _)
      · exact htold.trans (.emit _ rfl)
    · let tried : Ctx Io := { c with writePackets := visited ++ it.resent curTimePoint :: rest }
      have htried : c.Unbeaten tried := ⟨.inl rfl, [], (List.append_nil _).symm,
        fun f hf => absurd hf List.not_mem_nil⟩
      exact (htried.trans (unbeaten_doWritePacket tried it.packet)).trans (ih _ _)

/-- Does the heartbeat check find the client connected, five seconds after the epoch? -/
def isLive (c : Ctx Io) (curTimePoint : TimePoint) : Bool :=
  c.isConnected && decide (heartbeatIntervalSeconds ≤ secondsPassed curTimePoint 0)

/-- **The heartbeat check, while nothing sets `last_heartbeat_timepoint_`.** -/
theorem beats_doHeartbeatCheck {c : Ctx Io} (hzero : c.lastHeartbeatTimepoint = 0)
    (curTimePoint : TimePoint) :
    (c.doHeartbeatCheck curTimePoint).lastHeartbeatTimepoint = 0 ∧
    ∃ effects, (c.doHeartbeatCheck curTimePoint).env.trace = c.env.trace ++ effects ∧
      effects.filterMap Effect.stop? = [] ∧ ∀ now, effects.filterMap (Effect.mark? now) =
        if c.isLive curTimePoint then [.beat now] else [] := by
  rw [doHeartbeatCheck, isLive]
  by_cases hearly : secondsPassed curTimePoint c.lastHeartbeatTimepoint < heartbeatIntervalSeconds
  · rw [if_pos hearly, decide_eq_false (Int.not_le.mpr (hzero ▸ hearly)), Bool.and_false]
    exact ⟨hzero, [], (List.append_nil _).symm, rfl, fun _ => rfl⟩
  rw [if_neg hearly, decide_eq_true (Int.not_lt.mp (hzero ▸ hearly)), Bool.and_true]
  by_cases hconnected : c.isConnected = true
  · obtain ⟨packet, hbuild, horigin⟩ := exists_build_empty (.heartbeat (c.curSeq + 1))
    let drawn : Ctx Io := { c with curSeq := c.curSeq + 1 }
    have hup : drawn.isConnected = true := hconnected
    have hbeat : (Effect.asyncWrite packet c.socketOpen).isHeartbeat = true := by
      rw [Effect.isHeartbeat, horigin]
    rw [hconnected, if_neg (by decide)]
    show (drawn.doWritePacket (SharedPacket.build (.heartbeat (c.curSeq + 1)) none 0)).lastHeartbeatTimepoint
      = 0 ∧ ∃ effects, (drawn.doWritePacket (SharedPacket.build (.heartbeat (c.curSeq + 1)) none
        0)).env.trace = _ ∧ _
    rw [hbuild, doWritePacket_up hup]
    refine ⟨hzero, [.asyncWrite packet c.socketOpen], rfl, rfl, fun now => ?_⟩
    have hmark : (Effect.asyncWrite packet c.socketOpen).mark? now = some (.beat now) := by
      rw [Effect.mark?, hbeat, if_pos rfl]
    rw [List.filterMap_cons_some hmark, if_pos rfl]
    rfl
  · have hdown := Bool.eq_false_of_not_eq_true hconnected
    rw [hdown, if_pos rfl]
    exact ⟨hzero, [], (List.append_nil _).symm, rfl, fun _ => rfl⟩

/-- The timer is armed again, and nothing marked. -/
theorem unmarked_rescheduleTimer (c : Ctx Io) (timerId : UInt32) :
    (c.rescheduleTimer timerId).lastHeartbeatTimepoint = c.lastHeartbeatTimepoint ∧
    ∃ effects, (c.rescheduleTimer timerId).env.trace = c.env.trace ++ effects ∧
      effects.filterMap Effect.stop? = [] ∧ ∀ now, effects.filterMap (Effect.mark? now) = [] := by
  rw [rescheduleTimer]
  split
  · exact ⟨rfl, [], (List.append_nil _).symm, rfl, fun _ => rfl⟩
  · exact ⟨rfl, [_], rfl, rfl, fun _ => rfl⟩

end Ctx

namespace World

/-- The client as it comes to `do_heartbeat_check`, if that runs at this event. -/
def beating (w : World) (e : Event) : Option (Ctx Io) :=
  match w.running e with
  | some (c, .wait timerId false) =>
    (c.timer.find timerId).map (fun _ => (c.doReconnectCheck c.now).doResenderCheck c.now)
  | _ => none

/-- What a step adds to the trace. -/
def newEffects (w v : World) : List Effect := v.io.trace.drop w.io.trace.length

/-- The heartbeats and stops of a step. -/
def marks (w v : World) : List Mark := (w.newEffects v).filterMap (Effect.mark? w.now)

/-- The stops of a step, and the tick if it finds the client connected, five seconds
after the epoch. -/
def ticks (w : World) (e : Event) (v : World) : List Mark :=
  (w.newEffects v).filterMap Effect.stop? ++
    match w.beating e with
    | none => []
    | some c => if c.isLive w.now then [.beat w.now] else []

theorem newEffects_eq {w v : World} {effects : List Effect}
    (h : v.io.trace = w.io.trace ++ effects) : w.newEffects v = effects := by
  rw [newEffects, h]
  exact List.drop_left

/-- A step that does not come to `do_heartbeat_check` sends no heartbeat. -/
theorem marks_of_not_beating {w v : World} {e : Event} (hs : w.step e = some v)
    (hnone : w.beating e = none) :
    (v.client.lastHeartbeatTimepoint = w.client.lastHeartbeatTimepoint ∨
      v.client.lastHeartbeatTimepoint = 0) ∧ w.marks v = w.ticks e v := by
  suffices h : (v.client.lastHeartbeatTimepoint = w.client.lastHeartbeatTimepoint ∨
      v.client.lastHeartbeatTimepoint = 0) ∧
      ∃ effects, v.io.trace = w.io.trace ++ effects ∧ ∀ f ∈ effects, f.isHeartbeat = false by
    obtain ⟨hheartbeat, effects, htrace, hno⟩ := h
    refine ⟨hheartbeat, ?_⟩
    rw [marks, ticks, hnone, newEffects_eq htrace, Effect.filterMap_mark? hno, List.append_nil]
  rcases step_idles hs with ⟨hidle, -⟩ | ⟨c, g, hrunning, hloud, rfl⟩
  · obtain ⟨effects, htrace, hall⟩ := hidle.trace
    exact ⟨hidle.heartbeat, effects, htrace,
      fun f hf => Effect.not_isHeartbeat_of_isIdle (hall f hf)⟩
  obtain ⟨script, rest, -, -, rfl⟩ := running_eq_some hrunning
  let c := ({ w with io := { w.io with ready := rest } } : World).enter script
  suffices h : c.Unbeaten (c.runHandler g) from ⟨h.heartbeat, h.trace⟩
  cases g with
  | wait timerId ec =>
    cases ec with
    | true => cases hloud
    | false =>
      rw [beating, hrunning] at hnone
      have hfind : c.timer.find timerId = none := Option.map_eq_none_iff.mp hnone
      have hsame : c.onTimer timerId false = c := by
        rw [Ctx.onTimer, if_neg (by decide), hfind]
      show c.Unbeaten (c.onTimer timerId false)
      rw [hsame]
      exact .of_idles (.refl c)
  | task task =>
    cases task with
    | sendReqAsyncImpl packet sendDraw opt callback =>
      let queued : Ctx Io :=
        { c with writePackets := c.writePackets ++ [⟨packet, opt, sendDraw, callback, 1, c.now⟩] }
      have hqueued : c.Unbeaten queued := ⟨.inl rfl, [], (List.append_nil _).symm,
        fun f hf => absurd hf List.not_mem_nil⟩
      exact hqueued.trans (Ctx.unbeaten_doWritePacket queued packet)
    | _ => cases hloud
  | _ => cases hloud

/-- **A step that comes to `do_heartbeat_check` sends a heartbeat exactly if it finds the
client connected, five seconds after the epoch.** -/
theorem marks_of_beating {w v : World} {e : Event} (hs : w.step e = some v) {c : Ctx Io}
    (hbeating : w.beating e = some c) (hzero : w.client.lastHeartbeatTimepoint = 0) :
    v.client.lastHeartbeatTimepoint = 0 ∧ w.marks v = w.ticks e v := by
  have hticks : w.ticks e v = (w.newEffects v).filterMap Effect.stop? ++
      if c.isLive w.now then [.beat w.now] else [] := by
    rw [ticks, hbeating]
  rw [beating] at hbeating
  split at hbeating
  · rename_i c₀ timerId hrunning
    obtain ⟨info, hfind, rfl⟩ := Option.map_eq_some_iff.mp hbeating
    obtain ⟨script, rest, rfl, hr, rfl⟩ := running_eq_some hrunning
    let c₀ := ({ w with io := { w.io with ready := rest } } : World).enter script
    let c := (c₀.doReconnectCheck c₀.now).doResenderCheck c₀.now
    have hbefore : c₀.Unbeaten c := (Ctx.Unbeaten.of_idles (Ctx.idles_doReconnectCheck c₀ c₀.now)).trans
      (Ctx.unbeaten_resendFrom c₀.now [] _ _)
    have hzero' : c.lastHeartbeatTimepoint = 0 := by
      rcases hbefore.heartbeat with heq | hzero'
      · exact heq.trans hzero
      · exact hzero'
    obtain ⟨before, htrace, hno⟩ := hbefore.trace
    obtain ⟨hbeat, beats, htrace', hnostop, hmarks⟩ := Ctx.beats_doHeartbeatCheck hzero' c₀.now
    obtain ⟨hafter, after, htrace'', hnostop', hunmarked⟩ :=
      Ctx.unmarked_rescheduleTimer (c.doHeartbeatCheck c₀.now) timerId
    have hv : v = w.leave ((c.doHeartbeatCheck c₀.now).rescheduleTimer timerId) := by
      have hrun := run_eq_some hs hr
      have htimer : c₀.onTimer timerId false = (c.doHeartbeatCheck c₀.now).rescheduleTimer timerId := by
        rw [Ctx.onTimer, if_neg (by decide), hfind]
        rfl
      exact hrun.trans (congrArg w.leave htimer)
    have hnew : w.newEffects v = before ++ (beats ++ after) := by
      refine newEffects_eq ?_
      rw [hv]
      refine htrace''.trans ?_
      rw [htrace', htrace, List.append_assoc, List.append_assoc]
      rfl
    refine ⟨?_, ?_⟩
    · rw [hv]
      exact hafter.trans hbeat
    · rw [hticks, marks, hnew, List.filterMap_append, List.filterMap_append, List.filterMap_append,
        List.filterMap_append, Effect.filterMap_mark? hno, hmarks, hunmarked, hnostop, hnostop',
        List.append_nil, List.append_nil, List.append_nil]
      rfl
  · cases hbeating

/-- Nothing but `stop_impl` sets `last_heartbeat_timepoint_`, and every heartbeat has
its tick. -/
theorem marks_step {w v : World} {e : Event} (hs : w.step e = some v)
    (hzero : w.client.lastHeartbeatTimepoint = 0) :
    v.client.lastHeartbeatTimepoint = 0 ∧ w.marks v = w.ticks e v := by
  cases hbeating : w.beating e with
  | some c => exact marks_of_beating hs hbeating hzero
  | none =>
    obtain ⟨hheartbeat, hmarks⟩ := marks_of_not_beating hs hbeating
    refine ⟨?_, hmarks⟩
    rcases hheartbeat with heq | hzero'
    · exact heq.trans hzero
    · exact hzero'

/-! ### Runs -/

/-- The heartbeats and stops of a run. -/
def marksAlong : World → List Event → List Mark
  | _, [] => []
  | w, e :: es =>
    match w.step e with
    | none => []
    | some v => w.marks v ++ marksAlong v es

/-- The stops and the live ticks of a run. -/
def ticksAlong : World → List Event → List Mark
  | _, [] => []
  | w, e :: es =>
    match w.step e with
    | none => []
    | some v => w.ticks e v ++ ticksAlong v es

theorem marksAlong_eq {w : World} (hzero : w.client.lastHeartbeatTimepoint = 0) (es : List Event) :
    w.marksAlong es = w.ticksAlong es := by
  induction es generalizing w with
  | nil => rfl
  | cons e es ih =>
    rw [marksAlong, ticksAlong]
    cases hs : w.step e with
    | none => rfl
    | some v =>
      obtain ⟨hzero', hmarks⟩ := marks_step hs hzero
      simp only
      rw [hmarks, ih hzero']

theorem lastHeartbeat_run {es : List Event} {w v : World}
    (hzero : w.client.lastHeartbeatTimepoint = 0) (hrun : Run.run step w es = some v) :
    v.client.lastHeartbeatTimepoint = 0 :=
  Run.run_invariant (I := fun w : World => w.client.lastHeartbeatTimepoint = 0)
    (fun _ _ _ hzero _ hs => (marks_step hs hzero).1) hzero (Run.along_true _ _) hrun

/-- Heartbeats that follow each other, with no stop between, are far enough apart. -/
def Paced (marks : List Mark) : Prop := List.IsChain Mark.Apart marks

/-- Each tick of the run that finds the client connected, long enough after the last
heartbeat, sends one. -/
def Prompt (es : List Event) : Prop :=
  ∀ before e after, es = before ++ e :: after → ∀ w v, Run.run step new before = some w →
    w.step e = some v → ∀ c, w.beating e = some c → c.isConnected = true →
      ∀ t, (new.marksAlong before).getLast? = some (.beat t) →
        heartbeatIntervalSeconds ≤ secondsPassed w.now t → .beat w.now ∈ w.marks v

theorem secondsPassed_le_epoch (cur last : TimePoint) :
    secondsPassed cur last ≤ secondsPassed cur 0 := by
  refine Int.tdiv_le_tdiv (by decide) ?_
  have hlast : (0 : Int) ≤ last.val := Int.natCast_nonneg _
  show (cur.val : Int) - last.val ≤ (cur.val : Int) - 0
  omega

/-- **No heartbeat is late.** -/
theorem prompt (es : List Event) : Prompt es := by
  intro before e after _ w v hrun hs c hbeating hconnected t _ hdue
  have hlive : c.isLive w.now = true := by
    rw [Ctx.isLive, hconnected, Bool.true_and]
    exact decide_eq_true (Int.le_trans hdue (secondsPassed_le_epoch w.now t))
  rw [(marks_step hs (lastHeartbeat_run (w := new) rfl hrun)).2, ticks, hbeating]
  simp only [hlive, if_true]
  exact List.mem_append_right _ List.mem_cons_self

/-- **The heartbeats of a run keep their pace exactly if its live ticks do.** -/
theorem heartbeat_pace_iff (es : List Event) :
    Paced (new.marksAlong es) ∧ Prompt es ↔ Paced (new.ticksAlong es) := by
  rw [marksAlong_eq (w := new) rfl es]
  exact and_iff_left (prompt es)

/-- The client is connected, and ticks five and six seconds after the epoch. -/
def twoTicks : List Event :=
  [.start "host" 1, .run [], .connected, .run [], .run [], .advance (seconds 5), .expired 0,
    .run [], .advance (seconds 6), .expired 0, .run []]

/-- **It sends two heartbeats, one second apart.** -/
theorem beats_twice :
    new.marksAlong twoTicks = [.beat (seconds 5), .beat (seconds 6)] ∧
      ¬ (Paced (new.marksAlong twoTicks) ∧ Prompt twoTicks) := by
  have hmarks : new.marksAlong twoTicks = [.beat (seconds 5), .beat (seconds 6)] := by
    decide +kernel
  refine ⟨hmarks, fun h => ?_⟩
  have hapart : Mark.Apart (.beat (seconds 5)) (.beat (seconds 6)) := by
    have hpaced := h.1
    rw [Paced, hmarks] at hpaced
    exact (List.isChain_cons_cons.mp hpaced).1
  exact absurd hapart (by decide)

end World

end Ibase
