import Ibase.Lib.FairQueue
import Ibase.Checking

/-!
# A client that lost its connection tries again

A `Schedule` is a run without end.  It is fair if the io thread goes on as long as handlers
are queued, no connect is outstanding for ever, and every wait comes to its end.  A client
that stays started and finds no connection then begins another attempt: what it waits for
comes (`Link.Awake`, `Ctx.Checked`), its handler has its turn (`FairQueue`), and the handler
of the check timer connects.
-/

namespace Ibase

open FairQueue

/-! ### What a step leaves of a client that stays started -/

theorem Handler.eq_of_startsTimer {g : Handler} {id : UInt32} (h : g.startsTimer id = true) :
    ∃ delay interval, g = .task (.startTimerImpl id delay interval) := by
  cases g with
  | task task =>
    cases task with
    | startTimerImpl timerId delay interval =>
      rw [startsTimer, beq_iff_eq] at h
      exact ⟨delay, interval, h ▸ rfl⟩
    | _ => cases h
  | _ => cases h

namespace Ctx

theorem find_startTimerImpl (c : Ctx Io) (id delay interval : UInt32) :
    (c.startTimerImpl id delay interval).timer.find id ≠ none := by
  rw [startTimerImpl, Itimer.startTimerImpl_eq]
  show (c.timer.insert id ⟨(), delay, interval⟩).find id ≠ none
  simp [Itimer.find_insert]

/-- A handler keeps the check timer registered. -/
theorem find_runHandler {c : Ctx Io} {g : Handler} {rest : List Handler} (h : c.Checked none)
    (hr : c.env.ready = g :: rest) (hs : c.started = true)
    (hfind : c.timer.find c.checkTimerId ≠ none) :
    (({ c with env := { c.env with ready := rest } } : Ctx Io).runHandler g).timer.find
      c.checkTimerId ≠ none := by
  have hne : ∀ id, g = .task (.stopTimerImpl id) → c.checkTimerId ≠ id := by
    rintro id rfl heq
    apply (h.runs hs).kept
    rw [hr, heq]
    exact List.mem_cons_self
  have hrepeats := h.repeats
  generalize hd : ({ c with env := { c.env with ready := rest } } : Ctx Io) = d
  have htimer : d.timer = c.timer := by
    rw [← hd]
  rw [← htimer] at hfind hrepeats
  by_cases hplain : g.isPlain = true ∧ ∀ id, g ≠ .wait id false
  · have htimers := Acts.timers_eq (acts_runHandler d hplain.1 hplain.2)
    rw [Itimer.find, htimers]
    exact hfind
  · cases g with
    | task task =>
      cases task with
      | stopImpl =>
        rw [runHandler, runTask, (stopImpl_fields d).1]
        exact hfind
      | startTimerImpl id delay interval =>
        rw [runHandler, runTask, startTimerImpl, Itimer.startTimerImpl_eq]
        show (d.timer.insert id ⟨(), delay, interval⟩).find c.checkTimerId ≠ none
        rw [Itimer.find_insert]
        split
        · simp
        · exact hfind
      | stopTimerImpl id =>
        have hother := hne id rfl
        rw [runHandler, runTask, Ctx.stopTimerImpl]
        cases hfound : d.timer.find id with
        | none =>
          rw [Itimer.stopTimerImpl, hfound]
          exact hfind
        | some info =>
          rw [Itimer.stopTimerImpl_of_find hfound]
          show (d.timer.erase id).find c.checkTimerId ≠ none
          rw [Itimer.find_erase, if_neg hother]
          exact hfind
      | _ => exact absurd ⟨rfl, by simp⟩ hplain
    | wait id ec =>
      cases ec with
      | true => exact absurd ⟨rfl, by simp⟩ hplain
      | false =>
        rw [runHandler, onTimer, if_neg (by decide)]
        cases hfound : d.timer.find id with
        | none => exact hfind
        | some info =>
          have htimers := Acts.timers_eq (acts_onPriodicallyTimer d)
          have hfound' : d.onPriodicallyTimer.timer.find id = some info := by
            rw [Itimer.find, htimers]
            exact hfound
          simp only
          rw [rescheduleTimer, Itimer.rescheduleTimer_of_find hfound',
            if_neg (hrepeats id info hfound)]
          show d.onPriodicallyTimer.timer.find c.checkTimerId ≠ none
          rw [Itimer.find, htimers]
          exact hfind
    | _ => exact absurd ⟨rfl, by simp⟩ hplain

theorem connectState_doReadPacket (c : Ctx Io) :
    c.doReadPacket.connectState = c.connectState := by
  rcases c.doReadPacket_cases with heq | heq
  · rw [heq]
  · rw [heq]
    rfl

/-- The client that waited for a connect waits for it no longer. -/
theorem not_connecting_onConnectCompleted (c : Ctx Io) (ec : Bool) :
    (c.onConnectCompleted ec).connectState ≠ .connecting := by
  rw [onConnectCompleted]
  split
  · simp
  · rw [onConnected, connectState_doReadPacket]
    simp

end Ctx

namespace World

variable {w v : World}

/-- A step that begins no attempt, of a client that is started after it. -/
structure Still (w v : World) : Prop where
  checkTimerId : v.client.checkTimerId = w.client.checkTimerId
  last : v.client.lastConnectTimepoint = w.client.lastConnectTimepoint
  connecting : v.client.connectState = .connecting → w.client.connectState = .connecting
  registered : w.client.timer.find w.client.checkTimerId ≠ none →
    v.client.timer.find w.client.checkTimerId ≠ none

theorem attempt_step (h : w.Checked) {e : Event} (hs : w.step e = some v) :
    w.io.attempt ≤ v.io.attempt := by
  rcases step_turns hs with ⟨script, g, rest, -, hr, rfl⟩ | ⟨_, _, rfl⟩ | ⟨-, rfl⟩ | ha
  · exact (h.onward hr script).attempt
  · exact Nat.le_refl _
  · exact Nat.le_refl _
  · exact Nat.le_of_eq ha.attempt.symm

theorem Checked.still (h : w.Checked) {e : Event} (hs : w.step e = some v)
    (hstarted : v.client.started = true) (hattempt : v.io.attempt = w.io.attempt) : w.Still v := by
  rcases step_turns hs with ⟨script, g, rest, -, hr, rfl⟩ | ⟨_, _, rfl⟩ | ⟨-, rfl⟩ | ha
  · have honward := h.onward hr script
    have hsame : ¬ w.io.attempt < ((({ w with io := { w.io with ready := rest } } : World).enter
        script).runHandler g).env.attempt := Nat.not_lt.mpr (Nat.le_of_eq hattempt)
    obtain ⟨hbefore, hcheck⟩ := (honward.started hstarted).resolve_right (fun hlt => hsame hlt.2)
    refine ⟨hcheck, ?_, fun hk => (honward.connecting hk).resolve_right hsame, fun hfind => ?_⟩
    · refine honward.last.resolve_right ?_
      rintro (hstopped | hlt)
      · exact absurd (hstopped.symm.trans hstarted) (by decide)
      · exact hsame hlt
    · exact Ctx.find_runHandler (h.enter script) hr hbefore hfind
  · cases hstarted
  · exact ⟨rfl, rfl, id, id⟩
  · refine ⟨ha.checkTimerId, ha.last, fun hk => ha.connectState ▸ hk, fun hfind => ?_⟩
    rw [ha.timer]
    exact hfind

/-- An event takes no handler from the queue, but for the one that runs. -/
theorem ready_step {e : Event} (hs : w.step e = some v) (he : ∀ script, e ≠ .run script) :
    w.io.ready <+: v.io.ready := by
  rcases step_turns hs with ⟨script, -, -, rfl, -⟩ | ⟨_, _, rfl⟩ | ⟨-, rfl⟩ | ha
  · exact absurd rfl (he script)
  · exact List.prefix_refl _
  · exact List.prefix_append ..
  · obtain ⟨gs, hready, -⟩ := ha.ready
    rw [hready]
    exact List.prefix_append ..

end World

/-! ### Runs without end -/

/-- A run without end. -/
structure Schedule where
  world : Nat → World
  event : Nat → Event
  start : world 0 = .new
  step : ∀ t, (world t).step (event t) = some (world (t + 1))

namespace Schedule

/-- The io thread goes on as long as a handler is queued, and neither a connect nor a wait is
outstanding for ever. -/
structure Fair (s : Schedule) : Prop where
  runs : ∀ t, (s.world t).io.ready ≠ [] → ∃ u, t ≤ u ∧ ∃ script, s.event u = .run script
  connects : ∀ t, ∃ u, t ≤ u ∧
    ((s.world u).io.connectOp = none ∨ (s.world t).io.attempt < (s.world u).io.attempt)
  expires : ∀ t, ∀ id ∈ (s.world t).io.waits, ∃ u, t ≤ u ∧ id ∉ (s.world u).io.waits

variable {s : Schedule} {t : Nat}

theorem awake (s : Schedule) (t : Nat) : (s.world t).link.Awake := by
  induction t with
  | zero =>
    rw [s.start]
    exact World.awake_new
  | succ t ih => exact World.awake_step ih (s.step t)

theorem checked (hturn : ∀ t, (s.world t).InTurn (s.event t))
    (hids : ∀ t, (s.world t).client.timer.curTimerId < 2 ^ 32) (t : Nat) : (s.world t).Checked := by
  induction t with
  | zero =>
    rw [s.start]
    exact World.checked_new
  | succ t ih => exact ih.step (s.step t) (hturn t) (hids (t + 1))

/-- From `t` on the client is started and not connected, and begins no other attempt. -/
structure Rests (s : Schedule) (t : Nat) : Prop where
  started : ∀ u, t ≤ u → (s.world u).client.started = true
  not_connected : ∀ u, t ≤ u → (s.world u).client.connectState ≠ .connected
  attempt : ∀ u, t ≤ u → (s.world u).io.attempt = (s.world t).io.attempt

section Checked

variable (hc : ∀ t, (s.world t).Checked)

include hc

theorem attempt_mono {u : Nat} (htu : t ≤ u) :
    (s.world t).io.attempt ≤ (s.world u).io.attempt := by
  induction u, htu using Nat.le_induction with
  | base => exact Nat.le_refl _
  | succ u hu ih => exact ih.trans (World.attempt_step (hc u) (s.step u))

/-- Every handler has its turn. -/
theorem turn (hfair : s.Fair) {g : Handler} (hg : g ∈ (s.world t).io.ready) :
    ∃ u, t ≤ u ∧ ∃ script rest, s.event u = .run script ∧ (s.world u).io.ready = g :: rest ∧
      s.world (u + 1) = (s.world u).leave
        ((({ s.world u with io := { (s.world u).io with ready := rest } } : World).enter
          script).runHandler g) := by
  have hserved : Served (fun t => (s.world t).io.ready)
      (fun t => ∃ script, s.event t = .run script) := by
    refine ⟨fun t hidle => ?_, ?_, hfair.runs⟩
    · exact World.ready_step (s.step t) (fun script heq => hidle ⟨script, heq⟩)
    · rintro t ⟨script, heq⟩
      have hs := s.step t
      rw [heq] at hs
      show (s.world t).io.ready.tail <+: (s.world (t + 1)).io.ready
      cases hr : (s.world t).io.ready with
      | nil => exact List.nil_prefix
      | cons g rest =>
        rw [World.run_eq_some hs hr]
        exact ((hc t).onward hr script).ready
  obtain ⟨u, hu, ⟨script, heq⟩, rest, hr⟩ := hserved.turn hg
  have hs := s.step u
  rw [heq] at hs
  exact ⟨u, hu, script, rest, heq, hr, World.run_eq_some hs hr⟩

theorem Rests.still (h : s.Rests t) {u : Nat} (hu : t ≤ u) :
    (s.world u).Still (s.world (u + 1)) := by
  have hu' : t ≤ u + 1 := Nat.le_succ_of_le hu
  exact (hc u).still (s.step u) (h.started _ hu') ((h.attempt _ hu').trans (h.attempt u hu).symm)

theorem Rests.same (h : s.Rests t) {u : Nat} (hu : t ≤ u) :
    (s.world u).client.checkTimerId = (s.world t).client.checkTimerId ∧
    (s.world u).client.lastConnectTimepoint = (s.world t).client.lastConnectTimepoint := by
  induction u, hu using Nat.le_induction with
  | base => exact ⟨rfl, rfl⟩
  | succ u hu ih =>
    have hstill := h.still hc hu
    exact ⟨hstill.checkTimerId.trans ih.1, hstill.last.trans ih.2⟩

/-- The attempt that it began fails. -/
theorem Rests.disconnected (h : s.Rests t) (hfair : s.Fair) :
    ∃ u, t ≤ u ∧ ∀ v, u ≤ v → (s.world v).client.connectState = .disconnected := by
  have hstays : ∀ u, t ≤ u → (s.world u).client.connectState ≠ .connecting →
      ∀ v, u ≤ v → (s.world v).client.connectState = .disconnected := by
    intro u hu hne v hv
    have hnever : (s.world v).client.connectState ≠ .connecting := by
      induction v, hv using Nat.le_induction with
      | base => exact hne
      | succ v hv ih => exact fun hk => ih ((h.still hc (hu.trans hv)).connecting hk)
    cases hk : (s.world v).client.connectState with
    | disconnected => rfl
    | connecting => exact absurd hk hnever
    | connected => exact absurd hk (h.not_connected v (hu.trans hv))
  obtain ⟨u, hu, hover⟩ := hfair.connects t
  have hop : (s.world u).io.connectOp = none :=
    hover.resolve_right (Nat.not_lt.mpr (Nat.le_of_eq (h.attempt u hu)))
  by_cases hk : (s.world u).client.connectState = .connecting
  · obtain ⟨tag, ec, hin⟩ := ((s.awake u).connecting hk).resolve_left (not_not_intro hop)
    obtain ⟨v, hv, script, rest, -, -, hnext⟩ := turn hc hfair hin
    have hle : t ≤ v + 1 := by omega
    refine ⟨v + 1, hle, hstays (v + 1) hle ?_⟩
    rw [hnext]
    exact Ctx.not_connecting_onConnectCompleted _ ec
  · exact ⟨u, hu, hstays u hu hk⟩

/-- Once its check timer is registered, it stays so. -/
theorem Rests.stays_registered (h : s.Rests t) {u v : Nat} (hu : t ≤ u)
    (hfind : (s.world u).client.timer.find (s.world t).client.checkTimerId ≠ none) (hv : u ≤ v) :
    (s.world v).client.timer.find (s.world t).client.checkTimerId ≠ none := by
  induction v, hv using Nat.le_induction with
  | base => exact hfind
  | succ v hv ih =>
    rw [← (h.same hc (hu.trans hv)).1] at ih ⊢
    exact (h.still hc (hu.trans hv)).registered ih

theorem Rests.registered (h : s.Rests t) (hfair : s.Fair) : ∃ u, t ≤ u ∧
    (s.world u).client.timer.find (s.world t).client.checkTimerId ≠ none := by
  obtain ⟨-, ⟨-, hcount⟩ | ⟨hfind, -⟩⟩ := (hc t).client.runs (h.started t (Nat.le_refl t))
  · have hpos := Nat.lt_of_lt_of_eq Nat.one_pos hcount.symm
    obtain ⟨g, hg, hstarts⟩ := List.countP_pos_iff.mp hpos
    obtain ⟨u, hu, script, rest, -, -, hnext⟩ := turn hc hfair hg
    refine ⟨u + 1, Nat.le_succ_of_le hu, ?_⟩
    obtain ⟨delay, interval, rfl⟩ := Handler.eq_of_startsTimer hstarts
    rw [hnext]
    exact Ctx.find_startTimerImpl _ _ delay interval
  · exact ⟨t, Nat.le_refl t, hfind⟩

/-- The handler of its check timer runs again and again. -/
theorem Rests.ticks (h : s.Rests t) (hfair : s.Fair) {u : Nat} (hu : t ≤ u)
    (hfind : (s.world u).client.timer.find (s.world t).client.checkTimerId ≠ none) :
    ∃ v, u ≤ v ∧ ∃ script rest, s.event v = .run script ∧
      (s.world v).io.ready = .wait (s.world t).client.checkTimerId false :: rest := by
  let id := (s.world t).client.checkTimerId
  have hwaits : ∀ v, u ≤ v →
      id ∈ (s.world v).io.waits ∨ .wait id false ∈ (s.world v).io.ready := by
    intro v hv
    have hruns := (hc v).client.runs (h.started v (hu.trans hv))
    obtain ⟨-, ⟨hnone, -⟩ | ⟨-, -, hwait⟩⟩ := (h.same hc (hu.trans hv)).1 ▸ hruns
    · exact absurd hnone (h.stays_registered hc hu hfind hv)
    · exact hwait.imp_right (fun hwait => hwait.resolve_right (by simp))
  have hover : ∃ v, u ≤ v ∧ .wait id false ∈ (s.world v).io.ready := by
    rcases hwaits u (Nat.le_refl u) with hwait | hin
    · obtain ⟨v, hv, hover⟩ := hfair.expires u id hwait
      exact ⟨v, hv, (hwaits v hv).resolve_left hover⟩
    · exact ⟨u, Nat.le_refl u, hin⟩
  obtain ⟨v, hv, hin⟩ := hover
  obtain ⟨w, hw, script, rest, heq, hr, -⟩ := turn hc hfair hin
  exact ⟨w, hv.trans hw, script, rest, heq, hr⟩

/-- A client does not rest for ever, once the interval has passed. -/
theorem not_rests (hfair : s.Fair) {due : Nat}
    (hdue : ∀ u, due ≤ u → reconnectIntervalSeconds ≤
      secondsPassed (s.world u).now (s.world t).client.lastConnectTimepoint) : ¬ s.Rests t := by
  intro h
  obtain ⟨down, hdown, hdis⟩ := h.disconnected hc hfair
  obtain ⟨up, hup, hfind⟩ := h.registered hc hfair
  -- From `u` on the handler of the check timer connects.
  obtain ⟨u, hdueu, hdownu, hupu⟩ : ∃ u, due ≤ u ∧ down ≤ u ∧ up ≤ u :=
    ⟨max due (max down up), by omega, by omega, by omega⟩
  have hfindu := h.stays_registered hc hup hfind hupu
  obtain ⟨v, hv, script, rest, heq, hr⟩ := h.ticks hc hfair (hup.trans hupu) hfindu
  have hv' : t ≤ v := hup.trans (hupu.trans hv)
  have hs := s.step v
  rw [heq] at hs
  have hduev := hdue v (hdueu.trans hv)
  rw [← (h.same hc hv').2] at hduev
  have hless : (s.world v).io.attempt < (s.world (v + 1)).io.attempt := by
    rw [World.run_eq_some hs hr]
    refine World.attempt_onTimer (c := ({ s.world v with io :=
      { (s.world v).io with ready := rest } } : World).enter script) ?_ (h.started v hv')
      (hdis v (hdownu.trans hv)) hduev
    exact h.stays_registered hc hup hfind (hupu.trans hv)
  have hsame := (h.attempt (v + 1) (Nat.le_succ_of_le hv')).trans (h.attempt v hv').symm
  omega

end Checked

/-- **A client that lost its connection tries again.**  In every fair run without end in
which `start_impl` sets `started_` only when no `stop_impl` is owed, a client that is
started stops being so, is connected, or begins another attempt. -/
theorem tries_again (s : Schedule) (hfair : s.Fair)
    (hturn : ∀ t, (s.world t).InTurn (s.event t))
    (hids : ∀ t, (s.world t).client.timer.curTimerId < 2 ^ 32) (t : Nat)
    (hdue : ∃ due, ∀ u, due ≤ u → reconnectIntervalSeconds ≤
      secondsPassed (s.world u).now (s.world t).client.lastConnectTimepoint) :
    ∃ u, t ≤ u ∧ ((s.world u).client.started = false ∨
      (s.world u).client.connectState = .connected ∨
      (s.world t).io.attempt < (s.world u).io.attempt) := by
  have hc : ∀ t, (s.world t).Checked := s.checked hturn hids
  obtain ⟨due, hdue⟩ := hdue
  by_contra hnever
  push Not at hnever
  apply not_rests hc hfair hdue
  refine ⟨fun u hu => ?_, fun u hu => (hnever u hu).2.1, fun u hu => ?_⟩
  · exact Bool.eq_true_of_not_eq_false (hnever u hu).1
  · exact Nat.le_antisymm (hnever u hu).2.2 (attempt_mono hc hu)

/-! ### A run that comes to rest -/

section Idling

variable {es : List Event} {w : World} (h : Run.run World.step .new es = some w)

include h in
theorem run_take (t : Nat) : ∃ v, Run.run World.step .new (es.take t) = some v ∧
    Run.run World.step v (es.drop t) = some w := by
  rw [← List.take_append_drop t es, Run.run_append] at h
  exact Option.bind_eq_some_iff.mp h

include h in
/-- Nothing happens after `es`. -/
theorem step_idling (t : Nat) : ∃ v, Run.run World.step .new (es.take t) = some v ∧
    v.step (es.getD t (.advance 0)) = Run.run World.step .new (es.take (t + 1)) := by
  obtain ⟨v, hv, hrest⟩ := run_take h t
  refine ⟨v, hv, ?_⟩
  by_cases ht : t < es.length
  · rw [List.drop_eq_getElem_cons ht] at hrest
    obtain ⟨u, hu, -⟩ := Run.run_cons hrest
    rw [List.take_succ_eq_append_getElem ht, Run.run_append, hv, List.getD_eq_getElem _ _ ht]
    show v.step es[t] = (v.step es[t]).bind some
    rw [hu]
    rfl
  · have hle : es.length ≤ t := Nat.le_of_not_lt ht
    rw [List.take_of_length_le hle] at hv
    rw [List.take_of_length_le (Nat.le_succ_of_le hle), hv, List.getD_eq_default _ _ hle]
    show some { v with now := v.now.later 0 } = some v
    have hnow : v.now.later 0 = v.now := by
      rw [TimePoint.later]
      split
      · rename_i hzero
        exact (Fin.le_zero_iff.mp hzero).symm
      · rfl
    rw [hnow]

/-- The run `es`, and no more. -/
def idling : Schedule where
  world t := (Run.run World.step .new (es.take t)).getD w
  event t := es.getD t (.advance 0)
  start := rfl
  step t := by
    obtain ⟨v, hv, hstep⟩ := step_idling h t
    obtain ⟨u, hu, -⟩ := run_take h (t + 1)
    rw [hv, hu]
    rw [hu] at hstep
    exact hstep

theorem world_idling {t : Nat} (ht : es.length ≤ t) : (idling h).world t = w := by
  show (Run.run World.step .new (es.take t)).getD w = w
  rw [List.take_of_length_le ht, h]
  rfl

theorem along_idling {P : World → Event → Prop} (hp : Run.Along World.step P .new es)
    (hw : P w (.advance 0)) (t : Nat) : P ((idling h).world t) ((idling h).event t) := by
  by_cases ht : t < es.length
  · obtain ⟨v, hv, -⟩ := run_take h t
    rw [← List.take_append_drop t es] at hp
    have hrest := Run.along_of_append hp hv
    rw [List.drop_eq_getElem_cons ht] at hrest
    show P ((Run.run World.step .new (es.take t)).getD w) (es.getD t (.advance 0))
    rw [hv, List.getD_eq_getElem _ _ ht]
    exact hrest.1
  · have hle : es.length ≤ t := Nat.le_of_not_lt ht
    rw [world_idling h hle]
    show P w (es.getD t (.advance 0))
    rw [List.getD_eq_default _ _ hle]
    exact hw

/-- It is fair, if its last event leaves nothing to be done. -/
theorem fair_idling {es' : List Event} {script : List CallbackRun} (hes : es = es' ++ [.run script])
    (hready : w.io.ready = []) (hop : w.io.connectOp = none) (hwaits : w.io.waits = []) :
    (idling h).Fair := by
  have hlen : es.length = es'.length + 1 := by
    rw [hes, List.length_append, List.length_singleton]
  have hlate : ∀ t, ∃ u, t ≤ u ∧ (idling h).world u = w := fun t =>
    ⟨max t es.length, le_max_left _ _, world_idling h (le_max_right _ _)⟩
  refine ⟨fun t hne => ⟨es'.length, ?_, script, ?_⟩, fun t => ?_, fun t id _ => ?_⟩
  · by_contra hlt
    have hle : es.length ≤ t := by omega
    rw [world_idling h hle] at hne
    exact hne hready
  · show es.getD es'.length (.advance 0) = .run script
    rw [hes, List.getD_append_right _ _ _ _ (Nat.le_refl _), Nat.sub_self]
    rfl
  · obtain ⟨u, hu, hworld⟩ := hlate t
    exact ⟨u, hu, .inl (hworld.symm ▸ hop)⟩
  · obtain ⟨u, hu, hworld⟩ := hlate t
    refine ⟨u, hu, ?_⟩
    rw [hworld, hwaits]
    exact List.not_mem_nil

end Idling

/-- The first connect is refused.  So is the second, six seconds later, and then the client
is stopped. -/
def refused : List Event :=
  [.start "host" 1, .run [], .run [], .connectFailed, .run [], .advance 6000000000, .expired 0,
    .run [], .connectFailed, .run [], .stopTest, .stopClear, .stopPost, .run [], .run [], .run []]

theorem tries_again_refused : ∃ s : Schedule, s.Fair ∧ (∃ t, (s.world t).client.started = true ∧
    (s.world t).client.connectState = .disconnected ∧ (s.world t).io.attempt = 1 ∧
    ∃ u, t ≤ u ∧ ((s.world u).client.started = false ∨
      (s.world u).client.connectState = .connected ∨ 1 < (s.world u).io.attempt)) := by
  have hend : (Run.run World.step .new refused).map (fun w =>
      (w.io.ready, w.io.connectOp, w.io.waits, w.now, w.client.timer.curTimerId)) =
      some ([], none, [], 6000000000, 1) := by
    decide +kernel
  obtain ⟨w, hw, heq⟩ := Option.map_eq_some_iff.mp hend
  obtain ⟨hready, hop, hwaits, hnow, hids⟩ : _ ∧ _ ∧ _ ∧ _ ∧ _ := by
    simpa only [Prod.mk.injEq] using heq
  have halong : Run.Along World.step (fun w e => w.InTurn e ∧ w.client.timer.curTimerId < 2 ^ 32)
      .new refused := by
    decide +kernel
  have hlast : w.InTurn (.advance 0) ∧ w.client.timer.curTimerId < 2 ^ 32 := by
    refine ⟨fun _ v hv => ?_, by omega⟩
    rw [← Option.some.inj hv]
  have hfive : (Run.run World.step .new (refused.take 5)).map (fun w => (w.client.started,
      w.client.connectState, w.io.attempt, w.client.lastConnectTimepoint)) =
      some (true, .disconnected, 1, 0) := by
    decide +kernel
  obtain ⟨v, hv, heq⟩ := Option.map_eq_some_iff.mp hfive
  obtain ⟨hs, hd, ha, hl⟩ : _ ∧ _ ∧ _ ∧ _ := by simpa only [Prod.mk.injEq] using heq
  have hworld : (idling hw).world 5 = v := by
    show (Run.run World.step .new (refused.take 5)).getD w = v
    rw [hv]
    rfl
  have hes : refused = refused.take 15 ++ [.run []] := rfl
  have hfair : (idling hw).Fair := fair_idling hw hes hready hop hwaits
  refine ⟨idling hw, hfair, 5, hworld ▸ hs, hworld ▸ hd, hworld ▸ ha, ?_⟩
  have hagain := tries_again (idling hw) hfair (fun t => (along_idling hw halong hlast t).1)
    (fun t => (along_idling hw halong hlast t).2) 5 ⟨refused.length, fun u hu => ?_⟩
  · rw [hworld, ha] at hagain
    exact hagain
  · rw [world_idling hw hu, hworld, hnow, hl]
    decide

end Schedule

end Ibase
