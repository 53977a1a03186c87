import Ibase.Acting

/-!
# The check timer of a started client

Between a `start_timer` and its `stop_timer`, the map of the timers, the queue and the
outstanding waits say together whether a timer runs (`Ctx.Runs`).  The check timer of a
started client does (`Ctx.Checked`), as long as no `start_impl` takes effect between the
moment when a `stop` clears `started_` and its `stop_impl` (`World.InTurn`).
-/

namespace Ibase

open Relation

/-! ### The check timer runs -/

/-- Does this handler start that timer? -/
def Handler.startsTimer (id : UInt32) : Handler → Bool
  | .task (.startTimerImpl timerId _ _) => timerId == id
  | _ => false

theorem Handler.startsTimer_of_not {g : Handler} (h : g.isTimerTask = false) (id : UInt32) :
    g.startsTimer id = false := by
  cases g with
  | task task => cases task <;> first | rfl | cases h
  | _ => rfl

theorem countP_startsTimer {gs : List Handler} (hgs : ∀ g ∈ gs, g.isTimerTask = false)
    (id : UInt32) : gs.countP (Handler.startsTimer id) = 0 := by
  rw [List.countP_eq_zero]
  intro g hg
  rw [Handler.startsTimer_of_not (hgs g hg)]
  decide

namespace Ctx

/-- The timer is posted, once; or it is registered, and its wait is outstanding or over,
with the handler queued or `running`.  No `stop_timer_impl` of it is posted. -/
structure Runs (running : Option UInt32) (c : Ctx Io) (id : UInt32) : Prop where
  kept : .task (.stopTimerImpl id) ∉ c.env.ready
  phase : (c.timer.find id = none ∧ c.env.ready.countP (Handler.startsTimer id) = 1) ∨
    (c.timer.find id ≠ none ∧ c.env.ready.countP (Handler.startsTimer id) = 0 ∧
      (id ∈ c.env.waits ∨ .wait id false ∈ c.env.ready ∨ running = some id))

/-- The ids that something may still come of. -/
inductive Mentions (c : Ctx Io) : UInt32 → Prop
  | check : Mentions c c.checkTimerId
  | timer {id : UInt32} (h : c.timer.find id ≠ none) : Mentions c id
  | start {id delay interval : UInt32} (h : .task (.startTimerImpl id delay interval) ∈ c.env.ready) :
      Mentions c id
  | stop {id : UInt32} (h : .task (.stopTimerImpl id) ∈ c.env.ready) : Mentions c id

/-- The check timer of a started client runs, every id was drawn, and every timer repeats. -/
structure Checked (running : Option UInt32) (c : Ctx Io) : Prop where
  drawn : ∀ id, c.Mentions id → ∃ n ≤ c.timer.curTimerId, id = UInt32.ofNat n
  repeats : ∀ id info, c.timer.find id = some info → info.intervalSeconds ≠ 0
  posted : ∀ id delay interval,
    .task (.startTimerImpl id delay interval) ∈ c.env.ready → interval ≠ 0
  runs : c.started = true → c.Runs running c.checkTimerId

variable {c d : Ctx Io} {running : Option UInt32}

theorem Mentions.mono {id : UInt32} (h : d.Mentions id) (hc : d.checkTimerId = c.checkTimerId)
    (ht : d.timer.find id ≠ none → c.timer.find id ≠ none)
    (hin : ∀ g : Handler, g.isTimerTask = true → g ∈ d.env.ready → g ∈ c.env.ready) :
    c.Mentions id := by
  cases h with
  | check =>
    rw [hc]
    exact .check
  | timer hfind => exact .timer (ht hfind)
  | start hin' => exact .start (hin _ rfl hin')
  | stop hin' => exact .stop (hin _ rfl hin')

theorem Checked.not_mentions (h : c.Checked running) (hlt : c.timer.curTimerId + 1 < 2 ^ 32) :
    ¬ c.Mentions c.timer.nextTimerId := by
  intro hmention
  obtain ⟨n, hn, heq⟩ := h.drawn _ hmention
  have hnat := congrArg UInt32.toNat heq
  rw [Itimer.nextTimerId, UInt32.toNat_ofNat_of_lt' hlt,
    UInt32.toNat_ofNat_of_lt' (Nat.lt_of_le_of_lt hn (Nat.lt_of_succ_lt hlt))] at hnat
  omega

/-- What is not about the check timer. -/
theorem Checked.passes (h : c.Checked running) (gs : List Handler) (ht : d.timer = c.timer)
    (hc : d.checkTimerId = c.checkTimerId) (hs : d.started = true → c.started = true)
    (hw : ∀ id ∈ c.env.waits, id ∈ d.env.waits ∨ .wait id false ∈ d.env.ready)
    (hready : d.env.ready = c.env.ready ++ gs) (hgs : ∀ g ∈ gs, g.isTimerTask = false) :
    d.Checked running := by
  have hin : ∀ {g : Handler}, g.isTimerTask = true → g ∈ d.env.ready → g ∈ c.env.ready := by
    intro g hg hin
    rw [hready] at hin
    rcases List.mem_append.mp hin with hin | hin
    · exact hin
    · rw [hgs g hin] at hg
      cases hg
  refine ⟨?_, ?_, ?_, ?_⟩
  · intro id hmention
    have hold : c.Mentions id := hmention.mono hc (fun hfind => ht ▸ hfind) (fun g => hin)
    rw [ht]
    exact h.drawn id hold
  · rw [ht]
    exact h.repeats
  · intro id delay interval hin'
    exact h.posted id delay interval (hin rfl hin')
  · intro hstarted
    obtain ⟨hkept, hphase⟩ := h.runs (hs hstarted)
    have hcount : ∀ id, d.env.ready.countP (Handler.startsTimer id) =
        c.env.ready.countP (Handler.startsTimer id) := by
      intro id
      rw [hready, List.countP_append, countP_startsTimer hgs, Nat.add_zero]
    rw [hc]
    refine ⟨fun hin' => hkept (hin rfl hin'), ?_⟩
    rw [ht, hcount]
    refine hphase.imp_right ?_
    rintro ⟨hfind, hnone, hwait⟩
    refine ⟨hfind, hnone, ?_⟩
    rcases hwait with hwait | hwait | hrunning
    · exact (hw _ hwait).imp_right Or.inl
    · rw [hready]
      exact .inr (.inl (List.mem_append_left _ hwait))
    · exact .inr (.inr hrunning)

/-- What has nothing to do with starting or stopping. -/
theorem Checked.aside (h : c.Checked running) (ht : d.timer = c.timer)
    (hc : d.checkTimerId = c.checkTimerId) (hs : d.started = c.started)
    (he : c.env.Passes d.env) : d.Checked running := by
  obtain ⟨gs, hready, hgs⟩ := he.ready
  refine h.passes gs ht hc (fun hd => hs ▸ hd) ?_ hready (fun g hg => Handler.not_isTimerTask (hgs g hg))
  rw [he.waits]
  exact fun id hid => .inl hid

theorem Checked.start (h : c.Checked running) (hs : c.started = false)
    (hlt : c.timer.curTimerId + 1 < 2 ^ 32) (host : String) (port : UInt16) :
    (c.startImpl host port).Checked running := by
  obtain ⟨htimer, hcheck, hwaits, hready, -, -⟩ := startImpl_started hs host port
  have hfresh := h.not_mentions hlt
  generalize c.startImpl host port = d at htimer hcheck hwaits hready ⊢
  have hfind : ∀ id, d.timer.find id = c.timer.find id := by
    intro id
    rw [htimer]
    rfl
  have hin : ∀ {g : Handler}, g.isTimerTask = true → g ∈ d.env.ready →
      g ∈ c.env.ready ∨ g = .task (.startTimerImpl c.timer.nextTimerId 1 1) := by
    intro g hg hin
    rw [hready] at hin
    rcases List.mem_append.mp hin with hin | hin
    · rcases List.mem_append.mp hin with hin | hin
      · exact .inl hin
      · simp only [Io.aborted, List.mem_append, List.mem_map] at hin
        rcases hin with ⟨_, -, rfl⟩ | ⟨_, -, rfl⟩ | ⟨_, -, rfl⟩ <;> cases hg
    · exact .inr (List.mem_singleton.mp hin)
  have hold : ∀ id, c.Mentions id → ∃ n ≤ d.timer.curTimerId, id = UInt32.ofNat n := by
    intro id hmention
    obtain ⟨n, hn, heq⟩ := h.drawn id hmention
    rw [htimer]
    exact ⟨n, Nat.le_succ_of_le hn, heq⟩
  have hnew : ∃ n ≤ d.timer.curTimerId, c.timer.nextTimerId = UInt32.ofNat n := by
    rw [htimer]
    exact ⟨c.timer.curTimerId + 1, Nat.le_refl _, rfl⟩
  refine ⟨?_, ?_, ?_, ?_⟩
  · intro id hmention
    cases hmention with
    | check =>
      rw [hcheck]
      exact hnew
    | timer hfound =>
      rw [hfind] at hfound
      exact hold id (.timer hfound)
    | start hin' =>
      rcases hin rfl hin' with hin' | heq
      · exact hold id (.start hin')
      · cases heq
        exact hnew
    | stop hin' =>
      rcases hin rfl hin' with hin' | heq
      · exact hold id (.stop hin')
      · cases heq
  · intro id info hfound
    rw [hfind] at hfound
    exact h.repeats id info hfound
  · intro id delay interval hin'
    rcases hin rfl hin' with hin' | heq
    · exact h.posted id delay interval hin'
    · cases heq
      decide
  · intro _
    rw [hcheck]
    refine ⟨?_, .inl ⟨?_, ?_⟩⟩
    · intro hin'
      rcases hin rfl hin' with hin' | heq
      · exact hfresh (.stop hin')
      · cases heq
    · rw [hfind]
      by_contra hfound
      exact hfresh (.timer hfound)
    · have hnone : c.env.ready.countP (Handler.startsTimer c.timer.nextTimerId) = 0 := by
        rw [List.countP_eq_zero]
        intro g hg hstarts
        cases g with
        | task task =>
          cases task with
          | startTimerImpl id delay interval =>
            rw [Handler.startsTimer, beq_iff_eq] at hstarts
            exact hfresh (hstarts ▸ .start hg)
          | _ => cases hstarts
        | _ => cases hstarts
      have haborted : c.env.aborted.countP (Handler.startsTimer c.timer.nextTimerId) = 0 := by
        simp [Io.aborted, Handler.startsTimer, List.countP_eq_zero]
      rw [hready, List.countP_append, List.countP_append, hnone, haborted]
      simp [Handler.startsTimer]

theorem Checked.stop (h : c.Checked running) : Checked running
    { c.stopTimer c.checkTimerId with started := false, checkTimerId := 0 } := by
  have hin : ∀ {g : Handler},
      g ∈ c.env.ready ++ [.task (.stopTimerImpl c.checkTimerId)] →
      g ∈ c.env.ready ∨ g = .task (.stopTimerImpl c.checkTimerId) := by
    intro g hin
    exact (List.mem_append.mp hin).imp_right List.mem_singleton.mp
  refine ⟨?_, h.repeats, ?_, ?_⟩
  · intro id hmention
    cases hmention with
    | check => exact ⟨0, Nat.zero_le _, rfl⟩
    | timer hfound => exact h.drawn id (.timer hfound)
    | start hin' =>
      rcases hin hin' with hin' | heq
      · exact h.drawn id (.start hin')
      · cases heq
    | stop hin' =>
      rcases hin hin' with hin' | heq
      · exact h.drawn id (.stop hin')
      · cases heq
        exact h.drawn _ .check
  · intro id delay interval hin'
    rcases hin hin' with hin' | heq
    · exact h.posted id delay interval hin'
    · cases heq
  · intro hstarted
    cases hstarted

/-- **The client keeps its check timer running**, whatever the callbacks do. -/
theorem Checked.act (h : c.Checked running) (ha : c.Act d) (hlt : d.timer.curTimerId < 2 ^ 32) :
    d.Checked running := by
  cases ha with
  | same d ht hc hs he hl hk => exact h.aside ht hc hs (he ▸ .refl _)
  | emit effect he => exact h.aside rfl rfl rfl (Io.passes_perform c.env he)
  | connect hs =>
    obtain ⟨ht, hc, hs, he, -⟩ := doConnect_started hs
    exact h.aside ht hc hs he
  | start host port hs =>
    rw [(startImpl_started hs host port).1] at hlt
    exact h.start hs hlt host port
  | stop => exact h.stop

theorem Checked.acts (h : c.Checked running) (ha : c.Acts d) (hlt : d.timer.curTimerId < 2 ^ 32) :
    d.Checked running := by
  induction ha with
  | refl => exact h
  | tail _ hact ih => exact (ih (Nat.lt_of_le_of_lt hact.onward.curTimerId hlt)).act hact hlt

/-! ### The handlers of the timers -/

/-- The next handler is taken from the queue, and starts no timer. -/
theorem Checked.pop {g : Handler} {rest : List Handler} (h : c.Checked none)
    (hr : c.env.ready = g :: rest) (hg : ∀ id, g.startsTimer id = false)
    (hrun : ∀ id, g = .wait id false → running = some id) :
    Checked running { c with env := { c.env with ready := rest } } := by
  have hin : ∀ {g' : Handler}, g' ∈ rest → g' ∈ c.env.ready := by
    intro g' hin
    rw [hr]
    exact List.mem_cons_of_mem g hin
  refine ⟨?_, h.repeats, fun id delay interval hin' => h.posted id delay interval (hin hin'), ?_⟩
  · intro id hmention
    have hold : c.Mentions id := hmention.mono rfl (fun hfound => hfound) (fun g _ => hin)
    exact h.drawn id hold
  · intro hs
    obtain ⟨hkept, hphase⟩ := h.runs hs
    rw [hr, List.countP_cons_of_neg (by simp [hg])] at hphase
    refine ⟨fun hin' => hkept (hin hin'), hphase.imp_right ?_⟩
    rintro ⟨hfind, hnone, hwait⟩
    refine ⟨hfind, hnone, hwait.imp_right ?_⟩
    rintro (hwait | hwait)
    · rcases List.mem_cons.mp hwait with heq | hwait
      · exact .inr (hrun _ heq.symm)
      · exact .inl hwait
    · cases hwait

theorem Checked.startTimer {id delay interval : UInt32} {rest : List Handler} (h : c.Checked none)
    (hr : c.env.ready = .task (.startTimerImpl id delay interval) :: rest) :
    Checked none (({ c with env := { c.env with ready := rest } } : Ctx Io).startTimerImpl id delay
      interval) := by
  have hin : ∀ {g' : Handler}, g' ∈ rest → g' ∈ c.env.ready := by
    intro g' hin
    rw [hr]
    exact List.mem_cons_of_mem _ hin
  have hhead : .task (.startTimerImpl id delay interval) ∈ c.env.ready := by
    rw [hr]
    exact List.mem_cons_self
  rw [startTimerImpl, Itimer.startTimerImpl_eq]
  simp only
  refine ⟨?_, ?_, fun id delay interval hin' => h.posted id delay interval (hin hin'), ?_⟩
  · intro id' hmention
    apply h.drawn
    cases hmention with
    | check => exact .check
    | timer hfound =>
      by_cases heq : id' = id
      · exact heq ▸ .start hhead
      · have hfound' : (c.timer.insert id ⟨(), delay, interval⟩).find id' ≠ none := hfound
        rw [Itimer.find_insert, if_neg heq] at hfound'
        exact .timer hfound'
    | start hin' => exact .start (hin hin')
    | stop hin' => exact .stop (hin hin')
  · intro id' info hfound
    have hfound' : (c.timer.insert id ⟨(), delay, interval⟩).find id' = some info := hfound
    rw [Itimer.find_insert] at hfound'
    split at hfound'
    · rw [← Option.some.inj hfound']
      exact h.posted id delay interval hhead
    · exact h.repeats id' info hfound'
  · intro hs
    obtain ⟨hkept, hphase⟩ := h.runs hs
    refine ⟨fun hin' => hkept (hin hin'), ?_⟩
    show ((c.timer.insert id ⟨(), delay, interval⟩).find c.checkTimerId = none ∧
        rest.countP (Handler.startsTimer c.checkTimerId) = 1) ∨
      ((c.timer.insert id ⟨(), delay, interval⟩).find c.checkTimerId ≠ none ∧
        rest.countP (Handler.startsTimer c.checkTimerId) = 0 ∧
        (c.checkTimerId ∈ c.env.waits ++ [id] ∨ .wait c.checkTimerId false ∈ rest ∨
          none = some c.checkTimerId))
    rw [hr, List.countP_cons] at hphase
    rw [Itimer.find_insert]
    by_cases heq : c.checkTimerId = id
    · simp only [Handler.startsTimer, heq, beq_self_eq_true, if_true] at hphase ⊢
      refine .inr ⟨by simp, ?_, .inl (List.mem_append_right _ List.mem_cons_self)⟩
      omega
    · have hne : (id == c.checkTimerId) = false := by simp [Ne.symm heq]
      simp only [Handler.startsTimer, hne, Bool.false_eq_true, if_false, Nat.add_zero] at hphase
      rw [if_neg heq]
      refine hphase.imp_right ?_
      rintro ⟨hfind, hnone, hwait⟩
      refine ⟨hfind, hnone, ?_⟩
      rcases hwait with hwait | hwait | hwait
      · exact .inl (List.mem_append_left _ hwait)
      · refine .inr (.inl ((List.mem_cons.mp hwait).resolve_left ?_))
        simp
      · cases hwait

theorem Checked.stopTimer (h : c.Checked none) {id : UInt32}
    (hne : c.started = true → c.checkTimerId ≠ id) : (c.stopTimerImpl id).Checked none := by
  rw [Ctx.stopTimerImpl]
  cases hfound : c.timer.find id with
  | none =>
    rw [Itimer.stopTimerImpl, hfound]
    exact h
  | some info =>
    rw [Itimer.stopTimerImpl_of_find hfound]
    simp only [if_true]
    let gs : List Handler := (c.env.waits.filter (fun id' => id' = id)).map (fun id => .wait id true)
    have hgs : ∀ g ∈ gs, ∃ id, g = .wait id true := by
      intro g hg
      obtain ⟨id', -, rfl⟩ := List.mem_map.mp hg
      exact ⟨id', rfl⟩
    have hnone : gs.countP (Handler.startsTimer c.checkTimerId) = 0 := by
      apply countP_startsTimer
      intro g hg
      obtain ⟨id', rfl⟩ := hgs g hg
      rfl
    have hin : ∀ {g : Handler}, (∀ id, g ≠ .wait id true) → g ∈ c.env.ready ++ gs →
        g ∈ c.env.ready := by
      intro g hg hin
      rcases List.mem_append.mp hin with hin | hin
      · exact hin
      · obtain ⟨id', heq⟩ := hgs g hin
        exact absurd heq (hg id')
    refine ⟨?_, ?_, ?_, ?_⟩
    · intro id' hmention
      apply h.drawn
      refine hmention.mono rfl (fun hfound' hnone => hfound' ?_) (fun g hg => hin ?_)
      · show (c.timer.erase id).find id' = none
        rw [Itimer.find_erase, hnone, ite_self]
      · rintro id'' rfl
        cases hg
    · intro id' info' hfound'
      have hfound'' : (c.timer.erase id).find id' = some info' := hfound'
      rw [Itimer.find_erase] at hfound''
      split at hfound''
      · cases hfound''
      · exact h.repeats id' info' hfound''
    · intro id' delay interval hin'
      exact h.posted id' delay interval (hin (by simp) hin')
    · intro hs
      obtain ⟨hkept, hphase⟩ := h.runs hs
      have hother := hne hs
      refine ⟨fun hin' => hkept (hin (by simp) hin'), ?_⟩
      show ((c.timer.erase id).find c.checkTimerId = none ∧
          (c.env.ready ++ gs).countP (Handler.startsTimer c.checkTimerId) = 1) ∨
        ((c.timer.erase id).find c.checkTimerId ≠ none ∧
          (c.env.ready ++ gs).countP (Handler.startsTimer c.checkTimerId) = 0 ∧
          (c.checkTimerId ∈ c.env.waits.filter (fun id' => id' ≠ id) ∨
            .wait c.checkTimerId false ∈ c.env.ready ++ gs ∨ none = some c.checkTimerId))
      rw [Itimer.find_erase, if_neg hother, List.countP_append, hnone, Nat.add_zero]
      refine hphase.imp_right ?_
      rintro ⟨hfind, hcount, hwait⟩
      refine ⟨hfind, hcount, ?_⟩
      rcases hwait with hwait | hwait | hwait
      · exact .inl (List.mem_filter.mpr ⟨hwait, by simp [hother]⟩)
      · exact .inr (.inl (List.mem_append_left _ hwait))
      · cases hwait

/-- The handler of a timer that is not registered any more. -/
theorem Checked.forget {id : UInt32} (h : c.Checked (some id)) (hfind : c.timer.find id = none) :
    c.Checked none := by
  refine ⟨h.drawn, h.repeats, h.posted, fun hs => ?_⟩
  obtain ⟨hkept, hphase⟩ := h.runs hs
  refine ⟨hkept, hphase.imp_right ?_⟩
  rintro ⟨hfound, hnone, hwait⟩
  refine ⟨hfound, hnone, hwait.imp_right (Or.imp_right ?_)⟩
  intro heq
  rw [← Option.some.inj heq] at hfound
  exact absurd hfind hfound

theorem Checked.reschedule {id : UInt32} (h : c.Checked (some id)) :
    (c.rescheduleTimer id).Checked none := by
  rw [rescheduleTimer]
  cases hfind : c.timer.find id with
  | none =>
    rw [Itimer.rescheduleTimer, hfind]
    exact h.forget hfind
  | some info =>
    rw [Itimer.rescheduleTimer_of_find hfind, if_neg (h.repeats id info hfind)]
    simp only
    refine ⟨?_, h.repeats, h.posted, ?_⟩
    · intro id' hmention
      have hold : c.Mentions id' := hmention.mono rfl (fun hfound => hfound) (fun g _ hin => hin)
      exact h.drawn id' hold
    · intro hs
      obtain ⟨hkept, hphase⟩ := h.runs hs
      refine ⟨hkept, hphase.imp_right ?_⟩
      rintro ⟨hfound, hnone, hwait⟩
      refine ⟨hfound, hnone, ?_⟩
      show c.checkTimerId ∈ c.env.waits ++ [id] ∨ .wait c.checkTimerId false ∈ c.env.ready ∨
        none = some c.checkTimerId
      rcases hwait with hwait | hwait | hwait
      · exact .inl (List.mem_append_left _ hwait)
      · exact .inr (.inl hwait)
      · rw [← Option.some.inj hwait]
        exact .inl (List.mem_append_right _ List.mem_cons_self)

/-! ### A whole handler -/

/-- **A handler leaves a started client with its check timer.** -/
theorem Checked.runHandler {g : Handler} {rest : List Handler} (h : c.Checked none)
    (hr : c.env.ready = g :: rest) (hstop : g = .task .stopImpl → c.started = false)
    (hlt : (({ c with env := { c.env with ready := rest } } : Ctx Io).runHandler
      g).timer.curTimerId < 2 ^ 32) :
    (({ c with env := { c.env with ready := rest } } : Ctx Io).runHandler g).Checked none := by
  by_cases hplain : g.isPlain = true ∧ ∀ id, g ≠ .wait id false
  · obtain ⟨hg, hw⟩ := hplain
    have hpop : Ctx.Checked none { c with env := { c.env with ready := rest } } := h.pop hr
      (fun id => Handler.startsTimer_of_not (Handler.not_isTimerTask hg) id)
      (fun id heq => absurd heq (hw id))
    exact hpop.acts (acts_runHandler _ hg hw) hlt
  · cases g with
    | task task =>
      cases task with
      | stopImpl =>
        have hpop : Ctx.Checked none { c with env := { c.env with ready := rest } } :=
          h.pop hr (fun id => rfl) (by simp)
        generalize hd : ({ c with env := { c.env with ready := rest } } : Ctx Io) = d at hpop hlt ⊢
        have hs : ({ d with started := false } : Ctx Io) = d := by
          have hds : d.started = false := hd ▸ hstop rfl
          rw [← hds]
        have hacts := acts_stopImpl d
        rw [hs] at hacts
        exact hpop.acts hacts hlt
      | startTimerImpl id delay interval => exact h.startTimer hr
      | stopTimerImpl id =>
        have hpop : Ctx.Checked none { c with env := { c.env with ready := rest } } :=
          h.pop hr (fun id => rfl) (by simp)
        refine hpop.stopTimer ?_
        rintro hs rfl
        apply (h.runs hs).kept
        rw [hr]
        exact List.mem_cons_self
      | _ => exact absurd ⟨rfl, by simp⟩ hplain
    | wait id ec =>
      cases ec with
      | true => exact absurd ⟨rfl, by simp⟩ hplain
      | false =>
        have hpop : Ctx.Checked (some id) { c with env := { c.env with ready := rest } } :=
          h.pop hr (fun id => rfl) (fun id' heq => by cases heq; rfl)
        generalize ({ c with env := { c.env with ready := rest } } : Ctx Io) = d at hpop hlt ⊢
        rw [Ctx.runHandler, onTimer, if_neg (by decide)] at hlt ⊢
        cases hfind : d.timer.find id with
        | none => exact hpop.forget hfind
        | some info =>
          rw [hfind] at hlt
          have honward := onward_rescheduleTimer d.onPriodicallyTimer id
          have hacts := acts_onPriodicallyTimer d
          exact (hpop.acts hacts (Nat.lt_of_le_of_lt honward.curTimerId hlt)).reschedule
    | _ => exact absurd ⟨rfl, by simp⟩ hplain

end Ctx

/-! ### Events -/

namespace World

/-- A `stop` has cleared `started_`, and its `stop_impl` has not run. -/
def StopOwed (w : World) : Prop := w.stopCleared ≠ 0 ∨ .task .stopImpl ∈ w.io.ready

instance (w : World) : Decidable w.StopOwed :=
  inferInstanceAs (Decidable (w.stopCleared ≠ 0 ∨ .task .stopImpl ∈ w.io.ready))

/-- `start_impl` sets `started_` only when no `stop_impl` is owed. -/
def InTurn (w : World) (e : Event) : Prop :=
  w.StopOwed → ∀ v ∈ w.step e, v.io.starts = w.io.starts

instance (w : World) (e : Event) : Decidable (w.InTurn e) :=
  inferInstanceAs (Decidable (w.StopOwed → ∀ v ∈ w.step e, v.io.starts = w.io.starts))

/-- What holds between two handlers. -/
structure Checked (w : World) : Prop where
  client : (w.enter []).Checked none
  owed : w.StopOwed → w.client.started = false

theorem checked_new : new.Checked := by
  refine ⟨⟨?_, ?_, ?_, ?_⟩, ?_⟩
  · intro id hmention
    cases hmention with
    | check => exact ⟨0, Nat.le_refl _, rfl⟩
    | timer hfound => exact absurd rfl hfound
    | start hin => exact absurd hin List.not_mem_nil
    | stop hin => exact absurd hin List.not_mem_nil
  · intro id info hfound
    cases hfound
  · exact fun id delay interval hin => absurd hin List.not_mem_nil
  · intro hs
    cases hs
  · intro _
    rfl

variable {w v : World}

/-- An event at which no handler runs: a thread goes on in a call, time passes, or handlers
join the queue that have nothing to do with starting or stopping. -/
structure Aside (w v : World) : Prop where
  timer : v.client.timer = w.client.timer
  checkTimerId : v.client.checkTimerId = w.client.checkTimerId
  started : v.client.started = w.client.started
  stopCleared : v.stopCleared = w.stopCleared
  attempt : v.io.attempt = w.io.attempt
  last : v.client.lastConnectTimepoint = w.client.lastConnectTimepoint
  connectState : v.client.connectState = w.client.connectState
  waits : ∀ id ∈ w.io.waits, id ∈ v.io.waits ∨ .wait id false ∈ v.io.ready
  ready : ∃ gs, v.io.ready = w.io.ready ++ gs ∧ ∀ g ∈ gs, g.isPlain = true

theorem aside_same (ht : v.client.timer = w.client.timer)
    (hc : v.client.checkTimerId = w.client.checkTimerId)
    (hs : v.client.started = w.client.started) (ho : v.stopCleared = w.stopCleared)
    (hl : v.client.lastConnectTimepoint = w.client.lastConnectTimepoint)
    (hk : v.client.connectState = w.client.connectState) (hio : v.io = w.io) : w.Aside v := by
  refine ⟨ht, hc, hs, ho, congrArg Io.attempt hio, hl, hk, ?_, [], ?_, by simp⟩
  · rw [hio]
    exact fun id hid => .inl hid
  · rw [hio, List.append_nil]

/-- One handler is queued, of a task or of an operation on the socket. -/
theorem aside_push {g : Handler} (ht : v.client.timer = w.client.timer)
    (hc : v.client.checkTimerId = w.client.checkTimerId)
    (hs : v.client.started = w.client.started) (ho : v.stopCleared = w.stopCleared)
    (hl : v.client.lastConnectTimepoint = w.client.lastConnectTimepoint)
    (hk : v.client.connectState = w.client.connectState)
    (ha : v.io.attempt = w.io.attempt) (hw : v.io.waits = w.io.waits)
    (hready : v.io.ready = w.io.ready ++ [g]) (hg : g.isPlain = true) : w.Aside v := by
  refine ⟨ht, hc, hs, ho, ha, hl, hk, ?_, [g], hready, ?_⟩
  · rw [hw]
    exact fun id hid => .inl hid
  · exact fun g' hg' => List.mem_singleton.mp hg' ▸ hg

/-- The wait of a timer is over, and its handler is queued. -/
theorem aside_expire {wait : Nat} {id : UInt32} (hop : w.io.waits[wait]? = some id) :
    w.Aside { w with io := { w.io with
      waits := w.io.waits.eraseIdx wait, ready := w.io.ready ++ [.wait id false] } } := by
  refine ⟨rfl, rfl, rfl, rfl, rfl, rfl, rfl, ?_, [.wait id false], rfl, ?_⟩
  · intro id' hid
    obtain ⟨hlt, heq⟩ := List.getElem?_eq_some_iff.mp hop
    have hperm := List.getElem_cons_eraseIdx_perm hlt
    rcases List.mem_cons.mp (hperm.mem_iff.mpr hid) with hid | hid
    · refine .inr (List.mem_append_right _ (List.mem_singleton.mpr ?_))
      rw [hid, heq]
    · exact .inl hid
  · intro g hg
    rw [List.mem_singleton.mp hg]
    rfl

/-- **An event runs the next handler, clears `started_`, posts a `stop_impl` that is owed,
or does nothing about starting and stopping.** -/
theorem step_turns {e : Event} (hs : w.step e = some v) :
    (∃ script g rest, e = .run script ∧ w.io.ready = g :: rest ∧ v = w.leave
      ((({ w with io := { w.io with ready := rest } } : World).enter script).runHandler g)) ∨
    (∃ stopTested stopCleared, v = { w with
      stopTested := stopTested, stopCleared := stopCleared
      client := { w.client with started := false } }) ∨
    (w.stopCleared ≠ 0 ∧
      v = ({ w with stopCleared := w.stopCleared - 1 } : World).emit (.post .stopImpl)) ∨
    w.Aside v := by
  cases e with
  | run script =>
    simp only [step] at hs
    split at hs
    · cases hs
    · rename_i g rest hr
      exact .inl ⟨script, g, rest, rfl, hr, (Option.some.inj hs).symm⟩
  | sendDrawSeq cmd reqBuf reqLen opt callback =>
    simp only [step] at hs
    right; right; right
    split at hs
    · exact Option.some.inj hs ▸ aside_same rfl rfl rfl rfl rfl rfl rfl
    · exact Option.some.inj hs ▸ aside_same rfl rfl rfl rfl rfl rfl rfl
  | sendDrawId call =>
    simp only [step] at hs
    right; right; right
    split at hs
    · exact Option.some.inj hs ▸ aside_same rfl rfl rfl rfl rfl rfl rfl
    · cases hs
  | sendPost call =>
    simp only [step] at hs
    right; right; right
    split at hs
    · exact Option.some.inj hs ▸ aside_push rfl rfl rfl rfl rfl rfl rfl rfl rfl rfl
    · cases hs
  | sendCancel sendId =>
    exact .inr (.inr (.inr (Option.some.inj hs ▸ aside_push rfl rfl rfl rfl rfl rfl rfl rfl rfl rfl)))
  | subscribeNotification cmd callback =>
    exact .inr (.inr (.inr (Option.some.inj hs ▸ aside_push rfl rfl rfl rfl rfl rfl rfl rfl rfl rfl)))
  | unsubscribeNotification cmd =>
    exact .inr (.inr (.inr (Option.some.inj hs ▸ aside_push rfl rfl rfl rfl rfl rfl rfl rfl rfl rfl)))
  | start host port =>
    exact .inr (.inr (.inr (Option.some.inj hs ▸ aside_push rfl rfl rfl rfl rfl rfl rfl rfl rfl rfl)))
  | stopTest =>
    simp only [step] at hs
    right; right; right
    split at hs
    · exact Option.some.inj hs ▸ aside_same rfl rfl rfl rfl rfl rfl rfl
    · exact Option.some.inj hs ▸ aside_same rfl rfl rfl rfl rfl rfl rfl
  | stopClear =>
    simp only [step] at hs
    split at hs
    · cases hs
    · exact .inr (.inl ⟨_, _, (Option.some.inj hs).symm⟩)
  | stopPost =>
    simp only [step] at hs
    split at hs
    · cases hs
    · rename_i hne
      exact .inr (.inr (.inl ⟨hne, (Option.some.inj hs).symm⟩))
  | connected =>
    obtain ⟨tag, -, rfl⟩ := Option.map_eq_some_iff.mp hs
    exact .inr (.inr (.inr (aside_push rfl rfl rfl rfl rfl rfl rfl rfl rfl rfl)))
  | connectFailed =>
    obtain ⟨tag, -, rfl⟩ := Option.map_eq_some_iff.mp hs
    exact .inr (.inr (.inr (aside_push rfl rfl rfl rfl rfl rfl rfl rfl rfl rfl)))
  | received op bytes =>
    simp only [step] at hs
    right; right; right
    split at hs
    · cases hs
    split at hs
    · exact Option.some.inj hs ▸ aside_push rfl rfl rfl rfl rfl rfl rfl rfl rfl rfl
    · cases hs
  | readFailed op =>
    obtain ⟨r, -, rfl⟩ := Option.map_eq_some_iff.mp hs
    exact .inr (.inr (.inr (aside_push rfl rfl rfl rfl rfl rfl rfl rfl rfl rfl)))
  | written op =>
    obtain ⟨tag, -, rfl⟩ := Option.map_eq_some_iff.mp hs
    exact .inr (.inr (.inr (aside_push rfl rfl rfl rfl rfl rfl rfl rfl rfl rfl)))
  | writeFailed op =>
    obtain ⟨tag, -, rfl⟩ := Option.map_eq_some_iff.mp hs
    exact .inr (.inr (.inr (aside_push rfl rfl rfl rfl rfl rfl rfl rfl rfl rfl)))
  | expired wait =>
    obtain ⟨id, hop, rfl⟩ := Option.map_eq_some_iff.mp hs
    exact .inr (.inr (.inr (aside_expire hop)))
  | advance time =>
    exact .inr (.inr (.inr (Option.some.inj hs ▸ aside_same rfl rfl rfl rfl rfl rfl rfl)))

theorem Checked.aside (h : w.Checked) (ha : w.Aside v) : v.Checked := by
  obtain ⟨gs, hready, hgs⟩ := ha.ready
  constructor
  · exact h.client.passes gs ha.timer ha.checkTimerId (fun hd => ha.started ▸ hd) ha.waits hready
      (fun g hg => Handler.not_isTimerTask (hgs g hg))
  · intro howed
    refine ha.started.trans (h.owed (howed.imp (fun hne => ha.stopCleared ▸ hne) ?_))
    intro hin
    rw [hready] at hin
    rcases List.mem_append.mp hin with hin | hin
    · exact hin
    · cases hgs _ hin

theorem Checked.clearStarted (h : w.Checked) (stopTested stopCleared : Nat) :
    Checked { w with
      stopTested := stopTested, stopCleared := stopCleared
      client := { w.client with started := false } } := by
  constructor
  · refine h.client.passes [] rfl rfl (fun hd => ?_) (fun id hid => .inl hid)
      (List.append_nil _).symm (by simp)
    cases hd
  · exact fun _ => rfl

theorem Checked.postStop (h : w.Checked) (howed : w.stopCleared ≠ 0) :
    Checked (({ w with stopCleared := w.stopCleared - 1 } : World).emit (.post .stopImpl)) := by
  constructor
  · refine h.client.passes [.task .stopImpl] rfl rfl (fun hd => hd)
      (fun id hid => .inl hid) rfl ?_
    intro g hg
    rw [List.mem_singleton.mp hg]
    rfl
  · exact fun _ => h.owed (.inl howed)

theorem Checked.enter (h : w.Checked) (script : List CallbackRun) :
    (w.enter script).Checked none :=
  h.client.passes [] rfl rfl id (fun id hid => .inl hid) (List.append_nil _).symm (by simp)

/-- The handler of `stop_impl` finds the client not started. -/
theorem Checked.not_started_of_stopImpl (h : w.Checked) {g : Handler} {rest : List Handler}
    (hr : w.io.ready = g :: rest) (hg : g = .task .stopImpl) : w.client.started = false := by
  apply h.owed
  right
  rw [hr, hg]
  exact List.mem_cons_self

theorem Checked.onward (h : w.Checked) {g : Handler} {rest : List Handler}
    (hr : w.io.ready = g :: rest) (script : List CallbackRun) :
    (({ w with io := { w.io with ready := rest } } : World).enter script).Onward
      ((({ w with io := { w.io with ready := rest } } : World).enter script).runHandler g) :=
  Ctx.onward_runHandler _ (h.not_started_of_stopImpl hr)

theorem Checked.run (h : w.Checked) {g : Handler} {rest : List Handler} (hr : w.io.ready = g :: rest)
    (script : List CallbackRun)
    (hv : v = w.leave
      ((({ w with io := { w.io with ready := rest } } : World).enter script).runHandler g))
    (hturn : w.StopOwed → v.io.starts = w.io.starts) (hlt : v.client.timer.curTimerId < 2 ^ 32) :
    v.Checked := by
  subst hv
  constructor
  · have hd := (h.enter script).runHandler hr (h.not_started_of_stopImpl hr) hlt
    exact hd.passes [] rfl rfl id (fun id hid => .inl hid) (List.append_nil _).symm (by simp)
  · intro howed
    have honward := h.onward hr script
    have howed' : w.StopOwed := by
      refine howed.imp_right (fun hin => ?_)
      rw [hr]
      exact List.mem_cons_of_mem g (honward.stopImpl hin)
    by_contra hstarted
    rcases honward.started (Bool.eq_true_of_not_eq_false hstarted) with ⟨hbefore, -⟩ | ⟨hless, -⟩
    · have hbefore' : w.client.started = true := hbefore
      rw [h.owed howed'] at hbefore'
      cases hbefore'
    · exact absurd (hturn howed') (Nat.ne_of_gt hless)

theorem Checked.step (h : w.Checked) {e : Event} (hs : w.step e = some v) (hturn : w.InTurn e)
    (hlt : v.client.timer.curTimerId < 2 ^ 32) : v.Checked := by
  rcases step_turns hs with ⟨script, g, rest, -, hr, hv⟩ | ⟨stopTested, stopCleared, rfl⟩ |
    ⟨hne, rfl⟩ | ha
  · exact h.run hr script hv (fun howed => hturn howed v hs) hlt
  · exact h.clearStarted stopTested stopCleared
  · exact h.postStop hne
  · exact h.aside ha

theorem curTimerId_step {e : Event} (hs : w.step e = some v) :
    w.client.timer.curTimerId ≤ v.client.timer.curTimerId := by
  rcases step_turns hs with ⟨script, g, rest, -, hr, rfl⟩ | ⟨stopTested, stopCleared, rfl⟩ |
    ⟨hne, rfl⟩ | ha
  · exact Ctx.curTimerId_runHandler
      (({ w with io := { w.io with ready := rest } } : World).enter script) g
  · exact Nat.le_refl _
  · exact Nat.le_refl _
  · exact Nat.le_of_eq (congrArg Itimer.curTimerId ha.timer.symm)

theorem checked_run {es : List Event} (h : Run.run step new es = some w)
    (hturn : Run.Along step InTurn new es) (hids : w.client.timer.curTimerId < 2 ^ 32) :
    w.Checked := by
  refine Run.run_invariant (I := fun v => v.client.timer.curTimerId < 2 ^ 32 → v.Checked) ?_
    (fun _ => checked_new) hturn h hids
  intro u e v hu ht hs hlt
  exact (hu (Nat.lt_of_le_of_lt (curTimerId_step hs) hlt)).step hs ht hlt

/-! ### The main result -/

/-- **The handler of a timer connects a client that is disconnected**, if the last attempt
was long enough ago. -/
theorem attempt_onTimer {c : Ctx Io} {id : UInt32} (hfind : c.timer.find id ≠ none)
    (hs : c.started = true) (hd : c.connectState = .disconnected)
    (hdue : reconnectIntervalSeconds ≤ secondsPassed c.now c.lastConnectTimepoint) :
    c.env.attempt < (c.onTimer id false).env.attempt := by
  have hcheck : c.doReconnectCheck c.now = c.doConnect := by
    rw [Ctx.doReconnectCheck, if_neg (by simp [hd]), if_neg (by simp [hd]),
      if_neg (Int.not_lt.mpr hdue)]
  have hconnect := (Ctx.doConnect_started hs).2.2.2.2
  have hrest : (c.doReconnectCheck c.now).Onward c.onPriodicallyTimer :=
    Ctx.Acts.onward ((Ctx.acts_resendFrom c.now [] _ (c.doReconnectCheck c.now)).trans
      (Ctx.acts_doHeartbeatCheck _ c.now))
  rw [hcheck] at hrest
  obtain ⟨info, hinfo⟩ := Option.ne_none_iff_exists'.mp hfind
  rw [Ctx.onTimer, if_neg (by decide), hinfo]
  have hend := (Ctx.onward_rescheduleTimer c.onPriodicallyTimer id).attempt
  have hless := hrest.attempt
  show c.env.attempt < (c.onPriodicallyTimer.rescheduleTimer id).env.attempt
  omega

/-- **A started client is never stuck.**  In every run, a connecting client has the handler
of its `async_connect` to come and a connected one that of a read, and the check timer
connects a disconnected one.  In every run in which `start_impl` sets `started_` only when
no `stop_impl` is owed, a started client has its check timer. -/
theorem never_stuck {es : List Event} (h : Run.run step new es = some w) :
    (w.client.connectState = .connecting → w.io.AwaitsConnect) ∧
    (w.client.connectState = .connected → w.io.AwaitsRead) ∧
    (w.client.connectState = .disconnected → w.client.started = true →
      reconnectIntervalSeconds ≤ secondsPassed w.now w.client.lastConnectTimepoint →
      ∀ id rest script v, w.io.ready = .wait id false :: rest → w.client.timer.find id ≠ none →
        w.step (.run script) = some v → w.io.attempt < v.io.attempt) ∧
    (Run.Along step InTurn new es → w.client.timer.curTimerId < 2 ^ 32 →
      w.client.started = true → (w.enter []).Runs none w.client.checkTimerId) := by
  have hawake : w.link.Awake :=
    Run.run_invariant (P := fun _ _ => True) (fun _ _ _ hw _ hs => awake_step hw hs) awake_new
      (Run.along_true _ _) h
  refine ⟨hawake.connecting, fun hs => hawake.reading (hawake.connected hs), ?_, ?_⟩
  · intro hd hs hdue id rest script v hr hfind hstep
    rw [run_eq_some hstep hr]
    exact attempt_onTimer
      (c := ({ w with io := { w.io with ready := rest } } : World).enter script) hfind hs hd hdue
  · intro hturn hids hstarted
    exact (checked_run h hturn hids).client.runs hstarted

/-- A client is stopped by a thread and started again.  The connect of before completes
with an error after that, and the client counts as disconnected until the tick. -/
def restarted : List Event :=
  [.start "host" 1, .run [], .run [], .stopTest, .stopClear, .stopPost, .start "host" 1, .run [],
    .run [], .run [], .run [], .run [], .run [], .advance 6000000000, .expired 0]

theorem never_stuck_restarted :
    ∃ w v, Run.run step new restarted = some w ∧ w.client.started = true ∧
      w.client.connectState = .disconnected ∧ (w.enter []).Runs none w.client.checkTimerId ∧
      w.step (.run []) = some v ∧ w.io.attempt < v.io.attempt := by
  have hrun : (Run.run step new restarted).map (fun w =>
      (w.io.ready, (w.step (.run [])).isSome, (w.client.timer.find 2).isSome,
        decide (w.client.started = true ∧ w.client.connectState = .disconnected ∧
          w.client.timer.curTimerId < 2 ^ 32 ∧
          reconnectIntervalSeconds ≤ secondsPassed w.now w.client.lastConnectTimepoint))) =
      some ([.wait 2 false], true, true, true) := by
    decide +kernel
  have hturn : Run.Along step InTurn new restarted := by
    decide +kernel
  obtain ⟨w, hw, heq⟩ := Option.map_eq_some_iff.mp hrun
  obtain ⟨hr, hv, hfind, hrest⟩ : _ ∧ _ ∧ _ ∧ _ := by simpa only [Prod.mk.injEq] using heq
  obtain ⟨hs, hd, hids, hdue⟩ := of_decide_eq_true hrest
  obtain ⟨v, hv⟩ := Option.isSome_iff_exists.mp hv
  obtain ⟨-, -, htick, hruns⟩ := never_stuck hw
  refine ⟨w, v, hw, hs, hd, hruns hturn hids hs, hv, ?_⟩
  exact htick hd hs hdue 2 [] [] v hr
    (Option.isSome_iff_ne_none.mp hfind) hv

end World

end Ibase
