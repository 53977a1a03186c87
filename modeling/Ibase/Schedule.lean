import Ibase.Registry

/-!
# When a timer runs its task

`Plan` is the purpose of `start_timer`: the first run is due `delay` after
`start_timer_impl`, every other one `interval` after the last was rescheduled, and
with no interval there is no other.  `Timers.Timed` is what a registry keeps whose
handlers run at the instant their wait is due: the wait of every entry stands at the
end of an interval.  So a timer keeps to its plan exactly if its first delay is an
interval too.
-/

namespace Ibase

/-- What happened to a timer, and when. -/
inductive Moment where
  | begun (time : Nat)
  | fired (time : Nat)
  | rescheduled (time : Nat)
  deriving DecidableEq, Repr

/-- Where a timer stands in its plan. -/
inductive Phase where
  | unborn
  | waiting (due : Nat)
  | running
  | removed
  deriving DecidableEq, Repr

/-- The two durations, in nanoseconds. -/
structure Plan where
  delay : Nat
  interval : Nat

def Plan.step (plan : Plan) : Phase → Moment → Option Phase
  | .unborn, .begun time => some (.waiting (time + plan.delay))
  | .waiting due, .fired time => if time = due then some .running else none
  | .running, .rescheduled time =>
    some (if plan.interval = 0 then .removed else .waiting (time + plan.interval))
  | _, _ => none

def Plan.ofSeconds (delaySeconds intervalSeconds : UInt32) : Plan :=
  ⟨delaySeconds.toNat * 1000000000, intervalSeconds.toNat * 1000000000⟩

theorem Plan.ofSeconds_rescheduled (delaySeconds intervalSeconds : UInt32) (time : Nat) :
    (Plan.ofSeconds delaySeconds intervalSeconds).step .running (.rescheduled time) =
      some (if intervalSeconds = 0 then .removed
        else .waiting (time + intervalSeconds.toNat * 1000000000)) := by
  have hiff : intervalSeconds.toNat * 1000000000 = 0 ↔ intervalSeconds = 0 := by
    rw [← UInt32.toNat_inj, UInt32.toNat_zero]
    omega
  show some (if intervalSeconds.toNat * 1000000000 = 0 then Phase.removed else _) = _
  by_cases hzero : intervalSeconds = 0
  · rw [if_pos (hiff.mpr hzero), if_pos hzero]
  · rw [if_neg (fun hmul => hzero (hiff.mp hmul)), if_neg hzero]
    rfl

def TimerEntry.draw {τ : Type} : TimerEntry τ → Nat
  | begun call _ => call.task.draw
  | fired _ task _ => task.draw
  | rescheduled draw _ => draw

def TimerEntry.moment {τ : Type} : TimerEntry τ → Moment
  | begun _ time => .begun time
  | fired _ _ time => .fired time
  | rescheduled _ time => .rescheduled time

theorem Plan.run_concat {plan : Plan} {moments : List Moment} {phase : Phase}
    (h : Run.run plan.step .unborn moments = some phase) (moment : Moment) :
    Run.run plan.step .unborn (moments ++ [moment]) = plan.step phase moment := by
  rw [Run.run_append, h]
  show (plan.step phase moment).bind some = plan.step phase moment
  cases plan.step phase moment with
  | none => rfl
  | some next => rfl

namespace Timers

variable {τ : Type}

/-- What happened to the timer of the call that drew this number. -/
def history (w : Timers τ) (draw : Nat) : List Moment :=
  (w.log.filter (fun entry => entry.draw = draw)).map TimerEntry.moment

/-- The timer has kept to its plan, and its next run is not overdue. -/
def OnPlan (plan : Plan) (draw : Nat) (w : Timers τ) : Prop :=
  ∃ phase, Run.run plan.step .unborn (w.history draw) = some phase ∧
    (∀ due, phase = .waiting due → w.clock ≤ due) ∧
    (phase = .removed → w.itimer.find (timerIdOf draw) = none)

/-- No wait expires before it is due, and time passes no wait whose handler has not
begun. -/
def Prompt (w : Timers τ) (e : TimerEvent τ) : Prop :=
  match e with
  | .advance time => ∀ wait ∈ w.owed, time ≤ wait.due
  | .expire i => ∀ wait, w.waits[i]? = some wait → wait.due ≤ w.clock
  | _ => True

/-- What the plan of a timer says of the registry. -/
def Matches (call : StartCall τ) (w : Timers τ) : Phase → Prop
  | .unborn => False
  | .waiting due =>
    w.itimer.find (timerIdOf call.task.draw) =
      some ⟨call.task, call.delaySeconds, call.intervalSeconds⟩ ∧
    w.running ≠ some (timerIdOf call.task.draw) ∧
    ∀ wait ∈ w.owed, wait.timerId = timerIdOf call.task.draw → wait.due = due
  | .running =>
    w.itimer.find (timerIdOf call.task.draw) =
      some ⟨call.task, call.delaySeconds, call.intervalSeconds⟩ ∧
    w.running = some (timerIdOf call.task.draw)
  | .removed => w.itimer.find (timerIdOf call.task.draw) = none

/-- Every wait that still fires is due now or later, and those that have expired
are due now. -/
structure InTime (w : Timers τ) : Prop where
  expired : ∀ wait, (wait, false) ∈ w.completed → wait.due ≤ w.clock
  owed : ∀ wait ∈ w.owed, w.clock ≤ wait.due

theorem InTime.cancel {w : Timers τ} (h : w.InTime) (timer : Nat) : (w.cancel timer).InTime := by
  refine ⟨fun wait hin => ?_, fun wait hin => ?_⟩
  · rcases List.mem_append.mp hin with hin | hin
    · exact h.expired wait hin
    · obtain ⟨_, _, heq⟩ := List.mem_map.mp hin
      exact absurd heq (by simp)
  · exact h.owed wait ((owed_cancel_sublist w timer).subset hin)

theorem InTime.asyncWait {w : Timers τ} (h : w.InTime) (timerId : UInt32) (timer : Nat)
    (seconds : UInt32) : (w.asyncWait timerId timer seconds).InTime := by
  have hc := h.cancel timer
  refine ⟨hc.expired, fun wait hin => ?_⟩
  rcases List.mem_cons.mp ((owed_asyncWait ..).mem_iff.mp hin) with rfl | hin
  · exact Nat.le_add_right ..
  · exact hc.owed wait hin

theorem InTime.congr {w v : Timers τ} (h : w.InTime) (hcompleted : v.completed = w.completed)
    (hwaits : v.waits = w.waits) (hclock : v.clock = w.clock) : v.InTime := by
  have howed : v.owed = w.owed := by rw [Timers.owed, Timers.owed, hcompleted, hwaits]
  refine ⟨fun wait hin => ?_, fun wait hin => ?_⟩
  · rw [hclock]
    exact h.expired wait (hcompleted ▸ hin)
  · rw [hclock]
    exact h.owed wait (howed ▸ hin)

theorem InTime.step {w v : Timers τ} {e : TimerEvent τ} (h : w.InTime) (hw : w.Kept)
    (hcur : w.itimer.curTimerId < 2 ^ 32) (hp : w.Prompt e) (hm : w.Moves e v) : v.InTime := by
  cases hm with
  | startDraw task delay interval => exact h.congr rfl rfl rfl
  | startPost i call hi => exact h.congr rfl rfl rfl
  | stopTimer timerId => exact h.congr rfl rfl rfl
  | advance time =>
    refine ⟨fun wait hin => Nat.le_trans (h.expired wait hin) (Nat.le_max_left ..), ?_⟩
    intro wait hin
    exact Nat.max_le.mpr ⟨h.owed wait hin, hp wait hin⟩
  | expire i wait hi =>
    refine ⟨fun wait' hin => ?_, fun wait' hin => ?_⟩
    · rcases List.mem_append.mp hin with hin | hin
      · exact h.expired wait' hin
      · obtain rfl : wait' = wait := by simpa using hin
        exact hp wait' hi
    · exact h.owed wait' ((owed_expire w hi).mem_iff.mp hin)
  | runStart call rest hidle hposted =>
    have hnone := hw.armed.find_new (hw.calls.posted_new hcur hposted).1
    rw [startTimerImpl_of_new (w := { w with posted := rest }) hnone]
    refine InTime.asyncWait ?_ _ _ _
    exact h.congr rfl rfl rfl
  | runStop timerId rest hidle hposted =>
    rcases stopTimerImpl_cases { w with posted := rest } timerId with
      ⟨-, hsame⟩ | ⟨info, -, hstopped⟩
    · rw [hsame]
      exact h.congr rfl rfl rfl
    · rw [hstopped]
      exact (h.cancel info.task.draw).congr rfl rfl rfl
  | pass i wait ec hidle hi hec =>
    refine ⟨fun wait' hin => h.expired wait' (List.mem_of_mem_eraseIdx hin), fun wait' hin => ?_⟩
    exact h.owed wait' ((owed_eraseIdx w hi).mem_iff.mpr (List.mem_append_right _ hin))
  | fire i wait info hidle hi hfound =>
    refine ⟨fun wait' hin => h.expired wait' (List.mem_of_mem_eraseIdx hin), fun wait' hin => ?_⟩
    exact h.owed wait' ((owed_eraseIdx w hi).mem_iff.mpr (List.mem_append_right _ hin))
  | taskReturns timerId hr =>
    cases hfound : w.itimer.find timerId with
    | none =>
      rw [rescheduleTimer_of_none (w := { w with running := none }) hfound]
      exact h.congr rfl rfl rfl
    | some info =>
      rw [rescheduleTimer_of_find (w := { w with running := none }) hfound]
      split
      · refine InTime.cancel ?_ _
        exact h.congr rfl rfl rfl
      · refine InTime.asyncWait ?_ _ _ _
        exact h.congr rfl rfl rfl

/-! ### Keeping to the plan -/

/-- The timer `draw` was not stopped, and if its two durations are the same it keeps
to its plan. -/
structure Timed (draw : Nat) (w : Timers τ) : Prop where
  unstopped : .stopTimerImpl (timerIdOf draw) ∉ w.posted
  unborn : draw ∉ w.begun → w.history draw = []
  plan : ∀ call time, .begun call time ∈ w.log → call.task.draw = draw →
    call.delaySeconds = call.intervalSeconds →
    ∃ phase, Run.run (Plan.ofSeconds call.delaySeconds call.intervalSeconds).step .unborn
      (w.history draw) = some phase ∧ Matches call w phase

theorem mem_begun {w : Timers τ} {call : StartCall τ} {time : Nat}
    (h : .begun call time ∈ w.log) : call.task.draw ∈ w.begun :=
  List.mem_filterMap.mpr ⟨_, h, rfl⟩

theorem begun_of_concat {log : List (TimerEntry τ)} {entry : TimerEntry τ} {call : StartCall τ}
    {time : Nat} (h : .begun call time ∈ log ++ [entry]) (hne : entry ≠ .begun call time) :
    .begun call time ∈ log := by
  rcases List.mem_append.mp h with hin | hin
  · exact hin
  · exact absurd (List.mem_singleton.mp hin).symm hne

/-- A step of the other timers. -/
theorem Timed.keep {draw : Nat} {w v : Timers τ} (h : w.Timed draw)
    (hposted : ∀ task ∈ v.posted, task = .stopTimerImpl (timerIdOf draw) → task ∈ w.posted)
    (hlog : v.log = w.log ∨ ∃ entry, entry.draw ≠ draw ∧ v.log = w.log ++ [entry])
    (hfind : draw ∈ w.begun →
      v.itimer.find (timerIdOf draw) = w.itimer.find (timerIdOf draw))
    (hrunning : draw ∈ w.begun →
      (v.running = some (timerIdOf draw) ↔ w.running = some (timerIdOf draw)))
    (howed : draw ∈ w.begun →
      ∀ wait ∈ v.owed, wait.timerId = timerIdOf draw → wait ∈ w.owed) : v.Timed draw := by
  have hhistory : v.history draw = w.history draw := by
    rcases hlog with hlog | ⟨entry, hne, hlog⟩
    · rw [history, history, hlog]
    · rw [history, history, hlog, List.filter_append, List.map_append]
      simp [hne]
  have hold : ∀ call time, .begun call time ∈ v.log → call.task.draw = draw →
      .begun call time ∈ w.log := by
    intro call time hin hdraw
    rcases hlog with hlog | ⟨entry, hne, hlog⟩
    · rwa [hlog] at hin
    · rw [hlog] at hin
      refine begun_of_concat hin ?_
      rintro rfl
      exact hne hdraw
  refine ⟨fun hin => h.unstopped (hposted _ hin rfl), fun hno => ?_, fun call time hin hdraw hsame => ?_⟩
  · rw [hhistory]
    refine h.unborn (fun hin => hno ?_)
    rcases hlog with hlog | ⟨entry, hne, hlog⟩
    · rwa [begun, hlog]
    · rw [begun, hlog, List.filterMap_append]
      exact List.mem_append_left _ hin
  · have hin := hold call time hin hdraw
    obtain ⟨phase, hrun, hmatch⟩ := h.plan call time hin hdraw hsame
    refine ⟨phase, hhistory ▸ hrun, ?_⟩
    subst hdraw
    have hbegun := mem_begun hin
    replace hfind := hfind hbegun
    replace hrunning := hrunning hbegun
    replace howed := howed hbegun
    cases phase with
    | unborn => exact hmatch
    | waiting due =>
      obtain ⟨hentry, hidle, hdue⟩ := hmatch
      exact ⟨hfind.trans hentry, fun hr => hidle (hrunning.mp hr),
        fun wait hin hid => hdue wait (howed wait hin hid) hid⟩
    | running => exact ⟨hfind.trans hmatch.1, hrunning.mpr hmatch.2⟩
    | removed => exact hfind.trans hmatch

theorem history_concat {w v : Timers τ} (entry : TimerEntry τ) (h : v.log = w.log ++ [entry]) :
    v.history entry.draw = w.history entry.draw ++ [entry.moment] := by
  rw [history, history, h, List.filter_append, List.map_append]
  simp

/-- The timer that begins waits for its delay, if that is an interval too. -/
theorem Timed.begins_own {w v : Timers τ} {call : StartCall τ} (h : w.Timed call.task.draw)
    (ha : w.Armed) (hidle : w.running = none)
    (hnew : ∀ draw ∈ w.begun, timerIdOf draw ≠ timerIdOf call.task.draw) (hv : Begins w v call) :
    v.Timed call.task.draw := by
  have hnot : call.task.draw ∉ w.begun := fun hin => hnew _ hin rfl
  refine ⟨fun hin => h.unstopped (hv.posted ▸ hin), fun hno => ?_, fun call' time hin hsame heq => ?_⟩
  · refine absurd ?_ hno
    rw [begun_begun hv.log]
    exact List.mem_append_right _ List.mem_cons_self
  -- no call before drew that number, so this is the one
  have hcall : call' = call := by
    rw [hv.log] at hin
    rcases List.mem_append.mp hin with hin | hin
    · exact absurd (hsame ▸ mem_begun hin) hnot
    · exact (TimerEntry.begun.inj (List.mem_singleton.mp hin)).1
  subst hcall
  refine ⟨.waiting (w.clock + call'.delaySeconds.toNat * 1000000000), ?_, ?_, ?_, ?_⟩
  · have hhistory : v.history call'.task.draw =
        w.history call'.task.draw ++ [.begun w.clock] := history_concat (.begun call' w.clock) hv.log
    rw [hhistory, h.unborn hnot]
    rfl
  · rw [hv.find, if_pos rfl]
  · rw [hv.running, hidle]
    simp
  · intro wait hin hid
    rcases List.mem_cons.mp (hv.owed.mem_iff.mp hin) with rfl | hin
    · rw [heq]
    · exact absurd hid (ha.owed_new hnew wait ((owed_cancel_sublist ..).subset hin)).1

/-- **`start_timer_impl` begins the plan.** -/
theorem Timed.startTimerImpl {draw : Nat} {w : Timers τ} (h : w.Timed draw) (ha : w.Armed)
    (hidle : w.running = none) {call : StartCall τ}
    (hnew : ∀ draw ∈ w.begun, timerIdOf draw ≠ timerIdOf call.task.draw) :
    (w.startTimerImpl call).Timed draw := by
  have hv := begins_of_new (ha.find_new hnew)
  by_cases hdraw : call.task.draw = draw
  · subst hdraw
    exact h.begins_own ha hidle hnew hv
  · refine h.keep ?_ (.inr ⟨.begun call w.clock, hdraw, hv.log⟩) ?_ ?_ ?_
    · intro task hin _
      exact hv.posted ▸ hin
    · intro hbegun
      rw [hv.find, if_neg (hnew draw hbegun)]
    · intro _
      rw [hv.running]
    · intro hbegun wait hin hid
      rcases List.mem_cons.mp (hv.owed.mem_iff.mp hin) with rfl | hin
      · exact absurd hid.symm (hnew draw hbegun)
      · exact (owed_cancel_sublist ..).subset hin

/-- **A task begins when it is due.** -/
theorem Timed.fire {draw : Nat} {w : Timers τ} (h : w.Timed draw) (hw : w.Kept)
    (hcur : w.itimer.curTimerId < 2 ^ 32) (ht : w.InTime) (hidle : w.running = none) {i : Nat}
    {wait : TimerWait} {info : TimerInfo (DrawnTask τ)}
    (hi : w.completed[i]? = some (wait, false))
    (hfound : w.itimer.find wait.timerId = some info) :
    Timed draw { w with
      completed := w.completed.eraseIdx i
      running := some wait.timerId
      log := w.log ++ [.fired wait info.task w.clock] } := by
  have hperm := owed_eraseIdx w hi
  have hin : wait ∈ w.owed := hperm.mem_iff.mpr List.mem_cons_self
  obtain ⟨hid, hb⟩ := hw.armed.entry _ _ hfound
  by_cases hdraw : info.task.draw = draw
  · subst hdraw
    refine ⟨h.unstopped, fun hno => ?_, fun call time hcall hsame heq => ?_⟩
    · rw [begun_fired (w := w) rfl] at hno
      exact absurd hb hno
    · have hcall : .begun call time ∈ w.log := begun_of_concat hcall (by simp)
      obtain ⟨phase, hrun, hmatch⟩ := h.plan call time hcall hsame heq
      have hwid : wait.timerId = timerIdOf call.task.draw := by rw [hsame, hid]
      cases phase with
      | unborn => exact absurd hmatch id
      | removed =>
        rw [Matches, ← hwid, hfound] at hmatch
        exact absurd hmatch (by simp)
      | running => exact absurd (hidle.symm.trans hmatch.2) (by simp)
      | waiting due =>
        obtain ⟨hentry, -, hdue⟩ := hmatch
        have htime : w.clock = due := by
          have h1 := ht.owed wait hin
          have h2 := ht.expired wait (List.mem_of_getElem? hi)
          have h3 := hdue wait hin hwid
          omega
        refine ⟨.running, ?_, hentry, congrArg some hwid⟩
        rw [show history _ info.task.draw = w.history info.task.draw ++ [.fired w.clock] from
          history_concat (.fired wait info.task w.clock) rfl, Plan.run_concat hrun]
        exact if_pos htime
  · have hne : draw ∈ w.begun → wait.timerId ≠ timerIdOf draw := by
      intro hbegun heq
      exact hdraw (hw.calls.inj hcur (begun_subset_draws w hb) (begun_subset_draws w hbegun)
        (hid.trans heq))
    refine h.keep (fun task hin _ => hin) (.inr ⟨.fired wait info.task w.clock, hdraw, rfl⟩)
      (fun _ => rfl) ?_ ?_
    · intro hbegun
      show some wait.timerId = _ ↔ _
      rw [hidle]
      simp [hne hbegun]
    · intro _ wait' hin' _
      exact hperm.mem_iff.mpr (List.mem_append_right _ hin')

/-- The timer whose task ran waits for an interval, or is removed. -/
theorem Timed.rescheduled_own {w v : Timers τ} {timerId : UInt32} {info : TimerInfo (DrawnTask τ)}
    (h : w.Timed info.task.draw) (hw : w.Kept) (hr : w.running = some timerId)
    (hfound : w.itimer.find timerId = some info) (hv : Reschedules w v timerId info) :
    v.Timed info.task.draw := by
  obtain ⟨hid, hb⟩ := hw.armed.entry _ _ hfound
  refine ⟨fun hin => h.unstopped (hv.posted ▸ hin), fun hno => ?_, fun call time hcall hsame heq => ?_⟩
  · rw [begun_rescheduled hv.log] at hno
    exact absurd hb hno
  have hcall : .begun call time ∈ w.log := begun_of_concat (hv.log ▸ hcall) (by simp)
  obtain ⟨phase, hphase, hmatch⟩ := h.plan call time hcall hsame heq
  have htid : timerId = timerIdOf call.task.draw := by rw [hsame, hid]
  cases phase with
  | unborn => exact absurd hmatch id
  | removed =>
    rw [Matches, ← htid, hfound] at hmatch
    exact absurd hmatch (by simp)
  | waiting due => exact absurd (htid ▸ hr) hmatch.2.1
  | running =>
    obtain ⟨hentry, -⟩ := hmatch
    obtain rfl : info = ⟨call.task, call.delaySeconds, call.intervalSeconds⟩ :=
      Option.some.inj (hfound.symm.trans (htid ▸ hentry))
    refine ⟨if call.intervalSeconds = 0 then .removed
      else .waiting (w.clock + call.intervalSeconds.toNat * 1000000000), ?_, ?_⟩
    · have hhistory : v.history call.task.draw =
          w.history call.task.draw ++ [.rescheduled w.clock] :=
        history_concat (.rescheduled call.task.draw w.clock) hv.log
      rw [hhistory, Plan.run_concat hphase]
      exact Plan.ofSeconds_rescheduled ..
    by_cases hzero : call.intervalSeconds = 0
    · rw [if_pos hzero]
      show v.itimer.find _ = none
      rw [hv.find, if_pos ⟨hzero, htid.symm⟩]
    · rw [if_neg hzero]
      refine ⟨?_, ?_, fun wait hin hwid => ?_⟩
      · rw [hv.find, if_neg (fun hand => hzero hand.1)]
        exact hentry
      · rw [hv.running]
        simp
      · rcases List.mem_cons.mp ((hv.waits hzero).mem_iff.mp hin) with rfl | hin
        · rfl
        · refine absurd (hwid.trans htid.symm) (hw.armed.no_wait hr wait ?_)
          exact (owed_cancel_sublist ..).subset hin

/-- Another timer does not notice. -/
theorem Timed.rescheduled_other {draw : Nat} {w v : Timers τ} {timerId : UInt32}
    {info : TimerInfo (DrawnTask τ)} (h : w.Timed draw) (hr : w.running = some timerId)
    (hdraw : info.task.draw ≠ draw) (hne : draw ∈ w.begun → timerIdOf draw ≠ timerId)
    (hv : Reschedules w v timerId info) : v.Timed draw := by
  refine h.keep ?_ (.inr ⟨.rescheduled info.task.draw w.clock, hdraw, hv.log⟩) ?_ ?_ ?_
  · intro task hin _
    exact hv.posted ▸ hin
  · intro hbegun
    rw [hv.find, if_neg (fun hand => hne hbegun hand.2)]
  · intro hbegun
    rw [hv.running, hr]
    simp [Ne.symm (hne hbegun)]
  · intro hbegun wait hin hwid
    by_cases hzero : info.intervalSeconds = 0
    · rw [hv.removed hzero] at hin
      exact (owed_cancel_sublist ..).subset hin
    · rcases List.mem_cons.mp ((hv.waits hzero).mem_iff.mp hin) with rfl | hin
      · exact absurd hwid.symm (hne hbegun)
      · exact (owed_cancel_sublist ..).subset hin

/-- **After its run a task waits for an interval, or is removed.** -/
theorem Timed.rescheduleTimer {draw : Nat} {w : Timers τ} (h : w.Timed draw) (hw : w.Kept)
    (hcur : w.itimer.curTimerId < 2 ^ 32) {timerId : UInt32} (hr : w.running = some timerId) :
    (Timers.rescheduleTimer { w with running := none } timerId).Timed draw := by
  obtain ⟨info, hfound⟩ := Option.ne_none_iff_exists'.mp (hw.armed.running _ hr)
  obtain ⟨hid, hb⟩ := hw.armed.entry _ _ hfound
  have hv := reschedules_of_find hfound
  by_cases hdraw : info.task.draw = draw
  · subst hdraw
    exact h.rescheduled_own hw hr hfound hv
  · refine h.rescheduled_other hr hdraw (fun hbegun heq => hdraw ?_) hv
    exact hw.calls.inj hcur (begun_subset_draws w hb) (begun_subset_draws w hbegun)
      (hid.trans heq.symm)

theorem Timed.step {draw : Nat} {w v : Timers τ} {e : TimerEvent τ} (h : w.Timed draw)
    (hw : w.Kept) (hcur : w.itimer.curTimerId < 2 ^ 32) (ht : w.InTime)
    (hstop : e ≠ .stopTimer (timerIdOf draw)) (hm : w.Moves e v) : v.Timed draw := by
  cases hm with
  | startDraw task delay interval =>
    exact h.keep (fun _ hin _ => hin) (.inl rfl) (fun _ => rfl) (fun _ => Iff.rfl)
      (fun _ _ hin _ => hin)
  | startPost i call hi =>
    refine h.keep ?_ (.inl rfl) (fun _ => rfl) (fun _ => Iff.rfl) (fun _ _ hin _ => hin)
    rintro task hin rfl
    rcases List.mem_append.mp hin with hin | hin
    · exact hin
    · exact absurd (List.mem_singleton.mp hin) (by simp)
  | stopTimer timerId =>
    refine h.keep ?_ (.inl rfl) (fun _ => rfl) (fun _ => Iff.rfl) (fun _ _ hin _ => hin)
    rintro task hin rfl
    rcases List.mem_append.mp hin with hin | hin
    · exact hin
    · have heq := PostedTimerTask.stopTimerImpl.inj (List.mem_singleton.mp hin)
      exact absurd (congrArg TimerEvent.stopTimer heq.symm) hstop
  | advance time =>
    exact h.keep (fun _ hin _ => hin) (.inl rfl) (fun _ => rfl) (fun _ => Iff.rfl)
      (fun _ _ hin _ => hin)
  | expire i wait hi =>
    exact h.keep (fun _ hin _ => hin) (.inl rfl) (fun _ => rfl) (fun _ => Iff.rfl)
      (fun _ _ hin _ => (owed_expire w hi).mem_iff.mp hin)
  | runStart call rest hidle hp =>
    have hrest : Timed draw { w with posted := rest } :=
      h.keep (fun _ hin _ => hp ▸ List.mem_cons_of_mem _ hin) (.inl rfl) (fun _ => rfl)
        (fun _ => Iff.rfl) (fun _ _ hin _ => hin)
    have ha : Armed { w with posted := rest } := hw.armed.congr rfl (List.Perm.refl _) rfl rfl
    exact hrest.startTimerImpl ha hidle (hw.calls.posted_new hcur hp).1
  | runStop timerId rest hidle hp =>
    have hrest : Timed draw { w with posted := rest } :=
      h.keep (fun _ hin _ => hp ▸ List.mem_cons_of_mem _ hin) (.inl rfl) (fun _ => rfl)
        (fun _ => Iff.rfl) (fun _ _ hin _ => hin)
    have hne : timerIdOf draw ≠ timerId := by
      rintro rfl
      exact h.unstopped (hp ▸ List.mem_cons_self)
    rcases stopTimerImpl_cases { w with posted := rest } timerId with
      ⟨-, hsame⟩ | ⟨info, -, hstopped⟩
    · rw [hsame]
      exact hrest
    · rw [hstopped]
      refine hrest.keep (fun _ hin _ => hin) (.inl rfl) (fun _ => ?_) (fun _ => Iff.rfl)
        (fun _ _ hin _ => (owed_cancel_sublist ..).subset hin)
      exact (Itimer.find_erase ..).trans (if_neg hne)
  | pass i wait ec hidle hi hec =>
    exact h.keep (fun _ hin _ => hin) (.inl rfl) (fun _ => rfl) (fun _ => Iff.rfl)
      (fun _ _ hin _ => (owed_eraseIdx w hi).mem_iff.mpr (List.mem_append_right _ hin))
  | fire i wait info hidle hi hfound => exact h.fire hw hcur ht hidle hi hfound
  | taskReturns timerId hr => exact h.rescheduleTimer hw hcur hr

theorem timed_new (draw : Nat) : (new : Timers τ).Timed draw := by
  refine ⟨?_, ?_, ?_⟩
  · exact List.not_mem_nil
  · intro _
    rfl
  · intro call time hin
    exact absurd hin List.not_mem_nil

theorem inTime_new : (new : Timers τ).InTime := by
  refine ⟨?_, ?_⟩
  · intro wait hin
    exact absurd hin List.not_mem_nil
  · intro wait hin
    exact absurd hin List.not_mem_nil

/-- What the registry keeps says that the next run is not overdue. -/
theorem Timed.onPlan {draw : Nat} {w : Timers τ} (h : w.Timed draw) (hw : w.Kept) (ht : w.InTime)
    {call : StartCall τ} {time : Nat} (hin : .begun call time ∈ w.log)
    (hdraw : call.task.draw = draw) (hsame : call.delaySeconds = call.intervalSeconds) :
    w.OnPlan (Plan.ofSeconds call.delaySeconds call.intervalSeconds) draw := by
  obtain ⟨phase, hrun, hmatch⟩ := h.plan call time hin hdraw hsame
  subst hdraw
  refine ⟨phase, hrun, ?_, ?_⟩
  · rintro due rfl
    obtain ⟨hentry, hidle, hdue⟩ := hmatch
    have hone := hw.armed.one (timerIdOf call.task.draw) (by simp [hentry])
    rw [if_neg hidle] at hone
    obtain ⟨wait, hwait, hid⟩ := List.countP_pos_iff.mp (Nat.lt_of_lt_of_eq Nat.zero_lt_one hone.symm)
    rw [← hdue wait hwait (of_decide_eq_true hid)]
    exact ht.owed wait hwait
  · rintro rfl
    exact hmatch

/-- What prompt handlers keep along a run that does not stop the timer. -/
theorem timed_run {draw : Nat} {w v : Timers τ} {es : List (TimerEvent τ)} (hk : w.Kept)
    (ht : w.InTime) (hd : w.Timed draw) (h : Run.run step w es = some v)
    (hcur : v.itimer.curTimerId < 2 ^ 32) (hp : Run.Along step Prompt w es)
    (hstop : .stopTimer (timerIdOf draw) ∉ es) : v.Kept ∧ v.InTime ∧ v.Timed draw := by
  induction es generalizing w with
  | nil =>
    rw [← Option.some.inj h]
    exact ⟨hk, ht, hd⟩
  | cons e es ih =>
    obtain ⟨u, hu, hrest⟩ := Run.run_cons h
    have hm := moves_of_step hu
    have hlt : w.itimer.curTimerId < 2 ^ 32 :=
      Nat.lt_of_le_of_lt (Nat.le_trans hm.curTimerId_le (curTimerId_run hrest)) hcur
    have hne : e ≠ .stopTimer (timerIdOf draw) := by
      rintro rfl
      exact hstop List.mem_cons_self
    exact ih (hk.step hlt hm) (ht.step hk hlt hp.1 hm) (hd.step hk hlt ht hne hm) hrest
      (hp.2 u hu) (fun hin => hstop (List.mem_cons_of_mem _ hin))

/-- **A registry with prompt handlers keeps to the plan of every timer whose two
durations are the same**, unless the timer is stopped. -/
theorem onPlan_run {es : List (TimerEvent τ)} {w : Timers τ} {draw : Nat}
    (h : Run.run step new es = some w) (hcur : w.itimer.curTimerId < 2 ^ 32)
    (hp : Run.Along step Prompt new es) (hstop : .stopTimer (timerIdOf draw) ∉ es)
    {call : StartCall τ} {time : Nat} (hin : .begun call time ∈ w.log)
    (hdraw : call.task.draw = draw) (hsame : call.delaySeconds = call.intervalSeconds) :
    w.OnPlan (Plan.ofSeconds call.delaySeconds call.intervalSeconds) draw := by
  obtain ⟨hk, ht, hd⟩ := timed_run kept_new inTime_new (timed_new draw) h hcur hp hstop
  exact hd.onPlan hk ht hin hdraw hsame

/-! ### The main result -/

/-- One timer from its start to its first run. -/
def firstRun (task : τ) (delaySeconds intervalSeconds : UInt32) : List (TimerEvent τ) :=
  [.startDraw task delaySeconds intervalSeconds, .startPost 0, .runPosted,
    .advance (intervalSeconds.toNat * 1000000000), .expire 0, .runCompletion 0]

/-- The state after it: the task has begun an interval after the start. -/
def firstRunEnd (task : τ) (delaySeconds intervalSeconds : UInt32) : Timers τ where
  itimer := ⟨1, [(1, ⟨⟨1, task⟩, delaySeconds, intervalSeconds⟩)]⟩
  starting := []
  posted := []
  waits := []
  completed := []
  running := some 1
  clock := max 0 (intervalSeconds.toNat * 1000000000)
  serials := 1
  log := [.begun ⟨⟨1, task⟩, delaySeconds, intervalSeconds⟩ 0,
    .fired ⟨0, 1, 1, 0 + intervalSeconds.toNat * 1000000000⟩ ⟨1, task⟩
      (max 0 (intervalSeconds.toNat * 1000000000))]

theorem run_firstRun (task : τ) (delaySeconds intervalSeconds : UInt32) :
    Run.run step new (firstRun task delaySeconds intervalSeconds) =
      some (firstRunEnd task delaySeconds intervalSeconds) := by
  rfl

theorem prompt_firstRun (task : τ) (delaySeconds intervalSeconds : UInt32) :
    Run.Along step Prompt new (firstRun task delaySeconds intervalSeconds) := by
  refine ⟨trivial, fun s1 h1 => ⟨trivial, fun s2 h2 => ⟨trivial, fun s3 h3 => ?_⟩⟩⟩
  rw [← Option.some.inj h1] at h2
  rw [← Option.some.inj h2] at h3
  rw [← Option.some.inj h3]
  refine ⟨fun wait hin => ?_, fun s4 h4 => ?_⟩
  · rw [List.mem_singleton.mp hin]
    exact Nat.le_add_left ..
  · rw [← Option.some.inj h4]
    refine ⟨fun wait hi => ?_, fun s5 h5 => ⟨trivial, fun s6 h6 => trivial⟩⟩
    rw [← Option.some.inj hi]
    show 0 + intervalSeconds.toNat * 1000000000 ≤ max 0 (intervalSeconds.toNat * 1000000000)
    omega

/-- The one time that the plan takes for the first run is that of the delay. -/
theorem delay_eq_of_firstRun {task : τ} {delaySeconds intervalSeconds : UInt32}
    (h : (firstRunEnd task delaySeconds intervalSeconds).OnPlan
      (Plan.ofSeconds delaySeconds intervalSeconds) 1) : delaySeconds = intervalSeconds := by
  obtain ⟨phase, hphase, -⟩ := h
  have hbegun : Run.run (Plan.ofSeconds delaySeconds intervalSeconds).step .unborn [.begun 0] =
      some (.waiting (0 + delaySeconds.toNat * 1000000000)) := rfl
  have hhistory : (firstRunEnd task delaySeconds intervalSeconds).history 1 =
      [.begun 0] ++ [.fired (max 0 (intervalSeconds.toNat * 1000000000))] := rfl
  rw [hhistory, Plan.run_concat hbegun, Plan.step] at hphase
  split at hphase
  · rename_i heq
    have hnat : delaySeconds.toNat = intervalSeconds.toNat := by omega
    exact UInt32.toNat_inj.mp hnat
  · exact absurd hphase (by simp)

/-- **A timer keeps to its plan in every run exactly if its delay is its interval.** -/
theorem onPlan_iff (task : τ) (delaySeconds intervalSeconds : UInt32) :
    (∀ (es : List (TimerEvent τ)) (w : Timers τ) (draw time : Nat),
      Run.run step new es = some w → w.itimer.curTimerId < 2 ^ 32 →
      Run.Along step Prompt new es → .stopTimer (timerIdOf draw) ∉ es →
      .begun ⟨⟨draw, task⟩, delaySeconds, intervalSeconds⟩ time ∈ w.log →
      w.OnPlan (Plan.ofSeconds delaySeconds intervalSeconds) draw) ↔
    delaySeconds = intervalSeconds := by
  constructor
  · intro h
    refine delay_eq_of_firstRun (h _ _ 1 0 (run_firstRun task delaySeconds intervalSeconds) ?_
      (prompt_firstRun task delaySeconds intervalSeconds) ?_ List.mem_cons_self)
    · show 1 < 2 ^ 32
      decide
    · simp [firstRun]
  · rintro hsame es w draw time hrun hcur hp hstop hin
    have hplan := onPlan_run hrun hcur hp hstop hin rfl hsame
    exact hplan

/-- A timer with a delay of five seconds and an interval of one runs after one. -/
theorem first_run_too_early :
    ∃ w : Timers Unit, Run.run step new (firstRun () 5 1) = some w ∧
      Run.Along step Prompt new (firstRun () 5 1) ∧ ¬ w.OnPlan (Plan.ofSeconds 5 1) 1 :=
  ⟨_, run_firstRun () 5 1, prompt_firstRun () 5 1,
    fun h => absurd (delay_eq_of_firstRun h) (by decide)⟩

end Timers

end Ibase
