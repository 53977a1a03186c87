import Ibase.Timers

/-!
# The timer registry and its waits

Between two handlers every entry of `timers_` has one wait that still fires, and
while a task runs its own entry has none (`Timers.Armed`).  The rest follows: a
wait fires once, it fires the task of its own timer since ids are drawn once, and a
timer that has left the registry has no way back (`Timers.Ended.over`).
-/

namespace Ibase

namespace Timers

variable {τ : Type}

/-- Every number is drawn by one call, and `start_timer_impl` runs once for it. -/
structure Calls (w : Timers τ) : Prop where
  nodup : w.draws.Nodup
  le_cur : ∀ draw ∈ w.draws, draw ≤ w.itimer.curTimerId

/-- The entries and the waits that still fire agree. -/
structure Armed (w : Timers τ) : Prop where
  entry : ∀ id info, w.itimer.find id = some info →
    timerIdOf info.task.draw = id ∧ info.task.draw ∈ w.begun
  wait : ∀ wait ∈ w.owed, timerIdOf wait.timer = wait.timerId ∧ wait.timer ∈ w.begun
  one : ∀ id, w.itimer.find id ≠ none →
    w.owed.countP (fun wait => wait.timerId = id) = if w.running = some id then 0 else 1
  running : ∀ id, w.running = some id → w.itimer.find id ≠ none

/-- A wait fires once, and fires the task of its own timer. -/
structure Fired (w : Timers τ) : Prop where
  nodup : ((w.owed ++ w.fires.map Prod.fst).map TimerWait.serial).Nodup
  lt_serials : ∀ wait ∈ w.owed ++ w.fires.map Prod.fst, wait.serial < w.serials
  own_task : ∀ fire ∈ w.fires, fire.2.draw = fire.1.timer

structure Kept (w : Timers τ) : Prop where
  calls : w.Calls
  armed : w.Armed
  fired : w.Fired

theorem kept_new : (new : Timers τ).Kept := by
  refine ⟨⟨?_, ?_⟩, ⟨?_, ?_, ?_, ?_⟩, ⟨?_, ?_, ?_⟩⟩
  · exact List.nodup_nil
  · intro draw h
    exact absurd h List.not_mem_nil
  · intro id info h
    exact absurd h (by simp [new, Itimer.new, Itimer.find])
  · intro wait h
    exact absurd h List.not_mem_nil
  · intro id h
    exact absurd rfl h
  · intro id h
    exact absurd h (by simp [new])
  · exact List.nodup_nil
  · intro wait h
    exact absurd h List.not_mem_nil
  · intro fire h
    exact absurd h List.not_mem_nil

theorem begun_subset_draws (w : Timers τ) {draw : Nat} (h : draw ∈ w.begun) : draw ∈ w.draws :=
  List.mem_append_right _ (List.mem_append_right _ h)

theorem timerIdOf_inj {d e : Nat} (hd : d < 2 ^ 32) (he : e < 2 ^ 32)
    (h : timerIdOf d = timerIdOf e) : d = e := by
  have hnat := congrArg UInt32.toNat h
  rwa [timerIdOf, timerIdOf, UInt32.toNat_ofNat_of_lt' hd, UInt32.toNat_ofNat_of_lt' he] at hnat

/-- Ids tell the calls apart as long as fewer than `2 ^ 32` numbers are drawn. -/
theorem Calls.inj {w : Timers τ} (h : w.Calls) (hcur : w.itimer.curTimerId < 2 ^ 32) {d e : Nat}
    (hd : d ∈ w.draws) (he : e ∈ w.draws) (heq : timerIdOf d = timerIdOf e) : d = e :=
  timerIdOf_inj (Nat.lt_of_le_of_lt (h.le_cur d hd) hcur)
    (Nat.lt_of_le_of_lt (h.le_cur e he) hcur) heq

/-! ### Steps that move neither entries nor waits -/

theorem Armed.congr {w v : Timers τ} (h : w.Armed) (hfind : v.itimer.find = w.itimer.find)
    (howed : v.owed.Perm w.owed) (hrunning : v.running = w.running) (hlog : v.log = w.log) :
    v.Armed := by
  have hbegun : v.begun = w.begun := by rw [begun, begun, hlog]
  refine ⟨?_, ?_, ?_, ?_⟩
  · intro id info hid
    rw [hbegun]
    exact h.entry id info (hfind ▸ hid)
  · intro wait hwait
    rw [hbegun]
    exact h.wait wait (howed.mem_iff.mp hwait)
  · intro id hid
    rw [howed.countP_eq, hrunning]
    exact h.one id (hfind ▸ hid)
  · intro id hid
    rw [hfind]
    exact h.running id (hrunning ▸ hid)

theorem Fired.of_subperm {w v : Timers τ} (h : w.Fired)
    (hsub : (v.owed ++ v.fires.map Prod.fst).Subperm (w.owed ++ w.fires.map Prod.fst))
    (hserials : w.serials ≤ v.serials) (hown : ∀ fire ∈ v.fires, fire.2.draw = fire.1.timer) :
    v.Fired := by
  refine ⟨?_, ?_, hown⟩
  · obtain ⟨waits, hperm, hsublist⟩ := hsub
    exact (hperm.map _).nodup_iff.mp ((hsublist.map _).nodup h.nodup)
  · intro wait hwait
    exact Nat.lt_of_lt_of_le (h.lt_serials wait (hsub.subset hwait)) hserials

theorem Fired.congr {w v : Timers τ} (h : w.Fired) (howed : v.owed.Perm w.owed)
    (hserials : v.serials = w.serials) (hfires : v.fires = w.fires) : v.Fired := by
  refine h.of_subperm ?_ (Nat.le_of_eq hserials.symm) (hfires ▸ h.own_task)
  rw [hfires]
  exact (howed.append_right _).subperm

theorem Calls.congr {w v : Timers τ} (h : w.Calls) (hdraws : v.draws.Perm w.draws)
    (hcur : v.itimer.curTimerId = w.itimer.curTimerId) : v.Calls := by
  refine ⟨hdraws.nodup_iff.mpr h.nodup, fun draw hdraw => ?_⟩
  rw [hcur]
  exact h.le_cur draw (hdraws.mem_iff.mp hdraw)

theorem Calls.draw {w : Timers τ} (h : w.Calls) (task : τ) (delay interval : UInt32) :
    Calls { w with
      itimer := { w.itimer with curTimerId := w.itimer.curTimerId + 1 }
      starting := w.starting ++ [⟨⟨w.itimer.curTimerId + 1, task⟩, delay, interval⟩] } := by
  have hperm : (draws { w with
      itimer := { w.itimer with curTimerId := w.itimer.curTimerId + 1 }
      starting := w.starting ++ [⟨⟨w.itimer.curTimerId + 1, task⟩, delay, interval⟩] }).Perm
      ((w.itimer.curTimerId + 1) :: w.draws) := by
    show (List.map _ (w.starting ++ _) ++ _).Perm _
    rw [List.map_append, List.append_assoc]
    exact List.perm_middle
  refine ⟨hperm.nodup_iff.mpr (List.nodup_cons.mpr ⟨fun hin => ?_, h.nodup⟩), fun draw hin => ?_⟩
  · have := h.le_cur _ hin
    omega
  · rcases List.mem_cons.mp (hperm.mem_iff.mp hin) with rfl | hin
    · exact Nat.le_refl _
    · exact Nat.le_succ_of_le (h.le_cur draw hin)

/-! ### The logs -/

theorem begun_rescheduled {w v : Timers τ} {draw time : Nat}
    (h : v.log = w.log ++ [.rescheduled draw time]) : v.begun = w.begun := by
  rw [begun, begun, h, List.filterMap_append]
  exact List.append_nil _

theorem fires_rescheduled {w v : Timers τ} {draw time : Nat}
    (h : v.log = w.log ++ [.rescheduled draw time]) : v.fires = w.fires := by
  rw [fires, fires, h, List.filterMap_append]
  exact List.append_nil _

theorem begun_begun {w v : Timers τ} {call : StartCall τ} {time : Nat}
    (h : v.log = w.log ++ [.begun call time]) : v.begun = w.begun ++ [call.task.draw] := by
  rw [begun, begun, h, List.filterMap_append]
  rfl

theorem fires_begun {w v : Timers τ} {call : StartCall τ} {time : Nat}
    (h : v.log = w.log ++ [.begun call time]) : v.fires = w.fires := by
  rw [fires, fires, h, List.filterMap_append]
  exact List.append_nil _

theorem begun_fired {w v : Timers τ} {wait : TimerWait} {task : DrawnTask τ} {time : Nat}
    (h : v.log = w.log ++ [.fired wait task time]) : v.begun = w.begun := by
  rw [begun, begun, h, List.filterMap_append]
  exact List.append_nil _

theorem fires_fired {w v : Timers τ} {wait : TimerWait} {task : DrawnTask τ} {time : Nat}
    (h : v.log = w.log ++ [.fired wait task time]) : v.fires = w.fires ++ [(wait, task)] := by
  rw [fires, fires, h, List.filterMap_append]
  rfl

/-! ### Arming a wait -/

theorem Fired.cancel {w : Timers τ} (h : w.Fired) (timer : Nat) : (w.cancel timer).Fired :=
  h.of_subperm ((owed_cancel_sublist w timer).append_right _).subperm (Nat.le_refl _) h.own_task

theorem Fired.asyncWait {w : Timers τ} (h : w.Fired) (timerId : UInt32) (timer : Nat)
    (seconds : UInt32) : (w.asyncWait timerId timer seconds).Fired := by
  have hc := h.cancel timer
  have hperm := (owed_asyncWait w timerId timer seconds).append_right (w.fires.map Prod.fst)
  refine ⟨?_, ?_, h.own_task⟩
  · refine ((hperm.map _).nodup_iff.mpr ?_)
    rw [List.cons_append, List.map_cons]
    refine List.nodup_cons.mpr ⟨fun hin => ?_, hc.nodup⟩
    obtain ⟨wait, hwait, hserial⟩ := List.mem_map.mp hin
    have hlt := hc.lt_serials wait hwait
    rw [hserial] at hlt
    exact absurd hlt (Nat.lt_irrefl _)
  · intro wait hwait
    rcases List.mem_cons.mp (hperm.mem_iff.mp hwait) with rfl | hin
    · exact Nat.lt_succ_self _
    · exact Nat.lt_succ_of_lt (hc.lt_serials wait hin)

/-- How many waits of an id a wait on another timer leaves. -/
theorem countP_cancel {w : Timers τ} {timer : Nat} {id : UInt32}
    (h : ∀ wait ∈ w.owed, wait.timer = timer → wait.timerId ≠ id) :
    (w.cancel timer).owed.countP (fun wait => wait.timerId = id) =
      w.owed.countP (fun wait => wait.timerId = id) := by
  rw [List.countP_eq_length_filter, List.countP_eq_length_filter, filter_owed_cancel]
  intro wait hin heq
  exact decide_eq_false (h wait (List.mem_append_left _ hin) heq)

/-- A timer's waits carry its own id. -/
theorem Armed.other {w : Timers τ} (h : w.Armed) (draw : Nat) (id : UInt32)
    (hne : timerIdOf draw ≠ id) : ∀ wait ∈ w.owed, wait.timer = draw → wait.timerId ≠ id := by
  intro wait hin heq
  rw [← (h.wait wait hin).1, heq]
  exact hne

/-- No entry stands under an id that is new. -/
theorem Armed.find_new {w : Timers τ} (h : w.Armed) {id : UInt32}
    (hnew : ∀ draw ∈ w.begun, timerIdOf draw ≠ id) : w.itimer.find id = none := by
  cases hfind : w.itimer.find id with
  | none => rfl
  | some info =>
    obtain ⟨hid, hin⟩ := h.entry _ _ hfind
    exact absurd hid (hnew _ hin)

/-- No wait is outstanding under it, and none belongs to its timer. -/
theorem Armed.owed_new {w : Timers τ} (h : w.Armed) {id : UInt32}
    (hnew : ∀ draw ∈ w.begun, timerIdOf draw ≠ id) : ∀ wait ∈ w.owed,
      wait.timerId ≠ id ∧ timerIdOf wait.timer ≠ id := by
  intro wait hin
  obtain ⟨hid, hbegun⟩ := h.wait wait hin
  exact ⟨hid ▸ hnew _ hbegun, hnew _ hbegun⟩

/-- While its task runs an entry has no wait. -/
theorem Armed.no_wait {w : Timers τ} (h : w.Armed) {timerId : UInt32}
    (hr : w.running = some timerId) : ∀ wait ∈ w.owed, wait.timerId ≠ timerId := by
  intro wait hin heq
  have hzero := h.one timerId (h.running _ hr)
  rw [if_pos hr] at hzero
  exact List.countP_eq_zero.mp hzero wait hin (decide_eq_true heq)

/-- **A wait is armed** for an entry that has none. -/
theorem Armed.arm {w v : Timers τ} (h : w.Armed) {wait : TimerWait}
    (hown : timerIdOf wait.timer = wait.timerId)
    (howed : v.owed.Perm (wait :: (w.cancel wait.timer).owed))
    (hfree : ∀ wait' ∈ w.owed, wait'.timerId ≠ wait.timerId)
    (hentry : ∀ info, v.itimer.find wait.timerId = some info → info.task.draw = wait.timer)
    (hfind : ∀ id, id ≠ wait.timerId → v.itimer.find id = w.itimer.find id)
    (hw : ∀ id, w.running = some id → id = wait.timerId) (hrunning : v.running = none)
    (hbegun : w.begun ⊆ v.begun) (hdraw : wait.timer ∈ v.begun) : v.Armed := by
  refine ⟨?_, ?_, ?_, ?_⟩
  · intro id info hid
    by_cases heq : id = wait.timerId
    · subst heq
      rw [hentry info hid]
      exact ⟨hown, hdraw⟩
    · rw [hfind id heq] at hid
      exact ⟨(h.entry id info hid).1, hbegun (h.entry id info hid).2⟩
  · intro wait' hin
    rcases List.mem_cons.mp (howed.mem_iff.mp hin) with rfl | hin
    · exact ⟨hown, hdraw⟩
    · obtain ⟨hid, hb⟩ := h.wait wait' ((owed_cancel_sublist ..).subset hin)
      exact ⟨hid, hbegun hb⟩
  · intro id hid
    have hidle : (if v.running = some id then 0 else 1) = 1 := if_neg (by simp [hrunning])
    rw [hidle, howed.countP_eq, List.countP_cons]
    by_cases heq : id = wait.timerId
    · have hnone : (w.cancel wait.timer).owed.countP (fun wait => wait.timerId = id) = 0 := by
        apply List.countP_eq_zero.mpr
        intro wait' hin hwid
        refine hfree wait' ((owed_cancel_sublist ..).subset hin) ?_
        exact (of_decide_eq_true hwid).trans heq
      rw [hnone, if_pos (decide_eq_true heq.symm)]
    · rw [hfind id heq] at hid
      have hone := h.one id hid
      rw [if_neg (fun hr => heq (hw id hr))] at hone
      rw [countP_cancel (h.other wait.timer id (hown ▸ Ne.symm heq)), hone,
        if_neg (by simp [Ne.symm heq])]
  · intro id hid
    exact absurd (hrunning.symm.trans hid) (by simp)

/-- **`start_timer_impl` of a new id arms one wait.** -/
theorem Armed.startTimerImpl {w : Timers τ} (h : w.Armed) (hidle : w.running = none)
    {call : StartCall τ} (hnew : ∀ draw ∈ w.begun, timerIdOf draw ≠ timerIdOf call.task.draw) :
    (w.startTimerImpl call).Armed := by
  have hv := begins_of_new (h.find_new hnew)
  have hbegun := begun_begun hv.log
  refine h.arm rfl hv.owed ?_ ?_ ?_ ?_ (hv.running.trans hidle) ?_ ?_
  · exact fun wait hin => (h.owed_new hnew wait hin).1
  · intro info hid
    rw [hv.find, if_pos rfl] at hid
    rw [← Option.some.inj hid]
  · intro id hne
    rw [hv.find, if_neg hne]
  · intro id hid
    exact absurd (hidle.symm.trans hid) (by simp)
  · rw [hbegun]
    exact List.subset_append_left ..
  · rw [hbegun]
    exact List.mem_append_right _ List.mem_cons_self

/-- What takes an entry takes its waits. -/
theorem Armed.erased {w v : Timers τ} (h : w.Armed) {timerId : UInt32}
    {info : TimerInfo (DrawnTask τ)} (hfound : w.itimer.find timerId = some info)
    (hw : ∀ id, w.running = some id → id = timerId)
    (hfind : ∀ id, v.itimer.find id = if id = timerId then none else w.itimer.find id)
    (howed : v.owed = (w.cancel info.task.draw).owed) (hrunning : v.running = none)
    (hbegun : v.begun = w.begun) : v.Armed := by
  have hown := (h.entry _ _ hfound).1
  refine ⟨?_, ?_, ?_, ?_⟩
  · intro id info' hid
    rw [hfind] at hid
    rw [hbegun]
    split at hid
    · exact absurd hid (by simp)
    · exact h.entry id info' hid
  · intro wait hin
    rw [howed] at hin
    rw [hbegun]
    exact h.wait wait ((owed_cancel_sublist ..).subset hin)
  · intro id hid
    rw [hfind] at hid
    by_cases hne : id = timerId
    · rw [if_pos hne] at hid
      exact absurd rfl hid
    · rw [if_neg hne] at hid
      have hone := h.one id hid
      rw [if_neg (fun hrun => hne (hw id hrun))] at hone
      have hother := h.other info.task.draw id (by rw [hown]; exact Ne.symm hne)
      rw [howed, countP_cancel hother, hone, hrunning, if_neg (by simp)]
  · intro id hid
    exact absurd (hrunning.symm.trans hid) (by simp)

/-- **`stop_timer_impl` takes the entry and its wait.** -/
theorem Armed.stopTimerImpl {w : Timers τ} (h : w.Armed) (hidle : w.running = none)
    (timerId : UInt32) : (w.stopTimerImpl timerId).Armed := by
  rcases w.stopTimerImpl_cases timerId with ⟨-, hsame⟩ | ⟨info, hfound, hstopped⟩
  · rw [hsame]
    exact h
  · rw [hstopped]
    refine h.erased hfound ?_ (Itimer.find_erase w.itimer timerId) rfl hidle rfl
    intro id hid
    exact absurd (hidle.symm.trans hid) (by simp)

/-- **A task begins on the wait that its entry had.** -/
theorem Armed.onTimer {w v : Timers τ} (h : w.Armed) (hidle : w.running = none)
    {wait : TimerWait} {info : TimerInfo (DrawnTask τ)}
    (hfound : w.itimer.find wait.timerId = some info) (howed : w.owed.Perm (wait :: v.owed))
    (hfind : v.itimer.find = w.itimer.find) (hrunning : v.running = some wait.timerId)
    (hbegun : v.begun = w.begun) : v.Armed := by
  refine ⟨?_, ?_, ?_, ?_⟩
  · intro id info' hid
    rw [hbegun]
    exact h.entry id info' (hfind ▸ hid)
  · intro wait' hin
    rw [hbegun]
    exact h.wait wait' (howed.mem_iff.mpr (List.mem_cons_of_mem _ hin))
  · intro id hid
    have hone := h.one id (hfind ▸ hid)
    rw [howed.countP_eq, List.countP_cons, hidle, if_neg (by simp : ¬ (none : Option UInt32) = some id)] at hone
    rw [hrunning]
    by_cases heq : wait.timerId = id
    · rw [if_pos (decide_eq_true heq)] at hone
      rw [if_pos (congrArg some heq)]
      omega
    · rw [if_neg (by simp [heq])] at hone
      rw [if_neg (by simp [heq])]
      exact hone
  · intro id hid
    rw [hrunning] at hid
    rw [hfind, ← Option.some.inj hid, hfound]
    simp

/-- **`reschedule_timer` arms the entry anew or takes it.** -/
theorem Armed.rescheduleTimer {w : Timers τ} (h : w.Armed) {timerId : UInt32}
    (hrunning : w.running = some timerId) :
    (rescheduleTimer { w with running := none } timerId).Armed := by
  obtain ⟨info, hfound⟩ := Option.ne_none_iff_exists'.mp (h.running _ hrunning)
  obtain ⟨hown, hdraw⟩ := h.entry _ _ hfound
  have hv := reschedules_of_find hfound
  have hbegun := begun_rescheduled hv.log
  have hw : ∀ id, w.running = some id → id = timerId := by
    intro id hid
    exact Option.some.inj (hid.symm.trans hrunning)
  by_cases hzero : info.intervalSeconds = 0
  · refine h.erased hfound hw (fun id => ?_) (hv.removed hzero) hv.running hbegun
    rw [hv.find]
    simp [hzero]
  · have hfind : ∀ id, Itimer.find (Timers.rescheduleTimer { w with running := none } timerId).itimer
        id = w.itimer.find id := by
      intro id
      rw [hv.find, if_neg (fun hand => hzero hand.1)]
    refine h.arm hown (hv.waits hzero) (h.no_wait hrunning) ?_ (fun id _ => hfind id) hw
      hv.running ?_ ?_
    · intro info' hid
      rw [hfind] at hid
      rw [Option.some.inj (hid.symm.trans hfound)]
    · rw [hbegun]
      exact List.Subset.refl _
    · rw [hbegun]
      exact hdraw

/-! ### Every run -/

theorem log_startTimerImpl (w : Timers τ) (call : StartCall τ) :
    (w.startTimerImpl call).log = w.log ++ [.begun call w.clock] := by
  rw [startTimerImpl, Itimer.startTimerImpl_eq]
  cases w.itimer.find (timerIdOf call.task.draw) with
  | none => rfl
  | some old => rfl

/-- What the calls see of `start_timer_impl`. -/
theorem draws_startTimerImpl {w : Timers τ} {call : StartCall τ}
    (hnone : w.itimer.find (timerIdOf call.task.draw) = none) :
    (w.startTimerImpl call).draws.Perm (call.task.draw :: w.draws) ∧
      (w.startTimerImpl call).itimer.curTimerId = w.itimer.curTimerId := by
  have hbegun := begun_begun (log_startTimerImpl w call)
  rw [startTimerImpl_of_new hnone] at hbegun ⊢
  refine ⟨?_, rfl⟩
  rw [draws, hbegun]
  show (List.map _ w.starting ++ (w.posted.filterMap posting ++ (w.begun ++ [call.task.draw]))).Perm _
  rw [← List.append_assoc, ← List.append_assoc]
  refine (List.perm_append_singleton _ _).trans ?_
  rw [List.append_assoc]
  exact List.Perm.refl _

/-- A posted `start_timer_impl` is the only one of its id. -/
theorem Calls.posted_new {w : Timers τ} (h : w.Calls) (hcur : w.itimer.curTimerId < 2 ^ 32)
    {call : StartCall τ} {rest : List (PostedTimerTask τ)}
    (hp : w.posted = .startTimerImpl call :: rest) :
    (∀ draw ∈ w.begun, timerIdOf draw ≠ timerIdOf call.task.draw) ∧
      w.draws.Perm (call.task.draw :: draws { w with posted := rest }) := by
  have hperm : w.draws.Perm (call.task.draw :: draws { w with posted := rest }) := by
    rw [draws, hp, List.filterMap_cons]
    exact List.perm_middle
  refine ⟨fun draw hdraw heq => ?_, hperm⟩
  have hcall : call.task.draw ∈ w.draws := hperm.mem_iff.mpr List.mem_cons_self
  have hsame := h.inj hcur (begun_subset_draws w hdraw) hcall heq
  have hnodup := hperm.nodup_iff.mp h.nodup
  rw [← hsame] at hnodup
  exact (List.nodup_cons.mp hnodup).1
    (begun_subset_draws (w := { w with posted := rest }) hdraw)

theorem Calls.step {w v : Timers τ} {e : TimerEvent τ} (h : w.Calls) (ha : w.Armed)
    (hcur : w.itimer.curTimerId < 2 ^ 32) (hm : w.Moves e v) : v.Calls := by
  cases hm with
  | startDraw task delay interval => exact h.draw task delay interval
  | startPost i call hi =>
    refine h.congr ?_ rfl
    obtain ⟨hlt, rfl⟩ := List.getElem?_eq_some_iff.mp hi
    have hperm := ((List.getElem_cons_eraseIdx_perm hlt).map (fun c => c.task.draw)).append_right
      (w.posted.filterMap posting ++ w.begun)
    refine List.Perm.trans ?_ hperm
    show ((w.starting.eraseIdx i).map _ ++ ((w.posted ++ _).filterMap posting ++ w.begun)).Perm _
    rw [List.filterMap_append, List.append_assoc, List.map_cons, List.cons_append]
    refine (List.Perm.append_left _ List.perm_middle).trans ?_
    exact List.perm_middle
  | stopTimer timerId =>
    refine h.congr ?_ rfl
    show (_ ++ ((w.posted ++ _).filterMap posting ++ w.begun)).Perm _
    rw [List.filterMap_append]
    show (_ ++ ((w.posted.filterMap posting ++ []) ++ w.begun)).Perm _
    rw [List.append_nil]
    exact List.Perm.refl _
  | advance time => exact h.congr (List.Perm.refl _) rfl
  | expire i wait hi => exact h.congr (List.Perm.refl _) rfl
  | runStart call rest hidle hp =>
    obtain ⟨hnew, hperm⟩ := h.posted_new hcur hp
    have hnone := ha.find_new hnew
    obtain ⟨hdraws, hsame⟩ := draws_startTimerImpl (w := { w with posted := rest }) hnone
    exact h.congr (hdraws.trans hperm.symm) hsame
  | runStop timerId rest hidle hp =>
    have hdraws : draws { w with posted := rest } = w.draws := by
      rw [draws, draws, hp, List.filterMap_cons]
      rfl
    have hrest : Calls { w with posted := rest } := h.congr (hdraws ▸ List.Perm.refl _) rfl
    rcases stopTimerImpl_cases { w with posted := rest } timerId with
      ⟨-, hsame⟩ | ⟨info, -, hstopped⟩
    · rw [hsame]
      exact hrest
    · rw [hstopped]
      exact hrest.congr (List.Perm.refl _) rfl
  | pass i wait ec hidle hi hec => exact h.congr (List.Perm.refl _) rfl
  | fire i wait info hidle hi hfound =>
    refine h.congr ?_ rfl
    rw [draws, begun_fired (w := w) rfl]
    exact List.Perm.refl _
  | taskReturns timerId hr =>
    obtain ⟨info, hfound⟩ := Option.ne_none_iff_exists'.mp (ha.running _ hr)
    rw [rescheduleTimer_of_find (w := { w with running := none }) hfound]
    split
    · refine h.congr ?_ rfl
      rw [draws, begun_rescheduled (w := w) rfl]
      exact List.Perm.refl _
    · refine h.congr ?_ rfl
      rw [draws, begun_rescheduled (w := w) rfl]
      exact List.Perm.refl _

theorem Armed.step {w v : Timers τ} {e : TimerEvent τ} (h : w.Armed) (hc : w.Calls)
    (hcur : w.itimer.curTimerId < 2 ^ 32) (hm : w.Moves e v) : v.Armed := by
  cases hm with
  | startDraw task delay interval => exact h.congr rfl (List.Perm.refl _) rfl rfl
  | startPost i call hi => exact h.congr rfl (List.Perm.refl _) rfl rfl
  | stopTimer timerId => exact h.congr rfl (List.Perm.refl _) rfl rfl
  | advance time => exact h.congr rfl (List.Perm.refl _) rfl rfl
  | expire i wait hi => exact h.congr rfl (owed_expire w hi) rfl rfl
  | runStart call rest hidle hp =>
    have hrest : Armed { w with posted := rest } := h.congr rfl (List.Perm.refl _) rfl rfl
    exact hrest.startTimerImpl hidle (hc.posted_new hcur hp).1
  | runStop timerId rest hidle hp =>
    have hrest : Armed { w with posted := rest } := h.congr rfl (List.Perm.refl _) rfl rfl
    exact hrest.stopTimerImpl hidle timerId
  | pass i wait ec hidle hi hec =>
    have hperm := owed_eraseIdx w hi
    cases ec with
    | true => exact h.congr rfl hperm.symm rfl rfl
    | false =>
      -- the entry is gone, so the wait counts for nobody
      have hgone : w.itimer.find wait.timerId = none := hec.resolve_left (by simp)
      refine ⟨h.entry, fun wait' hin => ?_, fun id hid => ?_, h.running⟩
      · exact h.wait wait' (hperm.mem_iff.mpr (List.mem_append_right _ hin))
      · have hne : wait.timerId ≠ id := by
          rintro rfl
          exact hid hgone
        have hone := h.one id hid
        rw [hperm.countP_eq] at hone
        rw [← hone]
        exact (List.countP_cons_of_neg (by simp [hne])).symm
  | fire i wait info hidle hi hfound =>
    exact h.onTimer hidle hfound (owed_eraseIdx w hi) rfl rfl (begun_fired rfl)
  | taskReturns timerId hr => exact h.rescheduleTimer hr

theorem Fired.step {w v : Timers τ} {e : TimerEvent τ} (h : w.Fired) (ha : w.Armed)
    (hc : w.Calls) (hcur : w.itimer.curTimerId < 2 ^ 32) (hm : w.Moves e v) : v.Fired := by
  cases hm with
  | startDraw task delay interval => exact h.congr (List.Perm.refl _) rfl rfl
  | startPost i call hi => exact h.congr (List.Perm.refl _) rfl rfl
  | stopTimer timerId => exact h.congr (List.Perm.refl _) rfl rfl
  | advance time => exact h.congr (List.Perm.refl _) rfl rfl
  | expire i wait hi => exact h.congr (owed_expire w hi) rfl rfl
  | runStart call rest hidle hp =>
    have hnone := ha.find_new (hc.posted_new hcur hp).1
    rw [startTimerImpl_of_new (w := { w with posted := rest }) hnone]
    refine Fired.asyncWait ?_ _ _ _
    exact h.congr (List.Perm.refl _) rfl (fires_begun (w := w) rfl)
  | runStop timerId rest hidle hp =>
    have hrest : Fired { w with posted := rest } := h.congr (List.Perm.refl _) rfl rfl
    rcases stopTimerImpl_cases { w with posted := rest } timerId with
      ⟨-, hsame⟩ | ⟨info, -, hstopped⟩
    · rw [hsame]
      exact hrest
    · rw [hstopped]
      exact (hrest.cancel info.task.draw).congr (List.Perm.refl _) rfl rfl
  | pass i wait ec hidle hi hec =>
    refine h.of_subperm (List.Subperm.append ?_ (List.Subperm.refl _)) (Nat.le_refl _) h.own_task
    exact (List.sublist_append_right _ _).subperm.trans (owed_eraseIdx w hi).symm.subperm
  | fire i wait info hidle hi hfound =>
    have hfires : fires { w with
        completed := w.completed.eraseIdx i
        running := some wait.timerId
        log := w.log ++ [.fired wait info.task w.clock] } = w.fires ++ [(wait, info.task)] :=
      fires_fired rfl
    have hperm := owed_eraseIdx w hi
    refine h.of_subperm ?_ (Nat.le_refl _) ?_
    · rw [hfires, List.map_append, ← List.append_assoc]
      refine ((List.perm_append_singleton _ _).trans ?_).subperm
      exact (hperm.append_right _).symm
    · intro fire hin
      rw [hfires] at hin
      rcases List.mem_append.mp hin with hin | hin
      · exact h.own_task fire hin
      · -- both numbers were drawn, and they give the same id
        rw [List.mem_singleton.mp hin]
        obtain ⟨hid, hb⟩ := ha.entry _ _ hfound
        obtain ⟨hwid, hwb⟩ := ha.wait wait (hperm.mem_iff.mpr List.mem_cons_self)
        exact hc.inj hcur (begun_subset_draws w hb) (begun_subset_draws w hwb)
          (hid.trans hwid.symm)
  | taskReturns timerId hr =>
    obtain ⟨info, hfound⟩ := Option.ne_none_iff_exists'.mp (ha.running _ hr)
    rw [rescheduleTimer_of_find (w := { w with running := none }) hfound]
    split
    · refine Fired.cancel ?_ _
      exact h.congr (List.Perm.refl _) rfl (fires_rescheduled (w := w) rfl)
    · refine Fired.asyncWait ?_ _ _ _
      exact h.congr (List.Perm.refl _) rfl (fires_rescheduled (w := w) rfl)

theorem Kept.step {w v : Timers τ} {e : TimerEvent τ} (h : w.Kept)
    (hcur : w.itimer.curTimerId < 2 ^ 32) (hm : w.Moves e v) : v.Kept :=
  ⟨h.calls.step h.armed hcur hm, h.armed.step h.calls hcur hm,
    h.fired.step h.armed h.calls hcur hm⟩

theorem Moves.curTimerId_le {w v : Timers τ} {e : TimerEvent τ} (hm : w.Moves e v) :
    w.itimer.curTimerId ≤ v.itimer.curTimerId := by
  cases hm with
  | startDraw task delay interval => exact Nat.le_succ _
  | runStart call rest hidle hp =>
    rw [startTimerImpl, Itimer.startTimerImpl_eq]
    cases w.itimer.find (timerIdOf call.task.draw) with
    | none => exact Nat.le_refl _
    | some old => exact Nat.le_refl _
  | runStop timerId rest hidle hp =>
    rcases stopTimerImpl_cases { w with posted := rest } timerId with
      ⟨-, hsame⟩ | ⟨info, -, hstopped⟩
    · rw [hsame]
    · rw [hstopped]
      exact Nat.le_refl _
  | taskReturns timerId hr =>
    cases hfound : w.itimer.find timerId with
    | none => rw [rescheduleTimer_of_none (w := { w with running := none }) hfound]
    | some info =>
      rw [rescheduleTimer_of_find (w := { w with running := none }) hfound]
      split
      · exact Nat.le_refl _
      · exact Nat.le_refl _
  | startPost i call hi => exact Nat.le_refl _
  | stopTimer timerId => exact Nat.le_refl _
  | advance time => exact Nat.le_refl _
  | expire i wait hi => exact Nat.le_refl _
  | pass i wait ec hidle hi hec => exact Nat.le_refl _
  | fire i wait info hidle hi hfound => exact Nat.le_refl _

theorem curTimerId_run {w v : Timers τ} {es : List (TimerEvent τ)}
    (h : Run.run step w es = some v) : w.itimer.curTimerId ≤ v.itimer.curTimerId :=
  Run.run_invariant (I := fun u => w.itimer.curTimerId ≤ u.itimer.curTimerId)
    (fun _ _ _ hle _ hs => Nat.le_trans hle (moves_of_step hs).curTimerId_le) (Nat.le_refl _)
    (Run.along_true w es) h

/-- What every step keeps of a registry in order, a run keeps as long as the ids
last. -/
theorem kept_run {P : Timers τ → Prop}
    (hstep : ∀ w e v, Kept w → w.itimer.curTimerId < 2 ^ 32 → P w → w.Moves e v → P v)
    {w v : Timers τ} {es : List (TimerEvent τ)} (hw : w.Kept) (hp : P w)
    (h : Run.run step w es = some v) (hcur : v.itimer.curTimerId < 2 ^ 32) : v.Kept ∧ P v := by
  induction es generalizing w with
  | nil =>
    rw [← Option.some.inj h]
    exact ⟨hw, hp⟩
  | cons e es ih =>
    obtain ⟨u, hu, hrest⟩ := Run.run_cons h
    have hm := moves_of_step hu
    have hbound : w.itimer.curTimerId < 2 ^ 32 :=
      Nat.lt_of_le_of_lt (Nat.le_trans hm.curTimerId_le (curTimerId_run hrest)) hcur
    exact ih (hw.step hbound hm) (hstep w e u hw hbound hp hm) hrest

/-! ### Timers that have ended -/

/-- The timer of this id was started, and it is removed or about to be. -/
def Ended (timerId : UInt32) (w : Timers τ) : Prop :=
  (∃ draw ∈ w.begun, timerIdOf draw = timerId) ∧
  (w.itimer.find timerId = none ∨ w.running = some timerId ∧
    ∃ info, w.itimer.find timerId = some info ∧ info.intervalSeconds = 0)

theorem runsOf_of_fires {w v : Timers τ} (h : v.fires = w.fires) (timerId : UInt32) :
    v.runsOf timerId = w.runsOf timerId := by
  rw [runsOf, runsOf, h]

/-- **A timer that has ended does not run in the next step, and stays ended.** -/
theorem Ended.step {w v : Timers τ} {e : TimerEvent τ} {timerId : UInt32} (hw : w.Kept)
    (hcur : w.itimer.curTimerId < 2 ^ 32) (h : w.Ended timerId) (hm : w.Moves e v) :
    v.Ended timerId ∧ v.runsOf timerId = w.runsOf timerId := by
  obtain ⟨⟨draw, hdraw, hid⟩, hgone⟩ := h
  have hidle : w.running = none → w.itimer.find timerId = none := by
    intro hr
    rcases hgone with hgone | ⟨hrun, -⟩
    · exact hgone
    · exact absurd (hr.symm.trans hrun) (by simp)
  cases hm with
  | startDraw task delay interval => exact ⟨⟨⟨draw, hdraw, hid⟩, hgone⟩, rfl⟩
  | startPost i call hi => exact ⟨⟨⟨draw, hdraw, hid⟩, hgone⟩, rfl⟩
  | stopTimer id => exact ⟨⟨⟨draw, hdraw, hid⟩, hgone⟩, rfl⟩
  | advance time => exact ⟨⟨⟨draw, hdraw, hid⟩, hgone⟩, rfl⟩
  | expire i wait hi => exact ⟨⟨⟨draw, hdraw, hid⟩, hgone⟩, rfl⟩
  | pass i wait ec hr hi hec => exact ⟨⟨⟨draw, hdraw, hid⟩, hgone⟩, rfl⟩
  | runStart call rest hr hp =>
    obtain ⟨hnew, -⟩ := hw.calls.posted_new hcur hp
    have hv := begins_of_new (w := { w with posted := rest }) (hw.armed.find_new hnew)
    refine ⟨⟨⟨draw, ?_, hid⟩, .inl ?_⟩, runsOf_of_fires (fires_begun (w := w) hv.log) timerId⟩
    · rw [begun_begun (w := w) hv.log]
      exact List.mem_append_left _ hdraw
    · rw [hv.find, if_neg (hid ▸ hnew draw hdraw)]
      exact hidle hr
  | runStop id rest hr hp =>
    rcases stopTimerImpl_cases { w with posted := rest } id with
      ⟨-, hsame⟩ | ⟨info, -, hstopped⟩
    · rw [hsame]
      exact ⟨⟨⟨draw, hdraw, hid⟩, hgone⟩, rfl⟩
    · rw [hstopped]
      refine ⟨⟨⟨draw, hdraw, hid⟩, .inl ?_⟩, rfl⟩
      show Itimer.find (Itimer.erase _ _) timerId = none
      rw [Itimer.find_erase, hidle hr, ite_self]
  | fire i wait info hr hi hfound =>
    have hnone := hidle hr
    have hne : timerIdOf info.task.draw ≠ timerId := by
      rw [(hw.armed.entry _ _ hfound).1]
      rintro rfl
      exact absurd (hnone.symm.trans hfound) (by simp)
    refine ⟨⟨⟨draw, ?_, hid⟩, .inl hnone⟩, ?_⟩
    · rw [begun_fired (w := w) rfl]
      exact hdraw
    · have hother : [(wait, info.task)].countP (fun fire => timerIdOf fire.2.draw = timerId) = 0 :=
        List.countP_eq_zero.mpr (by simp [hne])
      rw [runsOf, fires_fired (w := w) rfl, List.countP_append, hother]
      rfl
  | taskReturns id hr =>
    obtain ⟨info, hfound⟩ := Option.ne_none_iff_exists'.mp (hw.armed.running _ hr)
    have hgone' : w.itimer.find timerId = none ∨ id = timerId ∧ info.intervalSeconds = 0 := by
      rcases hgone with hgone | ⟨hrun, info', hfound', hzero⟩
      · exact .inl hgone
      · obtain rfl := Option.some.inj (hr.symm.trans hrun)
        obtain rfl := Option.some.inj (hfound.symm.trans hfound')
        exact .inr ⟨rfl, hzero⟩
    have hv := reschedules_of_find hfound
    refine ⟨⟨⟨draw, ?_, hid⟩, .inl ?_⟩, runsOf_of_fires (fires_rescheduled hv.log) timerId⟩
    · rw [begun_rescheduled hv.log]
      exact hdraw
    · rw [hv.find]
      rcases hgone' with hnone | ⟨heq, hzero⟩
      · rw [hnone, ite_self]
      · rw [if_pos ⟨hzero, heq.symm⟩]

/-- The task of this id does not run from here on, as long as the ids last. -/
def Over (timerId : UInt32) (w : Timers τ) : Prop :=
  ∀ (es : List (TimerEvent τ)) (v : Timers τ), Run.run step w es = some v →
    v.itimer.curTimerId < 2 ^ 32 → v.runsOf timerId = w.runsOf timerId

theorem Ended.over {w : Timers τ} {timerId : UInt32} (hw : w.Kept) (h : w.Ended timerId) :
    w.Over timerId := by
  intro es v hv hcur
  have hrun := kept_run (P := fun u => u.Ended timerId ∧ u.runsOf timerId = w.runsOf timerId)
    (fun u e u' hu hbound hp hm => by
      obtain ⟨hended, hsame⟩ := hp.1.step hu hbound hm
      exact ⟨hended, hsame.trans hp.2⟩) hw ⟨h, rfl⟩ hv hcur
  exact hrun.2.2

/-! ### The main result -/

/-- Every entry whose task is not running has one wait that still fires, on its own
`steady_timer`; a wait fires once, and it fires the task of its own timer. -/
structure Sound (w : Timers τ) : Prop where
  one_wait : ∀ id info, w.itimer.find id = some info → w.running ≠ some id →
    ∃ wait, w.owed.filter (fun wait => wait.timerId = id) = [wait] ∧ wait.timer = info.task.draw
  fires_once : (w.fires.map (fun fire => fire.1.serial)).Nodup
  own_task : ∀ fire ∈ w.fires, fire.2.draw = fire.1.timer

theorem Kept.sound {w : Timers τ} (h : w.Kept) (hcur : w.itimer.curTimerId < 2 ^ 32) :
    w.Sound := by
  refine ⟨fun id info hfound hrun => ?_, ?_, h.fired.own_task⟩
  · have hone := h.armed.one id (by simp [hfound])
    rw [if_neg hrun, List.countP_eq_length_filter, List.length_eq_one_iff] at hone
    obtain ⟨wait, hwait⟩ := hone
    refine ⟨wait, hwait, ?_⟩
    have hin : wait ∈ w.owed.filter (fun wait => wait.timerId = id) := by
      rw [hwait]
      exact List.mem_singleton_self _
    obtain ⟨hin, hid⟩ := List.mem_filter.mp hin
    obtain ⟨hwid, hwb⟩ := h.armed.wait wait hin
    obtain ⟨heid, heb⟩ := h.armed.entry id info hfound
    exact h.calls.inj hcur (begun_subset_draws w hwb) (begun_subset_draws w heb)
      (hwid.trans ((of_decide_eq_true hid).trans heid.symm))
  · have hnodup := h.fired.nodup
    rw [List.map_append, List.map_map] at hnodup
    exact (List.nodup_append.mp hnodup).2.1

/-- **The registry of a timer object.**  In every run that starts fewer than `2 ^ 32`
timers the entries and the waits agree.  Once `stop_timer_impl` of a started id has
run, or a task with a zero interval has begun, that task does not begin again. -/
theorem registry_sound {es : List (TimerEvent τ)} {w : Timers τ}
    (h : Run.run step new es = some w) (hcur : w.itimer.curTimerId < 2 ^ 32) :
    w.Sound ∧
    (∀ timerId rest v, w.posted = .stopTimerImpl timerId :: rest →
      w.step .runPosted = some v → (∃ draw ∈ w.begun, timerIdOf draw = timerId) →
      v.Over timerId) ∧
    ∀ i wait info v, w.completed[i]? = some (wait, false) →
      w.itimer.find wait.timerId = some info → info.intervalSeconds = 0 →
      w.step (.runCompletion i) = some v → v.Over wait.timerId := by
  obtain ⟨hw, -⟩ := kept_run (P := fun _ => True) (fun _ _ _ _ _ _ _ => trivial) kept_new
    trivial h hcur
  refine ⟨hw.sound hcur, ?_, ?_⟩
  · intro timerId rest v hp hv hstarted
    have hm := moves_of_step hv
    refine Ended.over (hw.step hcur hm) ?_
    cases hm with
    | runStart call rest' hidle hp' => exact absurd (hp.symm.trans hp') (by simp)
    | runStop id rest' hidle hp' =>
      obtain ⟨rfl, rfl⟩ : timerId = id ∧ rest = rest' := by simpa using hp.symm.trans hp'
      rcases stopTimerImpl_cases { w with posted := rest } timerId with
        ⟨hnone, hsame⟩ | ⟨info, -, hstopped⟩
      · rw [hsame]
        exact ⟨hstarted, .inl hnone⟩
      · rw [hstopped]
        refine ⟨hstarted, .inl ?_⟩
        show Itimer.find (Itimer.erase _ _) timerId = none
        rw [Itimer.find_erase, if_pos rfl]
  · intro i wait info v hi hfound hzero hv
    have hm := moves_of_step hv
    refine Ended.over (hw.step hcur hm) ?_
    obtain ⟨hid, hb⟩ := hw.armed.entry _ _ hfound
    cases hm with
    | pass _ wait' ec hidle hi' hec =>
      obtain ⟨rfl, rfl⟩ : wait = wait' ∧ false = ec := by simpa using hi.symm.trans hi'
      have hnone := hec.resolve_left (by simp)
      exact absurd (hnone.symm.trans hfound) (by simp)
    | fire _ wait' info' hidle hi' hfound' =>
      obtain rfl : wait = wait' := by simpa using hi.symm.trans hi'
      refine ⟨⟨info.task.draw, ?_, hid⟩, .inr ⟨rfl, info, hfound, hzero⟩⟩
      rw [begun_fired (w := w) rfl]
      exact hb

/-- A timer that runs twice before it is stopped. -/
def stoppedRun : List (TimerEvent Unit) :=
  [.startDraw () 1 1, .startPost 0, .runPosted, .expire 0, .runCompletion 0, .taskReturns,
    .expire 0, .runCompletion 0, .taskReturns, .stopTimer 1]

theorem registry_sound_stopped :
    ∃ w v : Timers Unit, Run.run step new stoppedRun = some w ∧ w.step .runPosted = some v ∧
      w.runsOf 1 = 2 ∧ w.Sound ∧ v.Over 1 := by
  refine ⟨_, _, rfl, rfl, by decide, ?_⟩
  have h := registry_sound (show Run.run step new stoppedRun = some _ from rfl) (by decide)
  exact ⟨h.1, h.2.1 1 [] _ rfl rfl (by decide)⟩

/-- `stop_timer_impl` of an id that is not started yet stops nothing: its task runs
twice afterwards. -/
theorem stopped_too_early :
    ∃ v : Timers Unit, Run.run step new [.stopTimer 1, .runPosted] = some v ∧ ¬ v.Over 1 := by
  refine ⟨_, rfl, fun hover => ?_⟩
  have h := hover [.startDraw () 1 1, .startPost 0, .runPosted, .expire 0, .runCompletion 0,
    .taskReturns, .expire 0, .runCompletion 0] _ rfl (by decide)
  exact absurd h (by decide)

end Timers

end Ibase
