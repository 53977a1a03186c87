import Ibase.Lib.Run
import Ibase.Itimer

/-!
# A timer object among its threads and waits

`Timers` is an `itimer` with what asio keeps for it: the functions posted to the io
thread, the waits that are outstanding and the completions that are queued.  Any
thread may be in the middle of `start_timer`, the id drawn and the function not yet
posted.  A handler is two events when it runs a task: up to the task and from its
return on; in between the other threads, and the task itself, go on calling.

Cancelling a `steady_timer` makes its outstanding waits complete with an error; a
wait that has completed already keeps its success.  What the source does not have
here are the numbers by which a reader tells apart calls (`draw`) and waits
(`serial`), and the logs of what ran.
-/

namespace Ibase

/-- The `std::function` given to the call of `start_timer` that drew this number. -/
structure DrawnTask (τ : Type) where
  draw : Nat
  task : τ
  deriving DecidableEq, Repr

/-- A call of `start_timer`. -/
structure StartCall (τ : Type) where
  task : DrawnTask τ
  delaySeconds : UInt32
  intervalSeconds : UInt32
  deriving DecidableEq, Repr

/-- The id that the call returns, of which `draw` is the number not cut to 32 bits. -/
def timerIdOf (draw : Nat) : UInt32 := UInt32.ofNat draw

/-- A function posted by `start_timer` or `stop_timer`. -/
inductive PostedTimerTask (τ : Type) where
  | startTimerImpl (call : StartCall τ)
  | stopTimerImpl (timerId : UInt32)
  deriving DecidableEq, Repr

/-- An `async_wait`: the id that its handler carries, the `steady_timer` it was called
on, which `start_timer_impl` made for the call that drew `timer`, and its expiry. -/
structure TimerWait where
  serial : Nat
  timerId : UInt32
  timer : Nat
  due : Nat
  deriving DecidableEq, Repr

/-- What happens to the timer of the call that drew `draw`, and when. -/
inductive TimerEntry (τ : Type) where
  | begun (call : StartCall τ) (time : Nat)
  | fired (wait : TimerWait) (task : DrawnTask τ) (time : Nat)
  | rescheduled (draw : Nat) (time : Nat)
  deriving DecidableEq, Repr

structure Timers (τ : Type) where
  itimer : Itimer (DrawnTask τ)
  /-- The calls of `start_timer` that have not posted their function. -/
  starting : List (StartCall τ)
  posted : List (PostedTimerTask τ)
  waits : List TimerWait
  /-- The completions that are queued, and whether each carries an error. -/
  completed : List (TimerWait × Bool)
  /-- The id whose task is running. -/
  running : Option UInt32
  clock : Nat
  serials : Nat
  log : List (TimerEntry τ)

inductive TimerEvent (τ : Type) where
  /-- A thread, or a task, calls `start_timer`; the call goes on by `startPost`. -/
  | startDraw (task : τ) (delaySeconds intervalSeconds : UInt32)
  | startPost (call : Nat)
  | stopTimer (timerId : UInt32)
  | advance (time : Nat)
  | expire (wait : Nat)
  /-- The io thread runs the next posted function. -/
  | runPosted
  /-- The io thread runs a completion, up to the task. -/
  | runCompletion (completion : Nat)
  | taskReturns
  deriving DecidableEq, Repr

namespace Timers

variable {τ : Type}

def new : Timers τ := ⟨Itimer.new, [], [], [], [], none, 0, 0, []⟩

/-- `steady_timer::cancel`, and what its destructor does. -/
def cancel (w : Timers τ) (timer : Nat) : Timers τ :=
  { w with
    waits := w.waits.filter (fun wait => wait.timer ≠ timer)
    completed := w.completed ++
      (w.waits.filter (fun wait => wait.timer = timer)).map (fun wait => (wait, true)) }

/-- `expires_after` and `async_wait`. -/
def asyncWait (w : Timers τ) (timerId : UInt32) (timer : Nat) (seconds : UInt32) : Timers τ :=
  let w := w.cancel timer
  { w with
    waits := w.waits ++ [⟨w.serials, timerId, timer, w.clock + seconds.toNat * 1000000000⟩]
    serials := w.serials + 1 }

/-- `start_timer_impl`.  If there is an entry under that id, its `steady_timer` goes
with it. -/
def startTimerImpl (w : Timers τ) (call : StartCall τ) : Timers τ :=
  let timerId := timerIdOf call.task.draw
  let r := w.itimer.startTimerImpl timerId call.task call.delaySeconds call.intervalSeconds
  let w :=
    match w.itimer.find timerId with
    | none => w
    | some old => w.cancel old.task.draw
  let w := { w with itimer := r.1, log := w.log ++ [.begun call w.clock] }
  match r.2 with
  | none => w
  | some seconds => w.asyncWait timerId call.task.draw seconds

def stopTimerImpl (w : Timers τ) (timerId : UInt32) : Timers τ :=
  match w.itimer.find timerId with
  | none => w
  | some info =>
    { w.cancel info.task.draw with itimer := (w.itimer.stopTimerImpl timerId).1 }

/-- `on_timer` up to the task. -/
def onTimer (w : Timers τ) (wait : TimerWait) : Timers τ :=
  match w.itimer.find wait.timerId with
  | none => w
  | some info =>
    { w with
      running := some wait.timerId
      log := w.log ++ [.fired wait info.task w.clock] }

/-- `reschedule_timer`.  With the entry of a zero interval goes its `steady_timer`. -/
def rescheduleTimer (w : Timers τ) (timerId : UInt32) : Timers τ :=
  match w.itimer.find timerId with
  | none => w
  | some info =>
    let r := w.itimer.rescheduleTimer timerId
    let w : Timers τ :=
      { w with itimer := r.1, log := w.log ++ [.rescheduled info.task.draw w.clock] }
    match r.2 with
    | none => w.cancel info.task.draw
    | some seconds => w.asyncWait timerId info.task.draw seconds

/-- A posted function. -/
def runTask (w : Timers τ) : PostedTimerTask τ → Timers τ
  | .startTimerImpl call => w.startTimerImpl call
  | .stopTimerImpl timerId => w.stopTimerImpl timerId

/-- One event; `none` if it cannot happen. -/
def step (w : Timers τ) : TimerEvent τ → Option (Timers τ)
  | .startDraw task delaySeconds intervalSeconds =>
    let draw := w.itimer.curTimerId + 1
    some { w with
      itimer := { w.itimer with curTimerId := draw }
      starting := w.starting ++ [⟨⟨draw, task⟩, delaySeconds, intervalSeconds⟩] }
  | .startPost call =>
    w.starting[call]?.map (fun start =>
      { w with
        starting := w.starting.eraseIdx call
        posted := w.posted ++ [.startTimerImpl start] })
  | .stopTimer timerId => some { w with posted := w.posted ++ [.stopTimerImpl timerId] }
  | .advance time => some { w with clock := max w.clock time }
  | .expire wait =>
    w.waits[wait]?.map (fun expired =>
      { w with
        waits := w.waits.eraseIdx wait
        completed := w.completed ++ [(expired, false)] })
  | .runPosted =>
    match w.running, w.posted with
    | none, task :: rest => some ({ w with posted := rest }.runTask task)
    | _, _ => none
  | .runCompletion completion =>
    match w.running, w.completed[completion]? with
    | none, some (wait, ec) =>
      let w := { w with completed := w.completed.eraseIdx completion }
      some (if ec then w else w.onTimer wait)
    | _, _ => none
  | .taskReturns =>
    w.running.map (fun timerId => { w with running := none }.rescheduleTimer timerId)

/-! ### What a reader sees -/

/-- The waits that still fire: outstanding, or queued with success. -/
def owed (w : Timers τ) : List TimerWait :=
  w.waits ++ (w.completed.filter (fun c => c.2 = false)).map Prod.fst

/-- The calls whose `start_timer_impl` has run. -/
def begun (w : Timers τ) : List Nat :=
  w.log.filterMap (fun entry =>
    match entry with
    | .begun call _ => some call.task.draw
    | _ => none)

/-- The tasks that ran, each with the wait it ran for. -/
def fires (w : Timers τ) : List (TimerWait × DrawnTask τ) :=
  w.log.filterMap (fun entry =>
    match entry with
    | .fired wait task _ => some (wait, task)
    | _ => none)

def posting (task : PostedTimerTask τ) : Option Nat :=
  match task with
  | .startTimerImpl call => some call.task.draw
  | .stopTimerImpl _ => none

/-- The calls of `start_timer` so far. -/
def draws (w : Timers τ) : List Nat :=
  w.starting.map (fun call => call.task.draw) ++ (w.posted.filterMap posting ++ w.begun)

/-- How often the task of that id ran. -/
def runsOf (w : Timers τ) (timerId : UInt32) : Nat :=
  w.fires.countP (fun fire => timerIdOf fire.2.draw = timerId)

/-! ### The waits -/

theorem owed_cancel_sublist (w : Timers τ) (timer : Nat) : (w.cancel timer).owed.Sublist w.owed := by
  have haborted : ((w.waits.filter (fun wait => wait.timer = timer)).map
      (fun wait => (wait, true))).filter (fun c => c.2 = false) = [] := by
    rw [List.filter_map]
    simp
  rw [owed, owed, cancel]
  simp only [List.filter_append, haborted, List.append_nil]
  exact List.filter_sublist.append (List.Sublist.refl _)

/-- Cancelling a timer leaves the waits of the others. -/
theorem filter_owed_cancel (w : Timers τ) {timer : Nat} {p : TimerWait → Bool}
    (hp : ∀ wait ∈ w.waits, wait.timer = timer → p wait = false) :
    (w.cancel timer).owed.filter p = w.owed.filter p := by
  have haborted : ((w.waits.filter (fun wait => wait.timer = timer)).map
      (fun wait => (wait, true))).filter (fun c => c.2 = false) = [] := by
    rw [List.filter_map]
    simp
  have hkept : (w.waits.filter (fun wait => wait.timer ≠ timer)).filter p = w.waits.filter p := by
    rw [List.filter_filter]
    apply List.filter_congr
    intro wait hin
    by_cases heq : wait.timer = timer
    · rw [hp wait hin heq, Bool.false_and]
    · rw [decide_eq_true heq, Bool.and_true]
  rw [owed, owed, cancel]
  simp only [List.filter_append, haborted, List.append_nil, hkept]

theorem owed_asyncWait (w : Timers τ) (timerId : UInt32) (timer : Nat) (seconds : UInt32) :
    (w.asyncWait timerId timer seconds).owed.Perm
      (⟨w.serials, timerId, timer, w.clock + seconds.toNat * 1000000000⟩ ::
        (w.cancel timer).owed) := by
  show (((w.cancel timer).waits ++ _) ++ _).Perm _
  rw [List.append_assoc]
  exact List.perm_middle

theorem owed_expire (w : Timers τ) {wait : Nat} {expired : TimerWait}
    (h : w.waits[wait]? = some expired) :
    ({ w with
      waits := w.waits.eraseIdx wait
      completed := w.completed ++ [(expired, false)] } : Timers τ).owed.Perm w.owed := by
  obtain ⟨hlt, rfl⟩ := List.getElem?_eq_some_iff.mp h
  have hperm := List.getElem_cons_eraseIdx_perm hlt
  show (w.waits.eraseIdx wait ++
    (List.filter _ (w.completed ++ [(w.waits[wait], false)])).map Prod.fst).Perm _
  rw [List.filter_append, List.map_append, ← List.append_assoc]
  refine (List.perm_append_singleton _ _).trans ?_
  rw [← List.cons_append]
  exact hperm.append_right _

theorem owed_eraseIdx (w : Timers τ) {completion : Nat} {wait : TimerWait} {ec : Bool}
    (h : w.completed[completion]? = some (wait, ec)) :
    w.owed.Perm ((if ec then [] else [wait]) ++
      ({ w with completed := w.completed.eraseIdx completion } : Timers τ).owed) := by
  obtain ⟨hlt, heq⟩ := List.getElem?_eq_some_iff.mp h
  have hperm := List.getElem_cons_eraseIdx_perm hlt
  rw [heq] at hperm
  have hdone := (hperm.symm.filter (fun c => c.2 = false)).map Prod.fst
  have howed : w.owed.Perm (w.waits ++ (((wait, ec) :: w.completed.eraseIdx completion).filter
      (fun c => c.2 = false)).map Prod.fst) := hdone.append_left _
  cases ec with
  | true => exact howed
  | false => exact howed.trans List.perm_middle

/-! ### What happens in a step -/

/-- `start_timer_impl` of an id that has no entry. -/
theorem startTimerImpl_of_new {w : Timers τ} {call : StartCall τ}
    (h : w.itimer.find (timerIdOf call.task.draw) = none) :
    w.startTimerImpl call = asyncWait { w with
      itimer := w.itimer.insert (timerIdOf call.task.draw)
        ⟨call.task, call.delaySeconds, call.intervalSeconds⟩
      log := w.log ++ [.begun call w.clock] }
        (timerIdOf call.task.draw) call.task.draw call.intervalSeconds := by
  rw [startTimerImpl, Itimer.startTimerImpl_eq, h]

/-- What `stop_timer_impl` does. -/
theorem stopTimerImpl_cases (w : Timers τ) (timerId : UInt32) :
    w.itimer.find timerId = none ∧ w.stopTimerImpl timerId = w ∨
    ∃ info, w.itimer.find timerId = some info ∧ w.stopTimerImpl timerId =
      { w.cancel info.task.draw with itimer := w.itimer.erase timerId } := by
  rw [stopTimerImpl]
  cases hfound : w.itimer.find timerId with
  | none => exact .inl ⟨rfl, rfl⟩
  | some info =>
    rw [Itimer.stopTimerImpl_of_find hfound]
    exact .inr ⟨info, rfl, rfl⟩

/-- `reschedule_timer` of a zero interval and of another. -/
theorem rescheduleTimer_of_find {w : Timers τ} {timerId : UInt32}
    {info : TimerInfo (DrawnTask τ)} (h : w.itimer.find timerId = some info) :
    w.rescheduleTimer timerId =
      if info.intervalSeconds = 0 then
        cancel { w with
          itimer := w.itimer.erase timerId
          log := w.log ++ [.rescheduled info.task.draw w.clock] } info.task.draw
      else asyncWait { w with log := w.log ++ [.rescheduled info.task.draw w.clock] }
        timerId info.task.draw info.intervalSeconds := by
  rw [rescheduleTimer]
  simp only [h]
  rw [Itimer.rescheduleTimer_of_find h]
  by_cases hzero : info.intervalSeconds = 0
  · rw [if_pos hzero, if_pos hzero]
  · rw [if_neg hzero, if_neg hzero]

theorem rescheduleTimer_of_none {w : Timers τ} {timerId : UInt32}
    (h : w.itimer.find timerId = none) : w.rescheduleTimer timerId = w := by
  rw [rescheduleTimer, h]

/-- What `start_timer_impl` of a new id leaves of the registry. -/
structure Begins (w v : Timers τ) (call : StartCall τ) : Prop where
  log : v.log = w.log ++ [.begun call w.clock]
  posted : v.posted = w.posted
  running : v.running = w.running
  find : ∀ id, v.itimer.find id = if id = timerIdOf call.task.draw then
    some ⟨call.task, call.delaySeconds, call.intervalSeconds⟩ else w.itimer.find id
  owed : v.owed.Perm (⟨w.serials, timerIdOf call.task.draw, call.task.draw,
    w.clock + call.intervalSeconds.toNat * 1000000000⟩ :: (w.cancel call.task.draw).owed)

theorem begins_of_new {w : Timers τ} {call : StartCall τ}
    (h : w.itimer.find (timerIdOf call.task.draw) = none) :
    Begins w (w.startTimerImpl call) call := by
  rw [startTimerImpl_of_new h]
  refine ⟨rfl, rfl, rfl, fun id => ?_, owed_asyncWait ..⟩
  exact Itimer.find_insert ..

/-- What `reschedule_timer` leaves of it, after the task of this entry. -/
structure Reschedules (w v : Timers τ) (timerId : UInt32) (info : TimerInfo (DrawnTask τ)) :
    Prop where
  log : v.log = w.log ++ [.rescheduled info.task.draw w.clock]
  posted : v.posted = w.posted
  running : v.running = none
  find : ∀ id, v.itimer.find id =
    if info.intervalSeconds = 0 ∧ id = timerId then none else w.itimer.find id
  removed : info.intervalSeconds = 0 → v.owed = (w.cancel info.task.draw).owed
  waits : info.intervalSeconds ≠ 0 → v.owed.Perm (⟨w.serials, timerId, info.task.draw,
    w.clock + info.intervalSeconds.toNat * 1000000000⟩ :: (w.cancel info.task.draw).owed)

theorem reschedules_of_find {w : Timers τ} {timerId : UInt32} {info : TimerInfo (DrawnTask τ)}
    (h : w.itimer.find timerId = some info) :
    Reschedules w (rescheduleTimer { w with running := none } timerId) timerId info := by
  rw [rescheduleTimer_of_find (w := { w with running := none }) h]
  by_cases hzero : info.intervalSeconds = 0
  · rw [if_pos hzero]
    refine ⟨rfl, rfl, rfl, fun id => ?_, fun _ => rfl, fun hne => absurd hzero hne⟩
    refine (Itimer.find_erase w.itimer timerId id).trans ?_
    simp [hzero]
  · rw [if_neg hzero]
    refine ⟨rfl, rfl, rfl, fun id => ?_, fun heq => absurd heq hzero, fun _ => owed_asyncWait ..⟩
    rw [if_neg (fun hand => hzero hand.1)]
    rfl

/-- What an event does. -/
inductive Moves (w : Timers τ) : TimerEvent τ → Timers τ → Prop
  | startDraw (task : τ) (delay interval : UInt32) : Moves w (.startDraw task delay interval)
      { w with
        itimer := { w.itimer with curTimerId := w.itimer.curTimerId + 1 }
        starting := w.starting ++ [⟨⟨w.itimer.curTimerId + 1, task⟩, delay, interval⟩] }
  | startPost (i : Nat) (call : StartCall τ) (h : w.starting[i]? = some call) :
      Moves w (.startPost i)
        { w with
          starting := w.starting.eraseIdx i
          posted := w.posted ++ [.startTimerImpl call] }
  | stopTimer (timerId : UInt32) : Moves w (.stopTimer timerId)
      { w with posted := w.posted ++ [.stopTimerImpl timerId] }
  | advance (time : Nat) : Moves w (.advance time) { w with clock := max w.clock time }
  | expire (i : Nat) (wait : TimerWait) (h : w.waits[i]? = some wait) : Moves w (.expire i)
      { w with
        waits := w.waits.eraseIdx i
        completed := w.completed ++ [(wait, false)] }
  | runStart (call : StartCall τ) (rest : List (PostedTimerTask τ)) (hidle : w.running = none)
      (h : w.posted = .startTimerImpl call :: rest) :
      Moves w .runPosted (startTimerImpl { w with posted := rest } call)
  | runStop (timerId : UInt32) (rest : List (PostedTimerTask τ)) (hidle : w.running = none)
      (h : w.posted = .stopTimerImpl timerId :: rest) :
      Moves w .runPosted (stopTimerImpl { w with posted := rest } timerId)
  | pass (i : Nat) (wait : TimerWait) (ec : Bool) (hidle : w.running = none)
      (h : w.completed[i]? = some (wait, ec))
      (hec : ec = true ∨ w.itimer.find wait.timerId = none) :
      Moves w (.runCompletion i) { w with completed := w.completed.eraseIdx i }
  | fire (i : Nat) (wait : TimerWait) (info : TimerInfo (DrawnTask τ)) (hidle : w.running = none)
      (h : w.completed[i]? = some (wait, false))
      (hfound : w.itimer.find wait.timerId = some info) :
      Moves w (.runCompletion i)
        { w with
          completed := w.completed.eraseIdx i
          running := some wait.timerId
          log := w.log ++ [.fired wait info.task w.clock] }
  | taskReturns (timerId : UInt32) (h : w.running = some timerId) :
      Moves w .taskReturns (rescheduleTimer { w with running := none } timerId)

theorem moves_of_step {w v : Timers τ} {e : TimerEvent τ} (hs : w.step e = some v) :
    w.Moves e v := by
  cases e with
  | startDraw task delay interval =>
    rw [← Option.some.inj hs]
    exact .startDraw task delay interval
  | startPost i =>
    obtain ⟨call, h, rfl⟩ := Option.map_eq_some_iff.mp hs
    exact .startPost i call h
  | stopTimer timerId =>
    rw [← Option.some.inj hs]
    exact .stopTimer timerId
  | advance time =>
    rw [← Option.some.inj hs]
    exact .advance time
  | expire i =>
    obtain ⟨wait, h, rfl⟩ := Option.map_eq_some_iff.mp hs
    exact .expire i wait h
  | runPosted =>
    simp only [step] at hs
    split at hs
    · rename_i task rest hidle h
      rw [← Option.some.inj hs]
      cases task with
      | startTimerImpl call => exact .runStart call rest hidle h
      | stopTimerImpl timerId => exact .runStop timerId rest hidle h
    · exact absurd hs (by simp)
  | runCompletion i =>
    simp only [step] at hs
    split at hs
    · rename_i wait ec hidle h
      rw [← Option.some.inj hs]
      cases ec with
      | true => exact .pass i wait true hidle h (.inl rfl)
      | false =>
        cases hfound : w.itimer.find wait.timerId with
        | none =>
          simp only [onTimer, hfound]
          exact .pass i wait false hidle h (.inr hfound)
        | some info =>
          simp only [onTimer, hfound]
          exact .fire i wait info hidle h hfound
    · exact absurd hs (by simp)
  | taskReturns =>
    obtain ⟨timerId, h, rfl⟩ := Option.map_eq_some_iff.mp hs
    exact .taskReturns timerId h

end Timers

end Ibase
