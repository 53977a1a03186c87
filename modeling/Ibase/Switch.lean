import Ibase.Lib.Run
import Ibase.Client
import Ibase.Server

/-!
# Starting and stopping from many threads

`start` and `stop` stand word for word in the client and in the server.  `start`
posts `start_impl`, which tests and sets `started_` on the io thread; `stop` tests
and clears `started_` on its caller's thread and then posts `stop_impl`.  `Switch`
is what the two objects have in common there, and `Switching.step` is one step of
one thread.

A `stop` that has cleared `started_` owes its `stop_impl`.  As long as `start_impl`
sets `started_` only when none is owed, the check timer that stands once everything
posted has run is that of a started object (`Balanced`).
-/

namespace Ibase

/-- A function posted to the io thread; `ι` are the arguments of `start`. -/
inductive SwitchTask (ι : Type) where
  | startImpl (arg : ι)
  | stopImpl
  | timer (task : TimerTask)
  deriving DecidableEq

def SwitchTask.isStopImpl {ι : Type} : SwitchTask ι → Bool
  | startImpl _ => false
  | stopImpl => true
  | timer _ => false

/-- How far the io thread is in a `start_impl` that found `started_` false. -/
inductive StartPhase (ι : Type) where
  | tested (arg : ι)
  | written
  deriving DecidableEq

/-- `start_timer_impl` or `stop_timer_impl`. -/
def Itimer.runTask (t : Itimer Unit) : TimerTask → Itimer Unit
  | .startTimerImpl timerId delaySeconds intervalSeconds =>
    (t.startTimerImpl timerId () delaySeconds intervalSeconds).1
  | .stopTimerImpl timerId => (t.stopTimerImpl timerId).1

/-- What a function does to the entries does not depend on the ids drawn. -/
theorem Itimer.timers_runTask (t : Itimer Unit) (task : TimerTask) :
    (t.runTask task).timers = (Itimer.runTask ⟨0, t.timers⟩ task).timers := by
  cases task with
  | startTimerImpl timerId delay interval => rfl
  | stopTimerImpl timerId =>
    have hsame : (⟨0, t.timers⟩ : Itimer Unit).find timerId = t.find timerId := rfl
    rw [runTask, runTask, stopTimerImpl, stopTimerImpl, hsame]
    cases t.find timerId with
    | none => rfl
    | some info => rfl

/-- The entries of a timer object. -/
abbrev TimerEntries := List (UInt32 × TimerInfo Unit)

/-- The entry of a check timer. -/
def checkTimer (timerId : UInt32) : UInt32 × TimerInfo Unit := (timerId, ⟨(), 1, 1⟩)

/-- An object that is started and stopped.  `startWrite` is the first assignment of
`start_impl` and `startRest` what follows it. -/
structure Switch (σ ι : Type) where
  started : σ → Bool
  entries : σ → TimerEntries
  checkTimerId : σ → UInt32
  queue : σ → List (SwitchTask ι)
  setQueue : List (SwitchTask ι) → σ → σ
  clear : σ → σ
  startWrite : ι → σ → σ
  startRest : σ → σ
  stopImpl : σ → σ
  runTimer : TimerTask → σ → σ

/-- An object and the threads around it. -/
structure Switching (σ ι : Type) where
  obj : σ
  /-- How many threads in `stop` have found `started_` true, and how many of these
  have then cleared it. -/
  stopTested : Nat
  stopCleared : Nat
  starting : Option (StartPhase ι)

/-- One step of one thread. -/
inductive SwitchEvent (ι : Type) where
  | startPost (arg : ι)
  | stopTest
  | stopClear
  | stopPost
  /-- The io thread runs the next posted function, a `start_impl` up to its test. -/
  | run
  | startWrite
  | startRest
  deriving DecidableEq

namespace Switch

variable {σ ι : Type} (S : Switch σ ι)

def post (task : SwitchTask ι) (s : σ) : σ := S.setQueue (S.queue s ++ [task]) s

def step (w : Switching σ ι) : SwitchEvent ι → Option (Switching σ ι)
  | .startPost arg => some { w with obj := S.post (.startImpl arg) w.obj }
  | .stopTest => some (if S.started w.obj then { w with stopTested := w.stopTested + 1 } else w)
  | .stopClear =>
    if w.stopTested = 0 then none
    else
      some { w with
        obj := S.clear w.obj
        stopTested := w.stopTested - 1
        stopCleared := w.stopCleared + 1 }
  | .stopPost =>
    if w.stopCleared = 0 then none
    else some { w with obj := S.post .stopImpl w.obj, stopCleared := w.stopCleared - 1 }
  | .run =>
    match w.starting, S.queue w.obj with
    | none, .startImpl arg :: rest =>
      some (if S.started w.obj then { w with obj := S.setQueue rest w.obj }
        else { w with obj := S.setQueue rest w.obj, starting := some (.tested arg) })
    | none, .stopImpl :: rest => some { w with obj := S.stopImpl (S.setQueue rest w.obj) }
    | none, .timer task :: rest => some { w with obj := S.runTimer task (S.setQueue rest w.obj) }
    | _, _ => none
  | .startWrite =>
    match w.starting with
    | some (.tested arg) =>
      some { w with obj := S.startWrite arg w.obj, starting := some .written }
    | _ => none
  | .startRest =>
    match w.starting with
    | some .written => some { w with obj := S.startRest w.obj, starting := none }
    | _ => none

/-- No call is in progress and no function is posted. -/
def Quiet (w : Switching σ ι) : Prop :=
  w.stopTested = 0 ∧ w.stopCleared = 0 ∧ w.starting = none ∧ S.queue w.obj = []

/-- A started object has one check timer and knows its id; another has none. -/
def Checked (w : Switching σ ι) : Prop :=
  S.entries w.obj = if S.started w.obj then [checkTimer (S.checkTimerId w.obj)] else []

/-- How many calls of `stop` have cleared `started_` and not run their `stop_impl`. -/
def owed (w : Switching σ ι) : Nat :=
  w.stopCleared + (S.queue w.obj).countP SwitchTask.isStopImpl

/-- `start_impl` sets `started_` only when no `stop_impl` is owed. -/
def Orderly (w : Switching σ ι) (e : SwitchEvent ι) : Prop :=
  match e with
  | .startWrite => S.owed w = 0
  | _ => True

instance (w : Switching σ ι) (e : SwitchEvent ι) : Decidable (S.Orderly w e) :=
  match e with
  | .startWrite => inferInstanceAs (Decidable (S.owed w = 0))
  | .startPost _ | .stopTest | .stopClear | .stopPost | .run | .startRest => isTrue trivial

/-- What each function does to the flag, the check timer and the queue. -/
structure Lawful : Prop where
  setQueue : ∀ q s, S.started (S.setQueue q s) = S.started s ∧
    S.entries (S.setQueue q s) = S.entries s ∧
    S.checkTimerId (S.setQueue q s) = S.checkTimerId s ∧ S.queue (S.setQueue q s) = q
  clear : ∀ s, S.started (S.clear s) = false ∧ S.entries (S.clear s) = S.entries s ∧
    S.checkTimerId (S.clear s) = S.checkTimerId s ∧ S.queue (S.clear s) = S.queue s
  startWrite : ∀ arg s, S.started (S.startWrite arg s) = true ∧
    S.entries (S.startWrite arg s) = S.entries s ∧
    S.checkTimerId (S.startWrite arg s) = S.checkTimerId s ∧
    S.queue (S.startWrite arg s) = S.queue s
  startRest : ∀ s, S.started (S.startRest s) = S.started s ∧
    S.entries (S.startRest s) = S.entries s ∧
    S.queue (S.startRest s) =
      S.queue s ++ [.timer (.startTimerImpl (S.checkTimerId (S.startRest s)) 1 1)]
  stopImpl : ∀ s, S.started (S.stopImpl s) = S.started s ∧
    S.entries (S.stopImpl s) = S.entries s ∧
    S.queue (S.stopImpl s) = S.queue s ++ [.timer (.stopTimerImpl (S.checkTimerId s))]
  runTimer : ∀ task s, S.started (S.runTimer task s) = S.started s ∧
    S.entries (S.runTimer task s) = (Itimer.runTask ⟨0, S.entries s⟩ task).timers ∧
    S.checkTimerId (S.runTimer task s) = S.checkTimerId s ∧
    S.queue (S.runTimer task s) = S.queue s

/-! ### The check timer once everything posted has run -/

/-- The entries after a posted function. -/
def settle (entries : TimerEntries) : SwitchTask ι → TimerEntries
  | .timer task => (Itimer.runTask ⟨0, entries⟩ task).timers
  | _ => entries

/-- The entries once the queue is empty. -/
def settled (w : Switching σ ι) : TimerEntries := (S.queue w.obj).foldl settle (S.entries w.obj)

theorem settle_start (timerId : UInt32) :
    settle [] (.timer (.startTimerImpl timerId 1 1) : SwitchTask ι) = [checkTimer timerId] := rfl

/-- Stopping the timer that stands, or none. -/
theorem settle_stop {entries : TimerEntries} {timerId : UInt32}
    (h : entries = [] ∨ entries = [checkTimer timerId]) :
    settle entries (.timer (.stopTimerImpl timerId) : SwitchTask ι) = [] := by
  rcases h with rfl | rfl
  · rfl
  · have hfind : (⟨0, [checkTimer timerId]⟩ : Itimer Unit).find timerId = some ⟨(), 1, 1⟩ := by
      simp [Itimer.find, checkTimer]
    show (Itimer.stopTimerImpl _ timerId).1.timers = []
    rw [Itimer.stopTimerImpl_of_find hfind]
    simp [Itimer.erase, checkTimer]

/-- What `start` and `stop` keep of the entries once the queue is empty, the id, the
flag, the number of owed `stop_impl` and the `start_impl` that is running. -/
structure Balance (settled : TimerEntries) (timerId : UInt32) (started : Bool) (owed : Nat)
    (starting : Option (StartPhase ι)) : Prop where
  one : settled = [] ∨ settled = [checkTimer timerId]
  owed_of_started : started = true → owed = 0
  tested : ∀ arg, starting = some (.tested arg) → started = false
  written : starting = some .written → settled = [] ∧ (started = false → 0 < owed)
  on : started = true → starting ≠ some .written → settled ≠ []
  off : started = false → owed = 0 → settled = []

namespace Balance

variable {entries : TimerEntries} {timerId : UInt32} {started : Bool} {owed : Nat}
  {starting : Option (StartPhase ι)}

/-- **A `stop` that clears the flag owes a `stop_impl`.** -/
theorem clear (h : Balance entries timerId started owed starting) :
    Balance entries timerId false (owed + 1) starting := by
  refine ⟨h.one, ?_, ?_, ?_, ?_, ?_⟩
  · intro hon
    exact absurd hon (by simp)
  · intro _ _
    rfl
  · intro hw
    exact ⟨(h.written hw).1, fun _ => Nat.succ_pos owed⟩
  · intro hon
    exact absurd hon (by simp)
  · intro _ hzero
    exact absurd hzero (Nat.succ_ne_zero owed)

/-- **`stop_impl` stops the check timer.** -/
theorem stop (h : Balance entries timerId started (owed + 1) (none : Option (StartPhase ι)))
    (timerId' : UInt32) : Balance [] timerId' started owed (none : Option (StartPhase ι)) := by
  have hoff : started = true → False := fun hon => absurd (h.owed_of_started hon) (by omega)
  refine ⟨.inl rfl, fun hon => (hoff hon).elim, ?_, ?_, fun hon _ => (hoff hon).elim, ?_⟩
  · intro arg ht
    exact absurd ht (by simp)
  · intro hw
    exact absurd hw (by simp)
  · intro _ _
    rfl

theorem test (h : Balance entries timerId false owed (none : Option (StartPhase ι))) (arg : ι) :
    Balance entries timerId false owed (some (.tested arg)) := by
  refine ⟨h.one, h.owed_of_started, fun _ _ => rfl, ?_, ?_, h.off⟩
  · intro hw
    exact absurd hw (by simp)
  · intro hon
    exact absurd hon (by simp)

/-- **`start_impl` sets the flag** when no `stop_impl` is owed, so no timer stands. -/
theorem write {arg : ι} (h : Balance entries timerId started 0 (some (.tested arg))) :
    Balance entries timerId true 0 (some (.written : StartPhase ι)) := by
  have hnone := h.off (h.tested arg rfl) rfl
  refine ⟨h.one, fun _ => rfl, ?_, ?_, ?_, ?_⟩
  · intro arg' ht
    exact absurd ht (by simp)
  · intro _
    exact ⟨hnone, fun hoff => absurd hoff (by simp)⟩
  · intro _ hne
    exact absurd rfl hne
  · intro hoff
    exact absurd hoff (by simp)

/-- **The rest of `start_impl` starts the one check timer.** -/
theorem rest (h : Balance entries timerId started owed (some (.written : StartPhase ι)))
    (timerId' : UInt32) :
    Balance [checkTimer timerId'] timerId' started owed (none : Option (StartPhase ι)) := by
  refine ⟨.inr rfl, h.owed_of_started, ?_, ?_, ?_, ?_⟩
  · intro arg ht
    exact absurd ht (by simp)
  · intro hw
    exact absurd hw (by simp)
  · intro _ _
    simp
  · intro hoff hzero
    have hpos := (h.written rfl).2 hoff
    omega

end Balance

def Balanced (w : Switching σ ι) : Prop :=
  Balance (S.settled w) (S.checkTimerId w.obj) (S.started w.obj) (S.owed w) w.starting

variable {S}

/-- What is to come does not change when the function in front runs, and a function
that is posted comes last. -/
theorem settled_of_queue {w : Switching σ ι} {s : σ} {task : SwitchTask ι}
    {rest : List (SwitchTask ι)} (hw : S.queue w.obj = task :: rest) (hs : S.queue s = rest)
    (hentries : S.entries s = settle (S.entries w.obj) task) :
    (S.queue s).foldl settle (S.entries s) = S.settled w := by
  rw [settled, hw, hs, hentries]
  rfl

theorem settled_of_post {w : Switching σ ι} {s : σ} {task : SwitchTask ι}
    (hs : S.queue s = S.queue w.obj ++ [task]) (hentries : S.entries s = S.entries w.obj) :
    (S.queue s).foldl settle (S.entries s) = settle (S.settled w) task := by
  rw [settled, hs, hentries, List.foldl_append]
  rfl

/-- A function that is posted is owed if it is a `stop_impl`. -/
theorem owed_of_post {w : Switching σ ι} {s : σ} {task : SwitchTask ι}
    (hs : S.queue s = S.queue w.obj ++ [task]) :
    (S.queue s).countP SwitchTask.isStopImpl =
      (S.queue w.obj).countP SwitchTask.isStopImpl + if task.isStopImpl then 1 else 0 := by
  rw [hs, List.countP_append, List.countP_singleton]

/-- A function that runs was owed if it is a `stop_impl`. -/
theorem owed_of_queue {w : Switching σ ι} {s : σ} {task : SwitchTask ι}
    {rest : List (SwitchTask ι)} (hw : S.queue w.obj = task :: rest) (hs : S.queue s = rest) :
    (S.queue w.obj).countP SwitchTask.isStopImpl =
      (S.queue s).countP SwitchTask.isStopImpl + if task.isStopImpl then 1 else 0 := by
  rw [hw, hs, List.countP_cons]

/-- What a step has to show: what it does to the five things that `Balance` is about. -/
theorem Balanced.of_eq {v : Switching σ ι} {entries : TimerEntries} {timerId : UInt32}
    {started : Bool} {owed : Nat} {starting : Option (StartPhase ι)}
    (h : Balance entries timerId started owed starting) (hentries : S.settled v = entries)
    (htimerId : S.checkTimerId v.obj = timerId) (hstarted : S.started v.obj = started)
    (howed : S.owed v = owed) (hstarting : v.starting = starting) : S.Balanced v := by
  rw [Balanced, hentries, htimerId, hstarted, howed, hstarting]
  exact h

namespace Balanced

variable {w : Switching σ ι}

theorem startPost (L : S.Lawful) (h : S.Balanced w) (arg : ι) :
    S.Balanced { w with obj := S.post (.startImpl arg) w.obj } := by
  obtain ⟨hstarted, hentries, hid, hqueue⟩ :=
    L.setQueue (S.queue w.obj ++ [.startImpl arg]) w.obj
  refine .of_eq h (settled_of_post hqueue hentries) hid hstarted ?_ rfl
  exact congrArg (w.stopCleared + ·) (owed_of_post hqueue)

theorem stopClear (L : S.Lawful) (h : S.Balanced w) :
    S.Balanced { w with
      obj := S.clear w.obj, stopTested := w.stopTested - 1, stopCleared := w.stopCleared + 1 } := by
  obtain ⟨hstarted, hentries, hid, hqueue⟩ := L.clear w.obj
  refine .of_eq h.clear ?_ hid hstarted ?_ rfl
  · rw [settled, settled]
    simp only
    rw [hentries, hqueue]
  · rw [owed, owed]
    simp only
    rw [hqueue, Nat.add_right_comm]

theorem stopPost (L : S.Lawful) (h : S.Balanced w) (hpos : w.stopCleared ≠ 0) :
    S.Balanced { w with obj := S.post .stopImpl w.obj, stopCleared := w.stopCleared - 1 } := by
  obtain ⟨hstarted, hentries, hid, hqueue⟩ := L.setQueue (S.queue w.obj ++ [.stopImpl]) w.obj
  have hcount := owed_of_post hqueue
  refine .of_eq h (settled_of_post hqueue hentries) hid hstarted ?_ rfl
  rw [owed, owed]
  simp only [post]
  rw [hcount]
  show w.stopCleared - 1 + (_ + 1) = w.stopCleared + _
  omega

/-- `start_impl` runs up to its test. -/
theorem runStart (L : S.Lawful) (h : S.Balanced w) {arg : ι} {rest : List (SwitchTask ι)}
    (hidle : w.starting = none) (hq : S.queue w.obj = .startImpl arg :: rest) :
    S.Balanced (if S.started w.obj then { w with obj := S.setQueue rest w.obj }
      else { w with obj := S.setQueue rest w.obj, starting := some (.tested arg) }) := by
  obtain ⟨hstarted, hentries, hid, hqueue⟩ := L.setQueue rest w.obj
  have hsettled := settled_of_queue hq hqueue hentries
  have howed := congrArg (w.stopCleared + ·) (owed_of_queue hq hqueue).symm
  split
  · exact .of_eq h hsettled hid hstarted howed rfl
  · rename_i hoff
    rw [Balanced, hidle] at h
    rw [Bool.eq_false_of_not_eq_true hoff] at h hstarted
    exact .of_eq (h.test arg) hsettled hid hstarted howed rfl

theorem runStop (L : S.Lawful) (h : S.Balanced w) {rest : List (SwitchTask ι)}
    (hidle : w.starting = none) (hq : S.queue w.obj = .stopImpl :: rest) :
    S.Balanced { w with obj := S.stopImpl (S.setQueue rest w.obj) } := by
  obtain ⟨hset, hentries, hid, hqueue⟩ := L.setQueue rest w.obj
  obtain ⟨hstarted, hkept, hposted⟩ := L.stopImpl (S.setQueue rest w.obj)
  rw [hqueue, hid] at hposted
  have hsettled : S.settled { w with obj := S.stopImpl (S.setQueue rest w.obj) } = [] := by
    have hone := h.one
    rw [settled, hq] at hone
    rw [settled, hposted, hkept, hentries, List.foldl_append]
    exact settle_stop (ι := ι) hone
  have howed : S.owed w = S.owed { w with obj := S.stopImpl (S.setQueue rest w.obj) } + 1 := by
    rw [owed, owed, hposted, hq, List.countP_append, List.countP_cons_of_pos rfl]
    show w.stopCleared + (_ + 1) = w.stopCleared + (_ + 0) + 1
    omega
  rw [Balanced, hidle, howed] at h
  exact .of_eq (h.stop _) hsettled rfl (hstarted.trans hset) rfl hidle

theorem runTimer (L : S.Lawful) (h : S.Balanced w) {task : TimerTask}
    {rest : List (SwitchTask ι)} (hq : S.queue w.obj = .timer task :: rest) :
    S.Balanced { w with obj := S.runTimer task (S.setQueue rest w.obj) } := by
  obtain ⟨hset, hentries, hid, hqueue⟩ := L.setQueue rest w.obj
  obtain ⟨hstarted, hran, hsame, hrest⟩ := L.runTimer task (S.setQueue rest w.obj)
  rw [hqueue] at hrest
  rw [hentries] at hran
  refine .of_eq h (settled_of_queue hq hrest hran) (hsame.trans hid) (hstarted.trans hset) ?_ rfl
  exact congrArg (w.stopCleared + ·) (owed_of_queue hq hrest).symm

theorem startWrite (L : S.Lawful) (h : S.Balanced w) {arg : ι}
    (htested : w.starting = some (.tested arg)) (hzero : S.owed w = 0) :
    S.Balanced { w with obj := S.startWrite arg w.obj, starting := some .written } := by
  obtain ⟨hstarted, hentries, hid, hqueue⟩ := L.startWrite arg w.obj
  rw [Balanced, htested, hzero] at h
  refine .of_eq h.write ?_ hid hstarted ?_ rfl
  · rw [settled, settled]
    simp only
    rw [hentries, hqueue]
  · rw [owed] at hzero ⊢
    simp only
    rw [hqueue]
    exact hzero

theorem startRest (L : S.Lawful) (h : S.Balanced w) (hwritten : w.starting = some .written) :
    S.Balanced { w with obj := S.startRest w.obj, starting := none } := by
  obtain ⟨hstarted, hentries, hqueue⟩ := L.startRest w.obj
  have hsettled := settled_of_post hqueue hentries
  rw [Balanced, hwritten] at h
  rw [(h.written rfl).1, settle_start] at hsettled
  refine .of_eq (h.rest _) hsettled rfl hstarted ?_ rfl
  exact congrArg (w.stopCleared + ·) (owed_of_post hqueue)

end Balanced

theorem Balanced.step (L : S.Lawful) {w v : Switching σ ι} {e : SwitchEvent ι} (h : S.Balanced w)
    (ho : S.Orderly w e) (hs : S.step w e = some v) : S.Balanced v := by
  cases e with
  | startPost arg => exact Option.some.inj hs ▸ h.startPost L arg
  | stopTest =>
    rw [← Option.some.inj hs]
    split
    · exact h
    · exact h
  | stopClear =>
    simp only [Switch.step] at hs
    split at hs
    · exact absurd hs (by simp)
    · exact Option.some.inj hs ▸ h.stopClear L
  | stopPost =>
    simp only [Switch.step] at hs
    split at hs
    · exact absurd hs (by simp)
    · rename_i hpos
      exact Option.some.inj hs ▸ h.stopPost L hpos
  | run =>
    simp only [Switch.step] at hs
    split at hs
    · rename_i arg rest hidle hq
      exact Option.some.inj hs ▸ h.runStart L hidle hq
    · rename_i rest hidle hq
      exact Option.some.inj hs ▸ h.runStop L hidle hq
    · rename_i task rest hidle hq
      exact Option.some.inj hs ▸ h.runTimer L hq
    · exact absurd hs (by simp)
  | startWrite =>
    simp only [Switch.step] at hs
    split at hs
    · rename_i arg htested
      exact Option.some.inj hs ▸ h.startWrite L htested ho
    · exact absurd hs (by simp)
  | startRest =>
    simp only [Switch.step] at hs
    split at hs
    · rename_i hwritten
      exact Option.some.inj hs ▸ h.startRest L hwritten
    · exact absurd hs (by simp)

/-- **Whenever nothing is in progress the check timer is that of a started object**,
in a run in which `start_impl` was orderly. -/
theorem checked_of_quiet (L : S.Lawful) {w v : Switching σ ι} {es : List (SwitchEvent ι)}
    (hw : S.Balanced w) (h : Run.run S.step w es = some v) (ho : Run.Along S.step S.Orderly w es)
    (hq : S.Quiet v) : S.Checked v := by
  have hv : S.Balanced v :=
    Run.run_invariant (fun _ _ _ hb hp hs => hb.step L hp hs) hw ho h
  obtain ⟨-, hcleared, hidle, hqueue⟩ := hq
  have hsettled : S.settled v = S.entries v.obj := by rw [settled, hqueue]; rfl
  have howed : S.owed v = 0 := by rw [owed, hqueue, hcleared]; rfl
  rw [Balanced, hsettled, howed, hidle] at hv
  rw [Checked]
  split
  · rename_i hon
    exact hv.one.resolve_left (hv.on hon (by simp))
  · rename_i hoff
    exact hv.off (Bool.eq_false_of_not_eq_true hoff) rfl

end Switch

/-! ### The client -/

/-- The queue of the io thread, as far as `start`, `stop` and the timer object go. -/
structure SwitchQueue (ι : Type) where
  tasks : List (SwitchTask ι)

def SwitchQueue.post {ι : Type} (q : SwitchQueue ι) : Option TimerTask → SwitchQueue ι
  | none => q
  | some task => ⟨q.tasks ++ [.timer task]⟩

/-- The function of the timer object that this effect posts. -/
def Effect.timerTask? : Effect → Option TimerTask
  | .post (.startTimerImpl timerId delay interval) => some (.startTimerImpl timerId delay interval)
  | .post (.stopTimerImpl timerId) => some (.stopTimerImpl timerId)
  | _ => none

instance : Platform Effect (SwitchQueue (String × UInt16)) where
  perform effect q := q.post effect.timerTask?

namespace Ctx

/-- `start_impl` sets `started_`. -/
def startWrite {E : Type} [Platform Effect E] (c : Ctx E) (host : String) (port : UInt16) : Ctx E :=
  { c.emit .startImpl with started := true, host := host, port := port }

/-- `start_impl` after that. -/
def startRest {E : Type} [Platform Effect E] (c : Ctx E) : Ctx E :=
  let c := c.doConnect
  let timerId := c.timer.nextTimerId
  { c.startTimer 1 1 with checkTimerId := timerId }

theorem startImpl_eq {E : Type} [Platform Effect E] (c : Ctx E) (host : String) (port : UInt16) :
    c.startImpl host port = if c.started then c else (c.startWrite host port).startRest := rfl

/-- The client as a switch. -/
def switch : Switch (Ctx (SwitchQueue (String × UInt16))) (String × UInt16) where
  started c := c.started
  entries c := c.timer.timers
  checkTimerId c := c.checkTimerId
  queue c := c.env.tasks
  setQueue q c := { c with env := ⟨q⟩ }
  clear c := { c with started := false }
  startWrite arg c := c.startWrite arg.1 arg.2
  startRest := startRest
  stopImpl := stopImpl
  runTimer task c :=
    match task with
    | .startTimerImpl timerId delay interval => c.startTimerImpl timerId delay interval
    | .stopTimerImpl timerId => c.stopTimerImpl timerId

theorem emit_inert (c : Ctx (SwitchQueue (String × UInt16))) {effect : Effect}
    (h : effect.timerTask? = none) : c.emit effect = c := by
  show { c with env := c.env.post effect.timerTask? } = c
  rw [h]
  rfl

theorem foldl_dropped (infos : List SendingPacketInfo) (c : Ctx (SwitchQueue (String × UInt16))) :
    infos.foldl (fun c info => c.emit (.dropped info)) c = c := by
  induction infos with
  | nil => rfl
  | cons info infos ih =>
    rw [List.foldl_cons, emit_inert c rfl]
    exact ih

theorem doConnect_frame (c : Ctx (SwitchQueue (String × UInt16))) :
    c.doConnect.started = c.started ∧ c.doConnect.timer = c.timer ∧ c.doConnect.env = c.env := by
  rw [doConnect]
  split
  · exact ⟨rfl, rfl, rfl⟩
  · exact ⟨rfl, rfl, rfl⟩

theorem doClose_frame (c : Ctx (SwitchQueue (String × UInt16))) :
    c.doClose.started = c.started ∧ c.doClose.timer = c.timer ∧ c.doClose.env = c.env := by
  rw [doClose]
  simp only
  split
  · exact ⟨rfl, rfl, rfl⟩
  · split
    · exact ⟨rfl, rfl, rfl⟩
    · exact ⟨rfl, rfl, rfl⟩

theorem switch_lawful : switch.Lawful := by
  refine ⟨?_, ?_, ?_, ?_, ?_, ?_⟩
  · intro q c
    exact ⟨rfl, rfl, rfl, rfl⟩
  · intro c
    exact ⟨rfl, rfl, rfl, rfl⟩
  · intro arg c
    exact ⟨rfl, rfl, rfl, rfl⟩
  · intro c
    obtain ⟨h1, h2, h3⟩ := doConnect_frame c
    refine ⟨h1, ?_, ?_⟩
    · show c.doConnect.timer.timers = c.timer.timers
      rw [h2]
    · show c.doConnect.env.tasks ++ _ = c.env.tasks ++ _
      rw [h3]
      rfl
  · intro c
    obtain ⟨h1, h2, h3⟩ := doClose_frame
      ({ c.stopTimer c.checkTimerId with checkTimerId := 0 }.emit
        (.stopImpl c.started c.connectState))
    simp only [switch, stopImpl, foldl_dropped]
    exact ⟨h1, congrArg Itimer.timers h2, congrArg SwitchQueue.tasks h3⟩
  · intro task c
    cases task with
    | startTimerImpl timerId delay interval =>
      simp only [switch, startTimerImpl, Itimer.startTimerImpl_eq]
      exact ⟨rfl, rfl, rfl, rfl⟩
    | stopTimerImpl timerId =>
      have htimers := c.timer.timers_runTask (.stopTimerImpl timerId)
      simp only [switch, stopTimerImpl]
      split
      · exact ⟨rfl, htimers, rfl, rfl⟩
      · exact ⟨rfl, htimers, rfl, rfl⟩

end Ctx

/-! ### The server -/

namespace Server

instance : Platform Effect (SwitchQueue Unit) where
  perform effect q :=
    match effect with
    | .post task => q.post (some task)
    | _ => q

namespace Ctx

/-- `start_impl` sets `started_`. -/
def startWrite {E : Type} (s : Ctx E) : Ctx E := { s with started := true }

/-- `start_impl` after that. -/
def startRest {E : Type} [Platform Effect E] (s : Ctx E) : Ctx E :=
  let s := s.startAccept
  let timerId := s.timer.nextTimerId
  { s.startTimer 1 1 with checkTimerId := timerId }

theorem startImpl_snd {E : Type} [Platform Effect E] (s : Ctx E) :
    s.startImpl.2 = if s.started then s else s.startWrite.startRest := by
  rw [startImpl]
  split
  · rfl
  · rfl

/-- The server as a switch. -/
def switch : Switch (Ctx (SwitchQueue Unit)) Unit where
  started s := s.started
  entries s := s.timer.timers
  checkTimerId s := s.checkTimerId
  queue s := s.env.tasks
  setQueue q s := { s with env := ⟨q⟩ }
  clear s := { s with started := false }
  startWrite _ := startWrite
  startRest := startRest
  stopImpl := stopImpl
  runTimer task s := { s with timer := s.timer.runTask task }

theorem switch_lawful : switch.Lawful := by
  refine ⟨?_, ?_, ?_, ?_, ?_, ?_⟩
  · intro q s
    exact ⟨rfl, rfl, rfl, rfl⟩
  · intro s
    exact ⟨rfl, rfl, rfl, rfl⟩
  · intro arg s
    exact ⟨rfl, rfl, rfl, rfl⟩
  · intro s
    exact ⟨rfl, rfl, rfl⟩
  · intro s
    simp only [switch, stopImpl, doClose]
    split
    · exact ⟨rfl, rfl, rfl⟩
    · exact ⟨rfl, rfl, rfl⟩
  · intro task s
    exact ⟨rfl, s.timer.timers_runTask task, rfl, rfl⟩

end Ctx

end Server

/-! ### The main result -/

/-- A client and a server as constructed, no thread near them. -/
def Switching.client : Switching (Ctx (SwitchQueue (String × UInt16))) (String × UInt16) :=
  ⟨⟨Client.new, ⟨[]⟩, 0, []⟩, 0, 0, none⟩

def Switching.server (serial : Nat) : Switching (Server.Ctx (SwitchQueue Unit)) Unit :=
  ⟨⟨Server.new serial, fun _ => none, ⟨[]⟩, 0, []⟩, 0, 0, none⟩

theorem Switch.balanced_of_new {σ ι : Type} {S : Switch σ ι} {w : Switching σ ι}
    (hentries : S.entries w.obj = []) (hqueue : S.queue w.obj = [])
    (hstarted : S.started w.obj = false) (hidle : w.starting = none) : S.Balanced w := by
  have hsettled : S.settled w = [] := by rw [settled, hqueue, hentries]; rfl
  rw [Balanced, hsettled, hstarted, hidle]
  refine ⟨.inl rfl, ?_, ?_, ?_, ?_, ?_⟩
  · intro hon
    exact absurd hon (by simp)
  · intro _ _
    rfl
  · intro hw
    exact absurd hw (by simp)
  · intro hon
    exact absurd hon (by simp)
  · intro _ _
    rfl

/-- **The check timers of the client and of the server**, in runs of any number of
threads in which no `start_impl` sets `started_` while a `stop_impl` is owed. -/
theorem checked_of_orderly {serial : Nat} {es : List (SwitchEvent (String × UInt16))}
    {es' : List (SwitchEvent Unit)} {w : Switching (Ctx (SwitchQueue (String × UInt16))) _}
    {w' : Switching (Server.Ctx (SwitchQueue Unit)) _}
    (h : Run.run Ctx.switch.step .client es = some w)
    (ho : Run.Along Ctx.switch.step Ctx.switch.Orderly .client es)
    (h' : Run.run Server.Ctx.switch.step (.server serial) es' = some w')
    (ho' : Run.Along Server.Ctx.switch.step Server.Ctx.switch.Orderly (.server serial) es') :
    (Ctx.switch.Quiet w → Ctx.switch.Checked w) ∧
      (Server.Ctx.switch.Quiet w' → Server.Ctx.switch.Checked w') := by
  constructor
  · intro hq
    exact Switch.checked_of_quiet Ctx.switch_lawful (Switch.balanced_of_new rfl rfl rfl rfl) h ho hq
  · intro hq
    exact Switch.checked_of_quiet Server.Ctx.switch_lawful
      (Switch.balanced_of_new rfl rfl rfl rfl) h' ho' hq

/-- A start, a stop, and another start. -/
def startStopStart {ι : Type} (arg : ι) : List (SwitchEvent ι) :=
  [.startPost arg, .run, .startWrite, .startRest, .run, .stopTest, .stopClear, .stopPost, .run,
    .run, .startPost arg, .run, .startWrite, .startRest, .run]

/-- In the end both are quiet, and started with their second check timer. -/
theorem checked_of_orderly_restart :
    ∃ w w', Run.run Ctx.switch.step .client (startStopStart ("localhost", 80)) = some w ∧
      Run.run Server.Ctx.switch.step (.server 1) (startStopStart ()) = some w' ∧
      Ctx.switch.Quiet w ∧ Ctx.switch.Checked w ∧ w.obj.timer.timers = [checkTimer 2] ∧
      Server.Ctx.switch.Quiet w' ∧ Server.Ctx.switch.Checked w' ∧
      w'.obj.timer.timers = [checkTimer 2] := by
  have hclient : ∃ w, Run.run Ctx.switch.step .client (startStopStart ("localhost", 80)) = some w ∧
      Ctx.switch.Quiet w ∧ w.obj.started = true ∧ w.obj.checkTimerId = 2 :=
    ⟨_, rfl, ⟨rfl, rfl, rfl, rfl⟩, rfl, rfl⟩
  have hserver : ∃ w', Run.run Server.Ctx.switch.step (.server 1) (startStopStart ()) = some w' ∧
      Server.Ctx.switch.Quiet w' ∧ w'.obj.started = true ∧ w'.obj.checkTimerId = 2 :=
    ⟨_, rfl, ⟨rfl, rfl, rfl, rfl⟩, rfl, rfl⟩
  obtain ⟨w, hw, hquiet, hstarted, hid⟩ := hclient
  obtain ⟨w', hw', hquiet', hstarted', hid'⟩ := hserver
  obtain ⟨hchecked, hchecked'⟩ := checked_of_orderly hw (by decide) hw' (by decide)
  have htimers : w.obj.timer.timers =
      if w.obj.started then [checkTimer w.obj.checkTimerId] else [] := hchecked hquiet
  have htimers' : w'.obj.timer.timers =
      if w'.obj.started then [checkTimer w'.obj.checkTimerId] else [] := hchecked' hquiet'
  rw [hstarted, if_pos rfl, hid] at htimers
  rw [hstarted', if_pos rfl, hid'] at htimers'
  exact ⟨w, w', hw, hw', hquiet, hchecked hquiet, htimers, hquiet', hchecked' hquiet', htimers'⟩

/-- A `start` between two statements of a `stop`: `start_impl` runs after `started_`
is cleared and before `stop_impl`. -/
def startInsideStop {ι : Type} (arg : ι) : List (SwitchEvent ι) :=
  [.startPost arg, .run, .startWrite, .startRest, .run, .stopTest, .stopClear, .startPost arg,
    .run, .startWrite, .startRest, .stopPost, .run, .run, .run]

/-- The first check timer goes on, and nobody knows its id; the second is stopped. -/
theorem unchecked_inside_stop :
    (∃ w, Run.run Ctx.switch.step .client (startInsideStop ("localhost", 80)) = some w ∧
      Ctx.switch.Quiet w ∧ ¬ Ctx.switch.Checked w) ∧
    ∃ w, Run.run Server.Ctx.switch.step (.server 1) (startInsideStop ()) = some w ∧
      Server.Ctx.switch.Quiet w ∧ ¬ Server.Ctx.switch.Checked w := by
  constructor
  · refine ⟨_, rfl, ⟨rfl, rfl, rfl, rfl⟩, fun h => ?_⟩
    exact absurd (congrArg (List.map Prod.fst) h) (by decide)
  · refine ⟨_, rfl, ⟨rfl, rfl, rfl, rfl⟩, fun h => ?_⟩
    exact absurd (congrArg (List.map Prod.fst) h) (by decide)

end Ibase
