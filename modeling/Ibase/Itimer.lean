import Mathlib

/-!
# Time points and the timer registry

A `steady_clock::time_point` is a signed 64-bit count of nanoseconds that never
goes below zero.  `itimer.cpp` keeps its timers in a map by id; a timer's wait
carries the id alone, and what it finds under that id when it completes decides
what happens.  The functions return the duration to arm the wait with, if any.
-/

namespace Ibase

/-- `std::chrono::steady_clock::time_point`, in nanoseconds. -/
abbrev TimePoint := Fin (2 ^ 63)

instance TimePoint.neZero : NeZero (2 ^ 63) := ⟨by decide⟩

/-- `duration_cast<seconds>(cur - last).count()`. -/
def secondsPassed (cur last : TimePoint) : Int := ((cur.val : Int) - last.val).tdiv 1000000000

/-- The whole seconds since the epoch of the clock. -/
def TimePoint.tick (t : TimePoint) : Nat := t.val / 1000000000

/-- The clock after it was read at `t` and again at `t'`. -/
def TimePoint.later (t t' : TimePoint) : TimePoint := if t ≤ t' then t' else t

/-- A time point in whole seconds. -/
def seconds (n : Nat) : TimePoint := ⟨n * 1000000000 % 2 ^ 63, Nat.mod_lt _ (by decide)⟩

theorem TimePoint.le_later (t t' : TimePoint) : t ≤ t.later t' := by
  unfold later
  split
  · assumption
  · exact Nat.le_refl _

theorem TimePoint.tick_lt (t : TimePoint) : t.tick < 2 ^ 63 :=
  Nat.lt_of_le_of_lt (Nat.div_le_self _ _) t.isLt

theorem TimePoint.tick_mono {t t' : TimePoint} (h : t ≤ t') : t.tick ≤ t'.tick :=
  Nat.div_le_div_right h

/-- The functions that a timer object posts to the io thread. -/
inductive TimerTask where
  | startTimerImpl (timerId : UInt32) (delaySeconds intervalSeconds : UInt32)
  | stopTimerImpl (timerId : UInt32)
  deriving DecidableEq

/-- `itimer::timer_info_t`. -/
structure TimerInfo (τ : Type) where
  task : τ
  delaySeconds : UInt32
  intervalSeconds : UInt32

/-- `itimer`.  `curTimerId` counts the ids drawn; `cur_timer_id_` is its low 32 bits. -/
structure Itimer (τ : Type) where
  curTimerId : Nat
  timers : List (UInt32 × TimerInfo τ)

namespace Itimer

variable {τ : Type}

def new : Itimer τ := ⟨0, []⟩

/-- The id that the next `start_timer` returns. -/
def nextTimerId (t : Itimer τ) : UInt32 := UInt32.ofNat (t.curTimerId + 1)

def find (t : Itimer τ) (timerId : UInt32) : Option (TimerInfo τ) := t.timers.lookup timerId

def erase (t : Itimer τ) (timerId : UInt32) : Itimer τ :=
  { t with timers := t.timers.filter (fun p => p.1 ≠ timerId) }

def insert (t : Itimer τ) (timerId : UInt32) (info : TimerInfo τ) : Itimer τ :=
  { t with timers := (timerId, info) :: t.timers.filter (fun p => p.1 ≠ timerId) }

/-- `async_wait_after`: the argument `seconds` of the source is not used there,
the wait is armed with the timer's interval. -/
def asyncWaitAfter (t : Itimer τ) (timerId _seconds : UInt32) : Option UInt32 :=
  (t.find timerId).map (fun info => info.intervalSeconds)

def startTimerImpl (t : Itimer τ) (timerId : UInt32) (task : τ) (delaySeconds intervalSeconds : UInt32) :
    Itimer τ × Option UInt32 :=
  (t.insert timerId ⟨task, delaySeconds, intervalSeconds⟩,
    (t.insert timerId ⟨task, delaySeconds, intervalSeconds⟩).asyncWaitAfter timerId intervalSeconds)

/-- `stop_timer_impl`, and whether there was a wait to cancel. -/
def stopTimerImpl (t : Itimer τ) (timerId : UInt32) : Itimer τ × Bool :=
  match t.find timerId with
  | none => (t, false)
  | some _ => (t.erase timerId, true)

def rescheduleTimer (t : Itimer τ) (timerId : UInt32) : Itimer τ × Option UInt32 :=
  match t.find timerId with
  | none => (t, none)
  | some info =>
    if info.intervalSeconds = 0 then (t.erase timerId, none)
    else (t, t.asyncWaitAfter timerId info.intervalSeconds)

/-! ### What is found afterwards -/

theorem lookup_filter (timers : List (UInt32 × TimerInfo τ)) (timerId id : UInt32) :
    (timers.filter (fun p => p.1 ≠ timerId)).lookup id =
      if id = timerId then none else timers.lookup id := by
  induction timers with
  | nil => simp
  | cons entry timers ih =>
    obtain ⟨key, info⟩ := entry
    by_cases hkey : key = timerId
    · rw [List.filter_cons_of_neg (by simp [hkey]), ih]
      by_cases hid : id = timerId
      · rw [if_pos hid, if_pos hid]
      · have hne : (id == key) = false := by simp [hkey, hid]
        rw [if_neg hid, if_neg hid, List.lookup_cons, hne]
    · rw [List.filter_cons_of_pos (by simp [hkey]), List.lookup_cons, List.lookup_cons, ih]
      by_cases hid : id = timerId
      · have hne : (id == key) = false := by simp [hid, Ne.symm hkey]
        simp only [if_pos hid, hne]
      · rw [if_neg hid, if_neg hid]

theorem find_erase (t : Itimer τ) (timerId id : UInt32) :
    (t.erase timerId).find id = if id = timerId then none else t.find id :=
  lookup_filter t.timers timerId id

theorem find_insert (t : Itimer τ) (timerId : UInt32) (info : TimerInfo τ) (id : UInt32) :
    (t.insert timerId info).find id = if id = timerId then some info else t.find id := by
  rw [find, insert, List.lookup_cons, lookup_filter]
  by_cases hid : id = timerId
  · simp [hid]
  · have hne : (id == timerId) = false := by simp [hid]
    rw [hne, if_neg hid, if_neg hid]
    rfl

/-- Whatever the delay, the first wait is armed with the interval. -/
theorem startTimerImpl_eq (t : Itimer τ) (timerId : UInt32) (task : τ)
    (delaySeconds intervalSeconds : UInt32) :
    t.startTimerImpl timerId task delaySeconds intervalSeconds =
      (t.insert timerId ⟨task, delaySeconds, intervalSeconds⟩, some intervalSeconds) := by
  rw [startTimerImpl, asyncWaitAfter, find_insert, if_pos rfl]
  rfl

theorem stopTimerImpl_of_find {t : Itimer τ} {timerId : UInt32} {info : TimerInfo τ}
    (h : t.find timerId = some info) : t.stopTimerImpl timerId = (t.erase timerId, true) := by
  rw [stopTimerImpl, h]

theorem rescheduleTimer_of_find {t : Itimer τ} {timerId : UInt32} {info : TimerInfo τ}
    (h : t.find timerId = some info) :
    t.rescheduleTimer timerId =
      if info.intervalSeconds = 0 then (t.erase timerId, none)
      else (t, some info.intervalSeconds) := by
  rw [rescheduleTimer, h]
  simp only [asyncWaitAfter, h]
  rfl

end Itimer

end Ibase
