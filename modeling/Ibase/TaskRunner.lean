import Ibase.Lib.Replay
import Ibase.Lib.Run

/-!
# Calls from other threads

`task_runner.hpp`, and the `io_context` with the one thread that runs it (`ithread`).  A
task is what a `std::function` does on that thread: it reads and writes the object and
may call the functions of `task_runner.hpp` again.  Called there they run the task at
once; called anywhere else they post it, and `run_task_in_the_iocontext_sync` waits for
the promise.

The steps of the tasks, the calls of the threads and their returns come in any order.
Still all is as if the tasks had been run one after another, in the order in which they
were posted (`linearizable`).
-/

namespace Ibase

namespace TaskRunner

open Replay

/-- What a `std::function<R()>` does, up to what it returns. -/
inductive Task (σ ρ : Type) where
  | ret (result : ρ)
  | read (next : σ → Task σ ρ)
  | write (object : σ) (next : Task σ ρ)
  /-- It calls `run_task_in_the_iocontext_sync`. -/
  | sync (task : Task σ ρ) (next : ρ → Task σ ρ)
  /-- It calls `run_task_in_the_iocontext`. -/
  | run (task next : Task σ ρ)
  /-- It calls `run_task_in_the_iocontext_async`. -/
  | async (task next : Task σ ρ)

variable {σ ρ : Type}

namespace Task

/-- `task()`, and what follows with its result. -/
def andThen : Task σ ρ → (ρ → Task σ ρ) → Task σ ρ
  | ret result, k => k result
  | read next, k => read (fun object => (next object).andThen k)
  | write object next, k => write object (next.andThen k)
  | sync task next, k => sync task (fun result => (next result).andThen k)
  | run task next, k => run task (next.andThen k)
  | async task next, k => async task (next.andThen k)

/-- What the task returns and leaves, if nothing comes between its steps. -/
def exec : Task σ ρ → σ → ρ × σ
  | ret result, object => (result, object)
  | read next, object => (next object).exec object
  | write object next, _ => next.exec object
  | sync task next, object => (next (task.exec object).1).exec (task.exec object).2
  | run task next, object => next.exec (task.exec object).2
  | async _ next, object => next.exec object

theorem exec_andThen (task : Task σ ρ) (k : ρ → Task σ ρ) (object : σ) :
    (task.andThen k).exec object = (k (task.exec object).1).exec (task.exec object).2 := by
  induction task generalizing object with
  | ret result => rfl
  | read next ih => exact ih object object
  | write object' next ih => exact ih object'
  | sync task next _ ih => exact ih _ _
  | run task next _ ih => exact ih _
  | async task next _ ih => exact ih object

/-- Every task that this one posts is in `A`. -/
def Spawns (A : Task σ ρ → Prop) : Task σ ρ → Prop
  | .ret _ => True
  | .read next => ∀ object, Spawns A (next object)
  | .write _ next => Spawns A next
  | .sync task next => Spawns A task ∧ ∀ result, Spawns A (next result)
  | .run task next => Spawns A task ∧ Spawns A next
  | .async task next => A task ∧ Spawns A next

theorem Spawns.andThen {A : Task σ ρ → Prop} {task : Task σ ρ} {k : ρ → Task σ ρ}
    (h : task.Spawns A) (hk : ∀ result, (k result).Spawns A) : (task.andThen k).Spawns A := by
  induction task with
  | ret result => exact hk result
  | read next ih => exact fun object => ih object (h object)
  | write object next ih => exact ih h
  | sync task next _ ih => exact ⟨h.1, fun result => ih result (h.2 result)⟩
  | run task next _ ih => exact ⟨h.1, ih h.2⟩
  | async task next _ ih => exact ⟨h.1, ih h.2⟩

theorem andThen_ret (task : Task σ ρ) : task.andThen .ret = task := by
  induction task with
  | ret result => rfl
  | read next ih => exact congrArg Task.read (funext ih)
  | write object next ih => exact congrArg (Task.write object) ih
  | sync task next _ ih => exact congrArg (Task.sync task) (funext ih)
  | run task next _ ih => exact congrArg (Task.run task) ih
  | async task next _ ih => exact congrArg (Task.async task) ih

end Task

/-- A handler that was posted; `promise` says whether a caller waits for it. -/
structure Job (σ ρ : Type) where
  number : Nat
  promise : Bool
  task : Task σ ρ

def Job.exec (job : Job σ ρ) (object : σ) : ρ × σ := job.task.exec object

end TaskRunner

open TaskRunner

/-- The `io_context`, its thread, and the threads that call.  `running` is the handler
that runs with what is left of it, `waiting` are the threads inside `future.get()`, each
with the number of its job, and `results` the promises that have been set.  `posted` and
`returned` are no part of the program: they are the jobs posted so far and what the calls
have returned. -/
structure TaskRunner (σ ρ : Type) where
  object : σ
  queue : List (Job σ ρ)
  running : Option (Job σ ρ × TaskRunner.Task σ ρ)
  stopped : Bool
  waiting : List (Nat × Nat)
  results : List (Nat × ρ)
  posted : List (Job σ ρ)
  returned : List (Nat × ρ)

namespace TaskRunner

open Replay

variable {σ ρ : Type}

inductive RunnerEvent (σ ρ : Type) where
  /-- A thread calls `run_task_in_the_iocontext_sync`. -/
  | sync (thread : Nat) (task : Task σ ρ)
  | run (thread : Nat) (task : Task σ ρ)
  | async (thread : Nat) (task : Task σ ρ)
  /-- The thread of the `io_context` takes one step. -/
  | io
  /-- `future.get()` returns. -/
  | wake (thread : Nat)
  /-- `io_context::stop`. -/
  | stop

/-- The task that a thread posts with this event. -/
def RunnerEvent.task? : RunnerEvent σ ρ → Option (Task σ ρ)
  | .sync _ task | .run _ task | .async _ task => some task
  | _ => none

def new (object : σ) : TaskRunner σ ρ := ⟨object, [], none, false, [], [], [], []⟩

/-- `io_context::post`. -/
def post (w : TaskRunner σ ρ) (promise : Bool) (task : Task σ ρ) : TaskRunner σ ρ :=
  let job : Job σ ρ := ⟨w.posted.length, promise, task⟩
  { w with queue := w.queue ++ [job], posted := w.posted ++ [job] }

/-- Is this thread inside a call? -/
def waits (w : TaskRunner σ ρ) (thread : Nat) : Bool := w.waiting.any (fun p => p.1 == thread)

/-- One step of `io_context::run`. -/
def ioStep (w : TaskRunner σ ρ) : Option (TaskRunner σ ρ) :=
  match w.running with
  | none =>
    if w.stopped then none
    else
      match w.queue with
      | [] => none
      | job :: queue => some { w with running := some (job, job.task), queue := queue }
  | some (job, .ret result) =>
    some { w with
      running := none
      results := if job.promise then w.results ++ [(job.number, result)] else w.results }
  | some (job, .read next) => some { w with running := some (job, next w.object) }
  | some (job, .write object next) => some { w with object := object, running := some (job, next) }
  -- `running_in_this_thread()`: the task runs here and now.
  | some (job, .sync task next) => some { w with running := some (job, task.andThen next) }
  | some (job, .run task next) => some { w with running := some (job, task.andThen (fun _ => next)) }
  | some (job, .async task next) => some { w.post false task with running := some (job, next) }

/-- One event; `none` if it cannot happen. -/
def step (w : TaskRunner σ ρ) : RunnerEvent σ ρ → Option (TaskRunner σ ρ)
  | .sync thread task =>
    if w.waits thread then none
    else some { w.post true task with waiting := w.waiting ++ [(thread, w.posted.length)] }
  | .run thread task => if w.waits thread then none else some (w.post false task)
  | .async thread task => if w.waits thread then none else some (w.post false task)
  | .io => w.ioStep
  | .wake thread =>
    match w.waiting.lookup thread with
    | none => none
    | some number =>
      match w.results.lookup number with
      | none => none
      | some result =>
        some { w with
          waiting := w.waiting.filter (fun p => p.1 != thread)
          returned := w.returned ++ [(number, result)] }
  | .stop => some { w with stopped := true }

/-! ### What an event does -/

/-- What the thread of the `io_context` does in one step: it takes a handler, comes to its
end, goes on in it, or posts what it asks for. -/
inductive IoStep (w : TaskRunner σ ρ) : TaskRunner σ ρ → Prop
  | take (job : Job σ ρ) (queue : List (Job σ ρ)) (hidle : w.running = none)
      (hgoes : w.stopped = false) (hqueue : w.queue = job :: queue) :
      IoStep w { w with running := some (job, job.task), queue := queue }
  | finish (job : Job σ ρ) (result : ρ) (hbusy : w.running = some (job, .ret result)) :
      IoStep w { w with
        running := none
        results := if job.promise then w.results ++ [(job.number, result)] else w.results }
  | goOn (job : Job σ ρ) (rest rest' : Task σ ρ) (object : σ) (hbusy : w.running = some (job, rest))
      (hsame : rest'.exec object = rest.exec w.object)
      (hspawns : ∀ A, rest.Spawns A → rest'.Spawns A) :
      IoStep w { w with object := object, running := some (job, rest') }
  | spawn (job : Job σ ρ) (task next : Task σ ρ) (hbusy : w.running = some (job, .async task next)) :
      IoStep w { w.post false task with running := some (job, next) }

theorem ioStep_cases {w v : TaskRunner σ ρ} (h : w.ioStep = some v) : w.IoStep v := by
  rw [ioStep] at h
  split at h
  · rename_i hidle
    split at h
    · cases h
    · rename_i hgoes
      split at h
      · cases h
      · rename_i job queue hqueue
        exact Option.some.inj h ▸ .take job queue hidle (Bool.eq_false_of_not_eq_true hgoes) hqueue
  · rename_i job result hbusy
    exact Option.some.inj h ▸ .finish job result hbusy
  · rename_i job next hbusy
    exact Option.some.inj h ▸ .goOn job _ _ w.object hbusy rfl (fun _ hnext => hnext w.object)
  · rename_i job object next hbusy
    exact Option.some.inj h ▸ .goOn job _ next object hbusy rfl (fun _ hnext => hnext)
  · rename_i job task next hbusy
    exact Option.some.inj h ▸ .goOn job _ _ w.object hbusy (task.exec_andThen next w.object)
      (fun _ hspawns => hspawns.1.andThen hspawns.2)
  · rename_i job task next hbusy
    exact Option.some.inj h ▸ .goOn job _ _ w.object hbusy (task.exec_andThen _ w.object)
      (fun _ hspawns => hspawns.1.andThen (fun _ => hspawns.2))
  · rename_i job task next hbusy
    exact Option.some.inj h ▸ .spawn job task next hbusy

/-- What happens at an event. -/
inductive Happens (w : TaskRunner σ ρ) : RunnerEvent σ ρ → TaskRunner σ ρ → Prop
  | call (thread : Nat) (task : Task σ ρ) (hfree : w.waits thread = false) :
      Happens w (.sync thread task)
        { w.post true task with waiting := w.waiting ++ [(thread, w.posted.length)] }
  | post (event : RunnerEvent σ ρ) (task : Task σ ρ) (htask : event.task? = some task) :
      Happens w event (w.post false task)
  | io (v : TaskRunner σ ρ) (hs : w.IoStep v) : Happens w .io v
  | wake (thread number : Nat) (result : ρ) (hthread : w.waiting.lookup thread = some number)
      (hresult : w.results.lookup number = some result) :
      Happens w (.wake thread) { w with
        waiting := w.waiting.filter (fun p => p.1 != thread)
        returned := w.returned ++ [(number, result)] }
  | stop : Happens w .stop { w with stopped := true }

theorem step_happens {w v : TaskRunner σ ρ} {event : RunnerEvent σ ρ} (h : w.step event = some v) :
    w.Happens event v := by
  cases event with
  | sync thread task =>
    rw [step] at h
    split at h
    · cases h
    · rename_i hfree
      exact Option.some.inj h ▸ .call thread task (Bool.eq_false_of_not_eq_true hfree)
  | run thread task =>
    rw [step] at h
    split at h
    · cases h
    · exact Option.some.inj h ▸ .post _ task rfl
  | async thread task =>
    rw [step] at h
    split at h
    · cases h
    · exact Option.some.inj h ▸ .post _ task rfl
  | io => exact .io v (ioStep_cases h)
  | wake thread =>
    rw [step] at h
    split at h
    · cases h
    · rename_i number hthread
      split at h
      · cases h
      · rename_i result hresult
        exact Option.some.inj h ▸ .wake thread number result hthread hresult
  | stop => exact Option.some.inj h ▸ .stop

/-! ### The order of the tasks -/

/-- What the caller of this job hears. -/
def promised? (p : Job σ ρ × ρ) : Option (Nat × ρ) :=
  if p.1.promise then some (p.1.number, p.2) else none

/-- These jobs are done, in this order, and the rest of what was posted comes after them.
The handler that runs goes on to where it would be without the others. -/
structure Ordered (s : σ) (done : List (Job σ ρ)) (w : TaskRunner σ ρ) : Prop where
  posted : w.posted = done ++ ((w.running.map Prod.fst).toList ++ w.queue)
  idle : w.running = none → w.object = (replay Job.exec s done).2
  busy : ∀ job rest, w.running = some (job, rest) →
    rest.exec w.object = job.exec (replay Job.exec s done).2
  results : w.results = (replay Job.exec s done).1.filterMap promised?
  numbered : w.posted.map Job.number = List.range w.posted.length

namespace Ordered

variable {s : σ} {done : List (Job σ ρ)} {w v : TaskRunner σ ρ}

theorem new (s : σ) : Ordered (ρ := ρ) s [] (TaskRunner.new s) :=
  ⟨rfl, fun _ => rfl, fun _ _ h => absurd h (by simp [TaskRunner.new]), rfl, rfl⟩

theorem post (h : Ordered s done w) (promise : Bool) (task : Task σ ρ) :
    Ordered s done (w.post promise task) := by
  refine ⟨?_, h.idle, h.busy, h.results, ?_⟩
  · show w.posted ++ [_] = done ++ (_ ++ (w.queue ++ [_]))
    rw [h.posted, List.append_assoc, List.append_assoc]
    rfl
  · show (w.posted ++ [_]).map Job.number = List.range (w.posted ++ [_]).length
    rw [List.map_append, h.numbered, List.length_append, List.length_singleton, List.range_succ]
    rfl

theorem ioStep (h : Ordered s done w) (hs : w.IoStep v) :
    ∃ done', Ordered s done' v ∧ done <+: done' := by
  have hposted := h.posted
  cases hs with
  | take job queue hidle hgoes hqueue =>
    rw [hidle, hqueue] at hposted
    refine ⟨done, ⟨hposted, fun hnone => ?_, fun job' rest heq => ?_, h.results, h.numbered⟩,
      List.prefix_refl _⟩
    · cases hnone
    · cases heq
      exact congrArg job.exec (h.idle hidle)
  | finish job result hbusy =>
    rw [hbusy] at hposted
    have hend : (result, w.object) = job.exec (replay Job.exec s done).2 := h.busy job _ hbusy
    refine ⟨done ++ [job], ⟨?_, fun _ => ?_, fun job' rest heq => ?_, ?_, h.numbered⟩,
      List.prefix_append ..⟩
    · rw [List.append_assoc]
      exact hposted
    · rw [replay_concat]
      exact congrArg Prod.snd hend
    · cases heq
    · rw [replay_concat, one, List.filterMap_append, ← h.results, ← hend]
      show (if job.promise then _ else _) = _
      cases hpromise : job.promise with
      | true =>
        have hset : promised? (job, result) = some (job.number, result) := if_pos hpromise
        rw [if_pos rfl, List.filterMap_cons_some hset]
        rfl
      | false =>
        have hnone : promised? (job, result) = none := if_neg (by rw [hpromise]; decide)
        rw [if_neg (by decide), List.filterMap_cons_none hnone, List.filterMap_nil, List.append_nil]
  | goOn job rest rest' object hbusy hsame hspawns =>
    rw [hbusy] at hposted
    refine ⟨done, ⟨hposted, fun hnone => ?_, fun job' rest'' heq => ?_, h.results, h.numbered⟩,
      List.prefix_refl _⟩
    · cases hnone
    · cases heq
      exact hsame.trans (h.busy job rest hbusy)
  | spawn job task next hbusy =>
    have hpost := h.post false task
    have hposted' := hpost.posted
    rw [show (w.post false task).running = some (job, .async task next) from hbusy] at hposted'
    refine ⟨done, ⟨hposted', fun hnone => ?_, fun job' rest heq => ?_, h.results, hpost.numbered⟩,
      List.prefix_refl _⟩
    · cases hnone
    · cases heq
      exact h.busy job (.async task next) hbusy

/-- **Every event keeps the order.** -/
theorem step (h : Ordered s done w) {event : RunnerEvent σ ρ} (hs : w.step event = some v) :
    ∃ done', Ordered s done' v ∧ done <+: done' := by
  cases step_happens hs with
  | call thread task hfree =>
    have hpost := h.post true task
    exact ⟨done, ⟨hpost.posted, hpost.idle, hpost.busy, hpost.results, hpost.numbered⟩,
      List.prefix_refl _⟩
  | post _ task htask => exact ⟨done, h.post false task, List.prefix_refl _⟩
  | io _ hio => exact h.ioStep hio
  | wake thread number result hthread hresult =>
    exact ⟨done, ⟨h.posted, h.idle, h.busy, h.results, h.numbered⟩, List.prefix_refl _⟩
  | stop => exact ⟨done, ⟨h.posted, h.idle, h.busy, h.results, h.numbered⟩, List.prefix_refl _⟩

end Ordered

/-! ### The threads that wait -/

/-- Each call of `run_task_in_the_iocontext_sync` waits or has returned, and what it has
returned its promise was set to. -/
structure Attended (w : TaskRunner σ ρ) : Prop where
  threads : (w.waiting.map Prod.fst).Nodup
  calls : (w.waiting.map Prod.snd ++ w.returned.map Prod.fst).Perm
    ((w.posted.filter Job.promise).map Job.number)
  returned : ∀ p ∈ w.returned, p ∈ w.results

namespace Attended

variable {w v : TaskRunner σ ρ}

theorem new (s : σ) : Attended (ρ := ρ) (TaskRunner.new s) :=
  ⟨List.nodup_nil, .refl _, fun _ hp => absurd hp List.not_mem_nil⟩

/-- A job without a promise, or none. -/
theorem mono (h : Attended w) (hwaiting : v.waiting = w.waiting) (hreturned : v.returned = w.returned)
    (hposted : v.posted.filter Job.promise = w.posted.filter Job.promise)
    (hresults : ∀ p ∈ w.results, p ∈ v.results) : Attended v := by
  refine ⟨?_, ?_, fun p hp => hresults p (h.returned p (hreturned ▸ hp))⟩
  · rw [hwaiting]
    exact h.threads
  · rw [hwaiting, hreturned, hposted]
    exact h.calls

theorem filter_post (w : TaskRunner σ ρ) (task : Task σ ρ) :
    (w.post false task).posted.filter Job.promise = w.posted.filter Job.promise := by
  show (w.posted ++ [_]).filter Job.promise = _
  rw [List.filter_append]
  exact List.append_nil _

theorem post (h : Attended w) (task : Task σ ρ) : Attended (w.post false task) :=
  h.mono rfl rfl (filter_post w task) (fun _ hp => hp)

/-- A thread calls, and waits. -/
theorem call (h : Attended w) {thread : Nat} (hfree : w.waits thread = false) (task : Task σ ρ) :
    Attended { w.post true task with waiting := w.waiting ++ [(thread, w.posted.length)] } := by
  refine ⟨?_, ?_, h.returned⟩
  · rw [List.map_append]
    refine List.nodup_append.mpr ⟨h.threads, List.nodup_singleton thread, ?_⟩
    intro t ht t' ht' heq
    obtain ⟨p, hp, rfl⟩ := List.mem_map.mp ht
    have hin : w.waits thread = true :=
      List.any_eq_true.mpr ⟨p, hp, beq_iff_eq.mpr (heq.trans (List.mem_singleton.mp ht'))⟩
    rw [hfree] at hin
    cases hin
  · show ((w.waiting ++ [_]).map Prod.snd ++ _).Perm (((w.posted ++ [_]).filter Job.promise).map _)
    rw [List.filter_append, List.map_append, List.map_append, List.append_assoc]
    refine (List.perm_append_comm.append_left _).trans ?_
    rw [← List.append_assoc]
    exact h.calls.append_right _

/-- A thread goes on with the result. -/
theorem wake (h : Attended w) {thread number : Nat} {result : ρ}
    (hthread : w.waiting.lookup thread = some number)
    (hresult : w.results.lookup number = some result) :
    Attended { w with
      waiting := w.waiting.filter (fun p => p.1 != thread)
      returned := w.returned ++ [(number, result)] } := by
  obtain ⟨before, after, hsplit, hbefore⟩ := List.lookup_eq_some_iff.mp hthread
  have hthreads := h.threads
  rw [hsplit, List.map_append, List.nodup_append] at hthreads
  have hafter : ∀ p ∈ after, (p.1 != thread) = true := by
    intro p hp
    have hin : p.1 ∈ after.map Prod.fst := List.mem_map_of_mem hp
    exact bne_iff_ne.mpr (fun heq => (List.nodup_cons.mp hthreads.2.1).1 (heq ▸ hin))
  have hbefore' : ∀ p ∈ before, (p.1 != thread) = true := by
    intro p hp
    exact bne_iff_ne.mpr (Ne.symm (bne_iff_ne.mp (hbefore p hp)))
  have hleft : w.waiting.filter (fun p => p.1 != thread) = before ++ after := by
    rw [hsplit, List.filter_append, List.filter_eq_self.mpr hbefore',
      List.filter_cons_of_neg (by simp), List.filter_eq_self.mpr hafter]
  have hcalls := h.calls
  rw [hsplit] at hcalls
  refine ⟨?_, ?_, ?_⟩
  · exact h.threads.sublist (List.filter_sublist.map _)
  · show ((w.waiting.filter _).map Prod.snd ++ (w.returned ++ [_]).map Prod.fst).Perm _
    rw [hleft]
    refine List.Perm.trans ?_ hcalls
    simp only [List.map_append, List.map_cons, List.map_nil, List.append_assoc, List.cons_append]
    refine List.Perm.append_left _ ?_
    rw [← List.append_assoc]
    exact List.perm_append_comm
  · intro p hp
    rcases List.mem_append.mp hp with hp | hp
    · exact h.returned p hp
    · rw [List.mem_singleton.mp hp]
      obtain ⟨before, after, hresults, -⟩ := List.lookup_eq_some_iff.mp hresult
      rw [hresults]
      exact List.mem_append_right _ List.mem_cons_self

theorem ioStep (h : Attended w) (hs : w.IoStep v) : Attended v := by
  cases hs with
  | take job queue hidle hgoes hqueue => exact h.mono rfl rfl rfl (fun _ hp => hp)
  | finish job result hbusy =>
    refine h.mono rfl rfl rfl (fun p hp => ?_)
    show p ∈ if _ then _ else _
    split
    · exact List.mem_append_left _ hp
    · exact hp
  | goOn job rest rest' object hbusy hsame hspawns => exact h.mono rfl rfl rfl (fun _ hp => hp)
  | spawn job task next hbusy => exact h.mono rfl rfl (filter_post w task) (fun _ hp => hp)

theorem step (h : Attended w) {event : RunnerEvent σ ρ} (hs : w.step event = some v) :
    Attended v := by
  cases step_happens hs with
  | call thread task hfree => exact h.call hfree task
  | post _ task htask => exact h.post task
  | io _ hio => exact h.ioStep hio
  | wake thread number result hthread hresult => exact h.wake hthread hresult
  | stop => exact h.mono rfl rfl rfl (fun _ hp => hp)

end Attended

/-! ### Whole runs -/

theorem exists_of_run {s : σ} {events : List (RunnerEvent σ ρ)} {w : TaskRunner σ ρ}
    (hrun : Run.run step (new s) events = some w) : (∃ done, Ordered s done w) ∧ Attended w := by
  refine Run.run_invariant (I := fun w => (∃ done, Ordered s done w) ∧ Attended w)
    (P := fun _ _ => True) ?_ ⟨⟨[], .new s⟩, .new s⟩ (Run.along_true _ events) hrun
  rintro w event v ⟨⟨done, hordered⟩, hattended⟩ - hs
  obtain ⟨done', hordered', -⟩ := hordered.step hs
  exact ⟨⟨done', hordered'⟩, hattended.step hs⟩

theorem Ordered.nodup {s : σ} {done : List (Job σ ρ)} {w : TaskRunner σ ρ} (h : Ordered s done w) :
    (w.posted.map Job.number).Nodup := by
  rw [h.numbered]
  exact List.nodup_range

/-- A promise that was set is that of a job that is done. -/
theorem Ordered.exists_done {s : σ} {done : List (Job σ ρ)} {w : TaskRunner σ ρ}
    (h : Ordered s done w) {p : Nat × ρ} (hp : p ∈ w.results) :
    ∃ job, (job, p.2) ∈ (replay Job.exec s done).1 ∧ job.number = p.1 ∧ job.promise = true := by
  rw [h.results] at hp
  obtain ⟨⟨job, result⟩, hin, heq⟩ := List.mem_filterMap.mp hp
  rw [promised?] at heq
  split at heq
  · rename_i hpromise
    obtain rfl := Option.some.inj heq
    exact ⟨job, hin, rfl, hpromise⟩
  · cases heq

/-- **The caller of a job that is not done still waits.** -/
theorem Ordered.waits {s : σ} {done : List (Job σ ρ)} {w : TaskRunner σ ρ} (h : Ordered s done w)
    (ha : Attended w) {job : Job σ ρ} (hjob : job ∈ (w.running.map Prod.fst).toList ++ w.queue)
    (hpromise : job.promise = true) : ∃ thread, (thread, job.number) ∈ w.waiting := by
  have hposted : job ∈ w.posted := h.posted ▸ List.mem_append_right done hjob
  have hcall : job.number ∈ (w.posted.filter Job.promise).map Job.number :=
    List.mem_map_of_mem (List.mem_filter.mpr ⟨hposted, hpromise⟩)
  rcases List.mem_append.mp (ha.calls.mem_iff.mpr hcall) with hin | hin
  · obtain ⟨p, hp, heq⟩ := List.mem_map.mp hin
    exact ⟨p.1, heq ▸ hp⟩
  · obtain ⟨p, hp, heq⟩ := List.mem_map.mp hin
    obtain ⟨job', hjob', hnumber, -⟩ := h.exists_done (ha.returned p hp)
    have hdone : job' ∈ done := by
      rw [← map_fst_replay Job.exec s done]
      exact List.mem_map_of_mem hjob'
    have hnodup := h.nodup
    rw [h.posted, List.map_append, List.nodup_append] at hnodup
    exact absurd (hnumber.trans heq)
      (hnodup.2.2 _ (List.mem_map_of_mem hdone) _ (List.mem_map_of_mem hjob))

/-- **The calls are linearizable.**  In every run, some of the tasks that were posted are
done, the first ones; what every call has returned is what its task returns when these
tasks are run one after another from the start, and between two handlers the object is as
these have left it.  Nothing else has been run but the handler that is under way.  As long
as a task is not done, its caller is inside the call, so that the promise and what the
task refers to of the caller's are there. -/
theorem linearizable {s : σ} {events : List (RunnerEvent σ ρ)} {w : TaskRunner σ ρ}
    (hrun : Run.run step (new s) events = some w) :
    ∃ done left, w.posted = done ++ left ∧
      (∀ p ∈ w.returned, ∃ job, (job, p.2) ∈ (replay Job.exec s done).1 ∧ job.number = p.1) ∧
      (w.running = none → w.object = (replay Job.exec s done).2 ∧ left = w.queue) ∧
      (∀ job rest, w.running = some (job, rest) → left = job :: w.queue ∧
        rest.exec w.object = job.exec (replay Job.exec s done).2) ∧
      ∀ job ∈ left, job.promise = true → ∃ thread, (thread, job.number) ∈ w.waiting := by
  obtain ⟨⟨done, h⟩, ha⟩ := exists_of_run hrun
  refine ⟨done, _, h.posted, ?_, ?_, ?_, fun job hjob => h.waits ha hjob⟩
  · intro p hp
    obtain ⟨job, hjob, hnumber, -⟩ := h.exists_done (ha.returned p hp)
    exact ⟨job, hjob, hnumber⟩
  · intro hidle
    refine ⟨h.idle hidle, ?_⟩
    rw [hidle]
    rfl
  · intro job rest hbusy
    refine ⟨?_, h.busy job rest hbusy⟩
    rw [hbusy]
    rfl

/-- A task that returns the object and counts it up. -/
def increment : Task Nat Nat := .read (fun n => .write (n + 1) (.ret n))

/-- Two threads call; the task of the second calls again, and posts one more. -/
def twoThreads : List (RunnerEvent Nat Nat) :=
  [.sync 1 increment, .io, .sync 2 (.sync increment (fun n => .async increment (.ret (10 + n)))), .io,
    .io, .io, .wake 1, .io, .io, .io, .io, .io, .io, .wake 2]

theorem linearizable_twoThreads :
    ∃ w, Run.run step (new 0) twoThreads = some w ∧ w.returned = [(0, 0), (1, 11)] ∧
      ∃ done left, w.posted = done ++ left ∧
        (∀ p ∈ w.returned, ∃ job, (job, p.2) ∈ (replay Job.exec 0 done).1 ∧ job.number = p.1) ∧
        (w.running = none → w.object = (replay Job.exec 0 done).2 ∧ left = w.queue) ∧
        (∀ job rest, w.running = some (job, rest) → left = job :: w.queue ∧
          rest.exec w.object = job.exec (replay Job.exec 0 done).2) ∧
        ∀ job ∈ left, job.promise = true → ∃ thread, (thread, job.number) ∈ w.waiting := by
  have hmap : (Run.run step (new 0) twoThreads).map returned = some [(0, 0), (1, 11)] := by
    decide +kernel
  obtain ⟨w, hrun, hreturned⟩ := Option.map_eq_some_iff.mp hmap
  exact ⟨w, hrun, hreturned, linearizable hrun⟩

end TaskRunner

end Ibase
