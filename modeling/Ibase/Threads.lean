import Ibase.TaskRunner
import Ibase.Service

/-!
# Threads and the server

When a call of `run_task_in_the_iocontext_sync` returns, and where the calls of many
threads can bring the server: nowhere that one event after another does not.
-/

namespace Ibase

namespace TaskRunner

open Replay

variable {σ ρ : Type}

/-! ### When a call returns -/

/-- `v` comes from `w` while the threads that wait go on waiting. -/
structure Serves (w v : TaskRunner σ ρ) : Prop where
  reaches : Run.Reaches step w v
  waiting : v.waiting = w.waiting
  stopped : v.stopped = w.stopped
  results : ∀ p ∈ w.results, p ∈ v.results

namespace Serves

variable {w v u : TaskRunner σ ρ}

theorem refl (w : TaskRunner σ ρ) : w.Serves w := ⟨.refl w, rfl, rfl, fun _ hp => hp⟩

theorem trans (h : w.Serves v) (h' : v.Serves u) : w.Serves u :=
  ⟨h.reaches.trans h'.reaches, h'.waiting.trans h.waiting, h'.stopped.trans h.stopped,
    fun p hp => h'.results p (h.results p hp)⟩

theorem io (hs : w.ioStep = some v) : w.Serves v := by
  have hreaches : Run.Reaches step w v := (Run.Reaches.refl w).concat (e := .io) hs
  cases ioStep_cases hs with
  | finish job result hbusy =>
    refine ⟨hreaches, rfl, rfl, fun p hp => ?_⟩
    show p ∈ if _ then _ else _
    split
    · exact List.mem_append_left _ hp
    · exact hp
  | _ => exact ⟨hreaches, rfl, rfl, fun _ hp => hp⟩

end Serves

/-- **A task comes to its end**, and the queue only grows meanwhile. -/
theorem exists_result (task : Task σ ρ) (k : ρ → Task σ ρ) {w : TaskRunner σ ρ} {job : Job σ ρ}
    (hrun : w.running = some (job, task.andThen k)) :
    ∃ v result, w.Serves v ∧ w.queue <+: v.queue ∧ v.running = some (job, k result) := by
  induction task generalizing w k with
  | ret result => exact ⟨w, result, .refl w, List.prefix_refl _, hrun⟩
  | read next ih =>
    let u : TaskRunner σ ρ := { w with running := some (job, (next w.object).andThen k) }
    have hs : w.ioStep = some u := by
      rw [ioStep, hrun]
      rfl
    obtain ⟨v, result, hserves, hqueue, hv⟩ := ih w.object k (w := u) rfl
    exact ⟨v, result, (Serves.io hs).trans hserves, hqueue, hv⟩
  | write object next ih =>
    let u : TaskRunner σ ρ := { w with object := object, running := some (job, next.andThen k) }
    have hs : w.ioStep = some u := by
      rw [ioStep, hrun]
      rfl
    obtain ⟨v, result, hserves, hqueue, hv⟩ := ih k (w := u) rfl
    exact ⟨v, result, (Serves.io hs).trans hserves, hqueue, hv⟩
  | sync task next iht ihn =>
    let t : TaskRunner σ ρ := { w with
      running := some (job, task.andThen (fun result => (next result).andThen k)) }
    have hs : w.ioStep = some t := by
      rw [ioStep, hrun]
      rfl
    obtain ⟨u, inner, hserves, hqueue, hu⟩ := iht _ (w := t) rfl
    obtain ⟨v, result, hserves', hqueue', hv⟩ := ihn inner k hu
    exact ⟨v, result, ((Serves.io hs).trans hserves).trans hserves', hqueue.trans hqueue', hv⟩
  | run task next iht ihn =>
    let t : TaskRunner σ ρ := { w with
      running := some (job, task.andThen (fun _ => next.andThen k)) }
    have hs : w.ioStep = some t := by
      rw [ioStep, hrun]
      rfl
    obtain ⟨u, _, hserves, hqueue, hu⟩ := iht _ (w := t) rfl
    obtain ⟨v, result, hserves', hqueue', hv⟩ := ihn k hu
    exact ⟨v, result, ((Serves.io hs).trans hserves).trans hserves', hqueue.trans hqueue', hv⟩
  | async task next _ ihn =>
    let u : TaskRunner σ ρ := { w.post false task with running := some (job, next.andThen k) }
    have hs : w.ioStep = some u := by
      rw [ioStep, hrun]
      rfl
    obtain ⟨v, result, hserves, hqueue, hv⟩ := ihn k (w := u) rfl
    exact ⟨v, result, (Serves.io hs).trans hserves, (List.prefix_append ..).trans hqueue, hv⟩

/-- The handler that runs comes to its end. -/
theorem exists_idle {w : TaskRunner σ ρ} {job : Job σ ρ} {rest : Task σ ρ}
    (hrun : w.running = some (job, rest)) :
    ∃ v, w.Serves v ∧ w.queue <+: v.queue ∧ v.running = none ∧
      (job.promise = true → ∃ result, (job.number, result) ∈ v.results) := by
  rw [← Task.andThen_ret rest] at hrun
  obtain ⟨u, result, hserves, hqueue, hu⟩ := exists_result rest .ret hrun
  have hs : u.ioStep = some { u with
      running := none
      results := if job.promise then u.results ++ [(job.number, result)] else u.results } := by
    rw [ioStep, hu]
  refine ⟨_, hserves.trans (Serves.io hs), hqueue, rfl, fun hpromise => ⟨result, ?_⟩⟩
  show _ ∈ if job.promise then _ else _
  rw [if_pos hpromise]
  exact List.mem_append_right _ List.mem_cons_self

/-- **A job in the queue is reached.** -/
theorem exists_served {before after : List (Job σ ρ)} {job : Job σ ρ} (hpromise : job.promise = true)
    {w : TaskRunner σ ρ} (hidle : w.running = none) (hstopped : w.stopped = false)
    (hqueue : w.queue = before ++ job :: after) :
    ∃ v, w.Serves v ∧ ∃ result, (job.number, result) ∈ v.results := by
  induction before generalizing w after with
  | nil =>
    have hs : w.ioStep = some { w with running := some (job, job.task), queue := after } := by
      rw [ioStep, hidle, hstopped, hqueue]
      rfl
    obtain ⟨v, hserves, -, -, hresult⟩ := exists_idle (w := { w with
      running := some (job, job.task), queue := after }) rfl
    exact ⟨v, (Serves.io hs).trans hserves, hresult hpromise⟩
  | cons first before ih =>
    have hs : w.ioStep = some { w with
        running := some (first, first.task), queue := before ++ job :: after } := by
      rw [ioStep, hidle, hstopped, hqueue]
      rfl
    obtain ⟨u, hserves, ⟨more, hmore⟩, hidle', -⟩ := exists_idle (w := { w with
      running := some (first, first.task), queue := before ++ job :: after }) rfl
    have hserves' := (Serves.io hs).trans hserves
    have hqueue' : u.queue = before ++ job :: (after ++ more) := by
      rw [← hmore, List.append_assoc]
      rfl
    obtain ⟨v, hserves'', hresult⟩ := ih hidle' (hserves'.stopped.trans hstopped) hqueue'
    exact ⟨v, hserves'.trans hserves'', hresult⟩

theorem exists_lookup {l : List (Nat × ρ)} {number : Nat} {result : ρ} (h : (number, result) ∈ l) :
    ∃ r, l.lookup number = some r := by
  induction l with
  | nil => exact absurd h List.not_mem_nil
  | cons p l ih =>
    obtain ⟨n, r⟩ := p
    rw [List.lookup_cons]
    split
    · exact ⟨r, rfl⟩
    · rename_i hne
      rcases List.mem_cons.mp h with heq | h
      · rw [(Prod.mk.inj heq).1, beq_self_eq_true] at hne
        cases hne
      · exact ih h

/-- A thread whose promise is set returns. -/
theorem Attended.exists_return {w : TaskRunner σ ρ} (h : Attended w) {thread number : Nat}
    (hwaits : (thread, number) ∈ w.waiting) {result : ρ} (hresult : (number, result) ∈ w.results) :
    ∃ v, w.step (.wake thread) = some v ∧ ∃ r, (number, r) ∈ v.returned := by
  obtain ⟨before, after, hsplit⟩ := List.append_of_mem hwaits
  have hthreads := h.threads
  rw [hsplit, List.map_append, List.nodup_append] at hthreads
  have hthread : w.waiting.lookup thread = some number := by
    refine List.lookup_eq_some_iff.mpr ⟨before, after, hsplit, fun p hp => ?_⟩
    exact bne_iff_ne.mpr
      (Ne.symm (hthreads.2.2 p.1 (List.mem_map_of_mem hp) thread List.mem_cons_self))
  obtain ⟨r, hr⟩ := exists_lookup hresult
  rw [TaskRunner.step, hthread]
  simp only
  rw [hr]
  exact ⟨_, rfl, r, List.mem_append_right _ List.mem_cons_self⟩

/-- The call of this number will not return: nothing takes its job any more. -/
structure Stuck (number : Nat) (w : TaskRunner σ ρ) : Prop where
  stopped : w.stopped = true
  unset : ∀ p ∈ w.results, p.1 ≠ number
  other : ∀ job rest, w.running = some (job, rest) → job.number ≠ number
  waits : ∀ p ∈ w.returned, p.1 ≠ number

theorem Stuck.step {number : Nat} {w v : TaskRunner σ ρ} (h : Stuck number w)
    {event : RunnerEvent σ ρ} (hs : w.step event = some v) : Stuck number v := by
  cases step_happens hs with
  | call thread task hfree => exact ⟨h.stopped, h.unset, h.other, h.waits⟩
  | post _ task htask => exact ⟨h.stopped, h.unset, h.other, h.waits⟩
  | io _ hio =>
    cases hio with
    | take job queue hidle hgoes hqueue =>
      rw [h.stopped] at hgoes
      cases hgoes
    | finish job result hbusy =>
      refine ⟨h.stopped, fun p hp => ?_, fun _ _ heq => (nomatch heq), h.waits⟩
      replace hp : p ∈ if job.promise then w.results ++ [(job.number, result)] else w.results := hp
      split at hp
      · rcases List.mem_append.mp hp with hp | hp
        · exact h.unset p hp
        · rw [List.mem_singleton.mp hp]
          exact h.other job _ hbusy
      · exact h.unset p hp
    | goOn job rest rest' object hbusy hsame hspawns =>
      refine ⟨h.stopped, h.unset, fun job' rest'' heq => ?_, h.waits⟩
      cases heq
      exact h.other job rest hbusy
    | spawn job task next hbusy =>
      refine ⟨h.stopped, h.unset, fun job' rest heq => ?_, h.waits⟩
      cases heq
      exact h.other job _ hbusy
  | wake thread number' result hthread hresult =>
    refine ⟨h.stopped, h.unset, h.other, fun p hp => ?_⟩
    rcases List.mem_append.mp hp with hp | hp
    · exact h.waits p hp
    · rw [List.mem_singleton.mp hp]
      obtain ⟨before, after, hresults, -⟩ := List.lookup_eq_some_iff.mp hresult
      exact h.unset (number', result) (hresults ▸ List.mem_append_right _ List.mem_cons_self)
  | stop => exact ⟨rfl, h.unset, h.other, h.waits⟩

/-- The job of a thread that waits. -/
theorem Attended.exists_job {w : TaskRunner σ ρ} (h : Attended w) {thread number : Nat}
    (hwaits : (thread, number) ∈ w.waiting) :
    ∃ job ∈ w.posted, job.number = number ∧ job.promise = true := by
  have hin : number ∈ w.waiting.map Prod.snd ++ w.returned.map Prod.fst :=
    List.mem_append_left _ (List.mem_map_of_mem hwaits)
  obtain ⟨job, hjob, hnumber⟩ := List.mem_map.mp (h.calls.mem_iff.mp hin)
  exact ⟨job, (List.mem_filter.mp hjob).1, hnumber, (List.mem_filter.mp hjob).2⟩

/-- **When a call can return.**  A thread that waits can get its result exactly if the
`io_context` was not stopped, or the promise is set already, or the handler that still
runs is its own.  So a call whose task is in the queue when the `io_context` is stopped
waits for ever, and so does each call after that. -/
theorem can_return_iff {s : σ} {events : List (RunnerEvent σ ρ)} {w : TaskRunner σ ρ}
    (hrun : Run.run step (new s) events = some w) {thread number : Nat}
    (hwaits : (thread, number) ∈ w.waiting) :
    (∃ more v, Run.run step w more = some v ∧ ∃ result, (number, result) ∈ v.returned) ↔
      w.stopped = false ∨ (∃ result, (number, result) ∈ w.results) ∨
        ∃ job rest, w.running = some (job, rest) ∧ job.number = number := by
  obtain ⟨⟨done, h⟩, ha⟩ := exists_of_run hrun
  obtain ⟨job, hjob, hnumber, hpromise⟩ := ha.exists_job hwaits
  have hreturn : ∀ v, w.Serves v → Attended v → (∃ result, (number, result) ∈ v.results) →
      ∃ more u, Run.run step w more = some u ∧ ∃ result, (number, result) ∈ u.returned := by
    rintro v hserves hv ⟨result, hresult⟩
    obtain ⟨u, hs, hreturned⟩ := hv.exists_return (hserves.waiting ▸ hwaits) hresult
    obtain ⟨more, hmore⟩ := hserves.reaches.concat hs
    exact ⟨more, u, hmore, hreturned⟩
  have hattended : ∀ v, w.Serves v → Attended v := by
    intro v hserves
    obtain ⟨more, hmore⟩ := hserves.reaches
    exact Run.run_invariant (P := fun _ _ => True) (fun _ _ _ ha _ hs => Attended.step ha hs) ha
      (Run.along_true _ more) hmore
  have hserved : ∀ v, w.Serves v → (∃ result, (number, result) ∈ v.results) →
      ∃ more u, Run.run step w more = some u ∧ ∃ result, (number, result) ∈ u.returned :=
    fun v hserves => hreturn v hserves (hattended v hserves)
  constructor
  · rintro ⟨more, v, hmore, result, hresult⟩
    by_contra hnot
    rw [not_or, not_or] at hnot
    obtain ⟨hstopped, hunset, hother⟩ := hnot
    have hstuck : Stuck number w := by
      refine ⟨Bool.eq_true_of_not_eq_false hstopped, ?_, ?_, ?_⟩
      · rintro ⟨n, r⟩ hp rfl
        exact hunset ⟨r, hp⟩
      · intro job' rest hrunning heq
        exact hother ⟨job', rest, hrunning, heq⟩
      · rintro ⟨n, r⟩ hp rfl
        exact hunset ⟨r, ha.returned _ hp⟩
    have hstuck' := Run.run_invariant (P := fun _ _ => True)
      (fun _ _ _ h _ hs => Stuck.step h hs) hstuck (Run.along_true _ more) hmore
    exact hstuck'.waits _ hresult rfl
  · rintro (hstopped | hset | ⟨job', rest, hrunning, hnumber'⟩)
    · rw [h.posted] at hjob
      rcases List.mem_append.mp hjob with hdone | hleft
      · rw [← map_fst_replay Job.exec s done] at hdone
        obtain ⟨⟨job', result⟩, hin, rfl⟩ := List.mem_map.mp hdone
        refine hserved w (.refl w) ⟨result, ?_⟩
        rw [h.results]
        refine List.mem_filterMap.mpr ⟨_, hin, ?_⟩
        rw [promised?, if_pos hpromise, hnumber]
      cases hrunning : w.running with
      | none =>
        rw [hrunning] at hleft
        obtain ⟨before, after, hqueue⟩ := List.append_of_mem hleft
        obtain ⟨v, hserves, hresult⟩ := exists_served hpromise hrunning hstopped hqueue
        exact hserved v hserves (hnumber ▸ hresult)
      | some p =>
        obtain ⟨job', rest⟩ := p
        obtain ⟨v, hserves, ⟨more, hmore⟩, hidle, hresult⟩ := exists_idle hrunning
        rw [hrunning] at hleft
        rcases List.mem_cons.mp hleft with rfl | hqueue
        · exact hserved v hserves (hnumber ▸ hresult hpromise)
        · obtain ⟨before, after, hsplit⟩ := List.append_of_mem (hmore ▸ List.mem_append_left more hqueue)
          obtain ⟨u, hserves', hresult'⟩ :=
            exists_served hpromise hidle (hserves.stopped.trans hstopped) hsplit
          exact hserved u (hserves.trans hserves') (hnumber ▸ hresult')
    · exact hserved w (.refl w) hset
    · have hsame : job' = job := by
        refine List.inj_on_of_nodup_map h.nodup ?_ hjob (hnumber'.trans hnumber.symm)
        rw [h.posted, hrunning]
        exact List.mem_append_right done List.mem_cons_self
      obtain ⟨v, hserves, -, -, hresult⟩ := exists_idle hrunning
      exact hserved v hserves (hnumber' ▸ hresult (hsame ▸ hpromise))

/-- A call that the stop has caught in the queue. -/
def caught : TaskRunner Nat Nat :=
  { new 0 with
    queue := [⟨0, true, increment⟩]
    stopped := true
    waiting := [(1, 0)]
    posted := [⟨0, true, increment⟩] }

/-- **It waits for ever.** -/
theorem can_return_iff_caught :
    Run.run step (new 0) [.sync 1 increment, .stop] = some caught ∧
      ¬ ∃ more v, Run.run step caught more = some v ∧ ∃ result, (0, result) ∈ v.returned := by
  have hrun : Run.run step (new 0) [.sync 1 increment, .stop] = some caught := rfl
  have hwaits : (1, 0) ∈ caught.waiting := List.mem_cons_self
  refine ⟨hrun, fun hreturn => ?_⟩
  rcases (can_return_iff hrun hwaits).mp hreturn with hstopped | ⟨result, hset⟩ | ⟨job, rest, hbusy, -⟩
  · cases hstopped
  · exact absurd hset List.not_mem_nil
  · cases hbusy

/-! ### The server behind it -/

/-- Only tasks in `A` were posted, and the handler that runs posts no other. -/
structure Posts (A : Task σ ρ → Prop) (w : TaskRunner σ ρ) : Prop where
  posted : ∀ job ∈ w.posted, A job.task
  queue : ∀ job ∈ w.queue, A job.task
  running : ∀ job rest, w.running = some (job, rest) → rest.Spawns A

namespace Posts

variable {A : Task σ ρ → Prop} {w v : TaskRunner σ ρ}

theorem post (h : Posts A w) {task : Task σ ρ} (htask : A task) (promise : Bool) :
    Posts A (w.post promise task) := by
  have hjob : ∀ {jobs : List (Job σ ρ)}, (∀ job ∈ jobs, A job.task) →
      ∀ job ∈ jobs ++ [⟨w.posted.length, promise, task⟩], A job.task := by
    intro jobs hjobs job hin
    rcases List.mem_append.mp hin with hin | hin
    · exact hjobs job hin
    · rw [List.mem_singleton.mp hin]
      exact htask
  exact ⟨hjob h.posted, hjob h.queue, h.running⟩

theorem ioStep (hA : ∀ task, A task → task.Spawns A) (h : Posts A w) (hs : w.IoStep v) :
    Posts A v := by
  cases hs with
  | take job queue hidle hgoes hqueue =>
    have hall := h.queue
    rw [hqueue] at hall
    refine ⟨h.posted, fun j hj => hall j (List.mem_cons_of_mem job hj), fun _ _ heq => ?_⟩
    cases heq
    exact hA _ (hall job List.mem_cons_self)
  | finish job result hbusy => exact ⟨h.posted, h.queue, fun _ _ heq => nomatch heq⟩
  | goOn job rest rest' object hbusy hsame hspawns =>
    refine ⟨h.posted, h.queue, fun _ _ heq => ?_⟩
    cases heq
    exact hspawns A (h.running job rest hbusy)
  | spawn job task next hbusy =>
    have hspawns := h.running job _ hbusy
    have hpost := h.post hspawns.1 false
    refine ⟨hpost.posted, hpost.queue, fun _ _ heq => ?_⟩
    cases heq
    exact hspawns.2

theorem step (hA : ∀ task, A task → task.Spawns A) (h : Posts A w) {event : RunnerEvent σ ρ}
    (hevent : ∀ task ∈ event.task?, A task) (hs : w.step event = some v) : Posts A v := by
  cases step_happens hs with
  | call thread task hfree =>
    have hpost := h.post (hevent task rfl) true
    exact ⟨hpost.posted, hpost.queue, hpost.running⟩
  | post _ task htask => exact h.post (hevent task htask) false
  | io _ hio => exact ioStep hA h hio
  | wake thread number result hthread hresult => exact ⟨h.posted, h.queue, h.running⟩
  | stop => exact ⟨h.posted, h.queue, h.running⟩

end Posts

/-- A handler of the server, and what happens in it: a function that a thread has called,
a completion, or a tick of a timer. -/
def handler (event : Server.ServiceEvent) : Task (Server.Ctx Server.Log) Bool :=
  .read (fun s =>
    match s.serviceStep event with
    | none => .ret false
    | some t => .write t (.ret true))

theorem spawns_handler (A : Task (Server.Ctx Server.Log) Bool → Prop) (event : Server.ServiceEvent) :
    (handler event).Spawns A := by
  intro s
  simp only
  split
  · trivial
  · trivial

theorem reaches_handler (s : Server.Ctx Server.Log) (event : Server.ServiceEvent) :
    Run.Reaches Server.Ctx.serviceStep s ((handler event).exec s).2 := by
  cases hs : s.serviceStep event with
  | none =>
    have hexec : (handler event).exec s = (false, s) := by
      rw [handler, Task.exec, hs]
      rfl
    rw [hexec]
    exact .refl s
  | some t =>
    have hexec : (handler event).exec s = (true, t) := by
      rw [handler, Task.exec, hs]
      rfl
    rw [hexec]
    exact (Run.Reaches.refl s).concat hs

/-- **With any number of threads the server is where one event after another leads it**, so
that what holds of the runs of `Ctx.serviceStep` holds between the handlers of the
`io_context`. -/
theorem reaches_of_threads {s : Server.Ctx Server.Log}
    {events : List (RunnerEvent (Server.Ctx Server.Log) Bool)}
    (hevents : ∀ event ∈ events, ∀ task ∈ event.task?, ∃ e, task = handler e)
    {w : TaskRunner (Server.Ctx Server.Log) Bool} (hrun : Run.run step (new s) events = some w)
    (hidle : w.running = none) : Run.Reaches Server.Ctx.serviceStep s w.object := by
  let A : Task (Server.Ctx Server.Log) Bool → Prop := fun task => ∃ e, task = handler e
  have hspawns : ∀ task, A task → task.Spawns A := by
    rintro task ⟨e, rfl⟩
    exact spawns_handler A e
  have hnew : Posts A (new s) := by
    refine ⟨fun _ hin => absurd hin List.not_mem_nil, fun _ hin => absurd hin List.not_mem_nil, ?_⟩
    exact fun _ _ heq => absurd heq (by simp [new])
  have hposts : Posts A w := Run.run_invariant
    (fun _ _ _ h hevent hs => Posts.step hspawns h hevent hs) hnew (Run.along_of_forall hevents _) hrun
  obtain ⟨⟨done, h⟩, -⟩ := exists_of_run hrun
  rw [h.idle hidle]
  have hdone : ∀ job ∈ done, A job.task :=
    fun job hjob => hposts.posted job (h.posted ▸ List.mem_append_left _ hjob)
  clear h
  induction done using List.reverseRecOn with
  | nil => exact .refl s
  | append_singleton done job ih =>
    rw [replay_concat]
    obtain ⟨e, he⟩ := hdone job (List.mem_append_right _ List.mem_cons_self)
    refine (ih (fun j hj => hdone j (List.mem_append_left _ hj))).trans ?_
    show Run.Reaches _ _ (job.task.exec _).2
    rw [he]
    exact reaches_handler _ e

end TaskRunner

end Ibase
