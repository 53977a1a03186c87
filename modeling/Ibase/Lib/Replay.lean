import Mathlib

/-!
# Jobs one after another

`replay run s jobs` runs the jobs in order on the state `s`: it is the list of the jobs
with their results, and the state after the last.  One more job is one more entry
(`replay_concat`).
-/

namespace Replay

variable {τ σ ρ : Type*} (run : τ → σ → ρ × σ)

def one (p : List (τ × ρ) × σ) (job : τ) : List (τ × ρ) × σ :=
  (p.1 ++ [(job, (run job p.2).1)], (run job p.2).2)

def replay (s : σ) (jobs : List τ) : List (τ × ρ) × σ := jobs.foldl (one run) ([], s)

theorem replay_concat (s : σ) (jobs : List τ) (job : τ) :
    replay run s (jobs ++ [job]) = one run (replay run s jobs) job := by
  rw [replay, List.foldl_append]
  rfl

/-- Every job is there once, in its place. -/
theorem map_fst_replay (s : σ) (jobs : List τ) : (replay run s jobs).1.map Prod.fst = jobs := by
  induction jobs using List.reverseRecOn with
  | nil => rfl
  | append_singleton jobs job ih =>
    rw [replay_concat]
    show ((replay run s jobs).1 ++ [_]).map Prod.fst = _
    rw [List.map_append, ih]
    rfl

end Replay
