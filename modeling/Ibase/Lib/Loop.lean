import Mathlib

/-!
# Loops that return

The body of a loop returns a result or goes on with a new state.  `Returns` says
that the loop comes to an end, without a count of rounds, and `Reaches` names the
states that its rounds start in.  A model that counts rounds down returns what
the loop returns if it is given more rounds than a measure that every round
lowers (`returns_of_measure`).
-/

namespace Loop

variable {σ ρ : Type*} {body : σ → ρ ⊕ σ}

/-- The loop, started in this state, comes to an end with this result. -/
inductive Returns (body : σ → ρ ⊕ σ) : σ → ρ → Prop
  | done {s : σ} {r : ρ} (h : body s = .inl r) : Returns body s r
  | next {s t : σ} {r : ρ} (h : body s = .inr t) (ht : Returns body t r) : Returns body s r

/-- A round of the loop that was started in `s` starts in this state. -/
inductive Reaches (body : σ → ρ ⊕ σ) (s : σ) : σ → Prop
  | here : Reaches body s s
  | next {t u : σ} (ht : Reaches body s t) (h : body t = .inr u) : Reaches body s u

/-- **What a round keeps holds at every round.** -/
theorem Reaches.invariant {I : σ → Prop} (hstep : ∀ s t, I s → body s = .inr t → I t) {s t : σ}
    (hs : I s) (h : Reaches body s t) : I t := by
  induction h with
  | here => exact hs
  | next _ h ih => exact hstep _ _ ih h

/-- The first round moves into the rounds that follow it. -/
theorem Reaches.head {s t u : σ} (h : body s = .inr t) (hu : Reaches body t u) :
    Reaches body s u := by
  induction hu with
  | here => exact .next .here h
  | next _ h ih => exact .next ih h

/-- The result is that of the last round. -/
theorem Returns.last {s : σ} {r : ρ} (h : Returns body s r) :
    ∃ u, Reaches body s u ∧ body u = .inl r := by
  induction h with
  | done h => exact ⟨_, .here, h⟩
  | next h _ ih =>
    obtain ⟨u, hu, hr⟩ := ih
    exact ⟨u, hu.head h, hr⟩

/-- **A loop that counts its rounds down**, given more of them than a measure that
every round lowers. -/
theorem returns_of_measure {loop : Nat → σ → ρ} {I : σ → Prop} {m : σ → Nat}
    (hdone : ∀ n s r, body s = .inl r → loop (n + 1) s = r)
    (hnext : ∀ n s t, body s = .inr t → loop (n + 1) s = loop n t)
    (hstep : ∀ s t, I s → body s = .inr t → I t ∧ m t < m s) {n : Nat} {s : σ} (hs : I s)
    (hn : m s < n) : Returns body s (loop n s) := by
  induction n generalizing s with
  | zero => exact absurd hn (Nat.not_lt_zero _)
  | succ n ih =>
    cases hb : body s with
    | inl r =>
      rw [hdone n s r hb]
      exact .done hb
    | inr t =>
      obtain ⟨ht, hlt⟩ := hstep s t hs hb
      rw [hnext n s t hb]
      exact .next hb (ih ht (by omega))

end Loop
