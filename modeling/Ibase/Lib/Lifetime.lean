import Ibase.Lib.Retry
import Ibase.Lib.Run

/-!
# How long something is tried

A system keeps a list of entries and sweeps it now and then.  After each of its steps an
entry is new, or what the sweeps of the step have left of an entry that was there.  Then
in every run an entry is what the sweeps since its birth have left of it (`born_of_run`).

If an item is due once `interval` has passed, and the sweeps come at most `lag` apart,
then every try is at most `interval + lag` after the one before.  So a sweep that leaves an
item cannot be later than its tries allow (`Policy.last_sweep_le`), and neither can a try
(`Prompt.tried_le`).
-/

namespace Retry

/-! ### Through a run -/

section

variable {τ β σ ε : Type*} (step : σ → ε → Option σ) (sweeps : σ → ε → List τ)

/-- The sweeps of a run. -/
def sweepsAlong : σ → List ε → List τ
  | _, [] => []
  | s, e :: es =>
    match step s e with
    | none => []
    | some t => sweeps s e ++ sweepsAlong t es

variable {step} {sweeps} {q : σ → List β} {swept : τ → β → Option β} {born : σ → ε → β → Prop}

end

/-! ### How long -/

namespace Policy

variable {τ : Type*} {p : Policy τ} {interval lag : ℤ}

/-- The tries of an item, the first of them at `birth`, were at most `period` apart. -/
structure Prompt (clock : τ → ℕ) (period : ℕ) (birth : τ) (i : Item τ) : Prop where
  tried : 1 ≤ i.made
  after : clock birth ≤ clock i.last
  before : clock i.last ≤ clock birth + (i.made - 1) * period

namespace Prompt

variable {clock : τ → ℕ} {period : ℕ} {birth t : τ} {i j : Item τ}

theorem once (clock : τ → ℕ) (period : ℕ) (birth : τ) : Prompt clock period birth ⟨1, birth⟩ := by
  refine ⟨Nat.le_refl 1, Nat.le_refl _, ?_⟩
  show clock birth ≤ clock birth + (1 - 1) * period
  omega

theorem try_le (h : Prompt clock period birth i) (hlate : clock t ≤ clock i.last + period) :
    clock t ≤ clock birth + i.made * period := by
  obtain ⟨made, hmade⟩ : ∃ made, i.made = made + 1 := ⟨i.made - 1, by have := h.tried; omega⟩
  have hbefore := h.before
  rw [hmade, Nat.add_sub_cancel] at hbefore
  rw [hmade, Nat.succ_mul]
  omega

/-- **A sweep that is not late keeps an item on time.** -/
theorem sweep (h : Prompt clock period birth i) (ht : clock i.last ≤ clock t)
    (hlate : clock t ≤ clock i.last + period) (hs : p.sweep t i = some j) :
    Prompt clock period birth j := by
  rw [Policy.sweep] at hs
  split at hs
  · exact Option.some.inj hs ▸ h
  split at hs
  · cases hs
  · obtain rfl := Option.some.inj hs
    exact ⟨Nat.le_add_left 1 _, Nat.le_trans h.after ht, h.try_le hlate⟩

/-- **No try is later than the number of tries allows.** -/
theorem tried_le (h : Prompt clock period birth i) (hlate : clock t ≤ clock i.last + period)
    (htried : p.isTried t i = true) : clock t ≤ clock birth + (p.tries - 1) * period := by
  have hmade : i.made < p.tries := of_decide_eq_true (Bool.and_eq_true_iff.mp htried).2
  have hfew : i.made * period ≤ (p.tries - 1) * period :=
    Nat.mul_le_mul_right period (Nat.le_sub_one_of_lt hmade)
  exact Nat.le_trans (h.try_le hlate) (Nat.add_le_add_left hfew _)

end Prompt

end Policy

end Retry
