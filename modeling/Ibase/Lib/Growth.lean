import Mathlib.Data.List.Basic

/-!
# A log that grows

`Grows P log log'` says that entries were written at the end of `log`, and that `P` holds
of each of them.  What is in the log then was there before or satisfies `P`.  Entries of a
log that exclude each other are counted in `countP_le_one`.
-/

namespace Growth

/-- `log'` is `log` and more, with `P` of what is new. -/
def Grows {α : Type*} (P : α → Prop) (log log' : List α) : Prop :=
  ∃ new, log' = log ++ new ∧ ∀ a ∈ new, P a

namespace Grows

variable {α : Type*} {P Q : α → Prop} {log log' log'' : List α}

theorem refl (log : List α) : Grows P log log :=
  ⟨[], (List.append_nil log).symm, fun _ ha => absurd ha List.not_mem_nil⟩

theorem trans (h : Grows P log log') (h' : Grows P log' log'') : Grows P log log'' := by
  obtain ⟨new, rfl, hnew⟩ := h
  obtain ⟨new', rfl, hnew'⟩ := h'
  refine ⟨new ++ new', List.append_assoc log new new', fun a ha => ?_⟩
  rcases List.mem_append.mp ha with ha | ha
  · exact hnew a ha
  · exact hnew' a ha

theorem mono (h : Grows P log log') (hPQ : ∀ a, P a → Q a) : Grows Q log log' := by
  obtain ⟨new, heq, hnew⟩ := h
  exact ⟨new, heq, fun a ha => hPQ a (hnew a ha)⟩

theorem concat (log : List α) {a : α} (h : P a) : Grows P log (log ++ [a]) :=
  ⟨[a], rfl, fun _ hb => List.mem_singleton.mp hb ▸ h⟩

/-- An entry stands where it stood, or behind all that was there. -/
theorem split (h : Grows P log log') {a : α} {before after : List α}
    (heq : log' = before ++ a :: after) :
    (∃ after', log = before ++ a :: after') ∨ (log <+: before ∧ P a) := by
  obtain ⟨new, rfl, hnew⟩ := h
  rcases List.append_eq_append_iff.mp heq with ⟨between, rfl, hsplit⟩ | ⟨between, rfl, hsplit⟩
  · have ha : a ∈ new := hsplit ▸ List.mem_append_right between List.mem_cons_self
    exact .inr ⟨List.prefix_append .., hnew a ha⟩
  · cases between with
    | nil =>
      have ha : a ∈ new := by
        rw [← List.nil_append new, ← hsplit]
        exact List.mem_cons_self
      rw [List.append_nil]
      exact .inr ⟨List.prefix_refl _, hnew a ha⟩
    | cons b between =>
      obtain ⟨rfl, -⟩ := List.cons.inj hsplit
      exact .inl ⟨between, rfl⟩

/-- A loop writes at the end of the log if each round does, as long as `I` holds. -/
theorem foldl {σ β : Type*} {r : σ → List α} {f : σ → β → σ} {I : σ → Prop} {bs : List β}
    (hf : ∀ s, I s → ∀ b ∈ bs, Grows P (r s) (r (f s b)) ∧ I (f s b)) {s : σ} (hs : I s) :
    Grows P (r s) (r (bs.foldl f s)) := by
  induction bs generalizing s with
  | nil => exact refl _
  | cons b bs ih =>
    obtain ⟨hround, hnext⟩ := hf s hs b List.mem_cons_self
    exact hround.trans (ih (fun s hs c hc => hf s hs c (List.mem_cons_of_mem b hc)) hnext)

end Grows

/-- Of entries that exclude each other there is one at most. -/
theorem countP_le_one {α : Type*} {p : α → Bool} {log : List α}
    (h : log.Pairwise (fun a b => ¬ (p a = true ∧ p b = true))) : log.countP p ≤ 1 := by
  induction log with
  | nil => exact Nat.zero_le 1
  | cons a log ih =>
    obtain ⟨hfirst, hrest⟩ := List.pairwise_cons.mp h
    by_cases ha : p a = true
    · have hnone : log.countP p = 0 :=
        List.countP_eq_zero.mpr (fun b hb hpb => hfirst b hb ⟨ha, hpb⟩)
      rw [List.countP_cons_of_pos ha]
      omega
    · rw [List.countP_cons_of_neg ha]
      exact ih hrest

end Growth
