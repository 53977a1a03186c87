import Mathlib

/-!
# A queue that is served again and again

Entries join a queue at its end, and at some moments the first one is served.  If the
queue is served again whenever it is not empty, every entry has its turn.
-/

namespace FairQueue

variable {α : Type*} {queue : Nat → List α} {serves : Nat → Prop}

/-- The queue from each moment to the next; `serves t` says that its first entry is served
then. -/
structure Served (queue : Nat → List α) (serves : Nat → Prop) : Prop where
  joins : ∀ t, ¬ serves t → queue t <+: queue (t + 1)
  serve : ∀ t, serves t → (queue t).tail <+: queue (t + 1)
  fair : ∀ t, queue t ≠ [] → ∃ u, t ≤ u ∧ serves u

/-- Until the queue is served, it only grows. -/
theorem Served.first_service (h : Served queue serves) {t : Nat} (hne : queue t ≠ []) :
    ∃ u, t ≤ u ∧ serves u ∧ queue t <+: queue u := by
  classical
  obtain ⟨u, hu, hserves⟩ := h.fair t hne
  have hex : ∃ k, serves (t + k) := ⟨u - t, by rwa [Nat.add_sub_cancel' hu]⟩
  refine ⟨t + Nat.find hex, Nat.le_add_right _ _, Nat.find_spec hex, ?_⟩
  have hgrows : ∀ k, k ≤ Nat.find hex → queue t <+: queue (t + k) := by
    intro k
    induction k with
    | zero => exact fun _ => List.prefix_refl _
    | succ k ih =>
      intro hk
      have hearlier : ¬ serves (t + k) := Nat.find_min hex hk
      exact (ih (Nat.le_of_lt hk)).trans (h.joins (t + k) hearlier)
  exact hgrows _ (Nat.le_refl _)

/-- The entry at place `i` is first after `i` services. -/
theorem Served.turn_at (h : Served queue serves) {a : α} (i : Nat) {t : Nat}
    (ha : (queue t)[i]? = some a) : ∃ u, t ≤ u ∧ serves u ∧ ∃ rest, queue u = a :: rest := by
  induction i generalizing t with
  | zero =>
    cases hq : queue t with
    | nil =>
      rw [hq] at ha
      cases ha
    | cons b rest =>
      rw [hq] at ha
      obtain rfl := Option.some.inj ha
      obtain ⟨u, hu, hserves, more, hmore⟩ := h.first_service (t := t) (by simp [hq])
      refine ⟨u, hu, hserves, rest ++ more, ?_⟩
      rw [← hmore, hq]
      rfl
  | succ i ih =>
    have hne : queue t ≠ [] := by
      intro hnil
      rw [hnil] at ha
      cases ha
    obtain ⟨u, hu, hserves, more, hmore⟩ := h.first_service hne
    obtain ⟨after, hafter⟩ := h.serve u hserves
    have hlt : i + 1 < (queue t).length := (List.getElem?_eq_some_iff.mp ha).1
    have hplace : (queue (u + 1))[i]? = some a := by
      rw [← hafter, List.getElem?_append_left, List.getElem?_tail, ← hmore,
        List.getElem?_append_left hlt]
      · exact ha
      · rw [List.length_tail, ← hmore, List.length_append]
        omega
    obtain ⟨v, hv, hturn⟩ := ih hplace
    exact ⟨v, by omega, hturn⟩

/-- **Every entry has its turn.** -/
theorem Served.turn (h : Served queue serves) {a : α} {t : Nat} (ha : a ∈ queue t) :
    ∃ u, t ≤ u ∧ serves u ∧ ∃ rest, queue u = a :: rest := by
  obtain ⟨i, hi⟩ := List.getElem?_of_mem ha
  exact h.turn_at i hi

end FairQueue
