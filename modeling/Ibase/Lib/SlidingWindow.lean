import Mathlib

/-!
# A memory of the last `w` ticks

The plain model of a filter for repeats: it keeps the accepted items with their
ticks and turns an item down if the same item was accepted less than `w` ticks
ago.  Whatever implements it, two accepted copies of one item are `w` ticks
apart (`spaced_receive`).
-/

namespace SlidingWindow

variable {α : Type*}

/-- Item `a` was accepted less than `w` ticks before tick `t`. -/
def Seen (w : Nat) (hist : List (α × Nat)) (t : Nat) (a : α) : Prop :=
  ∃ p ∈ hist, p.1 = a ∧ t < p.2 + w

/-- Two acceptances of one item lie at least `w` ticks apart. -/
def Spaced (w : Nat) (hist : List (α × Nat)) : Prop :=
  hist.Pairwise (fun p q => p.1 = q.1 → p.2 + w ≤ q.2)

/-- The acceptances from tick `lo` on. -/
def live (lo : Nat) (hist : List (α × Nat)) : List (α × Nat) := hist.filter (fun p => lo ≤ p.2)

theorem mem_live {lo : Nat} {hist : List (α × Nat)} {p : α × Nat} :
    p ∈ live lo hist ↔ p ∈ hist ∧ lo ≤ p.2 := by
  rw [live, List.mem_filter, decide_eq_true_eq]

theorem spaced_nil (w : Nat) : Spaced w ([] : List (α × Nat)) := List.Pairwise.nil

/-- Within one window every item is accepted once. -/
theorem nodup_live {w : Nat} {hist : List (α × Nat)} (h : Spaced w hist) (lo t : Nat) (hlo : t < lo + w)
    (ht : ∀ p ∈ hist, p.2 ≤ t) : ((live lo hist).map Prod.fst).Nodup := by
  rw [List.Nodup, List.pairwise_map]
  have hpair : (live lo hist).Pairwise (fun p q => p.1 = q.1 → p.2 + w ≤ q.2) :=
    List.Pairwise.sublist List.filter_sublist h
  refine List.Pairwise.imp_of_mem ?_ hpair
  intro p q hp hq hpq heq
  have h1 := (mem_live.mp hp).2
  have h2 := ht q (mem_live.mp hq).1
  have h3 := hpq heq
  omega

/-! ### Receiving -/

variable [DecidableEq α]

instance (w : Nat) (hist : List (α × Nat)) (t : Nat) (a : α) : Decidable (Seen w hist t a) :=
  inferInstanceAs (Decidable (∃ p ∈ hist, p.1 = a ∧ t < p.2 + w))

/-- One item at one tick: whether it is a repeat, and the accepted items then. -/
def receive (w : Nat) (hist : List (α × Nat)) (t : Nat) (a : α) : Bool × List (α × Nat) :=
  if Seen w hist t a then (true, hist) else (false, hist ++ [(a, t)])

theorem receive_seen {w : Nat} {hist : List (α × Nat)} {t : Nat} {a : α} (h : Seen w hist t a) :
    receive w hist t a = (true, hist) := if_pos h

theorem receive_new {w : Nat} {hist : List (α × Nat)} {t : Nat} {a : α} (h : ¬ Seen w hist t a) :
    receive w hist t a = (false, hist ++ [(a, t)]) := if_neg h

theorem receive_fst (w : Nat) (hist : List (α × Nat)) (t : Nat) (a : α) :
    (receive w hist t a).1 = true ↔ Seen w hist t a := by
  by_cases h : Seen w hist t a
  · rw [receive_seen h]; exact ⟨fun _ => h, fun _ => rfl⟩
  · rw [receive_new h]; exact ⟨fun he => absurd he (by simp), fun hs => absurd hs h⟩

/-- **Receiving keeps the acceptances apart.** -/
theorem spaced_receive {w : Nat} {hist : List (α × Nat)} (h : Spaced w hist) (t : Nat) (a : α) :
    Spaced w (receive w hist t a).2 := by
  by_cases hs : Seen w hist t a
  · rw [receive_seen hs]; exact h
  · rw [receive_new hs]
    refine List.pairwise_append.mpr ⟨h, List.pairwise_singleton _ _, ?_⟩
    intro p hp q hq heq
    obtain rfl : q = (a, t) := List.mem_singleton.mp hq
    by_contra hlt
    exact hs ⟨p, hp, heq, Nat.lt_of_not_le hlt⟩

/-- Acceptances only happen at the tick of the call. -/
theorem receive_le {w : Nat} {hist : List (α × Nat)} {t : Nat} (h : ∀ p ∈ hist, p.2 ≤ t) (a : α) :
    ∀ p ∈ (receive w hist t a).2, p.2 ≤ t := by
  intro p hp
  by_cases hs : Seen w hist t a
  · rw [receive_seen hs] at hp; exact h p hp
  · rw [receive_new hs] at hp
    rcases List.mem_append.mp hp with hp | hp
    · exact h p hp
    · obtain rfl : p = (a, t) := List.mem_singleton.mp hp
      exact Nat.le_refl t

end SlidingWindow
