import Mathlib

/-!
# Items that come, stay and go

A ledger has every item that ever came once, among those that are still there or
among those that have gone.  These are the entries that keep it so.
-/

namespace Ledger

variable {α : Type*}

theorem come {all here gone : List α} (h : all.Perm (here ++ gone)) (x : α) :
    (all ++ [x]).Perm (here ++ [x] ++ gone) := by
  rw [List.append_assoc]
  refine (List.perm_append_singleton x all).trans ((h.cons x).trans ?_)
  exact List.perm_middle.symm

theorem go {all here here' gone : List α} {x : α} (h : all.Perm (here ++ gone))
    (hx : here.Perm (x :: here')) : all.Perm (here' ++ (gone ++ [x])) := by
  rw [← List.append_assoc]
  refine h.trans ((hx.append_right gone).trans ?_)
  exact (List.perm_append_singleton x (here' ++ gone)).symm

/-- The first item of a kind, and the rest. -/
theorem perm_cons_eraseP {p : α → Bool} {xs : List α} {x : α} (h : xs.find? p = some x) :
    xs.Perm (x :: xs.eraseP p) := by
  induction xs with
  | nil => exact absurd h (by simp)
  | cons y ys ih =>
    by_cases hy : p y = true
    · rw [List.find?_cons_of_pos hy] at h
      obtain rfl := Option.some.inj h
      rw [List.eraseP_cons_of_pos hy]
    · rw [List.find?_cons_of_neg hy] at h
      rw [List.eraseP_cons_of_neg hy]
      exact ((ih h).cons y).trans (List.Perm.swap x y _)

end Ledger
