import Mathlib

/-!
# First in, first out

A queue with its history: what was put in since it was last emptied, and how much
of that has been taken out at the front.  What it still holds is the one without
the other, so that a store that agrees with `contents` after every operation has
lost, repeated and reordered nothing.
-/

/-- The items put in since the queue was last emptied, and how many of them were
taken out. -/
structure Fifo (α : Type*) where
  committed : List α
  consumed : Nat
  consumed_le : consumed ≤ committed.length

namespace Fifo

variable {α : Type*}

def empty : Fifo α := ⟨[], 0, Nat.le_refl 0⟩

/-- What was put in and not taken out. -/
def contents (q : Fifo α) : List α := q.committed.drop q.consumed

def put (q : Fifo α) (items : List α) : Fifo α where
  committed := q.committed ++ items
  consumed := q.consumed
  consumed_le := by
    rw [List.length_append]
    exact Nat.le_trans q.consumed_le (Nat.le_add_right ..)

/-- Take out `n` items, or all of them if there are fewer. -/
def take (q : Fifo α) (n : Nat) : Fifo α where
  committed := q.committed
  consumed := min (q.consumed + n) q.committed.length
  consumed_le := Nat.min_le_right ..

@[simp] theorem contents_put (q : Fifo α) (items : List α) :
    (q.put items).contents = q.contents ++ items :=
  List.drop_append_of_le_length q.consumed_le

@[simp] theorem contents_take (q : Fifo α) (n : Nat) : (q.take n).contents = q.contents.drop n := by
  show q.committed.drop (min (q.consumed + n) q.committed.length) = (q.committed.drop q.consumed).drop n
  rw [List.drop_drop]
  by_cases hle : q.consumed + n ≤ q.committed.length
  · rw [Nat.min_eq_left hle]
  · have hlen : q.committed.length ≤ q.consumed + n := by omega
    rw [Nat.min_eq_right hlen, List.drop_length, List.drop_eq_nil_of_le hlen]

end Fifo
