import Mathlib

/-!
# A flat memory and its segments

A memory gives every address an item.  `segment m p n` reads `n` items from `p`
on and `write m p xs` stores `xs` from `p` on; the lemmas say what a segment
reads after a write that covers it, lies beside it, or ends where it begins.
-/

namespace Memory

variable {α : Type*}

/-- The `n` items from address `p` on. -/
def segment (m : Nat → α) (p n : Nat) : List α := (List.range n).map (fun i => m (p + i))

/-- The memory with `xs` stored from address `p` on. -/
def write (m : Nat → α) (p : Nat) (xs : List α) : Nat → α :=
  fun i => if p ≤ i then xs.getD (i - p) (m i) else m i

@[simp] theorem length_segment (m : Nat → α) (p n : Nat) : (segment m p n).length = n := by
  rw [segment, List.length_map, List.length_range]

theorem getElem?_segment (m : Nat → α) (p : Nat) {n i : Nat} (h : i < n) :
    (segment m p n)[i]? = some (m (p + i)) := by
  rw [segment, List.getElem?_map, List.getElem?_range h]
  rfl

/-- Two memories that agree on a range of addresses have the same segment there. -/
theorem segment_congr {m m' : Nat → α} {p n : Nat} (h : ∀ i, i < n → m (p + i) = m' (p + i)) :
    segment m p n = segment m' p n :=
  List.map_congr_left (fun i hi => h i (List.mem_range.mp hi))

/-- A segment splits at any point. -/
theorem segment_add (m : Nat → α) (p n k : Nat) :
    segment m p (n + k) = segment m p n ++ segment m (p + n) k := by
  simp only [segment, List.range_add, List.map_append, List.map_map, Function.comp_def,
    Nat.add_assoc]

theorem drop_segment (m : Nat → α) (p : Nat) {n k : Nat} (h : k ≤ n) :
    (segment m p n).drop k = segment m (p + k) (n - k) := by
  conv_lhs => rw [show n = k + (n - k) by omega, segment_add]
  rw [List.drop_left' (length_segment m p k)]

theorem take_segment (m : Nat → α) (p : Nat) {n k : Nat} (h : k ≤ n) :
    (segment m p n).take k = segment m p k := by
  conv_lhs => rw [show n = k + (n - k) by omega, segment_add]
  rw [List.take_left' (length_segment m p k)]

/-- What was written is read back. -/
theorem segment_write (m : Nat → α) (p : Nat) (xs : List α) :
    segment (write m p xs) p xs.length = xs := by
  apply List.ext_getElem?
  intro i
  rcases Nat.lt_or_ge i xs.length with hi | hi
  · rw [getElem?_segment _ _ hi, write, if_pos (Nat.le_add_right p i), Nat.add_sub_cancel_left,
      List.getElem?_eq_getElem hi, List.getD_eq_getElem _ _ hi]
  · rw [List.getElem?_eq_none hi, List.getElem?_eq_none (by rw [length_segment]; exact hi)]

theorem write_below (m : Nat → α) {p i : Nat} (xs : List α) (h : i < p) : write m p xs i = m i :=
  if_neg (Nat.not_le_of_lt h)

/-- A write leaves the segments before it alone. -/
theorem segment_write_below (m : Nat → α) {p q n : Nat} (xs : List α) (h : q + n ≤ p) :
    segment (write m p xs) q n = segment m q n :=
  segment_congr (fun i hi => write_below m xs (by omega))

/-- A segment that ends where the write ends. -/
theorem segment_write_append (m : Nat → α) {p q : Nat} (xs : List α) (h : q ≤ p) :
    segment (write m p xs) q (p - q + xs.length) = segment m q (p - q) ++ xs := by
  rw [segment_add, segment_write_below m xs (by omega), show q + (p - q) = p by omega,
    segment_write]

end Memory
