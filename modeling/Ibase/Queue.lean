import Ibase.Lib.Fifo
import Ibase.Lib.Run
import Ibase.IoBuffer

/-!
# The receive buffer as a queue of bytes

The users of an `io_buffer` write in rounds, a `prepare`, some bytes stored in the
slab and a `commit` of as many, and between the rounds they `consume` what there
is and `clear`.  Beside the buffer runs a `Fifo` that takes the same bytes and
knows nothing of the storage; they agree in what is left to read
(`Queues.step`, `queues_of_run`).
-/

namespace Ibase

namespace IoBuffer

variable {α : Type}

/-- `io_buffer_view::io_buffer_view`: a region of memory with anything in it. -/
def view (data : Nat → α) (size : Nat) : IoBuffer α := ⟨data, size, 0, 0⟩

inductive QueueEvent (α : Type) where
  /-- `prepare(n)`, these items stored in the slab, and `commit` of as many. -/
  | write (n : Nat) (items : List α)
  | consume (n : Nat)
  | clear

/-- The items are at most as many as the slab has room for, and no more is
consumed than there is. -/
def queueStep (b : IoBuffer α) : QueueEvent α → Option (IoBuffer α)
  | .write n items =>
    if items.length ≤ (b.prepare n).1.size then
      some (((b.prepare n).2.fill (b.prepare n).1.data items).commit items.length)
    else none
  | .consume n => if n ≤ b.size then some (b.consume n) else none
  | .clear => some b.clear

/-- The same events on a queue. -/
def QueueEvent.apply (q : Fifo α) : QueueEvent α → Fifo α
  | .write _ items => q.put items
  | .consume n => q.take n
  | .clear => .empty

/-- The queue after these events. -/
def queueOf (events : List (QueueEvent α)) : Fifo α := events.foldl QueueEvent.apply .empty

/-! ### No subtraction goes below zero -/

theorem Valid.head_add_size {b : IoBuffer α} (h : b.Valid) : b.head + b.size = b.tail :=
  Nat.add_sub_cancel' h.head_le_tail

theorem Valid.freeSize_add_tail {b : IoBuffer α} (h : b.Valid) : b.freeSize + b.tail = b.length :=
  Nat.sub_add_cancel h.tail_le_length

theorem Valid.capacity_add_size {b : IoBuffer α} (h : b.Valid) : b.capacity + b.size = b.length := by
  have hsize := h.head_add_size
  have htail := h.tail_le_length
  exact Nat.sub_add_cancel (by omega)

/-- What a slab of `prepare` is: as long as asked for if there is room, inside the
storage, behind the unread bytes, which are still the same. -/
structure Prepared (b : IoBuffer α) (n : Nat) : Prop where
  valid : (b.prepare n).2.Valid
  unread : (b.prepare n).2.unread = b.unread
  size : (b.prepare n).1.size = min n b.capacity
  inside : (b.prepare n).1.data + (b.prepare n).1.size ≤ b.length
  behind : (b.prepare n).2.head + (b.prepare n).2.size ≤ (b.prepare n).1.data

theorem Valid.prepared {b : IoBuffer α} (h : b.Valid) (n : Nat) : b.Prepared n := by
  have hvalid := h.prepare n
  refine ⟨hvalid, unread_prepare b n, prepare_slab_size b n, prepare_slab_fits h n, ?_⟩
  rw [hvalid.head_add_size, prepare_slab_data]

/-- Storing in a slab touches no unread byte. -/
theorem Valid.unread_fill {b : IoBuffer α} (h : b.Valid) (items : List α) :
    (b.fill b.tail items).unread = b.unread := by
  have hsize := h.head_add_size
  exact Memory.segment_write_below b.buffer items (Nat.le_of_eq hsize)

/-! ### The buffer and the queue -/

/-- The buffer holds what is in the queue. -/
structure Queues (length : Nat) (b : IoBuffer α) (q : Fifo α) : Prop where
  valid : b.Valid
  length_eq : b.length = length
  unread_eq : b.unread = q.contents

theorem queues_view (data : Nat → α) (size : Nat) : Queues size (view data size) .empty :=
  ⟨⟨Nat.le_refl 0, Nat.zero_le size⟩, rfl, rfl⟩

namespace Queues

variable {length : Nat} {b b' : IoBuffer α} {q : Fifo α}

/-- A round of writing adds the stored items at the end. -/
theorem write (h : Queues length b q) {n : Nat} {items : List α}
    (hfit : items.length ≤ (b.prepare n).1.size) :
    Queues length (((b.prepare n).2.fill (b.prepare n).1.data items).commit items.length)
      (q.put items) := by
  have hp := h.valid.prepared n
  have hroom : (b.prepare n).2.tail + items.length ≤ (b.prepare n).2.length := by
    have hinside := hp.inside
    rw [prepare_slab_data] at hinside
    rw [length_prepare]
    omega
  refine ⟨(hp.valid.fill _ _).commit hroom, ?_, ?_⟩
  · show (b.prepare n).2.length = length
    rw [length_prepare, h.length_eq]
  · rw [prepare_slab_data, unread_commit_fill hp.valid, hp.unread, h.unread_eq, Fifo.contents_put]

theorem consume (h : Queues length b q) {n : Nat} (hn : n ≤ b.size) :
    Queues length (b.consume n) (q.take n) := by
  refine ⟨h.valid.consume n, ?_, ?_⟩
  · rw [length_consume, h.length_eq]
  · rw [unread_consume b hn, h.unread_eq, Fifo.contents_take]

theorem clear (h : Queues length b q) : Queues length b.clear .empty :=
  ⟨Valid.clear b, h.length_eq, unread_clear b⟩

/-- **Every event keeps the buffer and the queue together.** -/
theorem step (h : Queues length b q) {event : QueueEvent α} (hs : b.queueStep event = some b') :
    Queues length b' (event.apply q) := by
  cases event with
  | write n items =>
    rw [queueStep] at hs
    by_cases hfit : items.length ≤ (b.prepare n).1.size
    · rw [if_pos hfit] at hs
      exact Option.some.inj hs ▸ h.write hfit
    · rw [if_neg hfit] at hs
      cases hs
  | consume n =>
    rw [queueStep] at hs
    by_cases hn : n ≤ b.size
    · rw [if_pos hn] at hs
      exact Option.some.inj hs ▸ h.consume hn
    · rw [if_neg hn] at hs
      cases hs
  | clear => exact Option.some.inj hs ▸ h.clear

end Queues

theorem queues_of_run {data : Nat → α} {length : Nat} {events : List (QueueEvent α)} {b : IoBuffer α}
    (hrun : Run.run queueStep (view data length) events = some b) :
    Queues length b (queueOf events) :=
  Run.run_refines (fun _ _ _ _ h hs => h.step hs) (queues_view data length) hrun

/-- **The buffer is a queue of bytes.**  After any events on storage of any length
the indices are in order, so that `size`, `capacity` and `free_size` subtract nothing
from less; every slab is as long as it can be, inside the storage and behind the
unread bytes, which `prepare` and storing in the slab leave as they are; and the
unread bytes are those committed since the last `clear`, without those consumed. -/
theorem fifo_of_run {data : Nat → α} {length : Nat} {events : List (QueueEvent α)} {b : IoBuffer α}
    (hrun : Run.run queueStep (view data length) events = some b) :
    (b.head ≤ b.tail ∧ b.tail ≤ b.length ∧ b.length = length) ∧
      (b.head + b.size = b.tail ∧ b.capacity + b.size = b.length ∧ b.freeSize + b.tail = b.length) ∧
      (∀ n, b.Prepared n ∧
        ∀ items, ((b.prepare n).2.fill (b.prepare n).1.data items).unread = b.unread) ∧
      b.unread = (queueOf events).contents := by
  have h := queues_of_run hrun
  have hv := h.valid
  refine ⟨⟨hv.head_le_tail, hv.tail_le_length, h.length_eq⟩,
    ⟨hv.head_add_size, hv.capacity_add_size, hv.freeSize_add_tail⟩, ?_, h.unread_eq⟩
  intro n
  have hp := hv.prepared n
  refine ⟨hp, fun items => ?_⟩
  rw [prepare_slab_data, hp.valid.unread_fill, hp.unread]

/-- A second write finds one unread byte and no room behind it. -/
def compacting : List (QueueEvent Nat) := [.write 3 [1, 2, 3], .consume 2, .write 9 [4, 5, 6]]

theorem fifo_of_run_compacts :
    ∃ b, Run.run queueStep (view (fun _ => 0) 4) compacting = some b ∧ b.head = 0 ∧
      b.unread = [3, 4, 5, 6] := by
  have hrun : Run.run queueStep (view (fun _ => 0) 4) compacting = some _ := rfl
  exact ⟨_, hrun, rfl, (fifo_of_run hrun).2.2.2⟩

end IoBuffer

end Ibase
