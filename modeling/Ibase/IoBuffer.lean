import Ibase.Lib.Memory

/-!
# The receive buffer

`io_buffer.hpp`: a block of storage with two indices.  The bytes between `head`
and `tail` are unread, `prepare` hands out room behind `tail`, moving the unread
bytes to the front when there is not enough, `commit` takes what was put there
into the unread bytes, and `consume` drops unread bytes from the front.

The source stores `uint8_t`; the storage here holds items of any type, so that
an item may also carry where it came from.  A `size_t` is a `Nat`: as long as
`Valid` holds no subtraction of the source goes below zero.
-/

namespace Ibase

open Memory

/-- `bev::io_buffer_view` and its storage. -/
structure IoBuffer (α : Type) where
  buffer : Nat → α
  length : Nat
  head : Nat
  tail : Nat

/-- `io_buffer_view::slab`, its `data` as an index into the storage. -/
structure Slab where
  data : Nat
  size : Nat
  deriving DecidableEq, Repr

namespace IoBuffer

variable {α : Type}

/-- `io_buffer::io_buffer`: zeroed storage, both indices at its start. -/
def new (zero : α) (size : Nat) : IoBuffer α where
  buffer := fun _ => zero
  length := size
  head := 0
  tail := 0

def size (b : IoBuffer α) : Nat := b.tail - b.head
def capacity (b : IoBuffer α) : Nat := b.length - b.size
def freeSize (b : IoBuffer α) : Nat := b.length - b.tail

/-- `read_head()[0, size())`. -/
def unread (b : IoBuffer α) : List α := segment b.buffer b.head b.size

/-- The first half of `prepare`: move the unread bytes to the front if `n` bytes
do not fit behind them. -/
def makeRoom (b : IoBuffer α) (n : Nat) : IoBuffer α :=
  if n > b.freeSize then
    { b with buffer := write b.buffer 0 (segment b.buffer b.head (b.tail - b.head))
             tail := b.tail - b.head
             head := 0 }
  else b

def prepare (b : IoBuffer α) (n : Nat) : Slab × IoBuffer α :=
  ({ data := (b.makeRoom n).tail
     size := if n > (b.makeRoom n).capacity then (b.makeRoom n).capacity else n },
    b.makeRoom n)

def commit (b : IoBuffer α) (n : Nat) : IoBuffer α := { b with tail := b.tail + n }

def consume (b : IoBuffer α) (n : Nat) : IoBuffer α :=
  if b.head + n ≥ b.tail then { b with head := 0, tail := 0 } else { b with head := b.head + n }

def clear (b : IoBuffer α) : IoBuffer α := { b with head := 0, tail := 0 }

/-- `size_to_read` of `do_read_packet`. -/
def sizeToRead (b : IoBuffer α) : Nat := if b.freeSize > 0 then b.freeSize else b.capacity

/-- What the holder of a slab does: it stores items from `pos` on. -/
def fill (b : IoBuffer α) (pos : Nat) (items : List α) : IoBuffer α :=
  { b with buffer := write b.buffer pos items }

/-- The order of the indices that every user of the buffer relies on. -/
structure Valid (b : IoBuffer α) : Prop where
  head_le_tail : b.head ≤ b.tail
  tail_le_length : b.tail ≤ b.length

/-! ### What each operation leaves of the parts -/

@[simp] theorem tail_commit (b : IoBuffer α) (n : Nat) : (b.commit n).tail = b.tail + n := rfl
@[simp] theorem length_unread (b : IoBuffer α) : b.unread.length = b.size := length_segment ..

@[simp] theorem length_consume (b : IoBuffer α) (n : Nat) : (b.consume n).length = b.length := by
  unfold consume
  split <;> rfl

theorem tail_consume_le (b : IoBuffer α) (n : Nat) : (b.consume n).tail ≤ b.tail := by
  unfold consume
  split
  · exact Nat.zero_le _
  · exact Nat.le_refl _

@[simp] theorem length_prepare (b : IoBuffer α) (n : Nat) : (b.prepare n).2.length = b.length := by
  show (b.makeRoom n).length = b.length
  unfold makeRoom
  split <;> rfl

@[simp] theorem prepare_slab_data (b : IoBuffer α) (n : Nat) :
    (b.prepare n).1.data = (b.prepare n).2.tail := rfl

/-! ### The operations keep the order of the indices -/

theorem valid_new (zero : α) (n : Nat) : (new zero n).Valid := ⟨Nat.le_refl _, Nat.zero_le _⟩

theorem Valid.clear (b : IoBuffer α) : b.clear.Valid := ⟨Nat.le_refl _, Nat.zero_le _⟩

theorem Valid.fill {b : IoBuffer α} (h : b.Valid) (p : Nat) (xs : List α) : (b.fill p xs).Valid :=
  ⟨h.head_le_tail, h.tail_le_length⟩

theorem Valid.commit {b : IoBuffer α} (h : b.Valid) {n : Nat} (hn : b.tail + n ≤ b.length) :
    (b.commit n).Valid :=
  ⟨Nat.le_trans h.head_le_tail (Nat.le_add_right ..), hn⟩

theorem Valid.consume {b : IoBuffer α} (h : b.Valid) (n : Nat) : (b.consume n).Valid := by
  unfold IoBuffer.consume
  split
  · exact ⟨Nat.le_refl _, Nat.zero_le _⟩
  · exact ⟨by show b.head + n ≤ b.tail; omega, h.tail_le_length⟩

theorem Valid.prepare {b : IoBuffer α} (h : b.Valid) (n : Nat) : (b.prepare n).2.Valid := by
  have hle := h.tail_le_length
  show (b.makeRoom n).Valid
  unfold makeRoom
  split
  · exact ⟨Nat.zero_le _, by show b.tail - b.head ≤ b.length; omega⟩
  · exact h

/-! ### The unread bytes as a queue -/

theorem unread_clear (b : IoBuffer α) : b.clear.unread = [] := rfl

/-- `prepare` may move the unread bytes and never changes them. -/
theorem unread_prepare (b : IoBuffer α) (n : Nat) : (b.prepare n).2.unread = b.unread := by
  show (b.makeRoom n).unread = b.unread
  unfold makeRoom
  split
  · show segment (write b.buffer 0 (segment b.buffer b.head b.size)) 0 (b.size - 0) = b.unread
    have h := segment_write b.buffer 0 (segment b.buffer b.head b.size)
    rwa [length_segment] at h
  · rfl

theorem size_prepare (b : IoBuffer α) (n : Nat) : (b.prepare n).2.size = b.size := by
  rw [← length_unread, unread_prepare, length_unread]

/-- The slab is as long as asked for, or as long as the room there is. -/
theorem prepare_slab_size (b : IoBuffer α) (n : Nat) :
    (b.prepare n).1.size = min n b.capacity := by
  have hcap : (b.makeRoom n).capacity = b.capacity := by
    have h1 := size_prepare b n
    have h2 := length_prepare b n
    show (b.makeRoom n).length - (b.makeRoom n).size = b.length - b.size
    rw [show (b.makeRoom n).size = b.size from h1, show (b.makeRoom n).length = b.length from h2]
  show (if n > (b.makeRoom n).capacity then (b.makeRoom n).capacity else n) = _
  rw [hcap]
  split <;> omega

/-- **The slab lies behind the unread bytes and inside the storage.** -/
theorem prepare_slab_fits {b : IoBuffer α} (h : b.Valid) (n : Nat) :
    (b.prepare n).1.data + (b.prepare n).1.size ≤ b.length := by
  have h1 := h.head_le_tail
  have h2 := h.tail_le_length
  rw [prepare_slab_size]
  show (b.makeRoom n).tail + min n (b.length - (b.tail - b.head)) ≤ b.length
  unfold makeRoom
  split
  · show b.tail - b.head + _ ≤ b.length
    omega
  · have hroom : n ≤ b.length - b.tail := by
      rename_i hn
      exact Nat.le_of_not_lt hn
    omega

/-- **What is stored behind the unread bytes and committed joins their end.** -/
theorem unread_commit_fill {b : IoBuffer α} (h : b.Valid) (items : List α) :
    ((b.fill b.tail items).commit items.length).unread = b.unread ++ items := by
  have h1 := h.head_le_tail
  show segment (write b.buffer b.tail items) b.head (b.tail + items.length - b.head) = _
  rw [show b.tail + items.length - b.head = b.tail - b.head + items.length by omega,
    segment_write_append _ _ h1]
  rfl

/-- **`consume` drops from the front.** -/
theorem unread_consume (b : IoBuffer α) {n : Nat} (hn : n ≤ b.size) :
    (b.consume n).unread = b.unread.drop n := by
  unfold consume
  split
  · have hall : b.unread.length ≤ n := by
      rw [length_unread, size]
      omega
    rw [List.drop_eq_nil_of_le hall]
    rfl
  · show segment b.buffer (b.head + n) (b.tail - (b.head + n)) = (segment b.buffer b.head b.size).drop n
    rw [drop_segment _ _ hn, size, Nat.sub_sub]

end IoBuffer

end Ibase
