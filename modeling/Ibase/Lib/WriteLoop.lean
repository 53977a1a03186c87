import Mathlib

/-!
# Writes that send a part at a time

A write sends its data by operations that each send a part of what is left: the
operation sends some of it, its handler runs some time later, and if something
is left the handler starts the next operation.  Operations are served in the
order they were started.  `Socket` is a socket with such writes on it, and
nothing keeps one write from starting before another has ended.

`Whole` says that what went out are whole writes, one after another, and a part
of at most one more.  `Ordered` is the invariant behind it, and it survives every
step but two (`ordered_transfer`, `ordered_start`): an operation that sends only
a part while another one is waiting behind it, and a write that starts between
the end of such an operation and its handler.
-/

namespace WriteLoop

/-- A write: its number and its data. -/
structure Write (α : Type*) where
  id : Nat
  data : List α
  deriving DecidableEq

/-- An operation of a write, which has sent `sent` items of the data so far. -/
structure Op (α : Type*) where
  write : Write α
  sent : Nat
  deriving DecidableEq

structure Socket (α : Type*) where
  /-- Every write started so far. -/
  started : List (Write α)
  /-- The operations not yet served. -/
  queue : List (Op α)
  /-- The operations whose handlers have not run yet. -/
  ready : List (Op α)
  /-- What went out, each item with the number of its write. -/
  wire : List (Nat × α)
  deriving DecidableEq

variable {α : Type*}

/-- What the write puts on the wire. -/
def Write.frame (w : Write α) : List (Nat × α) := w.data.map (fun a => (w.id, a))

/-- What is left to send. -/
def Op.left (o : Op α) : List α := o.write.data.drop o.sent

namespace Socket

def new : Socket α := ⟨[], [], [], []⟩

def start (s : Socket α) (data : List α) : Socket α :=
  { s with
    started := s.started ++ [⟨s.started.length, data⟩]
    queue := s.queue ++ [⟨⟨s.started.length, data⟩, 0⟩] }

/-- The operation in front sends `k` items. -/
def transfer (s : Socket α) (k : Nat) : Option (Socket α) :=
  match s.queue with
  | [] => none
  | o :: rest =>
    if 1 ≤ k ∧ k ≤ o.left.length then
      some { s with
        queue := rest
        ready := s.ready ++ [{ o with sent := o.sent + k }]
        wire := s.wire ++ (o.left.take k).map (fun a => (o.write.id, a)) }
    else none

/-- The next handler runs. -/
def resume (s : Socket α) : Option (Socket α) :=
  match s.ready with
  | [] => none
  | o :: rest =>
    some { s with ready := rest, queue := if o.left = [] then s.queue else s.queue ++ [o] }

/-- What went out are whole writes and a part of at most one more. -/
def Whole (s : Socket α) : Prop :=
  ∃ (done : List (Write α)) (part : List (Nat × α)),
    s.wire = done.flatMap Write.frame ++ part ∧ done.Nodup ∧ (∀ w ∈ done, w ∈ s.started) ∧
    (part = [] ∨ ∃ w ∈ s.started, w ∉ done ∧ part <+: w.frame)

/-- Is everything sent that a handler is still to hear of? -/
def Settled (s : Socket α) : Prop := ∀ o ∈ s.ready, o.left = []

/-- Does this transfer end its write, or is no other operation waiting? -/
def Unhurried (s : Socket α) (k : Nat) : Prop :=
  ∀ o rest, s.queue = o :: rest → k < o.left.length → rest = []

instance (s : Socket α) : Decidable s.Settled :=
  decidable_of_iff (∀ o ∈ s.ready, o.left.length = 0) (by simp [Settled])

instance (s : Socket α) (k : Nat) : Decidable (s.Unhurried k) :=
  match h : s.queue with
  | [] => isTrue (by simp [Unhurried, h])
  | o :: rest =>
    decidable_of_iff (k < o.left.length → rest.length = 0) (by simp [Unhurried, h])

/-- What the first of these operations has sent of its write. -/
def sentOf : List (Op α) → List (Nat × α)
  | [] => []
  | o :: _ => o.write.frame.take o.sent

/-- Where the writes stand: `done` are sent, the operations `pending` are those
of the others in the order they were started, and only the first of them has
sent anything.  All of `pending` waits, or all of it is one operation whose
handler is the last to run. -/
structure Ordered (s : Socket α) (done : List (Write α)) (pending : List (Op α)) : Prop where
  started_eq : s.started = done ++ pending.map Op.write
  ids : s.started.map Write.id = List.range s.started.length
  wire_eq : s.wire = done.flatMap Write.frame ++ sentOf pending
  fresh : ∀ o ∈ pending.tail, o.sent = 0
  placed : (s.queue = pending ∧ s.Settled) ∨
    (s.queue = [] ∧ ∃ o settled, pending = [o] ∧ o.left ≠ [] ∧ s.ready = settled ++ [o] ∧
      ∀ p ∈ settled, p.left = [])

theorem ordered_new : (new : Socket α).Ordered [] [] :=
  ⟨rfl, rfl, rfl, by simp, .inl ⟨rfl, by simp [Settled, new]⟩⟩

/-- A write may start when no handler that runs later has anything left to send. -/
theorem ordered_start {s : Socket α} {done : List (Write α)} {pending : List (Op α)}
    (h : s.Ordered done pending) (hs : s.Settled) (data : List α) :
    (s.start data).Ordered done (pending ++ [⟨⟨s.started.length, data⟩, 0⟩]) := by
  have hqueue : s.queue = pending := by
    rcases h.placed with ⟨hq, -⟩ | ⟨-, o, settled, -, hleft, hready, -⟩
    · exact hq
    · exact absurd (hs o (by rw [hready]; simp)) hleft
  refine ⟨?_, ?_, ?_, ?_, .inl ⟨?_, hs⟩⟩
  · show s.started ++ _ = _
    rw [h.started_eq, List.map_append, List.append_assoc, ← h.started_eq]
    rfl
  · show (s.started ++ [_]).map Write.id = List.range (s.started ++ [_]).length
    rw [List.map_append, h.ids, List.length_append, List.length_singleton, List.range_succ]
    rfl
  · show s.wire = _
    rw [h.wire_eq]
    cases pending with
    | nil => rfl
    | cons o rest => rfl
  · cases pending with
    | nil => simp
    | cons o rest =>
      have hfresh := h.fresh
      intro p hp
      rcases List.mem_append.mp hp with hp | hp
      · exact hfresh p hp
      · rw [List.mem_singleton.mp hp]
  · show s.queue ++ _ = _
    rw [hqueue]

/-- What an operation sends extends what its write has sent. -/
theorem frame_take_add (o : Op α) (k : Nat) :
    o.write.frame.take (o.sent + k) =
      o.write.frame.take o.sent ++ (o.left.take k).map (fun a => (o.write.id, a)) := by
  rw [List.take_add, Op.left, Write.frame, List.map_take, List.map_drop]

theorem left_length (o : Op α) : o.left.length = o.write.data.length - o.sent := List.length_drop

/-- An operation may send what it likes as long as none is waiting behind the
part that it leaves. -/
theorem ordered_transfer {s t : Socket α} {done : List (Write α)} {pending : List (Op α)}
    (h : s.Ordered done pending) {k : Nat} (hk : s.Unhurried k) (ht : s.transfer k = some t) :
    ∃ done' pending', t.Ordered done' pending' := by
  unfold transfer at ht
  split at ht
  · exact absurd ht (by simp)
  rename_i o rest hqueue
  split at ht
  swap
  · exact absurd ht (by simp)
  rename_i hfit
  obtain ⟨hq, hs⟩ : s.queue = pending ∧ s.Settled := by
    rcases h.placed with hp | ⟨hq, -⟩
    · exact hp
    · rw [hq] at hqueue
      exact absurd hqueue (by simp)
  have hpending : pending = o :: rest := hq ▸ hqueue
  rw [← Option.some.inj ht]
  have hstarted := h.started_eq
  have hwire := h.wire_eq
  have hfresh := h.fresh
  rw [hpending] at hstarted hwire hfresh
  have hlen := left_length o
  by_cases hall : k = o.left.length
  · -- the write is sent: it joins `done`, and the next ones have sent nothing
    have hnone : sentOf rest = [] := by
      cases hr : rest with
      | nil => rfl
      | cons p ps =>
        have := hfresh p (by rw [hr]; simp)
        rw [sentOf, this, List.take_zero]
    have hframe : o.write.frame.take (o.sent + k) = o.write.frame := by
      apply List.take_of_length_le
      rw [Write.frame, List.length_map]
      omega
    have hdone : ({ o with sent := o.sent + k } : Op α).left = [] := by
      apply List.drop_eq_nil_of_le
      show o.write.data.length ≤ o.sent + k
      omega
    refine ⟨done ++ [o.write], rest, ?_, h.ids, ?_, ?_, .inl ⟨rfl, ?_⟩⟩
    · show s.started = _
      rw [hstarted, List.map_cons, List.append_assoc]
      rfl
    · show s.wire ++ _ = _
      rw [hwire, sentOf, List.append_assoc, ← frame_take_add, hframe, hnone, List.append_nil,
        List.flatMap_append]
      simp
    · intro p hp
      exact hfresh p (List.mem_of_mem_tail hp)
    · intro p hp
      rcases List.mem_append.mp hp with hp | hp
      · exact hs p hp
      · rw [List.mem_singleton.mp hp]
        exact hdone
  · -- a part is left, and nothing waits behind it
    have hrest : rest = [] := hk o rest hqueue (by omega)
    have hleft : ({ o with sent := o.sent + k } : Op α).left ≠ [] := by
      apply List.ne_nil_of_length_pos
      rw [left_length]
      show 0 < o.write.data.length - (o.sent + k)
      omega
    refine ⟨done, [{ o with sent := o.sent + k }], ?_, h.ids, ?_, by simp,
      .inr ⟨hrest, _, s.ready, rfl, hleft, rfl, hs⟩⟩
    · show s.started = _
      rw [hstarted, hrest]
      rfl
    · show s.wire ++ _ = _
      rw [hwire, sentOf, sentOf, List.append_assoc, frame_take_add]

theorem ordered_resume {s t : Socket α} {done : List (Write α)} {pending : List (Op α)}
    (h : s.Ordered done pending) (ht : s.resume = some t) : t.Ordered done pending := by
  unfold resume at ht
  split at ht
  · exact absurd ht (by simp)
  rename_i o rest hready
  rw [← Option.some.inj ht]
  refine ⟨h.started_eq, h.ids, h.wire_eq, h.fresh, ?_⟩
  rcases h.placed with ⟨hq, hs⟩ | ⟨hq, p, settled, hp, hleft, hr, hsettled⟩
  · have ho : o.left = [] := hs o (by rw [hready]; simp)
    refine .inl ⟨?_, fun p hp => hs p (by rw [hready]; exact List.mem_cons_of_mem o hp)⟩
    show (if o.left = [] then s.queue else s.queue ++ [o]) = pending
    rw [if_pos ho, hq]
  · cases settled with
    | nil =>
      -- the handler of the last operation starts the next one
      rw [hready, List.nil_append] at hr
      obtain ⟨rfl, rfl⟩ := List.cons.inj hr
      refine .inl ⟨?_, by simp [Settled]⟩
      show (if o.left = [] then s.queue else s.queue ++ [o]) = pending
      rw [if_neg hleft, hq, hp]
      rfl
    | cons q settled =>
      rw [hready, List.cons_append] at hr
      obtain ⟨rfl, rfl⟩ := List.cons.inj hr
      refine .inr ⟨?_, p, settled, hp, hleft, rfl,
        fun q hq => hsettled q (List.mem_cons_of_mem o hq)⟩
      show (if o.left = [] then s.queue else s.queue ++ [o]) = []
      rw [if_pos (hsettled o List.mem_cons_self), hq]

theorem Ordered.whole {s : Socket α} {done : List (Write α)} {pending : List (Op α)}
    (h : s.Ordered done pending) : s.Whole := by
  have hnodup : s.started.Nodup := List.Nodup.of_map Write.id (h.ids ▸ List.nodup_range)
  have hstarted := h.started_eq
  rw [hstarted] at hnodup
  obtain ⟨hdone, -, hdisjoint⟩ := List.nodup_append.mp hnodup
  refine ⟨done, sentOf pending, h.wire_eq, hdone,
    fun w hw => by rw [hstarted]; exact List.mem_append_left _ hw, ?_⟩
  cases hp : pending with
  | nil => exact .inl rfl
  | cons o rest =>
    rw [hp] at hstarted hdisjoint
    refine .inr ⟨o.write, by rw [hstarted]; simp, ?_, List.take_prefix ..⟩
    intro hmem
    exact hdisjoint o.write hmem o.write (by simp) rfl

/-- When nothing is outstanding, every write has been sent, in the order they were
started. -/
theorem Ordered.wire_of_idle {s : Socket α} {done : List (Write α)} {pending : List (Op α)}
    (h : s.Ordered done pending) (hq : s.queue = []) (hr : s.ready = []) :
    s.wire = s.started.flatMap Write.frame := by
  have hpending : pending = [] := by
    rcases h.placed with ⟨hp, -⟩ | ⟨-, o, settled, -, -, hready, -⟩
    · rw [← hp, hq]
    · rw [hr] at hready
      exact absurd hready (by simp)
  rw [h.wire_eq, h.started_eq, hpending]
  simp [sentOf]

end Socket

end WriteLoop
