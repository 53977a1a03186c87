import Ibase.Lib.WriteLoop
import Ibase.Lib.StreamDecoder

/-!
# From one end of a stream to the other

Frames are written to a `WriteLoop.Socket`, and what went out arrives at a decoder
piece by piece.  A `Codec` says that the decoder knows a whole frame when it sees one and
waits on a part of one.

`Carries` is what holds at every moment while no two writes mix: the decoder has seen the
first `taken` items of the wire.  Its consequence is `Faithful`: the frames that it found
are those that were written, in order, none missing and none twice, and what it keeps
back is a part of the next.
-/

namespace Pipe

open WriteLoop StreamDecoder

variable {α β : Type*}

/-- The decoder takes the frames of `encode` apart, those of the values with `p`. -/
structure Codec (D : Decoder α β) (encode : β → List α) (p : β → Prop) : Prop where
  frame : ∀ b, p b → ∀ s, D.verdict (encode b ++ s) = .frame b (encode b).length
  wait : ∀ b, p b → ∀ s, s <+: encode b → s.length < (encode b).length → D.verdict s = .more

/-- Is this a part of the next frame, or nothing? -/
def Part (encode : β → List α) (later : List β) (s : List α) : Prop :=
  s = [] ∨ ∃ b rest, later = b :: rest ∧ s <+: encode b ∧ s.length < (encode b).length

/-- What arrived of these writes was taken apart into the same frames in the same order,
and a part of the next is left over. -/
def Faithful (encode : β → List α) (written : List β) (arrived : List α) (decoded : List β)
    (unread : List α) : Prop :=
  ∃ later, written = decoded ++ later ∧ arrived = decoded.flatMap encode ++ unread ∧
    Part encode later unread

/-! ### Cutting a sequence of frames -/

/-- What comes first of a sequence of frames is whole frames and a part of the next. -/
theorem exists_cut (encode : β → List α) (written : List β) (n : Nat) :
    ∃ done later part, written = done ++ later ∧
      (written.flatMap encode).take n = done.flatMap encode ++ part ∧ Part encode later part := by
  induction written generalizing n with
  | nil => exact ⟨[], [], [], rfl, List.take_nil, .inl rfl⟩
  | cons b rest ih =>
    by_cases hn : n < (encode b).length
    · refine ⟨[], b :: rest, (encode b).take n, rfl, ?_, .inr ⟨b, rest, rfl, ?_, ?_⟩⟩
      · rw [List.flatMap_cons, List.take_append_of_le_length (Nat.le_of_lt hn)]
        rfl
      · exact List.take_prefix ..
      · rw [List.length_take]
        omega
    · obtain ⟨done, later, part, hwritten, htake, hpart⟩ := ih (n - (encode b).length)
      refine ⟨b :: done, later, part, ?_, ?_, hpart⟩
      · rw [hwritten, List.cons_append]
      · rw [List.flatMap_cons, List.take_append, List.take_of_length_le (Nat.le_of_not_lt hn),
          htake, List.flatMap_cons, List.append_assoc]

namespace Codec

variable {D : Decoder α β} {encode : β → List α} {p : β → Prop}

theorem length_pos (h : Codec D encode p) {b : β} (hb : p b) : 0 < (encode b).length := by
  have hframe := h.frame b hb []
  have hpos := D.size_pos (encode b ++ []) (by rw [hframe]; simp)
  rwa [hframe] at hpos

theorem verdict_nil (D : Decoder α β) : D.verdict [] = .more := by
  by_contra hno
  have hpos := D.size_pos [] hno
  have hle := D.size_le []
  rw [List.length_nil] at hle
  omega

theorem verdict_part (h : Codec D encode p) {later : List β} (hl : ∀ b ∈ later, p b) {s : List α}
    (hs : Part encode later s) : D.verdict s = .more := by
  rcases hs with rfl | ⟨b, rest, rfl, hfront, hlt⟩
  · exact verdict_nil D
  · exact h.wait b (hl b List.mem_cons_self) s hfront hlt

/-- **The decoder undoes the encoder**, up to a part that it waits on. -/
theorem run_flatMap (h : Codec D encode p) {bs : List β} (hbs : ∀ b ∈ bs, p b) {s : List α}
    (hs : D.verdict s = .more) : D.run (bs.flatMap encode ++ s) = (bs, s) := by
  induction bs with
  | nil => exact D.run_more hs
  | cons b bs ih =>
    have hframe := h.frame b (hbs b List.mem_cons_self) (bs.flatMap encode ++ s)
    rw [List.flatMap_cons, List.append_assoc, D.run_frame hframe, List.drop_left,
      ih (fun b' hb' => hbs b' (List.mem_cons_of_mem b hb'))]

/-- **A decoder that has seen the first of some frames has found them.** -/
theorem faithful (h : Codec D encode p) {written : List β} (hw : ∀ b ∈ written, p b) (n : Nat) :
    Faithful encode written ((written.flatMap encode).take n)
      (D.run ((written.flatMap encode).take n)).1 (D.run ((written.flatMap encode).take n)).2 := by
  obtain ⟨done, later, part, rfl, htake, hpart⟩ := exists_cut encode written n
  have hwait := h.verdict_part (fun b hb => hw b (List.mem_append_right _ hb)) hpart
  have hrun := h.run_flatMap (fun b hb => hw b (List.mem_append_left _ hb)) hwait
  rw [htake, hrun]
  exact ⟨later, rfl, rfl, hpart⟩

/-- When all that was written has arrived, every frame has been found. -/
theorem all_of_faithful (h : Codec D encode p) {written decoded : List β} {unread : List α}
    (hw : ∀ b ∈ written, p b)
    (hf : Faithful encode written (written.flatMap encode) decoded unread) :
    decoded = written ∧ unread = [] := by
  obtain ⟨later, rfl, harrived, hpart⟩ := hf
  rw [List.flatMap_append] at harrived
  have hrest : later.flatMap encode = unread := List.append_cancel_left harrived
  rcases hpart with rfl | ⟨b, rest, rfl, -, hlt⟩
  · cases later with
    | nil => exact ⟨(List.append_nil _).symm, rfl⟩
    | cons b rest =>
      have hpos := h.length_pos (hw b (List.mem_append_right _ List.mem_cons_self))
      have hnil : encode b = [] := (List.append_eq_nil_iff.mp hrest).1
      rw [hnil] at hpos
      exact absurd hpos (Nat.lt_irrefl 0)
  · rw [← hrest, List.flatMap_cons, List.length_append] at hlt
    omega

end Codec

/-! ### The wire -/

/-- What is on the wire, without the numbers of the writes. -/
def sent (s : Socket α) : List α := s.wire.map Prod.snd

theorem map_snd_frame (w : Write α) : w.frame.map Prod.snd = w.data := by
  rw [Write.frame, List.map_map]
  exact List.map_id _

/-- **While no two writes mix, the wire has the data of the first writes.** -/
theorem sent_prefix {s : Socket α} {done : List (Write α)} {pending : List (Op α)}
    (h : s.Ordered done pending) : sent s <+: (s.started.map Write.data).flatten := by
  have hdone : ∀ ws : List (Write α), (ws.flatMap Write.frame).map Prod.snd =
      (ws.map Write.data).flatten := by
    intro ws
    rw [List.map_flatMap, List.flatMap_def]
    congr 1
    exact List.map_congr_left (fun w _ => map_snd_frame w)
  rw [sent, h.wire_eq, h.started_eq, List.map_append, hdone, List.map_append, List.flatten_append]
  refine List.prefix_append_right_inj _ |>.mpr ?_
  cases pending with
  | nil => exact List.nil_prefix
  | cons o rest =>
    rw [Socket.sentOf, List.map_take, map_snd_frame, List.map_cons, List.map_cons,
      List.flatten_cons]
    exact (List.take_prefix ..).trans (List.prefix_append ..)

theorem transfer_extends {s t : Socket α} {k : Nat} (ht : s.transfer k = some t) :
    t.started = s.started ∧ sent s <+: sent t := by
  unfold Socket.transfer at ht
  split at ht
  · cases ht
  split at ht
  · obtain rfl := Option.some.inj ht
    refine ⟨rfl, ?_⟩
    rw [sent, sent, List.map_append]
    exact List.prefix_append ..
  · cases ht

theorem resume_extends {s t : Socket α} (ht : s.resume = some t) :
    t.started = s.started ∧ sent s <+: sent t := by
  unfold Socket.resume at ht
  split at ht
  · cases ht
  · obtain rfl := Option.some.inj ht
    exact ⟨rfl, List.prefix_refl _⟩

/-! ### The invariant -/

/-- These frames were written, no two of them mix, and the decoder has seen the first
`taken` items of the wire. -/
structure Carries (D : Decoder α β) (encode : β → List α) (written : List β) (s : Socket α)
    (taken : Nat) (read : List β × List α) : Prop where
  ordered : ∃ done pending, s.Ordered done pending
  started : s.started.map Write.data = written.map encode
  taken_le : taken ≤ (sent s).length
  read_eq : read = D.run ((sent s).take taken)

namespace Carries

variable {D : Decoder α β} {encode : β → List α} {p : β → Prop} {written : List β} {s t : Socket α}
  {taken : Nat} {read : List β × List α}

theorem start : Carries D encode [] Socket.new 0 ([], []) :=
  ⟨⟨[], [], Socket.ordered_new⟩, rfl, Nat.le_refl 0, (D.run_more (Codec.verdict_nil D)).symm⟩

theorem extend (h : Carries D encode written s taken read) {written' : List β}
    (hordered : ∃ done pending, t.Ordered done pending)
    (hstarted : t.started.map Write.data = written'.map encode) (hsent : sent s <+: sent t) :
    Carries D encode written' t taken read := by
  obtain ⟨more, hmore⟩ := hsent
  refine ⟨hordered, hstarted, ?_, ?_⟩
  · rw [← hmore, List.length_append]
    exact Nat.le_add_right_of_le h.taken_le
  · rw [← hmore, List.take_append_of_le_length h.taken_le]
    exact h.read_eq

theorem write (h : Carries D encode written s taken read) (hs : s.Settled) (b : β) :
    Carries D encode (written ++ [b]) (s.start (encode b)) taken read := by
  obtain ⟨done, pending, hordered⟩ := h.ordered
  refine h.extend ⟨_, _, Socket.ordered_start hordered hs (encode b)⟩ ?_ (List.prefix_refl _)
  show (s.started ++ [_]).map Write.data = _
  rw [List.map_append, h.started, List.map_append]
  rfl

theorem transfer (h : Carries D encode written s taken read) {k : Nat} (hk : s.Unhurried k)
    (ht : s.transfer k = some t) : Carries D encode written t taken read := by
  obtain ⟨done, pending, hordered⟩ := h.ordered
  obtain ⟨hstarted, hsent⟩ := transfer_extends ht
  exact h.extend (Socket.ordered_transfer hordered hk ht) (hstarted ▸ h.started) hsent

theorem resume (h : Carries D encode written s taken read) (ht : s.resume = some t) :
    Carries D encode written t taken read := by
  obtain ⟨done, pending, hordered⟩ := h.ordered
  obtain ⟨hstarted, hsent⟩ := resume_extends ht
  exact h.extend ⟨_, _, Socket.ordered_resume hordered ht⟩ (hstarted ▸ h.started) hsent

theorem arrive (h : Carries D encode written s taken read) {k : Nat}
    (hk : taken + k ≤ (sent s).length) :
    Carries D encode written s (taken + k) (D.feedOne read (((sent s).drop taken).take k)) := by
  refine ⟨h.ordered, h.started, hk, ?_⟩
  rw [h.read_eq, List.take_add, D.run_append]
  rfl

/-- **What the decoder found is what was written.** -/
theorem faithful (h : Carries D encode written s taken read) (hc : Codec D encode p)
    (hw : ∀ b ∈ written, p b) :
    Faithful encode written ((sent s).take taken) read.1 read.2 := by
  obtain ⟨done, pending, hordered⟩ := h.ordered
  obtain ⟨rest, hrest⟩ := sent_prefix hordered
  rw [h.started] at hrest
  have hflat : written.flatMap encode = sent s ++ rest := by
    rw [List.flatMap_def, hrest]
  have htake : (sent s).take taken = (written.flatMap encode).take taken := by
    rw [hflat, List.take_append_of_le_length h.taken_le]
  rw [h.read_eq, htake]
  exact hc.faithful hw taken

/-- **In the end it has found all of it.** -/
theorem all_found (h : Carries D encode written s taken read) (hc : Codec D encode p)
    (hw : ∀ b ∈ written, p b) (hqueue : s.queue = []) (hready : s.ready = [])
    (hall : taken = (sent s).length) : read = (written, []) := by
  obtain ⟨done, pending, hordered⟩ := h.ordered
  have hwire := hordered.wire_of_idle hqueue hready
  have hsent : sent s = written.flatMap encode := by
    rw [sent, hwire, List.map_flatMap, List.flatMap_def, List.flatMap_def, ← h.started]
    congr 1
    exact List.map_congr_left (fun w _ => map_snd_frame w)
  have hfaithful := h.faithful hc hw
  rw [hall, List.take_length, hsent] at hfaithful
  obtain ⟨hdecoded, hunread⟩ := hc.all_of_faithful hw hfaithful
  exact Prod.ext hdecoded hunread

end Carries

end Pipe
