import Mathlib

/-!
# Decoders of a stream that arrives in pieces

A decoder looks at the front of the bytes it has and says one of three things:
it cannot decide before more bytes arrive, or some leading bytes belong to no
frame, or some leading bytes are a frame.  `Decoder` asks that a decision, once
taken, is not changed by bytes that arrive later (`stable`).  That one law is
enough for cutting not to matter: `run_append` says that decoding a stream is
decoding a prefix of it and then decoding what the prefix left together with
the rest, and `feed_congr` carries this over any two ways of cutting.
-/

namespace StreamDecoder

/-- What a decoder says about the front of its input. -/
inductive Verdict (β : Type*) where
  | more
  | skip (n : Nat)
  | frame (b : β) (n : Nat)

/-- How many leading items a verdict settles. -/
def Verdict.size {β : Type*} : Verdict β → Nat
  | .more => 0
  | .skip n => n
  | .frame _ n => n

@[simp] theorem Verdict.size_more {β : Type*} : (Verdict.more : Verdict β).size = 0 := rfl
@[simp] theorem Verdict.size_skip {β : Type*} (n : Nat) :
    (Verdict.skip n : Verdict β).size = n := rfl
@[simp] theorem Verdict.size_frame {β : Type*} (b : β) (n : Nat) :
    (Verdict.frame b n).size = n := rfl

/-- A decoder whose decisions last: each settles at least one item and no more
than there are, and stays the same when more items follow. -/
structure Decoder (α β : Type*) where
  verdict : List α → Verdict β
  size_pos : ∀ s, verdict s ≠ .more → 0 < (verdict s).size
  size_le : ∀ s, (verdict s).size ≤ s.length
  stable : ∀ s t, verdict s ≠ .more → verdict (s ++ t) = verdict s

namespace Decoder

variable {α β : Type*} (D : Decoder α β)

theorem length_drop_lt {s : List α} (h : D.verdict s ≠ .more) :
    (s.drop (D.verdict s).size).length < s.length := by
  have h1 := D.size_pos s h
  have h2 := D.size_le s
  rw [List.length_drop]
  omega

/-- The first frame, if the input has a complete one, and how many items are
settled by then. -/
def first (s : List α) : Option β × Nat :=
  match _hv : D.verdict s with
  | .more => (none, 0)
  | .skip n => ((first (s.drop n)).1, n + (first (s.drop n)).2)
  | .frame b n => (some b, n)
  termination_by s.length
  decreasing_by
    all_goals
      have := D.length_drop_lt (s := s) (by rw [_hv]; simp)
      rwa [_hv] at this

/-- All the frames, and the items left over. -/
def run (s : List α) : List β × List α :=
  match _hv : D.verdict s with
  | .more => ([], s)
  | .skip n => run (s.drop n)
  | .frame b n => (b :: (run (s.drop n)).1, (run (s.drop n)).2)
  termination_by s.length
  decreasing_by
    all_goals
      have := D.length_drop_lt (s := s) (by rw [_hv]; simp)
      rwa [_hv] at this

/-! ### The three verdicts -/

theorem first_more {s : List α} (h : D.verdict s = .more) : D.first s = (none, 0) := by
  rw [first]
  split <;> simp_all

theorem first_skip {s : List α} {n : Nat} (h : D.verdict s = .skip n) :
    D.first s = ((D.first (s.drop n)).1, n + (D.first (s.drop n)).2) := by
  conv_lhs => rw [first]
  split <;> simp_all

theorem first_frame {s : List α} {b : β} {n : Nat} (h : D.verdict s = .frame b n) :
    D.first s = (some b, n) := by
  rw [first]
  split <;> simp_all

theorem run_more {s : List α} (h : D.verdict s = .more) : D.run s = ([], s) := by
  rw [run]
  split <;> simp_all

theorem run_skip {s : List α} {n : Nat} (h : D.verdict s = .skip n) :
    D.run s = D.run (s.drop n) := by
  conv_lhs => rw [run]
  split <;> simp_all

theorem run_frame {s : List α} {b : β} {n : Nat} (h : D.verdict s = .frame b n) :
    D.run s = (b :: (D.run (s.drop n)).1, (D.run (s.drop n)).2) := by
  conv_lhs => rw [run]
  split <;> simp_all

/-- **Induction along the verdicts**: a property of inputs holds of all of them
if it holds where the decoder waits and passes back over each settled piece. -/
theorem verdict_induction {P : List α → Prop}
    (more : ∀ s, D.verdict s = .more → P s)
    (skip : ∀ s n, D.verdict s = .skip n → P (s.drop n) → P s)
    (frame : ∀ s b n, D.verdict s = .frame b n → P (s.drop n) → P s) (s : List α) : P s := by
  induction hn : s.length using Nat.strongRecOn generalizing s with
  | ind n ih =>
    subst hn
    cases hv : D.verdict s with
    | more => exact more s hv
    | skip k =>
      have hlt := D.length_drop_lt (s := s) (by rw [hv]; simp)
      rw [hv] at hlt
      exact skip s k hv (ih _ hlt _ rfl)
    | frame b k =>
      have hlt := D.length_drop_lt (s := s) (by rw [hv]; simp)
      rw [hv] at hlt
      exact frame s b k hv (ih _ hlt _ rfl)

/-! ### One frame at a time -/

theorem first_snd_le (s : List α) : (D.first s).2 ≤ s.length := by
  induction s using D.verdict_induction with
  | more s hv => rw [D.first_more hv]; exact Nat.zero_le _
  | skip s n hv ih =>
    have hle := D.size_le s
    rw [hv, Verdict.size_skip] at hle
    rw [D.first_skip hv]
    rw [List.length_drop] at ih
    show n + (D.first (s.drop n)).2 ≤ s.length
    omega
  | frame s b n hv _ =>
    have hle := D.size_le s
    rw [hv, Verdict.size_frame] at hle
    rw [D.first_frame hv]
    exact hle

/-- A frame settles at least one item. -/
theorem first_snd_pos {s : List α} {b : β} (h : (D.first s).1 = some b) : 0 < (D.first s).2 := by
  induction s using D.verdict_induction with
  | more s hv => rw [D.first_more hv] at h; exact absurd h (by simp)
  | skip s n hv _ =>
    have hpos := D.size_pos s (by rw [hv]; simp)
    rw [hv, Verdict.size_skip] at hpos
    rw [D.first_skip hv]
    show 0 < n + (D.first (s.drop n)).2
    omega
  | frame s c n hv _ =>
    have hpos := D.size_pos s (by rw [hv]; simp)
    rw [hv, Verdict.size_frame] at hpos
    rw [D.first_frame hv]
    exact hpos

/-- **`run` is `first` repeated** until no complete frame is left. -/
theorem run_first (s : List α) :
    D.run s =
      match (D.first s).1 with
      | none => ([], s.drop (D.first s).2)
      | some b => (b :: (D.run (s.drop (D.first s).2)).1, (D.run (s.drop (D.first s).2)).2) := by
  induction s using D.verdict_induction with
  | more s hv => rw [D.run_more hv, D.first_more hv]; rfl
  | skip s n hv ih =>
    rw [D.run_skip hv, D.first_skip hv, ih]
    simp only [List.drop_drop]
  | frame s b n hv _ => rw [D.run_frame hv, D.first_frame hv]

/-- The offsets that the decoder stands on before its first frame. -/
inductive Stands (s : List α) : Nat → Prop
  | start : Stands s 0
  | skip {k n : Nat} (h : Stands s k) (hv : D.verdict (s.drop k) = .skip n) : Stands s (k + n)

/-- From an offset that it stands on, the decoder goes on as from a start. -/
theorem first_of_stands {s : List α} {k : Nat} (h : D.Stands s k) :
    D.first s = ((D.first (s.drop k)).1, k + (D.first (s.drop k)).2) := by
  induction h with
  | start => rw [List.drop_zero, Nat.zero_add]
  | @skip k n h hv ih => rw [ih, D.first_skip hv, List.drop_drop, Nat.add_assoc]

/-- The first frame was taken where the decoder stood. -/
theorem exists_stands_of_first {s : List α} {b : β} (h : (D.first s).1 = some b) :
    ∃ k n, D.Stands s k ∧ D.verdict (s.drop k) = .frame b n ∧ (D.first s).2 = k + n := by
  have hall : ∀ m k, D.Stands s k → (s.drop k).length ≤ m → (D.first (s.drop k)).1 = some b →
      ∃ k n, D.Stands s k ∧ D.verdict (s.drop k) = .frame b n ∧ (D.first s).2 = k + n := by
    intro m
    induction m with
    | zero =>
      intro k _ hm hb
      have hpos := D.first_snd_pos hb
      have hle := D.first_snd_le (s.drop k)
      omega
    | succ m ih =>
      intro k hk hm hb
      cases hv : D.verdict (s.drop k) with
      | more =>
        rw [D.first_more hv] at hb
        exact absurd hb (by simp)
      | skip n =>
        have hlt := D.length_drop_lt (s := s.drop k) (by rw [hv]; simp)
        rw [hv, Verdict.size_skip, List.drop_drop] at hlt
        rw [D.first_skip hv, List.drop_drop] at hb
        exact ih (k + n) (hk.skip hv) (by omega) hb
      | frame c n =>
        rw [D.first_frame hv] at hb
        obtain rfl := Option.some.inj hb
        refine ⟨k, n, hk, hv, ?_⟩
        rw [D.first_of_stands hk, D.first_frame hv]
  exact hall s.length 0 .start (Nat.le_of_eq (by rw [List.drop_zero])) (by rwa [List.drop_zero])

/-- Where decoding stops, the decoder is waiting. -/
theorem verdict_run_snd (s : List α) : D.verdict (D.run s).2 = .more := by
  induction s using D.verdict_induction with
  | more s hv => rw [D.run_more hv]; exact hv
  | skip s n hv ih => rw [D.run_skip hv]; exact ih
  | frame s b n hv ih => rw [D.run_frame hv]; exact ih

/-! ### Cutting the stream -/

theorem drop_append_of_verdict {s : List α} (t : List α) {n : Nat}
    (hn : n = (D.verdict s).size) : (s ++ t).drop n = s.drop n ++ t :=
  List.drop_append_of_le_length (hn ▸ D.size_le s)

/-- **Decoding does not see where the stream is cut.** -/
theorem run_append (s t : List α) :
    D.run (s ++ t) =
      ((D.run s).1 ++ (D.run ((D.run s).2 ++ t)).1, (D.run ((D.run s).2 ++ t)).2) := by
  induction s using D.verdict_induction with
  | more s hv => rw [D.run_more hv, List.nil_append]
  | skip s n hv ih =>
    have happ : D.verdict (s ++ t) = .skip n := by
      rw [D.stable s t (by rw [hv]; simp), hv]
    rw [D.run_skip happ, D.run_skip hv, D.drop_append_of_verdict t (by rw [hv]; rfl), ih]
  | frame s b n hv ih =>
    have happ : D.verdict (s ++ t) = .frame b n := by
      rw [D.stable s t (by rw [hv]; simp), hv]
    rw [D.run_frame happ, D.run_frame hv, D.drop_append_of_verdict t (by rw [hv]; rfl), ih,
      List.cons_append]

/-- One piece: decode it behind what was left over, and keep what is left now. -/
def feedOne (st : List β × List α) (piece : List α) : List β × List α :=
  (st.1 ++ (D.run (st.2 ++ piece)).1, (D.run (st.2 ++ piece)).2)

/-- The pieces one at a time. -/
def feed (st : List β × List α) (pieces : List (List α)) : List β × List α :=
  pieces.foldl D.feedOne st

theorem feed_of_ne_nil (bs : List β) (s : List α) {pieces : List (List α)} (h : pieces ≠ []) :
    D.feed (bs, s) pieces =
      (bs ++ (D.run (s ++ pieces.flatten)).1, (D.run (s ++ pieces.flatten)).2) := by
  induction pieces generalizing bs s with
  | nil => exact absurd rfl h
  | cons piece rest ih =>
    show D.feed (bs ++ (D.run (s ++ piece)).1, (D.run (s ++ piece)).2) rest = _
    rw [List.flatten_cons, ← List.append_assoc]
    cases rest with
    | nil => rw [List.flatten_nil, List.append_nil]; rfl
    | cons piece' rest =>
      rw [ih _ _ (by simp), D.run_append (s ++ piece), List.append_assoc]

/-- **Feeding pieces is decoding their concatenation**: two ways of cutting the
same input into pieces that are not empty end in the same place. -/
theorem feed_congr (st : List β × List α) {pieces pieces' : List (List α)}
    (h : ∀ p ∈ pieces, p ≠ []) (h' : ∀ p ∈ pieces', p ≠ [])
    (hflat : pieces.flatten = pieces'.flatten) : D.feed st pieces = D.feed st pieces' := by
  have hnil : pieces = [] ↔ pieces' = [] := by
    have e : ∀ {l : List (List α)}, (∀ p ∈ l, p ≠ []) → (l.flatten = [] ↔ l = []) := by
      intro l hl
      rw [List.flatten_eq_nil_iff]
      constructor
      · intro hall
        exact List.eq_nil_iff_forall_not_mem.mpr (fun p hp => hl p hp (hall p hp))
      · rintro rfl p hp
        exact absurd hp (by simp)
    rw [← e h, ← e h', hflat]
  by_cases hp : pieces = []
  · rw [hp, hnil.mp hp]
  · rw [D.feed_of_ne_nil _ _ hp, D.feed_of_ne_nil _ _ (mt hnil.mpr hp), hflat]

end Decoder

end StreamDecoder
