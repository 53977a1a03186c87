import Mathlib
import Ibase.Lib.SlidingWindow

/-!
# The memory for repeated packets

`recently_packet_tracker.cpp`: the ids accepted in the last sixty seconds, once
in a set and once in a ring of sixty slots, one slot a second.  Expiry finds its
slots from `first_tick_` and insertion from `first_index_`; they meet in the
same slot because the two stay congruent modulo 60 (`Tracks.index`).

`Tracks` relates a tracker to the plain model of `SlidingWindow`, and
`onReceivePacket_fst` and `Tracks.onReceivePacket` say that a call does what
the plain model does.
-/

namespace Ibase

open SlidingWindow

def maxPacketLifeTimeInSeconds : UInt64 := 60

/-- `recently_packet_tracker_t`. -/
structure RecentlyPacketTracker where
  recentlyPacketIds : Finset UInt64
  packetTimeIndexArray : Fin 60 → List UInt64
  firstTick : UInt64
  firstIndex : UInt32

namespace RecentlyPacketTracker

/-- A tracker as constructed. -/
def new : RecentlyPacketTracker where
  recentlyPacketIds := ∅
  packetTimeIndexArray := fun _ => []
  firstTick := 0
  firstIndex := 0

/-- `x % max_packet_life_time_in_seconds`, as an index of the array. -/
def slot (x : UInt64) : Fin 60 := ⟨x.toNat % 60, Nat.mod_lt _ (by decide)⟩

def packetId (cmd seq : UInt32) : UInt64 := (cmd.toUInt64 <<< 32) ||| seq.toUInt64

/-- One round of the expiry loop: the ids of a slot leave the set and the slot. -/
def expireSlot (t : RecentlyPacketTracker) (k : Fin 60) : RecentlyPacketTracker :=
  { t with
    recentlyPacketIds := (t.packetTimeIndexArray k).foldl Finset.erase t.recentlyPacketIds
    packetTimeIndexArray := Function.update t.packetTimeIndexArray k [] }

/-- The slots the expiry loop visits. -/
def expiredSlots (firstTick span : UInt64) : List (Fin 60) :=
  (List.range (min 60 span.toNat)).map (fun i => slot (firstTick + UInt64.ofNat i))

/-- What happens when `cur_tick` lies past the sixty slots. -/
def slide (t : RecentlyPacketTracker) (curTick : UInt64) : RecentlyPacketTracker :=
  let span := curTick - t.firstTick + 1 - maxPacketLifeTimeInSeconds
  { (expiredSlots t.firstTick span).foldl expireSlot t with
    firstIndex := ((t.firstIndex.toUInt64 + span) % maxPacketLifeTimeInSeconds).toUInt32
    firstTick := curTick - (maxPacketLifeTimeInSeconds - 1) }

/-- The tracker after the check for `offset`, which then is `cur_tick - first_tick_`. -/
def advance (t : RecentlyPacketTracker) (curTick : UInt64) : RecentlyPacketTracker :=
  if curTick - t.firstTick > maxPacketLifeTimeInSeconds - 1 then t.slide curTick else t

/-- `push_back` into the slot of `offset` and `insert` into the set. -/
def accept (t : RecentlyPacketTracker) (offset id : UInt64) : RecentlyPacketTracker :=
  { t with
    packetTimeIndexArray := Function.update t.packetTimeIndexArray
      (slot (t.firstIndex.toUInt64 + offset))
      (t.packetTimeIndexArray (slot (t.firstIndex.toUInt64 + offset)) ++ [id])
    recentlyPacketIds := insert id t.recentlyPacketIds }

/-- `on_receive_packet` at tick `curTick`. -/
def onReceivePacket (t : RecentlyPacketTracker) (curTick : UInt64) (cmd seq : UInt32) :
    Bool × RecentlyPacketTracker :=
  if packetId cmd seq ∈ (t.advance curTick).recentlyPacketIds then (true, t.advance curTick)
  else
    (false, (t.advance curTick).accept (curTick - (t.advance curTick).firstTick) (packetId cmd seq))

/-- `clear`: the two counters stay. -/
def clear (t : RecentlyPacketTracker) : RecentlyPacketTracker :=
  { t with recentlyPacketIds := ∅, packetTimeIndexArray := fun _ => [] }

/-! ### Packet ids -/

theorem packetId_toNat (cmd seq : UInt32) :
    (packetId cmd seq).toNat = cmd.toNat * 2 ^ 32 + seq.toNat := by
  have hc : cmd.toNat < 2 ^ 32 := cmd.toNat_lt
  have hs : seq.toNat < 2 ^ 32 := seq.toNat_lt
  have hshift : (cmd.toUInt64 <<< 32).toNat = 2 ^ 32 * cmd.toNat := by
    rw [UInt64.toNat_shiftLeft, UInt32.toNat_toUInt64, Nat.shiftLeft_eq]
    show cmd.toNat * 2 ^ 32 % 2 ^ 64 = _
    omega
  rw [packetId, UInt64.toNat_or, hshift, UInt32.toNat_toUInt64,
    ← Nat.two_pow_add_eq_or_of_lt hs cmd.toNat, Nat.mul_comm]

/-- A packet id names one pair of `cmd` and `seq`. -/
theorem packetId_inj {cmd seq cmd' seq' : UInt32} :
    packetId cmd seq = packetId cmd' seq' ↔ cmd = cmd' ∧ seq = seq' := by
  constructor
  · intro h
    have hn := congrArg UInt64.toNat h
    rw [packetId_toNat, packetId_toNat] at hn
    have h1 : seq.toNat < 2 ^ 32 := seq.toNat_lt
    have h2 : seq'.toNat < 2 ^ 32 := seq'.toNat_lt
    exact ⟨UInt32.toNat_inj.mp (by omega), UInt32.toNat_inj.mp (by omega)⟩
  · rintro ⟨rfl, rfl⟩
    rfl

/-! ### The expiry loop -/

theorem mem_foldl_erase (l : List UInt64) (ids : Finset UInt64) (id : UInt64) :
    id ∈ l.foldl Finset.erase ids ↔ id ∈ ids ∧ id ∉ l := by
  induction l generalizing ids with
  | nil => simp
  | cons a l ih =>
    rw [List.foldl_cons, ih, Finset.mem_erase, List.mem_cons]
    tauto

theorem expireSlot_array (t : RecentlyPacketTracker) (a : Fin 60) :
    (t.expireSlot a).packetTimeIndexArray = Function.update t.packetTimeIndexArray a [] := rfl

theorem expireSlots_array (ks : List (Fin 60)) (t : RecentlyPacketTracker) (k : Fin 60) :
    (ks.foldl expireSlot t).packetTimeIndexArray k =
      if k ∈ ks then [] else t.packetTimeIndexArray k := by
  induction ks generalizing t with
  | nil => rfl
  | cons a ks ih =>
    rw [List.foldl_cons, ih]
    by_cases hk : k ∈ ks
    · rw [if_pos hk, if_pos (List.mem_cons_of_mem a hk)]
    · rw [if_neg hk]
      by_cases ha : k = a
      · rw [if_pos (ha ▸ List.mem_cons_self ..), ha]
        exact Function.update_self ..
      · rw [if_neg (List.not_mem_cons_of_ne_of_not_mem ha hk)]
        exact Function.update_of_ne ha ..

theorem expireSlots_ids (ks : List (Fin 60)) (t : RecentlyPacketTracker) (id : UInt64) :
    id ∈ (ks.foldl expireSlot t).recentlyPacketIds ↔
      id ∈ t.recentlyPacketIds ∧ ∀ k ∈ ks, id ∉ t.packetTimeIndexArray k := by
  induction ks generalizing t with
  | nil => simp
  | cons a ks ih =>
    rw [List.foldl_cons, ih]
    show id ∈ (t.packetTimeIndexArray a).foldl Finset.erase t.recentlyPacketIds ∧ _ ↔ _
    rw [mem_foldl_erase]
    constructor
    · rintro ⟨⟨hid, ha⟩, hks⟩
      refine ⟨hid, fun k hk => ?_⟩
      rcases List.mem_cons.mp hk with rfl | hk
      · exact ha
      · by_cases hka : k = a
        · exact hka ▸ ha
        · have := hks k hk
          rwa [expireSlot_array, Function.update_of_ne hka] at this
    · rintro ⟨hid, hks⟩
      refine ⟨⟨hid, hks a (List.mem_cons_self ..)⟩, fun k hk => ?_⟩
      by_cases hka : k = a
      · rw [expireSlot_array, hka, Function.update_self]
        exact List.not_mem_nil
      · rw [expireSlot_array, Function.update_of_ne hka]
        exact hks k (List.mem_cons_of_mem a hk)

/-! ### The tracker and the plain model -/

/-- The tracker after its calls up to tick `now` holds the acceptances `hist`:
the first tick is the start of the window, the two counters agree, each slot
has the ids accepted at its tick and the set has the ids of the window. -/
structure Tracks (t : RecentlyPacketTracker) (hist : List (UInt64 × Nat)) (now : Nat) : Prop where
  tick : t.firstTick.toNat = now - 59
  index : t.firstIndex.toNat < 60 ∧ t.firstIndex.toNat = t.firstTick.toNat % 60
  array : ∀ k, t.packetTimeIndexArray k =
    ((live (now - 59) hist).filter (fun p => p.2 % 60 = k.val)).map Prod.fst
  ids : ∀ id, id ∈ t.recentlyPacketIds ↔ ∃ p ∈ live (now - 59) hist, p.1 = id
  le : ∀ p ∈ hist, p.2 ≤ now
  spaced : Spaced 60 hist

theorem tracks_new : Tracks new [] 0 where
  tick := rfl
  index := ⟨by decide, rfl⟩
  array := fun _ => rfl
  ids := fun id => ⟨fun h => absurd h (Finset.notMem_empty id), fun ⟨_, h, _⟩ => absurd h (by simp [live])⟩
  le := fun _ h => absurd h (List.not_mem_nil)
  spaced := spaced_nil 60

theorem Tracks.clear {t : RecentlyPacketTracker} {hist : List (UInt64 × Nat)} {now : Nat}
    (h : Tracks t hist now) : Tracks t.clear [] now where
  tick := h.tick
  index := h.index
  array := fun _ => rfl
  ids := fun id => ⟨fun h => absurd h (Finset.notMem_empty id), fun ⟨_, h, _⟩ => absurd h (by simp [live])⟩
  le := fun _ h => absurd h (List.not_mem_nil)
  spaced := spaced_nil 60

/-- Of the acceptances in the old window, the expired slots hold those before the new one. -/
theorem mem_expiredSlots {firstTick span : UInt64} {τ : Nat} (hlo : firstTick.toNat ≤ τ)
    (hhi : τ ≤ firstTick.toNat + 59) (hfit : firstTick.toNat + 60 ≤ 2 ^ 64) {k : Fin 60}
    (hk : τ % 60 = k.val) :
    k ∈ expiredSlots firstTick span ↔ τ < firstTick.toNat + span.toNat := by
  have hslot : ∀ i, i < 60 → (slot (firstTick + UInt64.ofNat i)).val = (firstTick.toNat + i) % 60 := by
    intro i hi
    show (firstTick + UInt64.ofNat i).toNat % 60 = _
    rw [UInt64.toNat_add, UInt64.toNat_ofNat']
    omega
  rw [expiredSlots, List.mem_map]
  constructor
  · rintro ⟨i, hi, heq⟩
    rw [List.mem_range] at hi
    have := hslot i (by omega)
    rw [heq, ← hk] at this
    omega
  · intro hlt
    refine ⟨τ - firstTick.toNat, List.mem_range.mpr (by omega), ?_⟩
    apply Fin.ext
    rw [hslot _ (by omega), ← hk]
    omega

/-! The window moves to `tick`, which lies behind its sixty slots. -/

/-- `tick` counted from the first tick. -/
theorem Tracks.toNat_offset {t : RecentlyPacketTracker} {hist : List (UInt64 × Nat)} {now : Nat}
    (h : Tracks t hist now) {tick : Nat} (hle : now ≤ tick) (htick : tick < 2 ^ 63) :
    (UInt64.ofNat tick - t.firstTick).toNat = tick - (now - 59) := by
  have hcur : (UInt64.ofNat tick).toNat = tick := by
    rw [UInt64.toNat_ofNat']
    omega
  rw [UInt64.toNat_sub_of_le _ _ (UInt64.le_iff_toNat_le.mpr (by rw [hcur, h.tick]; omega)), hcur,
    h.tick]

/-- How many slots the window moves by. -/
theorem Tracks.toNat_span {t : RecentlyPacketTracker} {hist : List (UInt64 × Nat)} {now : Nat}
    (h : Tracks t hist now) {tick : Nat} (hle : now ≤ tick) (htick : tick < 2 ^ 63)
    (hpast : 59 < tick - (now - 59)) :
    (UInt64.ofNat tick - t.firstTick + 1 - maxPacketLifeTimeInSeconds).toNat =
      (tick - 59) - (now - 59) := by
  have hsucc : (UInt64.ofNat tick - t.firstTick + 1).toNat = tick - (now - 59) + 1 := by
    rw [UInt64.toNat_add, h.toNat_offset hle htick, UInt64.toNat_one]
    omega
  have h60 : maxPacketLifeTimeInSeconds.toNat = 60 := rfl
  rw [UInt64.toNat_sub_of_le _ _ (UInt64.le_iff_toNat_le.mpr (by rw [hsucc, h60]; omega)), hsucc,
    h60]
  omega

theorem toNat_newFirstTick {tick : Nat} (hlo : 59 ≤ tick) (htick : tick < 2 ^ 63) :
    (UInt64.ofNat tick - (maxPacketLifeTimeInSeconds - 1)).toNat = tick - 59 := by
  have hcur : (UInt64.ofNat tick).toNat = tick := by
    rw [UInt64.toNat_ofNat']
    omega
  have h59 : (maxPacketLifeTimeInSeconds - 1).toNat = 59 := rfl
  rw [UInt64.toNat_sub_of_le _ _ (UInt64.le_iff_toNat_le.mpr (by rw [hcur, h59]; omega)), hcur, h59]

/-- The acceptances of the new window. -/
theorem live_later (hist : List (UInt64 × Nat)) {now tick : Nat} (hle : now ≤ tick) :
    live (tick - 59) hist = (live (now - 59) hist).filter (fun p => tick - 59 ≤ p.2) := by
  rw [live, live, List.filter_filter]
  refine List.filter_congr (fun p _ => ?_)
  rw [← Bool.decide_and, decide_eq_decide]
  omega

/-- The slots that are cleared hold the acceptances that leave the window. -/
theorem Tracks.mem_cleared {t : RecentlyPacketTracker} {hist : List (UInt64 × Nat)} {now : Nat}
    (h : Tracks t hist now) {tick : Nat} (hle : now ≤ tick) (htick : tick < 2 ^ 63)
    (hpast : 59 < tick - (now - 59)) {p : UInt64 × Nat} (hp : p ∈ live (now - 59) hist)
    {k : Fin 60} (hk : p.2 % 60 = k.val) :
    k ∈ expiredSlots t.firstTick
      (UInt64.ofNat tick - t.firstTick + 1 - maxPacketLifeTimeInSeconds) ↔ p.2 < tick - 59 := by
  have h1 := (mem_live.mp hp).2
  have h2 := h.le p (mem_live.mp hp).1
  rw [mem_expiredSlots (by rw [h.tick]; exact h1) (by rw [h.tick]; omega)
    (by rw [h.tick]; omega) hk, h.toNat_span hle htick hpast, h.tick]
  omega

/-- The first index moves along with the first tick. -/
theorem Tracks.slide_index {t : RecentlyPacketTracker} {hist : List (UInt64 × Nat)} {now : Nat}
    (h : Tracks t hist now) {tick : Nat} (hle : now ≤ tick) (htick : tick < 2 ^ 63)
    (hpast : 59 < tick - (now - 59)) :
    (t.slide (UInt64.ofNat tick)).firstIndex.toNat < 60 ∧
      (t.slide (UInt64.ofNat tick)).firstIndex.toNat =
        (t.slide (UInt64.ofNat tick)).firstTick.toNat % 60 := by
  constructor
  · show ((_ % maxPacketLifeTimeInSeconds : UInt64).toUInt32).toNat < 60
    rw [UInt64.toNat_toUInt32, UInt64.toNat_mod]
    show _ % 60 % 2 ^ 32 < 60
    omega
  · show ((_ % maxPacketLifeTimeInSeconds : UInt64).toUInt32).toNat = (UInt64.ofNat tick - _).toNat % 60
    rw [UInt64.toNat_toUInt32, UInt64.toNat_mod, UInt64.toNat_add, UInt32.toNat_toUInt64,
      h.toNat_span hle htick hpast, toNat_newFirstTick (by omega) htick, h.index.2, h.tick]
    have hsum : ((now - 59) % 60 + (tick - 59 - (now - 59))) % 2 ^ 64
        = (now - 59) % 60 + (tick - 59 - (now - 59)) := Nat.mod_eq_of_lt (by omega)
    rw [hsum]
    show _ % 60 % 2 ^ 32 = _
    rw [Nat.mod_eq_of_lt (show _ % 60 < 2 ^ 32 by omega), ← Nat.add_mod_mod, Nat.mod_add_mod,
      Nat.add_mod_mod]
    congr 1
    omega

theorem Tracks.slide_array {t : RecentlyPacketTracker} {hist : List (UInt64 × Nat)} {now : Nat}
    (h : Tracks t hist now) {tick : Nat} (hle : now ≤ tick) (htick : tick < 2 ^ 63)
    (hpast : 59 < tick - (now - 59)) (k : Fin 60) :
    (t.slide (UInt64.ofNat tick)).packetTimeIndexArray k =
      ((live (tick - 59) hist).filter (fun p => p.2 % 60 = k.val)).map Prod.fst := by
  show (List.foldl expireSlot t _).packetTimeIndexArray k = _
  rw [expireSlots_array, live_later hist hle, List.filter_filter, h.array k]
  split_ifs with hk
  · symm
    rw [List.map_eq_nil_iff, List.filter_eq_nil_iff]
    intro p hp hcond
    simp only [Bool.and_eq_true, decide_eq_true_eq] at hcond
    have := (h.mem_cleared hle htick hpast hp hcond.1).mp hk
    omega
  · congr 1
    refine List.filter_congr (fun p hp => ?_)
    by_cases hpk : p.2 % 60 = k.val
    · have := mt (h.mem_cleared hle htick hpast hp hpk).mpr hk
      simp only [hpk, decide_true, Bool.true_and]
      exact (decide_eq_true (by omega)).symm
    · simp only [hpk, decide_false, Bool.false_and]

theorem Tracks.slide_ids {t : RecentlyPacketTracker} {hist : List (UInt64 × Nat)} {now : Nat}
    (h : Tracks t hist now) {tick : Nat} (hle : now ≤ tick) (htick : tick < 2 ^ 63)
    (hpast : 59 < tick - (now - 59)) (id : UInt64) :
    id ∈ (t.slide (UInt64.ofNat tick)).recentlyPacketIds ↔
      ∃ p ∈ live (tick - 59) hist, p.1 = id := by
  show id ∈ (List.foldl expireSlot t _).recentlyPacketIds ↔ _
  have hnodup := nodup_live h.spaced (now - 59) now (by omega) h.le
  rw [expireSlots_ids, h.ids, live_later hist hle]
  constructor
  · rintro ⟨⟨p, hp, rfl⟩, hks⟩
    refine ⟨p, List.mem_filter.mpr ⟨hp, ?_⟩, rfl⟩
    by_contra hlt
    simp only [decide_eq_true_eq] at hlt
    have hk := (h.mem_cleared hle htick hpast hp
      (k := ⟨p.2 % 60, Nat.mod_lt _ (by decide)⟩) rfl).mpr (by omega)
    apply hks _ hk
    rw [h.array]
    exact List.mem_map_of_mem (List.mem_filter.mpr ⟨hp, by simp⟩)
  · rintro ⟨p, hp, rfl⟩
    obtain ⟨hp, hge⟩ := List.mem_filter.mp hp
    simp only [decide_eq_true_eq] at hge
    refine ⟨⟨p, hp, rfl⟩, fun k hk hmem => ?_⟩
    rw [h.array, List.mem_map] at hmem
    obtain ⟨q, hq, heq⟩ := hmem
    obtain ⟨hq, hqk⟩ := List.mem_filter.mp hq
    simp only [decide_eq_true_eq] at hqk
    obtain rfl : q = p := List.inj_on_of_nodup_map hnodup hq hp heq
    have := (h.mem_cleared hle htick hpast hq hqk).mp hk
    omega

/-- **Moving the window keeps the relation.** -/
theorem Tracks.advance {t : RecentlyPacketTracker} {hist : List (UInt64 × Nat)} {now : Nat}
    (h : Tracks t hist now) {tick : Nat} (hle : now ≤ tick) (htick : tick < 2 ^ 63) :
    Tracks (t.advance (UInt64.ofNat tick)) hist tick := by
  have hle' : ∀ p ∈ hist, p.2 ≤ tick := fun p hp => Nat.le_trans (h.le p hp) hle
  have h59 : (maxPacketLifeTimeInSeconds - 1).toNat = 59 := rfl
  rw [RecentlyPacketTracker.advance]
  split_ifs with hpast
  · rw [gt_iff_lt, UInt64.lt_iff_toNat_lt, h59, h.toNat_offset hle htick] at hpast
    exact ⟨toNat_newFirstTick (by omega) htick, h.slide_index hle htick hpast,
      h.slide_array hle htick hpast, h.slide_ids hle htick hpast, hle', h.spaced⟩
  · -- the call still falls into the sixty slots, so the window has not moved
    rw [gt_iff_lt, UInt64.lt_iff_toNat_lt, h59, h.toNat_offset hle htick] at hpast
    have hsame : tick - 59 = now - 59 := by omega
    exact ⟨by rw [hsame]; exact h.tick, h.index, by rw [hsame]; exact h.array,
      by rw [hsame]; exact h.ids, hle', h.spaced⟩

/-- **A call answers what the plain model answers.** -/
theorem onReceivePacket_fst {t : RecentlyPacketTracker} {hist : List (UInt64 × Nat)} {now : Nat}
    (h : Tracks t hist now) {tick : Nat} (hle : now ≤ tick) (htick : tick < 2 ^ 63)
    (cmd seq : UInt32) :
    (t.onReceivePacket (UInt64.ofNat tick) cmd seq).1 = (receive 60 hist tick (packetId cmd seq)).1 := by
  have h' := h.advance hle htick
  have hmem : packetId cmd seq ∈ (t.advance (UInt64.ofNat tick)).recentlyPacketIds ↔
      Seen 60 hist tick (packetId cmd seq) := by
    rw [h'.ids]
    constructor
    · rintro ⟨p, hp, heq⟩
      have := (mem_live.mp hp).2
      exact ⟨p, (mem_live.mp hp).1, heq, by omega⟩
    · rintro ⟨p, hp, heq, hlt⟩
      exact ⟨p, mem_live.mpr ⟨hp, by omega⟩, heq⟩
  rw [onReceivePacket]
  by_cases hs : Seen 60 hist tick (packetId cmd seq)
  · rw [if_pos (hmem.mpr hs), receive_seen hs]
  · rw [if_neg (mt hmem.mp hs), receive_new hs]

/-- **A call keeps the relation to the plain model.** -/
theorem Tracks.onReceivePacket {t : RecentlyPacketTracker} {hist : List (UInt64 × Nat)} {now : Nat}
    (h : Tracks t hist now) {tick : Nat} (hle : now ≤ tick) (htick : tick < 2 ^ 63)
    (cmd seq : UInt32) :
    Tracks (t.onReceivePacket (UInt64.ofNat tick) cmd seq).2
      (receive 60 hist tick (packetId cmd seq)).2 tick := by
  have h' := h.advance hle htick
  have hfst := onReceivePacket_fst h hle htick cmd seq
  have hle' := receive_le h'.le (w := 60) (packetId cmd seq)
  have hspaced := spaced_receive h'.spaced tick (packetId cmd seq)
  rw [RecentlyPacketTracker.onReceivePacket] at hfst ⊢
  by_cases hs : Seen 60 hist tick (packetId cmd seq)
  · rw [receive_seen hs] at hfst hle' hspaced ⊢
    split_ifs at hfst ⊢ with hmem
    exact h'
  · rw [receive_new hs] at hfst hle' hspaced ⊢
    split_ifs at hfst ⊢ with hmem
    have hlive : live (tick - 59) (hist ++ [(packetId cmd seq, tick)]) =
        live (tick - 59) hist ++ [(packetId cmd seq, tick)] := by
      rw [live, List.filter_append]
      congr 1
      rw [List.filter_singleton, decide_eq_true (Nat.sub_le tick 59)]
      rfl
    -- the slot of insertion is the slot of the tick
    have hslot : (slot ((t.advance (UInt64.ofNat tick)).firstIndex.toUInt64
        + (UInt64.ofNat tick - (t.advance (UInt64.ofNat tick)).firstTick))).val = tick % 60 := by
      show (_ + _ : UInt64).toNat % 60 = _
      have hcur : (UInt64.ofNat tick).toNat = tick := by
        rw [UInt64.toNat_ofNat']
        omega
      rw [UInt64.toNat_add, UInt32.toNat_toUInt64, UInt64.toNat_sub_of_le _ _
        (UInt64.le_iff_toNat_le.mpr (by rw [hcur, h'.tick]; omega)), hcur, h'.index.2, h'.tick]
      omega
    refine ⟨h'.tick, h'.index, fun k => ?_, fun id => ?_, hle', hspaced⟩
    · show Function.update _ _ _ k = _
      rw [hlive, List.filter_append, List.map_append, ← h'.array k]
      by_cases hk : k = slot ((t.advance (UInt64.ofNat tick)).firstIndex.toUInt64
          + (UInt64.ofNat tick - (t.advance (UInt64.ofNat tick)).firstTick))
      · rw [hk, Function.update_self, List.filter_singleton, hslot, decide_eq_true rfl]
        rfl
      · have hne : tick % 60 ≠ k.val := fun he => hk (Fin.ext (by rw [hslot, he]))
        rw [Function.update_of_ne hk, List.filter_singleton, decide_eq_false hne]
        exact (List.append_nil _).symm
    · show id ∈ insert _ _ ↔ _
      rw [Finset.mem_insert, h'.ids, hlive]
      constructor
      · rintro (rfl | ⟨p, hp, heq⟩)
        · exact ⟨_, List.mem_append_right _ (List.mem_singleton_self _), rfl⟩
        · exact ⟨p, List.mem_append_left _ hp, heq⟩
      · rintro ⟨p, hp, heq⟩
        rcases List.mem_append.mp hp with hp | hp
        · exact Or.inr ⟨p, hp, heq⟩
        · exact Or.inl (by rw [← heq, List.mem_singleton.mp hp])

/-- A call is a repeat and changes nothing the tracker holds, or it is none and is
kept. -/
theorem Tracks.receive_cases {t : RecentlyPacketTracker} {hist : List (UInt64 × Nat)} {now : Nat}
    (h : Tracks t hist now) {tick : Nat} (hle : now ≤ tick) (htick : tick < 2 ^ 63)
    (cmd seq : UInt32) :
    ((t.onReceivePacket (UInt64.ofNat tick) cmd seq).1 = true ∧
      Seen 60 hist tick (packetId cmd seq) ∧
      Tracks (t.onReceivePacket (UInt64.ofNat tick) cmd seq).2 hist tick) ∨
    ((t.onReceivePacket (UInt64.ofNat tick) cmd seq).1 = false ∧
      ¬ Seen 60 hist tick (packetId cmd seq) ∧
      Tracks (t.onReceivePacket (UInt64.ofNat tick) cmd seq).2
        (hist ++ [(packetId cmd seq, tick)]) tick) := by
  have hfst := onReceivePacket_fst h hle htick cmd seq
  have hsnd := h.onReceivePacket hle htick cmd seq
  by_cases hs : Seen 60 hist tick (packetId cmd seq)
  · rw [receive_seen hs] at hfst hsnd
    exact .inl ⟨hfst, hs, hsnd⟩
  · rw [receive_new hs] at hfst hsnd
    exact .inr ⟨hfst, hs, hsnd⟩

/-- The ids of the sixty slots, one slot after the other. -/
def storedIds (t : RecentlyPacketTracker) : List UInt64 :=
  (List.finRange 60).flatMap t.packetTimeIndexArray

theorem Tracks.mem_storedIds {t : RecentlyPacketTracker} {hist : List (UInt64 × Nat)} {now : Nat}
    (h : Tracks t hist now) (id : UInt64) : id ∈ t.storedIds ↔ id ∈ t.recentlyPacketIds := by
  rw [storedIds, List.mem_flatMap, h.ids]
  constructor
  · rintro ⟨k, _, hk⟩
    rw [h.array, List.mem_map] at hk
    obtain ⟨p, hp, heq⟩ := hk
    exact ⟨p, (List.mem_filter.mp hp).1, heq⟩
  · rintro ⟨p, hp, heq⟩
    refine ⟨⟨p.2 % 60, Nat.mod_lt _ (by decide)⟩, List.mem_finRange _, ?_⟩
    rw [h.array, ← heq]
    exact List.mem_map_of_mem (List.mem_filter.mpr ⟨hp, by simp⟩)

theorem Tracks.nodup_storedIds {t : RecentlyPacketTracker} {hist : List (UInt64 × Nat)} {now : Nat}
    (h : Tracks t hist now) : t.storedIds.Nodup := by
  have hnodup := nodup_live h.spaced (now - 59) now (by omega) h.le
  rw [storedIds, List.nodup_flatMap]
  refine ⟨fun k _ => ?_, ?_⟩
  · rw [h.array]
    exact hnodup.sublist (List.filter_sublist.map Prod.fst)
  · refine (List.nodup_finRange 60).imp ?_
    intro j k hjk id hj hk
    rw [h.array, List.mem_map] at hj hk
    obtain ⟨p, hp, hpid⟩ := hj
    obtain ⟨q, hq, hqid⟩ := hk
    obtain ⟨hp, hpj⟩ := List.mem_filter.mp hp
    obtain ⟨hq, hqk⟩ := List.mem_filter.mp hq
    obtain rfl : p = q := List.inj_on_of_nodup_map hnodup hp hq (hpid.trans hqid.symm)
    simp only [decide_eq_true_eq] at hpj hqk
    exact hjk (Fin.ext (hpj.symm.trans hqk))

/-! ### Every sequence of calls

The ticks are `steady_clock` seconds: counts from zero on that fit the clock's
signed 64 bits. -/

/-- A call of the tracker. -/
inductive Call where
  | onReceivePacket (tick : Nat) (cmd seq : UInt32)
  | clear

/-- A call of `on_receive_packet` and what it returned. -/
structure Answer where
  tick : Nat
  cmd : UInt32
  seq : UInt32
  duplicate : Bool

/-- The tracker after some calls, and the answers since the last `clear`. -/
def replay (calls : List Call) : RecentlyPacketTracker × List Answer :=
  calls.foldl (fun s call =>
    match call with
    | .onReceivePacket tick cmd seq =>
      ((s.1.onReceivePacket (UInt64.ofNat tick) cmd seq).2,
        s.2 ++ [⟨tick, cmd, seq, (s.1.onReceivePacket (UInt64.ofNat tick) cmd seq).1⟩])
    | .clear => (s.1.clear, [])) (new, [])

def Call.tick? : Call → Option Nat
  | .onReceivePacket tick _ _ => some tick
  | .clear => none

/-- The ticks of the calls, in order. -/
def ticks (calls : List Call) : List Nat := calls.filterMap Call.tick?

/-- The acceptances among some answers. -/
def accepted (answers : List Answer) : List (UInt64 × Nat) :=
  (answers.filter (fun a => !a.duplicate)).map (fun a => (packetId a.cmd a.seq, a.tick))

theorem replay_append_receive (calls : List Call) (tick : Nat) (cmd seq : UInt32) :
    replay (calls ++ [.onReceivePacket tick cmd seq]) =
      (((replay calls).1.onReceivePacket (UInt64.ofNat tick) cmd seq).2,
        (replay calls).2 ++
          [⟨tick, cmd, seq, ((replay calls).1.onReceivePacket (UInt64.ofNat tick) cmd seq).1⟩]) := by
  rw [replay, List.foldl_append]
  rfl

theorem replay_append_clear (calls : List Call) :
    replay (calls ++ [.clear]) = ((replay calls).1.clear, []) := by
  rw [replay, List.foldl_append]
  rfl

theorem mem_accepted {answers : List Answer} {p : UInt64 × Nat} :
    p ∈ accepted answers ↔
      ∃ a ∈ answers, a.duplicate = false ∧ packetId a.cmd a.seq = p.1 ∧ a.tick = p.2 := by
  rw [accepted, List.mem_map]
  constructor
  · rintro ⟨a, ha, rfl⟩
    obtain ⟨ha, hd⟩ := List.mem_filter.mp ha
    exact ⟨a, ha, by simpa using hd, rfl, rfl⟩
  · rintro ⟨a, ha, hd, h1, h2⟩
    exact ⟨a, List.mem_filter.mpr ⟨ha, by simpa using hd⟩, Prod.ext h1 h2⟩

/-- A call adds to the acceptances what the plain model adds. -/
theorem accepted_append {t : RecentlyPacketTracker} {answers : List Answer} {now tick : Nat}
    (h : Tracks t (accepted answers) now) (hle : now ≤ tick) (htick : tick < 2 ^ 63)
    (cmd seq : UInt32) :
    accepted (answers ++ [⟨tick, cmd, seq, (t.onReceivePacket (UInt64.ofNat tick) cmd seq).1⟩]) =
      (receive 60 (accepted answers) tick (packetId cmd seq)).2 := by
  have hfst := onReceivePacket_fst h hle htick cmd seq
  by_cases hs : Seen 60 (accepted answers) tick (packetId cmd seq)
  · rw [receive_seen hs] at hfst ⊢
    rw [accepted, List.filter_append, hfst]
    exact congrArg (List.map _) (List.append_nil _)
  · rw [receive_new hs] at hfst ⊢
    rw [accepted, List.filter_append, List.map_append, hfst]
    rfl

/-- **After any calls at non-decreasing ticks the tracker holds the acceptances
since the last `clear`.** -/
theorem tracks_replay (calls : List Call) (hmono : (ticks calls).Pairwise (· ≤ ·))
    (hclock : ∀ tick ∈ ticks calls, tick < 2 ^ 63) :
    ∃ now, Tracks (replay calls).1 (accepted (replay calls).2) now ∧
      (now = 0 ∨ now ∈ ticks calls) := by
  induction calls using List.reverseRecOn with
  | nil => exact ⟨0, tracks_new, Or.inl rfl⟩
  | append_singleton calls call ih =>
    rw [ticks, List.filterMap_append] at hmono hclock
    rw [List.pairwise_append] at hmono
    obtain ⟨now, htracks, hnow⟩ :=
      ih hmono.1 (fun tick h => hclock tick (List.mem_append_left _ h))
    cases call with
    | clear =>
      refine ⟨now, ?_, hnow.imp_right fun h => ?_⟩
      · rw [replay_append_clear]
        exact htracks.clear
      · rw [ticks, List.filterMap_append]
        exact List.mem_append_left _ h
    | onReceivePacket tick cmd seq =>
      have hlast : tick ∈ List.filterMap Call.tick? [Call.onReceivePacket tick cmd seq] := by
        simp [Call.tick?]
      have hle : now ≤ tick := by
        rcases hnow with rfl | h
        · exact Nat.zero_le _
        · exact hmono.2.2 now h tick hlast
      have htick := hclock tick (List.mem_append_right _ hlast)
      refine ⟨tick, ?_, Or.inr ?_⟩
      · rw [replay_append_receive, accepted_append htracks hle htick]
        exact htracks.onReceivePacket hle htick cmd seq
      · rw [ticks, List.filterMap_append]
        exact List.mem_append_right _ hlast

/-- **The tracker is an exact window of sixty seconds.**  A call returns `true`
exactly if a call for the same packet since the last `clear` returned `false` at
most 59 ticks before; and then the set holds exactly the ids of the slots, each
of them once, all accepted within these ticks. -/
theorem onReceivePacket_window (calls : List Call) (tick : Nat) (cmd seq : UInt32)
    (hmono : (ticks (calls ++ [.onReceivePacket tick cmd seq])).Pairwise (· ≤ ·))
    (hclock : ∀ τ ∈ ticks (calls ++ [.onReceivePacket tick cmd seq]), τ < 2 ^ 63) :
    (((replay calls).1.onReceivePacket (UInt64.ofNat tick) cmd seq).1 = true ↔
      ∃ a ∈ (replay calls).2, a.duplicate = false ∧ a.cmd = cmd ∧ a.seq = seq ∧
        tick - a.tick ≤ 59) ∧
    (∀ id, id ∈ (replay (calls ++ [.onReceivePacket tick cmd seq])).1.recentlyPacketIds ↔
      id ∈ (replay (calls ++ [.onReceivePacket tick cmd seq])).1.storedIds) ∧
    (replay (calls ++ [.onReceivePacket tick cmd seq])).1.storedIds.Nodup ∧
    (∀ id ∈ (replay (calls ++ [.onReceivePacket tick cmd seq])).1.recentlyPacketIds,
      ∃ a ∈ (replay (calls ++ [.onReceivePacket tick cmd seq])).2, a.duplicate = false ∧
        packetId a.cmd a.seq = id ∧ tick - 59 ≤ a.tick ∧ a.tick ≤ tick) := by
  have hsplit : ticks (calls ++ [.onReceivePacket tick cmd seq]) = ticks calls ++ [tick] := by
    rw [ticks, List.filterMap_append]
    rfl
  rw [hsplit, List.pairwise_append] at hmono
  rw [hsplit] at hclock
  have htick := hclock tick (List.mem_append_right _ (List.mem_singleton_self tick))
  obtain ⟨now, htracks, hnow⟩ :=
    tracks_replay calls hmono.1 (fun τ h => hclock τ (List.mem_append_left _ h))
  have hle : now ≤ tick := by
    rcases hnow with rfl | h
    · exact Nat.zero_le _
    · exact hmono.2.2 now h tick (List.mem_singleton_self tick)
  have hafter := htracks.onReceivePacket hle htick cmd seq
  rw [← accepted_append htracks hle htick] at hafter
  rw [replay_append_receive]
  refine ⟨?_, fun id => (hafter.mem_storedIds id).symm, hafter.nodup_storedIds, fun id hid => ?_⟩
  · rw [onReceivePacket_fst htracks hle htick, receive_fst]
    constructor
    · rintro ⟨p, hp, hpid, hlt⟩
      obtain ⟨a, ha, hd, hid, hat⟩ := mem_accepted.mp hp
      obtain ⟨hcmd, hseq⟩ := packetId_inj.mp (hid.trans hpid)
      exact ⟨a, ha, hd, hcmd, hseq, by omega⟩
    · rintro ⟨a, ha, hd, rfl, rfl, hlt⟩
      exact ⟨(packetId a.cmd a.seq, a.tick), mem_accepted.mpr ⟨a, ha, hd, rfl, rfl⟩, rfl,
        by show tick < a.tick + 60; omega⟩
  · obtain ⟨p, hp, hpid⟩ := (hafter.ids id).mp hid
    obtain ⟨a, ha, hd, haid, hat⟩ := mem_accepted.mp (mem_live.mp hp).1
    have h1 := (mem_live.mp hp).2
    have h2 := hafter.le p (mem_live.mp hp).1
    exact ⟨a, ha, hd, haid.trans hpid, by omega, by omega⟩

/-- The window at work: a packet accepted at tick 100 is a repeat at tick 159 and
new again at tick 160. -/
theorem onReceivePacket_window_at_160 :
    ((replay [.onReceivePacket 100 1 7, .onReceivePacket 159 1 7]).1.onReceivePacket
        (UInt64.ofNat 160) 1 7).1 = false ∧
      (replay [.onReceivePacket 100 1 7, .onReceivePacket 159 1 7, .onReceivePacket 160 1
        7]).1.storedIds.Nodup := by
  have h := onReceivePacket_window [.onReceivePacket 100 1 7, .onReceivePacket 159 1 7] 160 1 7
    (by decide) (by decide)
  exact ⟨by decide +kernel, h.2.2.1⟩

end RecentlyPacketTracker

end Ibase
