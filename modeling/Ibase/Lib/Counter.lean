import Mathlib

/-!
# Numbers drawn from a counter

A counter gives out one number after another, and what keeps only their residues
modulo `w` cannot tell numbers `w` apart.  As long as fewer than `w` numbers have
been drawn since the oldest of some numbers, their residues differ
(`Drawn.nodup_mod`).
-/

namespace Counter

/-- Different numbers that a counter gave out until it stood at `cur`. -/
structure Drawn (cur : Nat) (ns : List Nat) : Prop where
  nodup : ns.Nodup
  le : ∀ n ∈ ns, n ≤ cur

variable {cur w : Nat} {ns ms : List Nat}

theorem Drawn.perm (h : Drawn cur ns) (hp : ms.Perm ns) : Drawn cur ms :=
  ⟨hp.nodup_iff.mpr h.nodup, fun n hn => h.le n (hp.mem_iff.mp hn)⟩

theorem Drawn.sublist (h : Drawn cur ns) (hs : ms.Sublist ns) : Drawn cur ms :=
  ⟨h.nodup.sublist hs, fun n hn => h.le n (hs.subset hn)⟩

theorem Drawn.mono (h : Drawn cur ns) {cur' : Nat} (hle : cur ≤ cur') : Drawn cur' ns :=
  ⟨h.nodup, fun n hn => Nat.le_trans (h.le n hn) hle⟩

theorem Drawn.next (h : Drawn cur ns) : Drawn (cur + 1) ((cur + 1) :: ns) := by
  refine ⟨List.nodup_cons.mpr ⟨fun hin => ?_, h.nodup⟩, fun n hn => ?_⟩
  · have := h.le _ hin
    omega
  · rcases List.mem_cons.mp hn with rfl | hn
    · exact Nat.le_refl _
    · exact Nat.le_succ_of_le (h.le n hn)

theorem Drawn.append (h : Drawn cur ns) {cur' : Nat} (hle : cur ≤ cur') (hnodup : ms.Nodup)
    (hnew : ∀ n ∈ ms, cur < n ∧ n ≤ cur') : Drawn cur' (ns ++ ms) := by
  refine ⟨List.nodup_append.mpr ⟨h.nodup, hnodup, ?_⟩, ?_⟩
  · intro n hn m hm heq
    have hold := h.le n hn
    have hfresh := (hnew m hm).1
    omega
  · intro n hn
    rcases List.mem_append.mp hn with hn | hn
    · exact Nat.le_trans (h.le n hn) hle
    · exact (hnew n hn).2

/-- Two numbers of one residue, with fewer than `w` numbers drawn since either. -/
theorem eq_of_mod_eq {a b : Nat} (ha : a ≤ cur) (hb : b ≤ cur) (ha' : cur < a + w)
    (hb' : cur < b + w) (h : a % w = b % w) : a = b := by
  rcases Nat.le_total a b with hle | hle
  · have hdvd := (Nat.modEq_iff_dvd' hle).mp h
    have hzero := Nat.eq_zero_of_dvd_of_lt hdvd (by omega)
    omega
  · have hdvd := (Nat.modEq_iff_dvd' hle).mp h.symm
    have hzero := Nat.eq_zero_of_dvd_of_lt hdvd (by omega)
    omega

/-- **Within one turn of the counter, residues tell numbers apart.** -/
theorem Drawn.nodup_mod (h : Drawn cur ns) (hw : ∀ n ∈ ns, cur < n + w) :
    (ns.map (fun n => n % w)).Nodup :=
  h.nodup.map_on (fun a ha b hb heq => eq_of_mod_eq (h.le a ha) (h.le b hb) (hw a ha) (hw b hb) heq)

/-- So items that keep such a residue of the number they drew keep different ones. -/
theorem Drawn.nodup_map {α : Type} {l : List α} {draw : α → Nat} {kept : α → UInt32}
    (h : Drawn cur (l.map draw)) (hw : ∀ a ∈ l, cur < draw a + 2 ^ 32)
    (hkept : ∀ a ∈ l, (kept a).toNat = draw a % 2 ^ 32) : (l.map kept).Nodup := by
  have hmod : ((l.map draw).map (fun n => n % 2 ^ 32)).Nodup := by
    refine h.nodup_mod fun n hn => ?_
    obtain ⟨a, ha, rfl⟩ := List.mem_map.mp hn
    exact hw a ha
  have hsame : (l.map kept).map UInt32.toNat = (l.map draw).map (fun n => n % 2 ^ 32) := by
    rw [List.map_map, List.map_map]
    exact List.map_congr_left hkept
  rw [← hsame] at hmod
  exact List.Nodup.of_map _ hmod

/-- A counter that is below a bound does not wrap. -/
theorem toNat_succ {a b : UInt32} (h : a < b) : (a + 1).toNat = a.toNat + 1 := by
  have hlt : a.toNat < b.toNat := UInt32.lt_iff_toNat_lt.mp h
  have hb : b.toNat < 2 ^ 32 := b.toNat_lt
  rw [UInt32.toNat_add]
  exact Nat.mod_eq_of_lt (by show a.toNat + 1 < 2 ^ 32; omega)

end Counter
