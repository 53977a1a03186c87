import Mathlib

/-!
# Check words of linear codes

A register that takes the words of a message one at a time, adding each and then
applying a linear map, ends in a sum of one column for each coordinate of the
message (`register_eq_sum`).  So whether an error is seen is a question about the
columns it hits.  Over `ZMod 2` no sum of one, two or three of them is zero if
they are all different and all odd (`sum_ne_zero`).
-/

namespace ParityCheck

open Finset

section Register

variable {R V : Type*} [CommSemiring R] [AddCommMonoid V] [Module R V]

/-- The register after these words. -/
def register (f : V →ₗ[R] V) (v : V) (words : List V) : V :=
  words.foldl (fun v w => f (v + w)) v

theorem register_eq (f : V →ₗ[R] V) (v : V) (words : List V) :
    register f v words =
      (f ^ words.length) v + ∑ i ∈ range words.length, (f ^ (words.length - i)) (words.getD i 0) := by
  induction words generalizing v with
  | nil => simp [register]
  | cons w words ih =>
    have hstep : register f v (w :: words) = register f (f (v + w)) words := rfl
    have hpow : (f ^ words.length) (f (v + w)) =
        (f ^ (words.length + 1)) v + (f ^ (words.length + 1)) w := by
      rw [← Module.End.mul_apply, ← pow_succ, map_add]
    rw [hstep, ih, hpow, List.length_cons, sum_range_succ', add_assoc,
      add_comm ((f ^ (words.length + 1)) w)]
    refine congrArg _ (congrArg (· + _) (sum_congr rfl fun i _ => ?_))
    rw [Nat.add_sub_add_right, List.getD_cons_succ]

/-- The register as a sum over the coordinates of the message. -/
theorem register_eq_sum {κ : Type*} [Fintype κ] [DecidableEq κ] (f : (κ → R) →ₗ[R] (κ → R))
    (v : κ → R) (words : List (κ → R)) :
    register f v words = (f ^ words.length) v +
      ∑ i ∈ range words.length, ∑ j,
        words.getD i 0 j • (f ^ (words.length - i)) (Pi.single j 1) := by
  rw [register_eq]
  refine congrArg _ (sum_congr rfl fun i _ => ?_)
  conv_lhs => rw [← univ_sum_single (words.getD i 0), map_sum]
  refine sum_congr rfl fun j _ => ?_
  rw [← map_smul, ← Pi.single_smul, smul_eq_mul, mul_one]

end Register

/-- **Few different odd columns never cancel.** -/
theorem sum_ne_zero {ι V : Type*} [DecidableEq ι] [AddCommGroup V] [Module (ZMod 2) V] {s : ι → V}
    (hs : Function.Injective s) (parity : V →+ ZMod 2) (hodd : ∀ i, parity (s i) = 1)
    {E : Finset ι} (hne : 1 ≤ E.card) (hle : E.card ≤ 3) : ∑ i ∈ E, s i ≠ 0 := by
  intro hzero
  have hcard : (E.card : ZMod 2) = 0 := by
    have h := congrArg parity hzero
    rw [map_sum, map_zero, Finset.sum_congr rfl fun i _ => hodd i] at h
    simpa using h
  have heven : 2 ∣ E.card := (ZMod.natCast_eq_zero_iff _ _).mp hcard
  have htwo : E.card = 2 := by omega
  -- two columns that cancel are equal
  obtain ⟨i, j, hij, rfl⟩ := Finset.card_eq_two.mp htwo
  rw [Finset.sum_pair hij] at hzero
  apply hij
  apply hs
  rw [eq_neg_of_add_eq_zero_left hzero, ZModModule.neg_eq_self]

end ParityCheck
