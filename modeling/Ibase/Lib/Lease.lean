import Mathlib

/-!
# Leases

A lease is granted at some time and renewed at later ones.  A check ends every lease
that was renewed too long ago, a grant ends those in the slot that it takes, and
`clear` ends them all.

`Holds marks k t` says from a whole history that `k` has a lease, renewed last at `t`.
`After mark P` is one step of a table `P` of the leases, and such a table has after a
history what `Holds` says (`holds_eq_foldl`).
-/

namespace Lease

variable {κ ι τ : Type*}

inductive Mark (κ τ : Type*) where
  | grant (k : κ) (t : τ)
  | renew (k : κ) (t : τ)
  | check (t : τ)
  | clear

section

variable (slot : κ → ι) (overdue : τ → τ → Prop)

/-- Does this mark leave `k` a lease that was renewed last at `t`? -/
def Spares (k : κ) (t : τ) : Mark κ τ → Prop
  | .grant k' _ => slot k' ≠ slot k
  | .renew .. => True
  | .check t' => ¬ overdue t' t
  | .clear => False

variable [DecidableEq κ]

/-- When `k` was renewed last, if that was at `t` before this mark. -/
def renewedBy (k : κ) (t : τ) : Mark κ τ → τ
  | .renew k' t' => if k' = k then t' else t
  | _ => t

def renewed (k : κ) (t : τ) (marks : List (Mark κ τ)) : τ := marks.foldl (renewedBy k) t

/-- `k` was granted a lease that every mark since has left to it, and renewed it last
at `t`. -/
def Holds (marks : List (Mark κ τ)) (k : κ) (t : τ) : Prop :=
  ∃ before granted after, marks = before ++ .grant k granted :: after ∧
    renewed k granted after = t ∧
    ∀ passed mark rest, after = passed ++ mark :: rest →
      Spares slot overdue k (renewed k granted passed) mark

/-- The table of the leases after one more mark. -/
def After (table : κ → τ → Prop) (mark : Mark κ τ) (k : κ) (t : τ) : Prop :=
  mark = .grant k t ∨
    ∃ t', table k t' ∧ Spares slot overdue k t' mark ∧ renewedBy k t' mark = t

end

variable {slot : κ → ι} {overdue : τ → τ → Prop} [DecidableEq κ]

theorem renewed_concat (k : κ) (t : τ) (marks : List (Mark κ τ)) (mark : Mark κ τ) :
    renewed k t (marks ++ [mark]) = renewedBy k (renewed k t marks) mark := by
  rw [renewed, List.foldl_append]
  rfl

theorem not_holds_nil (k : κ) (t : τ) : ¬ Holds slot overdue [] k t := by
  rintro ⟨before, granted, after, hmarks, -, -⟩
  exact List.append_ne_nil_of_right_ne_nil before (List.cons_ne_nil _ after) hmarks.symm

/-- **One more mark.** -/
theorem holds_concat {marks : List (Mark κ τ)} {mark : Mark κ τ} {k : κ} {t : τ} :
    Holds slot overdue (marks ++ [mark]) k t ↔ After slot overdue (Holds slot overdue marks) mark k t := by
  constructor
  · rintro ⟨before, granted, after, hmarks, hrenewed, hspared⟩
    rcases List.eq_nil_or_concat after with rfl | ⟨after, last, rfl⟩
    · obtain ⟨-, hmark⟩ := List.append_inj' hmarks rfl
      exact .inl (hrenewed ▸ (List.cons.inj hmark).1)
    · rw [List.concat_eq_append] at hmarks hrenewed hspared
      have hsplit : marks ++ [mark] = (before ++ .grant k granted :: after) ++ [last] := by
        rw [hmarks, List.append_assoc, List.cons_append]
      obtain ⟨hinit, hlast⟩ := List.append_inj' hsplit rfl
      obtain rfl : mark = last := (List.cons.inj hlast).1
      rw [renewed_concat] at hrenewed
      refine .inr ⟨_, ⟨before, granted, after, hinit, rfl, ?_⟩, hspared after mark [] rfl, hrenewed⟩
      intro passed mark' rest hafter
      refine hspared passed mark' (rest ++ [mark]) ?_
      rw [hafter, List.append_assoc, List.cons_append]
  · rintro (rfl | ⟨t', ⟨before, granted, after, rfl, rfl, hspared⟩, hspares, rfl⟩)
    · refine ⟨marks, t, [], rfl, rfl, ?_⟩
      intro passed mark rest hnil
      exact absurd hnil.symm (List.append_ne_nil_of_right_ne_nil passed (List.cons_ne_nil mark rest))
    · refine ⟨before, granted, after ++ [mark], ?_, renewed_concat .., ?_⟩
      · rw [List.append_assoc, List.cons_append]
      · intro passed mark' rest hafter
        rcases List.eq_nil_or_concat rest with rfl | ⟨rest, last, rfl⟩
        · obtain ⟨rfl, hmark⟩ := List.append_inj' hafter rfl
          obtain rfl : mark = mark' := (List.cons.inj hmark).1
          exact hspares
        · rw [List.concat_eq_append, ← List.cons_append, ← List.append_assoc] at hafter
          exact hspared passed mark' rest (List.append_inj' hafter rfl).1

/-- **A table that takes the marks one by one has what the history says.** -/
theorem holds_eq_foldl (marks : List (Mark κ τ)) :
    Holds slot overdue marks = marks.foldl (After slot overdue) (fun _ _ => False) := by
  induction marks using List.reverseRecOn with
  | nil =>
    funext k t
    exact propext ⟨not_holds_nil k t, False.elim⟩
  | append_singleton marks mark ih =>
    rw [List.foldl_append, ← ih]
    funext k t
    exact propext holds_concat

/-! ### The marks -/

section

variable {table : κ → τ → Prop} {k k' : κ} {t t' : τ}

theorem after_grant : After slot overdue table (.grant k' t') k t ↔
    (k = k' ∧ t = t') ∨ (slot k' ≠ slot k ∧ table k t) := by
  constructor
  · rintro (hgrant | ⟨_, htable, hslot, rfl⟩)
    · cases hgrant
      exact .inl ⟨rfl, rfl⟩
    · exact .inr ⟨hslot, htable⟩
  · rintro (⟨rfl, rfl⟩ | ⟨hslot, htable⟩)
    · exact .inl rfl
    · exact .inr ⟨t, htable, hslot, rfl⟩

theorem after_renew : After slot overdue table (.renew k' t') k t ↔
    if k' = k then t = t' ∧ ∃ last, table k last else table k t := by
  split
  · rename_i hk
    constructor
    · rintro (hgrant | ⟨last, htable, -, hrenewed⟩)
      · cases hgrant
      · rw [renewedBy, if_pos hk] at hrenewed
        exact ⟨hrenewed.symm, last, htable⟩
    · rintro ⟨rfl, last, htable⟩
      exact .inr ⟨last, htable, trivial, if_pos hk⟩
  · rename_i hk
    constructor
    · rintro (hgrant | ⟨last, htable, -, hrenewed⟩)
      · cases hgrant
      · rw [renewedBy, if_neg hk] at hrenewed
        exact hrenewed ▸ htable
    · intro htable
      exact .inr ⟨t, htable, trivial, if_neg hk⟩

theorem after_check : After slot overdue table (.check t') k t ↔ table k t ∧ ¬ overdue t' t := by
  constructor
  · rintro (hgrant | ⟨_, htable, hdue, rfl⟩)
    · cases hgrant
    · exact ⟨htable, hdue⟩
  · rintro ⟨htable, hdue⟩
    exact .inr ⟨t, htable, hdue, rfl⟩

theorem not_after_clear : ¬ After slot overdue table .clear k t := by
  rintro (hgrant | ⟨_, _, hspares, _⟩)
  · cases hgrant
  · exact hspares

end

end Lease
