import Ibase.Lib.Ledger

/-!
# Items on loan

An item that somebody uses must be held by somebody for as long as the use lasts.
A `Loan` is one use of an item, with what the user holds himself; the loans are
`Covered` by the items that are held elsewhere if each item in use is held by
the one or the other.  A `Sweeper` goes over its entries, each of which holds an
item, and drops some; if these are not in use, the loans stay covered
(`Sweeper.Lawful.covers_sweep`).
-/

namespace Custody

variable {σ α β : Type*}

structure Loan (α : Type*) where
  item : α
  own : List α
  deriving DecidableEq

def Covered (held : List α) (loans : List (Loan α)) : Prop :=
  ∀ loan ∈ loans, loan.item ∈ held ∨ loan.item ∈ loan.own

/-- Is the item in use? -/
def Lent (item : α) (loans : List (Loan α)) : Prop := ∃ loan ∈ loans, loan.item = item

theorem covered_nil (held : List α) : Covered held [] := by
  intro loan hin
  exact absurd hin List.not_mem_nil

namespace Covered

variable {held held' : List α} {loans : List (Loan α)}

theorem mono (h : Covered held loans) (hsub : held ⊆ held') : Covered held' loans := by
  intro loan hin
  rcases h loan hin with hheld | hown
  · exact .inl (hsub hheld)
  · exact .inr hown

theorem eraseIdx (h : Covered held loans) (i : Nat) : Covered held (loans.eraseIdx i) :=
  fun loan hin => h loan (List.mem_of_mem_eraseIdx hin)

/-- An item that is held comes into use. -/
theorem lend (h : Covered held loans) {item : α} (hitem : item ∈ held) (own : List α) :
    Covered held (loans ++ [⟨item, own⟩]) := by
  intro loan hin
  rcases List.mem_append.mp hin with hin | hin
  · exact h loan hin
  · rw [List.mem_singleton.mp hin]
    exact .inl hitem

/-- Items that are not in use are let go. -/
theorem release (h : Covered held loans) (hgone : ∀ item ∈ held, item ∉ held' → ¬ Lent item loans) :
    Covered held' loans := by
  intro loan hin
  rcases h loan hin with hheld | hown
  · by_cases hstill : loan.item ∈ held'
    · exact .inl hstill
    · exact absurd ⟨loan, hin, rfl⟩ (hgone loan.item hheld hstill)
  · exact .inr hown

variable {xs : List β} {f : β → α}

theorem eraseP {p : β → Bool} (h : Covered (xs.map f) loans)
    (hgone : ∀ x, xs.find? p = some x → ¬ Lent (f x) loans) :
    Covered ((xs.eraseP p).map f) loans := by
  cases hfind : xs.find? p with
  | none =>
    rw [List.eraseP_of_forall_not (fun x hx => List.find?_eq_none.mp hfind x hx)]
    exact h
  | some x =>
    have hperm := (Ledger.perm_cons_eraseP hfind).map f
    refine h.release (fun item hitem hnot => ?_)
    rcases List.mem_cons.mp (hperm.mem_iff.mp hitem) with rfl | hin
    · exact hgone x hfind
    · exact absurd hin hnot

theorem filter {p : β → Bool} (h : Covered (xs.map f) loans)
    (hgone : ∀ x ∈ xs, p x = false → ¬ Lent (f x) loans) :
    Covered ((xs.filter p).map f) loans := by
  refine h.release (fun item hitem hnot => ?_)
  obtain ⟨x, hx, rfl⟩ := List.mem_map.mp hitem
  refine hgone x hx (Bool.eq_false_of_not_eq_true (fun hp => hnot ?_))
  exact List.mem_map.mpr ⟨x, List.mem_filter.mpr ⟨hx, hp⟩, rfl⟩

end Covered

/-! ### Sweeps -/

/-- A sweep over the entries of a list drops those that are `gone`.  At this place of
it the loans are covered by what the sweep has kept and what it will keep. -/
def Spared (f : β → α) (gone : β → Bool) (visited rest : List β) (loans : List (Loan α)) : Prop :=
  Covered ((visited ++ rest.filter (fun x => !gone x)).map f) loans

namespace Spared

variable {f : β → α} {gone : β → Bool} {visited rest : List β} {x : β} {loans : List (Loan α)}

/-- Nothing that goes is in use. -/
theorem start (h : Covered (rest.map f) loans) (hgone : ∀ x ∈ rest, gone x = true → ¬ Lent (f x) loans) :
    Spared f gone [] rest loans := by
  refine h.filter (fun x hin hout => hgone x hin ?_)
  rw [Bool.not_eq_false'] at hout
  exact hout

theorem covered (h : Spared f gone visited rest loans) :
    Covered ((visited ++ rest).map f) loans := by
  refine h.mono (List.map_subset _ (List.append_subset.mpr ⟨?_, ?_⟩))
  · exact List.subset_append_left visited rest
  · exact fun x hin => List.mem_append_right visited (List.mem_of_mem_filter hin)

theorem keep (h : Spared f gone visited (x :: rest) loans) (hkeep : gone x = false) {y : β}
    (hsame : f y = f x) : Spared f gone (visited ++ [y]) rest loans := by
  rw [Spared, List.filter_cons_of_pos (by rw [hkeep]; rfl)] at h
  rw [Spared, List.append_assoc, List.map_append, List.singleton_append, List.map_cons, hsame,
    ← List.map_cons, ← List.map_append]
  exact h

theorem drop (h : Spared f gone visited (x :: rest) loans) (hgone : gone x = true) :
    Spared f gone visited rest loans := by
  rw [Spared, List.filter_cons_of_neg (by rw [hgone]; simp)] at h
  exact h

/-- The item of an entry that was kept comes into use. -/
theorem lend (h : Spared f gone visited rest loans) {y : β} (hin : y ∈ visited) (own : List α) :
    Spared f gone visited rest (loans ++ [⟨f y, own⟩]) :=
  Covered.lend h (List.mem_map_of_mem (List.mem_append_left _ hin)) own

theorem nil : Spared f gone visited rest [] := covered_nil _

end Spared

/-- A state whose entries hold items, and a sweep over them.  `sweep visited rest`
goes on where the entries `visited` lie behind and `rest` ahead. -/
structure Sweeper (σ α β : Type*) where
  entries : σ → List β
  loans : σ → List (Loan α)
  item : β → α
  gone : β → Bool
  sweep : List β → List β → σ → σ

namespace Sweeper

variable (S : Sweeper σ α β)

/-- Every item in use is held. -/
def Covers (s : σ) : Prop := Covered ((S.entries s).map S.item) (S.loans s)

/-- What the sweep does at the entry `x`.  It keeps the entry, perhaps changed and with its
item in use once more; it drops it; or it comes to an end. -/
inductive Round (I : σ → Prop) (visited : List β) (x : β) (rest : List β) (s : σ) : Prop
  | keep (y : β) (t : σ) (hkeep : S.gone x = false) (hitem : S.item y = S.item x)
      (hentries : S.entries t = visited ++ y :: rest)
      (hloans : S.loans t = S.loans s ∨ ∃ own, S.loans t = S.loans s ++ [⟨S.item x, own⟩])
      (ht : I t) (heq : S.sweep visited (x :: rest) s = S.sweep (visited ++ [y]) rest t)
  | drop (t : σ) (hgone : S.gone x = true) (hentries : S.entries t = visited ++ rest)
      (hloans : S.loans t = S.loans s ∨ S.loans t = []) (ht : I t)
      (heq : S.sweep visited (x :: rest) s = S.sweep visited rest t)
  | stop (hcovers : S.Covers (S.sweep visited (x :: rest) s))
      (ht : I (S.sweep visited (x :: rest) s))

/-- Every round of the sweep is one of these, as long as `I` holds. -/
structure Lawful (I : σ → Prop) : Prop where
  nil : ∀ visited s, S.sweep visited [] s = s
  round : ∀ visited x rest s, S.entries s = visited ++ x :: rest → S.Covers s → I s →
    S.Round I visited x rest s

/-- **A sweep that drops nothing in use leaves every item in use held.** -/
theorem Lawful.covers_sweep {S : Sweeper σ α β} {I : σ → Prop} (hS : S.Lawful I)
    {visited rest : List β} {s : σ} (hentries : S.entries s = visited ++ rest)
    (h : Spared S.item S.gone visited rest (S.loans s)) (hs : I s) :
    S.Covers (S.sweep visited rest s) ∧ I (S.sweep visited rest s) := by
  have hcovers : S.Covers s := by
    rw [Covers, hentries]
    exact h.covered
  induction rest generalizing visited s with
  | nil =>
    rw [hS.nil]
    exact ⟨hcovers, hs⟩
  | cons x rest ih =>
    cases hS.round visited x rest s hentries hcovers hs with
    | keep y t hkeep hitem hentries' hloans ht heq =>
      have hkept := h.keep hkeep hitem
      have ht' : Spared S.item S.gone (visited ++ [y]) rest (S.loans t) := by
        rcases hloans with hsame | ⟨own, hlent⟩
        · rw [hsame]
          exact hkept
        · rw [hlent, ← hitem]
          exact hkept.lend (List.mem_append_right visited List.mem_cons_self) own
      have hentries'' : S.entries t = (visited ++ [y]) ++ rest := by
        rw [hentries', List.append_assoc]
        rfl
      rw [heq]
      exact ih hentries'' ht' ht (by rw [Covers, hentries'']; exact ht'.covered)
    | drop t hgone hentries' hloans ht heq =>
      have ht' : Spared S.item S.gone visited rest (S.loans t) := by
        rcases hloans with hsame | hnil
        · rw [hsame]
          exact h.drop hgone
        · rw [hnil]
          exact .nil
      rw [heq]
      exact ih hentries' ht' ht (by rw [Covers, hentries']; exact ht'.covered)
    | stop hcovers' ht => exact ⟨hcovers', ht⟩

end Sweeper

/-- An item that nobody holds is in use. -/
theorem not_covered {held : List α} {loans : List (Loan α)} {item : α}
    (hin : ⟨item, []⟩ ∈ loans) (hheld : item ∉ held) : ¬ Covered held loans := by
  intro h
  rcases h _ hin with hh | hown
  · exact hheld hh
  · exact absurd hown List.not_mem_nil

end Custody
