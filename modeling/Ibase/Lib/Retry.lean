import Mathlib

/-!
# Trying again, a few times

Something is tried, and a sweep that finds the last try due tries it again, unless
there have been enough tries: then it drops the item.  A sweep that does not find it
due leaves it alone.  `Policy.sweep` is one sweep over one item, `Policy.after` a
series of them, and `Policy.attempts` says at which of them the item was tried.

A list of entries that each behave like an item (`Retries`) goes through a series of
sweeps as its entries do, one by one and in order (`Retries.disciplined`).
-/

namespace Retry

variable {τ β : Type*}

/-- How often something was tried, and when last. -/
structure Item (τ : Type*) where
  made : Nat
  last : τ

/-- Whether a try at one time is due at another, and how many tries are enough. -/
structure Policy (τ : Type*) where
  due : τ → τ → Bool
  tries : Nat

namespace Policy

variable (p : Policy τ)

def sweep (t : τ) (i : Item τ) : Option (Item τ) :=
  if p.due i.last t = false then some i
  else if p.tries ≤ i.made then none
  else some ⟨i.made + 1, t⟩

def after (i : Item τ) (ts : List τ) : Option (Item τ) := ts.foldlM (fun i t => p.sweep t i) i

/-- Does the sweep try the item? -/
def isTried (t : τ) (i : Item τ) : Bool := p.due i.last t && decide (i.made < p.tries)

/-- The sweeps that tried the item. -/
def attempts : Item τ → List τ → List τ
  | _, [] => []
  | i, t :: ts =>
    if p.due i.last t = false then attempts i ts
    else if p.tries ≤ i.made then []
    else t :: attempts ⟨i.made + 1, t⟩ ts

variable {p} {i j : Item τ} {t : τ} {ts : List τ}

theorem sweep_idle (h : p.due i.last t = false) : p.sweep t i = some i := if_pos h

theorem sweep_drop (h : p.due i.last t = true) (hm : p.tries ≤ i.made) : p.sweep t i = none := by
  rw [sweep, h, if_neg (by decide), if_pos hm]

theorem sweep_try (h : p.due i.last t = true) (hm : i.made < p.tries) :
    p.sweep t i = some ⟨i.made + 1, t⟩ := by
  rw [sweep, h, if_neg (by decide), if_neg (Nat.not_le_of_lt hm)]

/-- **An item is dropped when its last try is due and there have been enough.** -/
theorem sweep_eq_none_iff : p.sweep t i = none ↔ p.due i.last t = true ∧ p.tries ≤ i.made := by
  by_cases hdue : p.due i.last t = true
  · by_cases hm : p.tries ≤ i.made
    · exact ⟨fun _ => ⟨hdue, hm⟩, fun _ => sweep_drop hdue hm⟩
    · rw [sweep_try hdue (Nat.lt_of_not_le hm)]
      exact ⟨fun hno => absurd hno (by simp), fun h => absurd h.2 hm⟩
  · rw [sweep_idle (Bool.eq_false_of_not_eq_true hdue)]
    exact ⟨fun hno => absurd hno (by simp), fun h => absurd h.1 hdue⟩

theorem after_cons (h : p.sweep t i = some j) : p.after i (t :: ts) = p.after j ts := by
  show (p.sweep t i).bind (fun j => p.after j ts) = _
  rw [h]
  rfl

theorem attempts_idle (h : p.due i.last t = false) (ts : List τ) :
    p.attempts i (t :: ts) = p.attempts i ts := by
  rw [attempts, if_pos h]

theorem attempts_try (h : p.due i.last t = true) (hm : i.made < p.tries) (ts : List τ) :
    p.attempts i (t :: ts) = t :: p.attempts ⟨i.made + 1, t⟩ ts := by
  rw [attempts, h, if_neg (by decide), if_neg (Nat.not_le_of_lt hm)]

/-- An item that is still there after a sweep and others was idle in it, or tried. -/
theorem after_cons_cases (h : p.after i (t :: ts) = some j) :
    p.due i.last t = false ∧ p.after i ts = some j ∨
    p.due i.last t = true ∧ i.made < p.tries ∧ p.after ⟨i.made + 1, t⟩ ts = some j := by
  by_cases hdue : p.due i.last t = true
  · by_cases hm : p.tries ≤ i.made
    · have hnone : p.after i (t :: ts) = none := by
        show (p.sweep t i).bind _ = none
        rw [sweep_drop hdue hm]
        rfl
      rw [hnone] at h
      cases h
    · have hlt := Nat.lt_of_not_le hm
      rw [after_cons (sweep_try hdue hlt)] at h
      exact .inr ⟨hdue, hlt, h⟩
  · have hidle := Bool.eq_false_of_not_eq_true hdue
    rw [after_cons (sweep_idle hidle)] at h
    exact .inl ⟨hidle, h⟩

theorem after_append (i : Item τ) (ts ts' : List τ) :
    p.after i (ts ++ ts') = (p.after i ts).bind (fun j => p.after j ts') := by
  rw [after, List.foldlM_append]
  rfl

theorem after_concat (h : p.after i ts = some j) (t : τ) : p.after i (ts ++ [t]) = p.sweep t j := by
  rw [after_append, h]
  show (p.sweep t j).bind some = p.sweep t j
  cases p.sweep t j with
  | none => rfl
  | some k => rfl

/-! ### How often, and how far apart -/

/-- **There are no more tries than enough.** -/
theorem made_add_attempts_le (i : Item τ) (ts : List τ) :
    i.made + (p.attempts i ts).length ≤ max p.tries i.made := by
  induction ts generalizing i with
  | nil => exact Nat.le_max_right ..
  | cons t ts ih =>
    rw [attempts]
    split
    · exact ih i
    split
    · exact Nat.le_max_right ..
    · rename_i hm
      have hlater := ih ⟨i.made + 1, t⟩
      rw [List.length_cons]
      simp only at hlater
      omega

/-- **Each try was due after the one before.** -/
theorem isChain_attempts (i : Item τ) (ts : List τ) :
    List.IsChain (fun a b => p.due a b = true) (i.last :: p.attempts i ts) := by
  induction ts generalizing i with
  | nil => exact .singleton _
  | cons t ts ih =>
    rw [attempts]
    split
    · exact ih i
    rename_i hdue
    split
    · exact .singleton _
    · exact .cons_cons (Bool.eq_true_of_not_eq_false hdue) (ih ⟨i.made + 1, t⟩)

/-- An item that is still there counts its tries, and its last is the last. -/
theorem after_eq_some (h : p.after i ts = some j) :
    j.made = i.made + (p.attempts i ts).length ∧
      (i.last :: p.attempts i ts).getLast (List.cons_ne_nil _ _) = j.last := by
  induction ts generalizing i with
  | nil => exact Option.some.inj h ▸ ⟨rfl, rfl⟩
  | cons t ts ih =>
    rcases after_cons_cases h with ⟨hidle, h⟩ | ⟨hdue, hm, h⟩
    · rw [attempts_idle hidle]
      exact ih h
    · obtain ⟨hmade, hlast⟩ := ih h
      rw [attempts_try hdue hm]
      refine ⟨?_, hlast⟩
      rw [hmade, List.length_cons, Nat.add_right_comm, Nat.add_assoc]

/-- **No sweep since the last try has found it due.** -/
theorem idle_of_after (h : p.after i ts = some j) :
    ∃ before since, ts = before ++ since ∧ (before = [] ∨ before.getLast? = some j.last) ∧
      p.attempts i before = p.attempts i ts ∧ ∀ t ∈ since, p.due j.last t = false := by
  induction ts generalizing i with
  | nil => exact ⟨[], [], rfl, .inl rfl, rfl, fun t ht => absurd ht List.not_mem_nil⟩
  | cons t ts ih =>
    rcases after_cons_cases h with ⟨hidle, h⟩ | ⟨hdue, hm, h⟩
    · obtain ⟨before, since, rfl, hend, hsame, hrest⟩ := ih h
      rcases hend with rfl | hend
      · -- nothing has been tried: the first sweep is idle too
        have hnone : p.attempts i since = [] := hsame.symm
        have hlast := (after_eq_some h).2
        simp only [List.nil_append, hnone] at hlast
        refine ⟨[], t :: since, rfl, .inl rfl, ?_, ?_⟩
        · rw [List.nil_append, attempts_idle hidle, hnone]
          rfl
        · intro u hu
          rcases List.mem_cons.mp hu with rfl | hu
          · exact hlast ▸ hidle
          · exact hrest u hu
      · refine ⟨t :: before, since, rfl, .inr ?_, ?_, hrest⟩
        · rw [List.getLast?_cons, hend]
          rfl
        · rw [attempts_idle hidle, attempts_idle hidle, hsame]
    · obtain ⟨before, since, rfl, hend, hsame, hidle⟩ := ih h
      refine ⟨t :: before, since, rfl, .inr ?_, ?_, hidle⟩
      · rcases hend with rfl | hend
        · have hlast := (after_eq_some h).2
          rw [List.nil_append] at hlast hsame
          simp only [← hsame, attempts] at hlast
          exact congrArg some hlast
        · rw [List.getLast?_cons, hend]
          rfl
      · rw [attempts_try hdue hm, attempts_try hdue hm, hsame]

theorem attempts_singleton (i : Item τ) (t : τ) :
    p.attempts i [t] = if p.isTried t i then [t] else [] := by
  rw [attempts, isTried]
  by_cases hdue : p.due i.last t = true
  · by_cases hm : p.tries ≤ i.made
    · rw [hdue, if_neg (by decide), if_pos hm, decide_eq_false (Nat.not_lt_of_le hm)]
      rfl
    · rw [hdue, if_neg (by decide), if_neg hm, decide_eq_true (Nat.lt_of_not_le hm)]
      rfl
  · rw [Bool.eq_false_of_not_eq_true hdue]
    rfl

/-- One more sweep is one more try, or none. -/
theorem attempts_concat (h : p.after i ts = some j) (t : τ) :
    p.attempts i (ts ++ [t]) = p.attempts i ts ++ if p.isTried t j then [t] else [] := by
  induction ts generalizing i with
  | nil =>
    obtain rfl := Option.some.inj h
    exact attempts_singleton i t
  | cons u ts ih =>
    rcases after_cons_cases h with ⟨hidle, h⟩ | ⟨hdue, hm, h⟩
    · rw [List.cons_append, attempts_idle hidle, attempts_idle hidle, ih h]
    · rw [List.cons_append, attempts_try hdue hm, attempts_try hdue hm, ih h, List.cons_append]

/-- How an item fares through these sweeps, and what the next one does with it. -/
structure Fair (p : Policy τ) (i : Item τ) (ts : List τ) : Prop where
  bounded : i.made + (p.attempts i ts).length ≤ max p.tries i.made
  spaced : List.IsChain (fun a b => p.due a b = true) (i.last :: p.attempts i ts)
  counted : ∀ j, p.after i ts = some j → j.made = i.made + (p.attempts i ts).length ∧
    (i.last :: p.attempts i ts).getLast (List.cons_ne_nil _ _) = j.last
  /-- Since the last try no sweep has found it due. -/
  waiting : ∀ j, p.after i ts = some j → ∃ before since, ts = before ++ since ∧
    (before = [] ∨ before.getLast? = some j.last) ∧ p.attempts i before = p.attempts i ts ∧
      ∀ t ∈ since, p.due j.last t = false
  tried : ∀ t j, p.after i ts = some j →
    p.attempts i (ts ++ [t]) = p.attempts i ts ++ if p.isTried t j then [t] else []
  /-- The first sweep that finds it due, after enough tries, drops it. -/
  dropped : ∀ t j, p.after i ts = some j →
    (p.after i (ts ++ [t]) = none ↔ p.due j.last t = true ∧ p.tries ≤ j.made)

theorem fair (p : Policy τ) (i : Item τ) (ts : List τ) : p.Fair i ts := by
  refine ⟨made_add_attempts_le i ts, isChain_attempts i ts, fun j hj => after_eq_some hj,
    fun j hj => idle_of_after hj, fun t j hj => attempts_concat hj t, ?_⟩
  intro t j hj
  rw [after_concat hj]
  exact sweep_eq_none_iff

end Policy

/-! ### Lists of entries -/

/-- The entries are swept as items, each under a policy of its own; one that is not
due stays as it is. -/
structure Retries (item : β → Item τ) (policy : β → Policy τ) (swept : τ → β → Option β) :
    Prop where
  sweep : ∀ t b, (swept t b).map item = (policy b).sweep t (item b)
  policy_eq : ∀ t b c, swept t b = some c → policy c = policy b
  idle : ∀ t b, (policy b).due (item b).last t = false → swept t b = some b

/-- An entry after a series of sweeps. -/
def sweptAll (swept : τ → β → Option β) (ts : List τ) (b : β) : Option β :=
  ts.foldlM (fun b t => swept t b) b

/-- **A list goes through the sweeps as its entries do**, in order. -/
theorem foldl_filterMap (swept : τ → β → Option β) (l : List β) (ts : List τ) :
    ts.foldl (fun l t => l.filterMap (swept t)) l = l.filterMap (sweptAll swept ts) := by
  induction ts generalizing l with
  | nil => exact List.filterMap_some.symm
  | cons t ts ih =>
    rw [List.foldl_cons, ih, List.filterMap_filterMap]
    rfl

theorem sweptAll_concat (swept : τ → β → Option β) (ts : List τ) (t : τ) (b : β) :
    sweptAll swept (ts ++ [t]) b = (sweptAll swept ts b).bind (swept t) := by
  rw [sweptAll, List.foldlM_append]
  show (sweptAll swept ts b).bind (fun c => (swept t c).bind some) = _
  congr 1
  funext c
  cases swept t c with
  | none => rfl
  | some d => rfl

/-- The sweeps made `l'` of `l`, and were fair to each entry of it. -/
structure Disciplined (item : β → Item τ) (policy : β → Policy τ) (swept : τ → β → Option β)
    (ts : List τ) (l l' : List β) : Prop where
  result : l' = l.filterMap (sweptAll swept ts)
  item_eq : ∀ b ∈ l, (sweptAll swept ts b).map item = (policy b).after (item b) ts
  fair : ∀ b ∈ l, (policy b).Fair (item b) ts
  unchanged : ∀ b ∈ l, ∀ c, sweptAll swept ts b = some c → policy c = policy b ∧
    ∀ t, (policy b).due (item c).last t = false → sweptAll swept (ts ++ [t]) b = some c

namespace Retries

variable {item : β → Item τ} {policy : β → Policy τ} {swept : τ → β → Option β}

/-- A sweep that asks of each entry whether it is due, and whether it is spent. -/
theorem of_spent {due : τ → β → Bool} {spent : β → Prop} [DecidablePred spent] {again : τ → β → β}
    (hdue : ∀ t b, due t b = (policy b).due (item b).last t)
    (hspent : ∀ b, spent b ↔ (policy b).tries ≤ (item b).made)
    (hagain : ∀ t b, ¬ spent b → item (again t b) = ⟨(item b).made + 1, t⟩)
    (hpolicy : ∀ t b, policy (again t b) = policy b) :
    Retries item policy (fun t b =>
      if due t b = false then some b else if spent b then none else some (again t b)) := by
  refine ⟨?_, ?_, ?_⟩
  · intro t b
    split
    · rename_i hidle
      exact (Policy.sweep_idle ((hdue t b).symm.trans hidle)).symm
    rename_i hlate
    have hlate' := (hdue t b).symm.trans (Bool.eq_true_of_not_eq_false hlate)
    split
    · rename_i hb
      exact (Policy.sweep_drop hlate' ((hspent b).mp hb)).symm
    · rename_i hb
      have hm : (item b).made < (policy b).tries := Nat.lt_of_not_le (fun hle => hb ((hspent b).mpr hle))
      rw [Policy.sweep_try hlate' hm, Option.map_some, hagain t b hb]
  · intro t b c hswept
    split at hswept
    · exact Option.some.inj hswept ▸ rfl
    split at hswept
    · cases hswept
    · exact Option.some.inj hswept ▸ hpolicy t b
  · intro t b hidle
    exact if_pos ((hdue t b).trans hidle)

theorem sweptAll (h : Retries item policy swept) (ts : List τ) (b : β) :
    (Retry.sweptAll swept ts b).map item = (policy b).after (item b) ts := by
  induction ts generalizing b with
  | nil => rfl
  | cons t ts ih =>
    have hfirst := h.sweep t b
    show ((swept t b).bind (Retry.sweptAll swept ts)).map item =
      ((policy b).sweep t (item b)).bind (fun i => (policy b).after i ts)
    cases hb : swept t b with
    | none =>
      rw [hb] at hfirst
      rw [← hfirst]
      rfl
    | some c =>
      rw [hb] at hfirst
      rw [← hfirst]
      have hrest := ih c
      rw [h.policy_eq t b c hb] at hrest
      exact hrest

theorem policy_sweptAll (h : Retries item policy swept) {ts : List τ} {b c : β}
    (hc : Retry.sweptAll swept ts b = some c) : policy c = policy b := by
  induction ts generalizing b with
  | nil => exact Option.some.inj hc ▸ rfl
  | cons t ts ih =>
    have hbind : (swept t b).bind (Retry.sweptAll swept ts) = some c := hc
    obtain ⟨b', hb', hrest⟩ := Option.bind_eq_some_iff.mp hbind
    rw [ih hrest, h.policy_eq t b b' hb']

/-- **Sweeping a list of items is fair to each of them.** -/
theorem disciplined (h : Retries item policy swept) (ts : List τ) (l : List β) :
    Disciplined item policy swept ts l (ts.foldl (fun l t => l.filterMap (swept t)) l) := by
  refine ⟨foldl_filterMap swept l ts, fun b _ => h.sweptAll ts b,
    fun b _ => Policy.fair (policy b) (item b) ts, ?_⟩
  intro b _ c hc
  have hpolicy := h.policy_sweptAll hc
  refine ⟨hpolicy, ?_⟩
  intro t hidle
  rw [sweptAll_concat, hc]
  exact h.idle t c (hpolicy ▸ hidle)

end Retries

end Retry
