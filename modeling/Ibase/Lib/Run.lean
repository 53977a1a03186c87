import Mathlib

/-!
# Runs of a partial step function

`run step s es` is the state after the events `es`, if every one of them was
possible.  `Along step P s es` says that `P` holds of every state of the run
together with the event taken there; it is how a condition on the steps of a run
is stated.
-/

namespace Run

variable {σ ε : Type*} (step : σ → ε → Option σ)

def run (s : σ) (es : List ε) : Option σ := es.foldlM step s

/-- Some run leads from `s` to `t`. -/
def Reaches (s t : σ) : Prop := ∃ es, run step s es = some t

/-- `P` holds at every step of the run. -/
def Along (P : σ → ε → Prop) : σ → List ε → Prop
  | _, [] => True
  | s, e :: es => P s e ∧ ∀ s', step s e = some s' → Along P s' es

instance decidableAlong {P : σ → ε → Prop} [∀ s e, Decidable (P s e)] :
    ∀ (s : σ) (es : List ε), Decidable (Along step P s es)
  | _, [] => isTrue trivial
  | s, e :: es =>
    match h : step s e with
    | none => decidable_of_iff (P s e) ⟨fun hp => ⟨hp, by simp [h]⟩, And.left⟩
    | some t =>
      have : Decidable (Along step P t es) := decidableAlong t es
      decidable_of_iff (P s e ∧ Along step P t es)
        ⟨fun hp => ⟨hp.1, fun u hu => Option.some.inj (h.symm.trans hu) ▸ hp.2⟩,
          fun hp => ⟨hp.1, hp.2 t h⟩⟩

variable {step}

theorem run_cons {s t : σ} {e : ε} {es : List ε} (h : run step s (e :: es) = some t) :
    ∃ u, step s e = some u ∧ run step u es = some t := Option.bind_eq_some_iff.mp h

theorem run_append (s : σ) (es es' : List ε) :
    run step s (es ++ es') = (run step s es).bind (fun t => run step t es') := by
  rw [run, List.foldlM_append]
  rfl

theorem Reaches.refl (s : σ) : Reaches step s s := ⟨[], rfl⟩

theorem Reaches.concat {s t u : σ} (h : Reaches step s t) {e : ε} (hs : step t e = some u) :
    Reaches step s u := by
  obtain ⟨es, hrun⟩ := h
  refine ⟨es ++ [e], ?_⟩
  rw [run_append, hrun]
  show (step t e).bind some = some u
  rw [hs]
  rfl

theorem Reaches.trans {s t u : σ} (h : Reaches step s t) (h' : Reaches step t u) :
    Reaches step s u := by
  obtain ⟨es, hrun⟩ := h
  obtain ⟨es', hrun'⟩ := h'
  refine ⟨es ++ es', ?_⟩
  rw [run_append, hrun]
  exact hrun'

/-- **What every step keeps, every run keeps**, when the steps of the run meet `P`. -/
theorem run_invariant {I : σ → Prop} {P : σ → ε → Prop}
    (hstep : ∀ s e t, I s → P s e → step s e = some t → I t) {s t : σ} {es : List ε} (hs : I s)
    (hp : Along step P s es) (h : run step s es = some t) : I t := by
  induction es generalizing s with
  | nil => exact Option.some.inj h ▸ hs
  | cons e es ih =>
    obtain ⟨u, hu, hrest⟩ := run_cons h
    exact ih (hstep s e u hs hp.1 hu) (hp.2 u hu) hrest

/-- **A step that stays in step with another machine's, runs with it.** -/
theorem run_refines {τ : Type*} {f : τ → ε → τ} {R : σ → τ → Prop}
    (hstep : ∀ s q e t, R s q → step s e = some t → R t (f q e)) {s t : σ} {q : τ} {es : List ε}
    (hs : R s q) (h : run step s es = some t) : R t (es.foldl f q) := by
  induction es generalizing s q with
  | nil => exact Option.some.inj h ▸ hs
  | cons e es ih =>
    obtain ⟨u, hu, hrest⟩ := run_cons h
    exact ih (hstep s q e u hs hu) hrest

/-- The rest of a run. -/
theorem along_of_append {P : σ → ε → Prop} {s t : σ} {es es' : List ε}
    (h : Along step P s (es ++ es')) (hrun : run step s es = some t) : Along step P t es' := by
  induction es generalizing s with
  | nil => exact Option.some.inj hrun ▸ h
  | cons e es ih =>
    obtain ⟨u, hu, hrest⟩ := run_cons hrun
    exact ih (h.2 u hu) hrest

/-- Two conditions that agree wherever an invariant holds agree along a run that
meets `C`. -/
theorem along_iff {I : σ → Prop} {C P Q : σ → ε → Prop}
    (hstep : ∀ s e t, I s → step s e = some t → I t)
    (hpq : ∀ s e, I s → C s e → (P s e ↔ Q s e)) {s : σ} {es : List ε} (hs : I s)
    (hc : Along step C s es) : Along step P s es ↔ Along step Q s es := by
  induction es generalizing s with
  | nil => exact Iff.rfl
  | cons e es ih =>
    refine and_congr (hpq s e hs hc.1) (forall_congr' (fun t => ?_))
    exact imp_congr_right (fun ht => ih (hstep s e t hs ht) (hc.2 t ht))

/-- A condition that follows from an invariant. -/
theorem along_of_invariant {I : σ → Prop} {P : σ → ε → Prop}
    (hstep : ∀ s e t, I s → step s e = some t → I t) (hp : ∀ s e, I s → P s e) {s : σ}
    (hs : I s) (es : List ε) : Along step P s es := by
  induction es generalizing s with
  | nil => trivial
  | cons e es ih => exact ⟨hp s e hs, fun t ht => ih (hstep s e t hs ht)⟩

/-- A condition on the events alone. -/
theorem along_of_forall {P : ε → Prop} {es : List ε} (h : ∀ e ∈ es, P e) (s : σ) :
    Along step (fun _ e => P e) s es := by
  induction es generalizing s with
  | nil => trivial
  | cons e es ih =>
    exact ⟨h e List.mem_cons_self, fun t _ => ih (fun e' he' => h e' (List.mem_cons_of_mem e he')) t⟩

theorem along_and {P Q : σ → ε → Prop} {s : σ} {es : List ε} (hp : Along step P s es)
    (hq : Along step Q s es) : Along step (fun s e => P s e ∧ Q s e) s es := by
  induction es generalizing s with
  | nil => trivial
  | cons e es ih => exact ⟨⟨hp.1, hq.1⟩, fun t ht => ih (hp.2 t ht) (hq.2 t ht)⟩

theorem along_true (s : σ) (es : List ε) : Along step (fun _ _ => True) s es :=
  along_of_forall (fun _ _ => trivial) s

/-- A run of a system that carries another system's steps is a run of that system. -/
theorem run_map {τ : Type*} {step' : τ → ε → Option τ} (f : σ → τ)
    (h : ∀ s e, step' (f s) e = (step s e).map f) (s : σ) (es : List ε) :
    run step' (f s) es = (run step s es).map f := by
  induction es generalizing s with
  | nil => rfl
  | cons e es ih =>
    show (step' (f s) e).bind (fun t => run step' t es) =
      ((step s e).bind (fun u => run step u es)).map f
    rw [h]
    cases step s e with
    | none => rfl
    | some u => exact ih u

theorem along_map {τ : Type*} {step' : τ → ε → Option τ} (f : σ → τ)
    (h : ∀ s e, step' (f s) e = (step s e).map f) {P : τ → ε → Prop} {s : σ} {es : List ε}
    (hp : Along step' P (f s) es) : Along step (fun s e => P (f s) e) s es := by
  induction es generalizing s with
  | nil => trivial
  | cons e es ih =>
    refine ⟨hp.1, fun u hu => ih (hp.2 (f u) ?_)⟩
    rw [h, hu]
    rfl

end Run
