import OmniPaxosJepsen.Runs

namespace OmniPaxosJepsen.Refinement

open Runs

variable {α β σ τ : Type} {step : σ → α → Option σ} {step' : τ → β → Option τ}

theorem run_append_eq_some {s u : σ} {acts acts' : List α} :
    run step s (acts ++ acts') = some u ↔ ∃ t, run step s acts = some t ∧
      run step t acts' = some u := by
  induction acts generalizing s with
  | nil => simp
  | cons a acts ih =>
    simp only [List.cons_append, run_cons_eq_some, ih]
    constructor
    · rintro ⟨t, ht, v, hv, hu⟩
      exact ⟨v, ⟨t, ht, hv⟩, hu⟩
    · rintro ⟨v, ⟨t, ht, hv⟩, hu⟩
      exact ⟨t, ht, v, hv, hu⟩

/-- Some steps, one after another, lead from one state to another. -/
def Reaches (step : σ → α → Option σ) (s t : σ) : Prop := ∃ acts, run step s acts = some t

theorem Reaches.refl (s : σ) : Reaches step s s := ⟨[], rfl⟩

theorem Reaches.single {s t : σ} {a : α} (h : step s a = some t) : Reaches step s t :=
  ⟨[a], run_cons_eq_some.mpr ⟨t, h, rfl⟩⟩

theorem Reaches.trans {s t u : σ} (h : Reaches step s t) (h' : Reaches step t u) :
    Reaches step s u := by
  obtain ⟨acts, hacts⟩ := h
  obtain ⟨acts', hacts'⟩ := h'
  exact ⟨acts ++ acts', run_append_eq_some.mpr ⟨t, hacts, hacts'⟩⟩

theorem Reaches.keeps {P : σ → Prop} (hstep : ∀ s a t, P s → step s a = some t → P t) {s t : σ}
    (h : Reaches step s t) (hs : P s) : P t := by
  obtain ⟨acts, hacts⟩ := h
  exact run_invariant P (fun s a t _ => hstep s a t) hs hacts

/-- What a step of the system does, the abstract system can do in some steps. `inv` is an
invariant of the system, `ok` is assumed of the states that it reaches, and `allowed` of its
steps. -/
def Simulates (step : σ → α → Option σ) (step' : τ → β → Option τ) (R : σ → τ → Prop)
    (inv ok : σ → Prop) (allowed : α → Prop) : Prop :=
  ∀ s a t u, allowed a → inv s → ok t → R s u → step s a = some t → ∃ v, Reaches step' u v ∧ R t v

/-- A simulation of the steps is one of the runs, where a state inherits what is assumed from
its successors. -/
theorem Simulates.run {R : σ → τ → Prop} {inv ok : σ → Prop} {allowed : α → Prop}
    (h : Simulates step step' R inv ok allowed)
    (hkeeps : ∀ s a t, inv s → step s a = some t → inv t ∧ (ok t → ok s)) {s t : σ} {u : τ}
    {acts : List α} (hallowed : ∀ a ∈ acts, allowed a) (hinv : inv s) (hs : R s u)
    (hrun : run step s acts = some t) (hok : ok t) : ∃ v, Reaches step' u v ∧ R t v := by
  have hall : inv t ∧ (ok t → ∃ v, Reaches step' u v ∧ R t v) := by
    refine run_invariant (fun t => inv t ∧ (ok t → ∃ v, Reaches step' u v ∧ R t v)) ?_ ?_ hrun
    · rintro s a t ha ⟨hinv, hs⟩ hstep
      obtain ⟨hinv', hback⟩ := hkeeps s a t hinv hstep
      refine ⟨hinv', fun hok => ?_⟩
      obtain ⟨v, hv, hR⟩ := hs (hback hok)
      obtain ⟨w, hw, hR'⟩ := h s a t v (hallowed a ha) hinv hok hR hstep
      exact ⟨w, hv.trans hw, hR'⟩
    · exact ⟨hinv, fun _ => ⟨u, .refl u, hs⟩⟩
  exact hall.2 hok

end OmniPaxosJepsen.Refinement
