import Mathlib.Data.List.Basic

namespace OmniPaxosJepsen.Runs

variable {α σ : Type}

/-- Take the steps named by a list one after another, stopping at the first
one that the current state does not allow. -/
def run (step : σ → α → Option σ) : σ → List α → Option σ
  | s, [] => some s
  | s, a :: l => (step s a).bind (fun t => run step t l)

@[simp] theorem run_nil (step : σ → α → Option σ) (s : σ) : run step s [] = some s := rfl

theorem run_cons_eq_some {step : σ → α → Option σ} {s u : σ} {a : α} {l : List α} :
    run step s (a :: l) = some u ↔ ∃ t, step s a = some t ∧ run step t l = some u := by
  simp only [run, Option.bind_eq_some_iff]

theorem foldlM_eq_run (step : σ → α → Option σ) (s : σ) (l : List α) :
    l.foldlM step s = run step s l := by
  induction l generalizing s with
  | nil => rfl
  | cons a l ih => simp only [List.foldlM_cons, Option.bind_eq_bind, run, ih]

/-- A property that the start state has and every step of the run preserves
holds at the end of the run. -/
theorem run_invariant {step : σ → α → Option σ} (P : σ → Prop) {acts : List α}
    (hstep : ∀ s a t, a ∈ acts → P s → step s a = some t → P t)
    {s u : σ} (hs : P s) (h : run step s acts = some u) : P u := by
  induction acts generalizing s with
  | nil =>
    cases h
    exact hs
  | cons a l ih =>
    obtain ⟨t, ht, hu⟩ := run_cons_eq_some.mp h
    have hP : P t := hstep s a t (by simp) hs ht
    exact ih (fun s b t hb => hstep s b t (by simp [hb])) hP hu

/-- A list of steps is legal when every one of them is allowed in its turn. -/
def Legal (step : σ → α → Option σ) (s : σ) (l : List α) : Prop := ∃ t, run step s l = some t

@[simp] theorem legal_nil (step : σ → α → Option σ) (s : σ) : Legal step s [] := ⟨s, rfl⟩

theorem legal_cons {step : σ → α → Option σ} {s : σ} {a : α} {l : List α} :
    Legal step s (a :: l) ↔ ∃ t, step s a = some t ∧ Legal step t l := by
  constructor
  · rintro ⟨u, hu⟩
    obtain ⟨t, ht, hu⟩ := run_cons_eq_some.mp hu
    exact ⟨t, ht, u, hu⟩
  · rintro ⟨t, ht, u, hu⟩
    exact ⟨u, run_cons_eq_some.mpr ⟨t, ht, hu⟩⟩

theorem legal_map {β ρ : Type} {step : σ → α → Option σ} {step' : ρ → β → Option ρ} (f : α → β)
    (g : σ → ρ) {l : List α} (h : ∀ a ∈ l, ∀ s, step' (g s) (f a) = (step s a).map g) (s : σ) :
    Legal step' (g s) (l.map f) ↔ Legal step s l := by
  induction l generalizing s with
  | nil => simp
  | cons a l ih =>
    have hl := ih (fun b hb => h b (by simp [hb]))
    simp only [List.map_cons, legal_cons, h a (by simp), Option.map_eq_some_iff]
    constructor
    · rintro ⟨_, ⟨t, ht, rfl⟩, hlegal⟩
      exact ⟨t, ht, (hl t).mp hlegal⟩
    · rintro ⟨t, ht, hlegal⟩
      exact ⟨g t, ⟨t, ht, rfl⟩, (hl t).mpr hlegal⟩

/-- Steps that do no more than their renamed ones are legal where those are. -/
theorem Legal.of_map {step : σ → α → Option σ} (f : α → α) {s : σ} {l : List α}
    (h : Legal step s (l.map f))
    (hstep : ∀ a ∈ l, ∀ s t, step s (f a) = some t → step s a = some t) : Legal step s l := by
  induction l generalizing s with
  | nil => exact legal_nil step s
  | cons a l ih =>
    obtain ⟨t, ht, hlegal⟩ := legal_cons.mp h
    exact legal_cons.mpr ⟨t, hstep a (by simp) s t ht,
      ih hlegal (fun b hb => hstep b (by simp [hb]))⟩

end OmniPaxosJepsen.Runs
