import Mathlib.Data.List.Perm.Basic
import Mathlib.Order.Lattice
import OmniPaxosJepsen.Runs

namespace OmniPaxosJepsen.Linearization

open Runs

variable {α σ τ : Type} [LinearOrder τ]

/-- Nothing stands before an operation that had completed when it was invoked. -/
def RealTime (invoke complete : α → τ) (l : List α) : Prop :=
  l.Pairwise (fun a b => ¬ complete b < invoke a)

instance (invoke complete : α → τ) (l : List α) : Decidable (RealTime invoke complete l) :=
  inferInstanceAs (Decidable (List.Pairwise _ l))

/-- The operations have an order that respects real time and is legal from `s`. -/
def HasOrder (invoke complete : α → τ) (step : σ → α → Option σ) (s : σ) (ops : List α) : Prop :=
  ∃ l, l.Perm ops ∧ RealTime invoke complete l ∧ Legal step s l

/-- The operations have a legal beginning of an order: all of them, or at least
`n` of them such that nothing left over completed before one of them was invoked. -/
def HasBeginning (invoke complete : α → τ) (step : σ → α → Option σ) (n : Nat) (s : σ)
    (ops : List α) : Prop :=
  ∃ l rest, (l ++ rest).Perm ops ∧ RealTime invoke complete l ∧
    (∀ a ∈ l, ∀ b ∈ rest, ¬ complete b < invoke a) ∧ Legal step s l ∧ (rest = [] ∨ n ≤ l.length)

variable {invoke complete : α → τ} {step : σ → α → Option σ}

theorem HasOrder.hasBeginning {s : σ} {ops : List α} (h : HasOrder invoke complete step s ops)
    (n : Nat) : HasBeginning invoke complete step n s ops := by
  obtain ⟨l, hperm, hrt, hlegal⟩ := h
  exact ⟨l, [], by simpa using hperm, hrt, by simp, hlegal, Or.inl rfl⟩

theorem HasBeginning.hasOrder {n : Nat} {s : σ} {ops : List α}
    (h : HasBeginning invoke complete step n s ops) (hlen : ops.length ≤ n) :
    HasOrder invoke complete step s ops := by
  obtain ⟨l, rest, hperm, hrt, _, hlegal, hend⟩ := h
  have hrest : rest = [] := by
    rcases hend with hrest | hn
    · exact hrest
    · have hl := hperm.length_eq
      rw [List.length_append] at hl
      exact List.length_eq_zero_iff.mp (by omega)
  subst hrest
  exact ⟨l, by simpa using hperm, hrt, hlegal⟩

theorem hasOrder_iff_hasBeginning {s : σ} {ops : List α} :
    HasOrder invoke complete step s ops ↔ HasBeginning invoke complete step ops.length s ops :=
  ⟨fun h => h.hasBeginning _, fun h => h.hasOrder (Nat.le_refl _)⟩

theorem hasBeginning_zero (s : σ) (ops : List α) :
    HasBeginning invoke complete step 0 s ops :=
  ⟨[], ops, by simp, List.Pairwise.nil, by simp, legal_nil step s, Or.inr (Nat.zero_le _)⟩

theorem hasBeginning_nil (n : Nat) (s : σ) : HasBeginning invoke complete step n s [] :=
  ⟨[], [], by simp, List.Pairwise.nil, by simp, legal_nil step s, Or.inl rfl⟩

theorem hasBeginning_congr {n : Nat} {s : σ} {ops ops' : List α} (h : ops.Perm ops') :
    HasBeginning invoke complete step n s ops ↔ HasBeginning invoke complete step n s ops' := by
  constructor
  · rintro ⟨l, rest, hperm, hl⟩
    exact ⟨l, rest, hperm.trans h, hl⟩
  · rintro ⟨l, rest, hperm, hl⟩
    exact ⟨l, rest, hperm.trans h.symm, hl⟩

/-- Operations may be renamed, as long as their precedence and their steps stay. -/
theorem hasBeginning_map {β ρ υ : Type} [LinearOrder υ] {invoke' complete' : β → υ}
    {step' : ρ → β → Option ρ} (f : α → β) (g : σ → ρ) {n : Nat} {s : σ} {ops : List α}
    (htime : ∀ a ∈ ops, ∀ b ∈ ops, complete' (f b) < invoke' (f a) ↔ complete b < invoke a)
    (hstep : ∀ a ∈ ops, ∀ t, step' (g t) (f a) = (step t a).map g) :
    HasBeginning invoke' complete' step' n (g s) (ops.map f) ↔
      HasBeginning invoke complete step n s ops := by
  have hparts : ∀ l rest : List α, (l ++ rest).Perm ops →
      (∀ a ∈ l, a ∈ ops) ∧ (∀ a ∈ rest, a ∈ ops) := fun l rest hp =>
    ⟨fun a ha => hp.subset (by simp [ha]), fun a ha => hp.subset (by simp [ha])⟩
  constructor
  · rintro ⟨l', rest', hp, hrt, hrest, hlegal, hend⟩
    obtain ⟨both, heq, hboth⟩ : ∃ both : List α, l' ++ rest' = both.map f ∧ both.Perm ops := by
      have h := congrFun (congrFun (List.eq_map_comp_perm f) (l' ++ rest')) ops
      exact h.mpr hp
    obtain ⟨l, rest, rfl, rfl, rfl⟩ := List.append_eq_map_iff.mp heq
    obtain ⟨hl, hr⟩ := hparts l rest hboth
    refine ⟨l, rest, hboth, ?_, fun a ha b hb => ?_, ?_, ?_⟩
    · refine (List.pairwise_map.mp hrt).imp_of_mem (fun {a b} ha hb hab => ?_)
      rwa [htime a (hl a ha) b (hl b hb)] at hab
    · have hab := hrest (f a) (List.mem_map_of_mem ha) (f b) (List.mem_map_of_mem hb)
      rwa [htime a (hl a ha) b (hr b hb)] at hab
    · exact (legal_map f g (fun a ha => hstep a (hl a ha)) s).mp hlegal
    · simpa using hend
  · rintro ⟨l, rest, hp, hrt, hrest, hlegal, hend⟩
    obtain ⟨hl, hr⟩ := hparts l rest hp
    refine ⟨l.map f, rest.map f, by simpa using hp.map f, ?_, ?_, ?_, by simpa using hend⟩
    · refine List.pairwise_map.mpr (hrt.imp_of_mem (fun {a b} ha hb hab => ?_))
      rwa [htime a (hl a ha) b (hl b hb)]
    · intro a' ha' b' hb'
      obtain ⟨a, ha, rfl⟩ := List.mem_map.mp ha'
      obtain ⟨b, hb, rfl⟩ := List.mem_map.mp hb'
      rw [htime a (hl a ha) b (hr b hb)]
      exact hrest a ha b hb
    · exact (legal_map f g (fun a ha => hstep a (hl a ha)) s).mpr hlegal

/-- An operation can be put first when nothing that remains completed before it
was invoked and the rest has a beginning from the state it leads to. -/
theorem hasBeginning_cons {n : Nat} {s t : σ} {a : α} {rest ops : List α}
    (hperm : (a :: rest).Perm ops) (hmin : ∀ b ∈ ops, ¬ complete b < invoke a)
    (hstep : step s a = some t) (h : HasBeginning invoke complete step n t rest) :
    HasBeginning invoke complete step (n + 1) s ops := by
  obtain ⟨l, left, hp, hrt, hleft, hlegal, hend⟩ := h
  have hsub : ∀ b ∈ l ++ left, b ∈ ops := fun b hb =>
    hperm.subset (List.mem_cons_of_mem a (hp.subset hb))
  refine ⟨a :: l, left, ?_, ?_, ?_, legal_cons.mpr ⟨t, hstep, hlegal⟩, ?_⟩
  · exact (hp.cons a).trans hperm
  · exact List.pairwise_cons.mpr ⟨fun b hb => hmin b (hsub b (by simp [hb])), hrt⟩
  · intro b hb c hc
    rcases List.mem_cons.mp hb with rfl | hb
    · exact hmin c (hsub c (by simp [hc]))
    · exact hleft b hb c hc
  · exact hend.imp_right (fun hn => by simpa using hn)

theorem hasBeginning_succ {n : Nat} {s : σ} {ops : List α} (hne : ops ≠ [])
    (hwf : ∀ a ∈ ops, invoke a ≤ complete a)
    (h : HasBeginning invoke complete step (n + 1) s ops) :
    ∃ a rest t, (a :: rest).Perm ops ∧ (∀ b ∈ ops, ¬ complete b < invoke a) ∧
      step s a = some t ∧ HasBeginning invoke complete step n t rest := by
  obtain ⟨l, left, hp, hrt, hleft, hlegal, hend⟩ := h
  cases l with
  | nil =>
    have hleft : left ≠ [] := by
      rintro rfl
      exact hne hp.nil_eq.symm
    simp [hleft] at hend
  | cons a l =>
    obtain ⟨hhead, hrt⟩ := List.pairwise_cons.mp hrt
    obtain ⟨t, hstep, hlegal⟩ := legal_cons.mp hlegal
    refine ⟨a, l ++ left, t, hp, ?_, hstep, l, left, List.Perm.refl _, hrt,
      fun b hb => hleft b (by simp [hb]), hlegal, hend.imp_right (fun hn => by simpa using hn)⟩
    intro b hb
    rcases List.mem_append.mp (hp.symm.subset hb) with hb' | hb'
    · rcases List.mem_cons.mp hb' with rfl | hb'
      · exact not_lt.mpr (hwf b hb)
      · exact hhead b hb'
    · exact hleft a (by simp) b hb'

end OmniPaxosJepsen.Linearization
