import Mathlib.Data.List.Dedup
import Mathlib.Data.List.Sort
import Mathlib.Logic.Function.Basic
import OmniPaxosJepsen.Linearization

namespace OmniPaxosJepsen.Locality

open Linearization Runs

variable {α κ τ : Type} {S : Type} [LinearOrder τ] [DecidableEq κ]

def onKey (key : α → κ) (k : κ) (ops : List α) : List α := ops.filter (fun a => key a = k)

/-- Objects side by side: an operation changes the state of its own object only. -/
def shared (key : α → κ) (step : S → α → Option S) (m : κ → S) (a : α) : Option (κ → S) :=
  (step (m (key a)) a).map (fun t => Function.update m (key a) t)

theorem shared_eq_some {key : α → κ} {step : S → α → Option S} {m m' : κ → S} {a : α} :
    shared key step m a = some m' ↔
      ∃ t, step (m (key a)) a = some t ∧ Function.update m (key a) t = m' := by
  simp only [shared, Option.map_eq_some_iff]

theorem legal_shared_iff (key : α → κ) (step : S → α → Option S) (m : κ → S) (l : List α) :
    Legal (shared key step) m l ↔ ∀ k, Legal step (m k) (onKey key k l) := by
  induction l generalizing m with
  | nil => simp [onKey]
  | cons a l ih =>
    constructor
    · intro h k
      obtain ⟨m', hm', hl⟩ := legal_cons.mp h
      obtain ⟨t, ht, rfl⟩ := shared_eq_some.mp hm'
      have hk := (ih _).mp hl k
      by_cases hak : key a = k
      · subst hak
        rw [Function.update_self] at hk
        simpa [onKey] using legal_cons.mpr ⟨t, ht, hk⟩
      · rw [Function.update_of_ne (Ne.symm hak)] at hk
        simpa [onKey, hak] using hk
    · intro h
      have ha := h (key a)
      simp only [onKey, List.filter_cons, decide_true, ↓reduceIte] at ha
      obtain ⟨t, ht, _⟩ := legal_cons.mp ha
      refine legal_cons.mpr ⟨_, shared_eq_some.mpr ⟨t, ht, rfl⟩, (ih _).mpr ?_⟩
      intro k
      by_cases hak : key a = k
      · subst hak
        obtain ⟨t', ht', hl⟩ := legal_cons.mp ha
        rw [ht] at ht'
        cases ht'
        rwa [Function.update_self]
      · rw [Function.update_of_ne (Ne.symm hak)]
        simpa [onKey, hak] using h k

/-- Linearization points: each operation takes effect as soon as it and all
operations before it have been invoked. -/
def pointsFrom (invoke : α → τ) : τ → List α → List (τ × α)
  | _, [] => []
  | lo, a :: l => (max lo (invoke a), a) :: pointsFrom invoke (max lo (invoke a)) l

def points (invoke : α → τ) : List α → List (τ × α)
  | [] => []
  | a :: l => pointsFrom invoke (invoke a) (a :: l)

theorem pointsFrom_map_snd (invoke : α → τ) (lo : τ) (l : List α) :
    (pointsFrom invoke lo l).map Prod.snd = l := by
  induction l generalizing lo with
  | nil => rfl
  | cons a l ih => simp [pointsFrom, ih]

theorem points_map_snd (invoke : α → τ) (l : List α) : (points invoke l).map Prod.snd = l := by
  cases l with
  | nil => rfl
  | cons a l => exact pointsFrom_map_snd invoke _ _

theorem le_pointsFrom (invoke : α → τ) (lo : τ) (l : List α) :
    ∀ x ∈ pointsFrom invoke lo l, lo ≤ x.1 ∧ invoke x.2 ≤ x.1 := by
  induction l generalizing lo with
  | nil => simp [pointsFrom]
  | cons a l ih =>
    intro x hx
    rcases List.mem_cons.mp hx with rfl | hx
    · exact ⟨le_max_left _ _, le_max_right _ _⟩
    · obtain ⟨hlo, hinv⟩ := ih _ x hx
      exact ⟨(le_max_left _ _).trans hlo, hinv⟩

theorem pointsFrom_sorted (invoke : α → τ) (lo : τ) (l : List α) :
    (pointsFrom invoke lo l).Pairwise (fun x y => x.1 ≤ y.1) := by
  induction l generalizing lo with
  | nil => exact List.Pairwise.nil
  | cons a l ih =>
    exact List.pairwise_cons.mpr ⟨fun y hy => (le_pointsFrom invoke _ l y hy).1, ih _⟩

/-- In an order that respects real time every point lies before the completion
of its operation. -/
theorem pointsFrom_le_complete {invoke complete : α → τ} {lo : τ} {l : List α}
    (hlo : ∀ a ∈ l, lo ≤ complete a) (hwf : ∀ a ∈ l, invoke a ≤ complete a)
    (hrt : RealTime invoke complete l) : ∀ x ∈ pointsFrom invoke lo l, x.1 ≤ complete x.2 := by
  induction l generalizing lo with
  | nil => simp [pointsFrom]
  | cons a l ih =>
    obtain ⟨hhead, hrt⟩ := List.pairwise_cons.mp hrt
    intro x hx
    rcases List.mem_cons.mp hx with rfl | hx
    · exact max_le (hlo a (by simp)) (hwf a (by simp))
    · refine ih ?_ (fun b hb => hwf b (by simp [hb])) hrt x hx
      intro b hb
      exact max_le (hlo b (by simp [hb])) (not_lt.mp (hhead b hb))

theorem points_sorted (invoke : α → τ) (l : List α) :
    (points invoke l).Pairwise (fun x y => x.1 ≤ y.1) := by
  cases l with
  | nil => exact List.Pairwise.nil
  | cons a l => exact pointsFrom_sorted invoke _ _

theorem invoke_le_points (invoke : α → τ) (l : List α) :
    ∀ x ∈ points invoke l, invoke x.2 ≤ x.1 := by
  cases l with
  | nil => simp [points]
  | cons a l => exact fun x hx => (le_pointsFrom invoke _ _ x hx).2

theorem points_le_complete {invoke complete : α → τ} {l : List α}
    (hwf : ∀ a ∈ l, invoke a ≤ complete a) (hrt : RealTime invoke complete l) :
    ∀ x ∈ points invoke l, x.1 ≤ complete x.2 := by
  cases l with
  | nil => simp [points]
  | cons a l =>
    refine pointsFrom_le_complete ?_ hwf hrt
    intro b hb
    rcases List.mem_cons.mp hb with rfl | hb'
    · exact hwf b hb
    · exact not_lt.mp ((List.pairwise_cons.mp hrt).1 b hb')

theorem flatMap_onKey_perm (key : α → κ) {ks : List κ} (hks : ks.Nodup) {ops : List α}
    (hmem : ∀ a ∈ ops, key a ∈ ks) : (ks.flatMap (fun k => onKey key k ops)).Perm ops := by
  induction ks generalizing ops with
  | nil =>
    have hops : ops = [] :=
      List.eq_nil_iff_forall_not_mem.mpr (fun a ha => by simpa using hmem a ha)
    simp [hops]
  | cons k ks ih =>
    obtain ⟨hk, hks⟩ := List.nodup_cons.mp hks
    let other := ops.filter (fun a => !decide (key a = k))
    have hother : ∀ a ∈ other, key a ∈ ks := by
      intro a ha
      obtain ⟨ha, hne⟩ := List.mem_filter.mp ha
      exact (List.mem_cons.mp (hmem a ha)).resolve_left (by simpa using hne)
    have hsame : ks.flatMap (fun k' => onKey key k' ops) =
        ks.flatMap (fun k' => onKey key k' other) := by
      apply List.flatMap_congr
      intro k' hk'
      have hne : k' ≠ k := fun h => hk (h ▸ hk')
      simp only [onKey, other, List.filter_filter]
      apply List.filter_congr
      intro a _
      by_cases h : key a = k' <;> simp [h, hne]
    rw [List.flatMap_cons, hsame]
    exact ((ih hks hother).append_left _).trans (List.filter_append_perm _ ops)

/-- Merge the orders found for each object by their linearization points. -/
def interleave (invoke : α → τ) (ks : List κ) (order : κ → List α) : List (τ × α) :=
  (ks.flatMap (fun k => points invoke (order k))).mergeSort (fun x y => x.1 ≤ y.1)

omit [DecidableEq κ] in
theorem interleave_sorted (invoke : α → τ) (ks : List κ) (order : κ → List α) :
    (interleave invoke ks order).Pairwise (fun x y => x.1 ≤ y.1) := by
  have h := @List.pairwise_mergeSort _ (fun x y : τ × α => decide (x.1 ≤ y.1))
    (fun a b c hab hbc => by simpa using le_trans (by simpa using hab) (by simpa using hbc))
    (fun a b => by simpa using le_total a.1 b.1)
    (ks.flatMap (fun k => points invoke (order k)))
  exact h.imp (fun hab => by simpa using hab)

omit [DecidableEq κ] in
theorem points_sublist_interleave (invoke : α → τ) {ks : List κ} (order : κ → List α) {k : κ}
    (hk : k ∈ ks) : (points invoke (order k)).Sublist (interleave invoke ks order) := by
  refine List.sublist_mergeSort
    (fun a b c hab hbc => by simpa using le_trans (by simpa using hab) (by simpa using hbc))
    (fun a b => by simpa using le_total a.1 b.1) ?_ ?_
  · exact (points_sorted invoke (order k)).imp (fun hab => by simpa using hab)
  · rw [List.flatMap_def]
    exact List.sublist_flatten_of_mem (List.mem_map_of_mem hk)

section

variable {key : α → κ} {invoke complete : α → τ} {order : κ → List α} {ops : List α}

theorem key_of_mem_order (hperm : ∀ k, (order k).Perm (onKey key k ops)) {k : κ} {a : α}
    (ha : a ∈ order k) : a ∈ ops ∧ key a = k := by
  simpa [onKey] using (hperm k).subset ha

theorem interleave_perm (hperm : ∀ k, (order k).Perm (onKey key k ops)) :
    ((interleave invoke (ops.map key).dedup order).map Prod.snd).Perm ops := by
  have hsort : (interleave invoke (ops.map key).dedup order).Perm
      ((ops.map key).dedup.flatMap (fun k => points invoke (order k))) := List.mergeSort_perm _ _
  have hflat : ((ops.map key).dedup.flatMap (fun k => points invoke (order k))).map Prod.snd =
      (ops.map key).dedup.flatMap order := by
    simp only [List.map_flatMap, points_map_snd]
  have horder : ((ops.map key).dedup.flatMap order).Perm
      ((ops.map key).dedup.flatMap (fun k => onKey key k ops)) :=
    List.Perm.flatMap_left _ (fun k _ => hperm k)
  have hmem : ∀ a ∈ ops, key a ∈ (ops.map key).dedup := fun a ha =>
    List.mem_dedup.mpr (List.mem_map_of_mem ha)
  apply (hsort.map Prod.snd).trans
  rw [hflat]
  exact horder.trans (flatMap_onKey_perm key (List.nodup_dedup _) hmem)

/-- The merge keeps the order found for each object: sorting is stable. -/
theorem onKey_interleave (hperm : ∀ k, (order k).Perm (onKey key k ops)) (k : κ) :
    onKey key k ((interleave invoke (ops.map key).dedup order).map Prod.snd) = order k := by
  have hlen : (onKey key k ((interleave invoke (ops.map key).dedup order).map Prod.snd)).length =
      (order k).length :=
    (((interleave_perm hperm).filter _).trans (hperm k).symm).length_eq
  by_cases hk : k ∈ (ops.map key).dedup
  · have hsub := (points_sublist_interleave invoke order hk).map Prod.snd
    rw [points_map_snd] at hsub
    have hsub' := hsub.filter (fun a => decide (key a = k))
    rw [List.filter_eq_self.mpr
      (fun a ha => by simpa using (key_of_mem_order hperm ha).2)] at hsub'
    exact (hsub'.eq_of_length hlen.symm).symm
  · have hempty : order k = [] := by
      refine List.eq_nil_iff_forall_not_mem.mpr (fun a ha => hk ?_)
      obtain ⟨hmem, rfl⟩ := key_of_mem_order hperm ha
      exact List.mem_dedup.mpr (List.mem_map_of_mem hmem)
    rw [hempty] at hlen ⊢
    exact List.length_eq_zero_iff.mp hlen

/-- Every operation of the merge stands at a moment at which it was running. -/
theorem interleave_realTime (hperm : ∀ k, (order k).Perm (onKey key k ops))
    (hrt : ∀ k, RealTime invoke complete (order k)) (hwf : ∀ a ∈ ops, invoke a ≤ complete a) :
    RealTime invoke complete ((interleave invoke (ops.map key).dedup order).map Prod.snd) := by
  have hpoint : ∀ x ∈ interleave invoke (ops.map key).dedup order,
      invoke x.2 ≤ x.1 ∧ x.1 ≤ complete x.2 := by
    intro x hx
    obtain ⟨k, _, hx⟩ := List.mem_flatMap.mp (List.mem_mergeSort.mp hx)
    exact ⟨invoke_le_points invoke _ x hx, points_le_complete
      (fun a ha => hwf a (key_of_mem_order hperm ha).1) (hrt k) x hx⟩
  refine List.pairwise_map.mpr ((interleave_sorted invoke _ order).imp_of_mem ?_)
  intro x y hx hy hxy
  exact not_lt.mpr ((hpoint x hx).1.trans (hxy.trans (hpoint y hy).2))

end

/-- Locality: operations on many objects have a legal order that respects real
time exactly when the operations on each object have one. -/
theorem hasOrder_shared_iff (key : α → κ) {invoke complete : α → τ} (step : S → α → Option S)
    (m : κ → S) {ops : List α} (hwf : ∀ a ∈ ops, invoke a ≤ complete a) :
    HasOrder invoke complete (shared key step) m ops ↔
      ∀ k, HasOrder invoke complete step (m k) (onKey key k ops) := by
  constructor
  · rintro ⟨l, hperm, hrt, hlegal⟩ k
    exact ⟨onKey key k l, hperm.filter _, hrt.filter _, (legal_shared_iff key step m l).mp hlegal k⟩
  · intro h
    choose order hperm hrt hlegal using h
    refine ⟨_, interleave_perm hperm, interleave_realTime hperm hrt hwf, ?_⟩
    apply (legal_shared_iff key step m _).mpr
    intro k
    rw [onKey_interleave hperm k]
    exact hlegal k

end OmniPaxosJepsen.Locality
