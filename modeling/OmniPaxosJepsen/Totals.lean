import Mathlib.Algebra.BigOperators.Group.Finset.Basic
import OmniPaxosJepsen.Flight

namespace OmniPaxosJepsen.Totals

variable {ι α : Type} [DecidableEq ι] {ids : List ι} {f g : ι → List α} {n : ι}

def total (ids : List ι) (f : ι → List α) : Multiset α :=
  ∑ n ∈ ids.toFinset, (f n : Multiset α)

theorem mem_total {a : α} : a ∈ total ids f ↔ ∃ n ∈ ids, a ∈ f n := by
  simp [total, Multiset.mem_sum]

/-- Where one list changes, so does the total. -/
theorem total_change (hn : n ∈ ids) (hother : ∀ m, m ≠ n → g m = f m) {a b : Multiset α}
    (hself : (g n : Multiset α) + a = f n + b) : total ids g + a = total ids f + b := by
  have hmem := List.mem_toFinset.mpr hn
  have hrest : ∑ m ∈ ids.toFinset.erase n, (g m : Multiset α) =
      ∑ m ∈ ids.toFinset.erase n, (f m : Multiset α) :=
    Finset.sum_congr rfl (fun m hm => by rw [hother m (Finset.ne_of_mem_erase hm)])
  rw [total, total, ← Finset.add_sum_erase _ _ hmem, ← Finset.add_sum_erase _ _ hmem, hrest,
    add_right_comm, hself, add_right_comm]

theorem total_append (hn : n ∈ ids) (hother : ∀ m, m ≠ n → g m = f m) {l : List α}
    (hself : g n = f n ++ l) : total ids g = total ids f + l := by
  have h := total_change (a := 0) (b := (l : Multiset α)) hn hother (by simp [hself])
  rwa [add_zero] at h

theorem total_nil (h : ∀ n ∈ ids, f n = []) : total ids f = 0 :=
  Finset.sum_eq_zero (fun n hn => by rw [h n (List.mem_toFinset.mp hn), Multiset.coe_nil])

theorem exists_eraseIdx {l : List α} {a : α} {rest : Multiset α}
    (h : (l : Multiset α) = a ::ₘ rest) :
    ∃ i : Nat, l[i]? = some a ∧ (l.eraseIdx i : Multiset α) = rest := by
  have hmem : a ∈ l := by
    rw [← Multiset.mem_coe, h]
    exact Multiset.mem_cons_self a rest
  obtain ⟨i, hi⟩ := List.getElem?_of_mem hmem
  refine ⟨i, hi, ?_⟩
  have hperm : (a ::ₘ (l.eraseIdx i : Multiset α)) = l :=
    Multiset.coe_eq_coe.mpr (Flight.cons_eraseIdx_perm hi)
  exact (Multiset.cons_inj_right a).mp (hperm.trans h)

end OmniPaxosJepsen.Totals
