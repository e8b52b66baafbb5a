import Mathlib.Data.List.Perm.Basic

namespace OmniPaxosJepsen.Flight

variable {α : Type}

theorem cons_eraseIdx_perm {l : List α} {i : Nat} {a : α} (h : l[i]? = some a) :
    (a :: l.eraseIdx i).Perm l := by
  obtain ⟨hi, rfl⟩ := List.getElem?_eq_some_iff.mp h
  exact List.getElem_cons_eraseIdx_perm hi

theorem countP_eraseIdx (p : α → Bool) {l : List α} {i : Nat} {a : α} (h : l[i]? = some a) :
    l.countP p = (l.eraseIdx i).countP p + if p a then 1 else 0 := by
  rw [← (cons_eraseIdx_perm h).countP_eq p, List.countP_cons]

end OmniPaxosJepsen.Flight
