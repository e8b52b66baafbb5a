import Mathlib.Data.List.Basic
import Mathlib.Logic.Function.Basic

namespace OmniPaxosJepsen.Updates

variable {K V : Type} [DecidableEq K]

/-- An update of a keyed store: a key gets a value or loses it. -/
abbrev Update (K V : Type) := K × Option V

def apply (s : K → Option V) (u : Update K V) : K → Option V := Function.update s u.1 u.2

def replay (s : K → Option V) (us : List (Update K V)) : K → Option V := us.foldl apply s

def updatesOf (k : K) (us : List (Update K V)) : List (Option V) :=
  us.filterMap (fun u => if u.1 = k then some u.2 else none)

@[simp] theorem updatesOf_nil (k : K) : updatesOf k ([] : List (Update K V)) = [] := rfl

theorem updatesOf_append (k : K) (us vs : List (Update K V)) :
    updatesOf k (us ++ vs) = updatesOf k us ++ updatesOf k vs := List.filterMap_append

theorem apply_self (s : K → Option V) (k : K) (v : Option V) : apply s (k, v) k = v := by
  simp [apply]

theorem apply_ne (s : K → Option V) {k k' : K} (h : k ≠ k') (v : Option V) :
    apply s (k', v) k = s k := by
  simp [apply, h]

theorem replay_append (s : K → Option V) (us vs : List (Update K V)) :
    replay s (us ++ vs) = replay (replay s us) vs := List.foldl_append

/-- A patch says of each key whether it is left alone, and if not, what it holds. -/
abbrev Patch (K V : Type) := K → Option (Option V)

def Patch.apply (p : Patch K V) (s : K → Option V) : K → Option V := fun k => (p k).getD (s k)

def patch (us : List (Update K V)) : Patch K V := fun k => (updatesOf k us).getLast?

theorem replay_eq_patch (s : K → Option V) (us : List (Update K V)) :
    replay s us = (patch us).apply s := by
  induction us generalizing s with
  | nil => rfl
  | cons u us ih =>
    obtain ⟨k', v⟩ := u
    have hreplay : replay s ((k', v) :: us) = replay (apply s (k', v)) us := rfl
    rw [hreplay, ih]
    funext k
    by_cases hk : k' = k
    · subst hk
      have hcons : updatesOf k' ((k', v) :: us) = v :: updatesOf k' us := by simp [updatesOf]
      simp only [Patch.apply, patch, hcons, apply_self, List.getLast?_cons, Option.getD_some]
    · have hcons : updatesOf k ((k', v) :: us) = updatesOf k us := by simp [updatesOf, hk]
      simp only [Patch.apply, patch, hcons, apply_ne s (Ne.symm hk)]

end OmniPaxosJepsen.Updates
