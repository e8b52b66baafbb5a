import Mathlib.Data.List.Count
import Mathlib.Data.List.Induction
import Mathlib.Data.List.Nodup
import Mathlib.Order.WithBot
import OmniPaxosJepsen.Linearization

namespace OmniPaxosJepsen.EventHistory

open Linearization Runs

variable {ε ι ο ρ σ : Type} [DecidableEq ι] [DecidableEq ρ]

/-- The position at which a call is answered; never is later than every position. -/
def completion (answer : Nat → Option Nat) (i : Nat) : WithTop Nat :=
  match answer i with
  | some j => WithTop.some j
  | none => ⊤

/-- Let the call at a position of a history take effect. When the call is answered,
the answer must name the call and carry the result that the specification gives. -/
def effect (call : ε → Option (ι × ο)) (ret : ε → Option (ι × ρ)) (spec : σ → ο → σ × ρ)
    (H : List ε) (answer : Nat → Option Nat) (s : σ) (i : Nat) : Option σ :=
  (H[i]?.bind call).bind (fun c =>
    match answer i with
    | none => some (spec s c.2).1
    | some j =>
      if H[j]?.bind ret = some (c.1, (spec s c.2).2) then some (spec s c.2).1 else none)

/-- A linearization of a history: an order of calls, each at most once, in which every
answer of the history is the result of its call, and which respects real time. Calls
without an answer may be left out. -/
structure Linearizes (call : ε → Option (ι × ο)) (ret : ε → Option (ι × ρ))
    (spec : σ → ο → σ × ρ) (s : σ) (H : List ε) (order : List Nat) (answer : Nat → Option Nat) :
    Prop where
  nodup : order.Nodup
  legal : Legal (effect call ret spec H answer) s order
  realTime : RealTime (WithTop.some : Nat → WithTop Nat) (completion answer) order
  answered : ∀ j e, H[j]? = some e → (ret e).isSome → ∃ i ∈ order, answer i = some j
  after : ∀ i j, answer i = some j → i < j
  once : ∀ i i' j, answer i = some j → answer i' = some j → i = i'

def Linearizable (call : ε → Option (ι × ο)) (ret : ε → Option (ι × ρ)) (spec : σ → ο → σ × ρ)
    (s : σ) (H : List ε) : Prop := ∃ order answer, Linearizes call ret spec s H order answer

omit [DecidableEq ι] [DecidableEq ρ] in
theorem filterMap_eq_range {β : Type} (f : ε → Option β) (H : List ε) :
    H.filterMap f = (List.range H.length).filterMap (fun i => H[i]?.bind f) := by
  induction H using List.reverseRecOn with
  | nil => rfl
  | append_singleton H e ih =>
    have hold : (List.range H.length).filterMap (fun i => (H ++ [e])[i]?.bind f) =
        (List.range H.length).filterMap (fun i => H[i]?.bind f) := by
      apply List.filterMap_congr
      intro i hi
      rw [List.getElem?_append_left (List.mem_range.mp hi)]
    cases hf : f e <;> simp [List.range_succ, ih, hold, hf]

/-- If a value occurs more often in a history than among the chosen positions, one of
its positions has not been chosen. -/
theorem exists_unchosen {β : Type} [DecidableEq β] {f : Nat → Option β} {n : Nat}
    {order : List Nat} {l : List β} (hmap : order.map f = l.map some) {b : β}
    (hcount : l.count b < ((List.range n).filterMap f).count b) :
    ∃ i, i < n ∧ i ∉ order ∧ f i = some b := by
  by_contra hnone
  have hsub : (List.range n).filter (fun i => f i = some b) ⊆
      order.filter (fun i => f i = some b) := by
    intro i hi
    obtain ⟨hrange, hf⟩ := List.mem_filter.mp hi
    refine List.mem_filter.mpr ⟨?_, hf⟩
    by_contra hmem
    exact hnone ⟨i, List.mem_range.mp hrange, hmem, by simpa using hf⟩
  have hle := (List.subperm_of_subset (List.nodup_range.filter _) hsub).length_le
  have hleft : ((List.range n).filterMap f).count b =
      ((List.range n).filter (fun i => f i = some b)).length := by
    rw [← List.countP_eq_length_filter, List.count, List.countP_filterMap]
    apply List.countP_congr
    intro i _
    cases f i <;> simp
  have hright : (order.filter (fun i => f i = some b)).length = l.count b := by
    have hmapped : (order.map f).count (some b) = (l.map some).count (some b) := by rw [hmap]
    rw [List.count_map_of_injective l some (Option.some_injective β)] at hmapped
    rw [← hmapped, List.count, List.countP_map, ← List.countP_eq_length_filter]
    exact List.countP_congr (fun i _ => by simp)
  omega

end OmniPaxosJepsen.EventHistory
