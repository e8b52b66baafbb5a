import Mathlib.Data.List.Induction
import OmniPaxosJepsen.HistorySpec

namespace OmniPaxosJepsen.Pairing

open Checker HistorySpec

def linearOp (i e : HistoryEntry) : LinearOp :=
  { id := e.id
    opType := i.op
    key := i.key
    value := i.value
    result := if e.eventType = "info" then none else e.value
    casFrom := i.casFrom
    casTo := i.casTo
    casOk := e.eventType ≠ "fail"
    invokeTime := i.timeNs
    completeTime := if e.eventType = "info" then u128Max else e.timeNs }

/-- The completed operations of a history, in the order of their invocations. -/
def recorded (history : List HistoryEntry) : List LinearOp :=
  (history.filter invokes).filterMap (fun i => (completionOf history i.id).map (linearOp i))

theorem completionOf_some {history : List HistoryEntry} {id : Nat} {e : HistoryEntry}
    (h : completionOf history id = some e) : e ∈ history ∧ completes e ∧ e.id = id := by
  have hprop := List.find?_some h
  simp only [Bool.and_eq_true, decide_eq_true_eq] at hprop
  exact ⟨List.mem_of_find?_eq_some h, hprop⟩

theorem mem_recorded {history : List HistoryEntry} {op : LinearOp}
    (h : op ∈ recorded history) : ∃ i ∈ history, ∃ e ∈ history, invokes i ∧ completes e ∧
      e.id = i.id ∧ op = linearOp i e := by
  obtain ⟨i, hi, hop⟩ := List.mem_filterMap.mp h
  obtain ⟨hi, hinv⟩ := List.mem_filter.mp hi
  obtain ⟨e, he, rfl⟩ := Option.map_eq_some_iff.mp hop
  obtain ⟨hmem, hc, hid⟩ := completionOf_some he
  exact ⟨i, hi, e, hmem, hinv, hc, hid, rfl⟩

theorem recorded_ids_sublist (history : List HistoryEntry) :
    ((recorded history).map LinearOp.id).Sublist
      ((history.filter invokes).map HistoryEntry.id) := by
  unfold recorded
  induction history.filter invokes with
  | nil => exact List.Sublist.refl _
  | cons i l ih =>
    cases he : completionOf history i.id with
    | none => simpa [he] using ih.cons i.id
    | some e => simpa [he, linearOp, (completionOf_some he).2.2] using ih

theorem add_invoke (p : Checker.Pairing) {e : HistoryEntry} (h : invokes e = true) :
    p.add e = { p with invocations := Function.update p.invocations e.id (some e) } := by
  have htype : e.eventType = "invoke" := by simpa [invokes] using h
  simp [Checker.Pairing.add, htype]

theorem add_completion (p : Checker.Pairing) {e : HistoryEntry} (h : completes e = true) :
    p.add e =
      match p.invocations e.id with
      | none => p
      | some i => ⟨p.ops ++ [linearOp i e], Function.update p.invocations e.id none⟩ := by
  have htype : e.eventType = "ok" ∨ e.eventType = "fail" ∨ e.eventType = "info" := by
    simpa [completes] using h
  cases hi : p.invocations e.id <;> obtain htype | htype | htype := htype <;>
    simp [Checker.Pairing.add, Checker.Pairing.close, linearOp, htype, hi]

theorem add_other (p : Checker.Pairing) {e : HistoryEntry} (hi : invokes e = false)
    (hc : completes e = false) : p.add e = p := by
  simp only [invokes, completes, List.mem_cons, List.not_mem_nil, or_false, not_or,
    decide_eq_false_iff_not] at hi hc
  unfold Checker.Pairing.add
  split <;> simp_all

theorem completes_of_invokes {e : HistoryEntry} (h : invokes e = true) : completes e = false := by
  have htype : e.eventType = "invoke" := by simpa [invokes] using h
  simp [completes, htype]

theorem invokes_of_completes {e : HistoryEntry} (h : completes e = true) : invokes e = false := by
  by_contra hne
  rw [completes_of_invokes (by simpa using hne)] at h
  cases h

theorem completionOf_append (done : List HistoryEntry) (e : HistoryEntry) (id : Nat) :
    completionOf (done ++ [e]) id =
      (completionOf done id).or (if completes e ∧ e.id = id then some e else none) := by
  simp only [completionOf, List.find?_append, List.find?_cons, List.find?_nil]
  congr 1
  by_cases hc : completes e <;> by_cases hid : e.id = id <;> simp [hc, hid]

structure Paired (done : List HistoryEntry) (p : Checker.Pairing) : Prop where
  open_ : ∀ id, p.invocations id =
    if (completionOf done id).isSome then none else (done.filter invokes).find? (fun i => i.id = id)
  ops : p.ops.Perm (recorded done)

def InOrder (done : List HistoryEntry) : Prop :=
  ((done.filter invokes).map HistoryEntry.id).Nodup ∧
    done.Pairwise (fun e i => completes e → invokes i → e.id ≠ i.id)

theorem InOrder.init {done : List HistoryEntry} {e : HistoryEntry} (h : InOrder (done ++ [e])) :
    InOrder done := by
  obtain ⟨hunique, hbefore⟩ := h
  refine ⟨?_, (List.pairwise_append.mp hbefore).1⟩
  rw [List.filter_append, List.map_append] at hunique
  exact (List.nodup_append.mp hunique).1

theorem InOrder.last {done : List HistoryEntry} {e : HistoryEntry} (h : InOrder (done ++ [e]))
    (hi : invokes e = true) : completionOf done e.id = none := by
  rw [completionOf, List.find?_eq_none]
  intro c hmem hc
  simp only [Bool.and_eq_true, decide_eq_true_eq] at hc
  exact (List.pairwise_append.mp h.2).2.2 c hmem e (by simp) hc.1 hi hc.2

theorem pairwise_of_nodup {history : List HistoryEntry}
    (h : ((history.filter invokes).map HistoryEntry.id).Nodup) :
    history.Pairwise (fun i j => invokes i → invokes j → i.id ≠ j.id) := by
  rwa [List.Nodup, List.pairwise_map, List.pairwise_filter] at h

theorem inOrder_of_wellFormed {history : List HistoryEntry} (h : WellFormed history) :
    InOrder history := by
  refine ⟨h.unique, List.pairwise_iff_getElem.mpr (fun n k hn hk hlt hc hinv hid => ?_)⟩
  -- The completion has an invocation before it, so there is none after it.
  obtain ⟨i, hi, hiid, hiinv⟩ := h.invoked n hn history[n] (List.getElem?_eq_getElem hn) hc
  obtain ⟨m, hm, rfl⟩ := List.mem_take_iff_getElem.mp hi
  have hmn : m < n := (Nat.lt_min.mp hm).1
  exact List.pairwise_iff_getElem.mp (pairwise_of_nodup h.unique) m k (hmn.trans hn) hk
    (hmn.trans hlt) hiinv hinv (hiid.trans hid)

theorem Paired.invoke {done : List HistoryEntry} {p : Checker.Pairing} {e : HistoryEntry}
    (hord : InOrder (done ++ [e])) (hp : Paired done p) (h : invokes e = true) :
    Paired (done ++ [e]) (p.add e) := by
  have hnc := completes_of_invokes h
  have hcomp : ∀ id, completionOf (done ++ [e]) id = completionOf done id := fun id => by
    simp [completionOf_append, hnc]
  have hfilter : (done ++ [e]).filter invokes = done.filter invokes ++ [e] := by simp [h]
  have hfresh : ∀ i ∈ done.filter invokes, i.id ≠ e.id := by
    have hunique := hord.1
    rw [hfilter, List.map_append] at hunique
    intro i hi
    exact (List.nodup_append.mp hunique).2.2 i.id (List.mem_map_of_mem hi) e.id (by simp)
  have hnone : completionOf done e.id = none := hord.last h
  rw [add_invoke p h]
  refine ⟨fun id => ?_, ?_⟩
  · rw [hcomp, hfilter]
    by_cases hid : id = e.id
    · subst hid
      have hfind : (done.filter invokes).find? (fun i => i.id = e.id) = none :=
        List.find?_eq_none.mpr (fun i hi => by simpa using hfresh i hi)
      simp [hnone, List.find?_append, hfind]
    · simp [Function.update_of_ne hid, hp.open_, List.find?_append, Ne.symm hid]
  · refine hp.ops.trans (List.Perm.of_eq ?_)
    unfold recorded
    rw [hfilter, List.filterMap_append]
    simp [hcomp, hnone]

theorem filterMap_close {l : List HistoryEntry} (hl : (l.map HistoryEntry.id).Nodup)
    {f g : HistoryEntry → Option LinearOp} {i : HistoryEntry} {x : LinearOp} (hi : i ∈ l)
    (hf : f i = none) (hg : g i = some x) (hsame : ∀ j ∈ l, j.id ≠ i.id → g j = f j) :
    (l.filterMap f ++ [x]).Perm (l.filterMap g) := by
  obtain ⟨l₁, l₂, rfl⟩ := List.append_of_mem hi
  rw [List.map_append, List.map_cons] at hl
  obtain ⟨_, h₂, h₁⟩ := List.nodup_append.mp hl
  have hleft : l₁.filterMap g = l₁.filterMap f := List.filterMap_congr (fun j hj =>
    hsame j (by simp [hj]) (h₁ j.id (List.mem_map_of_mem hj) i.id (by simp)))
  have hright : l₂.filterMap g = l₂.filterMap f := List.filterMap_congr (fun j hj =>
    hsame j (by simp [hj]) (fun he => (List.nodup_cons.mp h₂).1
      (he ▸ List.mem_map_of_mem hj)))
  rw [List.filterMap_append, List.filterMap_append, List.filterMap_cons_none hf,
    List.filterMap_cons_some hg, hleft, hright, List.append_assoc]
  exact (List.perm_append_singleton x _).append_left _

theorem Paired.complete {done : List HistoryEntry} {p : Checker.Pairing} {e : HistoryEntry}
    (hord : InOrder (done ++ [e])) (hp : Paired done p) (h : completes e = true) :
    Paired (done ++ [e]) (p.add e) := by
  have hfilter : (done ++ [e]).filter invokes = done.filter invokes := by
    simp [invokes_of_completes h]
  have hother : ∀ id, id ≠ e.id → completionOf (done ++ [e]) id = completionOf done id :=
    fun id hid => by simp [completionOf_append, Ne.symm hid]
  rw [add_completion p h, hp.open_]
  cases hc : completionOf done e.id with
  | some c =>
    -- The operation was completed before: the entry is ignored.
    have hcomp : ∀ id, completionOf (done ++ [e]) id = completionOf done id := by
      intro id
      by_cases hid : id = e.id
      · simp [completionOf_append, hid, hc]
      · exact hother id hid
    simp only [Option.isSome_some, ↓reduceIte]
    refine ⟨fun id => ?_, ?_⟩
    · rw [hcomp, hfilter]
      exact hp.open_ id
    · simpa only [recorded, hfilter, hcomp] using hp.ops
  | none =>
    have hself : completionOf (done ++ [e]) e.id = some e := by
      simp [completionOf_append, hc, h]
    simp only [Option.isSome_none, Bool.false_eq_true, ↓reduceIte]
    cases hi : (done.filter invokes).find? (fun i => i.id = e.id) with
    | none =>
      -- Nothing was invoked under this id: the entry is ignored.
      refine ⟨fun id => ?_, ?_⟩
      · rw [hp.open_, hfilter]
        by_cases hk : id = e.id
        · subst hk
          simp [hself, hi]
        · rw [hother id hk]
      · have hsame : recorded (done ++ [e]) = recorded done := by
          unfold recorded
          rw [hfilter]
          refine List.filterMap_congr (fun i hmem => ?_)
          have hne : i.id ≠ e.id := by simpa using List.find?_eq_none.mp hi i hmem
          rw [hother i.id hne]
        rw [hsame]
        exact hp.ops
    | some i =>
      have hid : i.id = e.id := by simpa using List.find?_some hi
      refine ⟨fun id => ?_, ?_⟩
      · rw [hfilter]
        by_cases hk : id = e.id
        · subst hk
          simp [hself]
        · simp only [Function.update_of_ne hk, hother id hk]
          exact hp.open_ id
      · apply (hp.ops.append_right _).trans
        unfold recorded
        rw [hfilter]
        refine filterMap_close hord.init.1 (List.mem_of_find?_eq_some hi) ?_ ?_ (fun k _ hk => ?_)
        · simp [hid, hc]
        · simp [hid, hself]
        · rw [hother k.id (hid ▸ hk)]

theorem Paired.add {done : List HistoryEntry} {p : Checker.Pairing} {e : HistoryEntry}
    (hord : InOrder (done ++ [e])) (hp : Paired done p) : Paired (done ++ [e]) (p.add e) := by
  cases hi : invokes e with
  | true => exact hp.invoke hord hi
  | false =>
    cases hc : completes e with
    | true => exact hp.complete hord hc
    | false =>
      have hcomp : ∀ id, completionOf (done ++ [e]) id = completionOf done id := fun id => by
        simp [completionOf_append, hc]
      have hfilter : (done ++ [e]).filter invokes = done.filter invokes := by simp [hi]
      rw [add_other p hi hc]
      refine ⟨fun id => ?_, ?_⟩
      · rw [hcomp, hfilter]
        exact hp.open_ id
      · simpa only [recorded, hfilter, hcomp] using hp.ops

theorem paired_foldl {history : List HistoryEntry} (h : InOrder history) :
    Paired history (history.foldl Checker.Pairing.add ⟨[], fun _ => none⟩) := by
  induction history using List.reverseRecOn with
  | nil => exact ⟨fun _ => rfl, List.Perm.refl _⟩
  | append_singleton done e ih =>
    rw [List.foldl_append]
    exact (ih h.init).add h

/-- Every invocation is paired with its first completion. -/
theorem pairUp_perm {history : List HistoryEntry} (h : InOrder history) :
    (pairUp history).Perm (recorded history) := (paired_foldl h).ops

end OmniPaxosJepsen.Pairing
