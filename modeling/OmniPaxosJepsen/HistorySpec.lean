import Mathlib.Data.List.Perm.Basic
import Mathlib.Order.WithBot
import OmniPaxosJepsen.KvModel

namespace OmniPaxosJepsen.HistorySpec

open Json KvSpec Node Checker KvModel Linearization Runs

/-- How an operation of a history ends: with an answer, with an `info` entry, or with
nothing recorded. -/
inductive Ending where
  | answered (time : U128) (ok : Bool) (value : Option Value)
  | indeterminate
  | unanswered
  deriving DecidableEq

structure Operation where
  key : String
  input : Option KVOp
  invoke : U128
  ending : Ending
  deriving DecidableEq

def Operation.invoked (a : Operation) : WithTop U128 := a.invoke

/-- An operation without an answer may take effect at any time after its invocation. -/
def Operation.completed (a : Operation) : WithTop U128 :=
  match a.ending with
  | .answered time _ _ => time
  | _ => ⊤

/-- The recorded answer is the reply of the store. A read records the value it found,
or none; writes and compare-and-swaps record whether they took place. -/
def Ending.fits (ending : Ending) (op : KVOp) (reply : Reply Value) : Bool :=
  match ending, op with
  | .answered _ _ value, .read _ => reply.value? = value
  | .answered _ ok _, .write _ _ => ok
  | .answered _ ok _, .cas _ _ _ => ok = decide (reply = .swapped)
  | _, _ => true

def takeEffect (s : Store) (a : Operation) : Option Store :=
  a.input.bind (fun op =>
    if a.ending.fits op (apply s op).2 then some (apply s op).1 else none)

/-- There is a total order of all answered operations and some of the others that
respects real time and in which every operation has its recorded outcome. -/
def Linearizable (ops : List Operation) : Prop :=
  ∃ placed left, (placed ++ left).Perm ops ∧ (∀ a ∈ left, ∀ time ok value,
    a.ending ≠ .answered time ok value) ∧ RealTime Operation.invoked Operation.completed placed ∧
    Legal takeEffect emptyStore placed

def Operation.strict (a : Operation) : Operation :=
  match a.ending with
  | .indeterminate => { a with ending := .answered u128Max true none }
  | _ => a

/-- The strict reading of a history: indeterminate operations succeeded, and what was
never answered did not happen. -/
def strictly (ops : List Operation) : List Operation :=
  (ops.filter (fun a => a.ending ≠ .unanswered)).map Operation.strict

theorem strict_invoked (a : Operation) : a.strict.invoked = a.invoked := by
  rw [Operation.strict]
  split <;> rfl

theorem strict_completed_le (a : Operation) : a.strict.completed ≤ a.completed := by
  rw [Operation.strict]
  split
  · next h => simp [Operation.completed, h]
  · exact le_rfl

theorem takeEffect_of_strict {s t : Store} {a : Operation} (h : takeEffect s a.strict = some t) :
    takeEffect s a = some t := by
  rw [Operation.strict] at h
  split at h
  · next hend =>
    obtain ⟨op, hop, heff⟩ := Option.bind_eq_some_iff.mp h
    obtain ⟨_, heq⟩ := Option.ite_none_right_eq_some.mp heff
    cases heq
    simp [takeEffect, show a.input = some op from hop, hend, Ending.fits]
  · exact h

/-- The strict reading is one of the ways in which a history can be linearized. -/
theorem linearizable_of_strictly {ops : List Operation}
    (h : HasOrder Operation.invoked Operation.completed takeEffect emptyStore (strictly ops)) :
    Linearizable ops := by
  obtain ⟨l', hperm, hrt, hlegal⟩ := h
  obtain ⟨l, rfl, hl⟩ : ∃ l : List Operation, l' = l.map Operation.strict ∧
      l.Perm (ops.filter (fun a => a.ending ≠ .unanswered)) := by
    have h := congrFun (congrFun (List.eq_map_comp_perm Operation.strict) l')
      (ops.filter (fun a => a.ending ≠ .unanswered))
    exact h.mpr hperm
  refine ⟨l, ops.filter (fun a => !decide (a.ending ≠ .unanswered)), ?_, ?_, ?_, ?_⟩
  · exact (hl.append_right _).trans (List.filter_append_perm _ ops)
  · intro a ha time ok value hend
    simp [hend] at ha
  · refine (List.pairwise_map.mp hrt).imp (fun {a b} hab hlt => hab ?_)
    rw [strict_invoked]
    exact (strict_completed_le b).trans_lt hlt
  · exact hlegal.of_map Operation.strict (fun a _ s t hstep => takeEffect_of_strict hstep)

def invokes (e : HistoryEntry) : Bool := e.eventType = "invoke"

def completes (e : HistoryEntry) : Bool := e.eventType ∈ ["ok", "fail", "info"]

def completionOf (history : List HistoryEntry) (id : Nat) : Option HistoryEntry :=
  history.find? (fun e => completes e && e.id = id)

def ending (completion : Option HistoryEntry) : Ending :=
  match completion with
  | none => .unanswered
  | some e =>
    if e.eventType = "info" then .indeterminate
    else .answered e.timeNs (e.eventType = "ok") e.value

def operation (history : List HistoryEntry) (i : HistoryEntry) : Operation :=
  { key := i.key, input := input i.op i.key i.value i.casFrom i.casTo, invoke := i.timeNs,
    ending := ending (completionOf history i.id) }

def operations (history : List HistoryEntry) : List Operation :=
  (history.filter invokes).map (operation history)

/-- Operation ids are unique, an operation completes after it was invoked and not at an
earlier time, writes have a value and compare-and-swaps both of theirs, and no write
is recorded as failed. -/
structure WellFormed (history : List HistoryEntry) : Prop where
  unique : ((history.filter invokes).map HistoryEntry.id).Nodup
  invoked : ∀ n < history.length, ∀ e ∈ history[n]?, completes e →
    ∃ i ∈ history.take n, i.id = e.id ∧ invokes i
  time : ∀ i ∈ history, ∀ e ∈ history, i.id = e.id → invokes i → completes e → i.timeNs ≤ e.timeNs
  write : ∀ i ∈ history, invokes i → i.op = "write" → i.value.isSome ∧
    ∀ e ∈ history, e.id = i.id → e.eventType ≠ "fail"
  cas : ∀ i ∈ history, invokes i → i.op = "cas" → i.casFrom.isSome ∧ i.casTo.isSome

set_option synthInstance.maxSize 512 in
instance (history : List HistoryEntry) : Decidable (WellFormed history) :=
  decidable_of_iff
    (((history.filter invokes).map HistoryEntry.id).Nodup ∧
      (∀ n < history.length, ∀ e ∈ history[n]?, completes e →
        ∃ i ∈ history.take n, i.id = e.id ∧ invokes i) ∧
      (∀ i ∈ history, ∀ e ∈ history, i.id = e.id → invokes i → completes e →
        i.timeNs ≤ e.timeNs) ∧
      (∀ i ∈ history, invokes i → i.op = "write" → i.value.isSome ∧
        ∀ e ∈ history, e.id = i.id → e.eventType ≠ "fail") ∧
      (∀ i ∈ history, invokes i → i.op = "cas" → i.casFrom.isSome ∧ i.casTo.isSome))
    ⟨fun ⟨h₁, h₂, h₃, h₄, h₅⟩ => ⟨h₁, h₂, h₃, h₄, h₅⟩, fun h => ⟨h.1, h.2, h.3, h.4, h.5⟩⟩

end OmniPaxosJepsen.HistorySpec
