import OmniPaxosJepsen.Checker
import OmniPaxosJepsen.Locality

namespace OmniPaxosJepsen.KvModel

open Json KvSpec Node Checker Linearization Locality Runs

/-- The model as a step function: a step is legal when the response matches. -/
def accept (model : KVModel) (op : LinearOp) : Option KVModel :=
  (model.apply op).bind (fun r => if r.2 then some r.1 else none)

theorem accept_eq_some {model model' : KVModel} {op : LinearOp} :
    accept model op = some model' ↔ model.apply op = some (model', true) := by
  simp only [accept, Option.bind_eq_some_iff, Option.ite_none_right_eq_some, Option.some.injEq]
  constructor
  · rintro ⟨⟨m, ok⟩, h, rfl, rfl⟩
    exact h
  · intro h
    exact ⟨_, h, rfl, rfl⟩

def Safe (op : LinearOp) : Prop :=
  (op.opType = "write" → op.value.isSome) ∧
    (op.opType = "cas" → op.casFrom.isSome ∧ op.casTo.isSome)

theorem apply_isSome {op : LinearOp} (h : Safe op) (model : KVModel) :
    (model.apply op).isSome := by
  obtain ⟨hwrite, hcas⟩ := h
  unfold KVModel.apply
  split
  · next htype =>
    obtain ⟨v, hv⟩ := Option.isSome_iff_exists.mp (hwrite htype)
    simp [hv]
  · split <;> rfl
  · next htype =>
    obtain ⟨hexp, hrep⟩ := hcas htype
    obtain ⟨e, he⟩ := Option.isSome_iff_exists.mp hexp
    obtain ⟨r, hr⟩ := Option.isSome_iff_exists.mp hrep
    simp only [he, hr, Option.bind_eq_bind, Option.bind_some]
    repeat' split
    all_goals rfl
  · rfl

def input (opType key : String) (value casFrom casTo : Option Value) : Option KVOp :=
  match opType with
  | "write" => value.map (.write key)
  | "read" => some (.read key)
  | "cas" => casFrom.bind (fun expected => casTo.map (.cas key expected))
  | _ => none

theorem input_key {opType key : String} {value casFrom casTo : Option Value} {op : KVOp}
    (h : input opType key value casFrom casTo = some op) : op.key = key := by
  unfold input at h
  split at h
  · obtain ⟨v, _, rfl⟩ := Option.map_eq_some_iff.mp h
    rfl
  · cases h
    rfl
  · obtain ⟨e, _, h⟩ := Option.bind_eq_some_iff.mp h
    obtain ⟨r, _, rfl⟩ := Option.map_eq_some_iff.mp h
    rfl
  · cases h

def opInput (op : LinearOp) : Option KVOp :=
  input op.opType op.key op.value op.casFrom op.casTo

/-- The recorded outcome is the reply of the store: a read records the value it found,
or none, and a compare-and-swap whether it took place. -/
def agrees (result : Option Value) (casOk : Bool) (op : KVOp) (reply : Reply Value) : Bool :=
  match op with
  | .read _ => reply.value? = result
  | .write _ _ => true
  | .cas _ _ _ => casOk = decide (reply = .swapped)

/-- The model follows the sequential specification, and keeps its state when the
outcome is another one. -/
theorem apply_eq {op : LinearOp} {i : KVOp} (h : opInput op = some i) (model : KVModel) :
    model.apply op = some
      (if agrees op.result op.casOk i (apply model.data i).2 then
        (⟨(apply model.data i).1⟩, true)
      else (model, false)) := by
  obtain ⟨data⟩ := model
  obtain ⟨id, opType, key, value, result, casFrom, casTo, casOk, invokeTime, completeTime⟩ := op
  have hsame : Function.update data key (data key) = data := Function.update_eq_self _ _
  unfold opInput input at h
  unfold KVModel.apply
  dsimp only at h ⊢
  split at h
  · obtain ⟨v, rfl, rfl⟩ := Option.map_eq_some_iff.mp h
    simp [agrees, apply, applyCell, Op.key]
  · cases h
    cases hv : data key with
    | none =>
      rw [hv] at hsame
      cases result <;> simp [agrees, apply, applyCell, Op.key, hv, hsame, Reply.value?]
    | some v =>
      rw [hv] at hsame
      cases result with
      | none => simp [agrees, apply, applyCell, Op.key, hv, hsame, Reply.value?]
      | some e =>
        by_cases he : v = e <;> simp [agrees, apply, applyCell, Op.key, hv, hsame, he, Reply.value?]
  · obtain ⟨expected, rfl, h⟩ := Option.bind_eq_some_iff.mp h
    obtain ⟨replacement, rfl, rfl⟩ := Option.map_eq_some_iff.mp h
    cases hv : data key with
    | none =>
      rw [hv] at hsame
      cases casOk <;> simp [agrees, apply, applyCell, Op.key, hv, hsame]
    | some v =>
      rw [hv] at hsame
      by_cases hc : v = expected <;> cases casOk <;>
        simp [agrees, apply, applyCell, Op.key, hv, hsame, hc]
  · cases h

theorem accept_eq_none {op : LinearOp} (h : opInput op = none) (model : KVModel) :
    accept model op = none := by
  obtain ⟨id, opType, key, value, result, casFrom, casTo, casOk, invokeTime, completeTime⟩ := op
  unfold opInput input at h
  unfold accept KVModel.apply
  dsimp only at h ⊢
  split
  · have hvalue : value = none := Option.map_eq_none_iff.mp h
    rw [hvalue]
    rfl
  · cases h
  · cases casFrom with
    | none => rfl
    | some expected =>
      have hto : casTo = none := Option.map_eq_none_iff.mp h
      rw [hto]
      rfl
  · rfl

theorem accept_eq (model : KVModel) (op : LinearOp) :
    accept model op = (opInput op).bind (fun i =>
      if agrees op.result op.casOk i (apply model.data i).2 then some ⟨(apply model.data i).1⟩
      else none) := by
  cases hi : opInput op with
  | none => rw [accept_eq_none hi, Option.bind_none]
  | some i =>
    rw [accept, apply_eq hi]
    by_cases hagrees : agrees op.result op.casOk i (apply model.data i).2 <;> simp [hagrees]

def acceptCell (c : Option Value) (op : LinearOp) : Option (Option Value) :=
  (opInput op).bind (fun i =>
    if agrees op.result op.casOk i (applyCell c i).2 then some (applyCell c i).1 else none)

theorem accept_eq_shared (model : KVModel) (op : LinearOp) :
    accept model op = (shared LinearOp.key acceptCell model.data op).map KVModel.mk := by
  rw [accept_eq, shared, acceptCell]
  cases hi : opInput op with
  | none => rfl
  | some i =>
    have hkey : i.key = op.key := input_key hi
    simp only [Option.bind_some, apply, hkey]
    split <;> rfl

theorem hasOrder_accept_iff {ops : List LinearOp}
    (hwf : ∀ op ∈ ops, op.invokeTime ≤ op.completeTime) :
    HasOrder LinearOp.invokeTime LinearOp.completeTime accept KVModel.new ops ↔
      ∀ key, HasOrder LinearOp.invokeTime LinearOp.completeTime acceptCell none
        (onKey LinearOp.key key ops) := by
  have hlegal : ∀ l : List LinearOp, Legal accept KVModel.new (l.map id) ↔
      Legal (shared LinearOp.key acceptCell) emptyStore l := fun l =>
    legal_map id KVModel.mk (fun op _ s => accept_eq_shared ⟨s⟩ op) emptyStore
  simp only [List.map_id] at hlegal
  have hshared := hasOrder_shared_iff LinearOp.key acceptCell emptyStore hwf
  simp only [HasOrder, ← hlegal] at hshared ⊢
  exact hshared

theorem onKey_wf {ops : List LinearOp} (hwf : ∀ op ∈ ops, op.invokeTime ≤ op.completeTime)
    (key : String) : ∀ op ∈ onKey LinearOp.key key ops, op.invokeTime ≤ op.completeTime :=
  fun op hop => hwf op (List.mem_filter.mp hop).1

theorem hasOrder_onKey_iff {ops : List LinearOp}
    (hwf : ∀ op ∈ ops, op.invokeTime ≤ op.completeTime) (key : String) :
    HasOrder LinearOp.invokeTime LinearOp.completeTime accept KVModel.new
        (onKey LinearOp.key key ops) ↔
      HasOrder LinearOp.invokeTime LinearOp.completeTime acceptCell none
        (onKey LinearOp.key key ops) := by
  have hself :
      onKey LinearOp.key key (onKey LinearOp.key key ops) = onKey LinearOp.key key ops := by
    simp [onKey, List.filter_filter]
  rw [hasOrder_accept_iff (onKey_wf hwf key)]
  constructor
  · intro h
    rw [← hself]
    exact h key
  · intro h key'
    by_cases hk : key' = key
    · rw [hk, hself]
      exact h
    · have hnone : onKey LinearOp.key key' (onKey LinearOp.key key ops) = [] := by
        apply List.filter_eq_nil_iff.mpr
        intro op hop
        have hkey : op.key = key := by simpa using (List.mem_filter.mp hop).2
        simpa [hkey] using Ne.symm hk
      rw [hnone]
      exact ⟨[], List.Perm.refl _, List.Pairwise.nil, legal_nil _ _⟩

theorem hasOrder_of_keys {ops : List LinearOp}
    (hwf : ∀ op ∈ ops, op.invokeTime ≤ op.completeTime)
    (h : ∀ key, HasOrder LinearOp.invokeTime LinearOp.completeTime accept KVModel.new
      (onKey LinearOp.key key ops)) :
    HasOrder LinearOp.invokeTime LinearOp.completeTime accept KVModel.new ops :=
  (hasOrder_accept_iff hwf).mpr (fun key => (hasOrder_onKey_iff hwf key).mp (h key))

theorem HasOrder.onKey {ops : List LinearOp}
    (hwf : ∀ op ∈ ops, op.invokeTime ≤ op.completeTime)
    (h : HasOrder LinearOp.invokeTime LinearOp.completeTime accept KVModel.new ops)
    (key : String) : HasOrder LinearOp.invokeTime LinearOp.completeTime accept KVModel.new
      (onKey LinearOp.key key ops) :=
  (hasOrder_onKey_iff hwf key).mpr ((hasOrder_accept_iff hwf).mp h key)

/-- Locality of the check: the operations on all keys have an order that respects real
time and that the one shared model accepts exactly when the operations on each key,
alone and from a model of their own, have one. -/
theorem hasOrder_iff_forall_key (ops : List LinearOp)
    (hwf : ∀ op ∈ ops, op.invokeTime ≤ op.completeTime) :
    HasOrder LinearOp.invokeTime LinearOp.completeTime accept KVModel.new ops ↔
      ∀ key, HasOrder LinearOp.invokeTime LinearOp.completeTime accept KVModel.new
        (onKey LinearOp.key key ops) :=
  ⟨HasOrder.onKey hwf, hasOrder_of_keys hwf⟩

theorem hasOrder_two_keys : HasOrder LinearOp.invokeTime LinearOp.completeTime accept KVModel.new
    (onKey LinearOp.key "y" [⟨1, "write", "x", some (.u64 5), none, none, none, true, 0, 2⟩,
      ⟨2, "read", "y", none, none, none, none, true, 1, 3⟩]) := by
  refine (hasOrder_iff_forall_key _ (by decide)).mp ?_ "y"
  exact ⟨_, List.Perm.refl _, by decide, _, rfl⟩

end OmniPaxosJepsen.KvModel
