import OmniPaxosJepsen.Verdict

namespace OmniPaxosJepsen.CheckerResult

open Json KvSpec Node Checker TryLinearize KvModel HistorySpec Pairing Verdict Linearization
  Locality Runs

def toOperation (op : LinearOp) : Operation :=
  { key := op.key, input := opInput op, invoke := op.invokeTime,
    ending := .answered op.completeTime op.casOk op.result }

theorem opType_of_input {op : LinearOp} {key : String} {value : Value}
    (h : opInput op = some (.write key value)) : op.opType = "write" := by
  unfold opInput input at h
  split at h
  · assumption
  · cases h
  · obtain ⟨e, _, h⟩ := Option.bind_eq_some_iff.mp h
    obtain ⟨r, _, h⟩ := Option.map_eq_some_iff.mp h
    cases h
  · cases h

theorem takeEffect_toOperation {op : LinearOp} (hwrite : op.opType = "write" → op.casOk = true)
    (model : KVModel) :
    takeEffect model.data (toOperation op) = (accept model op).map KVModel.data := by
  rw [accept_eq]
  cases hi : opInput op with
  | none => simp [takeEffect, toOperation, hi]
  | some i =>
    have hfits : (toOperation op).ending.fits i (apply model.data i).2 =
        agrees op.result op.casOk i (apply model.data i).2 := by
      cases i with
      | write key value => exact hwrite (opType_of_input hi)
      | read key => rfl
      | cas key expected replacement => rfl
    simp only [takeEffect, show (toOperation op).input = some i from hi, Option.bind_some, hfits]
    split <;> rfl

/-- What the loop over a history pairs up is its strict reading. -/
theorem map_recorded (history : List HistoryEntry) :
    (recorded history).map toOperation = strictly (operations history) := by
  unfold recorded strictly operations
  induction history.filter invokes with
  | nil => rfl
  | cons i l ih =>
    cases he : completionOf history i.id with
    | none =>
      have hend : (operation history i).ending = .unanswered := by simp [operation, ending, he]
      simpa [he, hend] using ih
    | some e =>
      have hc := (completionOf_some he).2.1
      simp only [completes, List.mem_cons, List.not_mem_nil, or_false, decide_eq_true_eq] at hc
      have hend : (operation history i).ending ≠ .unanswered := by
        simp only [operation, ending, he]
        split <;> simp
      have hstrict : (operation history i).strict = toOperation (linearOp i e) := by
        obtain htype | htype | htype := hc <;>
          simp [Operation.strict, operation, ending, he, toOperation, linearOp, opInput, htype]
      simpa [he, hend, hstrict] using ih

theorem onKey_strictly (history : List HistoryEntry) (key : String) :
    onKey Operation.key key (strictly (operations history)) =
      (onKey LinearOp.key key (recorded history)).map toOperation := by
  rw [← map_recorded, onKey, onKey, List.filter_map]
  rfl

theorem strict_beginning_iff {history : List HistoryEntry} (h : WellFormed history) (n : Nat)
    {ops : List LinearOp} (hops : ∀ op ∈ ops, op ∈ recorded history) :
    HasBeginning Operation.invoked Operation.completed takeEffect n emptyStore
        (ops.map toOperation) ↔
      HasBeginning LinearOp.invokeTime LinearOp.completeTime accept n KVModel.new ops :=
  hasBeginning_map toOperation KVModel.data (s := KVModel.new) (fun _ _ _ _ => WithTop.coe_lt_coe)
    (fun a ha model => takeEffect_toOperation (recorded_wf h a (hops a ha)).2.2 model)

/-- A history is accepted exactly when, for every key, its strict reading has a legal
order or a legal beginning of one with 101 operations. -/
theorem accepted_iff (iter : IterOrder) {history : List HistoryEntry} (h : WellFormed history) :
    checkLinearizability iter history = some (.ok ()) ↔
      ∀ key, HasBeginning Operation.invoked Operation.completed takeEffect 101 emptyStore
        (onKey Operation.key key (strictly (operations history))) := by
  rw [checkLinearizability_iff iter h]
  apply forall_congr'
  intro key
  rw [onKey_strictly, strict_beginning_iff h 101 onKey_recorded]

theorem linearizable_of_keys {history : List HistoryEntry} (h : WellFormed history)
    (hkeys : ∀ key, HasOrder LinearOp.invokeTime LinearOp.completeTime accept KVModel.new
      (onKey LinearOp.key key (recorded history))) : Linearizable (operations history) := by
  have hall : HasOrder LinearOp.invokeTime LinearOp.completeTime accept KVModel.new
      (recorded history) := hasOrder_of_keys (fun op hop => (recorded_wf h op hop).2.1) hkeys
  apply linearizable_of_strictly
  rw [← map_recorded, hasOrder_iff_hasBeginning, strict_beginning_iff h _ (fun op hop => hop),
    List.length_map]
  exact hasOrder_iff_hasBeginning.mp hall

theorem accepted_of_one_key {iter : IterOrder} {history : List HistoryEntry}
    (h : WellFormed history) (key : String)
    (hkey : ∀ i ∈ history, invokes i → i.key = key)
    (hsearch : tryLinearize (recorded history) KVModel.new 0 = some true) :
    checkLinearizability iter history = some (.ok ()) := by
  have hall : ∀ op ∈ recorded history, op.key = key := by
    intro op hop
    obtain ⟨i, hi, e, _, hinv, _, _, rfl⟩ := mem_recorded hop
    exact hkey i hi hinv
  apply (checkLinearizability_iff_search iter h).mpr
  intro key'
  by_cases hk : key' = key
  · have hself : onKey LinearOp.key key' (recorded history) = recorded history :=
      List.filter_eq_self.mpr (fun op hop => by simp [hall op hop, hk])
    rw [hself, hsearch]
  · have hnone : onKey LinearOp.key key' (recorded history) = [] :=
      List.filter_eq_nil_iff.mpr (fun op hop => by simpa [hall op hop] using Ne.symm hk)
    rw [hnone, tryLinearize_nil]

def anyOrder : IterOrder := ⟨fun l => l, fun l => List.Perm.refl l⟩

def invokeEntry (id : Nat) (op : String) (value : Option Value) (timeNs : U128) : HistoryEntry :=
  ⟨id, "invoke", 0, op, "x", value, none, none, timeNs⟩

def completeEntry (id : Nat) (eventType op : String) (value : Option Value) (timeNs : U128) :
    HistoryEntry :=
  ⟨id, eventType, 0, op, "", value, none, none, timeNs⟩

def indeterminateRead : List HistoryEntry :=
  [invokeEntry 1 "write" (some (.u64 5)) 1, completeEntry 1 "ok" "write" none 2,
    invokeEntry 2 "read" none 3, completeEntry 2 "info" "error" none 4]

def unansweredWrite : List HistoryEntry :=
  [invokeEntry 1 "write" (some (.u64 5)) 1, invokeEntry 2 "read" none 2,
    completeEntry 2 "ok" "read" (some (.u64 5)) 3]

/-- No false violation, up to the way indeterminate and unanswered operations are read:
a linearizable history is accepted exactly when, for every key, its strict reading has a
legal order or a legal beginning of one with 101 operations. -/
theorem linearizable_accepted_iff (iter : IterOrder) (history : List HistoryEntry)
    (h : WellFormed history) :
    (Linearizable (operations history) → checkLinearizability iter history = some (.ok ())) ↔
      (Linearizable (operations history) → ∀ key,
        HasBeginning Operation.invoked Operation.completed takeEffect 101 emptyStore
          (onKey Operation.key key (strictly (operations history)))) := by
  rw [accepted_iff iter h]

/-- A write without a definite answer, and a read that overlaps it and sees it. -/
def indeterminateWrite : List HistoryEntry :=
  [invokeEntry 1 "write" (some (.u64 5)) 1, invokeEntry 2 "read" none 2,
    completeEntry 2 "ok" "read" (some (.u64 5)) 3, completeEntry 1 "info" "error" none 4]

theorem indeterminateWrite_accepted :
    checkLinearizability anyOrder indeterminateWrite = some (.ok ()) := by
  refine (linearizable_accepted_iff anyOrder _ (by decide)).mpr (fun _ key => ?_)
    ⟨operations _, [], List.Perm.of_eq (List.append_nil _), by simp, by decide,
      _, rfl⟩
  refine HasOrder.hasBeginning ⟨_, List.Perm.refl _, ?_, ?_⟩ 101
  · exact List.Pairwise.sublist List.filter_sublist (by decide)
  · by_cases hk : key = "x"
    · subst hk
      exact ⟨_, rfl⟩
    · have hall : ∀ a ∈ strictly (operations indeterminateWrite), a.key = "x" := by decide
      have hnone : onKey Operation.key key (strictly (operations indeterminateWrite)) = [] :=
        List.filter_eq_nil_iff.mpr (fun a ha => by simpa [hall a ha] using Ne.symm hk)
      rw [hnone]
      exact legal_nil _ _

/-- Both histories are linearizable, and both are reported as violations. -/
theorem false_violations :
    (WellFormed indeterminateRead ∧ Linearizable (operations indeterminateRead) ∧
      checkLinearizability anyOrder indeterminateRead ≠ some (.ok ())) ∧
    (WellFormed unansweredWrite ∧ Linearizable (operations unansweredWrite) ∧
      checkLinearizability anyOrder unansweredWrite ≠ some (.ok ())) := by
  have hwf : WellFormed indeterminateRead ∧ WellFormed unansweredWrite := by decide
  refine ⟨⟨hwf.1, ?_, fun h => ?_⟩, hwf.2, ?_, fun h => ?_⟩
  · refine ⟨(operations indeterminateRead).take 1, (operations indeterminateRead).drop 1, ?_, ?_,
      by decide, _, rfl⟩
    · exact List.Perm.of_eq (List.take_append_drop 1 _)
    · simp [operations, indeterminateRead, invokes, invokeEntry, completeEntry, operation, ending,
        completionOf, completes]
  · have hsearch := (checkLinearizability_iff_search anyOrder hwf.1).mp h "x"
    revert hsearch
    decide +kernel
  · exact ⟨operations unansweredWrite, [], List.Perm.of_eq (List.append_nil _), by simp,
      by decide, _, rfl⟩
  · have hsearch := (checkLinearizability_iff_search anyOrder hwf.2).mp h "x"
    revert hsearch
    decide +kernel

/-- A key that was never written is read over and over: every read but the last finds
nothing, and the last one a value. -/
def readHistory (n : Nat) : List HistoryEntry :=
  (List.range (n + 1)).map (fun i => invokeEntry i "read" none 0) ++
    ((List.range n).map (fun i => completeEntry i "fail" "error" none 1) ++
      [completeEntry n "ok" "read" (some (.u64 7)) 1])

theorem mem_readHistory {n : Nat} {e : HistoryEntry} (he : e ∈ readHistory n) :
    e.op ∈ ["read", "error"] ∧ e.id ≤ n ∧
      (invokes e → e = invokeEntry e.id "read" none 0) ∧ (completes e → e.timeNs = 1) := by
  simp only [readHistory, List.mem_append, List.mem_map, List.mem_range, List.mem_singleton] at he
  obtain ⟨i, hi, rfl⟩ | ⟨i, hi, rfl⟩ | rfl := he
  · simpa [invokeEntry, completes] using Nat.le_of_lt_succ hi
  · simpa [completeEntry, invokes] using hi.le
  · simp [completeEntry, invokes]

theorem wellFormed_readHistory (n : Nat) : WellFormed (readHistory n) := by
  have hmem := fun e => mem_readHistory (n := n) (e := e)
  refine ⟨?_, fun k hk e he hc => ?_, fun i hi e he _ hinv hc => ?_, fun i hi _ hw => ?_,
    fun i hi _ hw => ?_⟩
  · have hids : ((readHistory n).filter invokes).map HistoryEntry.id = List.range (n + 1) := by
      simp [readHistory, List.filter_map, List.filter_eq_self.mpr, Function.comp_def, invokes,
        invokeEntry, completeEntry]
    rw [hids]
    exact List.nodup_range
  · have hlate : n + 1 ≤ k := by
      by_contra hlt
      rw [readHistory, List.getElem?_append_left (by simpa using hlt)] at he
      obtain ⟨i, _, rfl⟩ := List.mem_map.mp (List.mem_of_getElem? he)
      cases hc
    refine ⟨invokeEntry e.id "read" none 0, ?_, rfl, rfl⟩
    rw [readHistory, List.take_append, List.take_of_length_le (by simpa using hlate)]
    refine List.mem_append_left _ (List.mem_map.mpr ⟨e.id, ?_, rfl⟩)
    exact List.mem_range.mpr (Nat.lt_succ_of_le (hmem e (List.mem_of_getElem? he)).2.1)
  · rw [(hmem i hi).2.2.1 hinv, (hmem e he).2.2.2 hc]
    exact Fin.zero_le _
  · simpa [hw] using (hmem i hi).1
  · simpa [hw] using (hmem i hi).1

theorem fits_of_reads {key : String} {s : Store} {l : List Operation}
    (hreads : ∀ a ∈ l, a.input = some (.read key)) (h : Legal takeEffect s l) :
    ∀ a ∈ l, a.ending.fits (.read key) (apply s (.read key)).2 := by
  induction l with
  | nil => simp
  | cons a l ih =>
    obtain ⟨t, ht, hlegal⟩ := legal_cons.mp h
    simp only [takeEffect, hreads a (by simp), Option.bind_some, Option.ite_none_right_eq_some,
      Option.some.injEq] at ht
    obtain ⟨hfits, rfl⟩ := ht
    have hsame : (apply s (.read key : KVOp)).1 = s := by
      have hcell : (applyCell (s key) (.read key : KVOp)).1 = s key := by
        cases hs : s key <;> simp [applyCell]
      simp [apply, Op.key, hcell]
    rw [hsame] at hlegal
    intro b hb
    obtain rfl | hb := List.mem_cons.mp hb
    · exact hfits
    · exact ih (fun c hc => hreads c (by simp [hc])) hlegal b hb

/-- No missed violation among histories with at most 101 answered or indeterminate
operations on every key. -/
theorem linearizable_of_accepted (iter : IterOrder) (history : List HistoryEntry)
    (h : WellFormed history)
    (hlen : ∀ key, (onKey Operation.key key (strictly (operations history))).length ≤ 101)
    (hok : checkLinearizability iter history = some (.ok ())) :
    Linearizable (operations history) := by
  apply linearizable_of_keys h
  intro key
  apply ((checkLinearizability_iff iter h).mp hok key).hasOrder
  have hkey := hlen key
  rwa [onKey_strictly, List.length_map] at hkey

theorem read_of_write_linearizable :
    Linearizable (operations [invokeEntry 1 "write" (some (.u64 5)) 1,
      invokeEntry 2 "read" none 2, completeEntry 2 "ok" "read" (some (.u64 5)) 3,
      completeEntry 1 "ok" "write" none 4]) := by
  refine linearizable_of_accepted anyOrder _ (by decide) (fun key => ?_) ?_
  · exact (List.length_filter_le _ _).trans (by decide)
  · exact accepted_of_one_key (by decide) "x" (by decide) (by decide +kernel)

/-- A read of a value that was never written, missed behind 101 other reads. -/
theorem missed_violation :
    WellFormed (readHistory 101) ∧
      checkLinearizability anyOrder (readHistory 101) = some (.ok ()) ∧
      ¬ Linearizable (operations (readHistory 101)) := by
  have hwf := wellFormed_readHistory 101
  refine ⟨hwf, accepted_of_one_key hwf "x" (fun i hi hinv => ?_) (by decide +kernel), ?_⟩
  · rw [(mem_readHistory hi).2.2.1 hinv]
    rfl
  · rintro ⟨placed, left, hperm, hleft, _, hlegal⟩
    have hreads : ∀ a ∈ placed, a.input = some (.read "x") := by
      intro a ha
      obtain ⟨i, hi, rfl⟩ := List.mem_map.mp (hperm.subset (List.mem_append_left _ ha))
      obtain ⟨hi, hinv⟩ := List.mem_filter.mp hi
      rw [operation, (mem_readHistory hi).2.2.1 hinv]
      rfl
    have hlast : operation (readHistory 101) (invokeEntry 101 "read" none 0) ∈
        operations (readHistory 101) := by
      refine List.mem_map_of_mem (List.mem_filter.mpr ⟨?_, rfl⟩)
      exact List.mem_append_left _ (List.mem_map.mpr ⟨101, by simp, rfl⟩)
    have hend : (operation (readHistory 101) (invokeEntry 101 "read" none 0)).ending =
        .answered 1 true (some (.u64 7)) := by decide +kernel
    obtain hmem | hmem := List.mem_append.mp (hperm.symm.subset hlast)
    · have hfits := fits_of_reads hreads hlegal _ hmem
      rw [hend] at hfits
      cases hfits
    · exact hleft _ hmem _ _ _ hend

end OmniPaxosJepsen.CheckerResult
