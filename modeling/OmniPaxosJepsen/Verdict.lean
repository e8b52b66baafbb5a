import OmniPaxosJepsen.Pairing
import OmniPaxosJepsen.TryLinearize

namespace OmniPaxosJepsen.Verdict

open Json KvSpec Node Checker KvModel TryLinearize HistorySpec Pairing Linearization Locality Runs

/-- The operations are split by key: every key has one entry, with its operations. -/
structure Grouped (ops : List LinearOp) (byKey : List (String × List LinearOp)) : Prop where
  nodup : (byKey.map Prod.fst).Nodup
  entry : ∀ key l, (key, l) ∈ byKey → l = onKey LinearOp.key key ops
  mem : ∀ op ∈ ops, op.key ∈ byKey.map Prod.fst

theorem pushByKey_keys (op : LinearOp) (byKey : List (String × List LinearOp)) :
    (pushByKey op byKey).map Prod.fst =
      if op.key ∈ byKey.map Prod.fst then byKey.map Prod.fst
      else byKey.map Prod.fst ++ [op.key] := by
  induction byKey with
  | nil => rfl
  | cons e byKey ih =>
    obtain ⟨key, l⟩ := e
    by_cases hk : key = op.key
    · simp [pushByKey, hk]
    · simp only [pushByKey, hk, ↓reduceIte, List.map_cons, ih, List.mem_cons, Ne.symm hk, false_or]
      split <;> rfl

theorem mem_pushByKey {op : LinearOp} {byKey : List (String × List LinearOp)}
    (hnodup : (byKey.map Prod.fst).Nodup) {key : String} {l : List LinearOp}
    (h : (key, l) ∈ pushByKey op byKey) :
    (key ≠ op.key ∧ (key, l) ∈ byKey) ∨
      (key = op.key ∧ ∃ l₀, l = l₀ ++ [op] ∧
        ((key, l₀) ∈ byKey ∨ l₀ = [] ∧ key ∉ byKey.map Prod.fst)) := by
  induction byKey with
  | nil =>
    simp only [pushByKey, List.mem_singleton, Prod.mk.injEq] at h
    exact .inr ⟨h.1, [], by simpa using h.2, .inr ⟨rfl, by simp⟩⟩
  | cons e byKey ih =>
    obtain ⟨key', l'⟩ := e
    obtain ⟨hnew, hnodup⟩ := List.nodup_cons.mp hnodup
    by_cases hk : key' = op.key
    · simp only [pushByKey, hk, ↓reduceIte, List.mem_cons, Prod.mk.injEq] at h
      obtain ⟨rfl, rfl⟩ | hmem := h
      · exact .inr ⟨rfl, l', rfl, .inl (by simp [hk])⟩
      · refine .inl ⟨?_, List.mem_cons_of_mem _ hmem⟩
        rintro rfl
        have hmem : op.key ∈ byKey.map Prod.fst := List.mem_map_of_mem hmem
        exact hnew (hk ▸ hmem)
    · simp only [pushByKey, hk, ↓reduceIte, List.mem_cons, Prod.mk.injEq] at h
      obtain ⟨rfl, rfl⟩ | hmem := h
      · exact .inl ⟨hk, by simp⟩
      · obtain ⟨hne, hmem⟩ | ⟨heq, l₀, hl, hmem⟩ := ih hnodup hmem
        · exact .inl ⟨hne, List.mem_cons_of_mem _ hmem⟩
        · refine .inr ⟨heq, l₀, hl, hmem.imp (List.mem_cons_of_mem _) (fun hnone => ⟨hnone.1, ?_⟩)⟩
          simpa [heq, Ne.symm hk] using hnone.2

theorem Grouped.push {ops : List LinearOp} {byKey : List (String × List LinearOp)}
    (h : Grouped ops byKey) (op : LinearOp) : Grouped (ops ++ [op]) (pushByKey op byKey) := by
  have hkeys := pushByKey_keys op byKey
  have hsub : ∀ key, key ∈ byKey.map Prod.fst ∨ key = op.key →
      key ∈ (pushByKey op byKey).map Prod.fst := by
    intro key hkey
    rw [hkeys]
    split
    · next hmem =>
      obtain hkey | rfl := hkey
      · exact hkey
      · exact hmem
    · simpa using hkey
  refine ⟨?_, fun key l hmem => ?_, fun a ha => ?_⟩
  · rw [hkeys]
    split
    · exact h.nodup
    · next hnew => exact List.nodup_append.mpr ⟨h.nodup, List.nodup_singleton _,
        fun a ha b hb => by
          rw [List.mem_singleton.mp hb]
          exact fun he => hnew (he ▸ ha)⟩
  · obtain ⟨hne, hmem⟩ | ⟨rfl, l₀, rfl, hmem | ⟨rfl, hnew⟩⟩ := mem_pushByKey h.nodup hmem
    · simp [h.entry key l hmem, onKey, hne.symm]
    · simp [h.entry _ l₀ hmem, onKey]
    · have hnone : onKey LinearOp.key op.key ops = [] := by
        apply List.filter_eq_nil_iff.mpr
        intro a ha
        simp only [decide_eq_true_eq]
        intro he
        exact hnew (he ▸ h.mem a ha)
      simpa [onKey] using hnone
  · obtain ha | ha := List.mem_append.mp ha
    · exact hsub _ (.inl (h.mem a ha))
    · exact hsub _ (.inr (by rw [List.mem_singleton.mp ha]))

theorem grouped_groupByKey (ops : List LinearOp) : Grouped ops (groupByKey ops) := by
  induction ops using List.reverseRecOn with
  | nil => exact ⟨List.nodup_nil, by simp [groupByKey], by simp⟩
  | append_singleton ops op ih =>
    have hpush : groupByKey (ops ++ [op]) = pushByKey op (groupByKey ops) := by
      simp [groupByKey]
    rw [hpush]
    exact ih.push op

theorem checkKeys_eq_ok {byKey : List (String × List LinearOp)} :
    checkKeys byKey = some (.ok ()) ↔
      ∀ e ∈ byKey, tryLinearize e.2 KVModel.new 0 = some true := by
  induction byKey with
  | nil => simp [checkKeys]
  | cons e byKey ih =>
    obtain ⟨key, l⟩ := e
    simp only [checkKeys, List.forall_mem_cons, ← ih]
    cases ht : tryLinearize l KVModel.new 0 with
    | none => simp
    | some found => cases found <;> simp

theorem checkKeys_groupByKey {iter : IterOrder} {ops : List LinearOp} :
    checkKeys (iter.order (groupByKey ops)) = some (.ok ()) ↔
      ∀ key, tryLinearize (onKey LinearOp.key key ops) KVModel.new 0 = some true := by
  have hgroup := grouped_groupByKey ops
  rw [checkKeys_eq_ok]
  constructor
  · intro h key
    by_cases hmem : key ∈ (groupByKey ops).map Prod.fst
    · obtain ⟨⟨key', l⟩, he, rfl⟩ := List.mem_map.mp hmem
      have ht := h (key', l) ((iter.perm _).symm.subset he)
      rwa [hgroup.entry key' l he] at ht
    · have hnone : onKey LinearOp.key key ops = [] := by
        apply List.filter_eq_nil_iff.mpr
        intro op hop
        simp only [decide_eq_true_eq]
        rintro rfl
        exact hmem (hgroup.mem op hop)
      rw [hnone, tryLinearize_nil]
  · rintro h ⟨key, l⟩ he
    rw [hgroup.entry key l ((iter.perm _).subset he)]
    exact h key

theorem checkLinearizability_iff_keys (iter : IterOrder) {history : List HistoryEntry}
    {ops : List LinearOp}
    (hops : (pairUp history).mergeSort (fun a b => a.invokeTime ≤ b.invokeTime) = ops) :
    checkLinearizability iter history = some (.ok ()) ↔
      ∀ key, tryLinearize (onKey LinearOp.key key ops) KVModel.new 0 = some true := by
  rw [← @checkKeys_groupByKey iter ops, checkLinearizability, hops]
  split
  · next hempty =>
    rw [List.isEmpty_iff.mp hempty]
    have hiter : iter.order (groupByKey []) = [] := (iter.perm []).eq_nil
    simp [hiter, checkKeys]
  · rfl

theorem onKey_recorded {history : List HistoryEntry} {key : String} :
    ∀ op ∈ onKey LinearOp.key key (recorded history), op ∈ recorded history :=
  fun _ hop => (List.mem_filter.mp hop).1

theorem checkLinearizability_iff_recorded (iter : IterOrder) {history : List HistoryEntry}
    (h : InOrder history) (hsafe : ∀ op ∈ recorded history, Safe op) :
    checkLinearizability iter history = some (.ok ()) ↔
      ∀ key, tryLinearize (onKey LinearOp.key key (recorded history)) KVModel.new 0 =
        some true := by
  rw [checkLinearizability_iff_keys iter rfl]
  apply forall_congr'
  intro key
  have hperm := (List.mergeSort_perm _ (fun a b : LinearOp => a.invokeTime ≤ b.invokeTime)).trans
    (pairUp_perm h)
  refine (tryLinearize_perm_iff (fun op hop => ?_) (hperm.symm.filter _)).symm
  exact hsafe op (onKey_recorded op hop)

theorem recorded_wf {history : List HistoryEntry} (h : WellFormed history) :
    ∀ op ∈ recorded history, Safe op ∧ op.invokeTime ≤ op.completeTime ∧
      (op.opType = "write" → op.casOk = true) := by
  intro op hop
  obtain ⟨i, hi, e, hmem, hinv, hc, hid, rfl⟩ := mem_recorded hop
  refine ⟨⟨fun hw => (h.write i hi hinv hw).1, fun hc => h.cas i hi hinv hc⟩, ?_, fun hw => ?_⟩
  · simp only [linearOp]
    split
    · exact Nat.le_sub_one_of_lt i.timeNs.isLt
    · exact h.time i hi e hmem hid.symm hinv hc
  · simpa [linearOp] using (h.write i hi hinv hw).2 e hmem hid

theorem checkLinearizability_iff_search (iter : IterOrder) {history : List HistoryEntry}
    (h : WellFormed history) : checkLinearizability iter history = some (.ok ()) ↔
      ∀ key, tryLinearize (onKey LinearOp.key key (recorded history)) KVModel.new 0 =
        some true :=
  checkLinearizability_iff_recorded iter (inOrder_of_wellFormed h)
    (fun op hop => (recorded_wf h op hop).1)

/-- On well-formed histories a verdict of Ok is a legal beginning for every key. -/
theorem checkLinearizability_iff (iter : IterOrder) {history : List HistoryEntry}
    (h : WellFormed history) : checkLinearizability iter history = some (.ok ()) ↔
      ∀ key, HasBeginning LinearOp.invokeTime LinearOp.completeTime accept 101 KVModel.new
        (onKey LinearOp.key key (recorded history)) := by
  rw [checkLinearizability_iff_search iter h]
  apply forall_congr'
  intro key
  apply tryLinearize_iff
  · exact fun op hop => (recorded_wf h op (onKey_recorded op hop)).1
  · exact fun op hop => (recorded_wf h op (onKey_recorded op hop)).2.1

end OmniPaxosJepsen.Verdict
