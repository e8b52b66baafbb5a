import OmniPaxosJepsen.HarnessHistory
import OmniPaxosJepsen.Verdict

namespace OmniPaxosJepsen.HarnessCheck

open Json KvSpec Node Checker Apply Cluster Harness Answers HistorySpec HarnessStep HarnessIds
  HarnessHistory KvModel Pairing Verdict Linearization Locality Runs

theorem legal_of_replies {cmds : List MaelstromCommand} {f : MaelstromCommand → LinearOp}
    {kv : Store} (h : ∀ k cmd, cmds[k]? = some cmd → opInput (f cmd) = some cmd.op ∧
      agrees (f cmd).result (f cmd).casOk cmd.op
        (apply (replay kv ((cmds.take k).map MaelstromCommand.op)) cmd.op).2 = true) :
    Legal accept ⟨kv⟩ (cmds.map f) := by
  induction cmds generalizing kv with
  | nil => exact legal_nil _ _
  | cons cmd cmds ih =>
    obtain ⟨hinput, hagrees⟩ := h 0 cmd rfl
    refine legal_cons.mpr ⟨⟨(apply kv cmd.op).1⟩, ?_, ih (fun k c hk => h (k + 1) c hk)⟩
    rw [accept_eq, hinput]
    exact if_pos hagrees

variable {members : Finset String} {s : HarnessState}

theorem Named.invoke_inj (hn : Named s) {i j : HistoryEntry} (hi : i ∈ s.history)
    (hj : j ∈ s.history) (hinvi : invokes i) (hinvj : invokes j) (hid : i.id = j.id) : i = j :=
  List.inj_on_of_nodup_map hn.unique (List.mem_filter.mpr ⟨hi, hinvi⟩)
    (List.mem_filter.mpr ⟨hj, hinvj⟩) hid

theorem log_inj (hg : Grounded members s) (hn : Named s) {k k' : Nat} {cmd cmd' : MaelstromCommand}
    (hk : s.cluster.log[k]? = some cmd) (hk' : s.cluster.log[k']? = some cmd')
    (hid : cmd.msgId = cmd'.msgId) : k = k' ∧ cmd = cmd' := by
  have hids : (s.cluster.accepted.map MaelstromCommand.msgId).Nodup :=
    hn.distinct.sublist ((List.sublist_append_right _ _).map _)
  have hnodup := log_ids_nodup hg.conserved hids
  have hlt : k < (s.cluster.log.map MaelstromCommand.msgId).length := by
    simpa using (List.getElem?_eq_some_iff.mp hk).1
  have heq : k = k' := by
    refine (List.getElem?_inj hlt hnodup).mp ?_
    rw [List.getElem?_map, List.getElem?_map, hk, hk', Option.map_some, Option.map_some, hid]
  subst heq
  exact ⟨rfl, Option.some.inj (hk.symm.trans hk')⟩

theorem completion_entry (hg : Grounded members s) (hr : Recorded s) {e : HistoryEntry}
    (he : e ∈ s.history) (hc : completes e) : ∃ k cmd, s.cluster.log[k]? = some cmd ∧
      e.id = cmd.msgId ∧ e.eventType = recordedAs (replyAt s.cluster.log k cmd) ∧
      e.value = (replyAt s.cluster.log k cmd).value? := by
  obtain ⟨n, msg, hmsg, heq⟩ := hr.answered e he hc
  rw [heq]
  exact sent_entry hg hmsg e.timeNs

theorem completion_op (hg : Grounded members s) (hn : Named s) (hr : Recorded s)
    {i e : HistoryEntry} (hi : i ∈ s.history) (he : e ∈ s.history) (hinv : invokes i)
    (hc : completes e) (hid : e.id = i.id) : ∃ k cmd, s.cluster.log[k]? = some cmd ∧
      cmd.msgId = i.id ∧ input i.op i.key i.value i.casFrom i.casTo = some cmd.op ∧
      e.eventType = recordedAs (replyAt s.cluster.log k cmd) ∧
      e.value = (replyAt s.cluster.log k cmd).value? := by
  obtain ⟨k, cmd, hk, heid, htype, hvalue⟩ := completion_entry hg hr he hc
  obtain ⟨j, hj, hinvj, hjid, hinput⟩ := hn.requested cmd (log_known hg (List.mem_of_getElem? hk))
  obtain rfl : j = i := Named.invoke_inj hn hj hi hinvj hinv (by rw [hjid, ← heid, hid])
  exact ⟨k, cmd, hk, hjid.symm, hinput, htype, hvalue⟩

theorem recorded_ordered (hr : Recorded s) {p q : Nat} {a b : HistoryEntry}
    (ha : s.history[p]? = some a) (hb : s.history[q]? = some b) (hpq : p ≤ q) :
    a.timeNs ≤ b.timeNs := by
  obtain ⟨hp, rfl⟩ := List.getElem?_eq_some_iff.mp ha
  obtain ⟨hq, rfl⟩ := List.getElem?_eq_some_iff.mp hb
  obtain rfl | hlt := hpq.eq_or_lt
  · exact le_rfl
  · exact List.pairwise_iff_getElem.mp hr.sorted p q hp hq hlt

theorem history_wellFormed (hg : Grounded members s) (hn : Named s) (hr : Recorded s) :
    WellFormed s.history := by
  refine ⟨hn.unique, hr.invoked, fun i hi e he hid hinv hc => ?_, fun i hi hinv hw => ⟨?_, ?_⟩,
    fun i hi hinv => (hr.inputs i hi hinv).2⟩
  · obtain ⟨n, hn'⟩ := List.getElem?_of_mem he
    have hlt := (List.getElem?_eq_some_iff.mp hn').1
    obtain ⟨j, hj, hjid, hjinv⟩ := hr.invoked n hlt e hn' hc
    obtain rfl := Named.invoke_inj hn (List.mem_of_mem_take hj) hi hjinv hinv (hjid.trans hid.symm)
    obtain ⟨m, hm⟩ := List.getElem?_of_mem hj
    have hmn : m < n := by
      have hlen := (List.getElem?_eq_some_iff.mp hm).1
      rw [List.length_take] at hlen
      omega
    rw [List.getElem?_take_of_lt hmn] at hm
    exact recorded_ordered hr hm hn' hmn.le
  · exact (hr.inputs i hi hinv).1 hw
  · intro e he hid hfail
    have hc : completes e := by simp [completes, hfail]
    obtain ⟨k, cmd, _, _, hinput, htype, _⟩ := completion_op hg hn hr hi he hinv hc hid
    rw [hw] at hinput
    obtain ⟨v, _, hop⟩ := Option.map_eq_some_iff.mp hinput
    rw [hfail, replyAt, ← hop] at htype
    simp [apply, applyCell, recordedAs] at htype

theorem agrees_of_reply {r : Reply Value} {op : KVOp} {i e : HistoryEntry}
    {c : Option Value} (hr : r = (applyCell c op).2) (htype : e.eventType = recordedAs r)
    (hvalue : e.value = r.value?) :
    agrees (linearOp i e).result (linearOp i e).casOk op r = true := by
  have hinfo : e.eventType ≠ "info" := by
    rw [htype]
    cases r <;> simp [recordedAs]
  cases op with
  | read key => simp [agrees, linearOp, hinfo, hvalue]
  | write key v => rfl
  | cas key expected replacement =>
    have hcas : (decide (recordedAs r ≠ "fail")) = decide (r = .swapped) := by
      subst hr
      cases c with
      | none => rfl
      | some v => by_cases hv : v = expected <;> simp [applyCell, hv, recordedAs]
    simp only [agrees, linearOp, htype, hcas, decide_true]

def Complete (history : List HistoryEntry) : Prop :=
  ∀ i ∈ history, invokes i → ∃ e ∈ history, completes e ∧ e.id = i.id

instance (history : List HistoryEntry) : Decidable (Complete history) :=
  inferInstanceAs (Decidable (∀ i ∈ history, _))

theorem logged_op (hg : Grounded members s) (hn : Named s) (hr : Recorded s)
    (hdone : Complete s.history) {k : Nat} {cmd : MaelstromCommand}
    (hk : s.cluster.log[k]? = some cmd) : ∃ op ∈ recorded s.history, op.id = cmd.msgId ∧
      opInput op = some cmd.op ∧
      agrees op.result op.casOk cmd.op (replyAt s.cluster.log k cmd) = true := by
  obtain ⟨i, hi, hinv, hid, hinput⟩ := hn.requested cmd (log_known hg (List.mem_of_getElem? hk))
  obtain ⟨c, hc, hcomp, hcid⟩ := hdone i hi hinv
  obtain ⟨e, he⟩ : ∃ e, completionOf s.history i.id = some e :=
    Option.isSome_iff_exists.mp (List.find?_isSome.mpr ⟨c, hc, by simp [hcomp, hcid]⟩)
  obtain ⟨hmem, hecomp, heid⟩ := completionOf_some he
  obtain ⟨k', cmd', hk', hid', _, htype, hvalue⟩ := completion_op hg hn hr hi hmem hinv hecomp heid
  obtain ⟨rfl, rfl⟩ := log_inj hg hn hk hk' (by rw [hid', hid])
  refine ⟨linearOp i e, ?_, heid.trans hid, hinput, agrees_of_reply rfl htype hvalue⟩
  exact List.mem_filterMap.mpr ⟨i, List.mem_filter.mpr ⟨hi, hinv⟩, by rw [he]; rfl⟩

/-- An operation that completed before another was invoked stands before it in the log. -/
theorem log_realTime (hg : Grounded members s) (hn : Named s) (hr : Recorded s)
    {k₁ k₂ : Nat} {cmd₁ cmd₂ : MaelstromCommand} {op₁ op₂ : LinearOp}
    (hk₁ : s.cluster.log[k₁]? = some cmd₁) (hk₂ : s.cluster.log[k₂]? = some cmd₂)
    (hop₁ : op₁ ∈ recorded s.history) (hop₂ : op₂ ∈ recorded s.history)
    (hid₁ : op₁.id = cmd₁.msgId) (hid₂ : op₂.id = cmd₂.msgId) (hlt : k₁ < k₂) :
    ¬ op₂.completeTime < op₁.invokeTime := by
  intro htime
  obtain ⟨i, hi, e₁, _, hinv, _, heid₁, rfl⟩ := mem_recorded hop₁
  obtain ⟨_, _, e, he, _, hc, _, rfl⟩ := mem_recorded hop₂
  obtain ⟨_, _, _, _, htype, _⟩ := completion_entry hg hr he hc
  have hinfo : e.eventType ≠ "info" := by
    rw [htype]
    cases replyAt _ _ _ <;> simp [recordedAs]
  have htime : e.timeNs < i.timeNs := by simpa [linearOp, hinfo] using htime
  obtain ⟨p, hp⟩ := List.getElem?_of_mem he
  obtain ⟨q, hq⟩ := List.getElem?_of_mem hi
  have hpq : p < q := by
    by_contra hqp
    exact absurd (recorded_ordered hr hq hp (Nat.le_of_not_lt hqp)) (not_le.mpr htime)
  obtain ⟨hpl, rfl⟩ := List.getElem?_eq_some_iff.mp hp
  obtain ⟨hql, rfl⟩ := List.getElem?_eq_some_iff.mp hq
  obtain ⟨k, cmd, hk, hcid, hids⟩ :=
    List.pairwise_iff_getElem.mp hr.precedes p q hpl hql hpq hc hinv
  obtain ⟨rfl, rfl⟩ := log_inj hg hn hk hk₂ (hcid.trans hid₂)
  have hmem : cmd₁ ∈ s.cluster.log.take (k + 1) := by
    apply List.mem_of_getElem? (i := k₁)
    rw [List.getElem?_take_of_lt (by omega), hk₁]
  have hlt' := hids cmd₁ hmem
  rw [← hid₁] at hlt'
  exact absurd (heid₁ ▸ hlt') (lt_irrefl _)

theorem complete_hasOrder (hg : Grounded members s) (hn : Named s) (hr : Recorded s)
    (hdone : Complete s.history) :
    HasOrder LinearOp.invokeTime LinearOp.completeTime accept KVModel.new
      (recorded s.history) := by
  have hop : ∀ cmd ∈ s.cluster.log, ∃ op ∈ recorded s.history, op.id = cmd.msgId := by
    intro cmd hcmd
    obtain ⟨k, hk⟩ := List.getElem?_of_mem hcmd
    obtain ⟨op, hop, hid, _⟩ := logged_op hg hn hr hdone hk
    exact ⟨op, hop, hid⟩
  choose! f hmem hid using hop
  have hids : ((recorded s.history).map LinearOp.id).Nodup :=
    hn.unique.sublist (recorded_ids_sublist s.history)
  have hsame : ∀ {op}, op ∈ recorded s.history → ∀ {cmd}, cmd ∈ s.cluster.log →
      op.id = cmd.msgId → f cmd = op := fun hop _ hcmd he =>
    List.inj_on_of_nodup_map hids (hmem _ hcmd) hop ((hid _ hcmd).trans he.symm)
  refine ⟨s.cluster.log.map f, ?_, ?_, legal_of_replies (fun k cmd hk => ?_)⟩
  · refine (List.perm_ext_iff_of_nodup ?_ hids.of_map).mpr (fun op => ⟨fun h => ?_, fun h => ?_⟩)
    · apply List.Nodup.of_map LinearOp.id
      have hmap : (s.cluster.log.map f).map LinearOp.id =
          s.cluster.log.map MaelstromCommand.msgId := by
        rw [List.map_map]
        exact List.map_congr_left hid
      rw [hmap]
      exact log_ids_nodup hg.conserved (hn.distinct.sublist ((List.sublist_append_right _ _).map _))
    · obtain ⟨cmd, hcmd, rfl⟩ := List.mem_map.mp h
      exact hmem cmd hcmd
    · obtain ⟨i, _, e, he, _, hc, _, rfl⟩ := mem_recorded h
      obtain ⟨k, cmd, hk, heid, _⟩ := completion_entry hg hr he hc
      have hcmd := List.mem_of_getElem? hk
      exact List.mem_map.mpr ⟨cmd, hcmd, hsame h hcmd heid⟩
  · refine List.pairwise_map.mpr (List.pairwise_iff_getElem.mpr (fun k₁ k₂ h₁ h₂ hlt => ?_))
    exact log_realTime hg hn hr (List.getElem?_eq_getElem h₁) (List.getElem?_eq_getElem h₂)
      (hmem _ (List.getElem_mem h₁)) (hmem _ (List.getElem_mem h₂)) (hid _ (List.getElem_mem h₁))
      (hid _ (List.getElem_mem h₂)) hlt
  · obtain ⟨op, hop, hopid, hinput, hagrees⟩ := logged_op hg hn hr hdone hk
    rw [hsame hop (List.mem_of_getElem? hk) hopid]
    exact ⟨hinput, hagrees⟩

/-- No false alarm on complete runs: whatever the schedule, the partitions, the clients
and the keys, a recorded history in which every operation is answered passes the check. -/
theorem complete_run_accepted (members : Finset String) (iter : IterOrder)
    (acts : List Harness.Action) (s : HarnessState)
    (h : run (Harness.step members) Harness.init acts = some s) (hdone : Complete s.history) :
    checkLinearizability iter s.history = some (.ok ()) := by
  obtain ⟨hg, hn, hr⟩ := run_recorded h
  have hwf := history_wellFormed hg hn hr
  refine (checkLinearizability_iff iter hwf).mpr (fun key => HasOrder.hasBeginning ?_ 101)
  exact HasOrder.onKey (fun op hop => (recorded_wf hwf op hop).2.1)
    (complete_hasOrder hg hn hr hdone) key

theorem writeThenRead_accepted : ∃ s, run (Harness.step {"n0", "n1"}) Harness.init writeThenRead =
    some s ∧ s.history.length = 4 ∧
      checkLinearizability ⟨fun l => l, List.Perm.refl⟩ s.history = some (.ok ()) := by
  have hrun : (run (Harness.step {"n0", "n1"}) Harness.init writeThenRead).any
      (fun s => s.history.length = 4 ∧ Complete s.history) = true := by decide
  obtain ⟨s, hs, hprop⟩ := (Option.any_eq_true _ _).mp hrun
  obtain ⟨hlen, hdone⟩ := of_decide_eq_true hprop
  exact ⟨s, hs, hlen, complete_run_accepted {"n0", "n1"} _ writeThenRead s hs hdone⟩

end OmniPaxosJepsen.HarnessCheck
