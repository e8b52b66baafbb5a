import OmniPaxosJepsen.HarnessCheck

namespace OmniPaxosJepsen.RecordedHistory

open Json KvSpec Node Checker Cluster Harness Answers HistorySpec HarnessStep HarnessIds
  HarnessHistory HarnessCheck KvModel Linearization Locality Pairing Verdict Runs

theorem legal_of_fits {cmds : List MaelstromCommand} {f : MaelstromCommand → Operation}
    {kv : Store} (h : ∀ k cmd, cmds[k]? = some cmd → (f cmd).input = some cmd.op ∧
      (f cmd).ending.fits cmd.op
        (apply (replay kv ((cmds.take k).map MaelstromCommand.op)) cmd.op).2 = true) :
    Legal takeEffect kv (cmds.map f) := by
  induction cmds generalizing kv with
  | nil => exact legal_nil _ _
  | cons cmd cmds ih =>
    obtain ⟨hinput, hfits⟩ := h 0 cmd rfl
    refine legal_cons.mpr ⟨(apply kv cmd.op).1, ?_, ih (fun k c hk => h (k + 1) c hk)⟩
    rw [takeEffect, hinput, Option.bind_some]
    exact if_pos hfits

theorem fits_of_reply (c : Option Value) (op : KVOp) (time : U128) :
    (Ending.answered time (recordedAs (applyCell c op).2 = "ok") (applyCell c op).2.value?).fits op
      (applyCell c op).2 = true := by
  cases op with
  | read key => simp [Ending.fits]
  | write key v => rfl
  | cas key expected replacement =>
    cases c with
    | none => rfl
    | some v => by_cases hv : v = expected <;> simp [Ending.fits, applyCell, hv, recordedAs]

theorem completed_lt {history : List HistoryEntry} {i j : HistoryEntry}
    (h : (operation history i).completed < (operation history j).invoked) :
    ∃ e ∈ history, completes e ∧ e.id = i.id ∧ e.timeNs < j.timeNs := by
  cases hcompletion : completionOf history i.id with
  | none => simp [operation, Operation.completed, hcompletion, ending] at h
  | some e =>
    obtain ⟨hmem, hc, hid⟩ := completionOf_some hcompletion
    refine ⟨e, hmem, hc, hid, ?_⟩
    by_cases hinfo : e.eventType = "info"
    · simp [operation, Operation.completed, hcompletion, ending, hinfo] at h
    · simpa [operation, Operation.completed, Operation.invoked, hcompletion, ending, hinfo] using h

variable {members : Finset String} {s : HarnessState}

theorem ending_fits (hg : Grounded members s) (hn : Named s) (hr : Recorded s) {i : HistoryEntry}
    (hi : i ∈ s.history) (hinv : invokes i) {k : Nat} {cmd : MaelstromCommand}
    (hk : s.cluster.log[k]? = some cmd) (hid : i.id = cmd.msgId) :
    (operation s.history i).ending.fits cmd.op (replyAt s.cluster.log k cmd) = true := by
  cases hcompletion : completionOf s.history i.id with
  | none =>
    rw [operation, hcompletion]
    cases cmd.op <;> rfl
  | some e =>
    obtain ⟨hmem, hc, heid⟩ := completionOf_some hcompletion
    obtain ⟨k', cmd', hk', hid', _, htype, hvalue⟩ := completion_op hg hn hr hi hmem hinv hc heid
    obtain ⟨rfl, rfl⟩ := log_inj hg hn hk hk' (by rw [hid', hid])
    have hinfo : e.eventType ≠ "info" := by
      rw [htype]
      cases replyAt _ _ _ <;> simp [recordedAs]
    simp only [operation, hcompletion, ending, if_neg hinfo]
    rw [htype, hvalue]
    exact fits_of_reply _ cmd.op e.timeNs

theorem operation_realTime (hg : Grounded members s) (hn : Named s) (hr : Recorded s)
    {k₁ k₂ : Nat} {cmd₁ cmd₂ : MaelstromCommand} {i₁ i₂ : HistoryEntry}
    (hk₁ : s.cluster.log[k₁]? = some cmd₁) (hk₂ : s.cluster.log[k₂]? = some cmd₂)
    (hi₁ : i₁ ∈ s.history) (hinv₁ : invokes i₁) (hid₁ : i₁.id = cmd₁.msgId)
    (hid₂ : i₂.id = cmd₂.msgId) (hlt : k₁ < k₂) :
    ¬ (operation s.history i₂).completed < (operation s.history i₁).invoked := by
  intro htime
  obtain ⟨e, he, hc, heid, htime⟩ := completed_lt htime
  obtain ⟨p, hp⟩ := List.getElem?_of_mem he
  obtain ⟨q, hq⟩ := List.getElem?_of_mem hi₁
  have hpq : p < q := by
    by_contra hqp
    exact absurd (recorded_ordered hr hq hp (Nat.le_of_not_lt hqp)) (not_le.mpr htime)
  obtain ⟨hpl, rfl⟩ := List.getElem?_eq_some_iff.mp hp
  obtain ⟨hql, rfl⟩ := List.getElem?_eq_some_iff.mp hq
  obtain ⟨k, cmd, hk, hcid, hids⟩ :=
    List.pairwise_iff_getElem.mp hr.precedes p q hpl hql hpq hc hinv₁
  obtain ⟨rfl, rfl⟩ := log_inj hg hn hk hk₂ (by rw [hcid, heid, hid₂])
  have hmem : cmd₁ ∈ s.cluster.log.take (k + 1) := by
    apply List.mem_of_getElem? (i := k₁)
    rw [List.getElem?_take_of_lt (by omega), hk₁]
  have hbefore := hids cmd₁ hmem
  rw [← hid₁] at hbefore
  exact absurd hbefore (lt_irrefl _)

/-- The log is an order of the recorded operations that are in it; the others have no answer. -/
theorem linearizable_of_recorded (hg : Grounded members s) (hn : Named s) (hr : Recorded s) :
    Linearizable (operations s.history) := by
  have hinvoked : ∀ cmd ∈ s.cluster.log, ∃ i ∈ s.history, invokes i ∧ i.id = cmd.msgId ∧
      input i.op i.key i.value i.casFrom i.casTo = some cmd.op :=
    fun cmd hcmd => hn.requested cmd (log_known hg hcmd)
  have : Nonempty HistoryEntry := ⟨responseEntry .null 0⟩
  choose! f hmem hinv hid hinput using hinvoked
  have hnodup : (s.cluster.log.map f).Nodup := by
    apply List.Nodup.of_map HistoryEntry.id
    have hmap : (s.cluster.log.map f).map HistoryEntry.id =
        s.cluster.log.map MaelstromCommand.msgId := by
      rw [List.map_map]
      exact List.map_congr_left hid
    rw [hmap]
    exact log_ids_nodup hg.conserved (hn.distinct.sublist ((List.sublist_append_right _ _).map _))
  have hlogged : (s.cluster.log.map f).Perm
      ((s.history.filter invokes).filter (fun i => i ∈ s.cluster.log.map f)) := by
    refine (List.perm_ext_iff_of_nodup hnodup (hn.unique.of_map.filter _)).mpr (fun i => ?_)
    rw [List.mem_filter, decide_eq_true_eq, iff_and_self]
    intro hi
    obtain ⟨cmd, hcmd, rfl⟩ := List.mem_map.mp hi
    exact List.mem_filter.mpr ⟨hmem cmd hcmd, hinv cmd hcmd⟩
  refine ⟨(s.cluster.log.map f).map (operation s.history),
    ((s.history.filter invokes).filter (fun i => !decide (i ∈ s.cluster.log.map f))).map
      (operation s.history), ?_, fun a ha time ok value hending => ?_, ?_, ?_⟩
  · rw [← List.map_append]
    exact ((hlogged.append_right _).trans (List.filter_append_perm _ _)).map _
  · -- an operation with an answer is in the log
    obtain ⟨i, hi, rfl⟩ := List.mem_map.mp ha
    simp only [List.mem_filter, Bool.not_eq_true', decide_eq_false_iff_not] at hi
    obtain ⟨⟨hi, hinvi⟩, hnot⟩ := hi
    cases hcompletion : completionOf s.history i.id with
    | none => simp [operation, hcompletion, ending] at hending
    | some e =>
      obtain ⟨he, hc, heid⟩ := completionOf_some hcompletion
      obtain ⟨k, cmd, hk, hcid, _⟩ := completion_op hg hn hr hi he hinvi hc heid
      have hcmd := List.mem_of_getElem? hk
      have heq := Named.invoke_inj hn (hmem cmd hcmd) hi (hinv cmd hcmd) hinvi
        ((hid cmd hcmd).trans hcid)
      exact hnot (List.mem_map.mpr ⟨cmd, hcmd, heq⟩)
  · rw [List.map_map]
    refine List.pairwise_map.mpr (List.pairwise_iff_getElem.mpr (fun k₁ k₂ h₁ h₂ hlt => ?_))
    have hcmd₁ := List.getElem_mem h₁
    exact operation_realTime hg hn hr (List.getElem?_eq_getElem h₁) (List.getElem?_eq_getElem h₂)
      (hmem _ hcmd₁) (hinv _ hcmd₁) (hid _ hcmd₁) (hid _ (List.getElem_mem h₂)) hlt
  · rw [List.map_map]
    refine legal_of_fits (fun k cmd hk => ?_)
    have hcmd := List.mem_of_getElem? hk
    exact ⟨hinput cmd hcmd, ending_fits hg hn hr (hmem cmd hcmd) (hinv cmd hcmd) hk (hid cmd hcmd)⟩

/-- A history in which every operation is answered passes the check. -/
theorem accepted_of_recorded (hg : Grounded members s) (hn : Named s) (hr : Recorded s)
    (hdone : Complete s.history) (iter : IterOrder) :
    checkLinearizability iter s.history = some (.ok ()) := by
  have hwf := history_wellFormed hg hn hr
  refine (checkLinearizability_iff iter hwf).mpr
    (fun key => HasOrder.hasBeginning ?_ 101)
  exact HasOrder.onKey (fun op hop => (recorded_wf hwf op hop).2.1)
    (complete_hasOrder hg hn hr hdone) key

end OmniPaxosJepsen.RecordedHistory
