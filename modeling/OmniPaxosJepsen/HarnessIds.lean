import OmniPaxosJepsen.HarnessStep

namespace OmniPaxosJepsen.HarnessIds

open Json KvSpec Node Checker Apply Cluster Replication Forwarding Harness Answers HistorySpec
  HarnessStep KvModel

def known (s : HarnessState) : List MaelstromCommand :=
  s.stdin.filterMap (fun m => clientCommand m.1 m.2) ++ s.cluster.accepted

def Requested (history : List HistoryEntry) (cmd : MaelstromCommand) : Prop :=
  ∃ i ∈ history, invokes i ∧ i.id = cmd.msgId ∧
    input i.op i.key i.value i.casFrom i.casTo = some cmd.op

structure Named (s : HarnessState) : Prop where
  unique : ((s.history.filter invokes).map HistoryEntry.id).Nodup
  fresh : ∀ i ∈ s.history, invokes i → i.id < s.nextOpId
  requested : ∀ cmd ∈ known s, Requested s.history cmd
  distinct : ((known s).map MaelstromCommand.msgId).Nodup

theorem clientCommand_requestMessage {opType : String} {value casFrom casTo : Option Value}
    {fields : List (String × Value)}
    (h : requestFields opType value casFrom casTo = some fields) (id : Nat)
    (node client key : String) :
    clientCommand node (requestMessage id node client opType key fields) =
      (input opType key value casFrom casTo).map (fun op => ⟨node, client, id, op⟩) := by
  unfold requestFields at h
  split at h
  · obtain ⟨v, rfl, rfl⟩ := Option.map_eq_some_iff.mp h
    rfl
  · obtain ⟨v, rfl, h⟩ := Option.bind_eq_some_iff.mp h
    obtain ⟨w, rfl, rfl⟩ := Option.map_eq_some_iff.mp h
    rfl
  · next hwrite hcas =>
    cases h
    by_cases hread : opType = "read"
    · subst hread
      rfl
    · simp [clientCommand, MaelstromNode.requestCommand, requestMessage, message, Value.get, input,
        List.lookup_cons]

theorem named_init : Named Harness.init := by
  constructor <;> simp [Harness.init, known, Cluster.init, ClusterState.accepted]

theorem Named.msgId_lt {s : HarnessState} (h : Named s) {cmd : MaelstromCommand}
    (hcmd : cmd ∈ known s) : cmd.msgId < s.nextOpId := by
  obtain ⟨i, hi, hinv, hid, _⟩ := h.requested cmd hcmd
  exact hid ▸ h.fresh i hi hinv

theorem Requested.append {history : List HistoryEntry} {cmd : MaelstromCommand}
    (h : Requested history cmd) (l : List HistoryEntry) : Requested (history ++ l) cmd := by
  obtain ⟨i, hi, hrest⟩ := h
  exact ⟨i, List.mem_append_left _ hi, hrest⟩

theorem accepted_internal {s t : ClusterState} {node : String} {msgs : List Value}
    (h : t.history = s.history ++ msgs.map (Observed.response node)) : t.accepted = s.accepted := by
  simp [ClusterState.accepted, h, List.filterMap_map]

theorem accepted_request {s t : ClusterState} {node : String} {msg : Value}
    {cmd : MaelstromCommand} (h : t.history = s.history ++ [.request node msg])
    (hcmd : clientCommand node msg = some cmd) : t.accepted = s.accepted ++ [cmd] := by
  simp [ClusterState.accepted, h, hcmd]

theorem responseEntry_not_invoke (msg : Value) (now : U128) :
    invokes (responseEntry msg now) = false := by
  have htype : eventType msg ∈ ["ok", "fail", "info"] := by
    unfold eventType
    dsimp only
    repeat' split
    all_goals simp
  simp only [List.mem_cons, List.not_mem_nil, or_false] at htype
  obtain h | h | h := htype <;> simp [invokes, responseEntry, h]

def newCommand (s : HarnessState) : Harness.Action → List MaelstromCommand
  | .sendOperation node client opType key value casFrom casTo _ =>
    ((input opType key value casFrom casTo).map (fun op => ⟨node, client, s.nextOpId, op⟩)).toList
  | _ => []

/-- Requests are lost, but none is sent twice. -/
theorem step_known {members : Finset String} {s t : HarnessState} {a : Harness.Action}
    (hg : Grounded members s) (h : Harness.step members s a = some t) :
    (known t).Subperm (known s ++ newCommand s a) := by
  have hnext := HarnessStep.step_next h
  cases a with
  | sendOperation node client opType key value casFrom casTo now =>
    obtain ⟨_, fields, hfields, rfl⟩ := hnext
    have hcommand := clientCommand_requestMessage hfields s.nextOpId node client key
    apply List.Perm.subperm
    simp only [known, newCommand, List.filterMap_append, List.append_assoc]
    refine List.Perm.append_left _ (List.perm_append_comm.trans (List.Perm.of_eq ?_))
    congr 1
    cases hin : input opType key value casFrom casTo <;> simp [hcommand, hin]
  | handle i append =>
    obtain ⟨node, msg, cluster, hm, hstep, rfl⟩ := hnext
    obtain ⟨l, hl, ⟨_, _, _, cmd, heq, rfl, hcmd⟩ | ⟨hint, _⟩⟩ := step_history hstep
    · cases heq
      rw [hg.replicated.nodeId node] at hcmd
      have hstdin : (cmd :: (s.stdin.eraseIdx i).filterMap (fun m => clientCommand m.1 m.2)).Perm
          (s.stdin.filterMap (fun m => clientCommand m.1 m.2)) := by
        obtain ⟨hi, hget⟩ := List.getElem?_eq_some_iff.mp hm
        have hperm := (List.getElem_cons_eraseIdx_perm hi).filterMap
          (fun m : String × Value => clientCommand m.1 m.2)
        rwa [hget, List.filterMap_cons_some (by exact hcmd)] at hperm
      apply List.Perm.subperm
      simp only [known, newCommand, accepted_request hl hcmd, List.append_nil]
      rw [← List.append_assoc]
      exact (List.perm_append_singleton cmd _).trans (hstdin.append_right _)
    · cases hint
  | internal a =>
    obtain ⟨cluster, node, msgs, _, _, hl, rfl⟩ := hnext
    simp only [known, newCommand, accepted_internal hl, List.append_nil]
    exact List.Subperm.refl _
  | recordResponse i now =>
    obtain ⟨node, msg, _, _, rfl⟩ := hnext
    simp only [newCommand, List.append_nil]
    exact List.Subperm.refl (known s)
  | discard i =>
    obtain rfl := hnext
    simp only [newCommand, List.append_nil]
    exact List.Subperm.refl (known s)
  | kill node =>
    obtain rfl := hnext
    apply List.Sublist.subperm
    simp only [newCommand, List.append_nil]
    exact (List.filter_sublist.filterMap _).append_right _
  | restart node =>
    obtain ⟨_, rfl⟩ := hnext
    simp only [newCommand, List.append_nil]
    exact List.Subperm.refl (known s)

theorem step_invokes {members : Finset String} {s t : HarnessState} {a : Harness.Action}
    (h : Harness.step members s a = some t) :
    (∃ e, t.history = s.history ++ [e] ∧ invokes e ∧ e.id = s.nextOpId ∧
      t.nextOpId = s.nextOpId + 1 ∧ ∀ cmd ∈ newCommand s a, cmd.msgId = s.nextOpId ∧
        input e.op e.key e.value e.casFrom e.casTo = some cmd.op) ∨
    (newCommand s a = [] ∧ t.nextOpId = s.nextOpId ∧
      ∃ l, t.history = s.history ++ l ∧ l.filter invokes = []) := by
  have hnext := HarnessStep.step_next h
  cases a with
  | sendOperation node client opType key value casFrom casTo now =>
    obtain ⟨_, fields, _, rfl⟩ := hnext
    refine .inl ⟨_, rfl, rfl, rfl, rfl, fun cmd hcmd => ?_⟩
    obtain ⟨op, hop, rfl⟩ := Option.map_eq_some_iff.mp (Option.mem_toList.mp hcmd)
    exact ⟨rfl, hop⟩
  | handle i append =>
    obtain ⟨node, msg, cluster, _, _, rfl⟩ := hnext
    exact .inr ⟨rfl, rfl, [], by simp⟩
  | internal a =>
    obtain ⟨cluster, node, msgs, _, _, _, rfl⟩ := hnext
    exact .inr ⟨rfl, rfl, [], by simp⟩
  | recordResponse i now =>
    obtain ⟨node, msg, _, _, rfl⟩ := hnext
    exact .inr ⟨rfl, rfl, _, rfl, by simp [responseEntry_not_invoke]⟩
  | discard i =>
    obtain rfl := hnext
    exact .inr ⟨rfl, rfl, [], by simp⟩
  | kill node =>
    obtain rfl := hnext
    exact .inr ⟨rfl, rfl, [], by simp⟩
  | restart node =>
    obtain ⟨_, rfl⟩ := hnext
    exact .inr ⟨rfl, rfl, [], by simp [HarnessState.rebuild]⟩

theorem newCommand_nodup (s : HarnessState) (a : Harness.Action) :
    ((newCommand s a).map MaelstromCommand.msgId).Nodup := by
  cases a with
  | sendOperation node client opType key value casFrom casTo now =>
    rw [newCommand]
    cases hin : input opType key value casFrom casTo <;> simp
  | _ => exact List.nodup_nil

theorem step_named {members : Finset String} {s t : HarnessState} {a : Harness.Action}
    (hg : Grounded members s) (hs : Named s) (h : Harness.step members s a = some t) :
    Named t := by
  have hknown := step_known hg h
  obtain ⟨e, hhist, hinv, hid, hnext, hnew⟩ | ⟨hnew, hnext, l, hhist, hl⟩ := step_invokes h
  · have hold : ∀ i ∈ s.history.filter invokes, i.id < s.nextOpId := fun i hi =>
      hs.fresh i (List.mem_filter.mp hi).1 (List.mem_filter.mp hi).2
    refine ⟨?_, fun i hi hinv' => ?_, fun cmd hcmd => ?_, ?_⟩
    · have hfilter : t.history.filter invokes = s.history.filter invokes ++ [e] := by
        simp [hhist, hinv]
      rw [hfilter, List.map_append]
      refine List.nodup_append.mpr ⟨hs.unique, List.nodup_singleton _, fun a ha b hb => ?_⟩
      obtain ⟨i, hi, rfl⟩ := List.mem_map.mp ha
      obtain rfl : b = e.id := by simpa using hb
      exact hid ▸ (hold i hi).ne
    · rw [hhist] at hi
      obtain hi | hi := List.mem_append.mp hi
      · exact hnext ▸ Nat.lt_succ_of_lt (hs.fresh i hi hinv')
      · rw [List.mem_singleton.mp hi, hid, hnext]
        exact Nat.lt_succ_self _
    · rw [hhist]
      obtain hcmd | hcmd := List.mem_append.mp (hknown.subset hcmd)
      · exact (hs.requested cmd hcmd).append [e]
      · obtain ⟨hcid, hinput⟩ := hnew cmd hcmd
        exact ⟨e, by simp, hinv, hid.trans hcid.symm, hinput⟩
    · obtain ⟨l, hperm, hsub⟩ := hknown
      refine (hperm.map _).nodup_iff.mp (List.Nodup.sublist (hsub.map _) ?_)
      rw [List.map_append]
      refine List.nodup_append.mpr ⟨hs.distinct, newCommand_nodup s a, fun x hx y hy => ?_⟩
      obtain ⟨cmd, hcmd, rfl⟩ := List.mem_map.mp hx
      obtain ⟨cmd', hcmd', rfl⟩ := List.mem_map.mp hy
      rw [(hnew cmd' hcmd').1]
      exact (hs.msgId_lt hcmd).ne
  · rw [hnew, List.append_nil] at hknown
    have hfilter : t.history.filter invokes = s.history.filter invokes := by
      rw [hhist, List.filter_append, hl, List.append_nil]
    refine ⟨hfilter ▸ hs.unique, fun i hi hinv => ?_, fun cmd hcmd => ?_, ?_⟩
    · have hmem : i ∈ s.history.filter invokes := hfilter ▸ List.mem_filter.mpr ⟨hi, hinv⟩
      exact hnext ▸ hs.fresh i (List.mem_filter.mp hmem).1 hinv
    · exact hhist ▸ (hs.requested cmd (hknown.subset hcmd)).append l
    · obtain ⟨l, hperm, hsub⟩ := hknown
      exact (hperm.map _).nodup_iff.mp (hs.distinct.sublist (hsub.map _))

end OmniPaxosJepsen.HarnessIds
