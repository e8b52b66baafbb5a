import OmniPaxosJepsen.Forwarding
import OmniPaxosJepsen.Harness

namespace OmniPaxosJepsen.Answers

open Json KvSpec Node Apply Cluster Replication Forwarding Harness

def replyAt (log : List MaelstromCommand) (k : Nat) (cmd : MaelstromCommand) : Reply Value :=
  (apply (replay emptyStore ((log.take k).map MaelstromCommand.op)) cmd.op).2

/-- A message to a client is the answer of a node to an entry of the log that it
coordinates. -/
def Answer (log : List MaelstromCommand) (node : String) (msg : Value) : Prop :=
  ∃ k cmd, log[k]? = some cmd ∧ cmd.coordinator = node ∧
    msg = render node cmd (replyAt log k cmd)

theorem replyAt_append {log : List MaelstromCommand} {k : Nat} (hk : k ≤ log.length)
    (l : List MaelstromCommand) (cmd : MaelstromCommand) :
    replyAt (log ++ l) k cmd = replyAt log k cmd := by
  simp only [replyAt, List.take_append_of_le_length hk]

theorem Answer.append {log : List MaelstromCommand} {node : String} {msg : Value}
    (h : Answer log node msg) (l : List MaelstromCommand) : Answer (log ++ l) node msg := by
  obtain ⟨k, cmd, hk, hnode, hmsg⟩ := h
  have hlt : k < log.length := (List.getElem?_eq_some_iff.mp hk).1
  refine ⟨k, cmd, by rw [List.getElem?_append_left hlt, hk], hnode, ?_⟩
  rw [replyAt_append hlt.le, hmsg]

theorem mem_responses {node : String} {kv : Store} {cmds : List MaelstromCommand} {msg : Value}
    (h : msg ∈ responses node kv cmds) : ∃ k cmd, cmds[k]? = some cmd ∧ cmd.coordinator = node ∧
      msg = render node cmd
        (apply (replay kv ((cmds.take k).map MaelstromCommand.op)) cmd.op).2 := by
  induction cmds generalizing kv with
  | nil => cases h
  | cons cmd cmds ih =>
    obtain h | h := List.mem_append.mp h
    · by_cases hnode : cmd.coordinator = node
      · simp only [response, hnode, ↓reduceIte, List.mem_singleton] at h
        exact ⟨0, cmd, rfl, hnode, h⟩
      · simp [response, hnode] at h
    · obtain ⟨k, c, hk, hnode, hmsg⟩ := ih h
      exact ⟨k + 1, c, hk, hnode, hmsg⟩

theorem sent_answer {old : String → List Value} {s : ClusterState} (hs : Replicated old s)
    (hold : ∀ n, ∀ msg ∈ old n, Answer s.log n msg) {n : String} {msg : Value}
    (h : msg ∈ s.sent n) : Answer s.log n msg := by
  rw [hs.sent n] at h
  obtain h | h := List.mem_append.mp h
  · exact hold n msg h
  · obtain ⟨k, cmd, hk, hnode, hmsg⟩ := mem_responses h
    have hlt : k < (s.nodes n).decidedIdx := by
      have hlen := (List.getElem?_eq_some_iff.mp hk).1
      rw [List.length_take] at hlen
      omega
    refine ⟨k, cmd, by rwa [List.getElem?_take_of_lt hlt] at hk, hnode, ?_⟩
    rwa [List.take_take, Nat.min_eq_left hlt.le] at hmsg

theorem step_log {members : Finset String} {s t : ClusterState} {a : Cluster.Action}
    (h : Cluster.step members s a = some t) : ∃ l, t.log = s.log ++ l := by
  cases a with
  | clientRequest node append msg =>
    obtain ⟨_, cmd, _, rfl⟩ := step_next h
    exact ⟨[], by simp [ClusterState.perform]⟩
  | deliver i append =>
    obtain ⟨dest, cmd, _, _, rfl⟩ := step_next h
    exact ⟨[], by simp [ClusterState.perform]⟩
  | drop i =>
    obtain ⟨dest, cmd, _, rfl⟩ := step_next h
    exact ⟨[], by simp⟩
  | tick node append =>
    obtain ⟨_, rfl⟩ := step_next h
    exact ⟨[], by simp [ClusterState.perform]⟩
  | decide i =>
    obtain ⟨cmd, _, rfl⟩ := step_next h
    exact ⟨[cmd], rfl⟩
  | advance node idx =>
    obtain ⟨_, _, _, rfl⟩ := step_next h
    exact ⟨[], by simp⟩
  | process node =>
    simp only [Cluster.step, Option.ite_none_right_eq_some, Option.map_eq_some_iff] at h
    obtain ⟨_, r, _, rfl⟩ := h
    exact ⟨[], by simp⟩

theorem step_history {members : Finset String} {s t : ClusterState} {a : Cluster.Action}
    (h : Cluster.step members s a = some t) : ∃ l, t.history = s.history ++ l ∧
      ((∃ node append msg cmd, a = .clientRequest node append msg ∧ l = [.request node msg] ∧
        clientCommand (s.nodes node).nodeId msg = some cmd) ∨
      (isInternal a ∧ ∃ node, ∃ msgs : List Value, l = msgs.map (Observed.response node))) := by
  cases a with
  | clientRequest node append msg =>
    obtain ⟨_, cmd, hcmd, rfl⟩ := step_next h
    exact ⟨_, rfl, .inl ⟨node, append, msg, cmd, rfl, rfl, hcmd⟩⟩
  | deliver i append =>
    obtain ⟨dest, cmd, _, _, rfl⟩ := step_next h
    exact ⟨[], by simp [ClusterState.perform], .inr ⟨rfl, dest, [], rfl⟩⟩
  | drop i =>
    obtain ⟨dest, cmd, _, rfl⟩ := step_next h
    exact ⟨[], by simp, .inr ⟨rfl, dest, [], rfl⟩⟩
  | tick node append =>
    obtain ⟨_, rfl⟩ := step_next h
    exact ⟨[], by simp [ClusterState.perform], .inr ⟨rfl, node, [], rfl⟩⟩
  | decide i =>
    obtain ⟨cmd, _, rfl⟩ := step_next h
    exact ⟨[], by simp, .inr ⟨rfl, "", [], rfl⟩⟩
  | advance node idx =>
    obtain ⟨_, _, _, rfl⟩ := step_next h
    exact ⟨[], by simp, .inr ⟨rfl, node, [], rfl⟩⟩
  | process node =>
    simp only [Cluster.step, Option.ite_none_right_eq_some, Option.map_eq_some_iff] at h
    obtain ⟨_, r, _, rfl⟩ := h
    exact ⟨_, rfl, .inr ⟨rfl, node, r.2, rfl⟩⟩

theorem log_le_accepted {members : Finset String} {s : ClusterState} (hs : Conserved members s) :
    (s.log : Multiset MaelstromCommand) ≤ s.accepted := by
  rw [← show _ = _ from hs]
  exact (Multiset.le_add_left _ _).trans
    ((Multiset.le_add_left _ _).trans (Multiset.le_add_right _ _))

theorem log_ids_nodup {members : Finset String} {s : ClusterState} (hs : Conserved members s)
    (hids : (s.accepted.map MaelstromCommand.msgId).Nodup) :
    (s.log.map MaelstromCommand.msgId).Nodup := by
  have hle := Multiset.map_le_map (f := MaelstromCommand.msgId) (log_le_accepted hs)
  rw [Multiset.map_coe, Multiset.map_coe] at hle
  exact Multiset.coe_nodup.mp (Multiset.nodup_of_le hle (Multiset.coe_nodup.mpr hids))

end OmniPaxosJepsen.Answers
