import OmniPaxosJepsen.Answers
import OmniPaxosJepsen.HistorySpec

namespace OmniPaxosJepsen.HarnessStep

open Json KvSpec Node Checker Apply Cluster Replication Forwarding Harness Answers HistorySpec
  KvModel

def invokeEntry (id : Nat) (client opType key : String) (value casFrom casTo : Option Value)
    (now : U128) : HistoryEntry :=
  { id := id, eventType := "invoke", clientId := clientIndex client, op := opType, key := key,
    value := value, casFrom := casFrom, casTo := casTo, timeNs := now }

def requestMessage (id : Nat) (node client opType key : String) (fields : List (String × Value)) :
    Value :=
  message client node ([("type", .string opType), ("msg_id", .u64 id), ("key", .string key)] ++
    fields)

def Next (members : Finset String) (s : HarnessState) : Harness.Action → HarnessState → Prop
  | .sendOperation node client opType key value casFrom casTo now, t =>
    s.now ≤ now ∧ ∃ fields, requestFields opType value casFrom casTo = some fields ∧
      t = { s with
        nextOpId := s.nextOpId + 1
        history := s.history ++ [invokeEntry s.nextOpId client opType key value casFrom casTo now]
        stdin := s.stdin ++ [(node, requestMessage s.nextOpId node client opType key fields)]
        now := now }
  | .handle i append, t =>
    ∃ node msg cluster, s.stdin[i]? = some (node, msg) ∧
      Cluster.step members s.cluster (.clientRequest node append msg) = some cluster ∧
      t = { s with stdin := s.stdin.eraseIdx i, cluster := cluster }
  | .internal a, t =>
    ∃ cluster node, ∃ msgs : List Value, isInternal a ∧
      Cluster.step members s.cluster a = some cluster ∧
      cluster.history = s.cluster.history ++ msgs.map (Observed.response node) ∧
      t = { s with cluster := cluster, stdout := s.stdout ++ msgs.map (fun msg => (node, msg)) }
  | .recordResponse i now, t =>
    ∃ node msg, s.stdout[i]? = some (node, msg) ∧ s.now ≤ now ∧
      t = { s with
        stdout := s.stdout.eraseIdx i
        history := s.history ++ [responseEntry msg now]
        now := now }
  | .discard i, t => t = { s with stdout := s.stdout.eraseIdx i }
  | .kill node, t =>
    t = { s with
      killedNodes := s.killedNodes ++ [node]
      stdin := s.stdin.filter (fun m => m.1 ≠ node) }
  | .restart node, t => node ∈ members ∧ t = s.rebuild node

theorem advance_eq_some {members : Finset String} {s t : HarnessState} {a : Cluster.Action}
    (h : s.advance members a = some t) : ∃ cluster,
      Cluster.step members s.cluster a = some cluster ∧
      t = { s with
        cluster := cluster
        stdout := s.stdout ++ (cluster.history.drop s.cluster.history.length).filterMap (fun
          | .request _ _ => none
          | .response node msg => some (node, msg)) } := by
  simp only [HarnessState.advance, Option.ite_none_right_eq_some, Option.map_eq_some_iff] at h
  obtain ⟨_, cluster, hstep, rfl⟩ := h
  exact ⟨cluster, hstep, rfl⟩

theorem step_next {members : Finset String} {s t : HarnessState} {a : Harness.Action}
    (h : Harness.step members s a = some t) : Next members s a t := by
  cases a with
  | sendOperation node client opType key value casFrom casTo now =>
    simp only [Harness.step, Option.ite_none_right_eq_some, HarnessState.sendOperation,
      Option.map_eq_some_iff] at h
    obtain ⟨⟨_, _, hnow⟩, fields, hfields, rfl⟩ := h
    exact ⟨hnow, fields, hfields, rfl⟩
  | handle i append =>
    obtain ⟨⟨node, msg⟩, hm, hadv⟩ := Option.bind_eq_some_iff.mp h
    obtain ⟨cluster, hstep, rfl⟩ := advance_eq_some hadv
    refine ⟨node, msg, cluster, hm, hstep, ?_⟩
    obtain ⟨l, hl, ⟨_, _, _, _, _, rfl, _⟩ | ⟨hint, _⟩⟩ := step_history hstep
    · simp [hl]
    · cases hint
  | internal a =>
    simp only [Harness.step, Option.ite_none_right_eq_some] at h
    obtain ⟨hint, hadv⟩ := h
    obtain ⟨cluster, hstep, rfl⟩ := advance_eq_some hadv
    obtain ⟨l, hl, ⟨_, _, _, _, rfl, _, _⟩ | ⟨_, node, msgs, rfl⟩⟩ := step_history hstep
    · cases hint
    · refine ⟨cluster, node, msgs, hint, hstep, hl, ?_⟩
      simp [hl, List.filterMap_map]
  | recordResponse i now =>
    obtain ⟨⟨node, msg⟩, hm, hrec⟩ := Option.bind_eq_some_iff.mp h
    obtain ⟨⟨_, hnow⟩, heq⟩ := Option.ite_none_right_eq_some.mp hrec
    cases heq
    exact ⟨node, msg, hm, hnow, rfl⟩
  | discard i =>
    obtain ⟨_, _, rfl⟩ := Option.map_eq_some_iff.mp h
    rfl
  | kill node =>
    obtain ⟨_, heq⟩ := Option.ite_none_right_eq_some.mp h
    cases heq
    rfl
  | restart node =>
    obtain ⟨⟨hmem, _⟩, heq⟩ := Option.ite_none_right_eq_some.mp h
    cases heq
    exact ⟨hmem, rfl⟩

theorem mem_sent_of_append {s t : ClusterState} {l : List Observed}
    (h : t.history = s.history ++ l) {n : String} {msg : Value} (hmsg : msg ∈ s.sent n) :
    msg ∈ t.sent n := by
  rw [ClusterState.sent, h, List.filterMap_append]
  exact List.mem_append_left _ hmsg

structure Grounded (members : Finset String) (s : HarnessState) : Prop where
  replicated : Replicated s.earlier s.cluster
  conserved : Conserved members s.cluster
  earlier : ∀ n, ∀ msg ∈ s.earlier n, Answer s.cluster.log n msg
  unread : ∀ m ∈ s.stdout, m.2 ∈ s.cluster.sent m.1

theorem grounded_init (members : Finset String) : Grounded members Harness.init :=
  ⟨replicated_init, conserved_init members, fun _ _ h => (List.not_mem_nil h).elim,
    fun _ h => (List.not_mem_nil h).elim⟩

theorem Grounded.answer {members : Finset String} {s : HarnessState} (h : Grounded members s)
    {n : String} {msg : Value} (hmsg : msg ∈ s.cluster.sent n) : Answer s.cluster.log n msg :=
  sent_answer h.replicated h.earlier hmsg

theorem Grounded.cluster_step {members : Finset String} {s : HarnessState}
    (h : Grounded members s) {a : Cluster.Action} {cluster : ClusterState}
    (hstep : Cluster.step members s.cluster a = some cluster) :
    Replicated s.earlier cluster ∧ Conserved members cluster ∧
      ∀ n, ∀ msg ∈ s.earlier n, Answer cluster.log n msg := by
  obtain ⟨l, hl⟩ := step_log hstep
  refine ⟨step_replicated h.replicated hstep, step_conserved h.replicated h.conserved hstep,
    fun n msg hmsg => ?_⟩
  rw [hl]
  exact (h.earlier n msg hmsg).append l

theorem rebuild_of_ne (s : HarnessState) {n node : String} (hn : n ≠ node) :
    (s.rebuild node).cluster.nodes n = s.cluster.nodes n ∧
      (s.rebuild node).cluster.opDecidedIdx n = s.cluster.opDecidedIdx n ∧
      (s.rebuild node).earlier n = s.earlier n := by
  simp [HarnessState.rebuild, Function.update_of_ne hn]

theorem Replicated.rebuild {s : HarnessState} (h : Replicated s.earlier s.cluster)
    (node : String) : Replicated (s.rebuild node).earlier (s.rebuild node).cluster := by
  refine ⟨fun n => ?_, fun n => ?_, fun n => ?_, fun n => ?_, fun n => ?_⟩ <;>
    obtain rfl | hn := eq_or_ne n node
  · simp [HarnessState.rebuild, MaelstromNode.new]
  · rw [(rebuild_of_ne s hn).1]
    exact h.nodeId n
  · simp [HarnessState.rebuild, MaelstromNode.new]
  · rw [(rebuild_of_ne s hn).1, (rebuild_of_ne s hn).2.1]
    exact h.applied_le n
  · simp [HarnessState.rebuild]
  · rw [(rebuild_of_ne s hn).2.1]
    exact h.decided_le n
  · simp [HarnessState.rebuild, MaelstromNode.new]
  · rw [(rebuild_of_ne s hn).1]
    exact h.kvStore n
  · simp [HarnessState.rebuild, MaelstromNode.new, responses, ClusterState.sent]
  · rw [(rebuild_of_ne s hn).1, (rebuild_of_ne s hn).2.2]
    exact h.sent n

theorem Conserved.rebuild {members : Finset String} {s : HarnessState}
    (h : Conserved members s.cluster) {node : String} (hnode : node ∈ members) :
    Conserved members (s.rebuild node).cluster := by
  have hp := pending_update hnode s.cluster (MaelstromNode.new node)
  have hnew : (((MaelstromNode.new node).pendingForwards : List MaelstromCommand) :
      Multiset MaelstromCommand) = 0 := rfl
  rw [hnew, add_zero] at hp
  refine Eq.trans ?_ (show _ = _ from h)
  simp only [places, ← hp, HarnessState.rebuild, ← Multiset.coe_add]
  simp only [pending, carried, taken]
  abel

theorem Grounded.rebuild {members : Finset String} {s : HarnessState} (h : Grounded members s)
    {node : String} (hnode : node ∈ members) : Grounded members (s.rebuild node) := by
  refine ⟨Replicated.rebuild h.replicated node, Conserved.rebuild h.conserved hnode,
    fun n msg hmsg => ?_, fun m hm => ?_⟩
  · obtain rfl | hn := eq_or_ne n node
    · simp only [HarnessState.rebuild, Function.update_self] at hmsg
      exact h.answer hmsg
    · rw [(rebuild_of_ne s hn).2.2] at hmsg
      exact h.earlier n msg hmsg
  · exact h.unread m (List.mem_filter.mp hm).1

theorem step_grounded {members : Finset String} {s t : HarnessState} {a : Harness.Action}
    (hs : Grounded members s) (h : Harness.step members s a = some t) : Grounded members t := by
  have hnext := step_next h
  cases a with
  | sendOperation node client opType key value casFrom casTo now =>
    obtain ⟨_, fields, _, rfl⟩ := hnext
    exact ⟨hs.replicated, hs.conserved, hs.earlier, hs.unread⟩
  | handle i append =>
    obtain ⟨node, msg, cluster, _, hstep, rfl⟩ := hnext
    obtain ⟨hrep, hcons, hold⟩ := hs.cluster_step hstep
    obtain ⟨l, hl, _⟩ := step_history hstep
    exact ⟨hrep, hcons, hold, fun m hm => mem_sent_of_append hl (hs.unread m hm)⟩
  | internal a =>
    obtain ⟨cluster, node, msgs, _, hstep, hl, rfl⟩ := hnext
    obtain ⟨hrep, hcons, hold⟩ := hs.cluster_step hstep
    refine ⟨hrep, hcons, hold, fun m hm => ?_⟩
    obtain hm | hm := List.mem_append.mp hm
    · exact mem_sent_of_append hl (hs.unread m hm)
    · obtain ⟨msg, hmsg, rfl⟩ := List.mem_map.mp hm
      simp [ClusterState.sent, hl, List.filterMap_map, hmsg]
  | recordResponse i now =>
    obtain ⟨node, msg, _, _, rfl⟩ := hnext
    exact ⟨hs.replicated, hs.conserved, hs.earlier,
      fun m hm => hs.unread m (List.mem_of_mem_eraseIdx hm)⟩
  | discard i =>
    obtain rfl := hnext
    exact ⟨hs.replicated, hs.conserved, hs.earlier,
      fun m hm => hs.unread m (List.mem_of_mem_eraseIdx hm)⟩
  | kill node =>
    obtain rfl := hnext
    exact ⟨hs.replicated, hs.conserved, hs.earlier, hs.unread⟩
  | restart node =>
    obtain ⟨hnode, rfl⟩ := hnext
    exact hs.rebuild hnode

end OmniPaxosJepsen.HarnessStep
