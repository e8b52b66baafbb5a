import OmniPaxosJepsen.ClusterStep
import OmniPaxosJepsen.Runs

namespace OmniPaxosJepsen.Replication

open Json KvSpec Node Apply Cluster Runs

/-- The part of a node that handling requests and forward messages leaves alone. -/
def core (self : MaelstromNode) : String × Store × Nat :=
  (self.nodeId, self.kvStore, self.decidedIdx)

theorem tryAppend_core (self : MaelstromNode) (append : AppendResult) (cmd : MaelstromCommand) :
    core (self.tryAppend append cmd).1 = core self := by
  cases append with
  | ok => rfl
  | err leader =>
    cases leader with
    | none => rfl
    | some leaderId =>
      simp only [MaelstromNode.tryAppend]
      split <;> rfl

theorem retry_core (self : MaelstromNode) (append : Nat → AppendResult)
    (pending : List MaelstromCommand) : core (self.retry append pending).1 = core self := by
  induction pending generalizing self append with
  | nil => rfl
  | cons cmd pending ih => exact (ih _ _).trans (tryAppend_core self _ _)

theorem tick_core (self : MaelstromNode) (append : Nat → AppendResult) :
    core (self.tick append).1 = core self := retry_core _ _ _

theorem perform_core {s : ClusterState} {node : String} {r : MaelstromNode × Effects}
    (h : core r.1 = core (s.nodes node)) (n : String) :
    core ((s.perform node r).nodes n) = core (s.nodes n) := by
  by_cases hn : n = node
  · subst hn
    simpa [ClusterState.perform] using h
  · simp [ClusterState.perform, Function.update_of_ne hn]

/-- Every node has applied exactly the first `decided_idx` entries of the log; `old`
holds the messages that earlier processes of each name had sent. -/
structure Replicated (old : String → List Value) (s : ClusterState) : Prop where
  nodeId : ∀ n, (s.nodes n).nodeId = n
  applied_le : ∀ n, (s.nodes n).decidedIdx ≤ s.opDecidedIdx n
  decided_le : ∀ n, s.opDecidedIdx n ≤ s.log.length
  kvStore : ∀ n, (s.nodes n).kvStore =
    replay emptyStore ((s.log.take (s.nodes n).decidedIdx).map MaelstromCommand.op)
  sent : ∀ n, s.sent n =
    old n ++ responses n emptyStore (s.log.take (s.nodes n).decidedIdx)

theorem replicated_init : Replicated (fun _ => []) Cluster.init := by
  constructor <;> intro n <;> rfl

theorem Replicated.of_core {old : String → List Value} {s t : ClusterState}
    (hs : Replicated old s) (hcore : ∀ n, core (t.nodes n) = core (s.nodes n))
    (hlog : ∃ l, t.log = s.log ++ l) (hsent : ∀ n, t.sent n = s.sent n)
    (hop : ∀ n, s.opDecidedIdx n ≤ t.opDecidedIdx n ∧ t.opDecidedIdx n ≤ t.log.length) :
    Replicated old t := by
  obtain ⟨l, hl⟩ := hlog
  have hid : ∀ n, (t.nodes n).nodeId = (s.nodes n).nodeId := fun n => congrArg (·.1) (hcore n)
  have hkv : ∀ n, (t.nodes n).kvStore = (s.nodes n).kvStore := fun n => congrArg (·.2.1) (hcore n)
  have hidx : ∀ n, (t.nodes n).decidedIdx = (s.nodes n).decidedIdx :=
    fun n => congrArg (·.2.2) (hcore n)
  have htake : ∀ n, t.log.take (t.nodes n).decidedIdx = s.log.take (s.nodes n).decidedIdx := by
    intro n
    rw [hidx, hl, List.take_append_of_le_length ((hs.applied_le n).trans (hs.decided_le n))]
  refine ⟨fun n => (hid n).trans (hs.nodeId n), fun n => ?_, fun n => (hop n).2, fun n => ?_,
    fun n => ?_⟩
  · rw [hidx]
    exact (hs.applied_le n).trans (hop n).1
  · rw [hkv, htake, hs.kvStore]
  · rw [hsent, htake, hs.sent]

theorem Replicated.applyNext {old : String → List Value} {s : ClusterState} {node : String}
    {cmd : MaelstromCommand} (hs : Replicated old s)
    (hget : s.log[(s.nodes node).decidedIdx]? = some cmd)
    (hlt : (s.nodes node).decidedIdx < s.opDecidedIdx node) :
    Replicated old (s.applyNext node cmd) := by
  have htake : s.log.take ((s.nodes node).decidedIdx + 1) =
      s.log.take (s.nodes node).decidedIdx ++ [cmd] := by
    rw [List.take_add_one, hget]
    rfl
  refine ⟨?_, ?_, hs.decided_le, ?_, fun n => ?_⟩
  · apply (Function.forall_update_iff s.nodes (fun n self => self.nodeId = n)).mpr
    exact ⟨hs.nodeId node, fun n _ => hs.nodeId n⟩
  · apply (Function.forall_update_iff s.nodes
      (fun n self => self.decidedIdx ≤ s.opDecidedIdx n)).mpr
    exact ⟨Nat.succ_le_of_lt hlt, fun n _ => hs.applied_le n⟩
  · apply (Function.forall_update_iff s.nodes (fun n self => self.kvStore =
      replay emptyStore ((s.log.take self.decidedIdx).map MaelstromCommand.op))).mpr
    refine ⟨?_, fun n _ => hs.kvStore n⟩
    dsimp only
    rw [htake, List.map_append, List.map_cons, List.map_nil, replay_concat, ← hs.kvStore]
  · have hsent : (s.applyNext node cmd).sent n = s.sent n ++
        (if node = n then response node (s.nodes node).kvStore cmd else []) := by
      simp only [ClusterState.sent, ClusterState.applyNext, List.filterMap_append,
        List.filterMap_map, hs.nodeId node]
      congr 1
      by_cases hn : node = n <;> simp [hn]
    rw [hsent]
    by_cases hn : n = node
    · subst hn
      simp only [ClusterState.applyNext, Function.update_self, htake, responses_concat,
        ← hs.kvStore, hs.sent, ↓reduceIte, List.append_assoc]
    · simpa [ClusterState.applyNext, Function.update_of_ne hn, Ne.symm hn] using hs.sent n

theorem step_replicated {members : Finset String} {old : String → List Value}
    {s t : ClusterState} {a : Action} (hs : Replicated old s)
    (h : step members s a = some t) : Replicated old t := by
  have hnext := step_next h
  cases a with
  | clientRequest node append msg =>
    obtain ⟨_, cmd, _, rfl⟩ := hnext
    exact hs.of_core (fun n => perform_core (tryAppend_core _ _ _) n)
      ⟨[], by simp [ClusterState.perform]⟩ (fun n => by simp [ClusterState.sent])
      (fun n => ⟨le_rfl, hs.decided_le n⟩)
  | deliver i append =>
    obtain ⟨dest, cmd, _, _, rfl⟩ := hnext
    exact hs.of_core (fun n => perform_core (s := { s with inFlight := s.inFlight.eraseIdx i })
      (tryAppend_core _ _ _) n) ⟨[], by simp [ClusterState.perform]⟩
      (fun n => rfl) (fun n => ⟨le_rfl, hs.decided_le n⟩)
  | drop i =>
    obtain ⟨dest, cmd, _, rfl⟩ := hnext
    exact hs.of_core (fun n => rfl) ⟨[], by simp⟩ (fun n => rfl)
      (fun n => ⟨le_rfl, hs.decided_le n⟩)
  | tick node append =>
    obtain ⟨_, rfl⟩ := hnext
    exact hs.of_core (fun n => perform_core (tick_core _ _) n) ⟨[], by simp [ClusterState.perform]⟩
      (fun n => rfl) (fun n => ⟨le_rfl, hs.decided_le n⟩)
  | decide i =>
    obtain ⟨cmd, _, rfl⟩ := hnext
    refine hs.of_core (fun n => rfl) ⟨[cmd], rfl⟩ (fun n => rfl) (fun n => ⟨le_rfl, ?_⟩)
    simpa using (hs.decided_le n).trans (Nat.le_succ _)
  | advance node idx =>
    obtain ⟨_, hold, hnew, rfl⟩ := hnext
    refine hs.of_core (fun n => rfl) ⟨[], by simp⟩ (fun n => rfl) (fun n => ?_)
    by_cases hn : n = node
    · subst hn
      simpa using ⟨hold, hnew⟩
    · simpa [Function.update_of_ne hn] using hs.decided_le n
  | process node =>
    refine process_induction (Replicated old) (hs.decided_le node) h ?_ hs
    exact fun u cmd _ _ hget hlt hu => hu.applyNext hget hlt

theorem run_replicated {members : Finset String} {old : String → List Value} {s t : ClusterState}
    {acts : List Action} (hs : Replicated old s) (h : run (step members) s acts = some t) :
    Replicated old t :=
  run_invariant (Replicated old) (fun _ _ _ _ hu hstep => step_replicated hu hstep) hs h

/-- `process_decided_entries` does not panic and catches up with OmniPaxos. -/
theorem Replicated.process_reaches {members : Finset String} {old : String → List Value}
    {s : ClusterState} (hs : Replicated old s) {node : String} (hmem : node ∈ members) :
    ∃ t, step members s (.process node) = some t ∧
      (t.nodes node).decidedIdx = s.opDecidedIdx node := by
  have happlied := hs.applied_le node
  have hdecided := hs.decided_le node
  have hundone : (s.nodes node).decidedIdx + (s.undone node).length = s.opDecidedIdx node := by
    rw [ClusterState.undone, List.length_drop, List.length_take]
    omega
  refine ⟨_, by rw [step, if_pos hmem, processDecidedEntries_eq hdecided]; rfl, ?_⟩
  simpa using hundone

/-- In every reachable state a node has applied exactly the first `decided_idx`
entries of the decided log, once each and in order, nodes that have applied equally
many hold the same store, and a node has answered exactly the applied entries that it
coordinates, each from the store just before the entry; and `process_decided_entries` goes on to
the index that OmniPaxos reports. -/
theorem replicas_agree (members : Finset String) (acts : List Action) (s : ClusterState)
    (h : run (step members) Cluster.init acts = some s) :
    (∀ n, (s.nodes n).decidedIdx ≤ s.opDecidedIdx n) ∧
    (∀ n, (s.nodes n).kvStore =
      replay emptyStore ((s.log.take (s.nodes n).decidedIdx).map MaelstromCommand.op)) ∧
    (∀ n n', (s.nodes n).decidedIdx = (s.nodes n').decidedIdx →
      (s.nodes n).kvStore = (s.nodes n').kvStore) ∧
    (∀ n, s.sent n = responses n emptyStore (s.log.take (s.nodes n).decidedIdx)) ∧
    ∀ n ∈ members, ∃ t, step members s (.process n) = some t ∧
      (t.nodes n).decidedIdx = s.opDecidedIdx n := by
  have hs := run_replicated replicated_init h
  refine ⟨hs.applied_le, hs.kvStore, fun n n' hidx => ?_, hs.sent,
    fun n hmem => hs.process_reaches hmem⟩
  rw [hs.kvStore n, hs.kvStore n', hidx]

theorem replicas_agree_forwardedWrite : ∃ s, run (step {"n0", "n1"}) Cluster.init forwardedWrite =
    some s ∧ s.sent "n1" = responses "n1" emptyStore (s.log.take (s.nodes "n1").decidedIdx) := by
  obtain ⟨s, hs⟩ := Option.isSome_iff_exists.mp
    (show (run (step {"n0", "n1"}) Cluster.init forwardedWrite).isSome by decide)
  exact ⟨s, hs, (replicas_agree {"n0", "n1"} forwardedWrite s hs).2.2.2.1 "n1"⟩

end OmniPaxosJepsen.Replication
