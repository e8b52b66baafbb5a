import OmniPaxosJepsen.Answers
import OmniPaxosJepsen.Failures

namespace OmniPaxosJepsen.Durability

open Json KvSpec Node Apply Cluster Replication Answers Ballots Failures Runs

structure Quiet (s t : FaultyState) : Prop where
  core : ∀ n, core (t.nodes n) = core (s.nodes n)
  ballots : t.ballots = s.ballots
  opDecidedIdx : t.opDecidedIdx = s.opDecidedIdx
  response : ∀ n msg, Observed.response n msg ∈ t.history → Observed.response n msg ∈ s.history

variable {members : Finset String} {s t : FaultyState}

theorem omnipaxos_eq_some {a : Ballots.Action String MaelstromCommand}
    (h : s.omnipaxos members a = some t) : ∃ ballots,
      Ballots.step members s.ballots a = some ballots ∧ t = { s with ballots := ballots } := by
  obtain ⟨ballots, hstep, rfl⟩ := Option.map_eq_some_iff.mp h
  exact ⟨ballots, hstep, rfl⟩

theorem perform_quiet {node : String} {r : MaelstromNode × Effects} {u : FaultyState}
    (hcore : core r.1 = core (s.nodes node)) (hnodes : u.nodes = s.nodes)
    (hballots : u.ballots = s.ballots) (hop : u.opDecidedIdx = s.opDecidedIdx)
    (hhistory : u.history = s.history) : Quiet s (u.perform node r) := by
  refine ⟨fun n => ?_, hballots, hop, fun n msg h => hhistory ▸ h⟩
  by_cases hn : n = node
  · subst hn
    simpa [FaultyState.perform] using hcore
  · simp [FaultyState.perform, Function.update_of_ne hn, hnodes]

theorem step_cases {a : Failures.Action} (h : Failures.step members s a = some t) : Quiet s t ∨
    (∃ b ballots, (∀ node, b ≠ .reset node) ∧ Ballots.step members s.ballots b = some ballots ∧
      t = { s with ballots := ballots }) ∨
    (∃ node idx, s.opDecidedIdx node ≤ idx ∧ s.ballots.Learned node idx ∧
      t = { s with opDecidedIdx := Function.update s.opDecidedIdx node idx }) ∨
    (∃ node r, (s.nodes node).processDecidedEntries (s.opDecidedIdx node)
        (s.readDecidedSuffix node) = some r ∧
      t = { s with
        nodes := Function.update s.nodes node r.1
        history := s.history ++ r.2.map (Observed.response node) }) ∨
    ∃ node ballots, a = .restart node ∧
      Ballots.step members s.ballots (.reset node) = some ballots ∧
      t = { s with ballots := ballots }.rebuild node := by
  cases a with
  | clientRequest node append msg =>
    obtain ⟨⟨_, _, htype⟩, hmap⟩ := Option.ite_none_right_eq_some.mp h
    obtain ⟨r, hr, rfl⟩ := Option.map_eq_some_iff.mp hmap
    obtain ⟨cmd, _, rfl⟩ := handleClientRequest_eq_some htype hr
    have hquiet := perform_quiet (s := s) (tryAppend_core (s.nodes node) append cmd) rfl rfl rfl rfl
    exact .inl ⟨hquiet.core, rfl, rfl, fun n msg' h' => by simpa using h'⟩
  | deliver i append =>
    obtain ⟨m, _, hm⟩ := Option.bind_eq_some_iff.mp h
    obtain ⟨_, heq⟩ := Option.ite_none_right_eq_some.mp hm
    cases heq
    exact .inl (perform_quiet (tryAppend_core _ _ _) rfl rfl rfl rfl)
  | drop i =>
    obtain ⟨_, _, rfl⟩ := Option.map_eq_some_iff.mp h
    exact .inl ⟨fun _ => rfl, rfl, rfl, fun _ _ h' => h'⟩
  | tick node append =>
    obtain ⟨_, heq⟩ := Option.ite_none_right_eq_some.mp h
    cases heq
    exact .inl (perform_quiet (tick_core _ _) rfl rfl rfl rfl)
  | elect ballot voters best =>
    obtain ⟨ballots, hstep, rfl⟩ := omnipaxos_eq_some (Option.ite_none_right_eq_some.mp h).2
    exact .inr (.inl ⟨_, ballots, by simp, hstep, rfl⟩)
  | append ballot i =>
    obtain ⟨cmd, _, hcmd⟩ := Option.bind_eq_some_iff.mp h
    obtain ⟨ballots, hstep, rfl⟩ := omnipaxos_eq_some hcmd
    exact .inr (.inl ⟨_, ballots, by simp, hstep, rfl⟩)
  | accept node ballot length =>
    obtain ⟨ballots, hstep, rfl⟩ := omnipaxos_eq_some (Option.ite_none_right_eq_some.mp h).2
    exact .inr (.inl ⟨_, ballots, by simp, hstep, rfl⟩)
  | decide ballot length =>
    obtain ⟨ballots, hstep, rfl⟩ := omnipaxos_eq_some h
    exact .inr (.inl ⟨_, ballots, by simp, hstep, rfl⟩)
  | advance node idx =>
    obtain ⟨⟨_, hle, hlearned⟩, heq⟩ := Option.ite_none_right_eq_some.mp h
    cases heq
    exact .inr (.inr (.inl ⟨node, idx, hle, hlearned, rfl⟩))
  | process node =>
    obtain ⟨_, hmap⟩ := Option.ite_none_right_eq_some.mp h
    obtain ⟨r, hr, rfl⟩ := Option.map_eq_some_iff.mp hmap
    exact .inr (.inr (.inr (.inl ⟨node, r, hr, rfl⟩)))
  | kill node =>
    obtain ⟨_, heq⟩ := Option.ite_none_right_eq_some.mp h
    cases heq
    exact .inl ⟨fun _ => rfl, rfl, rfl, fun _ _ h' => h'⟩
  | restart node =>
    obtain ⟨_, hmap⟩ := Option.ite_none_right_eq_some.mp h
    obtain ⟨u, hu, rfl⟩ := Option.map_eq_some_iff.mp hmap
    obtain ⟨ballots, hstep, rfl⟩ := omnipaxos_eq_some hu
    exact .inr (.inr (.inr (.inr ⟨node, ballots, rfl, hstep, rfl⟩)))

theorem sparingStep_eq_some {a : Failures.Action} (h : sparingStep members s a = some t) :
    Failures.step members s a = some t ∧
      ∀ node, a = .restart node → Spared members s.ballots node := by
  cases a with
  | restart node =>
    obtain ⟨hspared, hstep⟩ := Option.ite_none_right_eq_some.mp h
    refine ⟨hstep, fun n hn => ?_⟩
    cases hn
    exact hspared
  | _ => exact ⟨h, by simp⟩

/-- Every node has applied a prefix of its own log that it knows to be decided, and
every message to a client answers an entry of a decided prefix. -/
structure Kept (members : Finset String) (s : FaultyState) : Prop where
  ballots : Inv members s.ballots
  nodeId : ∀ n, (s.nodes n).nodeId = n
  learned : ∀ n, s.opDecidedIdx n = 0 ∨ s.ballots.Learned n (s.opDecidedIdx n)
  applied_le : ∀ n, (s.nodes n).decidedIdx ≤ s.opDecidedIdx n
  kvStore : ∀ n, (s.nodes n).kvStore = replay emptyStore
    (((s.ballots.storages n).log.take (s.nodes n).decidedIdx).map MaelstromCommand.op)
  answers : ∀ n msg, Observed.response n msg ∈ s.history →
    ∃ d ∈ s.ballots.decided, Answer d.2 n msg

theorem Kept.op_le (hs : Kept members s) (n : String) :
    s.opDecidedIdx n ≤ (s.ballots.storages n).log.length := by
  obtain hzero | hlearned := hs.learned n
  · exact hzero.le.trans (Nat.zero_le _)
  · exact hlearned.1

theorem Kept.quiet (hs : Kept members s) (h : Quiet s t) : Kept members t := by
  have hid : ∀ n, (t.nodes n).nodeId = (s.nodes n).nodeId := fun n => congrArg (·.1) (h.core n)
  have hkv : ∀ n, (t.nodes n).kvStore = (s.nodes n).kvStore := fun n => congrArg (·.2.1) (h.core n)
  have hidx : ∀ n, (t.nodes n).decidedIdx = (s.nodes n).decidedIdx :=
    fun n => congrArg (·.2.2) (h.core n)
  refine ⟨?_, fun n => (hid n).trans (hs.nodeId n), ?_, fun n => ?_, fun n => ?_, ?_⟩
  · rw [h.ballots]
    exact hs.ballots
  · rw [h.ballots, h.opDecidedIdx]
    exact hs.learned
  · rw [hidx, h.opDecidedIdx]
    exact hs.applied_le n
  · rw [hkv, hidx, h.ballots]
    exact hs.kvStore n
  · rw [h.ballots]
    exact fun n msg hmsg => hs.answers n msg (h.response n msg hmsg)

/-- A step of OmniPaxos leaves alone what a node has applied, unless it resets the node. -/
theorem Kept.applied_take (hs : Kept members s) {b : Ballots.Action String MaelstromCommand}
    {ballots : Ballots.State String MaelstromCommand}
    (hstep : Ballots.step members s.ballots b = some ballots) {n : String} (hn : b ≠ .reset n) :
    (s.opDecidedIdx n = 0 ∨ ballots.Learned n (s.opDecidedIdx n)) ∧
      (ballots.storages n).log.take (s.nodes n).decidedIdx =
        (s.ballots.storages n).log.take (s.nodes n).decidedIdx := by
  have hle := hs.applied_le n
  obtain hzero | hlearned := hs.learned n
  · have hidx : (s.nodes n).decidedIdx = 0 := by omega
    rw [hidx, List.take_zero, List.take_zero]
    exact ⟨.inl hzero, rfl⟩
  · obtain ⟨hlearned', htake⟩ := step_learned hs.ballots hstep hn hlearned
    refine ⟨.inr hlearned', ?_⟩
    rw [← Nat.min_eq_left hle, ← List.take_take, htake, List.take_take]

theorem Kept.omnipaxos (hs : Kept members s) {b : Ballots.Action String MaelstromCommand}
    {ballots : Ballots.State String MaelstromCommand} (hb : ∀ node, b ≠ .reset node)
    (hstep : Ballots.step members s.ballots b = some ballots) :
    Kept members { s with ballots := ballots } := by
  refine ⟨step_inv hs.ballots (fun node h => absurd h (hb node)) hstep, hs.nodeId, fun n => ?_,
    hs.applied_le, fun n => ?_, fun n msg hmsg => ?_⟩
  · exact (hs.applied_take hstep (hb n)).1
  · rw [(hs.applied_take hstep (hb n)).2]
    exact hs.kvStore n
  · obtain ⟨d, hd, hanswer⟩ := hs.answers n msg hmsg
    exact ⟨d, step_decided hstep hd, hanswer⟩

theorem Kept.advance (hs : Kept members s) {node : String} {idx : Nat}
    (hle : s.opDecidedIdx node ≤ idx) (hlearned : s.ballots.Learned node idx) :
    Kept members { s with opDecidedIdx := Function.update s.opDecidedIdx node idx } := by
  refine ⟨hs.ballots, hs.nodeId, ?_, ?_, hs.kvStore, hs.answers⟩
  · apply (Function.forall_update_iff s.opDecidedIdx
      (fun n k => k = 0 ∨ s.ballots.Learned n k)).mpr
    exact ⟨.inr hlearned, fun n _ => hs.learned n⟩
  · apply (Function.forall_update_iff s.opDecidedIdx (fun n k => (s.nodes n).decidedIdx ≤ k)).mpr
    exact ⟨(hs.applied_le node).trans hle, fun n _ => hs.applied_le n⟩

theorem Kept.take_undone (hs : Kept members s) (n : String) :
    let log := (s.ballots.storages n).log
    log.take (s.opDecidedIdx n) = log.take (s.nodes n).decidedIdx ++
      (log.take (s.opDecidedIdx n)).drop (s.nodes n).decidedIdx := by
  intro log
  have happlied : (log.take (s.opDecidedIdx n)).take (s.nodes n).decidedIdx =
      log.take (s.nodes n).decidedIdx := by
    rw [List.take_take, Nat.min_eq_left (hs.applied_le n)]
  rw [← happlied, List.take_append_drop]

theorem Kept.process (hs : Kept members s) {node : String} {r : MaelstromNode × List Value}
    (hr : (s.nodes node).processDecidedEntries (s.opDecidedIdx node) (s.readDecidedSuffix node) =
      some r) : Kept members { s with
        nodes := Function.update s.nodes node r.1
        history := s.history ++ r.2.map (Observed.response node) } := by
  have heq := (processDecidedEntries_take (s.nodes node) (hs.op_le node)).symm.trans hr
  rw [Option.some.injEq] at heq
  subst heq
  have hsplit := hs.take_undone node
  dsimp only at hsplit
  have hidx : (s.nodes node).decidedIdx + (((s.ballots.storages node).log.take
      (s.opDecidedIdx node)).drop (s.nodes node).decidedIdx).length = s.opDecidedIdx node := by
    have hle := hs.applied_le node
    have hop := hs.op_le node
    rw [List.length_drop, List.length_take]
    omega
  refine ⟨hs.ballots, ?_, hs.learned, ?_, ?_, fun n msg hmsg => ?_⟩
  · apply (Function.forall_update_iff s.nodes (fun n self => self.nodeId = n)).mpr
    exact ⟨hs.nodeId node, fun n _ => hs.nodeId n⟩
  · apply (Function.forall_update_iff s.nodes
      (fun n self => self.decidedIdx ≤ s.opDecidedIdx n)).mpr
    exact ⟨hidx.le, fun n _ => hs.applied_le n⟩
  · apply (Function.forall_update_iff s.nodes (fun n self => self.kvStore = replay emptyStore
      (((s.ballots.storages n).log.take self.decidedIdx).map MaelstromCommand.op))).mpr
    refine ⟨?_, fun n _ => hs.kvStore n⟩
    dsimp only
    rw [hidx, hsplit, List.map_append, replay_append, ← hs.kvStore, ← hsplit]
  · obtain hold | hnew := List.mem_append.mp hmsg
    · exact hs.answers n msg hold
    · obtain ⟨msg', hmem, heq⟩ := List.mem_map.mp hnew
      cases heq
      have hmem' : msg ∈ responses node emptyStore
          ((s.ballots.storages node).log.take (s.opDecidedIdx node)) := by
        rw [hsplit, responses_append, ← hs.kvStore]
        rw [hs.nodeId] at hmem
        exact List.mem_append_right _ hmem
      obtain ⟨k, cmd, hk, hnode, hmsg'⟩ := mem_responses hmem'
      have hanswer : Answer ((s.ballots.storages node).log.take (s.opDecidedIdx node)) node msg :=
        ⟨k, cmd, hk, hnode, hmsg'⟩
      obtain hzero | ⟨_, d, hd, _, l, hl⟩ := hs.learned node
      · rw [hzero] at hk
        cases hk
      · exact ⟨d, hd, hl ▸ hanswer.append l⟩

theorem Kept.restart (hs : Kept members s) {node : String}
    {ballots : Ballots.State String MaelstromCommand} (hspared : Spared members s.ballots node)
    (hstep : Ballots.step members s.ballots (.reset node) = some ballots) :
    Kept members ({ s with ballots := ballots }.rebuild node) := by
  have hkeep : ∀ n, n ≠ node →
      (.reset node : Ballots.Action String MaelstromCommand) ≠ .reset n := by
    intro n hn heq
    cases heq
    exact hn rfl
  have hballots : Inv members ballots :=
    step_inv hs.ballots (fun _ h => by cases h; exact hspared) hstep
  refine ⟨hballots, fun n => ?_, fun n => ?_, fun n => ?_, fun n => ?_, fun n msg hmsg => ?_⟩
  · by_cases hn : n = node
    · subst hn
      simp [FaultyState.rebuild, MaelstromNode.new]
    · simpa [FaultyState.rebuild, Function.update_of_ne hn] using hs.nodeId n
  · by_cases hn : n = node
    · subst hn
      simp [FaultyState.rebuild]
    · simpa [FaultyState.rebuild, Function.update_of_ne hn] using
        (hs.applied_take hstep (hkeep n hn)).1
  · by_cases hn : n = node
    · subst hn
      simp [FaultyState.rebuild, MaelstromNode.new]
    · simpa [FaultyState.rebuild, Function.update_of_ne hn] using hs.applied_le n
  · by_cases hn : n = node
    · subst hn
      simp [FaultyState.rebuild, MaelstromNode.new]
    · simpa [FaultyState.rebuild, Function.update_of_ne hn,
        (hs.applied_take hstep (hkeep n hn)).2] using hs.kvStore n
  · obtain ⟨d, hd, hanswer⟩ := hs.answers n msg hmsg
    exact ⟨d, step_decided hstep hd, hanswer⟩

theorem step_kept {s₁ : Ballots.State String MaelstromCommand} (hs : Kept members s)
    (hsince : Since s₁ s.ballots) {a : Failures.Action} (h : sparingStep members s a = some t) :
    Kept members t ∧ Since s₁ t.ballots := by
  obtain ⟨hstep, hspared⟩ := sparingStep_eq_some h
  obtain hquiet | ⟨b, ballots, hb, hballots, rfl⟩ | ⟨node, idx, hle, hlearned, rfl⟩ |
    ⟨node, r, hr, rfl⟩ | ⟨node, ballots, ha, hballots, rfl⟩ := step_cases hstep
  · exact ⟨hs.quiet hquiet, hquiet.ballots ▸ hsince⟩
  · exact ⟨hs.omnipaxos hb hballots, step_since hs.ballots hsince hballots⟩
  · exact ⟨hs.advance hle hlearned, hsince⟩
  · exact ⟨hs.process hr, hsince⟩
  · exact ⟨hs.restart (hspared node ha) hballots, step_since hs.ballots hsince hballots⟩

theorem run_kept {s₁ : Ballots.State String MaelstromCommand} {acts : List Failures.Action}
    (hs : Kept members s) (hsince : Since s₁ s.ballots)
    (h : run (sparingStep members) s acts = some t) : Kept members t ∧ Since s₁ t.ballots :=
  run_invariant (fun u => Kept members u ∧ Since s₁ u.ballots)
    (fun _ _ _ _ hu hstep => step_kept hu.1 hu.2 hstep) ⟨hs, hsince⟩ h

end OmniPaxosJepsen.Durability
