import OmniPaxosJepsen.Apply
import OmniPaxosJepsen.Cluster

namespace OmniPaxosJepsen.Cluster

open Json KvSpec Node Apply

def ClusterState.applyNext (s : ClusterState) (node : String) (cmd : MaelstromCommand) :
    ClusterState :=
  let self := s.nodes node
  { s with
    nodes := Function.update s.nodes node
      { self with kvStore := (apply self.kvStore cmd.op).1, decidedIdx := self.decidedIdx + 1 }
    history := s.history ++ (response self.nodeId self.kvStore cmd).map (Observed.response node) }

def ClusterState.undone (s : ClusterState) (node : String) : List MaelstromCommand :=
  (s.log.take (s.opDecidedIdx node)).drop (s.nodes node).decidedIdx

theorem undone_eq_cons {s : ClusterState} {node : String} {cmd : MaelstromCommand}
    {cmds : List MaelstromCommand} (h : s.undone node = cmd :: cmds) :
    s.log[(s.nodes node).decidedIdx]? = some cmd ∧
      (s.nodes node).decidedIdx < s.opDecidedIdx node ∧
      (s.applyNext node cmd).undone node = cmds := by
  have hget : (s.undone node)[0]? = some cmd := by simp [h]
  have hlt : (s.nodes node).decidedIdx < s.opDecidedIdx node := by
    have hlen : (s.undone node).length = cmds.length + 1 := by simp [h]
    simp only [ClusterState.undone, List.length_drop, List.length_take] at hlen
    omega
  refine ⟨?_, hlt, ?_⟩
  · simpa [ClusterState.undone, List.getElem?_take, hlt] using hget
  · have htail : (s.undone node).drop 1 = cmds := by simp [h]
    simpa [ClusterState.undone, ClusterState.applyNext, List.drop_drop] using htail

theorem foldl_applyNext (s : ClusterState) (node : String) (cmds : List MaelstromCommand) :
    cmds.foldl (fun u cmd => u.applyNext node cmd) s =
      { s with
        nodes := Function.update s.nodes node
          { s.nodes node with
            kvStore := replay (s.nodes node).kvStore (cmds.map MaelstromCommand.op)
            decidedIdx := (s.nodes node).decidedIdx + cmds.length }
        history := s.history ++ (responses (s.nodes node).nodeId (s.nodes node).kvStore cmds).map
          (Observed.response node) } := by
  induction cmds generalizing s with
  | nil => simp [responses]
  | cons cmd cmds ih =>
    have hidx : (s.nodes node).decidedIdx + 1 + cmds.length =
        (s.nodes node).decidedIdx + (cmds.length + 1) := by omega
    rw [List.foldl_cons, ih]
    simp [ClusterState.applyNext, responses, hidx]

theorem processDecidedEntries_eq {s : ClusterState} {node : String}
    (hlen : s.opDecidedIdx node ≤ s.log.length) :
    (s.nodes node).processDecidedEntries (s.opDecidedIdx node) (s.readDecidedSuffix node) =
      some ({ s.nodes node with
          kvStore := replay (s.nodes node).kvStore ((s.undone node).map MaelstromCommand.op)
          decidedIdx := (s.nodes node).decidedIdx + (s.undone node).length },
        responses (s.nodes node).nodeId (s.nodes node).kvStore (s.undone node)) :=
  processDecidedEntries_take (s.nodes node) hlen

theorem requestCommand_of_isClientRequest {self : MaelstromNode} {msg : Value}
    {r : String × Nat × Option MaelstromCommand} (htype : isClientRequest msg = true)
    (h : self.requestCommand msg = some r) : ∃ cmd, r.2.2 = some cmd := by
  simp only [isClientRequest, List.mem_cons, List.not_mem_nil, or_false, decide_eq_true_eq] at htype
  simp only [MaelstromNode.requestCommand, Option.bind_eq_bind, Option.pure_def,
    Option.bind_eq_some_iff, Option.some.injEq] at h
  obtain ⟨src, _, msgId, _, rfl⟩ := h
  obtain ht | ht | ht := htype <;> simp [ht]

theorem handleClientRequest_eq_some {self : MaelstromNode} {append : AppendResult} {msg : Value}
    {r : MaelstromNode × Effects} (htype : isClientRequest msg = true)
    (h : self.handleClientRequest append msg = some r) :
    ∃ cmd, clientCommand self.nodeId msg = some cmd ∧ r = self.tryAppend append cmd := by
  simp only [MaelstromNode.handleClientRequest, Option.bind_eq_bind, Option.bind_eq_some_iff] at h
  obtain ⟨⟨src, msgId, command⟩, hcommand, hr⟩ := h
  obtain ⟨cmd, hcmd⟩ := requestCommand_of_isClientRequest htype hcommand
  dsimp only at hcmd
  subst hcmd
  refine ⟨cmd, ?_, by simpa using hr.symm⟩
  have hnew : (MaelstromNode.new self.nodeId).requestCommand msg = self.requestCommand msg := rfl
  simp only [clientCommand, hnew, hcommand, Option.bind_some]

def Next (members : Finset String) (s : ClusterState) : Action → ClusterState → Prop
  | .clientRequest node append msg, t =>
    node ∈ members ∧ ∃ cmd, clientCommand (s.nodes node).nodeId msg = some cmd ∧
      t = { s.perform node ((s.nodes node).tryAppend append cmd) with
        history := s.history ++ [.request node msg] }
  | .deliver i append, t =>
    ∃ dest cmd, s.inFlight[i]? = some (dest, cmd) ∧ dest ∈ members ∧
      t = { s with inFlight := s.inFlight.eraseIdx i }.perform dest
        ((s.nodes dest).tryAppend append cmd)
  | .drop i, t =>
    ∃ dest cmd, s.inFlight[i]? = some (dest, cmd) ∧
      t = { s with inFlight := s.inFlight.eraseIdx i, dropped := s.dropped ++ [cmd] }
  | .tick node append, t => node ∈ members ∧ t = s.perform node ((s.nodes node).tick append)
  | .decide i, t =>
    ∃ cmd, s.appended[i]? = some cmd ∧
      t = { s with log := s.log ++ [cmd], appended := s.appended.eraseIdx i }
  | .advance node idx, t =>
    node ∈ members ∧ s.opDecidedIdx node ≤ idx ∧ idx ≤ s.log.length ∧
      t = { s with opDecidedIdx := Function.update s.opDecidedIdx node idx }
  | .process node, t =>
    node ∈ members ∧ (s.opDecidedIdx node ≤ s.log.length → t = (s.undone node).foldl
      (fun u cmd => u.applyNext node cmd) s)

theorem step_next {members : Finset String} {s t : ClusterState} {a : Action}
    (h : step members s a = some t) : Next members s a t := by
  cases a with
  | clientRequest node append msg =>
    simp only [step, Option.ite_none_right_eq_some, Option.map_eq_some_iff] at h
    obtain ⟨⟨hmem, htype⟩, r, hr, rfl⟩ := h
    obtain ⟨cmd, hcmd, rfl⟩ := handleClientRequest_eq_some htype hr
    exact ⟨hmem, cmd, hcmd, rfl⟩
  | deliver i append =>
    simp only [step, Option.bind_eq_some_iff, Option.ite_none_right_eq_some,
      Option.some.injEq] at h
    obtain ⟨⟨dest, cmd⟩, hm, hmem, rfl⟩ := h
    exact ⟨dest, cmd, hm, hmem, rfl⟩
  | drop i =>
    simp only [step, Option.map_eq_some_iff] at h
    obtain ⟨⟨dest, cmd⟩, hm, rfl⟩ := h
    exact ⟨dest, cmd, hm, rfl⟩
  | tick node append =>
    simp only [step, Option.ite_none_right_eq_some, Option.some.injEq] at h
    obtain ⟨hmem, rfl⟩ := h
    exact ⟨hmem, rfl⟩
  | decide i =>
    simp only [step, Option.map_eq_some_iff] at h
    obtain ⟨cmd, hcmd, rfl⟩ := h
    exact ⟨cmd, hcmd, rfl⟩
  | advance node idx =>
    simp only [step, Option.ite_none_right_eq_some, Option.some.injEq] at h
    obtain ⟨⟨hmem, hold, hnew⟩, rfl⟩ := h
    exact ⟨hmem, hold, hnew, rfl⟩
  | process node =>
    simp only [step, Option.ite_none_right_eq_some, Option.map_eq_some_iff] at h
    obtain ⟨hmem, r, hr, rfl⟩ := h
    refine ⟨hmem, fun hlen => ?_⟩
    rw [processDecidedEntries_eq hlen, Option.some.injEq] at hr
    subst hr
    rw [foldl_applyNext]

/-- A property that survives applying one more entry survives
`process_decided_entries`, however many entries it applies. -/
theorem process_induction {members : Finset String} {node : String} {s t : ClusterState}
    (P : ClusterState → Prop) (hlen : s.opDecidedIdx node ≤ s.log.length)
    (h : step members s (.process node) = some t)
    (one : ∀ u cmd, u.log = s.log → u.opDecidedIdx = s.opDecidedIdx →
      u.log[(u.nodes node).decidedIdx]? = some cmd →
      (u.nodes node).decidedIdx < u.opDecidedIdx node → P u → P (u.applyNext node cmd))
    (hs : P s) : P t := by
  obtain ⟨_, ht⟩ := step_next h
  rw [ht hlen]
  have hrest : ∀ cmds u, u.log = s.log → u.opDecidedIdx = s.opDecidedIdx → u.undone node = cmds →
      P u → P (cmds.foldl (fun u cmd => u.applyNext node cmd) u) := by
    intro cmds
    induction cmds with
    | nil => exact fun u _ _ _ hu => hu
    | cons cmd cmds ih =>
      intro u hlog hop hundone hu
      obtain ⟨hget, hlt, htail⟩ := undone_eq_cons hundone
      exact ih (u.applyNext node cmd) hlog hop htail (one u cmd hlog hop hget hlt hu)
  exact hrest _ s rfl rfl rfl hs

end OmniPaxosJepsen.Cluster
