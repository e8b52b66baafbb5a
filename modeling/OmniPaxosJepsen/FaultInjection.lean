import OmniPaxosJepsen.Delivery

namespace OmniPaxosJepsen.FaultInjection

open Json Common Routing Runs Delivery

/-- The killed list says which processes are dead, only links from nodes are blocked, and
every line went to a live process over an open link. -/
structure Enforced (s : TestHarness) : Prop where
  names : ∀ node ∈ s.nodeIds, ∃ i, node = nodeName i
  links : ∀ a b, s.network.isPartitioned a b = true → a ∈ s.nodeIds
  alive : ∀ node ∈ s.nodeIds, (s.nodes node).alive = !s.network.isKilled node
  written : ∀ line ∈ s.written, line.alive = true ∧ line.partitioned = false
  stdin : ∀ node ∈ s.nodeIds, (s.nodes node).stdin <:+ writtenTo s node

theorem clientName_ne_nodeName (i j : Nat) : clientName i ≠ nodeName j := by
  intro h
  have hlist := congrArg String.toList h
  simp [clientName, nodeName] at hlist

theorem harness_ne_nodeName (i : Nat) : "harness" ≠ nodeName i := by
  intro h
  have hlist := congrArg String.toList h
  simp [nodeName] at hlist

theorem Enforced.isPartitioned_eq_false {s : TestHarness} (h : Enforced s) {a : String}
    (ha : ∀ i, a ≠ nodeName i) (b : String) : s.network.isPartitioned a b = false := by
  rw [← Bool.not_eq_true]
  intro hpart
  obtain ⟨i, hi⟩ := h.names a (h.links a b hpart)
  exact ha i hi

theorem Enforced.admitted {s : TestHarness} (h : Enforced s) {line : Line}
    (hline : Admitted s line) : line.alive = true ∧ line.partitioned = false := by
  constructor
  · rw [hline.alive, h.alive _ hline.nodeId, hline.killed, Bool.not_false]
  · obtain hopen | ⟨i, hclient⟩ := hline.passes
    · exact hopen
    · rw [hline.partitioned, hclient]
      exact h.isPartitioned_eq_false (clientName_ne_nodeName i) _

theorem Enforced.delivers {s t : TestHarness} (h : Enforced s) (hdelivers : Delivers s t) :
    Enforced t := by
  refine ⟨?_, ?_, ?_, fun line hline => ?_, fun node hnode => ?_⟩
  · rw [hdelivers.nodeIds]
    exact h.names
  · rw [hdelivers.nodeIds, hdelivers.network]
    exact h.links
  · intro node hnode
    rw [hdelivers.alive, hdelivers.network]
    exact h.alive node (hdelivers.nodeIds ▸ hnode)
  · obtain hold | hnew := hdelivers.written line hline
    · exact h.written line hold
    · exact h.admitted hnew
  · obtain ⟨sent, hstdin, hwritten⟩ := hdelivers.stdin node
    obtain ⟨before, hbefore⟩ := h.stdin node (hdelivers.nodeIds ▸ hnode)
    refine ⟨before, ?_⟩
    rw [hstdin, hwritten, ← hbefore, List.append_assoc]

theorem Enforced.healAll {s : TestHarness} (h : Enforced s) (phase : Phase) :
    Enforced { s with network := s.network.healAll, phase := phase } :=
  ⟨h.names, nofun, h.alive, h.written, h.stdin⟩

theorem Enforced.restart {s : TestHarness} (h : Enforced s) (node : String) :
    Enforced (s.restart node) := by
  refine ⟨h.names, h.links, fun other hother => ?_, fun line hline => ?_, fun other hother => ?_⟩
  · by_cases heq : other = node
    · subst heq
      simp [TestHarness.restart, NodeProcess.spawn, isKilled_restartNode]
    · simp [TestHarness.restart, isKilled_restartNode, heq, h.alive other hother]
  · obtain hold | hnew := List.mem_append.mp hline
    · exact h.written line hold
    · obtain rfl := List.mem_singleton.mp hnew
      exact ⟨rfl, h.isPartitioned_eq_false harness_ne_nodeName node⟩
  · by_cases heq : other = node
    · subst heq
      exact ⟨writtenTo s other, by simp [TestHarness.restart, NodeProcess.spawn, writtenTo,
        NetworkSimulator.line]⟩
    · have hstdin := h.stdin other hother
      simpa [TestHarness.restart, writtenTo, NetworkSimulator.line, heq, Ne.symm heq] using hstdin

theorem Enforced.healAndRestart {s : TestHarness} (h : Enforced s) :
    Enforced s.healAndRestart :=
  List.foldlRecOn (motive := Enforced) _ _ (h.healAll s.phase)
    (fun _ henforced node _ => henforced.restart node)

theorem Enforced.attack {s t : TestHarness} (h : Enforced s) (hattack : Attack s t) :
    Enforced t := by
  cases hattack with
  | none => exact h
  | isolate hnode =>
    refine ⟨h.names, fun a b hpart => ?_, h.alive, h.written, h.stdin⟩
    obtain hold | ⟨rfl, _⟩ | ⟨_, ha, _⟩ := (isPartitioned_isolateNode _ _ _ a b).mp hpart
    · exact h.links a b hold
    · exact hnode
    · exact ha
  | splitBrain =>
    refine ⟨h.names, fun a b hpart => ?_, h.alive, h.written, h.stdin⟩
    obtain hold | ⟨ha, _⟩ | ⟨_, ha⟩ := (isPartitioned_splitBrain _ _ a b).mp hpart
    · exact h.links a b hold
    · exact List.mem_of_mem_take ha
    · exact List.mem_of_mem_drop ha
  | @kill node hnode =>
    refine ⟨h.names, h.links, fun other hother => ?_, h.written, fun other hother => ?_⟩
    · by_cases heq : other = node
      · subst heq
        simp [isKilled_killNode]
      · simp [isKilled_killNode, heq, h.alive other hother]
    · have hstdin := h.stdin other hother
      by_cases heq : other = node
      · subst heq
        simpa [writtenTo] using hstdin
      · simpa [writtenTo, heq] using hstdin

theorem Enforced.runNemesis {s t : TestHarness} {nemesisType : String} {choice : NemesisChoice}
    (h : Enforced s) (hrun : s.runNemesis nemesisType choice = some t) : Enforced t := by
  have hactive : ∀ {u : TestHarness} (active : Bool), Enforced u →
      Enforced { u with nemesisActive := active } :=
    fun _ hu => ⟨hu.names, hu.links, hu.alive, hu.written, hu.stdin⟩
  obtain ⟨_, rfl⟩ | ⟨u, _, hattack, rfl⟩ := runNemesis_cases hrun
  · exact hactive false h.healAndRestart
  · exact hactive true (h.attack hattack)

theorem Enforced.step {s t : TestHarness} {nemesisType : String} {a : Action} (h : Enforced s)
    (hstep : step nemesisType s a = some t) : Enforced t := by
  obtain hdelivers | ⟨u, choice, hdelivers, hrun⟩ | rfl := step_cases hstep
  · exact h.delivers hdelivers
  · exact (h.delivers hdelivers).runNemesis hrun
  · exact h.healAll .waiting

/-- A step of `main`, or one of its parts alone, so that these come in any order. -/
inductive Call where
  | main (nemesisType : String) (a : Action)
  | clientOperation (clientIdx : Nat) (choice : Choice)
  | routeMessages (order : IterOrder String)
  | deliverMessages (order : IterOrder String)
  | isolate (target : Nat)
  | splitBrain
  | kill (target : Nat)
  | healAll
  | restart (nodeId : String)

def call (s : TestHarness) : Call → Option TestHarness
  | .main nemesisType a => Routing.step nemesisType s a
  | .clientOperation clientIdx choice => s.generateOne clientIdx choice
  | .routeMessages order => some (s.routeMessages order)
  | .deliverMessages order =>
    let (s, allMsgs) := s.drainAllMessages order
    some (s.deliverMessages allMsgs).1
  | .isolate target => s.isolate target
  | .splitBrain => some s.splitBrain
  | .kill target => s.kill target
  | .healAll => some { s with network := s.network.healAll }
  | .restart nodeId => some (s.restart nodeId)

theorem Enforced.call {s t : TestHarness} {c : Call} (h : Enforced s) (hcall : call s c = some t) :
    Enforced t := by
  cases c with
  | main nemesisType a => exact h.step hcall
  | clientOperation clientIdx choice => exact h.delivers (generateOne_delivers hcall)
  | routeMessages order =>
    cases hcall
    exact h.delivers (routeMessages_delivers s order)
  | deliverMessages order =>
    cases hcall
    exact h.delivers ((drainAllMessages_delivers s order).trans (deliverMessages_delivers _ _))
  | isolate target => exact h.attack (attack_of_isolate hcall)
  | splitBrain =>
    cases hcall
    exact h.attack .splitBrain
  | kill target => exact h.attack (attack_of_kill hcall)
  | healAll =>
    cases hcall
    exact h.healAll s.phase
  | restart nodeId =>
    cases hcall
    exact h.restart nodeId

theorem enforced_new (nodeCount : Nat) : Enforced (TestHarness.new nodeCount) := by
  refine ⟨fun node hnode => ?_, nofun, fun _ _ => rfl, fun line hline => ?_, fun node hnode => ?_⟩
  · obtain ⟨i, _, rfl⟩ := List.mem_map.mp hnode
    exact ⟨i, rfl⟩
  · obtain ⟨node, _, rfl⟩ := List.mem_map.mp hline
    exact ⟨rfl, rfl⟩
  · -- One `init` message was written to each node.
    have hwritten : writtenTo (TestHarness.new nodeCount) node =
        ((TestHarness.new nodeCount).nodeIds.filter (fun other => other = node)).map
          (fun other => initMessage other (TestHarness.new nodeCount).nodeIds) := by
      simp only [writtenTo, TestHarness.new, List.filter_map, List.map_map]
      rfl
    obtain ⟨k, hk⟩ := Nat.exists_eq_succ_of_ne_zero (List.count_pos_iff.mpr hnode).ne'
    rw [hwritten, List.filter_eq, List.map_replicate, hk, List.replicate_succ']
    exact List.suffix_append _ _

/-- A line is written only to a process that is alive, over a link that is not blocked, and
the links do not change between the routing of a message and its delivery. -/
theorem faults_enforced {nodeCount : Nat} {calls : List Call} {s : TestHarness}
    (hrun : run call (TestHarness.new nodeCount) calls = some s) :
    (∀ line ∈ s.written, line.alive = true ∧ line.partitioned = false) ∧
    (∀ node ∈ s.nodeIds, (s.nodes node).stdin <:+ writtenTo s node) ∧
    (∀ order, (s.routeMessages order).network = s.network) ∧
    ∀ msgs, (s.deliverMessages msgs).1.network = s.network := by
  have henforced : Enforced s := run_invariant Enforced (fun _ _ _ _ h hcall => h.call hcall)
    (enforced_new nodeCount) hrun
  exact ⟨henforced.written, henforced.stdin,
    fun order => (routeMessages_delivers s order).network,
    fun msgs => (deliverMessages_delivers s msgs).network⟩

def turn (nemesis : Option NemesisChoice) : Turn :=
  { order := .reverse, clock := fun _ => 0, choices := [], nemesis := nemesis }

def ping : Value := Node.message "n0" "n1" [("type", .string "ping")]

def killAndRestart : List Call :=
  [.main "all" (.route .reverse), .main "all" (.route .reverse),
    .main "all" (.turn (turn (some ⟨false, 1⟩))), .main "all" (.emit "n0" (some ping)),
    .main "all" (.turn (turn none)), .main "all" (.turn (turn (some ⟨false, 1⟩))),
    .main "all" (.emit "n0" (some ping)), .main "all" (.turn (turn none)), .isolate 1,
    .main "all" (.emit "n0" (some ping)), .routeMessages .reverse]

theorem faults_enforced_killAndRestart : ∃ s,
    run call (TestHarness.new 2) killAndRestart = some s ∧
    s.written.map (fun line => (line.nodeId, src line.msg)) =
      [("n0", "harness"), ("n1", "harness"), ("n1", "harness"), ("n1", "n0")] ∧
    ∀ line ∈ s.written, line.alive = true ∧ line.partitioned = false := by
  have hwritten : (run call (TestHarness.new 2) killAndRestart).map
      (fun s => s.written.map (fun line => (line.nodeId, src line.msg))) =
        some [("n0", "harness"), ("n1", "harness"), ("n1", "harness"), ("n1", "n0")] := by
    decide +kernel
  obtain ⟨s, hrun, hs⟩ := Option.map_eq_some_iff.mp hwritten
  exact ⟨s, hrun, hs, (faults_enforced hrun).1⟩

end OmniPaxosJepsen.FaultInjection
