import OmniPaxosJepsen.Routing
import OmniPaxosJepsen.Runs

namespace OmniPaxosJepsen.Delivery

open Json Checker Common Routing Runs
open Harness (isClientResponse)

theorem isPartitioned_iff {network : NetworkSimulator} {a b : String} :
    network.isPartitioned a b = true ↔ (a, b) ∈ network.partitions := decide_eq_true_iff

theorem isKilled_killNode (network : NetworkSimulator) (node other : String) :
    (network.killNode node).isKilled other = (network.isKilled other || other = node) := by
  simp [NetworkSimulator.isKilled, NetworkSimulator.killNode]

theorem isKilled_restartNode (network : NetworkSimulator) (node other : String) :
    (network.restartNode node).isKilled other = (network.isKilled other && other ≠ node) := by
  simp [NetworkSimulator.isKilled, NetworkSimulator.restartNode]

theorem isPartitioned_isolateNode (network : NetworkSimulator) (node : String)
    (nodeIds : List String) (a b : String) :
    (network.isolateNode node nodeIds).isPartitioned a b = true ↔
      network.isPartitioned a b = true ∨
        (a = node ∧ b ∈ nodeIds ∧ b ≠ node) ∨ (b = node ∧ a ∈ nodeIds ∧ a ≠ node) := by
  rw [isPartitioned_iff, isPartitioned_iff, NetworkSimulator.isolateNode, List.mem_append]
  simp only [List.mem_flatMap, List.mem_filter, decide_eq_true_eq, List.mem_cons,
    List.not_mem_nil, or_false, Prod.mk.injEq]
  refine or_congr_right ⟨?_, ?_⟩
  · rintro ⟨other, ⟨hmem, hne⟩, ⟨rfl, rfl⟩ | ⟨rfl, rfl⟩⟩
    · exact .inl ⟨rfl, hmem, hne⟩
    · exact .inr ⟨rfl, hmem, hne⟩
  · rintro (⟨rfl, hmem, hne⟩ | ⟨rfl, hmem, hne⟩)
    · exact ⟨b, ⟨hmem, hne⟩, .inl ⟨rfl, rfl⟩⟩
    · exact ⟨a, ⟨hmem, hne⟩, .inr ⟨rfl, rfl⟩⟩

theorem isPartitioned_splitBrain (network : NetworkSimulator) (nodeIds : List String)
    (a b : String) :
    (network.splitBrain nodeIds).isPartitioned a b = true ↔ network.isPartitioned a b = true ∨
      (a ∈ nodeIds.take (nodeIds.length / 2) ∧ b ∈ nodeIds.drop (nodeIds.length / 2)) ∨
        (b ∈ nodeIds.take (nodeIds.length / 2) ∧ a ∈ nodeIds.drop (nodeIds.length / 2)) := by
  rw [isPartitioned_iff, isPartitioned_iff, NetworkSimulator.splitBrain, List.mem_append]
  simp only [List.mem_flatMap, List.mem_cons, List.not_mem_nil, or_false, Prod.mk.injEq]
  refine or_congr_right ⟨?_, ?_⟩
  · rintro ⟨left, hleft, right, hright, ⟨rfl, rfl⟩ | ⟨rfl, rfl⟩⟩
    · exact .inl ⟨hleft, hright⟩
    · exact .inr ⟨hleft, hright⟩
  · rintro (⟨hleft, hright⟩ | ⟨hleft, hright⟩)
    · exact ⟨a, hleft, b, hright, .inl ⟨rfl, rfl⟩⟩
    · exact ⟨b, hleft, a, hright, .inr ⟨rfl, rfl⟩⟩

def clientName (i : Nat) : String := "c" ++ toString i

structure Admitted (s : TestHarness) (line : Line) : Prop where
  killed : s.network.isKilled line.nodeId = false
  alive : line.alive = (s.nodes line.nodeId).alive
  nodeId : line.nodeId ∈ s.nodeIds
  partitioned : line.partitioned = s.network.isPartitioned (src line.msg) line.nodeId
  passes : line.partitioned = false ∨ ∃ i, src line.msg = clientName i

def writtenTo (s : TestHarness) (nodeId : String) : List Value :=
  (s.written.filter (fun line => line.nodeId = nodeId)).map Line.msg

/-- A part of the program that reads and writes messages, and injects and heals no fault. -/
structure Delivers (s t : TestHarness) : Prop where
  network : t.network = s.network
  nodeIds : t.nodeIds = s.nodeIds
  nemesisActive : t.nemesisActive = s.nemesisActive
  alive : ∀ nodeId, (t.nodes nodeId).alive = (s.nodes nodeId).alive
  written : ∀ line ∈ t.written, line ∈ s.written ∨ Admitted s line
  stdin : ∀ nodeId, ∃ sent, (t.nodes nodeId).stdin = (s.nodes nodeId).stdin ++ sent ∧
    writtenTo t nodeId = writtenTo s nodeId ++ sent

theorem Admitted.of_delivers {s t : TestHarness} {line : Line} (h : Admitted t line)
    (hdelivers : Delivers s t) : Admitted s line := by
  refine ⟨?_, ?_, ?_, ?_, h.passes⟩
  · rw [← hdelivers.network, h.killed]
  · rw [h.alive, hdelivers.alive]
  · rw [← hdelivers.nodeIds]
    exact h.nodeId
  · rw [h.partitioned, hdelivers.network]

theorem Delivers.trans {s t u : TestHarness} (h : Delivers s t) (h' : Delivers t u) :
    Delivers s u := by
  refine ⟨h'.network.trans h.network, h'.nodeIds.trans h.nodeIds,
    h'.nemesisActive.trans h.nemesisActive, fun nodeId => ?_, fun line hline => ?_,
    fun nodeId => ?_⟩
  · rw [h'.alive, h.alive]
  · obtain hold | hnew := h'.written line hline
    · exact h.written line hold
    · exact .inr (hnew.of_delivers h)
  · obtain ⟨sent, hstdin, hwritten⟩ := h.stdin nodeId
    obtain ⟨sent', hstdin', hwritten'⟩ := h'.stdin nodeId
    refine ⟨sent ++ sent', ?_, ?_⟩
    · rw [hstdin', hstdin, List.append_assoc]
    · rw [hwritten', hwritten, List.append_assoc]

theorem delivers_of_eq {s t : TestHarness} (hnetwork : t.network = s.network)
    (hnodeIds : t.nodeIds = s.nodeIds) (hactive : t.nemesisActive = s.nemesisActive)
    (hnodes : ∀ nodeId, (t.nodes nodeId).alive = (s.nodes nodeId).alive ∧
      (t.nodes nodeId).stdin = (s.nodes nodeId).stdin)
    (hwritten : t.written = s.written) : Delivers s t := by
  refine ⟨hnetwork, hnodeIds, hactive, fun nodeId => (hnodes nodeId).1,
    fun _ hline => .inl (hwritten ▸ hline), fun nodeId => ⟨[], ?_, ?_⟩⟩
  · rw [(hnodes nodeId).2, List.append_nil]
  · rw [writtenTo, hwritten, List.append_nil, writtenTo]

theorem delivers_refl (s : TestHarness) : Delivers s s :=
  delivers_of_eq rfl rfl rfl (fun _ => ⟨rfl, rfl⟩) rfl

theorem delivers_emit (s : TestHarness) (nodeId : String) (lines : List (Option Value))
    (msgs : List Value) :
    Delivers s { s with
      nodes := Function.update s.nodes nodeId { s.nodes nodeId with stdoutRx := lines }
      read := msgs } := by
  apply delivers_of_eq
  · rfl
  · rfl
  · rfl
  · intro other
    by_cases hother : other = nodeId
    · subst hother
      simp
    · simp [Function.update_of_ne hother]
  · rfl

theorem delivers_recv (s : TestHarness) (nodeId : String) : Delivers s (s.recv nodeId).1 :=
  delivers_emit s nodeId _ _

theorem delivers_send {s : TestHarness} {nodeId : String} {msg : Value}
    (hkilled : s.network.isKilled nodeId = false)
    (hpasses : s.network.isPartitioned (src msg) nodeId = false ∨ ∃ i, src msg = clientName i) :
    Delivers s (s.send nodeId msg) := by
  unfold TestHarness.send
  split
  case isFalse => exact delivers_refl s
  case isTrue hmem =>
    refine ⟨rfl, rfl, rfl, fun other => ?_, fun line hline => ?_, fun other => ?_⟩
    · by_cases hother : other = nodeId
      · subst hother
        simp
      · simp [Function.update_of_ne hother]
    · obtain hold | hnew := List.mem_append.mp hline
      · exact .inl hold
      · obtain rfl := List.mem_singleton.mp hnew
        exact .inr ⟨hkilled, rfl, hmem, rfl, hpasses⟩
    · by_cases hother : other = nodeId
      · subst hother
        exact ⟨[msg], by simp, by simp [writtenTo, NetworkSimulator.line]⟩
      · refine ⟨[], by simp [Function.update_of_ne hother], ?_⟩
        simp [writtenTo, NetworkSimulator.line, Ne.symm hother]

theorem delivers_passes {s : TestHarness} {msg : Value} (h : s.passes msg = true) :
    Delivers s (s.send (dest msg) msg) := by
  simp only [TestHarness.passes, Bool.and_eq_true, Bool.not_eq_true'] at h
  exact delivers_send h.2 (.inl h.1)

theorem Delivers.passes {s t : TestHarness} (h : Delivers s t) (msg : Value) :
    t.passes msg = s.passes msg := by
  simp only [TestHarness.passes, h.network]

theorem routeFrom_delivers (s : TestHarness) (ids : List String) :
    Delivers s (ids.foldl TestHarness.routeFrom (s, [])).1 ∧
      ∀ m ∈ (ids.foldl TestHarness.routeFrom (s, [])).2,
        m.1 = dest m.2 ∧ (isClientResponse m.2 || s.passes m.2) = true := by
  refine List.foldlRecOn (motive := fun p : TestHarness × List (String × Value) =>
    Delivers s p.1 ∧ ∀ m ∈ p.2, m.1 = dest m.2 ∧ (isClientResponse m.2 || s.passes m.2) = true)
    ids _ ⟨delivers_refl s, by simp⟩ ?_
  rintro ⟨t, toDeliver⟩ ⟨hdelivers, hpasses⟩ nodeId _
  by_cases hkilled : t.network.isKilled nodeId
  · simp only [TestHarness.routeFrom, hkilled, ↓reduceIte]
    exact ⟨hdelivers, hpasses⟩
  · have hrecv := hdelivers.trans (delivers_recv t nodeId)
    simp only [TestHarness.routeFrom, hkilled, Bool.false_eq_true, ↓reduceIte]
    refine ⟨hrecv, fun m hm => ?_⟩
    obtain hold | hnew := List.mem_append.mp hm
    · exact hpasses m hold
    · obtain ⟨msg, hmsg, rfl⟩ := List.mem_map.mp hnew
      have hpass := (List.mem_filter.mp hmsg).2
      rw [hrecv.passes] at hpass
      exact ⟨rfl, hpass⟩

/-- What `route_messages` writes has passed the checks when it was read. -/
theorem routeMessages_delivers (s : TestHarness) (order : IterOrder String) :
    Delivers s (s.routeMessages order) := by
  obtain ⟨hrouted, hpasses⟩ := routeFrom_delivers s (order.order s.nodeIds)
  refine List.foldlRecOn (motive := Delivers s) _ _ hrouted ?_
  intro t hdelivers m hm
  obtain ⟨hdest, hpass⟩ := hpasses m hm
  by_cases hclient : isClientResponse m.2
  · simpa only [hclient, ↓reduceIte] using hdelivers
  · rw [Bool.or_eq_true, or_iff_right hclient, ← hdelivers.passes] at hpass
    simp only [hclient, Bool.false_eq_true, ↓reduceIte, hdest]
    exact hdelivers.trans (delivers_passes hpass)

theorem drainAllMessages_delivers (s : TestHarness) (order : IterOrder String) :
    Delivers s (s.drainAllMessages order).1 := by
  refine List.foldlRecOn (motive := fun p : TestHarness × List Value => Delivers s p.1) _ _
    (delivers_refl s) ?_
  intro p hdelivers nodeId _
  exact hdelivers.trans (delivers_recv p.1 nodeId)

theorem deliverMessages_delivers (s : TestHarness) (msgs : List Value) :
    Delivers s (s.deliverMessages msgs).1 := by
  refine List.foldlRecOn (motive := fun p : TestHarness × List Value => Delivers s p.1) _ _
    (delivers_refl s) ?_
  intro p hdelivers msg _
  simp only [TestHarness.deliver]
  split
  · exact hdelivers
  · split
    case isTrue hpass =>
      rw [Bool.and_eq_true] at hpass
      exact hdelivers.trans (delivers_passes hpass.2)
    case isFalse => exact hdelivers

theorem recordResponses_delivers (s : TestHarness) (responses : List (Value × U128)) :
    Delivers s (s.recordResponses responses) := by
  refine List.foldlRecOn (motive := Delivers s) _ _ (delivers_refl s) ?_
  intro t hdelivers m _
  exact hdelivers.trans (delivers_of_eq rfl rfl rfl (fun _ => ⟨rfl, rfl⟩) rfl)

theorem sendOperation_delivers {s t : TestHarness} {nodeId opType key : String} {i : Nat}
    {value casFrom casTo : Option Value} {now : U128} (hkilled : s.network.isKilled nodeId = false)
    (h : s.sendOperation nodeId (clientName i) opType key value casFrom casTo now = some t) :
    Delivers s t := by
  obtain ⟨fields, _, rfl⟩ := Option.map_eq_some_iff.mp h
  refine Delivers.trans ?_ (delivers_send hkilled (.inr ⟨i, rfl⟩))
  exact delivers_of_eq rfl rfl rfl (fun _ => ⟨rfl, rfl⟩) rfl

theorem generateOne_delivers {s t : TestHarness} {clientIdx : Nat} {choice : Choice}
    (h : s.generateOne clientIdx choice = some t) : Delivers s t := by
  simp only [TestHarness.generateOne, Option.bind_eq_bind, Option.bind_eq_some_iff] at h
  obtain ⟨targetNode, _, h⟩ := h
  split at h
  case isTrue =>
    cases h
    exact delivers_refl s
  case isFalse hkilled =>
    rw [Bool.not_eq_true] at hkilled
    split at h <;> exact sendOperation_delivers hkilled h

theorem generate_delivers {s t : TestHarness} {choices : List Choice}
    (h : s.generate choices = some t) : Delivers s t := by
  unfold TestHarness.generate at h
  rw [foldlM_eq_run] at h
  refine run_invariant (Delivers s) ?_ (delivers_refl s) h
  intro u c v _ hdelivers hone
  exact hdelivers.trans (generateOne_delivers hone)

theorem nemesisTurn_cases {s t : TestHarness} {nemesisType : String} {turn : Turn}
    (h : s.nemesisTurn nemesisType turn = some t) :
    Delivers s t ∨ ∃ u choice, Delivers s u ∧ u.runNemesis nemesisType choice = some t := by
  simp only [TestHarness.nemesisTurn, Option.bind_eq_bind, Option.bind_eq_some_iff] at h
  obtain ⟨u, hgenerate, hnemesis⟩ := h
  have hdrain := drainAllMessages_delivers s turn.order
  have hdeliver := hdrain.trans (deliverMessages_delivers _ (s.drainAllMessages turn.order).2)
  have hgenerate := (recordResponses_delivers _ _).trans (generate_delivers hgenerate)
  have hdelivers := hdeliver.trans hgenerate
  split at hnemesis
  · cases hnemesis
    exact .inl hdelivers
  · split at hnemesis
    · exact .inr ⟨u, _, hdelivers, hnemesis⟩
    · cases hnemesis
      exact .inl hdelivers

theorem step_cases {nemesisType : String} {s t : TestHarness} {a : Action}
    (h : step nemesisType s a = some t) :
    Delivers s t ∨ (∃ u choice, Delivers s u ∧ u.runNemesis nemesisType choice = some t) ∨
      t = { s with network := s.network.healAll, phase := .waiting } := by
  cases a with
  | emit nodeId line =>
    cases h
    exact .inl (delivers_emit s nodeId _ s.read)
  | route order =>
    have hroute := routeMessages_delivers s order
    have hphase : ∀ phase, Delivers s { s.routeMessages order with phase := phase } :=
      fun phase => hroute.trans (delivers_of_eq rfl rfl rfl (fun _ => ⟨rfl, rfl⟩) rfl)
    simp only [step] at h
    split at h <;> cases h
    all_goals exact .inl (hphase _)
  | turn turn =>
    simp only [step, Option.ite_none_right_eq_some] at h
    obtain hdelivers | hnemesis := nemesisTurn_cases h.2
    · exact .inl hdelivers
    · exact .inr (.inl hnemesis)
  | stop =>
    simp only [step, Option.ite_none_right_eq_some, Option.some.injEq] at h
    exact .inr (.inr h.2.symm)

inductive Attack (s : TestHarness) : TestHarness → Prop
  | none : Attack s s
  | isolate {node : String} (h : node ∈ s.nodeIds) :
    Attack s { s with network := s.network.isolateNode node s.nodeIds }
  | splitBrain : Attack s s.splitBrain
  | kill {node : String} (h : node ∈ s.nodeIds) :
    Attack s { s with
      nodes := Function.update s.nodes node { s.nodes node with alive := false }
      network := s.network.killNode node }

theorem attack_of_isolate {s t : TestHarness} {target : Nat} (h : s.isolate target = some t) :
    Attack s t := by
  obtain ⟨node, hnode, rfl⟩ := Option.map_eq_some_iff.mp h
  exact .isolate (List.mem_of_getElem? hnode)

theorem attack_of_kill {s t : TestHarness} {target : Nat} (h : s.kill target = some t) :
    Attack s t := by
  obtain ⟨node, hnode, rfl⟩ := Option.map_eq_some_iff.mp h
  exact .kill (List.mem_of_getElem? hnode)

theorem attack_cases {s t : TestHarness} {nemesisType : String} {choice : NemesisChoice}
    (h : s.attack nemesisType choice = some t) : Attack s t := by
  unfold TestHarness.attack at h
  split at h
  · split at h
    · exact attack_of_isolate h
    · cases h
      exact .splitBrain
  · exact attack_of_kill h
  · split at h
    · exact attack_of_isolate h
    · exact attack_of_kill h
  · cases h
    exact .none

theorem runNemesis_cases {s t : TestHarness} {nemesisType : String} {choice : NemesisChoice}
    (h : s.runNemesis nemesisType choice = some t) :
    (s.nemesisActive = true ∧ t = { s.healAndRestart with nemesisActive := false }) ∨
      ∃ u, s.nemesisActive = false ∧ Attack s u ∧ t = { u with nemesisActive := true } := by
  unfold TestHarness.runNemesis at h
  split at h
  case isTrue hactive =>
    cases h
    exact .inl ⟨hactive, rfl⟩
  case isFalse hactive =>
    obtain ⟨u, hu, rfl⟩ := Option.map_eq_some_iff.mp h
    exact .inr ⟨u, by simpa using hactive, attack_cases hu, rfl⟩

end OmniPaxosJepsen.Delivery
