import Mathlib.Algebra.Ring.Parity
import OmniPaxosJepsen.Delivery

namespace OmniPaxosJepsen.Nemesis

open Json Common Routing Runs Delivery

section Majority

variable {α : Type}

/-- A part of a list without repetitions that is more than half of it. -/
structure Majority (all part : List α) : Prop where
  nodup : part.Nodup
  subset : part ⊆ all
  more : all.length < 2 * part.length

theorem majority_self {all : List α} (hnodup : all.Nodup) (hsize : 0 < all.length) :
    Majority all all := ⟨hnodup, List.Subset.refl all, by omega⟩

theorem majority_erase [DecidableEq α] {all : List α} (hnodup : all.Nodup)
    (hsize : 3 ≤ all.length) {a : α} (ha : a ∈ all) : Majority all (all.erase a) := by
  refine ⟨hnodup.erase a, List.erase_subset, ?_⟩
  rw [List.length_erase_of_mem ha]
  omega

/-- The half that `split_at` rounds up. -/
theorem majority_drop {all : List α} (hnodup : all.Nodup) (hodd : Odd all.length) :
    Majority all (all.drop (all.length / 2)) := by
  refine ⟨hnodup.sublist (List.drop_sublist _ _), List.drop_subset _ _, ?_⟩
  obtain ⟨k, hk⟩ := hodd
  rw [List.length_drop]
  omega

end Majority

@[simp] theorem isPartitioned_new (a b : String) :
    NetworkSimulator.new.isPartitioned a b = false := rfl

@[simp] theorem isKilled_new (node : String) : NetworkSimulator.new.isKilled node = false := rfl

theorem isolateNode_new_iff (node : String) (nodeIds : List String) (a b : String) :
    (NetworkSimulator.new.isolateNode node nodeIds).isPartitioned a b = true ↔
      (a = node ∧ b ∈ nodeIds ∧ b ≠ node) ∨ (b = node ∧ a ∈ nodeIds ∧ a ≠ node) := by
  simp only [isPartitioned_isolateNode, isPartitioned_new, Bool.false_eq_true, false_or]

theorem splitBrain_new_iff (nodeIds : List String) (a b : String) :
    (NetworkSimulator.new.splitBrain nodeIds).isPartitioned a b = true ↔
      (a ∈ nodeIds.take (nodeIds.length / 2) ∧ b ∈ nodeIds.drop (nodeIds.length / 2)) ∨
        (b ∈ nodeIds.take (nodeIds.length / 2) ∧ a ∈ nodeIds.drop (nodeIds.length / 2)) := by
  simp only [isPartitioned_splitBrain, isPartitioned_new, Bool.false_eq_true, false_or]

/-- The networks that the nemesis leaves: one fault at most. -/
inductive OneFault (nodeIds : List String) : NetworkSimulator → Prop
  | healthy : OneFault nodeIds NetworkSimulator.new
  | isolated {node : String} (h : node ∈ nodeIds) :
    OneFault nodeIds (NetworkSimulator.new.isolateNode node nodeIds)
  | split : OneFault nodeIds (NetworkSimulator.new.splitBrain nodeIds)
  | killed {node : String} (h : node ∈ nodeIds) :
    OneFault nodeIds (NetworkSimulator.new.killNode node)

section OneFault

variable {nodeIds : List String} {network : NetworkSimulator}

theorem OneFault.healAll (h : OneFault nodeIds network) : OneFault nodeIds network.healAll := by
  cases h with
  | healthy => exact .healthy
  | isolated hnode => exact .healthy
  | split => exact .healthy
  | killed hnode => exact .killed hnode

theorem OneFault.killed_le_one (h : OneFault nodeIds network) :
    network.killedNodes.length ≤ 1 := by
  cases h with
  | healthy => exact Nat.zero_le 1
  | isolated hnode => exact Nat.zero_le 1
  | split => exact Nat.zero_le 1
  | killed hnode => exact le_rfl

theorem OneFault.mem_of_killed (h : OneFault nodeIds network) {node : String}
    (hkilled : node ∈ network.killedNodes) : node ∈ nodeIds := by
  cases h with
  | healthy => cases hkilled
  | isolated hnode => cases hkilled
  | split => cases hkilled
  | killed hnode => exact List.mem_singleton.mp hkilled ▸ hnode

theorem OneFault.killed_unpartitioned (h : OneFault nodeIds network) {node : String}
    (hkilled : network.isKilled node = true) (a b : String) :
    network.isPartitioned a b = false := by
  cases h with
  | healthy => rfl
  | isolated hnode => cases hkilled
  | split => cases hkilled
  | killed hnode => rfl

theorem OneFault.symm (h : OneFault nodeIds network) (a b : String) :
    network.isPartitioned a b = network.isPartitioned b a := by
  rw [Bool.eq_iff_iff]
  cases h with
  | healthy => rfl
  | isolated hnode => rw [isolateNode_new_iff, isolateNode_new_iff, or_comm]
  | split => rw [splitBrain_new_iff, splitBrain_new_iff, or_comm]
  | killed hnode => rfl

theorem not_mem_take_drop (hnodup : nodeIds.Nodup) {a : String}
    (htake : a ∈ nodeIds.take (nodeIds.length / 2)) :
    a ∉ nodeIds.drop (nodeIds.length / 2) :=
  fun hdrop => List.disjoint_take_drop hnodup le_rfl htake hdrop

theorem OneFault.irrefl (h : OneFault nodeIds network) (hnodup : nodeIds.Nodup) (a : String) :
    network.isPartitioned a a = false := by
  rw [← Bool.not_eq_true]
  cases h with
  | healthy => simp
  | isolated hnode =>
    rw [isolateNode_new_iff]
    rintro (⟨heq, _, hne⟩ | ⟨heq, _, hne⟩) <;> exact hne heq
  | split =>
    rw [splitBrain_new_iff]
    rintro (⟨htake, hdrop⟩ | ⟨htake, hdrop⟩) <;> exact not_mem_take_drop hnodup htake hdrop
  | killed hnode => exact Bool.false_ne_true

/-- Live nodes that all reach each other. -/
structure Connected (network : NetworkSimulator) (live : List String) : Prop where
  killed : ∀ a ∈ live, network.isKilled a = false
  links : ∀ a ∈ live, ∀ b ∈ live, network.isPartitioned a b = false

theorem OneFault.majority (h : OneFault nodeIds network) (hnodup : nodeIds.Nodup)
    (hodd : Odd nodeIds.length) (hsize : 3 ≤ nodeIds.length) :
    ∃ live, Majority nodeIds live ∧ Connected network live := by
  cases h with
  | healthy =>
    exact ⟨nodeIds, majority_self hnodup (by omega), fun _ _ => rfl, fun _ _ _ _ => rfl⟩
  | @isolated node hnode =>
    refine ⟨nodeIds.erase node, majority_erase hnodup hsize hnode, fun _ _ => rfl,
      fun a ha b hb => ?_⟩
    rw [← Bool.not_eq_true, isolateNode_new_iff]
    rintro (⟨rfl, _⟩ | ⟨rfl, _⟩)
    · exact hnodup.not_mem_erase ha
    · exact hnodup.not_mem_erase hb
  | split =>
    refine ⟨_, majority_drop hnodup hodd, fun _ _ => rfl, fun a ha b hb => ?_⟩
    rw [← Bool.not_eq_true, splitBrain_new_iff]
    rintro (⟨htake, _⟩ | ⟨htake, _⟩)
    · exact not_mem_take_drop hnodup htake ha
    · exact not_mem_take_drop hnodup htake hb
  | @killed node hnode =>
    refine ⟨nodeIds.erase node, majority_erase hnodup hsize hnode, fun a ha => ?_,
      fun _ _ _ _ => rfl⟩
    have hne : a ≠ node := fun heq => hnodup.not_mem_erase (heq ▸ ha)
    rw [isKilled_killNode, isKilled_new, Bool.false_or]
    exact decide_eq_false hne

end OneFault

theorem restart_network (s : TestHarness) (killed : List String) :
    (killed.foldl TestHarness.restart s).network = { s.network with
      killedNodes := s.network.killedNodes.filter (fun node => node ∉ killed) } := by
  induction killed generalizing s with
  | nil => simp
  | cons node killed ih =>
    rw [List.foldl_cons, ih]
    simp [TestHarness.restart, NetworkSimulator.restartNode, List.filter_filter, not_or,
      Bool.and_comm]

theorem healAndRestart_network (s : TestHarness) :
    s.healAndRestart.network = NetworkSimulator.new := by
  rw [TestHarness.healAndRestart, restart_network]
  simp [NetworkSimulator.healAll, NetworkSimulator.new]

theorem restart_nodes (s : TestHarness) (killed : List String) (node : String) :
    (killed.foldl TestHarness.restart s).nodes node =
      if node ∈ killed then NodeProcess.spawn node s.nodeIds else s.nodes node := by
  induction killed generalizing s with
  | nil => simp
  | cons other killed ih =>
    rw [List.foldl_cons, ih]
    by_cases hmem : node ∈ killed
    · simp [hmem, TestHarness.restart]
    · by_cases heq : node = other <;> simp [hmem, heq, TestHarness.restart]

theorem healAndRestart_nodes (s : TestHarness) (node : String) : s.healAndRestart.nodes node =
    if node ∈ s.network.killedNodes then NodeProcess.spawn node s.nodeIds else s.nodes node :=
  restart_nodes { s with network := s.network.healAll } s.network.killedNodes node

theorem healAndRestart_nodeIds (s : TestHarness) : s.healAndRestart.nodeIds = s.nodeIds :=
  List.foldlRecOn (motive := fun t : TestHarness => t.nodeIds = s.nodeIds) _ _ rfl
    (fun _ hnodeIds _ _ => hnodeIds)

structure Inv (ids : List String) (s : TestHarness) : Prop where
  nodeIds : s.nodeIds = ids
  faults : OneFault ids s.network
  idle : s.nemesisActive = false → s.network = NetworkSimulator.new

variable {ids : List String}

theorem Inv.delivers {s t : TestHarness} (h : Inv ids s) (hdelivers : Delivers s t) :
    Inv ids t := by
  refine ⟨hdelivers.nodeIds.trans h.nodeIds, ?_, fun hidle => ?_⟩
  · rw [hdelivers.network]
    exact h.faults
  · rw [hdelivers.network]
    exact h.idle (hdelivers.nemesisActive ▸ hidle)

theorem Inv.runNemesis {s t : TestHarness} {nemesisType : String} {choice : NemesisChoice}
    (h : Inv ids s) (hrun : s.runNemesis nemesisType choice = some t) : Inv ids t := by
  obtain ⟨_, rfl⟩ | ⟨u, hidle, hattack, rfl⟩ := runNemesis_cases hrun
  · have hnew := healAndRestart_network s
    refine ⟨(healAndRestart_nodeIds s).trans h.nodeIds, ?_, fun _ => hnew⟩
    exact hnew ▸ .healthy
  · have hnew := h.idle hidle
    obtain rfl := h.nodeIds
    cases hattack with
    | none => exact ⟨rfl, h.faults, nofun⟩
    | isolate hnode => exact ⟨rfl, hnew ▸ .isolated hnode, nofun⟩
    | splitBrain =>
      have hsplit : OneFault s.nodeIds (s.network.splitBrain s.nodeIds) := hnew ▸ .split
      exact ⟨rfl, hsplit, nofun⟩
    | kill hnode => exact ⟨rfl, hnew ▸ .killed hnode, nofun⟩

theorem Inv.step {s t : TestHarness} {nemesisType : String} {a : Action} (h : Inv ids s)
    (hstep : step nemesisType s a = some t) : Inv ids t := by
  obtain hdelivers | ⟨u, choice, hdelivers, hrun⟩ | rfl := step_cases hstep
  · exact h.delivers hdelivers
  · exact (h.delivers hdelivers).runNemesis hrun
  · refine ⟨h.nodeIds, h.faults.healAll, fun hidle => ?_⟩
    have hnew := h.idle hidle
    exact congrArg NetworkSimulator.healAll hnew

theorem inv_run {s t : TestHarness} {nemesisType : String} {acts : List Action}
    (hnetwork : s.network = NetworkSimulator.new)
    (hrun : run (step nemesisType) s acts = some t) : Inv s.nodeIds t := by
  have hinit : Inv s.nodeIds s := ⟨rfl, hnetwork ▸ .healthy, fun _ => hnetwork⟩
  exact run_invariant (Inv s.nodeIds) (fun _ _ _ _ h hstep => h.step hstep) hinit hrun

/-- However long the nemesis runs, at most one node is killed, and then no link is blocked;
blocked links are blocked both ways; healing leaves no fault; and more than half of the
nodes are live and reach each other. -/
theorem majority_connected {nemesisType : String} {s₀ s : TestHarness} {acts : List Action}
    (hnodup : s₀.nodeIds.Nodup) (hodd : Odd s₀.nodeIds.length) (hsize : 3 ≤ s₀.nodeIds.length)
    (hnetwork : s₀.network = NetworkSimulator.new)
    (hrun : run (step nemesisType) s₀ acts = some s) :
    s.network.killedNodes.length ≤ 1 ∧
    (∀ node, s.network.isKilled node = true → ∀ a b, s.network.isPartitioned a b = false) ∧
    (∀ (u : TestHarness) choice t, u.nemesisActive = true →
      u.runNemesis nemesisType choice = some t →
      (∀ a b, t.network.isPartitioned a b = false) ∧ ∀ node, t.network.isKilled node = false) ∧
    (∀ a b, s.network.isPartitioned a b = s.network.isPartitioned b a) ∧
    (∀ a, s.network.isPartitioned a a = false) ∧
    ∃ live, Majority s.nodeIds live ∧ Connected s.network live := by
  have hinv := inv_run hnetwork hrun
  refine ⟨hinv.faults.killed_le_one, fun _ => hinv.faults.killed_unpartitioned,
    fun u choice t hactive hheal => ?_, hinv.faults.symm, hinv.faults.irrefl hnodup, ?_⟩
  · obtain ⟨_, rfl⟩ | ⟨_, hidle, _⟩ := runNemesis_cases hheal
    · have hnew := healAndRestart_network u
      exact ⟨fun a b => by simp [hnew], fun node => by simp [hnew]⟩
    · rw [hactive] at hidle
      cases hidle
  · rw [hinv.nodeIds]
    exact hinv.faults.majority hnodup hodd hsize

def killTurn : Turn :=
  { order := .reverse, clock := fun _ => 0, choices := [], nemesis := some ⟨false, 1⟩ }

theorem majority_connected_killed : ∃ s,
    run (step "all") (TestHarness.new 3) [.route .reverse, .route .reverse, .turn killTurn,
      .turn killTurn, .turn killTurn] = some s ∧
    s.network.killedNodes = ["n1"] ∧ s.network.killedNodes.length ≤ 1 ∧
    ∃ live, Majority s.nodeIds live ∧ Connected s.network live := by
  have hkilled : (run (step "all") (TestHarness.new 3) [.route .reverse, .route .reverse,
      .turn killTurn, .turn killTurn, .turn killTurn]).map (fun s => s.network.killedNodes) =
        some ["n1"] := by
    decide +kernel
  obtain ⟨s, hrun, hs⟩ := Option.map_eq_some_iff.mp hkilled
  obtain ⟨hone, _, _, _, _, hlive⟩ :=
    majority_connected (by decide) (by decide) (by decide) rfl hrun
  exact ⟨s, hrun, hs, hone, hlive⟩

end OmniPaxosJepsen.Nemesis
