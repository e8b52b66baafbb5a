import OmniPaxosJepsen.HarnessCheck
import OmniPaxosJepsen.LostResponses
import OmniPaxosJepsen.ProgramHarness
import OmniPaxosJepsen.RecordedHistory

namespace OmniPaxosJepsen.EndToEnd

open Json KvSpec Node Checker EventLoop NodeLines Totals Refinement Traffic Program ProgramNodes
  ProgramHarness Runs
open Delivery (Delivers)
open FaultInjection (Enforced enforced_new)
open Harness (HarnessState)
open HarnessCheck (Complete)
open HarnessHistory (log_known run_recorded)
open HarnessIds (Requested)
open HarnessStep (Grounded grounded_init step_grounded)
open HistorySpec (Linearizable operations)
open NodeNames (maelstromToOpId)
open Answers (log_ids_nodup)
open RecordedHistory (accepted_of_recorded linearizable_of_recorded)
open Routing (TestHarness nodeName)

variable {lib : Library} {nemesisType : String} {ids : List String} {s t : TestRun}
  {u v : HarnessState}

/-- What is assumed of a state: the commands that were forwarded are read back, and no node was
started anew. -/
structure Trusted (lib : Library) (s : TestRun) : Prop where
  faithful : Faithful lib s.forwarded
  kept : s.restarted = false

theorem sendAndProcess_eq {n : String} {outgoing : List NodeNames.Outgoing} {newDecidedIdx : Nat}
    {readDecidedSuffix : Nat → Option (List LogEntry)}
    (h : s.sendAndProcess lib n outgoing newDecidedIdx readDecidedSuffix = some t) :
    ∃ process, t = s.setProcess n process ∧ process.handled = (s.processes n).handled := by
  simp only [TestRun.sendAndProcess, Option.bind_eq_bind, Option.bind_eq_some_iff,
    Option.ite_none_right_eq_some] at h
  obtain ⟨node, _, _, h⟩ := h
  split at h <;> cases h
  all_goals exact ⟨_, rfl, rfl⟩

theorem step_restarted {a : Program.Action} (h : Program.step lib nemesisType s a = some t) :
    t.restarted = s.restarted ∨
      nemesisType ≠ "none" ∧ (t.restarted = false → s.restarted = false) := by
  cases a with
  | line nodeId append =>
    simp only [Program.step, TestRun.takeLine, Option.bind_eq_bind, Option.bind_eq_some_iff] at h
    obtain ⟨_, _, _, _, h⟩ := h
    split at h <;> cases h
    all_goals exact .inl rfl
  | tick nodeId append =>
    simp only [Program.step, TestRun.takeTick, Option.bind_eq_bind, Option.pure_def,
      Option.bind_eq_some_iff, Option.some.injEq] at h
    obtain ⟨_, _, rfl⟩ := h
    exact .inl rfl
  | finish nodeId outgoing newDecidedIdx =>
    obtain ⟨_, h⟩ := Option.ite_none_right_eq_some.mp h
    obtain ⟨_, rfl, _⟩ := sendAndProcess_eq h
    exact .inl rfl
  | finishAnew nodeId outgoing newDecidedIdx decided =>
    obtain ⟨_, h⟩ := Option.ite_none_right_eq_some.mp h
    obtain ⟨_, rfl, _⟩ := sendAndProcess_eq h
    exact .inl rfl
  | decide i =>
    obtain ⟨_, _, rfl⟩ := Option.map_eq_some_iff.mp h
    exact .inl rfl
  | read nodeId =>
    simp only [Program.step, TestRun.readLine] at h
    split at h <;> cases h
    exact .inl rfl
  | cut nodeId kept broken =>
    obtain ⟨_, h⟩ := Option.ite_none_right_eq_some.mp h
    cases h
    exact .inl rfl
  | route order =>
    obtain ⟨_, _, rfl⟩ := Option.map_eq_some_iff.mp h
    exact .inl rfl
  | drain order clock =>
    obtain ⟨_, h⟩ := Option.ite_none_right_eq_some.mp h
    obtain ⟨_, rfl⟩ := clocked_eq_some h
    exact .inl rfl
  | generate choice =>
    simp only [Program.step, TestRun.generate, Option.bind_eq_bind, Option.bind_eq_some_iff] at h
    obtain ⟨_, _, _, _, h⟩ := h
    obtain ⟨_, rfl⟩ := clocked_eq_some h
    exact .inl rfl
  | nemesis choice =>
    simp only [Program.step, TestRun.nemesis, Option.bind_eq_bind, Option.bind_eq_some_iff] at h
    obtain ⟨_, _, h⟩ := h
    split at h
    · cases h
      exact .inl rfl
    · next hnemesis =>
      split at h
      · cases h
        exact .inl rfl
      · simp only [Option.bind_eq_some_iff, Option.pure_def, Option.some.injEq] at h
        obtain ⟨_, _, rfl⟩ := h
        exact .inr ⟨hnemesis, fun hkept => (Bool.or_eq_false_iff.mp hkept).1⟩
  | stop =>
    obtain ⟨_, h⟩ := Option.ite_none_right_eq_some.mp h
    obtain ⟨_, _, rfl⟩ := Option.map_eq_some_iff.mp h
    exact .inl rfl

/-- Every step of the program is some steps of the abstract harness. -/
theorem step_refines {a : Program.Action} (hsane : Sane ids s) (hs : Refines lib ids 0 s u)
    (hg : Grounded ids.toFinset u) (htrusted : Trusted lib t)
    (h : Program.step lib nemesisType s a = some t) :
    ∃ v, Reaches (Harness.step ids.toFinset) u v ∧ Refines lib ids 0 t v := by
  have hlib := htrusted.faithful
  cases a with
  | line nodeId append => exact takeLine_refines hsane hs hg hlib h
  | tick nodeId append => exact takeTick_refines hsane hs hg hlib h
  | finish nodeId outgoing newDecidedIdx => exact finish_refines hsane hs hg h
  | finishAnew nodeId outgoing newDecidedIdx decided =>
    obtain ⟨hrestarted, h⟩ := Option.ite_none_right_eq_some.mp h
    obtain ⟨_, rfl, _⟩ := sendAndProcess_eq h
    exact absurd (hrestarted.symm.trans htrusted.kept) (by simp)
  | decide i =>
    obtain ⟨cmd, hcmd, rfl⟩ := Option.map_eq_some_iff.mp h
    exact decide_refines hs hcmd
  | read nodeId => exact ⟨u, .refl u, readLine_refines hs h⟩
  | cut nodeId kept broken =>
    simp only [Program.step, Option.ite_none_right_eq_some, Option.some.injEq] at h
    obtain ⟨⟨hmem, _⟩, rfl⟩ := h
    exact cut_refines hs (hsane.faults.nodeIds ▸ hmem) kept broken
  | route order =>
    obtain ⟨harness, hroute, rfl⟩ := Option.map_eq_some_iff.mp h
    obtain ⟨v, hreach, hv⟩ := routeMessages_refines hsane hs order
    have hphase : ∀ phase, Refines lib ids 0
        (withHarness s { s.harness.routeMessages order with phase := phase }) v :=
      fun phase => ⟨hv.same.of_eq (fun _ => ⟨rfl, rfl⟩) rfl rfl rfl rfl rfl, hv.carried⟩
    simp only [Routing.step] at hroute
    split at hroute <;> cases hroute
    all_goals exact ⟨v, hreach, hphase _⟩
  | drain order clock => exact turn_refines hsane hs h
  | generate choice => exact generate_refines hsane hs h
  | nemesis choice => exact nemesis_refines hsane hs h htrusted.kept
  | stop =>
    simp only [Program.step, Option.ite_none_right_eq_some, Option.map_eq_some_iff, Routing.step,
      Option.some.injEq] at h
    obtain ⟨_, harness, ⟨_, rfl⟩, rfl⟩ := h
    refine ⟨u, .refl u, ?_, ?_⟩
    · exact hs.same.of_eq (fun _ => ⟨rfl, rfl⟩) rfl rfl rfl rfl rfl
    · exact hs.carried

theorem Sane.of_process {n : String} {process : Process} (h : Sane ids s)
    (hharness : t.harness = s.harness)
    (hprocesses : t.processes = Function.update s.processes n process)
    (hhandled : process.handled ≤ (s.harness.nodes n).stdin.length) : Sane ids t := by
  refine ⟨hharness ▸ h.enforced, hharness ▸ h.faults, fun m => ?_⟩
  by_cases hm : m = n
  · subst hm
    rw [hprocesses, hharness, Function.update_self]
    exact hhandled
  · rw [hprocesses, hharness, Function.update_of_ne hm]
    exact h.handled m

theorem takeLine_sane {n : String} {append : AppendResult} (hsane : Sane ids s)
    (h : s.takeLine lib n append = some t) : Sane ids t ∧ s.forwarded <+: t.forwarded := by
  simp only [TestRun.takeLine, Option.bind_eq_bind, Option.bind_eq_some_iff] at h
  obtain ⟨node, _, msg, hmsg, h⟩ := h
  have hlt := (List.getElem?_eq_some_iff.mp hmsg).1
  split at h <;> cases h
  · exact ⟨Sane.of_process hsane rfl rfl (hsane.handled n), List.prefix_rfl⟩
  · exact ⟨Sane.of_process hsane rfl rfl hlt, List.prefix_append _ _⟩

theorem readLine_sane {n : String} (hsane : Sane ids s) (h : s.readLine n = some t) :
    Sane ids t ∧ s.forwarded <+: t.forwarded := by
  unfold TestRun.readLine at h
  split at h
  · cases h
  · next line pipe _ =>
    cases h
    have hset : Sane ids (s.setProcess n { s.processes n with pipe := pipe }) :=
      Sane.of_process hsane rfl rfl (hsane.handled n)
    have hemit := Delivery.delivers_emit s.harness n
      ((s.harness.nodes n).stdoutRx ++ [line]) s.harness.read
    exact ⟨Sane.delivers hset hemit rfl, List.prefix_rfl⟩

theorem Sane.respawn {harness : TestHarness} {choice : Routing.NemesisChoice}
    {late : String → Bool} (hsane : Sane ids s)
    (h : s.harness.runNemesis nemesisType choice = some harness) :
    Sane ids (s.respawn lib harness late) := by
  refine ⟨hsane.enforced.runNemesis h, hsane.faults.runNemesis h, fun m => ?_⟩
  obtain ⟨_, rfl⟩ | ⟨harness, _, hattack, rfl⟩ := Delivery.runNemesis_cases h
  · change (if s.anew s.harness.healAndRestart m then _ else s.processes m).handled ≤
      (s.harness.healAndRestart.nodes m).stdin.length
    rw [Nemesis.healAndRestart_nodes]
    by_cases hkilled : m ∈ s.harness.network.killedNodes
    · rw [if_pos (heal_anew hsane hkilled), if_pos hkilled]
      exact le_rfl
    · have hold : s.anew s.harness.healAndRestart m = false := by
        rw [TestRun.anew, Nemesis.healAndRestart_nodes, if_neg hkilled, Bool.not_and_self]
      rw [hold, if_neg hkilled]
      exact hsane.handled m
  · obtain ⟨halive, hstdin⟩ := attack_nodes hattack
    have hrespawn : s.respawn lib { harness with nemesisActive := true } late =
        withHarness s { harness with nemesisActive := true } := respawn_of_alive late halive
    rw [hrespawn]
    exact hstdin m ▸ hsane.handled m

theorem nemesis_sane {choice : Option (Routing.NemesisChoice × (String → Bool))}
    (hsane : Sane ids s) (h : s.nemesis lib nemesisType choice = some t) :
    Sane ids t ∧ s.forwarded <+: t.forwarded := by
  simp only [TestRun.nemesis, Option.bind_eq_bind, Option.bind_eq_some_iff] at h
  obtain ⟨_, _, h⟩ := h
  have hidle : Sane ids { s with clientIdx := none } :=
    ⟨hsane.enforced, hsane.faults, hsane.handled⟩
  split at h
  · cases h
    exact ⟨hidle, List.prefix_rfl⟩
  · split at h
    · cases h
      exact ⟨hidle, List.prefix_rfl⟩
    · next choice late =>
      simp only [Option.bind_eq_some_iff, Option.pure_def, Option.some.injEq] at h
      obtain ⟨harness, hrun, rfl⟩ := h
      have hrespawn : Sane ids (s.respawn lib harness late) := Sane.respawn hsane hrun
      exact ⟨⟨hrespawn.enforced, hrespawn.faults, hrespawn.handled⟩, List.prefix_rfl⟩

theorem step_sane {a : Program.Action} (hsane : Sane ids s)
    (h : Program.step lib nemesisType s a = some t) :
    Sane ids t ∧ s.forwarded <+: t.forwarded := by
  cases a with
  | line nodeId append => exact takeLine_sane hsane h
  | tick nodeId append =>
    simp only [Program.step, TestRun.takeTick, Option.bind_eq_bind, Option.pure_def,
      Option.bind_eq_some_iff, Option.some.injEq] at h
    obtain ⟨node, _, rfl⟩ := h
    exact ⟨Sane.of_process hsane rfl rfl (hsane.handled nodeId), List.prefix_append _ _⟩
  | finish nodeId outgoing newDecidedIdx =>
    obtain ⟨_, h⟩ := Option.ite_none_right_eq_some.mp h
    obtain ⟨_, rfl, hhandled⟩ := sendAndProcess_eq h
    exact ⟨Sane.of_process hsane rfl rfl (hhandled ▸ hsane.handled nodeId), List.prefix_rfl⟩
  | finishAnew nodeId outgoing newDecidedIdx decided =>
    obtain ⟨_, h⟩ := Option.ite_none_right_eq_some.mp h
    obtain ⟨_, rfl, hhandled⟩ := sendAndProcess_eq h
    exact ⟨Sane.of_process hsane rfl rfl (hhandled ▸ hsane.handled nodeId), List.prefix_rfl⟩
  | decide i =>
    obtain ⟨cmd, _, rfl⟩ := Option.map_eq_some_iff.mp h
    exact ⟨⟨hsane.enforced, hsane.faults, hsane.handled⟩, List.prefix_rfl⟩
  | read nodeId => exact readLine_sane hsane h
  | cut nodeId kept broken =>
    simp only [Program.step, Option.ite_none_right_eq_some, Option.some.injEq] at h
    obtain ⟨_, rfl⟩ := h
    exact ⟨Sane.of_process hsane rfl rfl (hsane.handled nodeId), List.prefix_rfl⟩
  | route order =>
    obtain ⟨harness, hroute, rfl⟩ := Option.map_eq_some_iff.mp h
    have hphase : ∀ phase, Delivers s.harness
        { s.harness.routeMessages order with phase := phase } :=
      fun phase => (Delivery.routeMessages_delivers s.harness order).trans
        (Delivery.delivers_of_eq rfl rfl rfl (fun _ => ⟨rfl, rfl⟩) rfl)
    simp only [Routing.step] at hroute
    split at hroute <;> cases hroute
    all_goals exact ⟨Sane.delivers hsane (hphase _) rfl, List.prefix_rfl⟩
  | drain order clock =>
    simp only [Program.step, TestRun.drain, Option.ite_none_right_eq_some] at h
    obtain ⟨_, rfl⟩ := clocked_eq_some h.2
    have hdrain := Delivery.drainAllMessages_delivers s.harness order
    have hdeliver := hdrain.trans
      (Delivery.deliverMessages_delivers _ (s.harness.drainAllMessages order).2)
    exact ⟨Sane.delivers hsane (hdeliver.trans (Delivery.recordResponses_delivers _ _)) rfl,
      List.prefix_rfl⟩
  | generate choice =>
    simp only [Program.step, TestRun.generate, Option.bind_eq_bind, Option.bind_eq_some_iff] at h
    obtain ⟨clientIdx, _, harness, hgenerate, h⟩ := h
    obtain ⟨_, rfl⟩ := clocked_eq_some h
    have hdelivers := Delivery.generateOne_delivers hgenerate
    exact ⟨Sane.delivers hsane hdelivers rfl, List.prefix_rfl⟩
  | nemesis choice => exact nemesis_sane hsane h
  | stop =>
    simp only [Program.step, Option.ite_none_right_eq_some, Option.map_eq_some_iff, Routing.step,
      Option.some.injEq] at h
    obtain ⟨_, harness, ⟨_, rfl⟩, rfl⟩ := h
    have hidle := fun hactive => congrArg Routing.NetworkSimulator.healAll
      (hsane.faults.idle hactive)
    exact ⟨⟨hsane.enforced.healAll .waiting,
      ⟨hsane.faults.nodeIds, hsane.faults.faults.healAll, hidle⟩, hsane.handled⟩, List.prefix_rfl⟩

def nodeIds (size : UInt64) : List String := (TestHarness.new size.toNat).nodeIds

theorem sane_init (lib : Library) (size : UInt64) :
    Sane (nodeIds size) (Program.init lib size.toNat) :=
  ⟨enforced_new size.toNat, ⟨rfl, .healthy, fun _ => rfl⟩, fun _ => le_rfl⟩

theorem spawn_node (lib : Library) (nodeId : String) (ids : List String) :
    (Process.spawn lib nodeId ids false).node =
      if built lib ids nodeId then some (MaelstromNode.new nodeId) else none := by
  cases hnode : (Process.spawn lib nodeId ids false).node with
  | none => rw [built, hnode, Option.isSome_none, if_neg Bool.false_ne_true]
  | some node =>
    rw [built, hnode, Option.isSome_some, if_pos rfl]
    rw [Process.spawn, startup_initMessage] at hnode
    simp only [Option.bind_some, Option.bind_eq_some_iff, Option.ite_none_right_eq_some] at hnode
    obtain ⟨_, _, _, _, _, hnew⟩ := hnode
    exact hnew.symm

theorem built_of_builds (hbuild : Builds lib) {size : UInt64} (hsize : 1 < size) {n : String}
    (hn : n ∈ nodeIds size) : built lib (nodeIds size) n = true := by
  obtain ⟨i, hi, rfl⟩ := List.mem_map.mp hn
  have hlt := List.mem_range.mp hi
  have hids : (nodeIds size).mapM maelstromToOpId =
      some ((List.range size.toNat).map (fun i => UInt64.ofNat i + 1)) :=
    mapM_nodeName (fun i hi => List.mem_range.mp hi)
  rw [built, Process.spawn, startup_initMessage, Option.bind_some,
    (NodeNames.maelstromToOpId_index hlt).1, hids]
  simp [build_nodeName hbuild hsize hlt]

theorem refines_init (lib : Library) (size : UInt64) :
    Refines lib (nodeIds size) 0 (Program.init lib size.toNat) Harness.init := by
  have hout : unread (Program.init lib size.toNat) = fun _ => [] := rfl
  have hinp : unhandled (Program.init lib size.toNat) = fun _ => [] := rfl
  have htotal : total (nodeIds size) (fun _ => ([] : List Value)) = 0 := total_nil (fun _ _ => rfl)
  constructor
  · exact ⟨fun n hn => spawn_node lib n (nodeIds size), fun _ _ => rfl, rfl, rfl, rfl, rfl, rfl,
      rfl⟩
  · rw [hout, hinp]
    constructor <;> simp [htotal, Harness.init, Cluster.init]

def writeCommand : MaelstromCommand := ⟨"n1", "c0", 1, .write "key0" (.u64 5)⟩

def writeText : String := "\x7b\"coordinator\":\"n1\",\"client_src\":\"c0\",\"msg_id\":1,\"op\":" ++
  "\x7b\"Write\":[\"key0\",5]\x7d\x7d"

def writeLibrary : Library :=
  { render := fun cmd => if cmd = writeCommand then writeText else ""
    fromStr := fun text => if text = writeText then some writeCommand else none
    isMessage := fun _ => false
    build := fun id ids => id ≠ 0 ∧ id ∈ ids ∧ 1 < ids.length }

/-- A write is sent to `n1`, which forwards it to the leader `n0`; it is decided and applied, its
response is recorded, and then `n1` is killed. -/
def forwardedWrite : List Program.Action :=
  [.route .reverse, .route .reverse, .drain .reverse (fun _ => 0), .generate ⟨0, 1, .write 5, 1⟩,
    .nemesis none, .line "n1" (.err (some 1)), .finish "n1" [] 0, .read "n1",
    .drain .reverse (fun _ => 0), .nemesis none, .line "n0" .ok, .finish "n0" [] 0, .decide 0,
    .tick "n1" (fun _ => .ok), .finish "n1" [] 1, .read "n1", .drain .reverse (fun _ => 2),
    .nemesis (some (⟨false, 1⟩, fun _ => false)), .tick "n0" (fun _ => .ok), .finish "n0" [] 1]

theorem forwardedWrite_run : ∃ s, run (Program.step writeLibrary "kill")
    (Program.init writeLibrary (2 : UInt64).toNat) forwardedWrite = some s ∧
      s.forwarded = [writeCommand] ∧ s.restarted = false ∧ s.log = [writeCommand] ∧
      s.harness.network.killedNodes = ["n1"] ∧ Complete s.harness.history ∧
      s.harness.history.map (fun e => (e.id, e.eventType)) = [(1, "invoke"), (1, "ok")] := by
  have hrun : (run (Program.step writeLibrary "kill")
      (Program.init writeLibrary (2 : UInt64).toNat) forwardedWrite).any (fun s =>
        s.forwarded = [writeCommand] ∧ s.restarted = false ∧ s.log = [writeCommand] ∧
        s.harness.network.killedNodes = ["n1"] ∧ Complete s.harness.history ∧
        s.harness.history.map (fun e => (e.id, e.eventType)) = [(1, "invoke"), (1, "ok")]) =
          true := by
    decide +kernel
  obtain ⟨s, hs, hprop⟩ := (Option.any_eq_true _ _).mp hrun
  exact ⟨s, hs, of_decide_eq_true hprop⟩

theorem writeLibrary_faithful : Faithful writeLibrary [writeCommand] := by
  intro cmd hcmd
  obtain rfl := List.mem_singleton.mp hcmd
  decide +kernel

theorem writeLibrary_builds : Builds writeLibrary := by
  intro id ids hmem hzero _ hlen
  exact decide_eq_true ⟨fun hid => hzero (hid ▸ hmem), hmem, hlen⟩

/-- What is assumed after a step was assumed before it. -/
theorem step_trusted {a : Program.Action} (hsane : Sane ids s)
    (h : Program.step lib nemesisType s a = some t) :
    Sane ids t ∧ (Trusted lib t → Trusted lib s) := by
  obtain ⟨hsane', hforwarded⟩ := step_sane hsane h
  refine ⟨hsane', fun htrusted => ⟨fun cmd hcmd => ?_, ?_⟩⟩
  · exact htrusted.faithful cmd (hforwarded.subset hcmd)
  · obtain hsame | ⟨_, hkept⟩ := step_restarted h
    · exact hsame ▸ htrusted.kept
    · exact hkept htrusted.kept

section Run

variable (size : UInt64) {acts : List Program.Action}

theorem run_refines
    (hrun : run (Program.step lib nemesisType) (Program.init lib size.toNat) acts = some s)
    (hlib : Faithful lib s.forwarded) (hkept : s.restarted = false) :
    ∃ u, Reaches (Harness.step (nodeIds size).toFinset) Harness.init u ∧
      Refines lib (nodeIds size) 0 s u := by
  have hsim : Simulates (Program.step lib nemesisType) (Harness.step (nodeIds size).toFinset)
      (fun s u => Grounded (nodeIds size).toFinset u ∧ Refines lib (nodeIds size) 0 s u)
      (Sane (nodeIds size)) (Trusted lib) (fun _ => True) := by
    rintro s a t u _ hsane htrusted ⟨hg, hs⟩ hstep
    obtain ⟨v, hreach, hv⟩ := step_refines hsane hs hg htrusted hstep
    exact ⟨v, hreach, hreach.keeps (fun _ _ _ => step_grounded) hg, hv⟩
  obtain ⟨u, hreach, _, hu⟩ := hsim.run (fun _ _ _ => step_trusted) (fun _ _ => trivial)
    (sane_init lib size) ⟨grounded_init _, refines_init lib size⟩ hrun ⟨hlib, hkept⟩
  exact ⟨u, hreach, hu⟩

/-- The program refines the abstract harness: what its processes do, one line after another, some
steps of the cluster and its clients do. The requests, responses and forwards that are on their way
there are those in the lines that the nodes have to handle and the harness has to read. -/
theorem program_refines
    (hrun : run (Program.step lib nemesisType) (Program.init lib size.toNat) acts = some s)
    (hlib : Faithful lib s.forwarded) (hkept : s.restarted = false) :
    ∃ acts' u, run (Harness.step (nodeIds size).toFinset) Harness.init acts' = some u ∧
      (∀ n ∈ nodeIds size, (s.processes n).node =
          (if built lib (nodeIds size) n then some (u.cluster.nodes n) else none) ∧
        (s.processes n).opDecidedIdx = u.cluster.opDecidedIdx n) ∧
      s.log = u.cluster.log ∧ s.appended = u.cluster.appended ∧ s.harness.history = u.history ∧
      s.harness.nextOpId = u.nextOpId ∧ s.harness.network.killedNodes = u.killedNodes ∧
      (u.stdin : Multiset (String × Value)) =
        (total (nodeIds size) (unhandled s)).filterMap request ∧
      (u.stdout : Multiset (String × Value)) =
        (total (nodeIds size) (unread s)).filterMap response ∧
      (u.cluster.inFlight : Multiset (String × MaelstromCommand)) =
        (total (nodeIds size) (unread s) + total (nodeIds size) (unhandled s)).filterMap
          (forward lib) := by
  obtain ⟨u, ⟨acts', hreach⟩, hsame, hcarried⟩ := run_refines size hrun hlib hkept
  have hstdout := hcarried.stdout
  have hinFlight := hcarried.inFlight
  rw [zero_add] at hstdout hinFlight
  exact ⟨acts', u, hreach, fun n hn => ⟨hsame.nodes n hn, hsame.opDecidedIdx n hn⟩, hsame.log,
    hsame.appended, hsame.history, hsame.nextOpId, hsame.killedNodes, hcarried.stdin, hstdout,
    hinFlight⟩

theorem program_refines_forwardedWrite : ∃ s acts' u,
    run (Program.step writeLibrary "kill") (Program.init writeLibrary (2 : UInt64).toNat)
      forwardedWrite = some s ∧ s.log = [writeCommand] ∧
      run (Harness.step (nodeIds 2).toFinset) Harness.init acts' = some u ∧
      u.cluster.log = [writeCommand] ∧ u.killedNodes = ["n1"] ∧ s.harness.history = u.history := by
  obtain ⟨s, hrun, hforwarded, hkept, hlog, hkilled, _⟩ := forwardedWrite_run
  obtain ⟨acts', u, hreach, _, hsame, _, hhistory, _, hdead, _⟩ :=
    program_refines 2 hrun (hforwarded ▸ writeLibrary_faithful) hkept
  exact ⟨s, acts', u, hrun, hlog, hreach, hsame.symm.trans hlog, hdead.symm.trans hkilled, hhistory⟩

/-- As long as no node is started anew, whatever the nodes, the network and the nemesis do, the
recorded history is linearizable. -/
theorem program_linearizable
    (hrun : run (Program.step lib nemesisType) (Program.init lib size.toNat) acts = some s)
    (hlib : Faithful lib s.forwarded) (hkept : s.restarted = false) :
    Linearizable (operations s.harness.history) := by
  obtain ⟨u, ⟨acts', hreach⟩, hu⟩ := run_refines size hrun hlib hkept
  obtain ⟨hg, hn, hr⟩ := run_recorded hreach
  rw [hu.same.history]
  exact linearizable_of_recorded hg hn hr

theorem program_linearizable_forwardedWrite : ∃ s,
    run (Program.step writeLibrary "kill") (Program.init writeLibrary (2 : UInt64).toNat)
      forwardedWrite = some s ∧
      s.harness.history.map (fun e => (e.id, e.eventType)) = [(1, "invoke"), (1, "ok")] ∧
      Linearizable (operations s.harness.history) := by
  obtain ⟨s, hrun, hforwarded, hkept, _, _, _, hhistory⟩ := forwardedWrite_run
  exact ⟨s, hrun, hhistory,
    program_linearizable 2 hrun (hforwarded ▸ writeLibrary_faithful) hkept⟩

/-- The check of a history in which every operation is answered passes. -/
theorem program_accepted (iter : Checker.IterOrder)
    (hrun : run (Program.step lib nemesisType) (Program.init lib size.toNat) acts = some s)
    (hlib : Faithful lib s.forwarded) (hkept : s.restarted = false)
    (hdone : Complete s.harness.history) :
    checkLinearizability iter s.harness.history = some (.ok ()) := by
  obtain ⟨u, ⟨acts', hreach⟩, hu⟩ := run_refines size hrun hlib hkept
  obtain ⟨hg, hn, hr⟩ := run_recorded hreach
  rw [hu.same.history] at hdone ⊢
  exact accepted_of_recorded hg hn hr hdone iter

theorem program_accepted_forwardedWrite : ∃ s,
    run (Program.step writeLibrary "kill") (Program.init writeLibrary (2 : UInt64).toNat)
      forwardedWrite = some s ∧
      s.harness.history.map (fun e => (e.id, e.eventType)) = [(1, "invoke"), (1, "ok")] ∧
      checkLinearizability ⟨fun l => l, List.Perm.refl⟩ s.harness.history = some (.ok ()) := by
  obtain ⟨s, hrun, hforwarded, hkept, _, _, hdone, hhistory⟩ := forwardedWrite_run
  exact ⟨s, hrun, hhistory,
    program_accepted 2 _ hrun (hforwarded ▸ writeLibrary_faithful) hkept hdone⟩

/-- No node process panics; each has applied a prefix of the log that OmniPaxos has decided; and
every entry of the log is an operation that was invoked, and no operation is there twice. -/
theorem program_replicates (hbuild : Builds lib) (hsize : 1 < size)
    (hrun : run (Program.step lib nemesisType) (Program.init lib size.toNat) acts = some s)
    (hlib : Faithful lib s.forwarded) (hkept : s.restarted = false) :
    (∀ n ∈ nodeIds size, ∃ node, (s.processes n).node = some node ∧ node.nodeId = n ∧
      node.decidedIdx ≤ (s.processes n).opDecidedIdx ∧
      (s.processes n).opDecidedIdx ≤ s.log.length ∧
      node.kvStore = replay emptyStore ((s.log.take node.decidedIdx).map MaelstromCommand.op)) ∧
    (∀ cmd ∈ s.log, Requested s.harness.history cmd) ∧
    (s.log.map MaelstromCommand.msgId).Nodup := by
  obtain ⟨u, ⟨acts', hreach⟩, hu⟩ := run_refines size hrun hlib hkept
  obtain ⟨hg, hn, _⟩ := run_recorded hreach
  rw [hu.same.log, hu.same.history]
  refine ⟨fun n hmem => ?_, fun cmd hcmd => hn.requested cmd (log_known hg hcmd), ?_⟩
  · rw [hu.same.opDecidedIdx n hmem]
    exact ⟨u.cluster.nodes n, hu.same.node_of_built hmem (built_of_builds hbuild hsize hmem),
      hg.replicated.nodeId n, hg.replicated.applied_le n, hg.replicated.decided_le n,
      hg.replicated.kvStore n⟩
  · exact log_ids_nodup hg.conserved
      (hn.distinct.sublist ((List.sublist_append_right _ _).map _))

theorem program_replicates_forwardedWrite : ∃ s,
    run (Program.step writeLibrary "kill") (Program.init writeLibrary (2 : UInt64).toNat)
      forwardedWrite = some s ∧ s.log = [writeCommand] ∧
      (∃ node, (s.processes "n1").node = some node ∧ node.nodeId = "n1") ∧
      Requested s.harness.history writeCommand := by
  obtain ⟨s, hrun, hforwarded, hkept, hlog, _⟩ := forwardedWrite_run
  obtain ⟨hnodes, hrequested, _⟩ := program_replicates 2 writeLibrary_builds (by decide) hrun
    (hforwarded ▸ writeLibrary_faithful) hkept
  obtain ⟨node, hnode, hid, _⟩ := hnodes "n1" (by decide +kernel)
  exact ⟨s, hrun, hlog, ⟨node, hnode, hid⟩, hrequested writeCommand (by simp [hlog])⟩

end Run

end OmniPaxosJepsen.EndToEnd
