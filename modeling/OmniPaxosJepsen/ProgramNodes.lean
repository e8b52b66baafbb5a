import OmniPaxosJepsen.Nemesis
import OmniPaxosJepsen.Program
import OmniPaxosJepsen.Traffic

namespace OmniPaxosJepsen.ProgramNodes

open Json Node Checker Cluster Apply EventLoop NodeLines Totals Refinement Traffic Program
open FaultInjection (Enforced)
open Harness (HarnessState)
open HarnessStep (Grounded)
open NodeNames (Outgoing sendOutgoingMessages)
open Routing (TestHarness src dest)

/-- What a node has written and the harness has not read, without the lines that do not parse. -/
def unread (s : TestRun) (n : String) : List Value :=
  ((s.harness.nodes n).stdoutRx ++ (s.processes n).pipe).filterMap id

/-- What was written to a live node and it has not handled. -/
def unhandled (s : TestRun) (n : String) : List Value :=
  if (s.harness.nodes n).alive then (s.harness.nodes n).stdin.drop (s.processes n).handled else []

theorem unread_congr {s t : TestRun} (hnodes : t.harness.nodes = s.harness.nodes)
    (hprocesses : t.processes = s.processes) : unread t = unread s := by
  funext n
  rw [unread, unread, hnodes, hprocesses]

theorem unhandled_congr {s t : TestRun} (hnodes : t.harness.nodes = s.harness.nodes)
    (hprocesses : t.processes = s.processes) : unhandled t = unhandled s := by
  funext n
  rw [unhandled, unhandled, hnodes, hprocesses]

def lastTime (history : List HistoryEntry) : U128 :=
  (history.getLast?.map HistoryEntry.timeNs).getD 0

def built (lib : Library) (ids : List String) (n : String) : Bool :=
  (Process.spawn lib n ids false).node.isSome

/-- The abstract harness is in the same state, but for the lines on their way. -/
structure Same (lib : Library) (ids : List String) (s : TestRun) (u : HarnessState) : Prop where
  nodes : ∀ n ∈ ids, (s.processes n).node =
    if built lib ids n then some (u.cluster.nodes n) else none
  opDecidedIdx : ∀ n ∈ ids, (s.processes n).opDecidedIdx = u.cluster.opDecidedIdx n
  log : s.log = u.cluster.log
  appended : s.appended = u.cluster.appended
  killedNodes : s.harness.network.killedNodes = u.killedNodes
  history : s.harness.history = u.history
  nextOpId : s.harness.nextOpId = u.nextOpId
  now : u.now = lastTime s.harness.history

/-- The abstract harness with its cluster describes the program, while the harness deals with
the lines in `hands`. -/
structure Refines (lib : Library) (ids : List String) (hands : Multiset Value) (s : TestRun)
    (u : HarnessState) : Prop where
  same : Same lib ids s u
  carried : Carried lib ids hands (unread s) (unhandled s) u

/-- What the faults that are injected keep to, and that nodes handle what was written to them. -/
structure Sane (ids : List String) (s : TestRun) : Prop where
  enforced : Enforced s.harness
  faults : Nemesis.Inv ids s.harness
  handled : ∀ n, (s.processes n).handled ≤ (s.harness.nodes n).stdin.length

theorem Same.quiet {lib : Library} {ids : List String} {s : TestRun} {u v : HarnessState}
    (h : Same lib ids s u) (hquiet : Quiet u v) : Same lib ids s v := by
  obtain ⟨_, _, _, rfl⟩ := hquiet
  exact ⟨h.nodes, h.opDecidedIdx, h.log, h.appended, h.killedNodes, h.history, h.nextOpId, h.now⟩

theorem Same.of_eq {lib : Library} {ids : List String} {s t : TestRun} {u : HarnessState}
    (h : Same lib ids s u)
    (hprocesses : ∀ m, (t.processes m).node = (s.processes m).node ∧
      (t.processes m).opDecidedIdx = (s.processes m).opDecidedIdx)
    (hlog : t.log = s.log) (happended : t.appended = s.appended)
    (hkilled : t.harness.network.killedNodes = s.harness.network.killedNodes)
    (hhistory : t.harness.history = s.harness.history)
    (hnext : t.harness.nextOpId = s.harness.nextOpId) : Same lib ids t u :=
  ⟨fun m hm => by rw [(hprocesses m).1, h.nodes m hm],
    fun m hm => by rw [(hprocesses m).2, h.opDecidedIdx m hm], by rw [hlog, h.log],
    by rw [happended, h.appended], by rw [hkilled, h.killedNodes], by rw [hhistory, h.history],
    by rw [hnext, h.nextOpId], by rw [hhistory, h.now]⟩

section Node

variable {lib : Library} {ids : List String} {s t : TestRun} {u v : HarnessState} {n : String}
  {process : Process} {node : MaelstromNode} {r : MaelstromNode × Effects}

theorem running_eq_some {busy : Bool} (h : s.running n busy = some node) :
    n ∈ s.harness.nodeIds ∧ (s.harness.nodes n).alive = true ∧
      (s.processes n).node = some node := by
  simp only [TestRun.running, Option.ite_none_right_eq_some] at h
  exact ⟨h.1.1, h.1.2.1, h.2⟩

theorem Same.node_eq (h : Same lib ids s u) (hn : n ∈ ids)
    (hnode : (s.processes n).node = some node) :
    built lib ids n = true ∧ node = u.cluster.nodes n := by
  rw [h.nodes n hn, Option.ite_none_right_eq_some] at hnode
  exact ⟨hnode.1, (Option.some.inj hnode.2).symm⟩

theorem Same.node_of_built (h : Same lib ids s u) (hn : n ∈ ids) (hbuilt : built lib ids n = true) :
    (s.processes n).node = some (u.cluster.nodes n) := by
  rw [h.nodes n hn, if_pos hbuilt]

theorem Same.running (h : Same lib ids s u) (hsane : Sane ids s) {busy : Bool}
    (hrun : s.running n busy = some node) : n ∈ ids ∧ built lib ids n = true ∧
      node = u.cluster.nodes n ∧ n ∉ u.killedNodes := by
  obtain ⟨hmem, halive, hnode⟩ := running_eq_some hrun
  have hn : n ∈ ids := hsane.faults.nodeIds ▸ hmem
  obtain ⟨hbuilt, heq⟩ := h.node_eq hn hnode
  refine ⟨hn, hbuilt, heq, ?_⟩
  rw [hsane.enforced.alive n hmem, Bool.not_eq_true'] at halive
  rw [← h.killedNodes]
  exact of_decide_eq_false halive

section Update

variable (hharness : t.harness = s.harness)
  (hprocesses : t.processes = Function.update s.processes n process)

include hharness hprocesses

theorem Same.update (h : Same lib ids s u) (hbuilt : built lib ids n = true)
    (hprocess : process.node = some node)
    (hlog : t.log = v.cluster.log) (happended : t.appended = v.cluster.appended)
    (hnodes : v.cluster.nodes = Function.update u.cluster.nodes n node)
    (hidx : v.cluster.opDecidedIdx =
      Function.update u.cluster.opDecidedIdx n process.opDecidedIdx)
    (hkilled : v.killedNodes = u.killedNodes) (hhistory : v.history = u.history)
    (hnext : v.nextOpId = u.nextOpId) (hnow : v.now = u.now) : Same lib ids t v := by
  refine ⟨fun m hm => ?_, fun m hm => ?_, hlog, happended, ?_, ?_, ?_, ?_⟩
  · by_cases hmn : m = n
    · subst hmn
      simp [hprocesses, hnodes, hprocess, hbuilt]
    · simp [hprocesses, hnodes, Function.update_of_ne hmn, h.nodes m hm]
  · by_cases hmn : m = n
    · subst hmn
      simp [hprocesses, hidx]
    · simp [hprocesses, hidx, Function.update_of_ne hmn, h.opDecidedIdx m hm]
  · rw [hharness, hkilled, h.killedNodes]
  · rw [hharness, hhistory, h.history]
  · rw [hharness, hnext, h.nextOpId]
  · rw [hharness, hnow, h.now]

theorem unread_of_ne {m : String} (hm : m ≠ n) : unread t m = unread s m := by
  simp [unread, hharness, hprocesses, Function.update_of_ne hm]

theorem unhandled_of_ne {m : String} (hm : m ≠ n) : unhandled t m = unhandled s m := by
  simp [unhandled, hharness, hprocesses, Function.update_of_ne hm]

theorem unread_append {lines : List Value}
    (hpipe : process.pipe = (s.processes n).pipe ++ lines.map some) :
    unread t n = unread s n ++ lines := by
  simp [unread, hharness, hprocesses, hpipe, List.filterMap_append, List.filterMap_map]

theorem unhandled_eq (hhandled : process.handled = (s.processes n).handled) :
    unhandled t = unhandled s := by
  funext m
  by_cases hm : m = n
  · subst hm
    simp [unhandled, hharness, hprocesses, hhandled]
  · exact unhandled_of_ne hharness hprocesses hm

end Update

theorem perform_processes : (s.perform lib n process r).processes =
    Function.update s.processes n { process with
      node := some r.1
      busy := true
      pipe := process.pipe ++ r.2.sent.map (fun line => some (toValue lib line)) } := rfl

theorem Refines.perform (hsame : Same lib ids s u) (hn : n ∈ ids)
    (hbuilt : built lib ids n = true) (hsent : Forwards n r.2.sent)
    (hlib : Faithful lib ((forwards r.2.sent).map Prod.snd))
    (hpipe : process.pipe = (s.processes n).pipe)
    (hidx : process.opDecidedIdx = (s.processes n).opDecidedIdx)
    (hcarried : Carried lib ids 0 (unread s) (unhandled (s.perform lib n process r)) u)
    (history : List Observed) :
    Refines lib ids 0 (s.perform lib n process r)
      { u with cluster := { u.cluster.perform n r with history := history } } := by
  have hharness : (s.perform lib n process r).harness = s.harness := rfl
  constructor
  · refine Same.update hharness perform_processes hsame hbuilt rfl hsame.log ?_ rfl ?_ rfl rfl rfl
      rfl
    · exact congrArg (· ++ r.2.appended) hsame.appended
    · rw [hidx, hsame.opDecidedIdx n hn]
      exact (Function.update_eq_self _ _).symm
  · refine hcarried.write hn (fun m hm => unread_of_ne hharness perform_processes hm)
      (r.2.sent.map (toValue lib)) ?_ (hsent.written hlib) rfl ?_ ?_
    · exact unread_append hharness perform_processes (by simp [hpipe])
    · rw [hsent.filterMap_response, List.append_nil]
    · rw [hsent.filterMap_forward hlib]
      rfl

theorem filterMap_singleton_some {α β : Type} {f : α → Option β} {a : α} {b : β}
    (h : f a = some b) : Multiset.filterMap f {a} = {b} := by
  rw [← Multiset.cons_zero, Multiset.filterMap_cons_some _ _ _ h, Multiset.filterMap_zero,
    Multiset.cons_zero]

theorem filterMap_singleton_none {α β : Type} {f : α → Option β} {a : α}
    (h : f a = none) : Multiset.filterMap f {a} = 0 := by
  rw [← Multiset.cons_zero, Multiset.filterMap_cons_none _ _ h, Multiset.filterMap_zero]

section Line

variable {inp' : String → List Value} {msg : Value} {append : AppendResult}

theorem handle_reaches (hs : Refines lib ids 0 s u) (hn : n ∈ ids) (hkilled : n ∉ u.killedNodes)
    (hother : ∀ m, m ≠ n → inp' m = unhandled s m) (hself : unhandled s n = msg :: inp' n)
    (hrequest : isClientRequest msg = true)
    (hr : (u.cluster.nodes n).handleClientRequest append msg = some r) :
    ∃ w history, Same lib ids s w ∧ Carried lib ids 0 (unread s) inp' w ∧
      Reaches (Harness.step ids.toFinset) u
        { w with cluster := { w.cluster.perform n r with history := history } } := by
  have hmsg : msg ∈ unhandled s n := by simp [hself]
  have hdest := (hs.carried.readable n hn msg hmsg).1
  have hsome : request msg = some (n, msg) := by simp [request, hrequest, hdest]
  have hmem : (n, msg) ∈ u.stdin := by
    rw [← Multiset.mem_coe, hs.carried.stdin, Multiset.mem_filterMap]
    exact ⟨msg, mem_total.mpr ⟨n, hn, hmsg⟩, hsome⟩
  obtain ⟨i, hi⟩ := List.getElem?_of_mem hmem
  have hforward : forward lib msg = none := by
    obtain ht | ht | ht := (isClientRequest_iff msg).mp hrequest <;> simp [forward, ht]
  have hstep : Harness.step ids.toFinset u (.handle i append) = some { u with
      stdin := u.stdin.eraseIdx i
      cluster := { u.cluster.perform n r with
        history := u.cluster.history ++ [.request n msg] } } := by
    have hactor : (Harness.actor u.cluster (.clientRequest n append msg)).all
        (fun node => node ∉ u.killedNodes) = true := by simpa [Harness.actor] using hkilled
    simp only [Harness.step, hi, Option.bind_some, HarnessState.advance]
    rw [if_pos hactor, Cluster.step, if_pos ⟨List.mem_toFinset.mpr hn, hrequest⟩, hr]
    simp [ClusterState.perform]
  refine ⟨{ u with stdin := u.stdin.eraseIdx i }, _, ?_, ?_, .single hstep⟩
  · exact ⟨hs.same.nodes, hs.same.opDecidedIdx, hs.same.log, hs.same.appended,
      hs.same.killedNodes, hs.same.history, hs.same.nextOpId, hs.same.now⟩
  · refine hs.carried.take hn hother hself ?_ rfl ?_
    · rw [filterMap_singleton_some hsome]
      exact (Forwarding.coe_eraseIdx hi).symm
    · rw [filterMap_singleton_none hforward, zero_add]

theorem deliver_reaches (append : AppendResult) (hs : Refines lib ids 0 s u) (hn : n ∈ ids)
    (hkilled : n ∉ u.killedNodes)
    (hother : ∀ m, m ≠ n → inp' m = unhandled s m) (hself : unhandled s n = msg :: inp' n)
    {cmd : MaelstromCommand} (htype : msgType msg = "forward")
    (hcmd : (data msg).bind lib.fromStr = some cmd) :
    ∃ w history, Same lib ids s w ∧ Carried lib ids 0 (unread s) inp' w ∧
      Reaches (Harness.step ids.toFinset) u { w with cluster :=
        { w.cluster.perform n ((u.cluster.nodes n).tryAppend append cmd) with
          history := history } } := by
  have hmsg : msg ∈ unhandled s n := by simp [hself]
  have hdest := (hs.carried.readable n hn msg hmsg).1
  have hsome : forward lib msg = some (n, cmd) := by simp [forward, htype, hcmd, hdest]
  have hmem : (n, cmd) ∈ u.cluster.inFlight := by
    rw [← Multiset.mem_coe, hs.carried.inFlight, Multiset.mem_filterMap]
    exact ⟨msg, Multiset.mem_add.mpr (.inr (mem_total.mpr ⟨n, hn, hmsg⟩)), hsome⟩
  obtain ⟨i, hi⟩ := List.getElem?_of_mem hmem
  have hrequest : request msg = none := by
    have hnot : isClientRequest msg = false := by
      rw [← Bool.not_eq_true, isClientRequest_iff, htype]
      decide
    simp [request, hnot]
  have hdeliver : Cluster.step ids.toFinset u.cluster (.deliver i append) =
      some ({ u.cluster with inFlight := u.cluster.inFlight.eraseIdx i }.perform n
        ((u.cluster.nodes n).tryAppend append cmd)) := by
    simp only [Cluster.step, hi, Option.bind_some]
    exact if_pos (List.mem_toFinset.mpr hn)
  have hactor : ∀ m, Harness.actor u.cluster (.deliver i append) = some m →
      m ∉ u.killedNodes := by
    intro m hm
    simp only [Harness.actor, hi, Option.map_some, Option.some.injEq] at hm
    exact hm ▸ hkilled
  have hstep := step_unseen rfl hactor hdeliver rfl
  refine ⟨{ u with cluster := { u.cluster with inFlight := u.cluster.inFlight.eraseIdx i } },
    u.cluster.history, ?_, ?_, .single hstep⟩
  · exact ⟨hs.same.nodes, hs.same.opDecidedIdx, hs.same.log, hs.same.appended,
      hs.same.killedNodes, hs.same.history, hs.same.nextOpId, hs.same.now⟩
  · refine hs.carried.take hn hother hself ?_ rfl ?_
    · rw [filterMap_singleton_none hrequest, zero_add]
    · rw [filterMap_singleton_some hsome]
      exact (Forwarding.coe_eraseIdx hi).symm

/-- The line that a node takes is the next one that it has not handled, and no such line makes
it panic. -/
theorem takeLine_eq (hsane : Sane ids s) (hs : Refines lib ids 0 s u)
    (h : s.takeLine lib n append = some t) :
    n ∈ ids ∧ built lib ids n = true ∧ n ∉ u.killedNodes ∧ ∃ msg process r,
      process.pipe = (s.processes n).pipe ∧ process.opDecidedIdx = (s.processes n).opDecidedIdx ∧
      handleLine lib (u.cluster.nodes n) append msg = some r ∧
      t = s.perform lib n process r ∧ unhandled s n = msg :: unhandled t n := by
  simp only [TestRun.takeLine, Option.bind_eq_bind, Option.bind_eq_some_iff] at h
  obtain ⟨node, hrun, msg, hmsg, h⟩ := h
  obtain ⟨hn, hbuilt, rfl, hkilled⟩ := hs.same.running hsane hrun
  have halive := (running_eq_some hrun).2.1
  obtain ⟨hlt, rfl⟩ := List.getElem?_eq_some_iff.mp hmsg
  have hself : unhandled s n = (s.harness.nodes n).stdin[(s.processes n).handled] ::
      (s.harness.nodes n).stdin.drop ((s.processes n).handled + 1) := by
    rw [unhandled, if_pos halive, List.drop_eq_getElem_cons hlt]
  obtain ⟨hdest, hreadable⟩ := hs.carried.readable n hn _ (by rw [hself]; exact List.mem_cons_self)
  obtain ⟨r, hr⟩ := Option.isSome_iff_exists.mp (hreadable (u.cluster.nodes n) append)
  rw [hr] at h
  cases h
  refine ⟨hn, hbuilt, hkilled, _, _, r, ?_, ?_, hr, rfl, ?_⟩
  · rfl
  · rfl
  · rw [hself]
    simp [unhandled, TestRun.perform, TestRun.setProcess, halive]

theorem takeLine_refines (hsane : Sane ids s) (hs : Refines lib ids 0 s u)
    (hg : Grounded ids.toFinset u) (hlib : Faithful lib t.forwarded)
    (h : s.takeLine lib n append = some t) :
    ∃ v, Reaches (Harness.step ids.toFinset) u v ∧ Refines lib ids 0 t v := by
  obtain ⟨hn, hbuilt, hkilled, msg, process, r, hpipe, hidx, hr, rfl, hself⟩ :=
    takeLine_eq hsane hs h
  have hnode : (u.cluster.nodes n).nodeId = n := hg.replicated.nodeId n
  have hother : ∀ m, m ≠ n → unhandled (s.perform lib n process r) m = unhandled s m :=
    fun m hm => unhandled_of_ne (t := s.perform lib n process r) (s := s) rfl
      perform_processes hm
  have hfaithful : Faithful lib ((forwards r.2.sent).map Prod.snd) :=
    fun cmd hcmd => hlib cmd (List.mem_append_right _ hcmd)
  by_cases hrequest : isClientRequest msg = true
  · rw [handleLine_request hrequest] at hr
    obtain ⟨cmd, _, rfl⟩ := handleClientRequest_eq_some hrequest hr
    have hsent := forwards_tryAppend (u.cluster.nodes n) append cmd
    rw [hnode] at hsent
    obtain ⟨w, history, hw, hcarried, hreach⟩ :=
      handle_reaches hs hn hkilled hother hself hrequest hr
    exact ⟨_, hreach, Refines.perform hw hn hbuilt hsent hfaithful hpipe hidx hcarried history⟩
  · rw [Bool.not_eq_true] at hrequest
    by_cases htype : msgType msg = "forward"
    · rw [handleLine_forward htype] at hr
      obtain ⟨cmd, hcmd, rfl⟩ := Option.map_eq_some_iff.mp hr
      have hsent := forwards_tryAppend (u.cluster.nodes n) append cmd
      rw [hnode] at hsent
      obtain ⟨w, history, hw, hcarried, hreach⟩ :=
        deliver_reaches append hs hn hkilled hother hself htype hcmd
      exact ⟨_, hreach, Refines.perform hw hn hbuilt hsent hfaithful hpipe hidx hcarried history⟩
    · obtain rfl := handleLine_other hrequest htype hr
      have hsame : ClusterState.perform u.cluster n (u.cluster.nodes n, Effects.none) =
          u.cluster := by
        simp [ClusterState.perform, Effects.none, forwards]
      have hcarried := hs.carried.take hn hother hself
        (v := u) (by simp [filterMap_singleton_none, request, hrequest]) rfl
        (by simp [filterMap_singleton_none, forward, htype])
      have hrefines := Refines.perform hs.same hn hbuilt
        (fun _ hline => (List.not_mem_nil hline).elim) hfaithful hpipe hidx hcarried
        u.cluster.history
      rw [hsame] at hrefines
      exact ⟨u, .refl u, hrefines⟩

end Line

theorem takeTick_refines (hsane : Sane ids s) (hs : Refines lib ids 0 s u)
    (hg : Grounded ids.toFinset u) (hlib : Faithful lib t.forwarded)
    {append : Nat → AppendResult} (h : s.takeTick lib n append = some t) :
    ∃ v, Reaches (Harness.step ids.toFinset) u v ∧ Refines lib ids 0 t v := by
  simp only [TestRun.takeTick, Option.bind_eq_bind, Option.pure_def, Option.bind_eq_some_iff,
    Option.some.injEq] at h
  obtain ⟨node, hrun, rfl⟩ := h
  obtain ⟨hn, hbuilt, rfl, hkilled⟩ := hs.same.running hsane hrun
  have hsent := forwards_tick (u.cluster.nodes n) append
  rw [hg.replicated.nodeId n] at hsent
  have hfaithful : Faithful lib
      ((forwards ((u.cluster.nodes n).tick append).2.sent).map Prod.snd) :=
    fun cmd hcmd => hlib cmd (List.mem_append_right _ hcmd)
  have htick : Cluster.step ids.toFinset u.cluster (.tick n append) =
      some (u.cluster.perform n ((u.cluster.nodes n).tick append)) :=
    if_pos (List.mem_toFinset.mpr hn)
  have hactor : ∀ m, Harness.actor u.cluster (.tick n append) = some m → m ∉ u.killedNodes := by
    rintro m ⟨⟩
    exact hkilled
  have hstep := step_unseen rfl hactor htick rfl
  have hinp := unhandled_eq (s := s)
    (t := s.perform lib n (s.processes n) ((u.cluster.nodes n).tick append)) rfl
    perform_processes rfl
  refine ⟨_, .single hstep, ?_⟩
  exact Refines.perform hs.same hn hbuilt hsent hfaithful rfl rfl (hinp ▸ hs.carried)
    u.cluster.history

theorem process_reaches (hn : n ∈ ids) (hkilled : n ∉ u.killedNodes) {idx : Nat}
    (hold : u.cluster.opDecidedIdx n ≤ idx) (hlen : idx ≤ u.cluster.log.length)
    {msgs : List Value} (hprocess : (u.cluster.nodes n).processDecidedEntries idx
      (fun i => some (((u.cluster.log.take idx).drop i).map LogEntry.decided)) =
        some (node, msgs)) :
    Reaches (Harness.step ids.toFinset) u { u with
      cluster := { u.cluster with
        nodes := Function.update u.cluster.nodes n node
        opDecidedIdx := Function.update u.cluster.opDecidedIdx n idx
        history := u.cluster.history ++ msgs.map (Observed.response n) }
      stdout := u.stdout ++ msgs.map (fun msg => (n, msg)) } := by
  have hmem := List.mem_toFinset.mpr hn
  have hadvance : Harness.step ids.toFinset u (.internal (.advance n idx)) = some { u with
      cluster := { u.cluster with
        opDecidedIdx := Function.update u.cluster.opDecidedIdx n idx } } :=
    step_unseen rfl (fun m hm => by cases hm; exact hkilled) (if_pos ⟨hmem, hold, hlen⟩) rfl
  have hstep : Cluster.step ids.toFinset
      { u.cluster with opDecidedIdx := Function.update u.cluster.opDecidedIdx n idx }
      (.process n) = some { u.cluster with
        nodes := Function.update u.cluster.nodes n node
        opDecidedIdx := Function.update u.cluster.opDecidedIdx n idx
        history := u.cluster.history ++ msgs.map (Observed.response n) } := by
    have hsuffix : ClusterState.readDecidedSuffix
        { u.cluster with opDecidedIdx := Function.update u.cluster.opDecidedIdx n idx } n =
          fun i => some (((u.cluster.log.take idx).drop i).map LogEntry.decided) := by
      funext i
      simp [ClusterState.readDecidedSuffix]
    rw [Cluster.step, if_pos hmem, hsuffix]
    simp only [Function.update_self]
    rw [hprocess]
    rfl
  have hrespond := step_internal (u := { u with cluster := { u.cluster with
    opDecidedIdx := Function.update u.cluster.opDecidedIdx n idx } }) n msgs rfl
    (fun m hm => by cases hm; exact hkilled) hstep rfl
  exact (Reaches.single hadvance).trans (.single hrespond)

theorem Refines.respond (hs : Refines lib ids 0 s u) (hn : n ∈ ids)
    (hbuilt : built lib ids n = true) (lines : List Value) (hnode : process.node = some node)
    (hhandled : process.handled = (s.processes n).handled)
    {msgs : List Value} (hpipe : process.pipe = (s.processes n).pipe ++ lines.map some)
    (hlines : ∀ msg ∈ lines, Written lib n msg) (hforward : lines.filterMap (forward lib) = [])
    (hresponse : lines.filterMap response = msgs.map (fun msg => (n, msg)))
    (history : List Observed) :
    Refines lib ids 0 (s.setProcess n process) { u with
      cluster := { u.cluster with
        nodes := Function.update u.cluster.nodes n node
        opDecidedIdx := Function.update u.cluster.opDecidedIdx n process.opDecidedIdx
        history := history }
      stdout := u.stdout ++ msgs.map (fun msg => (n, msg)) } := by
  have hharness : (s.setProcess n process).harness = s.harness := rfl
  have hprocesses :
      (s.setProcess n process).processes = Function.update s.processes n process := rfl
  constructor
  · exact Same.update hharness hprocesses hs.same hbuilt hnode hs.same.log hs.same.appended rfl rfl
      rfl rfl rfl rfl
  · rw [unhandled_eq hharness hprocesses hhandled]
    refine hs.carried.write hn (fun m hm => unread_of_ne hharness hprocesses hm) lines
      (unread_append hharness hprocesses hpipe) hlines rfl ?_ ?_
    · rw [hresponse]
    · rw [hforward, List.append_nil]

theorem finish_eq (hsane : Sane ids s) (hs : Same lib ids s u)
    (hid : (u.cluster.nodes n).nodeId = n) {outgoing : List Outgoing} {newDecidedIdx : Nat}
    (h : s.finish lib n outgoing newDecidedIdx = some t) :
    n ∈ ids ∧ built lib ids n = true ∧ n ∉ u.killedNodes ∧
      (∀ msg ∈ outgoing, lib.isMessage msg.data = true) ∧
      u.cluster.opDecidedIdx n ≤ newDecidedIdx ∧ newDecidedIdx ≤ u.cluster.log.length ∧
      ∃ node process, process.node = some node ∧
        process.handled = (s.processes n).handled ∧ process.opDecidedIdx = newDecidedIdx ∧
        process.pipe = (s.processes n).pipe ++
          (sendOutgoingMessages (u.cluster.nodes n) outgoing ++
            responses n (u.cluster.nodes n).kvStore
              ((u.cluster.log.take newDecidedIdx).drop (u.cluster.nodes n).decidedIdx)).map some ∧
        (u.cluster.nodes n).processDecidedEntries newDecidedIdx
          (fun i => some (((u.cluster.log.take newDecidedIdx).drop i).map LogEntry.decided)) =
            some (node, responses n (u.cluster.nodes n).kvStore
              ((u.cluster.log.take newDecidedIdx).drop (u.cluster.nodes n).decidedIdx)) ∧
        t = s.setProcess n process := by
  rw [TestRun.finish, Option.ite_none_right_eq_some] at h
  obtain ⟨⟨_, hlen⟩, h⟩ := h
  simp only [TestRun.sendAndProcess, Option.bind_eq_bind, Option.bind_eq_some_iff,
    Option.ite_none_right_eq_some] at h
  obtain ⟨node, hrun, ⟨houtgoing, hold⟩, h⟩ := h
  obtain ⟨hn, hbuilt, rfl, hkilled⟩ := hs.running hsane hrun
  rw [hs.opDecidedIdx n hn] at hold
  rw [hs.log] at hlen h
  have hprocess := processDecidedEntries_take (u.cluster.nodes n) hlen
  rw [hprocess] at h
  cases h
  rw [hid] at hprocess ⊢
  refine ⟨hn, hbuilt, hkilled, List.all_eq_true.mp houtgoing, hold, hlen, _, _, ?_, ?_, ?_, ?_,
    hprocess, rfl⟩
  · rfl
  · rfl
  · rfl
  · rw [List.map_append, List.append_assoc]

/-- The abstract node learns what is decided and applies it, and sends the same responses. -/
theorem finish_refines (hsane : Sane ids s) (hs : Refines lib ids 0 s u)
    (hg : Grounded ids.toFinset u) {outgoing : List Outgoing} {newDecidedIdx : Nat}
    (h : s.finish lib n outgoing newDecidedIdx = some t) :
    ∃ v, Reaches (Harness.step ids.toFinset) u v ∧ Refines lib ids 0 t v := by
  have hid : (u.cluster.nodes n).nodeId = n := hg.replicated.nodeId n
  obtain ⟨hn, hbuilt, hkilled, houtgoing, hold, hlen, node, process, hnode, hhandled, rfl, hpipe,
    hprocess, rfl⟩ := finish_eq hsane hs.same hid h
  refine ⟨_, process_reaches hn hkilled hold hlen hprocess,
    hs.respond hn hbuilt _ hnode hhandled hpipe (fun msg hmsg => ?_) ?_ ?_ _⟩
  · obtain hmsg | hmsg := List.mem_append.mp hmsg
    · obtain ⟨m, hm, rfl⟩ := List.mem_map.mp hmsg
      have hwritten := written_outgoingLine (u.cluster.nodes n) (houtgoing m hm)
      rwa [hid] at hwritten
    · exact written_responses hmsg
  · rw [List.filterMap_append, filterMap_forward_responses, List.append_nil,
      filterMap_forward_outgoing]
  · rw [List.filterMap_append, filterMap_response_responses, filterMap_response_outgoing,
      List.nil_append]

theorem readLine_eq (h : s.readLine n = some t) : unread t = unread s ∧ unhandled t = unhandled s ∧
    (∀ m, (t.processes m).node = (s.processes m).node ∧
      (t.processes m).opDecidedIdx = (s.processes m).opDecidedIdx) ∧
    t.log = s.log ∧ t.appended = s.appended ∧
    t.harness = { s.harness with nodes := t.harness.nodes } ∧ t.clientIdx = s.clientIdx := by
  unfold TestRun.readLine at h
  split at h
  · cases h
  · next line pipe hpipe =>
    cases h
    refine ⟨?_, ?_, fun m => ?_, rfl, rfl, rfl, rfl⟩
    · funext m
      by_cases hmn : m = n
      · subst hmn
        simp only [unread, TestRun.setProcess, Function.update_self, hpipe, List.append_assoc,
          List.singleton_append]
      · simp [unread, TestRun.setProcess, Function.update_of_ne hmn]
    · funext m
      by_cases hmn : m = n
      · subst hmn
        simp [unhandled, TestRun.setProcess]
      · simp [unhandled, TestRun.setProcess, Function.update_of_ne hmn]
    · by_cases hmn : m = n
      · subst hmn
        simp [TestRun.setProcess]
      · simp [TestRun.setProcess, Function.update_of_ne hmn]

theorem readLine_refines (hs : Refines lib ids 0 s u) (h : s.readLine n = some t) :
    Refines lib ids 0 t u := by
  obtain ⟨hunread, hunhandled, hprocesses, hlog, happended, hharness, _⟩ := readLine_eq h
  refine ⟨hs.same.of_eq hprocesses hlog happended ?_ ?_ ?_, ?_⟩
  · rw [hharness]
  · rw [hharness]
  · rw [hharness]
  · rw [hunread, hunhandled]
    exact hs.carried

theorem cut_refines (hs : Refines lib ids 0 s u) (hn : n ∈ ids) (kept : Nat) (broken : Bool) :
    ∃ v, Reaches (Harness.step ids.toFinset) u v ∧
      Refines lib ids 0 (s.setProcess n { s.processes n with
        pipe := (s.processes n).pipe.take kept ++ if broken then [none] else [] }) v := by
  generalize hprocess : { s.processes n with
    pipe := (s.processes n).pipe.take kept ++ if broken then [none] else [] } = process
  have hharness : (s.setProcess n process).harness = s.harness := rfl
  have hprocesses :
      (s.setProcess n process).processes = Function.update s.processes n process := rfl
  have hself : unread s n = unread (s.setProcess n process) n ++
      ((s.processes n).pipe.drop kept).filterMap id := by
    have hbroken : (if broken then [none] else [] : List (Option Value)).filterMap id = [] := by
      cases broken <;> rfl
    have hpipe : (s.processes n).pipe.filterMap id =
        ((s.processes n).pipe.take kept).filterMap id ++
          ((s.processes n).pipe.drop kept).filterMap id := by
      rw [← List.filterMap_append, List.take_append_drop]
    simp only [unread, TestRun.setProcess, Function.update_self, ← hprocess, List.filterMap_append,
      hbroken, List.append_nil, hpipe, List.append_assoc]
  have hread := hs.carried.read hn (fun m hm => unread_of_ne hharness hprocesses hm) _
    (hself ▸ List.perm_append_comm)
  obtain ⟨v, hreach, hquiet, hcarried⟩ := hread.lose
  refine ⟨v, hreach, (hs.same.quiet hquiet).of_eq (fun m => ?_) rfl rfl rfl rfl rfl, ?_⟩
  · by_cases hmn : m = n
    · subst hmn
      simp [TestRun.setProcess, ← hprocess]
    · simp [TestRun.setProcess, Function.update_of_ne hmn]
  · rw [unhandled_eq hharness hprocesses (by rw [← hprocess])]
    exact hcarried

theorem decide_refines (hs : Refines lib ids 0 s u) {i : Nat} {cmd : MaelstromCommand}
    (hcmd : s.appended[i]? = some cmd) :
    ∃ v, Reaches (Harness.step ids.toFinset) u v ∧ Refines lib ids 0
      { s with log := s.log ++ [cmd], appended := s.appended.eraseIdx i } v := by
  rw [hs.same.appended] at hcmd
  have hdecide : Cluster.step ids.toFinset u.cluster (.decide i) = some { u.cluster with
      log := u.cluster.log ++ [cmd], appended := u.cluster.appended.eraseIdx i } := by
    rw [Cluster.step, hcmd]
    rfl
  have hstep := step_unseen rfl (fun m hm => by cases hm) hdecide rfl
  refine ⟨_, .single hstep, ?_, hs.carried.of_eq rfl rfl rfl⟩
  exact ⟨hs.same.nodes, hs.same.opDecidedIdx, by rw [hs.same.log], by rw [hs.same.appended],
    hs.same.killedNodes, hs.same.history, hs.same.nextOpId, hs.same.now⟩

end Node

end OmniPaxosJepsen.ProgramNodes
