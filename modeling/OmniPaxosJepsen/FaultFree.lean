import OmniPaxosJepsen.EndToEnd
import OmniPaxosJepsen.Whereabouts

namespace OmniPaxosJepsen.FaultFree

open Json KvSpec Node Checker Cluster Apply Common EventLoop NodeLines Refinement Traffic Program
  ProgramNodes ProgramHarness Whereabouts EndToEnd Runs
open FaultInjection (Enforced)
open Harness (HarnessState isClientResponse responseEntry)
open HarnessStep (Grounded grounded_init step_grounded)
open HistorySpec (completes invokes)
open KvModel (input)
open NodeNames (Outgoing)
open Routing (TestHarness src dest)

variable {lib : Library} {ids : List String} {s t : TestRun} {u v : HarnessState} {n : String}
  {cmd : MaelstromCommand}

def ofClient (cmd : MaelstromCommand) : Prop :=
  "c".toList.isPrefixOf cmd.clientSrc.toList = true

theorem dest_render (nodeId : String) (cmd : MaelstromCommand) (reply : Reply Value) :
    dest (render nodeId cmd reply) = cmd.clientSrc := by
  cases reply <;> simp [render, sendError]

theorem isClientResponse_render (h : ofClient cmd) (nodeId : String) (reply : Reply Value) :
    isClientResponse (render nodeId cmd reply) = true := by
  change ("c".toList.isPrefixOf (dest (render nodeId cmd reply)).toList || _) = true
  rw [dest_render, h, Bool.true_or]

theorem responses_mem {cmds : List MaelstromCommand} {k : Nat} (hk : cmds[k]? = some cmd)
    (hnode : cmd.coordinator = n) (kv : Store) :
    ∃ reply, render n cmd reply ∈ responses n kv cmds := by
  induction cmds generalizing kv k with
  | nil => cases hk
  | cons c cmds ih =>
    cases k with
    | zero =>
      obtain rfl := Option.some.inj hk
      have hself : Apply.response n kv c = [render n c (apply kv c.op).2] := if_pos hnode
      exact ⟨_, List.mem_append_left _ (hself ▸ List.mem_singleton_self _)⟩
    | succ k =>
      obtain ⟨reply, hmem⟩ := ih hk (apply kv c.op).1
      exact ⟨reply, List.mem_append_right _ hmem⟩

theorem finish_outstanding (hsane : Sane ids s) (hs : Refines lib ids 0 s u)
    (hg : Grounded ids.toFinset u) {outgoing : List Outgoing} {newDecidedIdx : Nat}
    (h : s.finish lib n outgoing newDecidedIdx = some t) (hclient : ofClient cmd)
    (hcmd : Outstanding lib ids s cmd) : Outstanding lib ids t cmd := by
  have hid : (u.cluster.nodes n).nodeId = n := hg.replicated.nodeId n
  obtain ⟨hn, _, _, _, _, hlen, node, process, hnode, hhandled, _, hpipe, hprocess, rfl⟩ :=
    finish_eq hsane hs.same hid h
  have hunhandled : unhandled (s.setProcess n process) = unhandled s :=
    unhandled_eq (s := s) (t := s.setProcess n process) rfl rfl hhandled
  have hself := unread_append (s := s) (t := s.setProcess n process) rfl rfl hpipe
  have hother : ∀ m, m ≠ n → unread (s.setProcess n process) m = unread s m :=
    fun m hm => unread_of_ne (s := s) (t := s.setProcess n process) rfl rfl hm
  have hread : ∀ m, ∀ msg ∈ unread s m, msg ∈ unread (s.setProcess n process) m := by
    intro m msg hmsg
    by_cases hm : m = n
    · subst hm
      rw [hself]
      exact List.mem_append_left _ hmsg
    · rwa [hother m hm]
  have hset : ((s.setProcess n process).processes n).node = some node := by
    simp [TestRun.setProcess, hnode]
  rw [processDecidedEntries_take (u.cluster.nodes n) hlen, Option.some.injEq,
    Prod.mk.injEq] at hprocess
  obtain ⟨rfl, _⟩ := hprocess
  cases hcmd with
  | requested hm hmsg hrequest hcmd => exact .requested hm (hunhandled ▸ hmsg) hrequest hcmd
  | @pending m node' hbuilt hm hnode' hcmd =>
    by_cases hmn : m = n
    · subst hmn
      obtain ⟨_, rfl⟩ := hs.same.node_eq hm hnode'
      exact .pending hbuilt hm hset hcmd
    · refine .pending hbuilt hm ?_ hcmd
      simpa [TestRun.setProcess, Function.update_of_ne hmn] using hnode'
  | @forwarded m target msg hbuilt hm hmsg htarget hcmd =>
    refine .forwarded hbuilt hm ?_ htarget hcmd
    rw [hunhandled]
    exact hmsg.imp_left (hread m msg)
  | appended hbuilt hcmd => exact .appended hbuilt hcmd
  | @logged k node' hcmd hnode' hk =>
    by_cases hmn : cmd.coordinator = n
    · rw [hmn] at hnode'
      obtain ⟨_, rfl⟩ := hs.same.node_eq hn hnode'
      by_cases happlied : k < (u.cluster.nodes n).decidedIdx +
          ((u.cluster.log.take newDecidedIdx).drop (u.cluster.nodes n).decidedIdx).length
      · have hentry : ((u.cluster.log.take newDecidedIdx).drop
            (u.cluster.nodes n).decidedIdx)[k - (u.cluster.nodes n).decidedIdx]? = some cmd := by
          rw [hs.same.log] at hcmd
          rw [List.length_drop, List.length_take] at happlied
          rw [List.getElem?_drop, Nat.add_sub_cancel' hk, List.getElem?_take_of_lt (by omega), hcmd]
        obtain ⟨reply, hmem⟩ := responses_mem hentry hmn (u.cluster.nodes n).kvStore
        refine .answered ?_ (isClientResponse_render hclient n reply)
          (fun now => (HarnessHistory.responseEntry_render n cmd reply now).1)
        rw [hmn, hself]
        exact List.mem_append_right _ (List.mem_append_right _ hmem)
      · exact .logged hcmd (by rw [hmn]; exact hset) (not_lt.mp happlied)
    · refine .logged hcmd ?_ hk
      simpa [TestRun.setProcess, Function.update_of_ne hmn] using hnode'
  | answered hmsg hclient hid => exact .answered (hread _ _ hmsg) hclient hid

section Harness

variable {harness : TestHarness} {msg : Value}

theorem isClientResponse_node (hsane : Sane ids s) (h : dest msg ∈ ids) :
    isClientResponse msg = false ∧ "n".toList.isPrefixOf (dest msg).toList = true := by
  obtain ⟨i, hi⟩ := hsane.enforced.names _ (hsane.faults.nodeIds.symm ▸ h)
  have hlist : (dest msg).toList = 'n' :: (toString i).toList := by
    rw [hi, Routing.nodeName, String.toList_append]
    rfl
  have hclient : "c".toList.isPrefixOf (dest msg).toList = false := by
    rw [hlist]
    rfl
  refine ⟨?_, by rw [hlist]; rfl⟩
  change ("c".toList.isPrefixOf (dest msg).toList || dest msg = "harness") = false
  rw [hclient, Bool.false_or, decide_eq_false (hi ▸ (FaultInjection.harness_ne_nodeName i).symm)]

theorem drain_unread (s : TestRun) (order : IterOrder String) :
    (∀ m, ∀ msg ∈ unread s m, msg ∈ (s.harness.drainAllMessages order).2 ∨
      msg ∈ unread (withHarness s (s.harness.drainAllMessages order).1) m) ∧
    unhandled (withHarness s (s.harness.drainAllMessages order).1) = unhandled s := by
  refine List.foldlRecOn (motive := fun p : TestHarness × List Value =>
    (∀ m, ∀ msg ∈ unread s m, msg ∈ p.2 ∨ msg ∈ unread (withHarness s p.1) m) ∧
      unhandled (withHarness s p.1) = unhandled s) _ _
    ⟨fun _ _ hmsg => .inr hmsg, rfl⟩ ?_
  rintro ⟨harness, msgs⟩ ⟨hread, hunhandled⟩ n _
  refine ⟨fun m msg hmsg => ?_, (recv_unhandled (withHarness s harness) n).trans hunhandled⟩
  obtain hold | hmsg := hread m msg hmsg
  · exact .inl (List.mem_append_left _ hold)
  · by_cases hm : m = n
    · subst hm
      rw [recv_unread] at hmsg
      exact (List.mem_append.mp hmsg).imp_left (List.mem_append_right _)
    · exact .inr ((recv_unread_of_ne (s := withHarness s harness) hm).symm ▸ hmsg)

structure Delivering (ids : List String) (s : TestRun) (p q : TestHarness × List Value) : Prop where
  sane : Sane ids (withHarness s q.1)
  network : q.1.network = Routing.NetworkSimulator.new
  unread : unread (withHarness s q.1) = unread (withHarness s p.1)
  unhandled : ∀ m, ∀ msg ∈ unhandled (withHarness s p.1) m, msg ∈ unhandled (withHarness s q.1) m
  responses : ∀ msg ∈ p.2, msg ∈ q.2

theorem Delivering.trans {p q r : TestHarness × List Value} (h : Delivering ids s p q)
    (h' : Delivering ids s q r) : Delivering ids s p r :=
  ⟨h'.sane, h'.network, h'.unread.trans h.unread,
    fun m msg hmsg => h'.unhandled m msg (h.unhandled m msg hmsg),
    fun msg hmsg => h'.responses msg (h.responses msg hmsg)⟩

theorem delivering_send (hsane : Sane ids (withHarness s harness))
    (hnetwork : harness.network = Routing.NetworkSimulator.new) (hnode : dest msg ∈ ids)
    (responses : List Value) :
    Delivering ids s (harness, responses) (harness.send (dest msg) msg, responses) ∧
      msg ∈ unhandled (withHarness s (harness.send (dest msg) msg)) (dest msg) := by
  have hpass : harness.passes msg = true := by
    rw [TestHarness.passes, hnetwork]
    rfl
  have hdelivers := Delivery.delivers_passes hpass
  have hopen : harness.network.isKilled (dest msg) = false := by
    rw [hnetwork]
    rfl
  have hsend : unhandled (withHarness s (harness.send (dest msg) msg)) =
      Function.update (unhandled (withHarness s harness)) (dest msg)
        (unhandled (withHarness s harness) (dest msg) ++ [msg]) :=
    send_unhandled hsane hnode hopen msg
  constructor
  · refine ⟨Sane.delivers (s := withHarness s harness) hsane hdelivers rfl,
      hdelivers.network.trans hnetwork, send_unread (withHarness s harness) _ msg,
      fun m msg' hmsg' => ?_, fun _ h => h⟩
    by_cases hm : m = dest msg
    · subst hm
      rw [hsend, Function.update_self]
      exact List.mem_append_left _ hmsg'
    · rwa [hsend, Function.update_of_ne hm]
  · rw [hsend, Function.update_self]
    exact List.mem_append_right _ (List.mem_singleton_self msg)

theorem delivering_deliver (hsane : Sane ids (withHarness s harness))
    (hnetwork : harness.network = Routing.NetworkSimulator.new) (responses : List Value)
    (msg : Value) :
    Delivering ids s (harness, responses) (TestHarness.deliver (harness, responses) msg) ∧
      (isClientResponse msg = true → msg ∈ (TestHarness.deliver (harness, responses) msg).2) ∧
      (dest msg ∈ ids → msg ∈ unhandled
        (withHarness s (TestHarness.deliver (harness, responses) msg).1) (dest msg)) := by
  have hidle : Delivering ids s (harness, responses) (harness, responses) :=
    ⟨hsane, hnetwork, rfl, fun _ _ h => h, fun _ h => h⟩
  by_cases hclient : isClientResponse msg = true
  · have hdeliver : TestHarness.deliver (harness, responses) msg =
        (harness, responses ++ [msg]) := if_pos hclient
    rw [hdeliver]
    refine ⟨⟨hsane, hnetwork, rfl, fun _ _ h => h, fun _ h => List.mem_append_left _ h⟩,
      fun _ => by simp, fun hnode => ?_⟩
    rw [(isClientResponse_node hsane hnode).1] at hclient
    cases hclient
  · by_cases hnode : dest msg ∈ ids
    · have hpass : harness.passes msg = true := by
        rw [TestHarness.passes, hnetwork]
        rfl
      have hdeliver : TestHarness.deliver (harness, responses) msg =
          (harness.send (dest msg) msg, responses) := by
        rw [TestHarness.deliver, if_neg hclient, (isClientResponse_node hsane hnode).2, hpass]
        exact if_pos rfl
      rw [hdeliver]
      obtain ⟨hsend, hmem⟩ := delivering_send hsane hnetwork hnode responses
      exact ⟨hsend, fun hc => absurd hc hclient, fun _ => hmem⟩
    · have hsend : harness.send (dest msg) msg = harness :=
        if_neg (hsane.faults.nodeIds ▸ hnode)
      have hdeliver : TestHarness.deliver (harness, responses) msg = (harness, responses) := by
        rw [TestHarness.deliver, if_neg hclient, hsend, ite_self]
      rw [hdeliver]
      exact ⟨hidle, fun hc => absurd hc hclient, fun hnode' => absurd hnode' hnode⟩

theorem delivering_deliverMessages (msgs : List Value) :
    ∀ {harness : TestHarness} {responses : List Value}, Sane ids (withHarness s harness) →
      harness.network = Routing.NetworkSimulator.new →
      Delivering ids s (harness, responses) (msgs.foldl TestHarness.deliver (harness, responses)) ∧
      ∀ msg ∈ msgs, (isClientResponse msg = true →
          msg ∈ (msgs.foldl TestHarness.deliver (harness, responses)).2) ∧
        (dest msg ∈ ids → msg ∈ unhandled
          (withHarness s (msgs.foldl TestHarness.deliver (harness, responses)).1) (dest msg)) := by
  induction msgs with
  | nil =>
    intro harness responses hsane hnetwork
    exact ⟨⟨hsane, hnetwork, rfl, fun _ _ h => h, fun _ h => h⟩,
      fun _ h => (List.not_mem_nil h).elim⟩
  | cons msg msgs ih =>
    intro harness responses hsane hnetwork
    obtain ⟨hone, hclient, hnode⟩ := delivering_deliver hsane hnetwork responses msg
    obtain ⟨hrest, hall⟩ : Delivering ids s (TestHarness.deliver (harness, responses) msg)
        (msgs.foldl TestHarness.deliver (TestHarness.deliver (harness, responses) msg)) ∧ _ :=
      ih hone.sane hone.network
    rw [List.foldl_cons]
    refine ⟨hone.trans hrest, fun m hm => ?_⟩
    obtain rfl | hm := List.mem_cons.mp hm
    · exact ⟨fun hc => hrest.responses m (hclient hc),
        fun hd => hrest.unhandled _ m (hnode hd)⟩
    · exact hall m hm

theorem completes_responseEntry (msg : Value) (now : U128) :
    completes (responseEntry msg now) = true := by
  have htype : Harness.eventType msg ∈ ["ok", "fail", "info"] := by
    unfold Harness.eventType
    dsimp only
    repeat' split
    all_goals simp
  exact decide_eq_true htype

theorem recordResponses_nodes (responses : List (Value × U128)) (harness : TestHarness) :
    (harness.recordResponses responses).nodes = harness.nodes ∧
      (harness.recordResponses responses).nemesisActive = harness.nemesisActive ∧
      (harness.recordResponses responses).phase = harness.phase :=
  List.foldlRecOn (motive := fun h : TestHarness => h.nodes = harness.nodes ∧
    h.nemesisActive = harness.nemesisActive ∧ h.phase = harness.phase) _ _ ⟨rfl, rfl, rfl⟩
    (fun _ hsame _ _ => hsame)

theorem delivering_all (hsane : Sane ids (withHarness s harness))
    (hnetwork : harness.network = Routing.NetworkSimulator.new) (msgs : List Value) :
    Delivering ids s (harness, []) (harness.deliverMessages msgs) ∧
      ∀ msg ∈ msgs, (isClientResponse msg = true → msg ∈ (harness.deliverMessages msgs).2) ∧
        (dest msg ∈ ids →
          msg ∈ unhandled (withHarness s (harness.deliverMessages msgs).1) (dest msg)) :=
  delivering_deliverMessages msgs hsane hnetwork

theorem forward_dest {target : String} (h : forward lib msg = some (target, cmd)) :
    dest msg = target := by
  simp only [forward, Option.ite_none_right_eq_some, Option.map_eq_some_iff, Prod.mk.injEq] at h
  obtain ⟨_, _, _, hdest, _⟩ := h
  exact hdest

theorem drain_outstanding (hsane : Sane ids s)
    (hnetwork : s.harness.network = Routing.NetworkSimulator.new) {order : IterOrder String}
    {clock : Nat → U128} (h : s.drain order clock = some t) (hcmd : Outstanding lib ids s cmd) :
    Completed t cmd ∨ Outstanding lib ids t cmd := by
  simp only [TestRun.drain, Option.ite_none_right_eq_some] at h
  obtain ⟨_, rfl⟩ := clocked_eq_some h.2
  obtain ⟨hdrained, hsame⟩ := drain_unread s order
  have hdelivers := Delivery.drainAllMessages_delivers s.harness order
  have hsane' : Sane ids (withHarness s (s.harness.drainAllMessages order).1) :=
    Sane.delivers hsane hdelivers rfl
  obtain ⟨hall, hmsgs⟩ := delivering_all hsane'
    (hdelivers.network.trans hnetwork) (s.harness.drainAllMessages order).2
  generalize (s.harness.drainAllMessages order).1.deliverMessages
    (s.harness.drainAllMessages order).2 = delivered at hall hmsgs ⊢
  generalize hrecorded : delivered.1.recordResponses
    (delivered.2.zipIdx.map (fun m => (m.1, clock m.2))) = recorded
  obtain ⟨hnodes, _⟩ := recordResponses_nodes
    (delivered.2.zipIdx.map (fun m => (m.1, clock m.2))) delivered.1
  rw [hrecorded] at hnodes
  generalize ht : ({ s with harness := recorded, clientIdx := some 0 } : TestRun) = t
  have hunread : unread t = unread (withHarness s (s.harness.drainAllMessages order).1) := by
    rw [← hall.unread, ← ht]
    exact unread_congr hnodes rfl
  have hunhandled : unhandled t = unhandled (withHarness s delivered.1) := by
    rw [← ht]
    exact unhandled_congr hnodes rfl
  have hinput : ∀ m, ∀ msg ∈ unhandled s m, msg ∈ unhandled t m := by
    intro m msg hmsg
    rw [hunhandled]
    exact hall.unhandled m msg (hsame.symm ▸ hmsg)
  have hprocesses : t.processes = s.processes := by rw [← ht]
  cases hcmd with
  | requested hm hmsg hrequest hcmd => exact .inr (.requested hm (hinput _ _ hmsg) hrequest hcmd)
  | pending hbuilt hm hnode hcmd => exact .inr (.pending hbuilt hm (hprocesses ▸ hnode) hcmd)
  | @forwarded m target msg hbuilt hm hmsg htarget hcmd =>
    obtain hmsg | hmsg := hmsg
    · obtain hdrain | hleft := hdrained m msg hmsg
      · have hdest := forward_dest hcmd
        have hwritten := (hmsgs msg hdrain).2 (hdest.symm ▸ htarget)
        exact .inr (.forwarded hbuilt (hdest.symm ▸ htarget) (.inr (hunhandled ▸ hwritten)) htarget
          hcmd)
      · exact .inr (.forwarded hbuilt hm (.inl (hunread ▸ hleft)) htarget hcmd)
    · exact .inr (.forwarded hbuilt hm (.inr (hinput m msg hmsg)) htarget hcmd)
  | appended hbuilt hcmd => exact .inr (.appended hbuilt (by rw [← ht]; exact hcmd))
  | logged hcmd hnode hk =>
    exact .inr (.logged (by rw [← ht]; exact hcmd) (hprocesses ▸ hnode) hk)
  | @answered msg hmsg hclient hid =>
    obtain hdrain | hleft := hdrained _ msg hmsg
    · have hresponse := (hmsgs msg hdrain).1 hclient
      rw [← map_fst_clocked delivered.2 clock] at hresponse
      obtain ⟨m, hm, rfl⟩ := List.mem_map.mp hresponse
      refine .inl ⟨responseEntry m.1 m.2, ?_, completes_responseEntry _ _, hid m.2⟩
      rw [← ht, ← hrecorded, recordResponses_history]
      exact List.mem_append_right _ (List.mem_map.mpr ⟨m, hm, rfl⟩)
    · exact .inr (.answered (hunread ▸ hleft) hclient hid)

theorem ofClient_clientName (clientIdx : Nat) {cmd : MaelstromCommand}
    (h : cmd.clientSrc = Delivery.clientName clientIdx) : ofClient cmd := by
  have hlist : cmd.clientSrc.toList = 'c' :: (toString clientIdx).toList := by
    rw [h, Delivery.clientName, String.toList_append]
    rfl
  rw [ofClient, hlist]
  rfl

def Asks (ids : List String) (i : HistoryEntry) (cmd : MaelstromCommand) : Prop :=
  cmd.msgId = i.id ∧ input i.op i.key i.value i.casFrom i.casTo = some cmd.op ∧
    cmd.coordinator ∈ ids ∧ ofClient cmd

theorem generate_outstanding (hsane : Sane ids s) {choice : Routing.Choice}
    (h : s.generate choice = some t) : t.harness.phase = s.harness.phase ∧
      t.harness.nemesisActive = s.harness.nemesisActive ∧
      (∀ cmd, Outstanding lib ids s cmd → Outstanding lib ids t cmd) ∧
      (t.harness.history = s.harness.history ∨ ∃ i cmd, t.harness.history =
        s.harness.history ++ [i] ∧ Asks ids i cmd ∧ Outstanding lib ids t cmd) := by
  simp only [TestRun.generate, Option.bind_eq_bind, Option.bind_eq_some_iff] at h
  obtain ⟨clientIdx, _, harness, hgenerate, h⟩ := h
  obtain ⟨_, rfl⟩ := clocked_eq_some h
  generalize ht : ({ s with harness := harness, clientIdx := some (clientIdx + 1) } : TestRun) = t
  have hharness : t.harness = harness := by rw [← ht]
  have hprocesses : t.processes = s.processes := by rw [← ht]
  have hmono : (∀ m, ∀ msg ∈ unread s m, msg ∈ unread t m) →
      (∀ m, ∀ msg ∈ unhandled s m, msg ∈ unhandled t m) → ∀ cmd,
        Outstanding lib ids s cmd → Outstanding lib ids t cmd :=
    fun hunread hunhandled cmd hcmd => hcmd.mono (fun m => by rw [hprocesses]) (by rw [← ht])
      (by rw [← ht]) hunread hunhandled
  rw [hharness]
  obtain rfl | ⟨n, hn, hkilled, opType, key, value, casFrom, casTo, htype, hinput, hsend⟩ :=
    generateOne_cases hsane hgenerate
  · refine ⟨rfl, rfl, hmono ?_ ?_, .inl rfl⟩
    · rw [unread_congr (congrArg TestHarness.nodes hharness) hprocesses]
      exact fun _ _ hmsg => hmsg
    · rw [unhandled_congr (congrArg TestHarness.nodes hharness) hprocesses]
      exact fun _ _ hmsg => hmsg
  · obtain ⟨fields, hfields, hsent, hunread, hunhandled⟩ :=
      sendOperation_eq hsane hn hkilled hsend
    obtain ⟨op, hop⟩ := Option.isSome_iff_exists.mp hinput
    have hhistory := congrArg TestHarness.history hsent
    have hread : unread t = unread s :=
      (unread_congr (s := withHarness s harness) (congrArg TestHarness.nodes hharness)
        hprocesses).trans hunread
    have hinput := (unhandled_congr (s := withHarness s harness)
      (congrArg TestHarness.nodes hharness) hprocesses).trans hunhandled
    have hwaits : Outstanding lib ids t
        ⟨n, Delivery.clientName clientIdx, s.harness.nextOpId, op⟩ := by
      have hrequest : isClientRequest (HarnessStep.requestMessage s.harness.nextOpId n
          (Delivery.clientName clientIdx) opType key fields) = true ∧ Readable lib _ :=
        readable_requestMessage htype _ n _ key fields
      refine .requested hn ?_ hrequest.1 ?_
      · rw [hinput, Function.update_self]
        exact List.mem_append_right _ (List.mem_singleton_self _)
      · rw [HarnessIds.clientCommand_requestMessage hfields, hop]
        rfl
    have hasks : Asks ids (HarnessStep.invokeEntry s.harness.nextOpId
        (Delivery.clientName clientIdx) opType key value casFrom casTo choice.now)
          ⟨n, Delivery.clientName clientIdx, s.harness.nextOpId, op⟩ :=
      ⟨rfl, hop, hn, ofClient_clientName clientIdx rfl⟩
    refine ⟨by rw [hsent], by rw [hsent], hmono (hread ▸ fun _ _ hmsg => hmsg)
      (fun m msg hmsg => ?_), .inr ⟨_, _, hhistory, hasks, hwaits⟩⟩
    by_cases hm : m = n
    · subst hm
      rw [hinput, Function.update_self]
      exact List.mem_append_left _ hmsg
    · rwa [hinput, Function.update_of_ne hm]

def Calm (h h' : TestHarness) : Prop := h'.history = h.history ∧ h'.phase = h.phase

theorem calm_send {h h' : TestHarness} (hcalm : Calm h h') (n : String) (msg : Value) :
    Calm h (h'.send n msg) := by
  unfold TestHarness.send
  split
  · exact hcalm
  · exact hcalm

theorem calm_routeMessages (h : TestHarness) (order : IterOrder String) :
    Calm h (h.routeMessages order) := by
  have hrouted : Calm h ((order.order h.nodeIds).foldl TestHarness.routeFrom (h, [])).1 := by
    refine List.foldlRecOn (motive := fun p : TestHarness × List (String × Value) => Calm h p.1)
      _ _ ⟨rfl, rfl⟩ (fun p hp n _ => ?_)
    unfold TestHarness.routeFrom
    split
    · exact hp
    · exact hp
  refine List.foldlRecOn (motive := Calm h) _ _ hrouted (fun h' hh m _ => ?_)
  split
  · exact hh
  · exact calm_send hh m.1 m.2

theorem calm_drainAllMessages (h : TestHarness) (order : IterOrder String) :
    Calm h (h.drainAllMessages order).1 :=
  List.foldlRecOn (motive := fun p : TestHarness × List Value => Calm h p.1) _ _ ⟨rfl, rfl⟩
    (fun _ hp _ _ => hp)

theorem calm_deliverMessages (h : TestHarness) (msgs : List Value) :
    Calm h (h.deliverMessages msgs).1 := by
  refine List.foldlRecOn (motive := fun p : TestHarness × List Value => Calm h p.1) _ _
    ⟨rfl, rfl⟩ (fun p hp msg _ => ?_)
  unfold TestHarness.deliver
  split
  · exact hp
  · split
    · exact calm_send hp _ _
    · exact hp

end Harness

def Led (ids : List String) : Program.Action → Prop
  | .line _ append => Leads ids append
  | .tick _ append => ∀ i, Leads ids (append i)
  | _ => True

/-- Until the responses that are left are routed, every operation is completed or outstanding. -/
structure Accounted (lib : Library) (ids : List String) (s : TestRun) : Prop where
  idle : s.harness.nemesisActive = false
  early : s.harness.phase = .electing ∨ s.harness.phase = .elected → s.harness.history = []
  turn : ∀ i, s.clientIdx = some i → s.harness.phase = .testing
  operations : s.harness.phase ≠ .checking → ∀ i ∈ s.harness.history, invokes i →
    ∃ cmd, Asks ids i cmd ∧ (Completed s cmd ∨ Outstanding lib ids s cmd)

theorem Accounted.of_eq (h : Accounted lib ids s)
    (hactive : t.harness.nemesisActive = s.harness.nemesisActive)
    (hphase : t.harness.phase = s.harness.phase) (hhistory : t.harness.history = s.harness.history)
    (hturn : ∀ i, t.clientIdx = some i → s.clientIdx = some i)
    (hkeeps : ∀ cmd, cmd.coordinator ∈ ids → ofClient cmd → Outstanding lib ids s cmd →
      Outstanding lib ids t cmd) :
    Accounted lib ids t := by
  refine ⟨hactive.trans h.idle, fun hearly => ?_, fun i hi => hphase.trans (h.turn i (hturn i hi)),
    fun hchecking i hi hinv => ?_⟩
  · rw [hhistory]
    exact h.early (hphase ▸ hearly)
  · rw [hhistory] at hi
    obtain ⟨cmd, hasks, ⟨e, he, hcompleted⟩ | houtstanding⟩ :=
      h.operations (hphase ▸ hchecking) i hi hinv
    · exact ⟨cmd, hasks, .inl ⟨e, hhistory ▸ he, hcompleted⟩⟩
    · exact ⟨cmd, hasks, .inr (hkeeps cmd hasks.2.2.1 hasks.2.2.2 houtstanding)⟩

theorem Accounted.grow (h : Accounted lib ids s) {later : List HistoryEntry}
    (hactive : t.harness.nemesisActive = s.harness.nemesisActive)
    (hphase : s.harness.phase = .testing) (hphase' : t.harness.phase = .testing)
    (hhistory : t.harness.history = s.harness.history ++ later)
    (hlater : ∀ i ∈ later, invokes i → ∃ cmd, Asks ids i cmd ∧ Outstanding lib ids t cmd)
    (hkeeps : ∀ cmd, Outstanding lib ids s cmd →
      Completed t cmd ∨ Outstanding lib ids t cmd) : Accounted lib ids t := by
  refine ⟨hactive.trans h.idle, fun hearly => ?_, fun _ _ => hphase', fun _ i hi hinv => ?_⟩
  · rw [hphase'] at hearly
    obtain hearly | hearly := hearly <;> cases hearly
  · rw [hhistory] at hi
    obtain hi | hi := List.mem_append.mp hi
    · have hchecking : s.harness.phase ≠ .checking := by
        rw [hphase]
        decide
      obtain ⟨cmd, hasks, ⟨e, he, hcompleted⟩ | houtstanding⟩ := h.operations hchecking i hi hinv
      · exact ⟨cmd, hasks, .inl ⟨e, hhistory ▸ List.mem_append_left _ he, hcompleted⟩⟩
      · exact ⟨cmd, hasks, hkeeps cmd houtstanding⟩
    · obtain ⟨cmd, hasks, houtstanding⟩ := hlater i hi hinv
      exact ⟨cmd, hasks, .inr houtstanding⟩

/-- Responses are lost only when those that are left are routed. -/
theorem Accounted.route (h : Accounted lib ids s) {order : IterOrder String}
    (hstep : Program.step lib "none" s (.route order) = some t) : Accounted lib ids t := by
  obtain ⟨harness, hroute, rfl⟩ := Option.map_eq_some_iff.mp hstep
  have hactive := (Delivery.routeMessages_delivers s.harness order).nemesisActive.trans h.idle
  have hhistory := (calm_routeMessages s.harness order).1
  have hempty : s.harness.history = [] → s.harness.phase ≠ .testing → ∀ {phase : Routing.Phase},
      Accounted lib ids
        { s with harness := { s.harness.routeMessages order with phase := phase } } := by
    intro hnil hphase phase
    rw [hnil] at hhistory
    refine ⟨hactive, fun _ => hhistory, fun i hi => absurd (h.turn i hi) hphase, fun _ i hi => ?_⟩
    rw [show _ = [] from hhistory] at hi
    cases hi
  simp only [Routing.step] at hroute
  split at hroute
  case h_1 hphase =>
    cases hroute
    exact hempty (h.early (.inl hphase)) (by rw [hphase]; decide)
  case h_2 hphase =>
    cases hroute
    exact hempty (h.early (.inr hphase)) (by rw [hphase]; decide)
  case h_3 hphase =>
    cases hroute
    refine ⟨hactive, fun hearly => absurd hearly (by simp), fun i hi => ?_,
      fun hchecking => absurd rfl hchecking⟩
    have hturn := h.turn i hi
    rw [hphase] at hturn
    cases hturn
  case h_4 => cases hroute
  case h_5 => cases hroute

theorem Accounted.drain (h : Accounted lib ids s) (hsane : Sane ids s)
    {order : IterOrder String} {clock : Nat → U128} (hdrain : s.drain order clock = some t) :
    Accounted lib ids t := by
  have hkeeps : ∀ cmd, Outstanding lib ids s cmd →
      Completed t cmd ∨ Outstanding lib ids t cmd :=
    fun _ hcmd => drain_outstanding hsane (hsane.faults.idle h.idle) hdrain hcmd
  simp only [TestRun.drain, Option.ite_none_right_eq_some] at hdrain
  obtain ⟨⟨hphase, _⟩, hclocked⟩ := hdrain
  obtain ⟨_, rfl⟩ := clocked_eq_some hclocked
  have hdelivers := (Delivery.drainAllMessages_delivers s.harness order).trans
    (Delivery.deliverMessages_delivers _ (s.harness.drainAllMessages order).2)
  have hread := calm_drainAllMessages s.harness order
  have hcalm := calm_deliverMessages (s.harness.drainAllMessages order).1
    (s.harness.drainAllMessages order).2
  generalize hresponses : ((s.harness.drainAllMessages order).1.deliverMessages
    (s.harness.drainAllMessages order).2).2.zipIdx.map (fun m => (m.1, clock m.2)) = responses
    at hkeeps ⊢
  generalize (s.harness.drainAllMessages order).1.deliverMessages
    (s.harness.drainAllMessages order).2 = delivered at hkeeps hdelivers hcalm ⊢
  obtain ⟨_, hactive, hphase'⟩ := recordResponses_nodes responses delivered.1
  refine h.grow (hactive.trans hdelivers.nemesisActive) hphase
    (hphase'.trans (hcalm.2.trans (hread.2.trans hphase)))
    ((recordResponses_history responses delivered.1).trans
      (congrArg (· ++ _) (hcalm.1.trans hread.1))) (fun i hi hinv => ?_) hkeeps
  obtain ⟨m, _, rfl⟩ := List.mem_map.mp hi
  rw [HarnessIds.responseEntry_not_invoke] at hinv
  cases hinv

theorem Accounted.generate (h : Accounted lib ids s) (hsane : Sane ids s)
    {choice : Routing.Choice} (hstep : s.generate choice = some t) : Accounted lib ids t := by
  have hphase : s.harness.phase = .testing := by
    simp only [TestRun.generate, Option.bind_eq_bind, Option.bind_eq_some_iff] at hstep
    obtain ⟨clientIdx, hidx, _⟩ := hstep
    exact h.turn clientIdx hidx
  obtain ⟨hphase', hactive, hkeeps, hsame | ⟨i, cmd, hhistory, hasks, houtstanding⟩⟩ :=
    generate_outstanding hsane hstep
  · exact h.grow hactive hphase (hphase'.trans hphase) (hsame.trans (List.append_nil _).symm)
      (fun _ hi => (List.not_mem_nil hi).elim) (fun cmd hcmd => .inr (hkeeps cmd hcmd))
  · refine h.grow hactive hphase (hphase'.trans hphase) hhistory (fun j hj _ => ?_)
      (fun cmd hcmd => .inr (hkeeps cmd hcmd))
    obtain rfl := List.mem_singleton.mp hj
    exact ⟨cmd, hasks, houtstanding⟩

theorem decide_outstanding (hs : Same lib ids s u) (hg : Grounded ids.toFinset u) {i : Nat}
    {cmd' : MaelstromCommand} (hcmd' : s.appended[i]? = some cmd')
    (hcoordinator : cmd.coordinator ∈ ids) (hcmd : Outstanding lib ids s cmd) : Outstanding lib ids
      { s with log := s.log ++ [cmd'], appended := s.appended.eraseIdx i } cmd := by
  cases hcmd with
  | requested hm hmsg hrequest hcmd => exact .requested hm hmsg hrequest hcmd
  | pending hbuilt hm hnode hcmd => exact .pending hbuilt hm hnode hcmd
  | forwarded hbuilt hm hmsg htarget hcmd => exact .forwarded hbuilt hm hmsg htarget hcmd
  | appended hbuilt hcmd =>
    obtain rfl | hrest := List.mem_cons.mp ((Flight.cons_eraseIdx_perm hcmd').mem_iff.mpr hcmd)
    · have hentry : (s.log ++ [cmd])[s.log.length]? = some cmd := by simp
      have hidx := (hg.replicated.applied_le cmd.coordinator).trans
        (hg.replicated.decided_le cmd.coordinator)
      rw [← hs.log] at hidx
      exact .logged hentry (hs.node_of_built hcoordinator hbuilt) hidx
    · exact .appended hbuilt hrest
  | logged hcmd hnode hk =>
    have hlt := (List.getElem?_eq_some_iff.mp hcmd).1
    exact .logged (by rw [List.getElem?_append_left hlt, hcmd]) hnode hk
  | answered hmsg hclient hid => exact .answered hmsg hclient hid

theorem Accounted.step (h : Accounted lib ids s) (hsane : Sane ids s)
    (hs : Refines lib ids 0 s u) (hg : Grounded ids.toFinset u)
    (htrusted : Trusted lib t) {a : Program.Action} (hled : Led ids a)
    (hstep : Program.step lib "none" s a = some t) : Accounted lib ids t := by
  have hlib := htrusted.faithful
  cases a with
  | line nodeId append =>
    have ⟨hharness, hidx⟩ : t.harness = s.harness ∧ t.clientIdx = s.clientIdx := by
      obtain ⟨_, _, _, msg, process, r, _, _, _, rfl, _⟩ := takeLine_eq hsane hs hstep
      exact ⟨rfl, rfl⟩
    exact h.of_eq (by rw [hharness]) (by rw [hharness]) (by rw [hharness])
      (fun _ hi => hidx ▸ hi)
      (fun cmd _ _ hcmd => takeLine_outstanding hsane hs hg hlib hled hstep hcmd)
  | tick nodeId append =>
    have hkeeps : ∀ cmd, Outstanding lib ids s cmd → Outstanding lib ids t cmd :=
      fun _ hcmd => takeTick_outstanding hsane hs hg hlib hled hstep hcmd
    simp only [Program.step, TestRun.takeTick, Option.bind_eq_bind, Option.pure_def,
      Option.bind_eq_some_iff, Option.some.injEq] at hstep
    obtain ⟨node, _, rfl⟩ := hstep
    exact h.of_eq rfl rfl rfl (fun _ hi => hi) (fun cmd _ _ => hkeeps cmd)
  | finish nodeId outgoing newDecidedIdx =>
    have ⟨hharness, hidx⟩ : t.harness = s.harness ∧ t.clientIdx = s.clientIdx := by
      obtain ⟨_, hstep⟩ := Option.ite_none_right_eq_some.mp hstep
      obtain ⟨_, rfl, _⟩ := sendAndProcess_eq hstep
      exact ⟨rfl, rfl⟩
    exact h.of_eq (by rw [hharness]) (by rw [hharness]) (by rw [hharness])
      (fun _ hi => hidx ▸ hi)
      (fun cmd _ hclient hcmd => finish_outstanding hsane hs hg hstep hclient hcmd)
  | finishAnew nodeId outgoing newDecidedIdx decided =>
    obtain ⟨hrestarted, hstep⟩ := Option.ite_none_right_eq_some.mp hstep
    obtain ⟨_, rfl, _⟩ := sendAndProcess_eq hstep
    exact absurd (hrestarted.symm.trans htrusted.kept) (by simp)
  | decide i =>
    obtain ⟨cmd', hcmd', rfl⟩ := Option.map_eq_some_iff.mp hstep
    exact h.of_eq rfl rfl rfl (fun _ hi => hi)
      (fun cmd hmem _ hcmd => decide_outstanding hs.same hg hcmd' hmem hcmd)
  | read nodeId =>
    obtain ⟨hunread, hunhandled, hprocesses, hlog, happended, hharness, hidx⟩ := readLine_eq hstep
    refine h.of_eq (by rw [hharness]) (by rw [hharness]) (by rw [hharness])
      (fun _ hi => hidx ▸ hi)
      (fun cmd _ _ hcmd => hcmd.mono (fun m => (hprocesses m).1) hlog happended ?_ ?_)
    · exact hunread ▸ fun _ _ hmsg => hmsg
    · exact hunhandled ▸ fun _ _ hmsg => hmsg
  | cut nodeId kept broken =>
    simp only [Program.step, Option.ite_none_right_eq_some] at hstep
    obtain ⟨⟨hmem, hdead⟩, _⟩ := hstep
    rw [Sane.alive hsane (hsane.faults.nodeIds ▸ hmem), hsane.faults.idle h.idle] at hdead
    cases hdead
  | route order => exact h.route hstep
  | drain order clock => exact h.drain hsane hstep
  | generate choice =>
    exact h.generate hsane hstep
  | nemesis choice =>
    simp only [Program.step, TestRun.nemesis, Option.bind_eq_bind, Option.bind_eq_some_iff,
      ↓reduceIte, Option.some.injEq] at hstep
    obtain ⟨_, _, rfl⟩ := hstep
    exact h.of_eq rfl rfl rfl (fun _ hi => by cases hi)
      (fun cmd _ _ hcmd => hcmd.mono (fun _ => rfl) rfl rfl
        (fun _ _ hmsg => hmsg) (fun _ _ hmsg => hmsg))
  | stop =>
    simp only [Program.step, Option.ite_none_right_eq_some, Option.map_eq_some_iff, Routing.step,
      Option.some.injEq] at hstep
    obtain ⟨hidle, harness, ⟨hphase, rfl⟩, rfl⟩ := hstep
    refine ⟨h.idle, fun hearly => absurd hearly (by simp), fun i hi => ?_, fun _ i hi hinv => ?_⟩
    · rw [show s.clientIdx = none from hidle] at hi
      cases hi
    obtain ⟨cmd, hasks, hcompleted | houtstanding⟩ :=
      h.operations (by rw [hphase]; decide) i hi hinv
    · exact ⟨cmd, hasks, .inl hcompleted⟩
    · exact ⟨cmd, hasks, .inr (houtstanding.mono (fun _ => rfl) rfl rfl (fun _ _ hmsg => hmsg)
        (fun _ _ hmsg => hmsg))⟩

def sentWrite : List Program.Action :=
  [.route .reverse, .route .reverse, .drain .reverse (fun _ => 0), .generate ⟨0, 1, .write 5, 1⟩,
    .nemesis none, .line "n1" (.err (some 1)), .finish "n1" [] 0]

def answeredWrite : List Program.Action :=
  [.read "n1", .drain .reverse (fun _ => 0), .nemesis none, .line "n0" .ok, .finish "n0" [] 0,
    .decide 0, .tick "n1" (fun _ => .ok), .finish "n1" [] 1, .tick "n0" (fun _ => .ok),
    .finish "n0" [] 1, .read "n1", .drain .reverse (fun _ => 2)]

theorem led_sentWrite : ∀ a ∈ sentWrite, Led (nodeIds 2) a := by
  have hleads : Leads (nodeIds 2) (.err (some 1)) := by
    rintro leaderId ⟨⟩
    decide +kernel
  simpa [sentWrite, Led] using hleads

theorem led_answeredWrite : ∀ a ∈ sentWrite ++ answeredWrite, Led (nodeIds 2) a := by
  have hok : Leads (nodeIds 2) .ok := fun _ h => by cases h
  intro a ha
  obtain ha | ha := List.mem_append.mp ha
  · exact led_sentWrite a ha
  · simp only [answeredWrite, List.mem_cons, List.not_mem_nil, or_false] at ha
    obtain rfl | rfl | rfl | rfl | rfl | rfl | rfl | rfl | rfl | rfl | rfl | rfl := ha
    all_goals first | exact trivial | exact hok | exact fun _ => hok

section Run

variable (size : UInt64) {acts : List Program.Action}

theorem accounted_init (lib : Library) :
    Accounted lib (nodeIds size) (Program.init lib size.toNat) :=
  ⟨rfl, fun _ => rfl, fun i hi => (Option.some_ne_none i hi.symm).elim,
    fun _ _ hi => (List.not_mem_nil hi).elim⟩

theorem run_kept
    (hrun : run (Program.step lib "none") (Program.init lib size.toNat) acts = some s) :
    s.restarted = false := by
  refine run_invariant (fun s => s.restarted = false) (fun s a t _ hkept hstep => ?_) rfl hrun
  obtain hsame | ⟨hnemesis, _⟩ := step_restarted hstep
  · exact hsame.trans hkept
  · exact absurd rfl hnemesis

theorem run_accounted
    (hrun : run (Program.step lib "none") (Program.init lib size.toNat) acts = some s)
    (hlib : Faithful lib s.forwarded) (hled : ∀ a ∈ acts, Led (nodeIds size) a) :
    ∃ u, Reaches (Harness.step (nodeIds size).toFinset) Harness.init u ∧
      Refines lib (nodeIds size) 0 s u ∧ Accounted lib (nodeIds size) s := by
  have hsim : Simulates (Program.step lib "none") (Harness.step (nodeIds size).toFinset)
      (fun s u => Grounded (nodeIds size).toFinset u ∧ Refines lib (nodeIds size) 0 s u ∧
        Accounted lib (nodeIds size) s)
      (Sane (nodeIds size)) (Trusted lib) (Led (nodeIds size)) := by
    rintro s a t u hled hsane htrusted ⟨hg, hs, hacc⟩ hstep
    obtain ⟨v, hreach, hv⟩ := step_refines hsane hs hg htrusted hstep
    exact ⟨v, hreach, hreach.keeps (fun _ _ _ => step_grounded) hg, hv,
      hacc.step hsane hs hg htrusted hled hstep⟩
  obtain ⟨u, hreach, _, hu, hacc⟩ := hsim.run (fun _ _ _ => step_trusted) hled
    (sane_init lib size) ⟨grounded_init _, refines_init lib size, accounted_init size lib⟩
    hrun ⟨hlib, run_kept size hrun⟩
  exact ⟨u, hreach, hu, hacc⟩

/-- Without faults no operation is lost: until the responses that are left are routed, each is
completed, or its command or response is in a line, with a node or with OmniPaxos. -/
theorem no_operation_lost
    (hrun : run (Program.step lib "none") (Program.init lib size.toNat) acts = some s)
    (hlib : Faithful lib s.forwarded) (hled : ∀ a ∈ acts, Led (nodeIds size) a)
    (hphase : s.harness.phase ≠ .checking) : ∀ i ∈ s.harness.history, invokes i →
      ∃ cmd, Asks (nodeIds size) i cmd ∧
        (Completed s cmd ∨ Outstanding lib (nodeIds size) s cmd) := by
  obtain ⟨u, _, _, hacc⟩ := run_accounted size hrun hlib hled
  exact hacc.operations hphase

theorem no_operation_lost_sentWrite : ∃ s,
    run (Program.step writeLibrary "none") (Program.init writeLibrary (2 : UInt64).toNat)
      sentWrite = some s ∧
      s.harness.history.map (fun e => (e.id, e.eventType)) = [(1, "invoke")] ∧
      ∃ cmd, cmd.msgId = 1 ∧ Outstanding writeLibrary (nodeIds 2) s cmd := by
  have hrun : (run (Program.step writeLibrary "none")
      (Program.init writeLibrary (2 : UInt64).toNat) sentWrite).any (fun s =>
        s.forwarded = [writeCommand] ∧ s.harness.phase = .testing ∧
        s.harness.history.map (fun e => (e.id, e.eventType)) = [(1, "invoke")]) = true := by
    decide +kernel
  obtain ⟨s, hs, hprop⟩ := (Option.any_eq_true _ _).mp hrun
  obtain ⟨hforwarded, hphase, hhistory⟩ := of_decide_eq_true hprop
  obtain ⟨i, hi, hentry⟩ : ∃ i ∈ s.harness.history, (i.id, i.eventType) = (1, "invoke") :=
    List.mem_map.mp (hhistory ▸ List.mem_singleton_self _)
  obtain ⟨hid, htype⟩ := Prod.mk.inj hentry
  obtain ⟨cmd, hasks, ⟨e, he, hcompleted, _⟩ | houtstanding⟩ :=
    no_operation_lost 2 hs (hforwarded ▸ writeLibrary_faithful) led_sentWrite
      (by rw [hphase]; decide) i hi (decide_eq_true htype)
  · have hmem : (e.id, e.eventType) ∈ s.harness.history.map (fun e => (e.id, e.eventType)) :=
      List.mem_map.mpr ⟨e, he, rfl⟩
    rw [hhistory, List.mem_singleton, Prod.mk.injEq] at hmem
    rw [completes, hmem.2] at hcompleted
    exact absurd hcompleted (by decide)
  · exact ⟨s, hs, hhistory, cmd, hasks.1.trans hid, houtstanding⟩

/-- All lines are handled, and every node has applied the log. -/
def Quiescent (ids : List String) (s : TestRun) : Prop :=
  s.appended = [] ∧ ∀ n ∈ ids, unread s n = [] ∧ unhandled s n = [] ∧
    (s.processes n).node.any (fun node =>
      node.pendingForwards = [] ∧ node.decidedIdx = s.log.length) = true

instance (ids : List String) (s : TestRun) : Decidable (Quiescent ids s) :=
  inferInstanceAs (Decidable (_ ∧ _))

theorem Quiescent.not_outstanding (h : Quiescent ids s) (hcoordinator : cmd.coordinator ∈ ids) :
    ¬ Outstanding lib ids s cmd := by
  have hnode : ∀ n ∈ ids, ∀ node, (s.processes n).node = some node →
      node.pendingForwards = [] ∧ node.decidedIdx = s.log.length := by
    intro n hn node hnode
    have hall := (h.2 n hn).2.2
    rw [hnode] at hall
    exact of_decide_eq_true hall
  rintro (⟨hn, hmsg, _⟩ | ⟨_, hn, hnode', hcmd⟩ | ⟨_, hn, hmsg | hmsg, _⟩ | ⟨_, hcmd⟩ |
    ⟨hcmd, hnode', hk⟩ | ⟨hmsg, _⟩)
  · rw [(h.2 _ hn).2.1] at hmsg
    cases hmsg
  · rw [(hnode _ hn _ hnode').1] at hcmd
    cases hcmd
  · rw [(h.2 _ hn).1] at hmsg
    cases hmsg
  · rw [(h.2 _ hn).2.1] at hmsg
    cases hmsg
  · rw [h.1] at hcmd
    cases hcmd
  · have hlt := (List.getElem?_eq_some_iff.mp hcmd).1
    rw [(hnode _ hcoordinator _ hnode').2] at hk
    exact absurd hlt (not_lt.mpr hk)
  · rw [(h.2 _ hcoordinator).1] at hmsg
    cases hmsg

/-- A run without faults that comes to rest before the last call of `route_messages` passes. -/
theorem quiescent_accepted (iter : Checker.IterOrder)
    (hrun : run (Program.step lib "none") (Program.init lib size.toNat) acts = some s)
    (hlib : Faithful lib s.forwarded) (hled : ∀ a ∈ acts, Led (nodeIds size) a)
    (hphase : s.harness.phase ≠ .checking) (hquiescent : Quiescent (nodeIds size) s) :
    HarnessCheck.Complete s.harness.history ∧
      checkLinearizability iter s.harness.history = some (.ok ()) := by
  obtain ⟨u, ⟨acts', hreach⟩, hu, hacc⟩ := run_accounted size hrun hlib hled
  obtain ⟨hg, hn, hr⟩ := HarnessHistory.run_recorded hreach
  have hdone : HarnessCheck.Complete s.harness.history := by
    intro i hi hinv
    obtain ⟨cmd, hasks, ⟨e, he, hcompleted, hid⟩ | houtstanding⟩ :=
      hacc.operations hphase i hi hinv
    · exact ⟨e, he, hcompleted, hid.trans hasks.1⟩
    · exact absurd houtstanding (hquiescent.not_outstanding hasks.2.2.1)
  refine ⟨hdone, ?_⟩
  rw [hu.same.history] at hdone ⊢
  exact RecordedHistory.accepted_of_recorded hg hn hr hdone iter

theorem quiescent_accepted_answeredWrite : ∃ s,
    run (Program.step writeLibrary "none") (Program.init writeLibrary (2 : UInt64).toNat)
      (sentWrite ++ answeredWrite) = some s ∧ Quiescent (nodeIds 2) s ∧
      s.harness.history.map (fun e => (e.id, e.eventType)) = [(1, "invoke"), (1, "ok")] ∧
      checkLinearizability ⟨fun l => l, List.Perm.refl⟩ s.harness.history = some (.ok ()) := by
  have hrun : (run (Program.step writeLibrary "none")
      (Program.init writeLibrary (2 : UInt64).toNat) (sentWrite ++ answeredWrite)).any (fun s =>
        s.forwarded = [writeCommand] ∧ s.harness.phase = .testing ∧ Quiescent (nodeIds 2) s ∧
        s.harness.history.map (fun e => (e.id, e.eventType)) = [(1, "invoke"), (1, "ok")]) =
          true := by
    decide +kernel
  obtain ⟨s, hs, hprop⟩ := (Option.any_eq_true _ _).mp hrun
  obtain ⟨hforwarded, hphase, hquiescent, hhistory⟩ := of_decide_eq_true hprop
  obtain ⟨_, haccepted⟩ := quiescent_accepted 2 ⟨fun l => l, List.Perm.refl⟩ hs
    (hforwarded ▸ writeLibrary_faithful) led_answeredWrite (by rw [hphase]; decide) hquiescent
  exact ⟨s, hs, hquiescent, hhistory, haccepted⟩

end Run

end OmniPaxosJepsen.FaultFree
