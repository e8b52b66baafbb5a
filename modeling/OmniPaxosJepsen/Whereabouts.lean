import OmniPaxosJepsen.ProgramHarness

namespace OmniPaxosJepsen.Whereabouts

open Json KvSpec Node Checker Cluster Apply EventLoop NodeLines Traffic Program ProgramNodes
open Harness (HarnessState isClientResponse responseEntry)
open HistorySpec (completes)
open Replication (core tryAppend_core tick_core)

def Leads (ids : List String) (append : AppendResult) : Prop :=
  ∀ leaderId, append = .err (some leaderId) → opToMaelstromId leaderId ∈ ids

/-- A handler leaves a command with its node, OmniPaxos or in a message to another node. -/
def Retains (ids : List String) (r : MaelstromNode × Effects) (cmd : MaelstromCommand) : Prop :=
  cmd ∈ r.2.appended ∨ cmd ∈ r.1.pendingForwards ∨ ∃ target ∈ ids, (target, cmd) ∈ forwards r.2.sent

section Handlers

variable {ids : List String} {cmd cmd' : MaelstromCommand}

theorem retains_tryAppend (self : MaelstromNode) {append : AppendResult}
    (hleads : Leads ids append) (cmd : MaelstromCommand) :
    Retains ids (self.tryAppend append cmd) cmd := by
  cases append with
  | ok => exact .inl (by simp [MaelstromNode.tryAppend])
  | err leader =>
    cases leader with
    | none => exact .inr (.inl (by simp [MaelstromNode.tryAppend]))
    | some leaderId =>
      by_cases hself : opToMaelstromId leaderId = self.nodeId
      · exact .inr (.inl (by simp [MaelstromNode.tryAppend, hself]))
      · refine .inr (.inr ⟨opToMaelstromId leaderId, hleads leaderId rfl, ?_⟩)
        simp [MaelstromNode.tryAppend, hself, forwards]

theorem pending_tryAppend (self : MaelstromNode) (append : AppendResult)
    (cmd' : MaelstromCommand) (h : cmd ∈ self.pendingForwards) :
    cmd ∈ (self.tryAppend append cmd').1.pendingForwards := by
  cases append with
  | ok => exact h
  | err leader =>
    cases leader with
    | none => exact List.mem_append_left _ h
    | some leaderId =>
      by_cases hself : opToMaelstromId leaderId = self.nodeId
      · simp [MaelstromNode.tryAppend, hself, h]
      · simpa [MaelstromNode.tryAppend, hself] using h

theorem pending_retry (self : MaelstromNode) (append : Nat → AppendResult)
    (pending : List MaelstromCommand) (h : cmd ∈ self.pendingForwards) :
    cmd ∈ (self.retry append pending).1.pendingForwards := by
  induction pending generalizing self append with
  | nil => exact h
  | cons cmd' pending ih => exact ih _ _ (pending_tryAppend self (append 0) cmd' h)

theorem retains_retry (self : MaelstromNode) {append : Nat → AppendResult}
    {pending : List MaelstromCommand} (hleads : ∀ i, Leads ids (append i)) (h : cmd ∈ pending) :
    Retains ids (self.retry append pending) cmd := by
  induction pending generalizing self append with
  | nil => cases h
  | cons cmd' pending ih =>
    have hforwards : ∀ e e' : Effects, forwards (e.append e').sent =
        forwards e.sent ++ forwards e'.sent := fun e e' => List.filterMap_append
    obtain rfl | h := List.mem_cons.mp h
    · obtain happended | hpending | ⟨target, htarget, hsent⟩ :=
        retains_tryAppend self (hleads 0) cmd
      · exact .inl (List.mem_append_left _ happended)
      · exact .inr (.inl (pending_retry _ _ pending hpending))
      · refine .inr (.inr ⟨target, htarget, ?_⟩)
        rw [MaelstromNode.retry, hforwards]
        exact List.mem_append_left _ hsent
    · obtain happended | hpending | ⟨target, htarget, hsent⟩ :=
        ih (self.tryAppend (append 0) cmd').1 (fun i => hleads (i + 1)) h
      · exact .inl (List.mem_append_right _ happended)
      · exact .inr (.inl hpending)
      · refine .inr (.inr ⟨target, htarget, ?_⟩)
        rw [MaelstromNode.retry, hforwards]
        exact List.mem_append_right _ hsent

end Handlers

theorem clientCommand_coordinator {nodeId : String} {msg : Value} {cmd : MaelstromCommand}
    (h : clientCommand nodeId msg = some cmd) : cmd.coordinator = nodeId := by
  simp only [clientCommand, MaelstromNode.requestCommand, Option.bind_eq_bind, Option.pure_def,
    Option.bind_eq_some_iff, Option.some.injEq] at h
  obtain ⟨_, ⟨_, _, _, _, rfl⟩, hop⟩ := h
  obtain ⟨_, _, rfl⟩ := Option.map_eq_some_iff.mp hop
  rfl

/-- Where the command of an operation is while the operation is not completed. Only a node that
could be built takes requests. -/
inductive Outstanding (lib : Library) (ids : List String) (s : TestRun) (cmd : MaelstromCommand) :
    Prop
  | requested {n : String} {msg : Value} (hn : n ∈ ids) (hmsg : msg ∈ unhandled s n)
      (hrequest : isClientRequest msg = true) (hcmd : clientCommand n msg = some cmd)
  | pending {n : String} {node : MaelstromNode} (hbuilt : built lib ids cmd.coordinator = true)
      (hn : n ∈ ids) (hnode : (s.processes n).node = some node) (hcmd : cmd ∈ node.pendingForwards)
  | forwarded {n target : String} {msg : Value} (hbuilt : built lib ids cmd.coordinator = true)
      (hn : n ∈ ids) (hmsg : msg ∈ unread s n ∨ msg ∈ unhandled s n) (htarget : target ∈ ids)
      (hcmd : forward lib msg = some (target, cmd))
  | appended (hbuilt : built lib ids cmd.coordinator = true) (hcmd : cmd ∈ s.appended)
  | logged {k : Nat} {node : MaelstromNode} (hcmd : s.log[k]? = some cmd)
      (hnode : (s.processes cmd.coordinator).node = some node) (hidx : node.decidedIdx ≤ k)
  | answered {msg : Value} (hmsg : msg ∈ unread s cmd.coordinator)
      (hclient : isClientResponse msg = true) (hid : ∀ now, (responseEntry msg now).id = cmd.msgId)

def Completed (s : TestRun) (cmd : MaelstromCommand) : Prop :=
  ∃ e ∈ s.harness.history, completes e ∧ e.id = cmd.msgId

section Nodes

variable {lib : Library} {ids : List String} {s t : TestRun} {u v : HarnessState} {n : String}
  {process : Process} {node : MaelstromNode} {r : MaelstromNode × Effects}
  {cmd : MaelstromCommand}

/-- A step that lines, nodes and the log outlast loses no command. -/
theorem Outstanding.mono (h : Outstanding lib ids s cmd)
    (hprocesses : ∀ m, (t.processes m).node = (s.processes m).node) (hlog : t.log = s.log)
    (happended : t.appended = s.appended) (hunread : ∀ m, ∀ msg ∈ unread s m, msg ∈ unread t m)
    (hunhandled : ∀ m, ∀ msg ∈ unhandled s m, msg ∈ unhandled t m) :
    Outstanding lib ids t cmd := by
  cases h with
  | requested hm hmsg hrequest hcmd => exact .requested hm (hunhandled _ _ hmsg) hrequest hcmd
  | pending hbuilt hm hnode hcmd => exact .pending hbuilt hm ((hprocesses _).trans hnode) hcmd
  | forwarded hbuilt hm hmsg htarget hcmd =>
    exact .forwarded hbuilt hm (hmsg.imp (hunread _ _) (hunhandled _ _)) htarget hcmd
  | appended hbuilt hcmd => exact .appended hbuilt (happended.symm ▸ hcmd)
  | logged hcmd hnode hk => exact .logged (hlog.symm ▸ hcmd) ((hprocesses _).trans hnode) hk
  | answered hmsg hclient hid => exact .answered (hunread _ _ hmsg) hclient hid

section Perform

variable (hn : n ∈ ids) (hsent : Forwards n r.2.sent)
  (hlib : Faithful lib ((forwards r.2.sent).map Prod.snd))
  (hpipe : process.pipe = (s.processes n).pipe)

include hpipe in
theorem perform_unread : unread (s.perform lib n process r) n =
    unread s n ++ r.2.sent.map (toValue lib) :=
  unread_append (t := s.perform lib n process r) (s := s) rfl perform_processes
    (by rw [hpipe, List.map_map]; rfl)

include hn hsent hlib hpipe in
theorem outstanding_of_retains (hbuilt : built lib ids cmd.coordinator = true)
    (h : Retains ids r cmd) : Outstanding lib ids (s.perform lib n process r) cmd := by
  obtain happended | hpending | ⟨target, htarget, hforward⟩ := h
  · exact .appended hbuilt (List.mem_append_right _ happended)
  · exact .pending hbuilt hn (by simp [perform_processes]) hpending
  · rw [← hsent.filterMap_forward hlib] at hforward
    obtain ⟨msg, hmsg, hcmd⟩ := List.mem_filterMap.mp hforward
    refine .forwarded hbuilt hn (.inl ?_) htarget hcmd
    rw [perform_unread hpipe]
    exact List.mem_append_right _ hmsg

include hn hsent hlib hpipe in
theorem Outstanding.perform (hself : built lib ids n = true)
    (hnode : (s.processes n).node = some node)
    (hidx : r.1.decidedIdx = node.decidedIdx)
    (hpending : ∀ cmd ∈ node.pendingForwards, Retains ids r cmd)
    (htaken : ∀ msg ∈ unhandled s n, msg ∈ unhandled (s.perform lib n process r) n ∨
      (∀ cmd, isClientRequest msg = true → clientCommand n msg = some cmd → Retains ids r cmd) ∧
        ∀ target cmd, forward lib msg = some (target, cmd) → Retains ids r cmd)
    (h : Outstanding lib ids s cmd) :
    Outstanding lib ids (s.perform lib n process r) cmd := by
  have hretains : ∀ {cmd}, built lib ids cmd.coordinator = true → Retains ids r cmd →
      Outstanding lib ids (s.perform lib n process r) cmd :=
    fun hbuilt h => outstanding_of_retains hn hsent hlib hpipe hbuilt h
  have hother : ∀ m, m ≠ n → unhandled (s.perform lib n process r) m = unhandled s m :=
    fun m hm => unhandled_of_ne (t := s.perform lib n process r) (s := s) rfl
      perform_processes hm
  have hread : ∀ m, ∀ msg ∈ unread s m, msg ∈ unread (s.perform lib n process r) m := by
    intro m msg hmsg
    by_cases hm : m = n
    · subst hm
      rw [perform_unread hpipe]
      exact List.mem_append_left _ hmsg
    · rwa [unread_of_ne (t := s.perform lib n process r) (s := s) rfl perform_processes hm]
  cases h with
  | @requested m msg hm hmsg hrequest hcmd =>
    by_cases hmn : m = n
    · subst hmn
      obtain hrest | ⟨htaken, _⟩ := htaken msg hmsg
      · exact .requested hm hrest hrequest hcmd
      · exact hretains (clientCommand_coordinator hcmd ▸ hself) (htaken cmd hrequest hcmd)
    · exact .requested hm (hother m hmn ▸ hmsg) hrequest hcmd
  | @pending m node' hbuilt hm hnode' hcmd =>
    by_cases hmn : m = n
    · subst hmn
      obtain rfl := Option.some.inj (hnode.symm.trans hnode')
      exact hretains hbuilt (hpending cmd hcmd)
    · exact .pending hbuilt hm (by rwa [perform_processes, Function.update_of_ne hmn]) hcmd
  | @forwarded m target msg hbuilt hm hmsg htarget hcmd =>
    obtain hmsg | hmsg := hmsg
    · exact .forwarded hbuilt hm (.inl (hread m msg hmsg)) htarget hcmd
    · by_cases hmn : m = n
      · subst hmn
        obtain hrest | ⟨_, htaken⟩ := htaken msg hmsg
        · exact .forwarded hbuilt hm (.inr hrest) htarget hcmd
        · exact hretains hbuilt (htaken target cmd hcmd)
      · exact .forwarded hbuilt hm (.inr (hother m hmn ▸ hmsg)) htarget hcmd
  | appended hbuilt hcmd => exact .appended hbuilt (List.mem_append_left _ hcmd)
  | @logged k node' hcmd hnode' hk =>
    by_cases hmn : cmd.coordinator = n
    · rw [hmn] at hnode'
      obtain rfl := Option.some.inj (hnode.symm.trans hnode')
      have hself : ((s.perform lib n process r).processes cmd.coordinator).node = some r.1 := by
        rw [hmn, perform_processes, Function.update_self]
      exact .logged hcmd hself (hidx ▸ hk)
    · exact .logged hcmd (by rwa [perform_processes, Function.update_of_ne hmn]) hk
  | answered hmsg hclient hid => exact .answered (hread _ _ hmsg) hclient hid

end Perform

theorem takeLine_outstanding (hsane : Sane ids s) (hs : Refines lib ids 0 s u)
    (hg : HarnessStep.Grounded ids.toFinset u) (hlib : Faithful lib t.forwarded)
    {append : AppendResult} (hleads : Leads ids append)
    (h : s.takeLine lib n append = some t) (hcmd : Outstanding lib ids s cmd) :
    Outstanding lib ids t cmd := by
  obtain ⟨hn, hbuilt, _, msg, process, r, hpipe, _, hr, rfl, hself⟩ := takeLine_eq hsane hs h
  have hstate := hs.same.node_of_built hn hbuilt
  have hnode : (u.cluster.nodes n).nodeId = n := hg.replicated.nodeId n
  have hfaithful : Faithful lib ((forwards r.2.sent).map Prod.snd) :=
    fun cmd hcmd => hlib cmd (List.mem_append_right _ hcmd)
  have hrest : ∀ {P : Value → Prop}, P msg → ∀ msg' ∈ unhandled s n,
      msg' ∈ unhandled (s.perform lib n process r) n ∨ P msg' := by
    intro P hP msg' hmsg'
    rw [hself] at hmsg'
    obtain rfl | hmem := List.mem_cons.mp hmsg'
    · exact .inr hP
    · exact .inl hmem
  have happend : ∀ cmd', r = (u.cluster.nodes n).tryAppend append cmd' →
      Forwards n r.2.sent ∧ r.1.decidedIdx = (u.cluster.nodes n).decidedIdx ∧
        (∀ cmd ∈ (u.cluster.nodes n).pendingForwards, Retains ids r cmd) ∧ Retains ids r cmd' := by
    rintro cmd' rfl
    have hsent := forwards_tryAppend (u.cluster.nodes n) append cmd'
    rw [hnode] at hsent
    have hcore := tryAppend_core (u.cluster.nodes n) append cmd'
    exact ⟨hsent, congrArg (fun c => c.2.2) hcore,
      fun cmd hcmd => .inr (.inl (pending_tryAppend _ append cmd' hcmd)),
      retains_tryAppend _ hleads cmd'⟩
  by_cases hrequest : isClientRequest msg = true
  · rw [handleLine_request hrequest] at hr
    obtain ⟨cmd', hcmd', heq⟩ := handleClientRequest_eq_some hrequest hr
    rw [hnode] at hcmd'
    obtain ⟨hsent, hidx, hpending, hretains⟩ := happend cmd' heq
    refine Outstanding.perform hn hsent hfaithful hpipe hbuilt hstate hidx hpending
      (hrest ⟨fun cmd _ hcmd => ?_, fun target cmd hforward => ?_⟩) hcmd
    · rw [hcmd'] at hcmd
      exact Option.some.inj hcmd ▸ hretains
    · obtain ht | ht | ht := (isClientRequest_iff msg).mp hrequest <;>
        simp [forward, ht] at hforward
  · by_cases htype : msgType msg = "forward"
    · rw [handleLine_forward htype] at hr
      obtain ⟨cmd', hcmd', heq⟩ := Option.map_eq_some_iff.mp hr
      obtain ⟨hsent, hidx, hpending, hretains⟩ := happend cmd' heq.symm
      refine Outstanding.perform hn hsent hfaithful hpipe hbuilt hstate hidx hpending
        (hrest ⟨fun cmd hreq => absurd hreq hrequest, fun target cmd hforward => ?_⟩) hcmd
      simp only [forward, htype, ↓reduceIte, hcmd', Option.map_some, Option.some.injEq,
        Prod.mk.injEq] at hforward
      exact hforward.2 ▸ hretains
    · obtain rfl := handleLine_other (Bool.not_eq_true _ ▸ hrequest) htype hr
      refine Outstanding.perform hn (fun _ hline => (List.not_mem_nil hline).elim) hfaithful hpipe
        hbuilt hstate rfl (fun cmd hcmd => .inr (.inl hcmd))
        (hrest ⟨fun cmd hreq => absurd hreq hrequest, fun target cmd hforward => ?_⟩) hcmd
      simp [forward, htype] at hforward

theorem takeTick_outstanding (hsane : Sane ids s) (hs : Refines lib ids 0 s u)
    (hg : HarnessStep.Grounded ids.toFinset u) (hlib : Faithful lib t.forwarded)
    {append : Nat → AppendResult} (hleads : ∀ i, Leads ids (append i))
    (h : s.takeTick lib n append = some t) (hcmd : Outstanding lib ids s cmd) :
    Outstanding lib ids t cmd := by
  simp only [TestRun.takeTick, Option.bind_eq_bind, Option.pure_def, Option.bind_eq_some_iff,
    Option.some.injEq] at h
  obtain ⟨node, hrun, rfl⟩ := h
  obtain ⟨hn, hbuilt, rfl, _⟩ := hs.same.running hsane hrun
  have hsent := forwards_tick (u.cluster.nodes n) append
  rw [hg.replicated.nodeId n] at hsent
  have hcore := tick_core (u.cluster.nodes n) append
  refine Outstanding.perform hn hsent (fun cmd hcmd => hlib cmd (List.mem_append_right _ hcmd))
    rfl hbuilt (hs.same.node_of_built hn hbuilt) (congrArg (fun c => c.2.2) hcore)
    (fun cmd hcmd => retains_retry _ hleads hcmd) (fun msg hmsg => .inl ?_) hcmd
  rwa [unhandled_eq (s := s)
    (t := s.perform lib n (s.processes n) ((u.cluster.nodes n).tick append)) rfl
      perform_processes rfl]

end Nodes

end OmniPaxosJepsen.Whereabouts
