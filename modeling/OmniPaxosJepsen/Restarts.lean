import OmniPaxosJepsen.Flight
import OmniPaxosJepsen.HarnessCheck

namespace OmniPaxosJepsen.Restarts

open Json KvSpec Node Checker Apply Cluster Replication Harness Answers HistorySpec HarnessStep
  HarnessIds HarnessHistory Flight Runs

def completions (id : Nat) (history : List HistoryEntry) : Nat :=
  history.countP (fun e => completes e && e.id = id)

def restarts (node : String) (acts : List Harness.Action) : Nat :=
  acts.countP (fun
    | .restart n => n = node
    | _ => false)

def repliesTo (id : Nat) (msg : Value) : Bool :=
  ((msg.get "body").get "in_reply_to").asU64.getD 0 = id

theorem repliesTo_render (id : Nat) (node : String) (cmd : MaelstromCommand) (r : Reply Value) :
    repliesTo id (render node cmd r) = decide (cmd.msgId = id) := by
  cases r <;> rfl

theorem countP_responses_le (id : Nat) (node : String) (kv : Store)
    (cmds : List MaelstromCommand) : (responses node kv cmds).countP (repliesTo id) ≤
      (cmds.map MaelstromCommand.msgId).count id := by
  induction cmds generalizing kv with
  | nil => exact Nat.zero_le _
  | cons cmd cmds ih =>
    have hrest := ih (apply kv cmd.op).1
    rw [responses, List.countP_append, List.map_cons, List.count_cons]
    have hfirst : (response node kv cmd).countP (repliesTo id) ≤
        if cmd.msgId == id then 1 else 0 := by
      rw [response]
      split
      · simp [repliesTo_render]
      · exact Nat.zero_le _
    omega

/-- The answers to an operation all come from one node, and the earlier processes of
that node have given at most `r` of them. -/
structure Counted (id : Nat) (node : String) (r : Nat) (s : HarnessState) : Prop where
  sent : id < s.nextOpId
  owner : ∀ cmd ∈ known s, cmd.msgId = id → cmd.coordinator = node
  recorded : completions id s.history + s.stdout.countP (fun m => repliesTo id m.2) ≤
    (s.cluster.sent node).countP (repliesTo id)
  earlier : (s.earlier node).countP (repliesTo id) ≤ r

variable {members : Finset String} {id r : Nat} {node : String} {s t : HarnessState}

/-- The present process of a node adds at most one answer. -/
theorem countP_sent_le (hg : Grounded members s) (hn : Named s)
    (hearlier : (s.earlier node).countP (repliesTo id) ≤ r) :
    (s.cluster.sent node).countP (repliesTo id) ≤ r + 1 := by
  have hids := log_ids_nodup hg.conserved
    (hn.distinct.sublist ((List.sublist_append_right _ _).map _))
  have hpart : ((s.cluster.log.take (s.cluster.nodes node).decidedIdx).map
      MaelstromCommand.msgId).Nodup := hids.sublist ((List.take_sublist _ _).map _)
  have hresp := countP_responses_le id node emptyStore
    (s.cluster.log.take (s.cluster.nodes node).decidedIdx)
  have hone := List.nodup_iff_count_le_one.mp hpart id
  rw [hg.replicated.sent node, List.countP_append]
  omega

theorem repliesTo_owner (hg : Grounded members s)
    (howner : ∀ cmd ∈ known s, cmd.msgId = id → cmd.coordinator = node) {n : String}
    {msg : Value} (hmsg : msg ∈ s.cluster.sent n) (hreply : repliesTo id msg = true) :
    n = node := by
  obtain ⟨k, cmd, hk, rfl, rfl⟩ := hg.answer hmsg
  rw [repliesTo_render, decide_eq_true_eq] at hreply
  exact howner cmd (log_known hg (List.mem_of_getElem? hk)) hreply

theorem completions_append (id : Nat) (l l' : List HistoryEntry) :
    completions id (l ++ l') = completions id l + completions id l' := List.countP_append

theorem completions_responseEntry_le (id : Nat) (msg : Value) (now : U128) :
    completions id [responseEntry msg now] ≤ if repliesTo id msg then 1 else 0 := by
  by_cases h : ((msg.get "body").get "in_reply_to").asU64.getD 0 = id
  · have hle : completions id [responseEntry msg now] ≤ 1 := List.countP_le_length
    simpa [repliesTo, h] using hle
  · simp [completions, repliesTo, responseEntry, h]

theorem step_owner (hg : Grounded members s) (hc : Counted id node r s) {a : Harness.Action}
    (h : Harness.step members s a = some t) :
    id < t.nextOpId ∧ ∀ cmd ∈ known t, cmd.msgId = id → cmd.coordinator = node := by
  have hknown := step_known hg h
  obtain ⟨_, _, _, _, hnext, hmem⟩ | ⟨hnone, hnext, _⟩ := step_invokes h
  · refine ⟨hnext ▸ Nat.lt_succ_of_lt hc.sent, fun cmd hcmd hid => ?_⟩
    obtain hold | hnew := List.mem_append.mp (hknown.subset hcmd)
    · exact hc.owner cmd hold hid
    · exact absurd ((hmem cmd hnew).1.symm.trans hid) hc.sent.ne'
  · refine ⟨hnext ▸ hc.sent, fun cmd hcmd hid => ?_⟩
    rw [hnone, List.append_nil] at hknown
    exact hc.owner cmd (hknown.subset hcmd) hid

theorem countP_written_le (hg : Grounded members t)
    (howner : ∀ cmd ∈ known t, cmd.msgId = id → cmd.coordinator = node) {n : String}
    {msgs : List Value} (hsent : ∀ msg ∈ msgs, msg ∈ t.cluster.sent n) :
    (msgs.map (fun msg => (n, msg))).countP (fun m => repliesTo id m.2) ≤
      (if n = node then msgs else []).countP (repliesTo id) := by
  rw [List.countP_map]
  by_cases hn : n = node
  · simp [hn, Function.comp_def]
  · apply le_of_eq
    rw [if_neg hn, List.countP_nil, List.countP_eq_zero]
    intro msg hmsg hreply
    exact hn (repliesTo_owner hg howner (hsent msg hmsg) hreply)

theorem step_completions (hg : Grounded members s) (hc : Counted id node r s) {a : Harness.Action}
    (h : Harness.step members s a = some t) :
    completions id t.history + t.stdout.countP (fun m => repliesTo id m.2) ≤
      (t.cluster.sent node).countP (repliesTo id) := by
  have hgt := step_grounded hg h
  have howner := (step_owner hg hc h).2
  have hnext := HarnessStep.step_next h
  have hrec := hc.recorded
  cases a with
  | sendOperation n client opType key value casFrom casTo now =>
    obtain ⟨_, fields, _, rfl⟩ := hnext
    have hnone : completions id [invokeEntry s.nextOpId client opType key value casFrom casTo now]
        = 0 := rfl
    rw [completions_append, hnone]
    exact hrec
  | handle i append =>
    obtain ⟨n, msg, cluster, _, hstep, rfl⟩ := hnext
    obtain ⟨l, hl, _⟩ := step_history hstep
    apply hrec.trans
    simp only [ClusterState.sent, hl, List.filterMap_append, List.countP_append]
    omega
  | internal a =>
    obtain ⟨cluster, n, msgs, _, _, hl, rfl⟩ := hnext
    have hgrow : cluster.sent node = s.cluster.sent node ++ (if n = node then msgs else []) := by
      by_cases hnn : n = node <;> simp [ClusterState.sent, hl, List.filterMap_map, hnn]
    have hwritten : ∀ msg ∈ msgs, msg ∈ cluster.sent n := by
      intro msg hmsg
      simp [ClusterState.sent, hl, List.filterMap_map, hmsg]
    have hnew := countP_written_le hgt howner hwritten
    simp only [hgrow, List.countP_append]
    omega
  | recordResponse i now =>
    obtain ⟨n, msg, hm, _, rfl⟩ := hnext
    have herase := countP_eraseIdx (fun m => repliesTo id m.2) hm
    have hone := completions_responseEntry_le id msg now
    dsimp only at herase
    simp only [completions_append]
    omega
  | discard i =>
    obtain rfl := hnext
    exact (Nat.add_le_add_left ((List.eraseIdx_sublist _ _).countP_le) _).trans hrec
  | kill n =>
    obtain rfl := hnext
    exact hrec
  | restart n =>
    obtain ⟨_, rfl⟩ := hnext
    exact (Nat.add_le_add_left List.filter_sublist.countP_le _).trans hrec

/-- Only a restart of the node turns answers of its process into answers of an earlier one. -/
theorem step_earlier (hg : Grounded members s) (hn : Named s) (hc : Counted id node r s)
    {a : Harness.Action} (h : Harness.step members s a = some t) :
    (t.earlier node).countP (repliesTo id) ≤ r + restarts node [a] := by
  have hnext := HarnessStep.step_next h
  cases a with
  | restart n =>
    obtain ⟨_, rfl⟩ := hnext
    by_cases hnn : n = node
    · subst hnn
      simpa [HarnessState.rebuild, restarts] using countP_sent_le hg hn hc.earlier
    · simpa [HarnessState.rebuild, restarts, hnn, Function.update_of_ne (Ne.symm hnn)]
        using hc.earlier
  | sendOperation n client opType key value casFrom casTo now =>
    obtain ⟨_, fields, _, rfl⟩ := hnext
    exact hc.earlier
  | handle i append =>
    obtain ⟨n, msg, cluster, _, _, rfl⟩ := hnext
    exact hc.earlier
  | internal a =>
    obtain ⟨cluster, n, msgs, _, _, _, rfl⟩ := hnext
    exact hc.earlier
  | recordResponse i now =>
    obtain ⟨n, msg, _, _, rfl⟩ := hnext
    exact hc.earlier
  | discard i =>
    obtain rfl := hnext
    exact hc.earlier
  | kill n =>
    obtain rfl := hnext
    exact hc.earlier

theorem step_counted (hg : Grounded members s) (hc : Counted id node r s)
    (hn : Named s) {a : Harness.Action} (h : Harness.step members s a = some t) :
    Counted id node (r + restarts node [a]) t :=
  ⟨(step_owner hg hc h).1, (step_owner hg hc h).2, step_completions hg hc h,
    step_earlier hg hn hc h⟩

theorem restarts_cons (node : String) (a : Harness.Action) (acts : List Harness.Action) :
    restarts node (a :: acts) = restarts node [a] + restarts node acts := by
  rw [restarts, restarts, restarts, ← List.countP_append]
  rfl

theorem run_counted {acts : List Harness.Action} (hg : Grounded members s) (hn : Named s)
    (hc : Counted id node r s) (h : run (Harness.step members) s acts = some t) :
    Grounded members t ∧ Named t ∧ Counted id node (r + restarts node acts) t := by
  induction acts generalizing s r with
  | nil =>
    cases h
    exact ⟨hg, hn, hc⟩
  | cons a acts ih =>
    obtain ⟨u, hstep, hrun⟩ := run_cons_eq_some.mp h
    have hrest := ih (step_grounded hg hstep) (step_named hg hn hstep)
      (step_counted hg hc hn hstep) hrun
    rwa [restarts_cons, ← Nat.add_assoc]

theorem counted_send (hg : Grounded members s) (hn : Named s) (hr : Recorded s)
    {client opType key : String} {value casFrom casTo : Option Value} {now : U128}
    (h : Harness.step members s (.sendOperation node client opType key value casFrom casTo now) =
      some t) : Counted s.nextOpId node 0 t := by
  have hfresh : ∀ {n msg}, msg ∈ s.cluster.sent n → repliesTo s.nextOpId msg = false := by
    intro n msg hmsg
    obtain ⟨k, cmd, hk, _, rfl⟩ := hg.answer hmsg
    have hlt := hn.msgId_lt (log_known hg (List.mem_of_getElem? hk))
    simpa [repliesTo_render] using hlt.ne
  have hknown := step_known hg h
  obtain ⟨_, fields, _, rfl⟩ := HarnessStep.step_next h
  refine ⟨Nat.lt_succ_self _, fun cmd hcmd hid => ?_, ?_, ?_⟩
  · obtain hold | hnew := List.mem_append.mp (hknown.subset hcmd)
    · exact absurd hid (hn.msgId_lt hold).ne
    · obtain ⟨op, _, rfl⟩ := Option.map_eq_some_iff.mp (Option.mem_toList.mp hnew)
      rfl
  · have hhist : completions s.nextOpId s.history = 0 := by
      apply List.countP_eq_zero.mpr
      intro e he hcomp
      simp only [Bool.and_eq_true, decide_eq_true_eq] at hcomp
      obtain ⟨k, cmd, hk, hid, _⟩ := HarnessCheck.completion_entry hg hr he hcomp.1
      have hlt := hn.msgId_lt (log_known hg (List.mem_of_getElem? hk))
      omega
    have hout : s.stdout.countP (fun m => repliesTo s.nextOpId m.2) = 0 :=
      List.countP_eq_zero.mpr (fun m hm => by simp [hfresh (hg.unread m hm)])
    have hinv : completions s.nextOpId
        [invokeEntry s.nextOpId client opType key value casFrom casTo now] = 0 := rfl
    rw [completions_append, hhist, hinv, hout]
    exact Nat.zero_le _
  · refine (List.countP_eq_zero.mpr (fun msg hmsg => ?_)).le
    have hsent : msg ∈ s.cluster.sent node := by
      rw [hg.replicated.sent node]
      exact List.mem_append_left _ hmsg
    simp [hfresh hsent]

/-- The harness runs a write on one node, which is killed and built anew after it has
answered: the node gets the log again and answers again. -/
def answeredTwice : List Harness.Action :=
  [.sendOperation "n0" "c1" "write" "x" (some (.u64 5)) none none 1, .handle 0 .ok,
    .internal (.decide 0), .internal (.advance "n0" 1), .internal (.process "n0"),
    .recordResponse 0 2, .kill "n0", .restart "n0", .internal (.advance "n0" 1),
    .internal (.process "n0"), .recordResponse 0 3]

/-- An operation completes at most once for every process of the node that it was sent
to: once, and once more for every time that the node is built anew afterwards. -/
theorem completions_le_restarts (members : Finset String) (before after : List Harness.Action)
    (node client opType key : String) (value casFrom casTo : Option Value) (now : U128)
    (s₁ s : HarnessState) (h₁ : run (Harness.step members) Harness.init before = some s₁)
    (h : run (Harness.step members) s₁
      (.sendOperation node client opType key value casFrom casTo now :: after) = some s) :
    completions s₁.nextOpId s.history ≤ 1 + restarts node after := by
  obtain ⟨hg, hn, hr⟩ := run_recorded h₁
  obtain ⟨u, hstep, hrun⟩ := run_cons_eq_some.mp h
  obtain ⟨hgs, hns, hc⟩ := run_counted (step_grounded hg hstep) (step_named hg hn hstep)
    (counted_send hg hn hr hstep) hrun
  have hsent := countP_sent_le hgs hns hc.earlier
  have hrec := hc.recorded
  omega

theorem answeredTwice_completions : ∃ s,
    run (Harness.step {"n0", "n1"}) Harness.init answeredTwice = some s ∧
      completions 1 s.history ≤ 2 := by
  obtain ⟨s, hs⟩ := Option.isSome_iff_exists.mp
    (show (run (Harness.step {"n0", "n1"}) Harness.init answeredTwice).isSome by decide)
  exact ⟨s, hs, completions_le_restarts {"n0", "n1"} [] answeredTwice.tail "n0" "c1" "write" "x"
    (some (.u64 5)) none none 1 Harness.init s rfl hs⟩

/-- The one operation of that run completes twice. -/
theorem completes_twice :
    (run (Harness.step {"n0", "n1"}) Harness.init answeredTwice).map
      (fun s => completions 1 s.history) = some 2 := by
  decide

end OmniPaxosJepsen.Restarts
