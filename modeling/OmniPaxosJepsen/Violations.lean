import OmniPaxosJepsen.CheckerResult
import OmniPaxosJepsen.EndToEnd

namespace OmniPaxosJepsen.Violations

open Json KvSpec Node Checker Cluster Answers HistorySpec HarnessStep HarnessIds HarnessHistory
  HarnessCheck KvModel Linearization Locality Pairing Verdict TryLinearize CheckerResult Program
  ProgramNodes NodeLines EndToEnd Runs
open Harness (HarnessState)
open RecordedHistory (operation_realTime)

def report (key : String) (operations : Nat) : String :=
  "Linearizability violation found for key '" ++ key ++ "' with " ++ toString operations ++
    " operations"

theorem checkKeys_cons (key : String) (l : List LinearOp) (byKey : List (String × List LinearOp)) :
    checkKeys ((key, l) :: byKey) = (tryLinearize l KVModel.new 0).bind (fun found =>
      if found then checkKeys byKey else some (.error (report key l.length))) := rfl

theorem checkKeys_cases {byKey : List (String × List LinearOp)}
    (hsafe : ∀ e ∈ byKey, ∀ op ∈ e.2, Safe op) :
    checkKeys byKey = some (.ok ()) ∨
      ∃ e ∈ byKey, tryLinearize e.2 KVModel.new 0 = some false ∧
        checkKeys byKey = some (.error (report e.1 e.2.length)) := by
  induction byKey with
  | nil => exact .inl rfl
  | cons e byKey ih =>
    obtain ⟨key, l⟩ := e
    have hsome : (tryLinearize l KVModel.new 0).isSome :=
      tryLinearize_isSome (hsafe (key, l) (by simp))
    obtain ⟨found, hfound⟩ := Option.isSome_iff_exists.mp hsome
    rw [checkKeys_cons, hfound, Option.bind_some]
    cases found with
    | false => exact .inr ⟨(key, l), by simp, hfound, rfl⟩
    | true =>
      obtain hok | ⟨e, he, hsearch, herror⟩ := ih (fun e he => hsafe e (by simp [he]))
      · exact .inl hok
      · exact .inr ⟨e, by simp [he], hsearch, herror⟩

theorem checkLinearizability_cases (iter : IterOrder) {history : List HistoryEntry}
    (h : WellFormed history) :
    checkLinearizability iter history = some (.ok ()) ∨
      ∃ key, tryLinearize (onKey LinearOp.key key (recorded history)) KVModel.new 0 =
          some false ∧
        checkLinearizability iter history =
          some (.error (report key (onKey LinearOp.key key (recorded history)).length)) := by
  have hperm := (List.mergeSort_perm _ (fun a b : LinearOp => a.invokeTime ≤ b.invokeTime)).trans
    (pairUp_perm (inOrder_of_wellFormed h))
  rw [checkLinearizability]
  generalize (pairUp history).mergeSort (fun a b => a.invokeTime ≤ b.invokeTime) = ops at hperm ⊢
  have hsafe : ∀ op ∈ ops, Safe op := fun op hop => (recorded_wf h op (hperm.subset hop)).1
  have hgroup := grouped_groupByKey ops
  have hentry : ∀ e ∈ iter.order (groupByKey ops), e.2 = onKey LinearOp.key e.1 ops :=
    fun e he => hgroup.entry e.1 e.2 ((iter.perm _).subset he)
  split
  · exact .inl rfl
  · have hkeys : ∀ e ∈ iter.order (groupByKey ops), ∀ op ∈ e.2, Safe op := by
      intro e he op hop
      rw [hentry e he] at hop
      exact hsafe op (List.mem_filter.mp hop).1
    obtain hok | ⟨e, he, hsearch, herror⟩ := checkKeys_cases hkeys
    · exact .inl hok
    · have hkey : e.2.Perm (onKey LinearOp.key e.1 (recorded history)) := by
        rw [hentry e he]
        exact hperm.filter _
      refine .inr ⟨e.1, ?_, by rw [herror, hkey.length_eq]⟩
      have hsome : (tryLinearize (onKey LinearOp.key e.1 (recorded history))
          KVModel.new 0).isSome :=
        tryLinearize_isSome (fun op hop => (recorded_wf h op (onKey_recorded op hop)).1)
      obtain ⟨found, hfound⟩ := Option.isSome_iff_exists.mp hsome
      cases found with
      | false => exact hfound
      | true =>
        have hother := tryLinearize_of_perm
          (fun op hop => (recorded_wf h op (onKey_recorded op hop)).1) hkey.symm hfound
        rw [hsearch] at hother
        cases hother

theorem not_hasOrder_of_search {history : List HistoryEntry} (h : WellFormed history)
    {key : String} (hsearch : tryLinearize (onKey LinearOp.key key (recorded history))
      KVModel.new 0 = some false) :
    ¬ HasOrder LinearOp.invokeTime LinearOp.completeTime accept KVModel.new
      (onKey LinearOp.key key (recorded history)) := by
  intro horder
  have hfound : tryLinearize (onKey LinearOp.key key (recorded history)) KVModel.new 0 =
      some true :=
    (tryLinearize_iff (fun op hop => (recorded_wf h op (onKey_recorded op hop)).1)
      (fun op hop => (recorded_wf h op (onKey_recorded op hop)).2.1)).mpr
      (horder.hasBeginning 101)
  rw [hsearch] at hfound
  cases hfound

theorem strict_order_iff {history : List HistoryEntry} (h : WellFormed history)
    {ops : List LinearOp} (hops : ∀ op ∈ ops, op ∈ recorded history) :
    HasOrder Operation.invoked Operation.completed takeEffect emptyStore (ops.map toOperation) ↔
      HasOrder LinearOp.invokeTime LinearOp.completeTime accept KVModel.new ops := by
  rw [hasOrder_iff_hasBeginning, hasOrder_iff_hasBeginning, List.length_map,
    strict_beginning_iff h _ hops]

/-- The check of a well-formed history does not panic, and when it fails it names a key and
the number of the operations on it that were answered or indeterminate. In their strict
reading these have no legal order, and neither have all operations together. -/
theorem violation_reported (iter : IterOrder) (history : List HistoryEntry)
    (h : WellFormed history) : ∃ r, checkLinearizability iter history = some r ∧
      ∀ msg, r = .error msg → ∃ key,
        msg = report key (onKey Operation.key key (strictly (operations history))).length ∧
        ¬ HasOrder Operation.invoked Operation.completed takeEffect emptyStore
          (onKey Operation.key key (strictly (operations history))) ∧
        ¬ HasOrder Operation.invoked Operation.completed takeEffect emptyStore
          (strictly (operations history)) := by
  obtain hok | ⟨key, hsearch, herror⟩ := checkLinearizability_cases iter h
  · exact ⟨_, hok, fun msg hmsg => by cases hmsg⟩
  · refine ⟨_, herror, fun msg hmsg => ⟨key, ?_, ?_, fun hall => ?_⟩⟩
    · cases hmsg
      rw [onKey_strictly, List.length_map]
    · rw [onKey_strictly, strict_order_iff h onKey_recorded]
      exact not_hasOrder_of_search h hsearch
    · rw [← map_recorded, strict_order_iff h (fun _ hop => hop)] at hall
      exact not_hasOrder_of_search h hsearch
        (HasOrder.onKey (fun op hop => (recorded_wf h op hop).2.1) hall key)

def strayRead : List HistoryEntry :=
  [invokeEntry 1 "read" none 1, completeEntry 1 "ok" "read" (some (.u64 7)) 2]

theorem violation_reported_strayRead :
    checkLinearizability anyOrder strayRead = some (.error (report "x" 1)) ∧
      ¬ HasOrder Operation.invoked Operation.completed takeEffect emptyStore
        (strictly (operations strayRead)) := by
  have hwf : WellFormed strayRead := by decide
  have hrejected : checkLinearizability anyOrder strayRead = some (.error (report "x" 1)) := by
    decide +kernel
  obtain ⟨r, hr, hreport⟩ := violation_reported anyOrder strayRead hwf
  rw [hrejected, Option.some.injEq] at hr
  obtain ⟨key, _, _, hnone⟩ := hreport _ hr.symm
  exact ⟨hrejected, hnone⟩

def Unanswered (history : List HistoryEntry) (cmd : MaelstromCommand) : Prop :=
  ∀ e ∈ history, completes e → e.id ≠ cmd.msgId

instance (history : List HistoryEntry) (cmd : MaelstromCommand) :
    Decidable (Unanswered history cmd) :=
  inferInstanceAs (Decidable (∀ e ∈ history, _))

/-- The entry of the log at `k` changes what the key holds. -/
def Changes (log : List MaelstromCommand) (k : Nat) (key : String) : Prop :=
  replay emptyStore ((log.take (k + 1)).map MaelstromCommand.op) key ≠
    replay emptyStore ((log.take k).map MaelstromCommand.op) key

theorem replay_take_succ {log : List MaelstromCommand} {k : Nat} {cmd : MaelstromCommand}
    (hk : log[k]? = some cmd) (kv : Store) :
    replay kv ((log.take (k + 1)).map MaelstromCommand.op) =
      (apply (replay kv ((log.take k).map MaelstromCommand.op)) cmd.op).1 := by
  rw [List.take_add_one, hk, Option.toList_some, List.map_append, List.map_singleton,
    replay_concat]

/-- What is kept of a log is legal on a key, if it recorded the replies of the store there and
the rest of the log did not change the key. -/
theorem legal_of_kept {cmds : List MaelstromCommand} {kept : MaelstromCommand → Bool}
    {f : MaelstromCommand → LinearOp} {key : String} {kv : Store}
    (hkept : ∀ k cmd, cmds[k]? = some cmd → kept cmd = true → cmd.op.key = key ∧
      opInput (f cmd) = some cmd.op ∧ agrees (f cmd).result (f cmd).casOk cmd.op
        (apply (replay kv ((cmds.take k).map MaelstromCommand.op)) cmd.op).2 = true)
    (hleft : ∀ k cmd, cmds[k]? = some cmd → kept cmd = false →
      replay kv ((cmds.take (k + 1)).map MaelstromCommand.op) key =
        replay kv ((cmds.take k).map MaelstromCommand.op) key) :
    Legal acceptCell (kv key) ((cmds.filter kept).map f) := by
  induction cmds generalizing kv with
  | nil => exact legal_nil _ _
  | cons cmd cmds ih =>
    have hrest : Legal acceptCell ((apply kv cmd.op).1 key) ((cmds.filter kept).map f) :=
      ih (fun k c hk => hkept (k + 1) c hk) (fun k c hk => hleft (k + 1) c hk)
    cases hcmd : kept cmd with
    | false =>
      have hsame : (apply kv cmd.op).1 key = kv key := hleft 0 cmd rfl hcmd
      rwa [List.filter_cons_of_neg (by simp [hcmd]), ← hsame]
    | true =>
      obtain ⟨rfl, hinput, hagrees⟩ := hkept 0 cmd rfl hcmd
      rw [List.filter_cons_of_pos hcmd, List.map_cons]
      refine legal_cons.mpr ⟨(apply kv cmd.op).1 cmd.op.key, ?_, hrest⟩
      have hcell : (apply kv cmd.op).1 cmd.op.key = (applyCell (kv cmd.op.key) cmd.op).1 :=
        Function.update_self _ _ _
      rw [acceptCell, hinput, Option.bind_some, hcell]
      exact if_pos hagrees

section Recorded

variable {members : Finset String} {s : HarnessState}

theorem answered_op (hg : Grounded members s) (hn : Named s) (hr : Recorded s) {k : Nat}
    {cmd : MaelstromCommand} (hk : s.cluster.log[k]? = some cmd)
    (hanswered : ¬ Unanswered s.history cmd) : ∃ op ∈ recorded s.history, op.id = cmd.msgId ∧
      opInput op = some cmd.op ∧
      agrees op.result op.casOk cmd.op (replyAt s.cluster.log k cmd) = true := by
  obtain ⟨i, hi, hinv, hid, hinput⟩ := hn.requested cmd (log_known hg (List.mem_of_getElem? hk))
  obtain ⟨c, hc, hcomp, hcid⟩ : ∃ c ∈ s.history, completes c ∧ c.id = cmd.msgId := by
    simpa [Unanswered] using hanswered
  obtain ⟨e, he⟩ : ∃ e, completionOf s.history i.id = some e :=
    Option.isSome_iff_exists.mp (List.find?_isSome.mpr ⟨c, hc, by simp [hcomp, hcid, hid]⟩)
  obtain ⟨hmem, hecomp, heid⟩ := completionOf_some he
  obtain ⟨k', cmd', hk', hid', _, htype, hvalue⟩ := completion_op hg hn hr hi hmem hinv hecomp heid
  obtain ⟨rfl, rfl⟩ := log_inj hg hn hk hk' (by rw [hid', hid])
  refine ⟨linearOp i e, ?_, heid.trans hid, hinput, agrees_of_reply rfl htype hvalue⟩
  exact List.mem_filterMap.mpr ⟨i, List.mem_filter.mpr ⟨hi, hinv⟩, by rw [he]; rfl⟩

/-- A key has a legal order, the one of the log, if every entry that changes it is answered. -/
theorem answered_hasOrder (hg : Grounded members s) (hn : Named s) (hr : Recorded s)
    {key : String} (hchanges : ∀ k cmd, s.cluster.log[k]? = some cmd →
      Unanswered s.history cmd → ¬ Changes s.cluster.log k key) :
    HasOrder LinearOp.invokeTime LinearOp.completeTime accept KVModel.new
      (onKey LinearOp.key key (recorded s.history)) := by
  have hop : ∀ cmd, cmd ∈ s.cluster.log ∧ ¬ Unanswered s.history cmd →
      ∃ op ∈ recorded s.history, op.id = cmd.msgId := by
    rintro cmd ⟨hcmd, hanswered⟩
    obtain ⟨k, hk⟩ := List.getElem?_of_mem hcmd
    obtain ⟨op, hop, hid, _⟩ := answered_op hg hn hr hk hanswered
    exact ⟨op, hop, hid⟩
  have : Nonempty LinearOp := ⟨default⟩
  choose! f hmem hid using hop
  have hids : ((recorded s.history).map LinearOp.id).Nodup :=
    hn.unique.sublist (recorded_ids_sublist s.history)
  have hsame : ∀ {op}, op ∈ recorded s.history → ∀ {cmd}, cmd ∈ s.cluster.log →
      ¬ Unanswered s.history cmd → op.id = cmd.msgId → f cmd = op :=
    fun hop _ hcmd ha he =>
      List.inj_on_of_nodup_map hids (hmem _ ⟨hcmd, ha⟩) hop ((hid _ ⟨hcmd, ha⟩).trans he.symm)
  have hwf := history_wellFormed hg hn hr
  let kept (cmd : MaelstromCommand) : Bool := cmd.op.key = key ∧ ¬ Unanswered s.history cmd
  have hkept : ∀ {cmd}, kept cmd = true ↔ cmd.op.key = key ∧ ¬ Unanswered s.history cmd :=
    decide_eq_true_iff
  refine (hasOrder_onKey_iff (fun op hop => (recorded_wf hwf op hop).2.1) key).mpr
    ⟨(s.cluster.log.filter kept).map f, ?_, ?_, ?_⟩
  · refine (List.perm_ext_iff_of_nodup ?_ (hids.of_map.filter _)).mpr
      (fun op => ⟨fun h => ?_, fun h => ?_⟩)
    · apply List.Nodup.of_map LinearOp.id
      have hmap : ((s.cluster.log.filter kept).map f).map LinearOp.id =
          (s.cluster.log.filter kept).map MaelstromCommand.msgId := by
        rw [List.map_map]
        refine List.map_congr_left (fun cmd hcmd => ?_)
        obtain ⟨hcmd, hk⟩ := List.mem_filter.mp hcmd
        exact hid cmd ⟨hcmd, (hkept.mp hk).2⟩
      rw [hmap]
      exact (log_ids_nodup hg.conserved (hn.distinct.sublist
        ((List.sublist_append_right _ _).map _))).sublist (List.filter_sublist.map _)
    · obtain ⟨cmd, hcmd, rfl⟩ := List.mem_map.mp h
      obtain ⟨hcmd, hk⟩ := List.mem_filter.mp hcmd
      obtain ⟨hkey, hanswered⟩ := hkept.mp hk
      obtain ⟨k, hk⟩ := List.getElem?_of_mem hcmd
      obtain ⟨op, hop, hopid, hinput, _⟩ := answered_op hg hn hr hk hanswered
      obtain rfl := hsame hop hcmd hanswered hopid
      exact List.mem_filter.mpr ⟨hop, decide_eq_true ((input_key hinput).symm.trans hkey)⟩
    · obtain ⟨hop, hkey⟩ := List.mem_filter.mp h
      obtain ⟨i, hi, e, he, hinv, hc, heid, rfl⟩ := mem_recorded hop
      obtain ⟨k, cmd, hk, hcid, hinput, _⟩ := completion_op hg hn hr hi he hinv hc heid
      have hanswered : ¬ Unanswered s.history cmd :=
        fun hnone => hnone e he hc (heid.trans hcid.symm)
      have hcmd := List.mem_of_getElem? hk
      refine List.mem_map.mpr ⟨cmd, List.mem_filter.mpr ⟨hcmd, hkept.mpr ⟨?_, hanswered⟩⟩,
        hsame hop hcmd hanswered (heid.trans hcid.symm)⟩
      exact (input_key hinput).trans (of_decide_eq_true hkey)
  · refine List.pairwise_map.mpr (List.Pairwise.imp_of_mem
      (R := fun c c' => kept c → kept c' → ¬ (f c').completeTime < (f c).invokeTime)
      (fun ha hb hab => hab (List.mem_filter.mp ha).2 (List.mem_filter.mp hb).2)
      (List.Pairwise.filter _ (List.pairwise_iff_getElem.mpr (fun k₁ k₂ h₁ h₂ hlt hk₁ hk₂ => ?_))))
    have ha₁ : _ ∧ _ := ⟨List.getElem_mem h₁, (hkept.mp hk₁).2⟩
    have ha₂ : _ ∧ _ := ⟨List.getElem_mem h₂, (hkept.mp hk₂).2⟩
    exact log_realTime hg hn hr (List.getElem?_eq_getElem h₁) (List.getElem?_eq_getElem h₂)
      (hmem _ ha₁) (hmem _ ha₂) (hid _ ha₁) (hid _ ha₂) hlt
  · change Legal acceptCell (emptyStore key) ((s.cluster.log.filter kept).map f)
    refine legal_of_kept (fun k cmd hk hcmd => ?_) (fun k cmd hk hcmd => ?_)
    · obtain ⟨hkey, hanswered⟩ := hkept.mp hcmd
      obtain ⟨op, hop, hopid, hinput, hagrees⟩ := answered_op hg hn hr hk hanswered
      rw [hsame hop (List.mem_of_getElem? hk) hanswered hopid]
      exact ⟨hkey, hinput, hagrees⟩
    · by_cases hkey : cmd.op.key = key
      · have hnone : Unanswered s.history cmd := by
          by_contra hanswered
          rw [hkept.mpr ⟨hkey, hanswered⟩] at hcmd
          cases hcmd
        exact not_not.mp (hchanges k cmd hk hnone)
      · rw [replay_take_succ hk]
        exact apply_other _ _ (Ne.symm hkey)

theorem violation_of_recorded (hg : Grounded members s) (hn : Named s) (hr : Recorded s)
    (iter : IterOrder) : ∃ r, checkLinearizability iter s.history = some r ∧
      ∀ msg, r = .error msg → ∃ key n k cmd, msg = report key n ∧
        s.cluster.log[k]? = some cmd ∧ Unanswered s.history cmd ∧ Changes s.cluster.log k key := by
  have hwf := history_wellFormed hg hn hr
  obtain hok | ⟨key, hsearch, herror⟩ := checkLinearizability_cases iter hwf
  · exact ⟨_, hok, fun msg hmsg => by cases hmsg⟩
  · refine ⟨_, herror, fun msg hmsg => ?_⟩
    by_contra hnone
    exact not_hasOrder_of_search hwf hsearch (answered_hasOrder hg hn hr
      (fun k cmd hk hun hchange =>
        hnone ⟨key, _, k, cmd, (Except.error.inj hmsg).symm, hk, hun, hchange⟩))

end Recorded

/-- A write to `n1`, forwarded to the leader `n0`, is decided and never answered; a read at `n0`
finds what it wrote. -/
def readBeforeAnswer : List Program.Action :=
  [.route .reverse, .route .reverse, .drain .reverse (fun _ => 0), .generate ⟨0, 1, .write 5, 1⟩,
    .nemesis none, .line "n1" (.err (some 1)), .finish "n1" [] 0, .read "n1",
    .drain .reverse (fun _ => 0), .generate ⟨0, 0, .read, 2⟩, .nemesis none, .line "n0" .ok,
    .finish "n0" [] 0, .line "n0" .ok, .finish "n0" [] 0, .decide 0, .decide 0,
    .tick "n0" (fun _ => .ok), .finish "n0" [] 2, .read "n0", .drain .reverse (fun _ => 3)]

section Run

variable (size : UInt64) {lib : Library} {nemesisType : String} {s : TestRun}
  {acts : List Program.Action}

/-- As long as no node is started anew the check of a run does not panic, and it fails only on a
key that an unanswered operation of the log has changed, whatever else the nodes, the network and
the nemesis do. -/
theorem program_violation (iter : IterOrder)
    (hrun : run (Program.step lib nemesisType) (Program.init lib size.toNat) acts = some s)
    (hlib : Faithful lib s.forwarded) (hkept : s.restarted = false) :
    ∃ r, checkLinearizability iter s.harness.history = some r ∧
      ∀ msg, r = .error msg → ∃ key n k cmd, msg = report key n ∧
        s.log[k]? = some cmd ∧ Unanswered s.harness.history cmd ∧ Changes s.log k key := by
  obtain ⟨u, ⟨acts', hreach⟩, hu⟩ := run_refines size hrun hlib hkept
  obtain ⟨hg, hn, hr⟩ := run_recorded hreach
  rw [hu.same.history, hu.same.log]
  exact violation_of_recorded hg hn hr iter

theorem program_violation_readBeforeAnswer : ∃ s,
    run (Program.step writeLibrary "none") (Program.init writeLibrary (2 : UInt64).toNat)
      readBeforeAnswer = some s ∧ checkLinearizability anyOrder s.harness.history =
        some (.error (report "key0" 1)) ∧
      ∃ key k cmd, s.log[k]? = some cmd ∧ Unanswered s.harness.history cmd ∧
        Changes s.log k key := by
  have hrun : (run (Program.step writeLibrary "none")
      (Program.init writeLibrary (2 : UInt64).toNat) readBeforeAnswer).any (fun s =>
        s.forwarded = [writeCommand] ∧ s.restarted = false ∧
        checkLinearizability anyOrder s.harness.history = some (.error (report "key0" 1))) =
          true := by
    decide +kernel
  obtain ⟨s, hs, hprop⟩ := (Option.any_eq_true _ _).mp hrun
  obtain ⟨hforwarded, hkept, hrejected⟩ := of_decide_eq_true hprop
  obtain ⟨r, hr, hviolation⟩ :=
    program_violation 2 anyOrder hs (hforwarded ▸ writeLibrary_faithful) hkept
  rw [hrejected, Option.some.injEq] at hr
  obtain ⟨key, _, k, cmd, _, hlog, hun, hchanges⟩ := hviolation _ hr.symm
  exact ⟨s, hs, hrejected, key, k, cmd, hlog, hun, hchanges⟩

end Run

end OmniPaxosJepsen.Violations
