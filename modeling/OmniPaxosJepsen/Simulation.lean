import OmniPaxosJepsen.HarnessCheck
import OmniPaxosJepsen.Machine

namespace OmniPaxosJepsen.Simulation

open Json KvSpec Node Checker Apply Cluster Harness HistorySpec HarnessStep HarnessIds
  HarnessHistory HarnessCheck KvModel Pairing Machine Runs

def invocation (cmd : MaelstromCommand) (now : U128) : HistoryEntry :=
  match cmd.op with
  | .read key => invokeEntry cmd.msgId cmd.clientSrc "read" key none none none now
  | .write key value => invokeEntry cmd.msgId cmd.clientSrc "write" key (some value) none none now
  | .cas key expected replacement =>
    invokeEntry cmd.msgId cmd.clientSrc "cas" key none (some expected) (some replacement) now

theorem invocation_id (cmd : MaelstromCommand) (now : U128) :
    (invocation cmd now).id = cmd.msgId := by
  unfold invocation
  cases cmd.op <;> rfl

theorem invocation_invokes (cmd : MaelstromCommand) (now : U128) :
    invokes (invocation cmd now) = true := by
  unfold invocation
  cases cmd.op <;> rfl

/-- `send_operation` can ask a node for every command, and what it records is the
invocation of the command that the node takes the request for. -/
theorem sendOperation_invocation (s : HarnessState) (node client : String) (op : KVOp)
    (now : U128) : ∃ opType value casFrom casTo t msg,
      s.sendOperation node client opType op.key value casFrom casTo now = some t ∧
      t.history = s.history ++ [invocation ⟨node, client, s.nextOpId, op⟩ now] ∧
      t.stdin = s.stdin ++ [(node, msg)] ∧
      clientCommand node msg = some ⟨node, client, s.nextOpId, op⟩ := by
  cases op with
  | read key => exact ⟨"read", none, none, none, _, _, rfl, rfl, rfl, rfl⟩
  | write key v => exact ⟨"write", some v, none, none, _, _, rfl, rfl, rfl, rfl⟩
  | cas key expected replacement =>
    exact ⟨"cas", none, some expected, some replacement, _, _, rfl, rfl, rfl, rfl⟩

def answered (cmd : MaelstromCommand) (reply : Value) (invoked completed : U128) : LinearOp :=
  linearOp (invocation cmd invoked) (responseEntry reply completed)

variable (node : String) (kv : Store) (cmd : MaelstromCommand) (invoked completed : U128)

theorem opInput_answered (reply : Value) :
    opInput (answered cmd reply invoked completed) = some cmd.op := by
  unfold answered invocation
  cases cmd.op <;> rfl

theorem add_answered (p : Checker.Pairing) (r : Reply Value) :
    (p.add (invocation cmd invoked)).add (responseEntry (render node cmd r) completed) =
      ⟨p.ops ++ [answered cmd (render node cmd r) invoked completed],
        Function.update p.invocations cmd.msgId none⟩ := by
  obtain ⟨hid, htype, _⟩ := responseEntry_render node cmd r completed
  have hcompletes : completes (responseEntry (render node cmd r) completed) = true := by
    cases r <;> simp [completes, htype, recordedAs]
  rw [add_invoke p (invocation_invokes cmd invoked), add_completion _ hcompletes, hid,
    invocation_id]
  simp [answered]

theorem agrees_answered :
    agrees (answered cmd (render node cmd (apply kv cmd.op).2) invoked completed).result
      (answered cmd (render node cmd (apply kv cmd.op).2) invoked completed).casOk cmd.op
      (apply kv cmd.op).2 = true := by
  obtain ⟨_, htype, hvalue⟩ := responseEntry_render node cmd (apply kv cmd.op).2 completed
  exact agrees_of_reply rfl htype hvalue

theorem apply_answered :
    (KVModel.mk kv).apply
        (answered cmd (render node cmd (apply kv cmd.op).2) invoked completed) =
      some (⟨(apply kv cmd.op).1⟩, true) := by
  rw [apply_eq (opInput_answered cmd invoked completed _)]
  exact congrArg some (if_pos (agrees_answered node kv cmd invoked completed))

/-- The outcomes of an operation other than the recorded one: a read with another value,
or with a value where there was none, and a compare-and-swap that did not do what it did. -/
def OtherOutcome (op : LinearOp) (result : Option Value) (casOk : Bool) : KVOp → Prop
  | .read _ => result ≠ op.result
  | .write _ _ => False
  | .cas _ _ _ => casOk ≠ op.casOk

theorem agrees_other {op : LinearOp} {i : KVOp} {r : Reply Value} {result : Option Value}
    {casOk : Bool} (h : agrees op.result op.casOk i r = true)
    (hother : OtherOutcome op result casOk i) : agrees result casOk i r = false := by
  cases i with
  | read key =>
    have hvalue : r.value? = op.result := by simpa [agrees] using h
    have hne : result ≠ op.result := hother
    simpa [agrees, hvalue] using Ne.symm hne
  | write key v => exact hother.elim
  | cas key expected replacement =>
    have hcas : op.casOk = decide (r = .swapped) := by simpa [agrees] using h
    have hne : casOk ≠ op.casOk := hother
    simpa only [agrees, ← hcas, decide_eq_false_iff_not] using hne

theorem apply_other {model : KVModel} {op : LinearOp} {i : KVOp} {result : Option Value}
    {casOk : Bool} (hinput : opInput op = some i)
    (hagrees : agrees op.result op.casOk i (apply model.data i).2 = true)
    (hother : OtherOutcome op result casOk i) :
    model.apply { op with result := result, casOk := casOk } = some (model, false) := by
  have hinput' : opInput { op with result := result, casOk := casOk } = some i := hinput
  rw [apply_eq hinput', agrees_other hagrees hother]
  rfl

/-- A command and the times at which the harness records it and its response. -/
structure Call where
  cmd : MaelstromCommand
  invoked : U128
  completed : U128

/-- The coordinator of a command applies it to the store that the commands before it left;
the harness records the request and what the node sends. -/
def serve (kv : Store) (call : Call) : Store × List HistoryEntry :=
  let (self, replies) :=
    { MaelstromNode.new call.cmd.coordinator with kvStore := kv }.applyAndRespond call.cmd
  (self.kvStore, invocation call.cmd call.invoked ::
    replies.map (fun msg => responseEntry msg call.completed))

theorem serve_eq (call : Call) : serve kv call = ((apply kv call.cmd.op).1,
    [invocation call.cmd call.invoked,
      responseEntry (render call.cmd.coordinator call.cmd (apply kv call.cmd.op).2)
        call.completed]) := by
  simp [serve, applyAndRespond_eq, response, MaelstromNode.new]

theorem serve_replay (calls : List Call) :
    (exec serve kv calls).1 = replay kv (calls.map (fun call => call.cmd.op)) := by
  induction calls generalizing kv with
  | nil => rfl
  | cons call calls ih => rw [exec_cons, ih, serve_eq, List.map_cons, replay_cons]

theorem run_serve (calls : List Call) (p : Checker.Pairing) : ∃ ops,
    ((exec serve kv calls).2.foldl Checker.Pairing.add p).ops = p.ops ++ ops ∧
      ops.length = calls.length ∧
      run accept ⟨kv⟩ ops = some ⟨(exec serve kv calls).1⟩ := by
  induction calls generalizing kv p with
  | nil => exact ⟨[], by simp, rfl, rfl⟩
  | cons call calls ih =>
    obtain ⟨ops, hops, hlen, hrun⟩ := ih (apply kv call.cmd.op).1
      ((p.add (invocation call.cmd call.invoked)).add (responseEntry
        (render call.cmd.coordinator call.cmd (apply kv call.cmd.op).2) call.completed))
    rw [add_answered] at hops
    rw [exec_cons, serve_eq]
    refine ⟨answered call.cmd (render call.cmd.coordinator call.cmd (apply kv call.cmd.op).2)
      call.invoked call.completed :: ops, ?_, by simp [hlen], ?_⟩
    · rw [List.foldl_append, List.foldl_cons, List.foldl_cons, List.foldl_nil, add_answered, hops,
        List.append_assoc, List.singleton_append]
    · exact run_cons_eq_some.mpr ⟨_, accept_eq_some.mpr (apply_answered _ kv _ _ _), hrun⟩

/-- The model of the checker simulates the node: it accepts what the coordinator of a
command answers and moves to the store of the node, it rejects every other outcome, and
it accepts the recorded history of a sequential replay and ends at the store the node
has after the same log. -/
theorem model_simulates_node :
    (∀ (self : MaelstromNode) (client : String) (msgId : Nat) (op : KVOp)
      (invoked completed : U128), ∃ reply checked,
        (self.applyAndRespond ⟨self.nodeId, client, msgId, op⟩).2 = [reply] ∧
        pairUp [invocation ⟨self.nodeId, client, msgId, op⟩ invoked,
          responseEntry reply completed] = [checked] ∧
        (KVModel.mk self.kvStore).apply checked =
          some (⟨(self.applyAndRespond ⟨self.nodeId, client, msgId, op⟩).1.kvStore⟩, true) ∧
        ∀ result casOk, OtherOutcome checked result casOk op →
          (KVModel.mk self.kvStore).apply { checked with result := result, casOk := casOk } =
            some (⟨self.kvStore⟩, false)) ∧
    ∀ (self : MaelstromNode) (calls : List Call),
      (pairUp (exec serve self.kvStore calls).2).length = calls.length ∧
        run accept ⟨self.kvStore⟩ (pairUp (exec serve self.kvStore calls).2) =
          some ⟨(self.applyEntries (calls.map (fun call => .decided call.cmd))).1.kvStore⟩ := by
  refine ⟨fun self client msgId op invoked completed => ?_, fun self calls => ?_⟩
  · let cmd : MaelstromCommand := ⟨self.nodeId, client, msgId, op⟩
    refine ⟨render self.nodeId cmd (apply self.kvStore op).2,
      answered cmd (render self.nodeId cmd (apply self.kvStore op).2) invoked completed,
      ?_, ?_, ?_, fun result casOk h => apply_other (opInput_answered cmd invoked completed _)
        (agrees_answered self.nodeId self.kvStore cmd invoked completed) h⟩
    · rw [applyAndRespond_eq]
      simp [response, cmd]
    · exact congrArg Checker.Pairing.ops
        (add_answered self.nodeId cmd invoked completed ⟨[], fun _ => none⟩ _)
    · rw [applyAndRespond_eq]
      exact apply_answered self.nodeId self.kvStore cmd invoked completed
  · obtain ⟨ops, hops, hlen, hrun⟩ := run_serve self.kvStore calls ⟨[], fun _ => none⟩
    have hpair : pairUp (exec serve self.kvStore calls).2 = ops := hops
    have hmap : calls.map (fun call => LogEntry.decided call.cmd) =
        (calls.map Call.cmd).map LogEntry.decided := by simp
    rw [hpair, hrun, hmap, applyEntries_decided, serve_replay]
    exact ⟨hlen, by simp [Function.comp_def]⟩

end OmniPaxosJepsen.Simulation
