import OmniPaxosJepsen.Machine
import OmniPaxosJepsen.Node

namespace OmniPaxosJepsen.Apply

open Json KvSpec Node

def render (node : String) (cmd : MaelstromCommand) : Reply Value → Value
  | .value v => message node cmd.clientSrc [("type", .string "read_ok"),
      ("in_reply_to", .u64 cmd.msgId), ("value", v)]
  | .written => message node cmd.clientSrc [("type", .string "write_ok"),
      ("in_reply_to", .u64 cmd.msgId)]
  | .swapped => message node cmd.clientSrc [("type", .string "cas_ok"),
      ("in_reply_to", .u64 cmd.msgId)]
  | .absent => sendError node cmd.clientSrc cmd.msgId 20 "key does not exist"
  | .mismatch => sendError node cmd.clientSrc cmd.msgId 22 "precondition failed"

def response (node : String) (kv : Store) (cmd : MaelstromCommand) : List Value :=
  if cmd.coordinator = node then [render node cmd (apply kv cmd.op).2] else []

def responses (node : String) (kv : Store) : List MaelstromCommand → List Value
  | [] => []
  | cmd :: cmds => response node kv cmd ++ responses node (apply kv cmd.op).1 cmds

/-- `apply_and_respond` follows the sequential specification, and only the
coordinator answers. -/
theorem applyAndRespond_eq (self : MaelstromNode) (cmd : MaelstromCommand) :
    self.applyAndRespond cmd =
      ({ self with kvStore := (apply self.kvStore cmd.op).1 },
        response self.nodeId self.kvStore cmd) := by
  obtain ⟨coordinator, clientSrc, msgId, op⟩ := cmd
  cases op with
  | read key =>
    have hsame : Function.update self.kvStore key (self.kvStore key) = self.kvStore :=
      Function.update_eq_self _ _
    cases hv : self.kvStore key with
    | none =>
      rw [hv] at hsame
      simp [MaelstromNode.applyAndRespond, response, render, apply, applyCell, Op.key, hv, hsame]
    | some v =>
      rw [hv] at hsame
      simp [MaelstromNode.applyAndRespond, response, render, apply, applyCell, Op.key, hv, hsame]
  | write key v =>
    simp [MaelstromNode.applyAndRespond, response, render, apply, applyCell, Op.key]
  | cas key expected replacement =>
    have hsame : Function.update self.kvStore key (self.kvStore key) = self.kvStore :=
      Function.update_eq_self _ _
    cases hv : self.kvStore key with
    | none =>
      rw [hv] at hsame
      simp [MaelstromNode.applyAndRespond, response, render, apply, applyCell, Op.key, hv, hsame]
    | some v =>
      rw [hv] at hsame
      by_cases hc : v = expected
      · simp [MaelstromNode.applyAndRespond, response, render, apply, applyCell, Op.key, hv, hc]
      · simp [MaelstromNode.applyAndRespond, response, render, apply, applyCell, Op.key, hv, hc,
          hsame]

theorem applyEntries_decided (self : MaelstromNode) (cmds : List MaelstromCommand) :
    self.applyEntries (cmds.map LogEntry.decided) =
      ({ self with kvStore := replay self.kvStore (cmds.map MaelstromCommand.op) },
        responses self.nodeId self.kvStore cmds) := by
  induction cmds generalizing self with
  | nil => rfl
  | cons cmd cmds ih =>
    simp only [List.map_cons, MaelstromNode.applyEntries, applyAndRespond_eq, ih, responses,
      replay_cons]

theorem responses_append (node : String) (kv : Store) (cmds cmds' : List MaelstromCommand) :
    responses node kv (cmds ++ cmds') =
      responses node kv cmds ++
        responses node (replay kv (cmds.map MaelstromCommand.op)) cmds' := by
  induction cmds generalizing kv with
  | nil => rfl
  | cons cmd cmds ih => simp only [List.cons_append, responses, ih, List.append_assoc,
      List.map_cons, replay_cons]

theorem responses_concat (node : String) (kv : Store) (cmds : List MaelstromCommand)
    (cmd : MaelstromCommand) :
    responses node kv (cmds ++ [cmd]) = responses node kv cmds ++
      response node (replay kv (cmds.map MaelstromCommand.op)) cmd := by
  simp only [responses_append, responses, List.append_nil]

/-- `process_decided_entries` at a node whose OmniPaxos log has a decided prefix. -/
theorem processDecidedEntries_take (self : MaelstromNode) {log : List MaelstromCommand} {idx : Nat}
    (hlen : idx ≤ log.length) :
    self.processDecidedEntries idx
        (fun i => some (((log.take idx).drop i).map LogEntry.decided)) =
      some ({ self with
          kvStore := replay self.kvStore
            (((log.take idx).drop self.decidedIdx).map MaelstromCommand.op)
          decidedIdx := self.decidedIdx + ((log.take idx).drop self.decidedIdx).length },
        responses self.nodeId self.kvStore ((log.take idx).drop self.decidedIdx)) := by
  by_cases h : self.decidedIdx ≥ idx
  · have hnone := Machine.drop_take_of_le h log
    simp [MaelstromNode.processDecidedEntries, h, hnone, responses]
  · have hidx : self.decidedIdx + ((log.take idx).drop self.decidedIdx).length = idx := by
      simp only [List.length_drop, List.length_take]
      omega
    simp only [MaelstromNode.processDecidedEntries, h, ↓reduceIte, Option.bind_eq_bind,
      Option.bind_some, Option.pure_def, applyEntries_decided, hidx]

end OmniPaxosJepsen.Apply
