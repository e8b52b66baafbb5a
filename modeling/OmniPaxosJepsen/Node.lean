import OmniPaxosJepsen.Json
import OmniPaxosJepsen.KvSpec

namespace OmniPaxosJepsen.Node

open Json KvSpec

/-- `KVOp`: `Read(key)`, `Write(key, value)` and `Cas { key, from, to }`. -/
abbrev KVOp := Op String Value

/-- `HashMap<String, Value>`: a key has a value or is absent. -/
abbrev Store := String → Option Value

def emptyStore : Store := fun _ => none

abbrev NodeId := UInt64

structure MaelstromCommand where
  coordinator : String
  clientSrc : String
  msgId : Nat
  op : KVOp
  deriving DecidableEq

/-- A line that a node writes to its standard output: a JSON message to a client,
or a `forward` message, whose `data` field is the command rendered as JSON text. -/
inductive Line where
  | json (msg : Value)
  | forward (src dest : String) (data : MaelstromCommand)
  deriving DecidableEq

/-- The code outside the repository that a node calls: how `serde_json` writes a command as
text and reads it back, which texts it reads as messages of OmniPaxos, and whether OmniPaxos can
be built from the id of a node and those of its cluster. -/
structure Library where
  render : MaelstromCommand → String
  fromStr : String → Option MaelstromCommand
  isMessage : String → Bool
  build : NodeId → List NodeId → Bool

/-- The commands are read back as they were written. -/
def Faithful (lib : Library) (cmds : List MaelstromCommand) : Prop :=
  ∀ cmd ∈ cmds, lib.fromStr (lib.render cmd) = some cmd

/-- What one call of `OmniPaxos::append` did: the entry was taken, or it was not
and `get_current_leader` then reported `leader`. -/
inductive AppendResult where
  | ok
  | err (leader : Option NodeId)
  deriving DecidableEq

inductive LogEntry where
  | decided (cmd : MaelstromCommand)
  | snapshotted (data : Store)
  | other

structure MaelstromNode where
  nodeId : String
  kvStore : Store
  decidedIdx : Nat
  pendingForwards : List MaelstromCommand

/-- `MaelstromNode::new`: nothing is left of an earlier process with this name. -/
def MaelstromNode.new (nodeId : String) : MaelstromNode :=
  { nodeId := nodeId, kvStore := emptyStore, decidedIdx := 0, pendingForwards := [] }

/-- What a handler did besides changing the node: the entries that OmniPaxos took
and the lines written. -/
structure Effects where
  appended : List MaelstromCommand
  sent : List Line
  deriving DecidableEq

def Effects.none : Effects := ⟨[], []⟩

def Effects.append (e e' : Effects) : Effects := ⟨e.appended ++ e'.appended, e.sent ++ e'.sent⟩

/-- The name of the node with a given OmniPaxos id. The subtraction wraps, as in
the release build the test scripts run. -/
def opToMaelstromId (id : NodeId) : String := "n" ++ toString (id - 1).toNat

def message (src dest : String) (body : List (String × Value)) : Value :=
  .object [("src", .string src), ("dest", .string dest), ("body", .object body)]

def sendError (src dest : String) (inReplyTo code : Nat) (text : String) : Value :=
  message src dest [("type", .string "error"), ("in_reply_to", .u64 inReplyTo),
    ("code", .u64 code), ("text", .string text)]

namespace MaelstromNode

def tryAppend (self : MaelstromNode) (append : AppendResult) (command : MaelstromCommand) :
    MaelstromNode × Effects :=
  let buffered := ({ self with pendingForwards := self.pendingForwards ++ [command] }, Effects.none)
  match append with
  | .ok => (self, ⟨[command], []⟩)
  | .err none => buffered
  | .err (some leaderId) =>
    let leaderStr := opToMaelstromId leaderId
    if leaderStr ≠ self.nodeId then (self, ⟨[], [.forward self.nodeId leaderStr command]⟩)
    else buffered

/-- The command that a request asks for, and `none` in the second place when its
type is not supported. The `unwrap`s of the source name and the message id are
where the node can panic; a field that is no string reads as the empty one. -/
def requestCommand (self : MaelstromNode) (msg : Value) :
    Option (String × Nat × Option MaelstromCommand) := do
  let msgType := ((msg.get "body").get "type").asStr.getD ""
  let clientSrc ← (msg.get "src").asStr
  let msgId ← ((msg.get "body").get "msg_id").asU64
  let key := ((msg.get "body").get "key").asStr.getD ""
  let op : Option KVOp :=
    match msgType with
    | "read" => some (.read key)
    | "write" => some (.write key ((msg.get "body").get "value"))
    | "cas" => some (.cas key ((msg.get "body").get "from") ((msg.get "body").get "to"))
    | _ => none
  return (clientSrc, msgId, op.map (fun op => ⟨self.nodeId, clientSrc, msgId, op⟩))

def handleClientRequest (self : MaelstromNode) (append : AppendResult) (msg : Value) :
    Option (MaelstromNode × Effects) := do
  match ← self.requestCommand msg with
  | (clientSrc, msgId, none) =>
    return (self, ⟨[], [.json (sendError self.nodeId clientSrc msgId 10 "unsupported operation")]⟩)
  | (_, _, some command) => return self.tryAppend append command

def handleForwardedRequest (self : MaelstromNode) (append : AppendResult)
    (data : MaelstromCommand) : MaelstromNode × Effects := self.tryAppend append data

/-- Hand the buffered commands to `tryAppend` one after another; the `i`-th call of
`OmniPaxos::append` returns `append i`. -/
def retry (self : MaelstromNode) (append : Nat → AppendResult) :
    List MaelstromCommand → MaelstromNode × Effects
  | [] => (self, Effects.none)
  | cmd :: pending =>
    let (self, e) := self.tryAppend (append 0) cmd
    let (self, e') := self.retry (fun i => append (i + 1)) pending
    (self, e.append e')

def tick (self : MaelstromNode) (append : Nat → AppendResult) : MaelstromNode × Effects :=
  { self with pendingForwards := [] }.retry append self.pendingForwards

/-- Apply a decided command; the lines are sent only by its coordinator. -/
def applyAndRespond (self : MaelstromNode) (cmd : MaelstromCommand) : MaelstromNode × List Value :=
  let isCoordinator := cmd.coordinator = self.nodeId
  let respond (msg : Value) : List Value := if isCoordinator then [msg] else []
  match cmd.op with
  | .read key =>
    match self.kvStore key with
    | some value =>
      (self, respond (message self.nodeId cmd.clientSrc [("type", .string "read_ok"),
        ("in_reply_to", .u64 cmd.msgId), ("value", value)]))
    | none =>
      (self, respond (sendError self.nodeId cmd.clientSrc cmd.msgId 20 "key does not exist"))
  | .write key value =>
    ({ self with kvStore := Function.update self.kvStore key (some value) },
      respond (message self.nodeId cmd.clientSrc [("type", .string "write_ok"),
        ("in_reply_to", .u64 cmd.msgId)]))
  | .cas key expected replacement =>
    match self.kvStore key with
    | none =>
      (self, respond (sendError self.nodeId cmd.clientSrc cmd.msgId 20 "key does not exist"))
    | some current =>
      if current ≠ expected then
        (self, respond (sendError self.nodeId cmd.clientSrc cmd.msgId 22 "precondition failed"))
      else
        ({ self with kvStore := Function.update self.kvStore key (some replacement) },
          respond (message self.nodeId cmd.clientSrc [("type", .string "cas_ok"),
            ("in_reply_to", .u64 cmd.msgId)]))

def applyEntries (self : MaelstromNode) : List LogEntry → MaelstromNode × List Value
  | [] => (self, [])
  | entry :: entries =>
    let (self, sent) :=
      match entry with
      | .decided cmd => self.applyAndRespond cmd
      | .snapshotted data => ({ self with kvStore := data }, [])
      | .other => (self, [])
    let (self, sent') := self.applyEntries entries
    (self, sent ++ sent')

/-- `newDecidedIdx` and `readDecidedSuffix` are what OmniPaxos returns; a missing
suffix makes the node panic. -/
def processDecidedEntries (self : MaelstromNode) (newDecidedIdx : Nat)
    (readDecidedSuffix : Nat → Option (List LogEntry)) : Option (MaelstromNode × List Value) :=
  if self.decidedIdx ≥ newDecidedIdx then some (self, [])
  else do
    let decidedEntries ← readDecidedSuffix self.decidedIdx
    return { self with decidedIdx := newDecidedIdx }.applyEntries decidedEntries

end MaelstromNode

end OmniPaxosJepsen.Node
