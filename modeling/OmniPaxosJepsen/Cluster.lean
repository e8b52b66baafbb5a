import Mathlib.Algebra.BigOperators.Group.Finset.Basic
import OmniPaxosJepsen.Node

namespace OmniPaxosJepsen.Cluster

open Json KvSpec Node

/-- What an observer of the cluster sees, in the order in which it happens: the
client requests that nodes accept and the messages that nodes send to clients. -/
inductive Observed where
  | request (node : String) (msg : Value)
  | response (node : String) (msg : Value)
  deriving DecidableEq

/-- The nodes, the forward messages on their way, and what OmniPaxos promises: one
growing decided log and, at each node, the length of its prefix decided there.
`appended` holds the entries taken by `append` that are not in the log (yet). `forwarded` is not
part of the program: it remembers the commands that nodes have sent in `forward` messages. -/
structure ClusterState where
  nodes : String → MaelstromNode
  opDecidedIdx : String → Nat
  log : List MaelstromCommand
  appended : List MaelstromCommand
  inFlight : List (String × MaelstromCommand)
  dropped : List MaelstromCommand
  forwarded : List MaelstromCommand
  history : List Observed

def init : ClusterState :=
  { nodes := MaelstromNode.new, opDecidedIdx := fun _ => 0, log := [], appended := [],
    inFlight := [], dropped := [], forwarded := [], history := [] }

inductive Action where
  | clientRequest (node : String) (append : AppendResult) (msg : Value)
  | deliver (i : Nat) (append : AppendResult)
  | drop (i : Nat)
  | tick (node : String) (append : Nat → AppendResult)
  | decide (i : Nat)
  | advance (node : String) (idx : Nat)
  | process (node : String)

def forwards (lines : List Line) : List (String × MaelstromCommand) :=
  lines.filterMap (fun
    | .forward _ dest data => some (dest, data)
    | .json _ => none)

def ClusterState.perform (s : ClusterState) (node : String) (r : MaelstromNode × Effects) :
    ClusterState :=
  { s with
    nodes := Function.update s.nodes node r.1
    appended := s.appended ++ r.2.appended
    inFlight := s.inFlight ++ forwards r.2.sent
    forwarded := s.forwarded ++ (forwards r.2.sent).map Prod.snd }

def ClusterState.readDecidedSuffix (s : ClusterState) (node : String) (i : Nat) :
    Option (List LogEntry) :=
  some (((s.log.take (s.opDecidedIdx node)).drop i).map LogEntry.decided)

def isClientRequest (msg : Value) : Bool :=
  ((msg.get "body").get "type").asStr.getD "" ∈ ["read", "write", "cas"]

/-- A step of a cluster whose network hands over the commands as they are. -/
def step (members : Finset String) (s : ClusterState) : Action → Option ClusterState
  | .clientRequest node append msg =>
    if node ∈ members ∧ isClientRequest msg = true then
      ((s.nodes node).handleClientRequest append msg).map (fun r =>
        { s.perform node r with history := s.history ++ [.request node msg] })
    else none
  | .deliver i append =>
    (s.inFlight[i]?).bind (fun m =>
      if m.1 ∈ members then
        some ({ s with inFlight := s.inFlight.eraseIdx i }.perform m.1
          ((s.nodes m.1).handleForwardedRequest append m.2))
      else none)
  | .drop i =>
    (s.inFlight[i]?).map (fun m =>
      { s with inFlight := s.inFlight.eraseIdx i, dropped := s.dropped ++ [m.2] })
  | .tick node append =>
    if node ∈ members then some (s.perform node ((s.nodes node).tick append)) else none
  | .decide i =>
    (s.appended[i]?).map (fun cmd =>
      { s with log := s.log ++ [cmd], appended := s.appended.eraseIdx i })
  | .advance node idx =>
    if node ∈ members ∧ s.opDecidedIdx node ≤ idx ∧ idx ≤ s.log.length then
      some { s with opDecidedIdx := Function.update s.opDecidedIdx node idx }
    else none
  | .process node =>
    if node ∈ members then
      ((s.nodes node).processDecidedEntries (s.opDecidedIdx node) (s.readDecidedSuffix node)).map
        (fun r => { s with
          nodes := Function.update s.nodes node r.1
          history := s.history ++ r.2.map (Observed.response node) })
    else none

/-- A step of the cluster: the node that a `forward` message reaches reads the command from the
text that the sender has written. A text that it cannot read is where the node panics. -/
def stepVia (lib : Library) (members : Finset String) (s : ClusterState) :
    Action → Option ClusterState
  | .deliver i append =>
    (s.inFlight[i]?).bind (fun m =>
      if m.1 ∈ members then
        (lib.fromStr (lib.render m.2)).map (fun command =>
          { s with inFlight := s.inFlight.eraseIdx i }.perform m.1
            ((s.nodes m.1).handleForwardedRequest append command))
      else none)
  | a => step members s a

def clientCommand (node : String) (msg : Value) : Option MaelstromCommand :=
  ((MaelstromNode.new node).requestCommand msg).bind (fun r => r.2.2)

def ClusterState.accepted (s : ClusterState) : List MaelstromCommand :=
  s.history.filterMap (fun
    | .request node msg => clientCommand node msg
    | .response _ _ => none)

def ClusterState.sent (s : ClusterState) (node : String) : List Value :=
  s.history.filterMap (fun
    | .request _ _ => none
    | .response n msg => if n = node then some msg else none)

def forwardedWrite : List Action :=
  [.clientRequest "n1" (.err (some 1)) (message "c1" "n1"
      [("type", .string "write"), ("msg_id", .u64 1), ("key", .string "x"), ("value", .u64 5)]),
    .deliver 0 .ok, .decide 0, .advance "n1" 1, .process "n1"]

end OmniPaxosJepsen.Cluster
