import OmniPaxosJepsen.Common
import OmniPaxosJepsen.HarnessStep

namespace OmniPaxosJepsen.Routing

open Json Checker Harness HarnessStep Common

/-- A node process as the harness sees it: whether it was killed since it was spawned, what
was written to its input, and the lines of its output that were not read, `none` for a line
that does not parse as JSON. -/
structure NodeProcess where
  alive : Bool
  stdin : List Value
  stdoutRx : List (Option Value)

/-- What `while let Some(msg) = process.try_recv()` reads, and what it leaves: a line that
does not parse ends the loop as an empty channel does. -/
def recvAll : List (Option Value) → List Value × List (Option Value)
  | [] => ([], [])
  | none :: rest => ([], rest)
  | some msg :: rest => (msg :: (recvAll rest).1, (recvAll rest).2)

structure NetworkSimulator where
  partitions : List (String × String)
  killedNodes : List String

namespace NetworkSimulator

def new : NetworkSimulator := ⟨[], []⟩

def isPartitioned (self : NetworkSimulator) (src dest : String) : Bool :=
  (src, dest) ∈ self.partitions

def isKilled (self : NetworkSimulator) (nodeId : String) : Bool := nodeId ∈ self.killedNodes

def isolateNode (self : NetworkSimulator) (node : String) (allNodes : List String) :
    NetworkSimulator :=
  { self with
    partitions := self.partitions ++
      (allNodes.filter (fun other => other ≠ node)).flatMap (fun other =>
        [(node, other), (other, node)]) }

def splitBrain (self : NetworkSimulator) (allNodes : List String) : NetworkSimulator :=
  let mid := allNodes.length / 2
  { self with
    partitions := self.partitions ++ (allNodes.take mid).flatMap (fun a =>
      (allNodes.drop mid).flatMap (fun b => [(a, b), (b, a)])) }

def healAll (self : NetworkSimulator) : NetworkSimulator := { self with partitions := [] }

def killNode (self : NetworkSimulator) (node : String) : NetworkSimulator :=
  { self with killedNodes := self.killedNodes ++ [node] }

def restartNode (self : NetworkSimulator) (node : String) : NetworkSimulator :=
  { self with killedNodes := self.killedNodes.filter (fun n => n ≠ node) }

end NetworkSimulator

/-- Where `main` is: two calls of `route_messages` while a leader is elected, the loop of
`run_nemesis`, the wait for the remaining responses, and the check of the history. -/
inductive Phase where
  | electing
  | elected
  | testing
  | waiting
  | checking
  deriving DecidableEq

/-- A line written to the input of a node: whether the process was alive and the link from
the message's source blocked when it was written. -/
structure Line where
  nodeId : String
  msg : Value
  alive : Bool
  partitioned : Bool
  deriving DecidableEq

/-- The harness. `read`, `recorded` and `written` are not part of the program: they are the
messages that it has read from its nodes, those it has passed to `record_response` and the
lines it has written to its nodes. -/
structure TestHarness where
  nodes : String → NodeProcess
  nodeIds : List String
  network : NetworkSimulator
  history : List HistoryEntry
  nextOpId : Nat
  nemesisActive : Bool
  phase : Phase
  read : List Value
  recorded : List Value
  written : List Line

def nodeName (i : Nat) : String := "n" ++ toString i

def src (msg : Value) : String := (msg.get "src").asStr.getD ""

def dest (msg : Value) : String := (msg.get "dest").asStr.getD ""

/-- `dest.starts_with('c')`. -/
def toClient (msg : Value) : Bool := "c".toList.isPrefixOf (dest msg).toList

def initMessage (nodeId : String) (nodeIds : List String) : Value :=
  Node.message "harness" nodeId [("type", .string "init"), ("msg_id", .u64 0),
    ("node_id", .string nodeId), ("node_ids", .array (nodeIds.map .string))]

/-- A node process that has been sent its `init` message and has answered it. -/
def NodeProcess.spawn (nodeId : String) (nodeIds : List String) : NodeProcess :=
  { alive := true, stdin := [initMessage nodeId nodeIds], stdoutRx := [] }

def NetworkSimulator.line (self : NetworkSimulator) (nodeId : String) (process : NodeProcess)
    (msg : Value) : Line :=
  ⟨nodeId, msg, process.alive, self.isPartitioned (src msg) nodeId⟩

namespace TestHarness

def new (nodeCount : Nat) : TestHarness :=
  let nodeIds := (List.range nodeCount).map nodeName
  { nodes := fun nodeId => NodeProcess.spawn nodeId nodeIds
    nodeIds := nodeIds
    network := NetworkSimulator.new
    history := []
    nextOpId := 1
    nemesisActive := false
    phase := .electing
    read := []
    recorded := []
    written := nodeIds.map (fun nodeId => NetworkSimulator.new.line nodeId
      (NodeProcess.spawn nodeId nodeIds) (initMessage nodeId nodeIds)) }

def recv (self : TestHarness) (nodeId : String) : TestHarness × List Value :=
  let (msgs, rest) := recvAll (self.nodes nodeId).stdoutRx
  ({ self with
      nodes := Function.update self.nodes nodeId { self.nodes nodeId with stdoutRx := rest }
      read := self.read ++ msgs }, msgs)

/-- Write a message to the input of a node, if there is one with that name. -/
def send (self : TestHarness) (nodeId : String) (msg : Value) : TestHarness :=
  if nodeId ∈ self.nodeIds then
    { self with
      nodes := Function.update self.nodes nodeId
        { self.nodes nodeId with stdin := (self.nodes nodeId).stdin ++ [msg] }
      written := self.written ++ [self.network.line nodeId (self.nodes nodeId) msg] }
  else self

def passes (self : TestHarness) (msg : Value) : Bool :=
  !self.network.isPartitioned (src msg) (dest msg) &&
    !self.network.isKilled (dest msg)

def routeFrom (p : TestHarness × List (String × Value)) (nodeId : String) :
    TestHarness × List (String × Value) :=
  if p.1.network.isKilled nodeId then p
  else
    let (self, msgs) := p.1.recv nodeId
    (self, p.2 ++ (msgs.filter (fun msg => isClientResponse msg || self.passes msg)).map
      (fun msg => (dest msg, msg)))

def routeMessages (self : TestHarness) (order : IterOrder String) : TestHarness :=
  let (self, toDeliver) := (order.order self.nodeIds).foldl routeFrom (self, [])
  toDeliver.foldl (fun self m =>
    -- a client response is left to the caller, and no caller sees it
    if isClientResponse m.2 then self else self.send m.1 m.2) self

def drainFrom (p : TestHarness × List Value) (nodeId : String) : TestHarness × List Value :=
  let (self, msgs) := p.1.recv nodeId
  (self, p.2 ++ msgs)

def drainAllMessages (self : TestHarness) (order : IterOrder String) :
    TestHarness × List Value :=
  (order.order self.nodeIds).foldl drainFrom (self, [])

def deliver (p : TestHarness × List Value) (msg : Value) : TestHarness × List Value :=
  if isClientResponse msg then (p.1, p.2 ++ [msg])
  else if "n".toList.isPrefixOf (dest msg).toList && p.1.passes msg then
    (p.1.send (dest msg) msg, p.2)
  else p

def deliverMessages (self : TestHarness) (messages : List Value) : TestHarness × List Value :=
  messages.foldl deliver (self, [])

def recordResponse (self : TestHarness) (msg : Value) (now : U128) : TestHarness :=
  { self with
    history := self.history ++ [responseEntry msg now]
    recorded := self.recorded ++ [msg] }

def recordResponses (self : TestHarness) (responses : List (Value × U128)) : TestHarness :=
  responses.foldl (fun self m => self.recordResponse m.1 m.2) self

def sendOperation (self : TestHarness) (nodeId clientId opType key : String)
    (value casFrom casTo : Option Value) (now : U128) : Option TestHarness :=
  (requestFields opType value casFrom casTo).map (fun fields =>
    { self with
      nextOpId := self.nextOpId + 1
      history := self.history ++
        [invokeEntry self.nextOpId clientId opType key value casFrom casTo now] }.send nodeId
      (requestMessage self.nextOpId nodeId clientId opType key fields))

end TestHarness

inductive Operation where
  | read
  | write (value : Nat)
  | cas (expected replacement : Nat)

structure Choice where
  key : Nat
  target : Nat
  op : Operation
  now : U128

structure NemesisChoice where
  coin : Bool
  target : Nat

/-- What one turn of the loop in `run_nemesis` depends on: the order of the hash map of
nodes, the clock for each response recorded, a choice for each client, and the choices of
the nemesis when its time has come. -/
structure Turn where
  order : IterOrder String
  clock : Nat → U128
  choices : List Choice
  nemesis : Option NemesisChoice

namespace TestHarness

def generateOne (self : TestHarness) (clientIdx : Nat) (choice : Choice) : Option TestHarness := do
  let clientId := "c" ++ toString clientIdx
  let key := "key" ++ toString choice.key
  let targetNode ← self.nodeIds[choice.target]?
  if self.network.isKilled targetNode then some self
  else
    match choice.op with
    | .read => self.sendOperation targetNode clientId "read" key none none none choice.now
    | .write value =>
      self.sendOperation targetNode clientId "write" key (some (.u64 value)) none none choice.now
    | .cas expected replacement =>
      self.sendOperation targetNode clientId "cas" key none (some (.u64 expected))
        (some (.u64 replacement)) choice.now

def generate (self : TestHarness) (choices : List Choice) : Option TestHarness :=
  choices.zipIdx.foldlM (fun self c => self.generateOne c.2 c.1) self

def isolate (self : TestHarness) (target : Nat) : Option TestHarness :=
  self.nodeIds[target]?.map (fun node =>
    { self with network := self.network.isolateNode node self.nodeIds })

def splitBrain (self : TestHarness) : TestHarness :=
  { self with network := self.network.splitBrain self.nodeIds }

/-- The process is killed; what it had written can still be read. -/
def kill (self : TestHarness) (target : Nat) : Option TestHarness :=
  self.nodeIds[target]?.map (fun node =>
    { self with
      nodes := Function.update self.nodes node { self.nodes node with alive := false }
      network := self.network.killNode node })

/-- Respawn a killed node; what its old process had written is gone. -/
def restart (self : TestHarness) (nodeId : String) : TestHarness :=
  { self with
    network := self.network.restartNode nodeId
    nodes := Function.update self.nodes nodeId (NodeProcess.spawn nodeId self.nodeIds)
    written := self.written ++ [(self.network.restartNode nodeId).line nodeId
      (NodeProcess.spawn nodeId self.nodeIds) (initMessage nodeId self.nodeIds)] }

def healAndRestart (self : TestHarness) : TestHarness :=
  self.network.killedNodes.foldl restart { self with network := self.network.healAll }

def attack (self : TestHarness) (nemesisType : String) (choice : NemesisChoice) :
    Option TestHarness :=
  match nemesisType with
  | "partition" => if choice.coin then self.isolate choice.target else some self.splitBrain
  | "kill" => self.kill choice.target
  | "all" => if choice.coin then self.isolate choice.target else self.kill choice.target
  | _ => some self

def runNemesis (self : TestHarness) (nemesisType : String) (choice : NemesisChoice) :
    Option TestHarness :=
  if self.nemesisActive then some { self.healAndRestart with nemesisActive := false }
  else
    (self.attack nemesisType choice).map (fun self => { self with nemesisActive := true })

def nemesisTurn (self : TestHarness) (nemesisType : String) (turn : Turn) :
    Option TestHarness := do
  let (self, allMsgs) := self.drainAllMessages turn.order
  let (self, clientResponses) := self.deliverMessages allMsgs
  let self := self.recordResponses (clientResponses.zipIdx.map (fun m => (m.1, turn.clock m.2)))
  let self ← self.generate turn.choices
  if nemesisType = "none" then some self
  else
    match turn.nemesis with
    | some choice => self.runNemesis nemesisType choice
    | none => some self

end TestHarness

/-- `emit` is a node writing a line of output, at any time; `stop` is the end of
`run_nemesis` when its time is up. -/
inductive Action where
  | emit (nodeId : String) (line : Option Value)
  | route (order : IterOrder String)
  | turn (turn : Turn)
  | stop

def step (nemesisType : String) (s : TestHarness) : Action → Option TestHarness
  | .emit nodeId line =>
    some { s with
      nodes := Function.update s.nodes nodeId
        { s.nodes nodeId with stdoutRx := (s.nodes nodeId).stdoutRx ++ [line] } }
  | .route order =>
    match s.phase with
    | .electing => some { s.routeMessages order with phase := .elected }
    | .elected => some { s.routeMessages order with phase := .testing }
    | .waiting => some { s.routeMessages order with phase := .checking }
    | .testing | .checking => none
  | .turn turn => if s.phase = .testing then s.nemesisTurn nemesisType turn else none
  | .stop =>
    if s.phase = .testing then
      some { s with network := s.network.healAll, phase := .waiting }
    else none

end OmniPaxosJepsen.Routing
