import OmniPaxosJepsen.Checker
import OmniPaxosJepsen.Cluster

namespace OmniPaxosJepsen.Harness

open Json KvSpec Node Checker Cluster

/-- The harness and the cluster it drives. `stdin` holds the client requests written to
a node that the node has not handled, `stdout` the messages to clients written by a
node that the harness has not drained. `earlier` is not part of the program: it
remembers what the earlier processes of a node had sent to clients. -/
structure HarnessState where
  cluster : ClusterState
  killedNodes : List String
  history : List HistoryEntry
  nextOpId : Nat
  stdin : List (String × Value)
  stdout : List (String × Value)
  now : U128
  earlier : String → List Value

def init : HarnessState :=
  { cluster := Cluster.init, killedNodes := [], history := [], nextOpId := 1, stdin := [],
    stdout := [], now := 0, earlier := fun _ => [] }

/-- `str::parse::<usize>`. -/
def parseUsize (s : List Char) : Option Nat :=
  let digits := match s with
    | '+' :: rest => rest
    | _ => s
  if digits ≠ [] ∧ digits.all Char.isDigit then
    let n := digits.foldl (fun n c => 10 * n + (c.toNat - '0'.toNat)) 0
    if n < 2 ^ 64 then some n else none
  else none

def clientIndex (name : String) : Nat :=
  match name.toList with
  | 'c' :: rest => (parseUsize rest).getD 0
  | _ => 0

/-- `str::replace("_ok", "")`. -/
def removeOk : List Char → List Char
  | '_' :: 'o' :: 'k' :: rest => removeOk rest
  | c :: rest => c :: removeOk rest
  | [] => []

/-- The fields that a request has besides its type, id and key. The `unwrap`s are where
`send_operation` panics. -/
def requestFields (opType : String) (value casFrom casTo : Option Value) :
    Option (List (String × Value)) :=
  match opType with
  | "write" => value.map (fun v => [("value", v)])
  | "cas" => casFrom.bind (fun v => casTo.map (fun w => [("from", v), ("to", w)]))
  | _ => some []

def HarnessState.sendOperation (self : HarnessState) (nodeId clientId opType key : String)
    (value casFrom casTo : Option Value) (now : U128) : Option HarnessState :=
  let opId := self.nextOpId
  (requestFields opType value casFrom casTo).map (fun fields =>
    let body := [("type", .string opType), ("msg_id", .u64 opId), ("key", .string key)] ++ fields
    { self with
      nextOpId := opId + 1
      history := self.history ++ [{
        id := opId
        eventType := "invoke"
        clientId := clientIndex clientId
        op := opType
        key := key
        value := value
        casFrom := casFrom
        casTo := casTo
        timeNs := now }]
      stdin := self.stdin ++ [(nodeId, message clientId nodeId body)]
      now := now })

/-- The event that a response is recorded as. -/
def eventType (msg : Value) : String :=
  let msgType := ((msg.get "body").get "type").asStr.getD ""
  if "_ok".toList.isSuffixOf msgType.toList then "ok"
  else if msgType = "error" then
    let code := ((msg.get "body").get "code").asU64.getD 0
    if code = 20 ∨ code = 22 then "fail" else "info"
  else "info"

def responseEntry (msg : Value) (now : U128) : HistoryEntry :=
  let msgType := ((msg.get "body").get "type").asStr.getD ""
  { id := ((msg.get "body").get "in_reply_to").asU64.getD 0
    eventType := eventType msg
    clientId := clientIndex ((msg.get "dest").asStr.getD "")
    op := String.ofList (removeOk msgType.toList)
    key := ""
    value := if msgType = "read_ok" then some ((msg.get "body").get "value") else none
    casFrom := none
    casTo := none
    timeNs := now }

def HarnessState.recordResponse (self : HarnessState) (msg : Value) (now : U128) : HarnessState :=
  { self with history := self.history ++ [responseEntry msg now], now := now }

def isClientResponse (msg : Value) : Bool :=
  let dest := (msg.get "dest").asStr.getD ""
  "c".toList.isPrefixOf dest.toList || dest = "harness"

inductive Action where
  | sendOperation (node client opType key : String) (value casFrom casTo : Option Value)
      (now : U128)
  | handle (i : Nat) (append : AppendResult)
  | internal (a : Cluster.Action)
  | recordResponse (i : Nat) (now : U128)
  | discard (i : Nat)
  | kill (node : String)
  | restart (node : String)

def actor (s : ClusterState) : Cluster.Action → Option String
  | .clientRequest node _ _ | .tick node _ | .advance node _ | .process node => some node
  | .deliver i _ => s.inFlight[i]?.map Prod.fst
  | .drop _ | .decide _ => none

def isInternal : Cluster.Action → Bool
  | .clientRequest _ _ _ => false
  | _ => true

def HarnessState.advance (s : HarnessState) (members : Finset String) (a : Cluster.Action) :
    Option HarnessState :=
  if (actor s.cluster a).all (fun node => node ∉ s.killedNodes) then
    (Cluster.step members s.cluster a).map (fun cluster =>
      { s with
        cluster := cluster
        stdout := s.stdout ++ (cluster.history.drop s.cluster.history.length).filterMap (fun
          | .request _ _ => none
          | .response node msg => some (node, msg)) })
  else none

/-- A node that is built anew: nothing is left of its process but what it has sent, and
OmniPaxos has to bring it the log again. -/
def HarnessState.rebuild (s : HarnessState) (node : String) : HarnessState :=
  { s with
    cluster := { s.cluster with
      nodes := Function.update s.cluster.nodes node (MaelstromNode.new node)
      opDecidedIdx := Function.update s.cluster.opDecidedIdx node 0
      dropped := s.cluster.dropped ++ (s.cluster.nodes node).pendingForwards }
    killedNodes := s.killedNodes.filter (fun n => n ≠ node)
    stdout := s.stdout.filter (fun m => m.1 ≠ node)
    earlier := Function.update s.earlier node (s.cluster.sent node) }

def step (members : Finset String) (s : HarnessState) : Action → Option HarnessState
  | .sendOperation node client opType key value casFrom casTo now =>
    if node ∈ members ∧ node ∉ s.killedNodes ∧ s.now ≤ now then
      s.sendOperation node client opType key value casFrom casTo now
    else none
  | .handle i append =>
    s.stdin[i]?.bind (fun m =>
      { s with stdin := s.stdin.eraseIdx i }.advance members (.clientRequest m.1 append m.2))
  | .internal a => if isInternal a then s.advance members a else none
  | .recordResponse i now =>
    s.stdout[i]?.bind (fun m =>
      if isClientResponse m.2 ∧ s.now ≤ now then
        some ({ s with stdout := s.stdout.eraseIdx i }.recordResponse m.2 now)
      else none)
  | .discard i => s.stdout[i]?.map (fun _ => { s with stdout := s.stdout.eraseIdx i })
  | .kill node =>
    if node ∈ members then
      some { s with
        killedNodes := s.killedNodes ++ [node]
        stdin := s.stdin.filter (fun m => m.1 ≠ node) }
    else none
  | .restart node =>
    if node ∈ members ∧ node ∈ s.killedNodes then some (s.rebuild node) else none

def writeThenRead : List Action :=
  [.sendOperation "n1" "c1" "write" "x" (some (.u64 5)) none none 1, .handle 0 (.err (some 1)),
    .internal (.deliver 0 .ok), .internal (.decide 0), .internal (.advance "n1" 1),
    .internal (.process "n1"), .recordResponse 0 2,
    .sendOperation "n0" "c2" "read" "x" none none none 3, .handle 0 .ok, .internal (.decide 0),
    .internal (.advance "n0" 2), .internal (.process "n0"), .recordResponse 0 4]

end OmniPaxosJepsen.Harness
