import OmniPaxosJepsen.ClientLoop
import OmniPaxosJepsen.ServerReplication

namespace OmniPaxosJepsen.Sessions

open Common Server ClientLoop

/-- A client is known by the server it connects to and the client id it has there. -/
abbrev Session := NodeId × ClientId

/-- A request, named by the session it was sent in and its command id. -/
abbrev Request := Session × CommandId

/-- The servers and the clients, the messages between them in flight, the entries that
OmniPaxos has taken but not decided, and the decided log. A client is `connected` while its
server has it in `client_connections`. `sent` and `handled` are not part of the program: they
name the requests sent so far and those whose response a client has handled. -/
structure Deployment where
  servers : NodeId → OmniPaxosServer
  clients : Session → Option Client
  connected : Session → Bool
  requests : List (Session × ClientMessage)
  proposed : List Command
  log : List Command
  responses : List (Session × ServerMessage)
  sent : List Request
  handled : List Request

def init (numClients : NodeId → Nat) (connected : Session → Bool)
    (intervals : Session → List RequestInterval) : Deployment :=
  { servers := fun id => OmniPaxosServer.new id (numClients id)
    clients := fun session => Client.new session.1 (intervals session)
    connected := connected
    requests := [], proposed := [], log := [], responses := [], sent := [], handled := [] }

inductive Action where
  | requestTick (session : Session) (isWrite : Bool) (now : Timestamp)
  | intervalTick (session : Session)
  | deliver (i : Nat) (now : Timestamp)
  | dropResponse (i : Nat)
  | disconnect (session : Session)
  | serve (i : Nat)
  | dropRequest (i : Nat)
  | decide (i : Nat)
  | clusterMessages (id : NodeId) (batch : List (NodeId × ServerReplication.Event))
  | clientStartSignals (id : NodeId) (startTime : Timestamp)

/-- The decided index that OmniPaxos reports does not pass the end of the log. -/
def within (log : List Command) : ServerReplication.Event → Bool
  | .decided idx => idx ≤ log.length
  | .startSignal _ => true

def requestOf (m : Session × ClientMessage) : Request :=
  match m.2 with
  | .append id _ => (m.1, id)

def answers (m : Session × ServerMessage) : Option Request :=
  m.2.commandId.map (fun id => (m.1, id))

def Deployment.clientTurn (s : Deployment) (session : Session) (event : ClientLoop.Event) :
    Option (Deployment × List (Session × ClientMessage)) := do
  let client ← s.clients session
  let (client, out) ← client.turn event
  return ({ s with clients := Function.update s.clients session (some client) },
    out.map (fun msg => ((client.activeServer, session.2), msg)))

/-- Of the messages that a server passes to `send_to_client`, those that it has a connection for.
The others are dropped with a warning. -/
def sendToClients (connected : Session → Bool) (id : NodeId) (sent : Sent) : Sent :=
  sent.filter (fun m => connected (id, m.1))

def Deployment.respond (s : Deployment) (id : NodeId) (sent : Sent) : Deployment :=
  { s with
    responses := s.responses ++
      (sendToClients s.connected id sent).map (fun m => ((id, m.1), m.2)) }

def step (s : Deployment) : Action → Option Deployment
  | .requestTick session isWrite now => do
    let (s, out) ← s.clientTurn session (.requestTick isWrite now)
    return { s with requests := s.requests ++ out, sent := s.sent ++ out.map requestOf }
  | .intervalTick session => do
    let (s, out) ← s.clientTurn session .intervalTick
    return { s with requests := s.requests ++ out, sent := s.sent ++ out.map requestOf }
  | .deliver i now => do
    let m ← s.responses[i]?
    let (s, _) ← s.clientTurn m.1 (.serverMessage m.2 now)
    return { s with
      responses := s.responses.eraseIdx i
      handled := s.handled ++ (answers m).toList }
  | .dropResponse i => do
    let _ ← s.responses[i]?
    return { s with responses := s.responses.eraseIdx i }
  | .disconnect session =>
    -- a failed send removes the connection
    some { s with connected := Function.update s.connected session false }
  | .serve i => do
    -- a batch of client messages is appended one by one
    let m ← s.requests[i]?
    return { s with
      requests := s.requests.eraseIdx i
      proposed := s.proposed ++ (s.servers m.1.1).handleClientMessages [(m.1.2, m.2)] }
  | .dropRequest i => do
    let _ ← s.requests[i]?
    return { s with requests := s.requests.eraseIdx i }
  | .decide i => do
    let command ← s.proposed[i]?
    return { s with proposed := s.proposed.eraseIdx i, log := s.log ++ [command] }
  | .clusterMessages id batch =>
    if batch.all (fun m => within s.log m.2) then do
      let (server, sent, _) ←
        (s.servers id).handleClusterMessages (ServerReplication.messages s.log batch)
      return { s with servers := Function.update s.servers id server }.respond id sent
    else none
  | .clientStartSignals id startTime =>
    some (s.respond id ((s.servers id).clientStartSignals startTime))

end OmniPaxosJepsen.Sessions
