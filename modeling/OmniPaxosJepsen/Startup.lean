import Mathlib.Data.List.Perm.Subperm
import OmniPaxosJepsen.Sessions

namespace OmniPaxosJepsen.Startup

open Common Server ClientLoop
open Sessions (Session Deployment sendToClients within)

/-- The configuration that all servers share, which names each of them once, and that of each
server and client. -/
structure Config where
  nodes : List NodeId
  nodup : nodes.Nodup
  initialLeader : NodeId
  numClients : NodeId → Nat
  intervals : Session → List RequestInterval

theorem nodup_one_two : ([1, 2] : List NodeId).Nodup := by decide

def Config.getPeers (self : Config) (node : NodeId) : List NodeId :=
  self.nodes.filter (fun id => id ≠ node)

theorem mem_getPeers {config : Config} {node peer : NodeId} :
    peer ∈ config.getPeers node ↔ peer ∈ config.nodes ∧ peer ≠ node := by
  rw [Config.getPeers, List.mem_filter, decide_eq_true_iff]

/-- A `LeaderStartSignal` on its way from one server to another. -/
structure Signal where
  source : NodeId
  target : NodeId
  startTime : Timestamp
  deriving DecidableEq

/-- Where a client is: before its first message, in the main loop it entered at `since`,
done because it has no requests to send, or panicked. -/
inductive Status where
  | waiting
  | started (syncTime since : Timestamp)
  | ended
  | panicked
  deriving DecidableEq

/-- The servers and clients while they start. `started`, `signalled` and `lost` are not part
of the program: they are the time that the leader chose, the start signals sent to connected
clients, and the signals between servers that were lost. -/
structure Launch where
  deployment : Deployment
  establishing : NodeId → Bool
  status : Session → Status
  inFlight : List Signal
  started : Option Timestamp
  signalled : List (Session × Timestamp)
  lost : List Signal

def init (config : Config) (connected : Session → Bool) : Launch :=
  { deployment := Sessions.init config.numClients connected config.intervals
    establishing := fun _ => true
    status := fun _ => .waiting
    inFlight := [], started := none, signalled := [], lost := [] }

/-- `sync_time`, and when the client goes on. -/
def waitUntilSyncTime (scheduledStart now : Timestamp) : Timestamp × Timestamp :=
  let millisecondsUntilSync := scheduledStart - now
  (millisecondsUntilSync,
    if millisecondsUntilSync > 0 then now + millisecondsUntilSync else now)

/-- A client that has its start signal. It panics where its first interval has no valid
period. -/
def Config.begin (self : Config) (session : Session) (startTime now : Timestamp) : Status :=
  let (syncTime, since) := waitUntilSyncTime startTime now
  if self.intervals session = [] then .ended
  else if (Client.new session.1 (self.intervals session)).isSome then .started syncTime since
  else .panicked

def Config.firstMessage (self : Config) (session : Session) (now : Timestamp) :
    ServerMessage → Status
  | .startSignal startTime => self.begin session startTime now
  | .write _ | .read _ _ => .panicked

inductive Action where
  | takeoverTick (id : NodeId) (currentLeader : Option (NodeId × Bool)) (now : Timestamp)
  | clusterMessages (id : NodeId) (batch : List (NodeId × ServerReplication.Event))
  | loseSignal (i : Nat)
  | receive (i : Nat) (now : Timestamp)
  | requestTick (session : Session) (isWrite : Bool) (now : Timestamp)
  | intervalTick (session : Session)
  | dropResponse (i : Nat)
  | disconnect (session : Session)
  | serve (i : Nat)
  | dropRequest (i : Nat)
  | decide (i : Nat)

def signalsOf (id : NodeId) (batch : List (NodeId × ServerReplication.Event)) : List Signal :=
  batch.filterMap (fun
    | (sender, .startSignal startTime) => some ⟨sender, id, startTime⟩
    | (_, .decided _) => none)

def startSignals (id : NodeId) (sent : Sent) : List (Session × Timestamp) :=
  sent.filterMap (fun
    | (client, .startSignal startTime) => some ((id, client), startTime)
    | (_, .write _) | (_, .read _ _) => none)

def Launch.follow (s : Launch) (a : Sessions.Action) : Option Launch :=
  (Sessions.step s.deployment a).map (fun deployment => { s with deployment := deployment })

/-- A client in its main loop handles an event. What it cannot handle makes it panic. -/
def Launch.handle (s : Launch) (session : Session) (a : Sessions.Action) : Option Launch := do
  let client ← s.deployment.clients session
  if client.finished then none
  else
    match s.follow a with
    | some t => some t
    | none => some { s with status := Function.update s.status session .panicked }

def step (config : Config) (s : Launch) : Action → Option Launch
  | .takeoverTick id currentLeader now =>
    if id ∈ config.nodes ∧ s.establishing id = true ∧ config.initialLeader = id then
      if currentLeader = some (id, true) then
        let experimentSyncStart := now + 2000
        let sent := (s.deployment.servers id).clientStartSignals experimentSyncStart
        some { s with
          deployment := s.deployment.respond id sent
          establishing := Function.update s.establishing id false
          inFlight := s.inFlight ++
            (config.getPeers id).map (fun peer => ⟨id, peer, experimentSyncStart⟩)
          started := some experimentSyncStart
          signalled := s.signalled ++
            startSignals id (sendToClients s.deployment.connected id sent) }
      -- `try_become_leader`: all that it does is in the messages of OmniPaxos
      else some s
    else none
  | .clusterMessages id batch =>
    if id ∈ config.nodes ∧ batch.all (fun m => within s.deployment.log m.2) = true ∧
        (signalsOf id batch).Subperm s.inFlight then do
      let (server, sent, receivedStartSignal) ← (s.deployment.servers id).handleClusterMessages
        (ServerReplication.messages s.deployment.log batch)
      return { s with
        deployment := { s.deployment with
          servers := Function.update s.deployment.servers id server }.respond id sent
        -- the main loop does nothing more with a start signal
        establishing :=
          if receivedStartSignal then Function.update s.establishing id false else s.establishing
        inFlight := s.inFlight.diff (signalsOf id batch)
        signalled := s.signalled ++
          startSignals id (sendToClients s.deployment.connected id sent) }
    else none
  | .loseSignal i => do
    let signal ← s.inFlight[i]?
    return { s with inFlight := s.inFlight.eraseIdx i, lost := s.lost ++ [signal] }
  | .receive i now => do
    let m ← s.deployment.responses[i]?
    match s.status m.1 with
    | .waiting =>
      some { s with
        deployment := { s.deployment with responses := s.deployment.responses.eraseIdx i }
        status := Function.update s.status m.1 (config.firstMessage m.1 now m.2) }
    | .started _ _ => s.handle m.1 (.deliver i now)
    | .ended | .panicked => none
  | .requestTick session isWrite now =>
    match s.status session with
    | .started _ since => if since ≤ now then s.follow (.requestTick session isWrite now) else none
    | .waiting | .ended | .panicked => none
  | .intervalTick session =>
    match s.status session with
    | .started _ _ => s.handle session (.intervalTick session)
    | .waiting | .ended | .panicked => none
  | .dropResponse i => s.follow (.dropResponse i)
  | .disconnect session => s.follow (.disconnect session)
  | .serve i => s.follow (.serve i)
  | .dropRequest i => s.follow (.dropRequest i)
  | .decide i => s.follow (.decide i)

end OmniPaxosJepsen.Startup
