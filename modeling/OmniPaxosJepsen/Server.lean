import OmniPaxosJepsen.Common

namespace OmniPaxosJepsen.Server

open Common

inductive LogEntry where
  | decided (cmd : Command)
  | other

/-- `unreachable!()` for an entry that is not a decided command. -/
def LogEntry.decidedCommand : LogEntry → Option Command
  | .decided cmd => some cmd
  | .other => none

/-- What OmniPaxos answers once it has handled a message of the cluster. -/
structure OmniPaxosView where
  decidedIdx : Nat
  readDecidedSuffix : Nat → Option (List LogEntry)

inductive ClusterMessage where
  | omniPaxosMessage (after : OmniPaxosView)
  | leaderStartSignal (startTime : Timestamp)

structure OmniPaxosServer where
  id : NodeId
  database : Database
  currentDecidedIdx : Nat
  numClients : Nat

abbrev Sent := List (ClientId × ServerMessage)

def response (id : CommandId) (read : Option (Option String)) : ServerMessage :=
  match read with
  | some readResult => .read id readResult
  | none => .write id

namespace OmniPaxosServer

def new (id : NodeId) (numClients : Nat) : OmniPaxosServer :=
  { id := id, database := Database.new, currentDecidedIdx := 0, numClients := numClients }

def updateDatabaseAndRespond (self : OmniPaxosServer) : List Command → OmniPaxosServer × Sent
  | [] => (self, [])
  | command :: commands =>
    let (database, read) := self.database.handleCommand command.kvCmd
    let sent :=
      if command.coordinatorId = self.id then [(command.clientId, response command.id read)] else []
    let (self, sent') := { self with database := database }.updateDatabaseAndRespond commands
    (self, sent ++ sent')

/-- The server panics where there is no decided suffix to `unwrap`. -/
def handleDecidedEntries (self : OmniPaxosServer) (omnipaxos : OmniPaxosView) :
    Option (OmniPaxosServer × Sent) :=
  let newDecidedIdx := omnipaxos.decidedIdx
  if self.currentDecidedIdx < newDecidedIdx then do
    let decidedEntries ← omnipaxos.readDecidedSuffix self.currentDecidedIdx
    let decidedCommands ← decidedEntries.mapM LogEntry.decidedCommand
    return { self with currentDecidedIdx := newDecidedIdx }.updateDatabaseAndRespond decidedCommands
  else some (self, [])

/-- `send_client_start_signals`: the clients are numbered from 1. -/
def clientStartSignals (self : OmniPaxosServer) (startTime : Timestamp) : Sent :=
  (List.range self.numClients).map (fun n => (UInt64.ofNat (n + 1), .startSignal startTime))

/-- The loop over a batch, and whether there was a start signal in it. -/
def handleClusterMessages (self : OmniPaxosServer) :
    List (NodeId × ClusterMessage) → Option (OmniPaxosServer × Sent × Bool)
  | [] => some (self, [], false)
  | (_, .omniPaxosMessage after) :: messages => do
    let (self, sent) ← self.handleDecidedEntries after
    let (self, sent', receivedStartSignal) ← self.handleClusterMessages messages
    return (self, sent ++ sent', receivedStartSignal)
  | (_, .leaderStartSignal startTime) :: messages => do
    let (self', sent', _) ← self.handleClusterMessages messages
    return (self', self.clientStartSignals startTime ++ sent', true)

def appendToLog (self : OmniPaxosServer) (sender : ClientId) (commandId : CommandId)
    (kvCommand : KVCommand) : Command :=
  { clientId := sender, coordinatorId := self.id, id := commandId, kvCmd := kvCommand }

def handleClientMessages (self : OmniPaxosServer) (messages : List (ClientId × ClientMessage)) :
    List Command :=
  messages.map (fun
    | (sender, .append commandId kvCommand) => self.appendToLog sender commandId kvCommand)

end OmniPaxosServer

end OmniPaxosJepsen.Server
