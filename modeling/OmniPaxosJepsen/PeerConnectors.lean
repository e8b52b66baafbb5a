import OmniPaxosJepsen.Connections
import OmniPaxosJepsen.Startup

namespace OmniPaxosJepsen.PeerConnectors

open Common Connections Runs
open Startup (Config)

/-- Where the task that connects a server to a peer has come to. It has failed when it could not
send its handshake, or when nothing received its connection. -/
inductive Connector where
  | connecting
  | connected (stream : Nat)
  | greeted (stream : Nat)
  | finished (stream : Nat)
  | failed
  deriving DecidableEq

def Connector.opened : Connector → List Nat
  | .connected stream | .greeted stream | .finished stream => [stream]
  | .connecting | .failed => []

def Connector.greeting : Connector → List Nat
  | .greeted stream | .finished stream => [stream]
  | .connecting | .connected _ | .failed => []

def Connector.own : Connector → List Nat
  | .finished stream => [stream]
  | .connecting | .connected _ | .greeted _ | .failed => []

/-- The servers while they connect. `connectors` are the tasks that connect a server to a peer,
`arrived` holds the streams and handshakes that a server has to handle, `dropped` those that it
could not read or hand over, and `actors` the peer connections that it has made, with the stream
of each. The streams are numbered as they are opened. -/
structure Mesh where
  setups : NodeId → Setup
  connectors : NodeId → NodeId → Connector
  arrived : NodeId → List (Nat × RegistrationMessage)
  dropped : NodeId → List (Nat × RegistrationMessage)
  actors : NodeId → List (NodeId × Nat)
  nextStream : Nat

def start (config : Config) : Mesh :=
  { setups := fun id => Setup.start (config.getPeers id)
    connectors := fun _ _ => .connecting
    arrived := fun _ => [], dropped := fun _ => [], actors := fun _ => [], nextStream := 0 }

namespace Mesh

def setConnector (m : Mesh) (id peer : NodeId) (connector : Connector) : Mesh :=
  { m with
    connectors := Function.update m.connectors id
      (Function.update (m.connectors id) peer connector) }

def setSetup (m : Mesh) (id : NodeId) (setup : Setup) : Mesh :=
  { m with setups := Function.update m.setups id setup }

def arrive (m : Mesh) (id : NodeId) (stream : Nat) (registration : RegistrationMessage) : Mesh :=
  { m with arrived := Function.update m.arrived id (m.arrived id ++ [(stream, registration)]) }

def drop (m : Mesh) (id : NodeId) (stream : Nat) (registration : RegistrationMessage) : Mesh :=
  { m with dropped := Function.update m.dropped id (m.dropped id ++ [(stream, registration)]) }

def addActor (m : Mesh) (id peer : NodeId) (stream : Nat) : Mesh :=
  { m with actors := Function.update m.actors id (m.actors id ++ [(peer, stream)]) }

def take (m : Mesh) (id : NodeId) (i : Nat) : Mesh :=
  { m with arrived := Function.update m.arrived id ((m.arrived id).eraseIdx i) }

end Mesh

/-- `connect` is an attempt to connect that succeeds, `greet` the sending of the handshake,
`register` the handing over of the connection to the loop, `client` a client that connects and
registers, `handshake` and `drop` a handshake that is handled or cannot be read, and `recv` what
the loop does with a connection. -/
inductive Event where
  | connect (id peer : NodeId)
  | greet (id peer : NodeId) (sent : Bool)
  | register (id peer : NodeId)
  | client (id : NodeId)
  | handshake (id : NodeId) (i : Nat)
  | drop (id : NodeId) (i : Nat)
  | recv (id : NodeId) (connection : NewConnection)

/-- A server accepts streams until its loop has returned. What a task hands over after that it
panics on. -/
def step (config : Config) (m : Mesh) : Event → Option Mesh
  | .connect id peer =>
    if id ∈ config.nodes ∧ peer ∈ config.getPeers id ∧ peer < id ∧
        m.connectors id peer = .connecting ∧ (m.setups peer).returned = false then
      some { m.setConnector id peer (.connected m.nextStream) with nextStream := m.nextStream + 1 }
    else none
  | .greet id peer sent =>
    match m.connectors id peer with
    | .connected stream =>
      if sent then
        some ((m.setConnector id peer (.greeted stream)).arrive peer stream (.nodeRegister id))
      else some (m.setConnector id peer .failed)
    | _ => none
  | .register id peer =>
    match m.connectors id peer with
    | .greeted stream =>
      match Connections.step id (config.numClients id) (m.setups id) (.connector peer) with
      | some setup =>
        some (((m.setConnector id peer (.finished stream)).addActor id peer stream).setSetup id
          setup)
      | none => some (m.setConnector id peer .failed)
    | _ => none
  | .client id =>
    if id ∈ config.nodes ∧ (m.setups id).returned = false then
      some { m.arrive id m.nextStream .clientRegister with nextStream := m.nextStream + 1 }
    else none
  | .handshake id i => do
    let (stream, registration) ← (m.arrived id)[i]?
    match Connections.step id (config.numClients id) (m.setups id) (.handshake registration) with
    | some setup =>
      match registration with
      | .nodeRegister nodeId =>
        some (((m.take id i).addActor id nodeId stream).setSetup id setup)
      | .clientRegister => some ((m.take id i).setSetup id setup)
    | none => some ((m.take id i).drop id stream registration)
  | .drop id i => do
    let (stream, registration) ← (m.arrived id)[i]?
    return (m.take id i).drop id stream registration
  | .recv id connection =>
    (Connections.step id (config.numClients id) (m.setups id) (.recv connection)).map
      (m.setSetup id)

end OmniPaxosJepsen.PeerConnectors
