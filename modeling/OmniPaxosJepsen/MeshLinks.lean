import Mathlib.Data.Multiset.OrderedMonoid
import OmniPaxosJepsen.ConnectionLoop
import OmniPaxosJepsen.Flight
import OmniPaxosJepsen.PeerConnectors

namespace OmniPaxosJepsen.MeshLinks

open Common Connections ConnectionLoop PeerConnectors
open Startup (Config mem_getPeers)

def streamsOf (actors : List (NodeId × Nat)) (peer : NodeId) : Multiset Nat :=
  (actors.filterMap (fun a => if a.1 = peer then some a.2 else none) : List Nat)

def handshakesOf (handshakes : List (Nat × RegistrationMessage)) (id : NodeId) : Multiset Nat :=
  (handshakes.filterMap (fun a => if a.2 = .nodeRegister id then some a.1 else none) : List Nat)

theorem streamsOf_concat (actors : List (NodeId × Nat)) (peer peer' : NodeId) (stream : Nat) :
    streamsOf (actors ++ [(peer', stream)]) peer =
      streamsOf actors peer + if peer' = peer then {stream} else 0 := by
  by_cases h : peer' = peer <;> simp [streamsOf, h, ← Multiset.coe_add]

theorem handshakesOf_concat (handshakes : List (Nat × RegistrationMessage)) (id : NodeId)
    (stream : Nat) (registration : RegistrationMessage) :
    handshakesOf (handshakes ++ [(stream, registration)]) id =
      handshakesOf handshakes id + if registration = .nodeRegister id then {stream} else 0 := by
  by_cases h : registration = .nodeRegister id <;> simp [handshakesOf, h, ← Multiset.coe_add]

theorem handshakesOf_eraseIdx {handshakes : List (Nat × RegistrationMessage)} {i stream : Nat}
    {registration : RegistrationMessage} (h : handshakes[i]? = some (stream, registration))
    (id : NodeId) : handshakesOf handshakes id =
      (if registration = .nodeRegister id then {stream} else 0) +
        handshakesOf (handshakes.eraseIdx i) id := by
  have hperm := (Flight.cons_eraseIdx_perm h).symm.filterMap
    (fun a => if a.2 = .nodeRegister id then some a.1 else none)
  rw [handshakesOf, Multiset.coe_eq_coe.mpr hperm]
  by_cases hr : registration = .nodeRegister id <;> simp [handshakesOf, hr]

/-- What there is between a server and a peer with a smaller id: how far the server's task has
come, the streams of the connections that the server made to the peer, and of the handshakes
that the peer has to handle, took and dropped. -/
structure Link where
  connector : Connector
  own : Multiset Nat
  arrived : Multiset Nat
  accepted : Multiset Nat
  dropped : Multiset Nat

def link (m : Mesh) (id peer : NodeId) : Link :=
  { connector := m.connectors id peer
    own := streamsOf (m.actors id) peer
    arrived := handshakesOf (m.arrived peer) id
    accepted := streamsOf (m.actors peer) id
    dropped := handshakesOf (m.dropped peer) id }

inductive Moves : Link → Link → Prop where
  | stay (l : Link) : Moves l l
  | connect (own arrived accepted dropped : Multiset Nat) (stream : Nat) :
    Moves ⟨.connecting, own, arrived, accepted, dropped⟩
      ⟨.connected stream, own, arrived, accepted, dropped⟩
  | greet (own arrived accepted dropped : Multiset Nat) (stream : Nat) :
    Moves ⟨.connected stream, own, arrived, accepted, dropped⟩
      ⟨.greeted stream, own, arrived + {stream}, accepted, dropped⟩
  | fail (own arrived accepted dropped : Multiset Nat) (stream : Nat) :
    Moves ⟨.connected stream, own, arrived, accepted, dropped⟩
      ⟨.failed, own, arrived, accepted, dropped⟩
  | register (own arrived accepted dropped : Multiset Nat) (stream : Nat) :
    Moves ⟨.greeted stream, own, arrived, accepted, dropped⟩
      ⟨.finished stream, own + {stream}, arrived, accepted, dropped⟩
  | handshake (connector : Connector) (own arrived accepted dropped : Multiset Nat)
    (stream : Nat) :
    Moves ⟨connector, own, {stream} + arrived, accepted, dropped⟩
      ⟨connector, own, arrived, accepted + {stream}, dropped⟩
  | drop (connector : Connector) (own arrived accepted dropped : Multiset Nat) (stream : Nat) :
    Moves ⟨connector, own, {stream} + arrived, accepted, dropped⟩
      ⟨connector, own, arrived, accepted, dropped + {stream}⟩

/-- There is one stream at most: the server has a connection over it when its task is finished,
and once its handshake is sent it is with the peer. -/
structure Wired (l : Link) : Prop where
  own : l.own = l.connector.own
  arrived : l.arrived + l.accepted + l.dropped = l.connector.greeting

theorem Wired.moves {l l' : Link} (h : Wired l) (hmoves : Moves l l') : Wired l' := by
  obtain ⟨hown, harrived⟩ := h
  cases hmoves with
  | stay => exact ⟨hown, harrived⟩
  | connect own arrived accepted dropped stream => exact ⟨hown, harrived⟩
  | greet own arrived accepted dropped stream =>
    refine ⟨hown, ?_⟩
    have hnone : arrived + accepted + dropped = 0 := harrived
    change arrived + {stream} + accepted + dropped = {stream}
    rw [add_right_comm arrived, add_right_comm (arrived + accepted), hnone, zero_add]
  | fail own arrived accepted dropped stream => exact ⟨hown, harrived⟩
  | register own arrived accepted dropped stream =>
    have hnone : own = 0 := hown
    exact ⟨by rw [hnone]; rfl, harrived⟩
  | handshake connector own arrived accepted dropped stream =>
    refine ⟨hown, Eq.trans ?_ harrived⟩
    simp only [add_comm, add_left_comm]
  | drop connector own arrived accepted dropped stream =>
    refine ⟨hown, Eq.trans ?_ harrived⟩
    simp only [add_assoc, add_comm, add_left_comm]

section Link

variable (m : Mesh) (id peer id' peer' : NodeId)

theorem setConnector_connectors (connector : Connector) :
    (m.setConnector id peer connector).connectors id' peer' =
      if id' = id ∧ peer' = peer then connector else m.connectors id' peer' := by
  by_cases hid : id' = id
  · subst hid
    by_cases hpeer : peer' = peer <;> simp [Mesh.setConnector, hpeer]
  · simp [Mesh.setConnector, hid]

theorem link_setConnector (connector : Connector) :
    link (m.setConnector id peer connector) id' peer' =
      { link m id' peer' with
        connector := if id' = id ∧ peer' = peer then connector else m.connectors id' peer' } := by
  rw [link, setConnector_connectors]
  rfl

theorem link_arrive (stream : Nat) (registration : RegistrationMessage) :
    link (m.arrive peer stream registration) id' peer' =
      { link m id' peer' with
        arrived := handshakesOf (m.arrived peer') id' +
          if peer' = peer ∧ registration = .nodeRegister id' then {stream} else 0 } := by
  by_cases hpeer : peer' = peer
  · subst hpeer
    simp [link, Mesh.arrive, handshakesOf_concat]
  · simp [link, Mesh.arrive, hpeer]

theorem link_drop (stream : Nat) (registration : RegistrationMessage) :
    link (m.drop peer stream registration) id' peer' =
      { link m id' peer' with
        dropped := handshakesOf (m.dropped peer') id' +
          if peer' = peer ∧ registration = .nodeRegister id' then {stream} else 0 } := by
  by_cases hpeer : peer' = peer
  · subst hpeer
    simp [link, Mesh.drop, handshakesOf_concat]
  · simp [link, Mesh.drop, hpeer]

theorem streamsOf_addActor (stream : Nat) :
    streamsOf ((m.addActor id peer stream).actors id') peer' =
      streamsOf (m.actors id') peer' + if id' = id ∧ peer' = peer then {stream} else 0 := by
  by_cases hid : id' = id
  · subst hid
    simp [Mesh.addActor, streamsOf_concat, eq_comm]
  · simp [Mesh.addActor, hid]

theorem link_addActor (stream : Nat) : link (m.addActor id peer stream) id' peer' =
    { link m id' peer' with
      own := streamsOf (m.actors id') peer' + if id' = id ∧ peer' = peer then {stream} else 0
      accepted := streamsOf (m.actors peer') id' +
        if peer' = id ∧ id' = peer then {stream} else 0 } := by
  simp only [link, streamsOf_addActor]
  rfl

theorem link_take {i stream : Nat} {registration : RegistrationMessage}
    (h : (m.arrived peer)[i]? = some (stream, registration)) : link m id' peer' =
      { link (m.take peer i) id' peer' with
        arrived := (if peer' = peer ∧ registration = .nodeRegister id' then {stream} else 0) +
          handshakesOf ((m.take peer i).arrived peer') id' } := by
  by_cases hpeer : peer' = peer
  · subst hpeer
    simp [link, Mesh.take, handshakesOf_eraseIdx h]
  · simp [link, Mesh.take, hpeer]

end Link

variable {config : Config} {m t : Mesh} {event : PeerConnectors.Event}

structure Meshed (config : Config) (m : Mesh) : Prop where
  fresh : ∀ id peer, ∀ stream ∈ (m.connectors id peer).opened, stream < m.nextStream
  unique : ∀ id peer id' peer', ∀ stream ∈ (m.connectors id peer).opened,
    stream ∈ (m.connectors id' peer').opened → id' = id ∧ peer' = peer
  sound : ∀ id, Sound config id (m.setups id)
  has : ∀ id peer, Has (m.setups id) peer ↔ streamsOf (m.actors id) peer ≠ 0
  begun : ∀ id peer, m.connectors id peer ≠ .connecting →
    id ∈ config.nodes ∧ peer ∈ config.getPeers id ∧ peer < id
  arrived : ∀ id peer, handshakesOf (m.arrived peer) id ≠ 0 → peer < id
  wired : ∀ id peer, peer < id → Wired (link m id peer)

/-- A task that has not handed over its connection finds its own loop running. -/
theorem Meshed.greeted (h : Meshed config m) {id peer : NodeId} {stream : Nat}
    (hconnector : m.connectors id peer = .greeted stream) : (m.setups id).returned = false := by
  obtain ⟨_, hpeer, hlt⟩ := h.begun id peer (by simp [hconnector])
  have hown : streamsOf (m.actors id) peer = (m.connectors id peer).own := (h.wired id peer hlt).own
  rw [hconnector] at hown
  by_contra hreturned
  exact (h.has id peer).mp ((h.sound id).has (by simpa using hreturned) hpeer) hown

theorem Meshed.arrived_begun (h : Meshed config m) {id peer : NodeId} {i stream : Nat}
    (harrived : (m.arrived peer)[i]? = some (stream, .nodeRegister id)) :
    id ∈ config.nodes ∧ peer ∈ config.getPeers id ∧ peer < id := by
  have hmem : handshakesOf (m.arrived peer) id ≠ 0 := by
    rw [handshakesOf_eraseIdx harrived, if_pos rfl, Multiset.singleton_add]
    exact Multiset.cons_ne_zero
  refine h.begun id peer (fun hconnecting => hmem ?_)
  have hgreeting : handshakesOf (m.arrived peer) id + streamsOf (m.actors peer) id +
      handshakesOf (m.dropped peer) id = (m.connectors id peer).greeting :=
    (h.wired id peer (h.arrived id peer hmem)).arrived
  rw [hconnecting] at hgreeting
  exact (add_eq_zero.mp (add_eq_zero.mp hgreeting).1).1

/-- All that one step can do. -/
inductive Next (config : Config) (m : Mesh) : PeerConnectors.Event → Mesh → Prop
  | connect {id peer : NodeId} (hmem : id ∈ config.nodes) (hpeer : peer ∈ config.getPeers id)
      (hlt : peer < id) (hconnecting : m.connectors id peer = .connecting) :
      Next config m (.connect id peer)
        { m.setConnector id peer (.connected m.nextStream) with nextStream := m.nextStream + 1 }
  | greet {id peer : NodeId} {stream : Nat}
      (hconnected : m.connectors id peer = .connected stream) :
      Next config m (.greet id peer true)
        ((m.setConnector id peer (.greeted stream)).arrive peer stream (.nodeRegister id))
  | fail {id peer : NodeId} {stream : Nat}
      (hconnected : m.connectors id peer = .connected stream) :
      Next config m (.greet id peer false) (m.setConnector id peer .failed)
  | register {id peer : NodeId} {stream : Nat} {setup : Setup}
      (hgreeted : m.connectors id peer = .greeted stream)
      (hloop : Connections.step id (config.numClients id) (m.setups id) (.connector peer) =
        some setup) :
      Next config m (.register id peer)
        (((m.setConnector id peer (.finished stream)).addActor id peer stream).setSetup id setup)
  | refuse {id peer : NodeId} {stream : Nat} (hgreeted : m.connectors id peer = .greeted stream)
      (hloop : Connections.step id (config.numClients id) (m.setups id) (.connector peer) = none) :
      Next config m (.register id peer) (m.setConnector id peer .failed)
  | client {id : NodeId} :
      Next config m (.client id)
        { m.arrive id m.nextStream .clientRegister with nextStream := m.nextStream + 1 }
  | peer {id nodeId : NodeId} {i stream : Nat} {setup : Setup}
      (harrived : (m.arrived id)[i]? = some (stream, .nodeRegister nodeId))
      (hloop : Connections.step id (config.numClients id) (m.setups id)
        (.handshake (.nodeRegister nodeId)) = some setup) :
      Next config m (.handshake id i) (((m.take id i).addActor id nodeId stream).setSetup id setup)
  | number {id : NodeId} {i stream : Nat} {setup : Setup}
      (harrived : (m.arrived id)[i]? = some (stream, .clientRegister))
      (hloop : Connections.step id (config.numClients id) (m.setups id)
        (.handshake .clientRegister) = some setup) :
      Next config m (.handshake id i) ((m.take id i).setSetup id setup)
  | late {id : NodeId} {i stream : Nat} {registration : RegistrationMessage}
      (harrived : (m.arrived id)[i]? = some (stream, registration)) :
      Next config m (.handshake id i) ((m.take id i).drop id stream registration)
  | drop {id : NodeId} {i stream : Nat} {registration : RegistrationMessage}
      (harrived : (m.arrived id)[i]? = some (stream, registration)) :
      Next config m (.drop id i) ((m.take id i).drop id stream registration)
  | recv {id : NodeId} {connection : NewConnection} {setup : Setup}
      (hloop : Connections.step id (config.numClients id) (m.setups id) (.recv connection) =
        some setup) :
      Next config m (.recv id connection) (m.setSetup id setup)

theorem step_next (hstep : PeerConnectors.step config m event = some t) :
    Next config m event t := by
  cases event with
  | connect id peer =>
    obtain ⟨⟨hmem, hpeer, hlt, hconnecting, _⟩, heq⟩ := Option.ite_none_right_eq_some.mp hstep
    cases heq
    exact .connect hmem hpeer hlt hconnecting
  | greet id peer sent =>
    simp only [PeerConnectors.step] at hstep
    split at hstep
    · next stream hconnected =>
      cases sent <;> cases hstep
      · exact .fail hconnected
      · exact .greet hconnected
    · cases hstep
  | register id peer =>
    simp only [PeerConnectors.step] at hstep
    split at hstep
    · next stream hgreeted =>
      split at hstep <;> cases hstep
      · next setup hloop => exact .register hgreeted hloop
      · next hloop => exact .refuse hgreeted hloop
    · cases hstep
  | client id =>
    obtain ⟨_, heq⟩ := Option.ite_none_right_eq_some.mp hstep
    cases heq
    exact .client
  | handshake id i =>
    obtain ⟨⟨stream, registration⟩, harrived, hstep⟩ := Option.bind_eq_some_iff.mp hstep
    dsimp only at hstep
    split at hstep
    · next setup hloop =>
      cases registration <;> cases hstep
      · exact .peer harrived hloop
      · exact .number harrived hloop
    · cases hstep
      exact .late harrived
  | drop id i =>
    obtain ⟨⟨stream, registration⟩, harrived, hstep⟩ := Option.bind_eq_some_iff.mp hstep
    cases hstep
    exact .drop harrived
  | recv id connection =>
    obtain ⟨setup, hloop, rfl⟩ := Option.map_eq_some_iff.mp hstep
    exact .recv hloop

theorem moves_drop {id peer id' : NodeId} {i stream : Nat} {registration : RegistrationMessage}
    (harrived : (m.arrived id')[i]? = some (stream, registration)) :
    Moves (link m id peer) (link ((m.take id' i).drop id' stream registration) id peer) := by
  rw [link_take m id' id peer harrived, link_drop]
  by_cases hpair : peer = id' ∧ registration = .nodeRegister id
  · rw [if_pos hpair]
    exact .drop _ _ _ _ _ stream
  · rw [if_neg hpair, zero_add, add_zero]
    exact .stay _

theorem moves_connect {id peer id₁ peer₁ : NodeId} {stream : Nat}
    (hconnecting : m.connectors id₁ peer₁ = .connecting) :
    Moves (link m id peer) (link (m.setConnector id₁ peer₁ (.connected stream)) id peer) := by
  rw [link_setConnector]
  by_cases hpair : id = id₁ ∧ peer = peer₁
  · obtain ⟨rfl, rfl⟩ := hpair
    rw [if_pos ⟨rfl, rfl⟩]
    simp only [link, hconnecting]
    exact .connect _ _ _ _ _
  · rw [if_neg hpair]
    exact .stay _

theorem moves_greet {id peer id₁ peer₁ : NodeId} {stream : Nat}
    (hconnected : m.connectors id₁ peer₁ = .connected stream) :
    Moves (link m id peer) (link ((m.setConnector id₁ peer₁ (.greeted stream)).arrive peer₁ stream
      (.nodeRegister id₁)) id peer) := by
  rw [link_arrive, link_setConnector]
  by_cases hpair : id = id₁ ∧ peer = peer₁
  · obtain ⟨rfl, rfl⟩ := hpair
    rw [if_pos ⟨rfl, rfl⟩, if_pos ⟨rfl, rfl⟩]
    simp only [link, hconnected]
    exact .greet _ _ _ _ _
  · have hother : ¬ (peer = peer₁ ∧ RegistrationMessage.nodeRegister id₁ = .nodeRegister id) :=
      fun hboth => hpair ⟨(RegistrationMessage.nodeRegister.inj hboth.2).symm, hboth.1⟩
    rw [if_neg hpair, if_neg hother, add_zero]
    exact .stay _

theorem moves_fail {id peer id₁ peer₁ : NodeId} {stream : Nat}
    (hconnected : m.connectors id₁ peer₁ = .connected stream) :
    Moves (link m id peer) (link (m.setConnector id₁ peer₁ .failed) id peer) := by
  rw [link_setConnector]
  by_cases hpair : id = id₁ ∧ peer = peer₁
  · obtain ⟨rfl, rfl⟩ := hpair
    rw [if_pos ⟨rfl, rfl⟩]
    simp only [link, hconnected]
    exact .fail _ _ _ _ _
  · rw [if_neg hpair]
    exact .stay _

theorem moves_register {id peer id₁ peer₁ : NodeId} {stream : Nat} (hlt : peer < id)
    (hlt₁ : peer₁ < id₁) (hgreeted : m.connectors id₁ peer₁ = .greeted stream) :
    Moves (link m id peer) (link ((m.setConnector id₁ peer₁ (.finished stream)).addActor id₁ peer₁
      stream) id peer) := by
  have haccepted : ¬ (peer = id₁ ∧ id = peer₁) := by
    rintro ⟨rfl, rfl⟩
    exact UInt64.lt_asymm hlt hlt₁
  rw [link_addActor, link_setConnector, if_neg haccepted, add_zero]
  by_cases hpair : id = id₁ ∧ peer = peer₁
  · obtain ⟨rfl, rfl⟩ := hpair
    rw [if_pos ⟨rfl, rfl⟩, if_pos ⟨rfl, rfl⟩]
    simp only [link, hgreeted]
    exact .register _ _ _ _ _
  · rw [if_neg hpair, if_neg hpair, add_zero]
    exact .stay _

theorem moves_handshake {id peer id₁ nodeId : NodeId} {i stream : Nat} (hlt : peer < id)
    (hlt₁ : id₁ < nodeId) (harrived : (m.arrived id₁)[i]? = some (stream, .nodeRegister nodeId)) :
    Moves (link m id peer) (link ((m.take id₁ i).addActor id₁ nodeId stream) id peer) := by
  have hown : ¬ (id = id₁ ∧ peer = nodeId) := by
    rintro ⟨rfl, rfl⟩
    exact UInt64.lt_asymm hlt hlt₁
  rw [link_take m id₁ id peer harrived, link_addActor, if_neg hown, add_zero]
  by_cases hpair : peer = id₁ ∧ id = nodeId
  · rw [if_pos hpair, if_pos ⟨hpair.1, by rw [hpair.2]⟩]
    exact .handshake _ _ _ _ _ stream
  · have hother : ¬ (peer = id₁ ∧ RegistrationMessage.nodeRegister nodeId = .nodeRegister id) :=
      fun hboth => hpair ⟨hboth.1, (RegistrationMessage.nodeRegister.inj hboth.2).symm⟩
    rw [if_neg hpair, if_neg hother, zero_add, add_zero]
    exact .stay _

theorem step_link (h : Meshed config m) (hstep : PeerConnectors.step config m event = some t)
    {id peer : NodeId} (hlt : peer < id) : Moves (link m id peer) (link t id peer) := by
  cases step_next hstep with
  | connect _ _ _ hconnecting => exact moves_connect hconnecting
  | greet hconnected => exact moves_greet hconnected
  | fail hconnected => exact moves_fail hconnected
  | register hgreeted =>
    exact moves_register hlt (h.begun _ _ (by simp [hgreeted])).2.2 hgreeted
  | refuse hgreeted hloop =>
    -- the loop of a task that has greeted its peer is running, so it takes the connection
    obtain ⟨_, hpeer, hlt₁⟩ := h.begun _ _ (by rw [hgreeted]; simp)
    simp [Connections.step, h.greeted hgreeted, (h.sound _).peers, hpeer, hlt₁] at hloop
  | @client id₁ =>
    change Moves _ (link (m.arrive id₁ _ .clientRegister) id peer)
    rw [link_arrive, if_neg (by simp), add_zero]
    exact .stay _
  | peer harrived => exact moves_handshake hlt (h.arrived_begun harrived).2.2 harrived
  | @number id₁ i _ _ harrived =>
    change Moves _ (link (m.take id₁ i) id peer)
    rw [link_take m id₁ id peer harrived, if_neg (by simp), zero_add]
    exact .stay _
  | late harrived => exact moves_drop harrived
  | drop harrived => exact moves_drop harrived
  | recv => exact .stay _

/-- All that a step does to a server: nothing, or a step of its loop, and a connection that is
handed over to the loop was made. -/
def Serves (config : Config) (m t : Mesh) (id : NodeId) : Prop :=
  (t.setups id = m.setups id ∧ t.actors id = m.actors id) ∨
    ∃ loop, Connections.step id (config.numClients id) (m.setups id) loop =
        some (t.setups id) ∧
      ∀ peer, (Hands loop peer → peer ∈ config.getPeers id) ∧
        (streamsOf (t.actors id) peer ≠ 0 ↔
          streamsOf (m.actors id) peer ≠ 0 ∨ Hands loop peer)

theorem streamsOf_concat_ne_zero (actors : List (NodeId × Nat)) (peer peer' : NodeId)
    (stream : Nat) :
    streamsOf (actors ++ [(peer', stream)]) peer ≠ 0 ↔
      streamsOf actors peer ≠ 0 ∨ peer' = peer := by
  rw [streamsOf_concat]
  by_cases hpeer : peer' = peer
  · rw [if_pos hpeer, add_comm, Multiset.singleton_add]
    exact iff_of_true Multiset.cons_ne_zero (.inr hpeer)
  · rw [if_neg hpeer, add_zero, or_iff_left hpeer]

theorem serves_peer {id peer : NodeId} {loop : Connections.Event} {setup : Setup}
    (hloop : Connections.step id (config.numClients id) (m.setups id) loop =
      some setup) (hsetup : t.setups id = setup) {stream : Nat}
    (hactors : t.actors id = m.actors id ++ [(peer, stream)])
    (hpeer : peer ∈ config.getPeers id) (hhands : ∀ peer', Hands loop peer' ↔ peer = peer') :
    Serves config m t id := by
  refine .inr ⟨loop, hsetup ▸ hloop, fun peer' => ⟨fun h => ?_, ?_⟩⟩
  · exact (hhands peer').mp h ▸ hpeer
  · rw [hhands peer', hactors]
    exact streamsOf_concat_ne_zero (m.actors id) peer' peer stream

theorem serves_other {id : NodeId} {loop : Connections.Event} {setup : Setup}
    (hloop : Connections.step id (config.numClients id) (m.setups id) loop = some setup)
    (hsetup : t.setups id = setup) (hactors : t.actors id = m.actors id)
    (hhands : ∀ peer, ¬ Hands loop peer) : Serves config m t id := by
  refine .inr ⟨loop, hsetup ▸ hloop, fun peer => ⟨fun h => absurd h (hhands peer), ?_⟩⟩
  rw [hactors, or_iff_left (hhands peer)]

theorem step_server (h : Meshed config m) (hstep : PeerConnectors.step config m event = some t)
    (id : NodeId) : Serves config m t id := by
  cases step_next hstep with
  | connect | greet | fail | refuse | client | late | drop => exact .inl ⟨rfl, rfl⟩
  | @register id₁ peer₁ _ _ hgreeted hloop =>
    by_cases hid : id = id₁
    · subst hid
      obtain ⟨_, hpeer, _⟩ := h.begun id peer₁ (by simp [hgreeted])
      exact serves_peer hloop (Function.update_self ..) (Function.update_self ..) hpeer
        (fun _ => by simp [Hands])
    · exact .inl ⟨Function.update_of_ne hid _ _, Function.update_of_ne hid _ _⟩
  | @peer id₁ nodeId _ _ _ harrived hloop =>
    by_cases hid : id = id₁
    · subst hid
      obtain ⟨hmem, hpeer, _⟩ := h.arrived_begun harrived
      exact serves_peer hloop (Function.update_self ..) (Function.update_self ..)
        (mem_getPeers.mpr ⟨hmem, (mem_getPeers.mp hpeer).2.symm⟩) (fun _ => by simp [Hands])
    · exact .inl ⟨Function.update_of_ne hid _ _, Function.update_of_ne hid _ _⟩
  | @number id₁ _ _ _ _ hloop =>
    by_cases hid : id = id₁
    · subst hid
      exact serves_other hloop (Function.update_self ..) rfl (fun _ => by simp [Hands])
    · exact .inl ⟨Function.update_of_ne hid _ _, rfl⟩
  | @recv id₁ _ _ hloop =>
    by_cases hid : id = id₁
    · subst hid
      exact serves_other hloop (Function.update_self ..) rfl (fun _ => by simp [Hands])
    · exact .inl ⟨Function.update_of_ne hid _ _, rfl⟩

/-- A task goes on with the stream that it has, if it goes on. -/
theorem setConnector_opened {id peer id₁ peer₁ : NodeId} {connector : Connector}
    (hopened : connector.opened ⊆ (m.connectors id₁ peer₁).opened)
    (hbegun : m.connectors id₁ peer₁ ≠ .connecting) :
    ((m.setConnector id₁ peer₁ connector).connectors id peer).opened ⊆
        (m.connectors id peer).opened ∧
      ((m.setConnector id₁ peer₁ connector).connectors id peer ≠ .connecting →
        m.connectors id peer ≠ .connecting) := by
  rw [setConnector_connectors]
  split
  · next hpair =>
    obtain ⟨rfl, rfl⟩ := hpair
    exact ⟨hopened, fun _ => hbegun⟩
  · exact ⟨List.Subset.refl _, fun hne => hne⟩

theorem step_connector (hstep : PeerConnectors.step config m event = some t)
    (id peer : NodeId) :
    ((t.connectors id peer).opened ⊆ (m.connectors id peer).opened ∧
      (t.connectors id peer ≠ .connecting → m.connectors id peer ≠ .connecting)) ∨
      event = .connect id peer ∧ (id ∈ config.nodes ∧ peer ∈ config.getPeers id ∧ peer < id) ∧
        t.connectors id peer = .connected m.nextStream ∧ t.nextStream = m.nextStream + 1 := by
  cases step_next hstep with
  | @connect id₁ peer₁ hmem hpeer hlt =>
    by_cases hpair : id = id₁ ∧ peer = peer₁
    · obtain ⟨rfl, rfl⟩ := hpair
      exact .inr ⟨rfl, ⟨hmem, hpeer, hlt⟩,
        (setConnector_connectors m id peer id peer _).trans (if_pos ⟨rfl, rfl⟩), rfl⟩
    · have hother := (setConnector_connectors m id₁ peer₁ id peer
        (.connected m.nextStream)).trans (if_neg hpair)
      refine .inl ⟨?_, fun hne => hother ▸ hne⟩
      change ((m.setConnector id₁ peer₁ _).connectors id peer).opened ⊆ _
      rw [hother]
      exact List.Subset.refl _
  | greet hconnected | fail hconnected =>
    exact .inl (setConnector_opened (by simp [Connector.opened, hconnected]) (by simp [hconnected]))
  | register hgreeted | refuse hgreeted =>
    exact .inl (setConnector_opened (by simp [Connector.opened, hgreeted]) (by simp [hgreeted]))
  | client | peer | number | late | drop | recv =>
    exact .inl ⟨List.Subset.refl _, fun hne => hne⟩

theorem step_nextStream (hstep : PeerConnectors.step config m event = some t) :
    m.nextStream ≤ t.nextStream := by
  cases step_next hstep with
  | connect | client => exact Nat.le_succ _
  | greet | fail | register | refuse | peer | number | late | drop | recv => exact le_rfl

theorem step_arrived (hstep : PeerConnectors.step config m event = some t) {id peer : NodeId}
    (h : handshakesOf (t.arrived peer) id ≠ 0) :
    handshakesOf (m.arrived peer) id ≠ 0 ∨ m.connectors id peer ≠ .connecting := by
  have htake : ∀ {id₁ : NodeId} {i stream : Nat} {registration : RegistrationMessage},
      (m.arrived id₁)[i]? = some (stream, registration) →
      handshakesOf ((m.take id₁ i).arrived peer) id ≠ 0 →
      handshakesOf (m.arrived peer) id ≠ 0 := by
    intro id₁ i stream registration harrived hne hnone
    have hlink := congrArg Link.arrived (link_take m id₁ id peer harrived)
    exact hne (add_eq_zero.mp (hlink.symm.trans hnone)).2
  cases step_next hstep with
  | connect | fail | register | refuse | recv => exact .inl h
  | @greet id₁ peer₁ stream hconnected =>
    have hlink := congrArg Link.arrived
      (link_arrive (m.setConnector id₁ peer₁ (.greeted stream)) peer₁ id peer stream
        (.nodeRegister id₁))
    by_cases hpair : peer = peer₁ ∧ RegistrationMessage.nodeRegister id₁ = .nodeRegister id
    · obtain ⟨rfl, heq⟩ := hpair
      cases heq
      exact .inr (by simp [hconnected])
    · rw [if_neg hpair, add_zero] at hlink
      exact .inl (fun hnone => h (hlink.trans hnone))
  | @client id₁ =>
    have hlink := congrArg Link.arrived (link_arrive m id₁ id peer m.nextStream .clientRegister)
    rw [if_neg (by simp), add_zero] at hlink
    exact .inl (fun hnone => h (hlink.trans hnone))
  | peer harrived | number harrived | late harrived | drop harrived => exact .inl (htake harrived h)

theorem meshed_start (config : Config) : Meshed config (start config) := by
  refine ⟨fun id peer stream h => (List.not_mem_nil h).elim,
    fun id peer id' peer' stream h => (List.not_mem_nil h).elim, fun id => sound_start config id,
    fun id peer => ?_, fun id peer h => absurd rfl h, fun id peer h => absurd rfl h,
    fun id peer _ => ⟨rfl, rfl⟩⟩
  refine iff_of_false ?_ (not_not.mpr rfl)
  rintro (hmem | ⟨idx, connection, _, hheld, _⟩)
  · cases hmem
  · have hmem := List.mem_of_getElem? hheld
    cases List.eq_of_mem_replicate hmem

theorem step_meshed (h : Meshed config m) (hstep : PeerConnectors.step config m event = some t) :
    Meshed config t := by
  have hbegun : ∀ id peer, t.connectors id peer ≠ .connecting →
      id ∈ config.nodes ∧ peer ∈ config.getPeers id ∧ peer < id := by
    intro id peer hne
    obtain ⟨_, hold⟩ | ⟨_, hguard, _⟩ := step_connector hstep id peer
    · exact h.begun id peer (hold hne)
    · exact hguard
  refine ⟨fun id peer stream hmem => ?_, fun id peer id' peer' stream hmem hmem' => ?_,
    fun id => ?_, fun id peer => ?_, hbegun, fun id peer hne => ?_,
    fun id peer hlt => (h.wired id peer hlt).moves (step_link h hstep hlt)⟩
  · obtain ⟨hold, _⟩ | ⟨_, _, hnew, hnext⟩ := step_connector hstep id peer
    · exact (h.fresh id peer stream (hold hmem)).trans_le (step_nextStream hstep)
    · rw [hnew] at hmem
      rw [List.mem_singleton.mp hmem, hnext]
      exact Nat.lt_succ_self _
  · obtain ⟨hold, _⟩ | ⟨hevent, _, hnew, _⟩ := step_connector hstep id peer <;>
      obtain ⟨hold', _⟩ | ⟨hevent', _, hnew', _⟩ := step_connector hstep id' peer'
    · exact h.unique id peer id' peer' stream (hold hmem) (hold' hmem')
    · rw [hnew'] at hmem'
      have hlt := h.fresh id peer stream (hold hmem)
      rw [List.mem_singleton.mp hmem'] at hlt
      exact absurd hlt (lt_irrefl _)
    · rw [hnew] at hmem
      have hlt := h.fresh id' peer' stream (hold' hmem')
      rw [List.mem_singleton.mp hmem] at hlt
      exact absurd hlt (lt_irrefl _)
    · rw [hevent] at hevent'
      cases hevent'
      exact ⟨rfl, rfl⟩
  · obtain ⟨hsetup, _⟩ | ⟨loop, hloop, hhands⟩ := step_server h hstep id
    · rw [hsetup]
      exact h.sound id
    · exact (h.sound id).step hloop (fun peer => (hhands peer).1)
  · obtain ⟨hsetup, hactors⟩ | ⟨loop, hloop, hhands⟩ := step_server h hstep id
    · rw [hsetup, hactors]
      exact h.has id peer
    · rw [has_step (h.sound id).inv.1 hloop, h.has id peer, (hhands peer).2]
  · obtain hold | hconnecting := step_arrived hstep hne
    · exact h.arrived id peer hold
    · exact (h.begun id peer hconnecting).2.2

section Opened

variable {id peer : NodeId}

theorem lt_or_lt_of_ne (h : id ≠ peer) : id < peer ∨ peer < id := by
  rw [UInt64.lt_iff_toNat_lt, UInt64.lt_iff_toNat_lt]
  exact lt_or_gt_of_ne (fun heq => h (UInt64.toNat_inj.mp heq))

/-- The stream between two servers, which the one with the larger id opens. -/
def opened (m : Mesh) (id peer : NodeId) : List Nat :=
  if peer < id then (m.connectors id peer).opened else (m.connectors peer id).opened

theorem opened_comm (h : id ≠ peer) : opened m id peer = opened m peer id := by
  obtain hlt | hlt := lt_or_lt_of_ne h
  · rw [opened, opened, if_neg (UInt64.lt_asymm hlt), if_pos hlt]
  · rw [opened, opened, if_neg (UInt64.lt_asymm hlt), if_pos hlt]

theorem length_opened_le (m : Mesh) (id peer : NodeId) : (opened m id peer).length ≤ 1 := by
  have hopened : ∀ connector : Connector, connector.opened.length ≤ 1 := by
    intro connector
    cases connector <;> simp [Connector.opened]
  rw [opened]
  split <;> exact hopened _

theorem Meshed.streamsOf_le (h : Meshed config m) (hne : id ≠ peer) :
    streamsOf (m.actors id) peer ≤ (opened m id peer : List Nat) := by
  obtain hlt | hlt := lt_or_lt_of_ne hne
  · have harrived : handshakesOf (m.arrived id) peer + streamsOf (m.actors id) peer +
        handshakesOf (m.dropped id) peer = (m.connectors peer id).greeting :=
      (h.wired peer id hlt).arrived
    have hle : streamsOf (m.actors id) peer ≤ ((m.connectors peer id).greeting : Multiset Nat) := by
      rw [← harrived]
      exact (Multiset.le_add_left _ _).trans (Multiset.le_add_right _ _)
    refine hle.trans ?_
    rw [opened, if_neg (UInt64.lt_asymm hlt)]
    cases m.connectors peer id <;> simp [Connector.greeting, Connector.opened]
  · have hown : streamsOf (m.actors id) peer = (m.connectors id peer).own :=
      (h.wired id peer hlt).own
    rw [hown, opened, if_pos hlt]
    cases m.connectors id peer <;> simp [Connector.own, Connector.opened]

theorem Meshed.mem_opened (h : Meshed config m) (hne : id ≠ peer) {stream : Nat}
    (hmem : stream ∈ streamsOf (m.actors id) peer) : opened m id peer = [stream] := by
  have hopened : stream ∈ opened m id peer :=
    Multiset.mem_coe.mp (Multiset.mem_of_le (h.streamsOf_le hne) hmem)
  obtain ⟨first, hfirst⟩ : ∃ first, opened m id peer = [first] :=
    List.length_eq_one_iff.mp (le_antisymm (length_opened_le m id peer)
      (List.length_pos_of_mem hopened))
  rw [hfirst] at hopened ⊢
  rw [List.mem_singleton.mp hopened]

theorem Meshed.eq_singleton (h : Meshed config m) (hne : id ≠ peer) {stream : Nat}
    (hmem : stream ∈ streamsOf (m.actors id) peer) : streamsOf (m.actors id) peer = {stream} := by
  have hle := h.streamsOf_le hne
  rw [h.mem_opened hne hmem, Multiset.coe_singleton] at hle
  exact le_antisymm hle (Multiset.singleton_le.mpr hmem)

/-- Two pairs of servers have different streams between them. -/
theorem Meshed.same_pair (h : Meshed config m) {id' peer' : NodeId} {stream : Nat}
    (hopened : opened m id peer = [stream]) (hopened' : opened m id' peer' = [stream]) :
    id' = id ∧ peer' = peer ∨ id' = peer ∧ peer' = id := by
  have hmem : ∀ {id peer : NodeId}, opened m id peer = [stream] →
      stream ∈ (m.connectors id peer).opened ∨ stream ∈ (m.connectors peer id).opened := by
    intro id peer heq
    rw [opened] at heq
    split at heq
    · exact .inl (by simp [heq])
    · exact .inr (by simp [heq])
  obtain hown | hown := hmem hopened <;> obtain hown' | hown' := hmem hopened'
  · exact .inl (h.unique _ _ _ _ stream hown hown')
  · exact .inr (h.unique _ _ _ _ stream hown hown').symm
  · exact .inr (h.unique _ _ _ _ stream hown hown')
  · exact .inl (h.unique _ _ _ _ stream hown hown').symm

end Opened

end OmniPaxosJepsen.MeshLinks
