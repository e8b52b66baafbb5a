import Mathlib.Order.Interval.Finset.Nat
import OmniPaxosJepsen.Runs
import OmniPaxosJepsen.Server

namespace OmniPaxosJepsen.Connections

open Common Server Runs

inductive RegistrationMessage where
  | nodeRegister (nodeId : NodeId)
  | clientRegister
  deriving DecidableEq

structure PeerConnection where
  peerId : NodeId
  deriving DecidableEq

structure ClientConnection where
  clientId : ClientId
  deriving DecidableEq

inductive NewConnection where
  | toPeer (connection : PeerConnection)
  | toClient (connection : ClientConnection)
  deriving DecidableEq

structure Network where
  peers : List NodeId
  peerConnections : List (Option PeerConnection)
  clientConnections : AList (fun _ : ClientId => ClientConnection)
  maxClientId : ClientId

namespace Network

def new (peers : List NodeId) : Network :=
  { peers := peers
    peerConnections := List.replicate peers.length none
    clientConnections := ∅
    maxClientId := 0 }

def clusterIdToIdx (self : Network) (id : NodeId) : Option Nat :=
  self.peers.findIdx? (fun p => p = id)

def handleIncomingConnection (self : Network) : RegistrationMessage → Network × NewConnection
  | .nodeRegister nodeId => (self, .toPeer ⟨nodeId⟩)
  | .clientRegister =>
    let nextClientId := self.maxClientId + 1
    ({ self with maxClientId := nextClientId }, .toClient ⟨nextClientId⟩)

/-- What the loop does with a connection; it panics for a peer that is not configured. -/
def add (self : Network) : NewConnection → Option Network
  | .toPeer connection => do
    let peerIdx ← self.clusterIdToIdx connection.peerId
    return { self with peerConnections := self.peerConnections.set peerIdx (some connection) }
  | .toClient connection =>
    some { self with
      clientConnections := self.clientConnections.insert connection.clientId connection }

def allConnected (self : Network) (numClients : Nat) : Bool :=
  numClients ≤ self.clientConnections.keys.length && self.peerConnections.all Option.isSome

end Network

/-- `initialize_connections` while it runs, with the connections that wait to be sent
through the channel, and whether it has returned. -/
structure Setup where
  network : Network
  waiting : List NewConnection
  returned : Bool

def Setup.start (peers : List NodeId) : Setup := ⟨Network.new peers, [], false⟩

inductive Event where
  | handshake (registration : RegistrationMessage)
  | connector (peer : NodeId)
  | recv (connection : NewConnection)

def step (id : NodeId) (numClients : Nat) (s : Setup) (event : Event) : Option Setup :=
  if s.returned then none
  else
    match event with
    | .handshake registration =>
      let (network, connection) := s.network.handleIncomingConnection registration
      some { s with network := network, waiting := s.waiting ++ [connection] }
    | .connector peer =>
      if peer ∈ s.network.peers ∧ peer < id then
        some { s with waiting := s.waiting ++ [.toPeer ⟨peer⟩] }
      else none
    | .recv connection =>
      if connection ∈ s.waiting then
        (s.network.add connection).map (fun network =>
          { network := network
            waiting := s.waiting.erase connection
            returned := network.allConnected numClients })
      else none

def Network.Connected (self : Network) (peer : NodeId) : Prop :=
  ∃ (idx : Nat) (connection : PeerConnection), self.clusterIdToIdx peer = some idx ∧
    self.peerConnections[idx]? = some (some connection) ∧ connection.peerId = peer

structure Placed (network : Network) : Prop where
  length : network.peerConnections.length = network.peers.length
  peer : ∀ (idx : Nat) (connection : PeerConnection),
    network.peerConnections[idx]? = some (some connection) →
    network.peers[idx]? = some connection.peerId

theorem placed_new (peers : List NodeId) : Placed (Network.new peers) := by
  refine ⟨List.length_replicate, fun idx connection hconn => ?_⟩
  simp [Network.new, List.getElem?_replicate] at hconn

theorem clusterIdToIdx_eq_some {network : Network} {id : NodeId} {idx : Nat}
    (h : network.clusterIdToIdx id = some idx) : network.peers[idx]? = some id := by
  obtain ⟨hlt, hid, _⟩ := List.findIdx?_eq_some_iff_getElem.mp h
  rw [List.getElem?_eq_getElem hlt, of_decide_eq_true hid]

theorem add_toPeer_eq_some {network network' : Network} {connection : PeerConnection}
    (h : network.add (.toPeer connection) = some network') :
    ∃ peerIdx, network.clusterIdToIdx connection.peerId = some peerIdx ∧
      network' = { network with
        peerConnections := network.peerConnections.set peerIdx (some connection) } := by
  obtain ⟨peerIdx, hidx, heq⟩ := Option.bind_eq_some_iff.mp h
  cases heq
  exact ⟨peerIdx, hidx, rfl⟩

theorem Placed.add {network network' : Network} (h : Placed network) {connection : NewConnection}
    (hadd : network.add connection = some network') : Placed network' := by
  cases connection with
  | toClient connection =>
    cases hadd
    exact ⟨h.length, h.peer⟩
  | toPeer connection =>
    obtain ⟨peerIdx, hidx, rfl⟩ := add_toPeer_eq_some hadd
    refine ⟨by simp [h.length], fun idx held hheld => ?_⟩
    by_cases hi : peerIdx = idx
    · subst hi
      rw [List.getElem?_set_self', Option.map_eq_map, Option.map_eq_some_iff] at hheld
      obtain ⟨_, _, heq⟩ := hheld
      cases heq
      exact clusterIdToIdx_eq_some hidx
    · rw [List.getElem?_set_ne hi] at hheld
      exact h.peer idx held hheld

theorem Placed.connected {network : Network} (h : Placed network)
    (hall : network.peerConnections.all Option.isSome = true) {peer : NodeId}
    (hpeer : peer ∈ network.peers) : network.Connected peer := by
  obtain ⟨idx, hidx⟩ : ∃ idx, network.clusterIdToIdx peer = some idx := by
    rw [← Option.isSome_iff_exists, Network.clusterIdToIdx, List.findIdx?_isSome]
    exact List.any_eq_true.mpr ⟨peer, hpeer, by simp⟩
  have hpeers := clusterIdToIdx_eq_some hidx
  have hlt : idx < network.peerConnections.length := by
    rw [h.length]
    exact (List.getElem?_eq_some_iff.mp hpeers).1
  obtain ⟨connection, hconn⟩ := Option.isSome_iff_exists.mp
    (List.all_eq_true.mp hall _ (List.getElem_mem hlt))
  have hheld : network.peerConnections[idx]? = some (some connection) := by
    rw [List.getElem?_eq_getElem hlt, hconn]
  have hid := h.peer idx connection hheld
  rw [hpeers] at hid
  exact ⟨idx, connection, hidx, hheld, (Option.some.inj hid).symm⟩

theorem step_cases {id : NodeId} {numClients : Nat} {s t : Setup} {event : Event}
    (h : step id numClients s event = some t) :
    ((∀ connection, event ≠ .recv connection) ∧ t.returned = false ∧
      ∃ maxClientId, t.network = { s.network with maxClientId := maxClientId }) ∨
    ∃ connection, event = .recv connection ∧ s.network.add connection = some t.network ∧
      t.returned = t.network.allConnected numClients := by
  unfold step at h
  split at h
  · cases h
  · next hrunning =>
    have hreturned : s.returned = false := by simpa using hrunning
    cases event with
    | handshake registration =>
      cases h
      cases registration with
      | nodeRegister nodeId => exact .inl ⟨fun _ => nofun, hreturned, _, rfl⟩
      | clientRegister => exact .inl ⟨fun _ => nofun, hreturned, _, rfl⟩
    | connector peer =>
      obtain ⟨_, heq⟩ := Option.ite_none_right_eq_some.mp h
      cases heq
      exact .inl ⟨fun _ => nofun, hreturned, _, rfl⟩
    | recv connection =>
      obtain ⟨_, hadd⟩ := Option.ite_none_right_eq_some.mp h
      obtain ⟨network, hnetwork, rfl⟩ := Option.map_eq_some_iff.mp hadd
      exact .inr ⟨connection, rfl, hnetwork, rfl⟩

def Inv (numClients : Nat) (s : Setup) : Prop :=
  Placed s.network ∧ (s.returned = true → s.network.allConnected numClients = true)

theorem inv_start (peers : List NodeId) (numClients : Nat) : Inv numClients (Setup.start peers) :=
  ⟨placed_new peers, fun hreturned => absurd hreturned Bool.false_ne_true⟩

theorem inv_step {id : NodeId} {numClients : Nat} {s t : Setup} {event : Event}
    (hinv : Inv numClients s) (h : step id numClients s event = some t) : Inv numClients t := by
  obtain ⟨hplaced, _⟩ := hinv
  obtain ⟨_, hreturned, maxClientId, hnetwork⟩ | ⟨connection, _, hadd, hreturned⟩ := step_cases h
  · refine ⟨?_, fun htrue => ?_⟩
    · rw [hnetwork]
      exact ⟨hplaced.length, hplaced.peer⟩
    · rw [hreturned] at htrue
      cases htrue
  · exact ⟨hplaced.add hadd, fun htrue => hreturned ▸ htrue⟩

theorem mem_clientConnections_step {id : NodeId} {numClients : Nat} {s t : Setup} {event : Event}
    (h : step id numClients s event = some t) (clientId : ClientId) :
    clientId ∈ t.network.clientConnections ↔
      clientId ∈ s.network.clientConnections ∨ event = .recv (.toClient ⟨clientId⟩) := by
  obtain ⟨hother, _, _, hnetwork⟩ | ⟨connection, rfl, hadd, _⟩ := step_cases h
  · simp [hnetwork, hother]
  · cases connection with
    | toClient connection =>
      have hnetwork := Option.some.inj hadd
      obtain ⟨held⟩ := connection
      simp [← hnetwork, AList.mem_insert, or_comm, eq_comm]
    | toPeer connection =>
      obtain ⟨peerIdx, _, hnetwork⟩ := add_toPeer_eq_some hadd
      simp [hnetwork]

theorem mem_clientConnections_run {id : NodeId} {numClients : Nat} {s t : Setup}
    {events : List Event} (h : run (step id numClients) s events = some t) (clientId : ClientId) :
    clientId ∈ t.network.clientConnections ↔
      clientId ∈ s.network.clientConnections ∨ .recv (.toClient ⟨clientId⟩) ∈ events := by
  induction events generalizing s with
  | nil =>
    cases h
    simp
  | cons event events ih =>
    obtain ⟨u, hstep, hrun⟩ := run_cons_eq_some.mp h
    rw [ih hrun, mem_clientConnections_step hstep, List.mem_cons, or_assoc, eq_comm (a := event)]

theorem clientConnections_start {id : NodeId} {numClients : Nat} {peers : List NodeId} {s : Setup}
    {events : List Event} (h : run (step id numClients) (Setup.start peers) events = some s)
    (clientId : ClientId) : clientId ∈ s.network.clientConnections ↔
      .recv (.toClient ⟨clientId⟩) ∈ events := by
  rw [mem_clientConnections_run h]
  exact or_iff_right (AList.notMem_empty clientId)

/-- As many different numbers from `1` to `n` as there are: all of them. -/
theorem mem_of_length {ids : List ClientId} {n : Nat} (hnodup : ids.Nodup)
    (hrange : ∀ id ∈ ids, 1 ≤ id.toNat ∧ id.toNat ≤ n) (hlen : n ≤ ids.length) {id : ClientId}
    (hid : 1 ≤ id.toNat ∧ id.toNat ≤ n) : id ∈ ids := by
  have hinj : Function.Injective UInt64.toNat := fun _ _ h => UInt64.toNat_inj.mp h
  have hcard : (ids.map UInt64.toNat).toFinset.card = ids.length := by
    rw [List.toFinset_card_of_nodup (hnodup.map hinj), List.length_map]
  have hsub : (ids.map UInt64.toNat).toFinset ⊆ Finset.Icc 1 n := by
    intro m hm
    obtain ⟨id, hmem, rfl⟩ := List.mem_map.mp (List.mem_toFinset.mp hm)
    exact Finset.mem_Icc.mpr (hrange id hmem)
  have hall : (ids.map UInt64.toNat).toFinset = Finset.Icc 1 n := by
    apply Finset.eq_of_subset_of_card_le hsub
    rw [hcard, Nat.card_Icc]
    exact hlen
  have hmem : id.toNat ∈ (ids.map UInt64.toNat).toFinset := hall ▸ Finset.mem_Icc.mpr hid
  obtain ⟨id', hid', heq⟩ := List.mem_map.mp (List.mem_toFinset.mp hmem)
  rwa [hinj heq] at hid'

theorem mem_clientStartSignals {server : OmniPaxosServer} {startTime : Timestamp}
    {clientId : ClientId} (h : 1 ≤ clientId.toNat ∧ clientId.toNat ≤ server.numClients) :
    (clientId, .startSignal startTime) ∈ server.clientStartSignals startTime := by
  refine List.mem_map.mpr ⟨clientId.toNat - 1, List.mem_range.mpr (by omega), ?_⟩
  rw [Nat.sub_add_cancel h.1, UInt64.ofNat_toNat]

/-- What `initialize_connections` is there for: all peers are connected, the clients are
numbered from `1` to `num_clients`, and each of them gets the start signal. -/
structure AllStarted (id : NodeId) (numClients : Nat) (network : Network) : Prop where
  peers : ∀ peer ∈ network.peers, network.Connected peer
  clients : ∀ clientId : ClientId, clientId ∈ network.clientConnections ↔
    1 ≤ clientId.toNat ∧ clientId.toNat ≤ numClients
  signals : ∀ clientId ∈ network.clientConnections, ∀ startTime,
    (clientId, .startSignal startTime) ∈
      (OmniPaxosServer.new id numClients).clientStartSignals startTime

/-- When it returns all is as it should be exactly when no client connection that it took
has a number above `num_clients`. -/
theorem allStarted_iff {id : NodeId} {numClients : Nat} {peers : List NodeId}
    {events : List Event} {s : Setup}
    (hrun : run (step id numClients) (Setup.start peers) events = some s)
    (hreturned : s.returned = true) :
    AllStarted id numClients s.network ↔
      ∀ clientId, .recv (.toClient ⟨clientId⟩) ∈ events →
        1 ≤ clientId.toNat ∧ clientId.toNat ≤ numClients := by
  obtain ⟨hplaced, hall⟩ : Inv numClients s := run_invariant (Inv numClients)
    (fun _ _ _ _ hinv h => inv_step hinv h) (inv_start peers numClients) hrun
  obtain ⟨hlen, hpeers⟩ := Bool.and_eq_true_iff.mp (hall hreturned)
  constructor
  · intro hstarted clientId hrecv
    exact (hstarted.clients clientId).mp ((clientConnections_start hrun clientId).mpr hrecv)
  · intro hrange
    have hclients : ∀ clientId ∈ s.network.clientConnections,
        1 ≤ clientId.toNat ∧ clientId.toNat ≤ numClients :=
      fun clientId hmem => hrange clientId ((clientConnections_start hrun clientId).mp hmem)
    refine ⟨fun peer => hplaced.connected hpeers, fun clientId => ⟨hclients clientId, ?_⟩,
      fun clientId hmem startTime => mem_clientStartSignals (hclients clientId hmem)⟩
    exact mem_of_length s.network.clientConnections.keys_nodup hclients (of_decide_eq_true hlen)

def inTurn : List Event :=
  [.handshake .clientRegister, .handshake .clientRegister, .recv (.toClient ⟨2⟩),
    .connector 1, .recv (.toPeer ⟨1⟩), .recv (.toClient ⟨1⟩)]

theorem allStarted_iff_inTurn : ∃ s, run (step 2 2) (Setup.start [1]) inTurn = some s ∧
    s.returned = true ∧ AllStarted 2 2 s.network := by
  have hreturned : (run (step 2 2) (Setup.start [1]) inTurn).map Setup.returned = some true := by
    decide +kernel
  obtain ⟨s, hrun, hs⟩ := Option.map_eq_some_iff.mp hreturned
  refine ⟨s, hrun, hs, (allStarted_iff hrun hs).mpr (fun clientId hmem => ?_)⟩
  simp only [inTurn, List.mem_cons, Event.recv.injEq, NewConnection.toClient.injEq,
    ClientConnection.mk.injEq, reduceCtorEq, false_or, or_false, List.not_mem_nil] at hmem
  obtain rfl | rfl := hmem <;> decide

/-- A server with a peer is to have one client. Two register, the second is taken first, and the
loop returns without the first. -/
def secondFirst : List Event :=
  [.handshake .clientRegister, .handshake .clientRegister, .connector 1, .recv (.toPeer ⟨1⟩),
    .recv (.toClient ⟨2⟩)]

theorem second_client_not_started :
    ¬ ∀ (id : NodeId) (numClients : Nat) (peers : List NodeId) (events : List Event) (s : Setup),
      run (step id numClients) (Setup.start peers) events = some s → s.returned = true →
      AllStarted id numClients s.network := by
  intro h
  have hmap : (run (step 2 1) (Setup.start [1]) secondFirst).map
      (fun s => (s.returned, s.network.clientConnections.keys)) = some (true, [2]) := by
    decide +kernel
  obtain ⟨s, hrun, hs⟩ := Option.map_eq_some_iff.mp hmap
  obtain ⟨hreturned, hkeys⟩ := Prod.mk.inj hs
  have hmem : (2 : ClientId) ∈ s.network.clientConnections := by
    rw [AList.mem_keys, hkeys]
    exact List.mem_singleton_self 2
  have hrange := ((h 2 1 [1] secondFirst s hrun hreturned).clients 2).mp hmem
  revert hrange
  decide

end OmniPaxosJepsen.Connections
