import OmniPaxosJepsen.MeshLinks

namespace OmniPaxosJepsen.MeshReady

open Common Connections ConnectionLoop MeshLinks PeerConnectors Runs
open Startup (Config mem_getPeers nodup_one_two)

variable {config : Config} {m : Mesh} {id peer : NodeId}

theorem run_meshed {events : List PeerConnectors.Event}
    (hrun : run (PeerConnectors.step config) (start config) events = some m) : Meshed config m :=
  run_invariant (Meshed config) (fun _ _ _ _ h hstep => step_meshed h hstep)
    (meshed_start config) hrun

def twoServers : Config :=
  { nodes := [1, 2], nodup := nodup_one_two, initialLeader := 1,
    numClients := fun _ => 1, intervals := fun _ => [] }

def connecting : List PeerConnectors.Event :=
  [.client 2, .connect 2 1, .handshake 2 0, .greet 2 1 true, .recv 2 (.toClient ⟨1⟩)]

def connected : List PeerConnectors.Event :=
  connecting ++ [.handshake 1 0, .client 1, .recv 1 (.toPeer ⟨2⟩), .register 2 1,
    .recv 2 (.toPeer ⟨1⟩), .handshake 1 0, .recv 1 (.toClient ⟨1⟩)]

/-- A server makes at most one connection to a peer. When the loops of both have returned they
hold the two ends of one stream, which no other servers have. -/
theorem mesh_streams (id peer : NodeId) {events : List PeerConnectors.Event}
    (hrun : run (PeerConnectors.step config) (start config) events = some m)
    (hid : id ∈ config.nodes) (hpeer : peer ∈ config.getPeers id) :
    (streamsOf (m.actors id) peer).card ≤ 1 ∧
      ((m.setups id).returned = true → (m.setups peer).returned = true →
        (m.setups id).network.Connected peer ∧ ∃ stream,
          streamsOf (m.actors id) peer = {stream} ∧ streamsOf (m.actors peer) id = {stream} ∧
          ∀ id' ∈ config.nodes, ∀ peer' ∈ config.getPeers id',
            stream ∈ streamsOf (m.actors id') peer' →
              id' = id ∧ peer' = peer ∨ id' = peer ∧ peer' = id) := by
  have h := run_meshed hrun
  obtain ⟨hmem, hne⟩ := mem_getPeers.mp hpeer
  constructor
  · have hle := Multiset.card_le_card (h.streamsOf_le hne.symm)
    rw [Multiset.coe_card] at hle
    exact hle.trans (length_opened_le m id peer)
  · intro hreturned hreturned'
    have hall := (Bool.and_eq_true_iff.mp ((h.sound id).inv.2 hreturned)).2
    refine ⟨(h.sound id).inv.1.connected hall ((h.sound id).peers ▸ hpeer), ?_⟩
    obtain ⟨stream, hstream⟩ := Multiset.exists_mem_of_ne_zero
      ((h.has id peer).mp ((h.sound id).has hreturned hpeer))
    obtain ⟨stream', hstream'⟩ := Multiset.exists_mem_of_ne_zero
      ((h.has peer id).mp ((h.sound peer).has hreturned' (mem_getPeers.mpr ⟨hid, hne.symm⟩)))
    have hopened := h.mem_opened hne.symm hstream
    have hopened' := h.mem_opened hne hstream'
    rw [opened_comm hne, hopened, List.cons.injEq] at hopened'
    obtain ⟨rfl, _⟩ := hopened'
    refine ⟨stream, h.eq_singleton hne.symm hstream, h.eq_singleton hne hstream',
      fun id' _ peer' hpeer' hother => ?_⟩
    exact h.same_pair hopened (h.mem_opened (mem_getPeers.mp hpeer').2.symm hother)

theorem mesh_streams_connected : ∃ m,
    run (PeerConnectors.step twoServers) (start twoServers) connected = some m ∧
      (m.setups 2).network.Connected 1 ∧ ∃ stream,
        streamsOf (m.actors 2) 1 = {stream} ∧ streamsOf (m.actors 1) 2 = {stream} := by
  have hrun : (run (PeerConnectors.step twoServers) (start twoServers) connected).any (fun m =>
      (m.setups 1).returned = true ∧ (m.setups 2).returned = true) = true := by
    decide +kernel
  obtain ⟨m, hm, hprop⟩ := (Option.any_eq_true _ _).mp hrun
  obtain ⟨hreturned, hreturned'⟩ := of_decide_eq_true hprop
  obtain ⟨_, hstreams⟩ := mesh_streams 2 1 hm (by decide) (by decide)
  obtain ⟨hconnected, stream, hown, hpeer, _⟩ := hstreams hreturned' hreturned
  exact ⟨m, hm, hconnected, stream, hown, hpeer⟩

theorem Meshed.arrived_running (h : Meshed config m) {stream : Nat}
    (harrived : (stream, .nodeRegister peer) ∈ m.arrived id) : (m.setups id).returned = false := by
  obtain ⟨i, hi⟩ := List.getElem?_of_mem harrived
  obtain ⟨hmem, hid, hlt⟩ := h.arrived_begun hi
  have hwired : handshakesOf (m.arrived id) peer + streamsOf (m.actors id) peer +
      handshakesOf (m.dropped id) peer = (m.connectors peer id).greeting :=
    (h.wired peer id hlt).arrived
  have hone : ((m.connectors peer id).greeting : Multiset Nat).card ≤ 1 := by
    cases m.connectors peer id <;> simp [Connector.greeting]
  by_contra hreturned
  have hactor := (h.has id peer).mp ((h.sound id).has (by simpa using hreturned)
    (mem_getPeers.mpr ⟨hmem, (mem_getPeers.mp hid).2.symm⟩))
  rw [← hwired, handshakesOf_eraseIdx hi, if_pos rfl, Multiset.card_add, Multiset.card_add,
    Multiset.card_add, Multiset.card_singleton] at hone
  have hpos := Multiset.card_pos.mpr hactor
  omega

theorem Meshed.peer_running (h : Meshed config m) (hid : id ∈ config.nodes)
    (hpeer : peer ∈ config.getPeers id) (hlt : peer < id)
    (hconnecting : m.connectors id peer = .connecting) : (m.setups peer).returned = false := by
  have hwired : handshakesOf (m.arrived peer) id + streamsOf (m.actors peer) id +
      handshakesOf (m.dropped peer) id = (m.connectors id peer).greeting :=
    (h.wired id peer hlt).arrived
  rw [hconnecting] at hwired
  by_contra hreturned
  refine (h.has peer id).mp ((h.sound peer).has (by simpa using hreturned)
    (mem_getPeers.mpr ⟨hid, (mem_getPeers.mp hpeer).2.symm⟩)) ?_
  exact (add_eq_zero.mp (add_eq_zero.mp hwired).1).2

/-- No task panics because the loop is gone, but those of clients that come late, and the loop
does not panic on a connection. -/
theorem mesh_no_panic (id peer : NodeId) {events : List PeerConnectors.Event}
    (hrun : run (PeerConnectors.step config) (start config) events = some m) :
    (∀ stream, m.connectors id peer = .greeted stream → (m.setups id).returned = false) ∧
      (∀ stream, (stream, .nodeRegister peer) ∈ m.arrived id →
        (m.setups id).returned = false) ∧
      ∀ connection ∈ (m.setups id).waiting, ((m.setups id).network.add connection).isSome := by
  have h := run_meshed hrun
  exact ⟨fun _ hgreeted => h.greeted hgreeted, fun _ harrived => Meshed.arrived_running h harrived,
    fun _ hmem => (h.sound id).add_isSome hmem⟩

theorem mesh_no_panic_connecting : ∃ m,
    run (PeerConnectors.step twoServers) (start twoServers) connecting = some m ∧
      m.connectors 2 1 = .greeted 1 ∧ (m.setups 2).returned = false ∧
      m.arrived 1 = [(1, .nodeRegister 2)] ∧ (m.setups 1).returned = false := by
  have hrun : (run (PeerConnectors.step twoServers) (start twoServers) connecting).any (fun m =>
      m.connectors 2 1 = .greeted 1 ∧ m.arrived 1 = [(1, .nodeRegister 2)]) = true := by
    decide +kernel
  obtain ⟨m, hm, hprop⟩ := (Option.any_eq_true _ _).mp hrun
  obtain ⟨hgreeted, harrived⟩ := of_decide_eq_true hprop
  obtain ⟨hrunning, _⟩ := mesh_no_panic 2 1 hm
  obtain ⟨_, hrunning', _⟩ := mesh_no_panic 1 2 hm
  exact ⟨m, hm, hgreeted, hrunning 1 hgreeted, harrived, hrunning' 1 (by simp [harrived])⟩

def advances : PeerConnectors.Event → Bool
  | .connect _ _ | .register _ _ | .handshake _ _ | .recv _ _ => true
  | .greet _ _ sent => sent
  | .client _ | .drop _ _ => false

/-- Some task or loop can go on. -/
def CanAdvance (config : Config) (m : Mesh) : Prop :=
  ∃ event t, advances event = true ∧ PeerConnectors.step config m event = some t

theorem step_eq_none (hstuck : ¬ CanAdvance config m) (event : PeerConnectors.Event)
    (hadvances : advances event = true) : PeerConnectors.step config m event = none :=
  Option.eq_none_iff_forall_ne_some.mpr (fun t hstep => hstuck ⟨event, t, hadvances, hstep⟩)

/-- A task goes on until it is finished. -/
theorem Meshed.task_advances (h : Meshed config m) (hid : id ∈ config.nodes)
    (hpeer : peer ∈ config.getPeers id) (hlt : peer < id)
    (hstuck : ¬ CanAdvance config m) (hfailed : m.connectors id peer ≠ .failed) :
    ∃ stream, m.connectors id peer = .finished stream := by
  cases hconnector : m.connectors id peer with
  | connecting =>
    have hconnect := step_eq_none hstuck (.connect id peer) rfl
    simp [PeerConnectors.step, hid, hpeer, hlt, hconnector,
      Meshed.peer_running h hid hpeer hlt hconnector] at hconnect
  | connected stream =>
    have hgreet := step_eq_none hstuck (.greet id peer true) rfl
    simp [PeerConnectors.step, hconnector] at hgreet
  | greeted stream =>
    have hregister := step_eq_none hstuck (.register id peer) rfl
    simp only [PeerConnectors.step, hconnector] at hregister
    split at hregister <;> cases hregister
  | finished stream => exact ⟨stream, rfl⟩
  | failed => exact absurd hconnector hfailed

theorem arrived_eq_nil (hstuck : ¬ CanAdvance config m) : m.arrived id = [] := by
  by_contra hne
  obtain ⟨⟨stream, registration⟩, hmem⟩ := List.exists_mem_of_ne_nil _ hne
  obtain ⟨i, hi⟩ := List.getElem?_of_mem hmem
  have hhandshake := step_eq_none hstuck (.handshake id i) rfl
  simp only [PeerConnectors.step, hi, Option.bind_eq_bind, Option.bind_some] at hhandshake
  split at hhandshake
  · cases registration <;> cases hhandshake
  · cases hhandshake

theorem Meshed.waiting_eq_nil (h : Meshed config m) (hstuck : ¬ CanAdvance config m)
    (hrunning : (m.setups id).returned = false) : (m.setups id).waiting = [] := by
  by_contra hne
  obtain ⟨connection, hmem⟩ := List.exists_mem_of_ne_nil _ hne
  obtain ⟨network, hadd⟩ := Option.isSome_iff_exists.mp ((h.sound id).add_isSome hmem)
  have hrecv := step_eq_none hstuck (.recv id connection) rfl
  simp [PeerConnectors.step, Connections.step, hrunning, hmem, hadd] at hrecv

/-- No deadlock: unless a handshake was lost, some task or loop can go on as long as a server
with all its clients waits for its peers. -/
theorem mesh_progress {events : List PeerConnectors.Event}
    (hrun : run (PeerConnectors.step config) (start config) events = some m)
    (hfailed : ∀ id ∈ config.nodes, ∀ peer ∈ config.nodes, m.connectors id peer ≠ .failed)
    (hdropped : ∀ id ∈ config.nodes, ∀ peer ∈ config.nodes,
      handshakesOf (m.dropped id) peer = 0) (hid : id ∈ config.nodes)
    (hclients : config.numClients id ≤ (m.setups id).network.clientConnections.keys.length)
    (halone : config.getPeers id ≠ [] ∨ 0 < config.numClients id)
    (hrunning : (m.setups id).returned = false) : CanAdvance config m := by
  have h := run_meshed hrun
  by_contra hstuck
  refine absurd ((h.sound id).returned (fun peer hpeer => ?_) hclients halone)
    (by simp [hrunning])
  have hactor : streamsOf (m.actors id) peer ≠ 0 := by
    obtain ⟨hmem, hne⟩ := mem_getPeers.mp hpeer
    have hid' : id ∈ config.getPeers peer := mem_getPeers.mpr ⟨hid, hne.symm⟩
    obtain hlt | hlt := lt_or_lt_of_ne hne
    · obtain ⟨stream, hfinished⟩ :=
        Meshed.task_advances h hid hpeer hlt hstuck (hfailed id hid peer hmem)
      have hown : streamsOf (m.actors id) peer = (m.connectors id peer).own :=
        (h.wired id peer hlt).own
      rw [hown, hfinished]
      exact Multiset.singleton_ne_zero stream
    · obtain ⟨stream, hfinished⟩ :=
        Meshed.task_advances h hmem hid' hlt hstuck (hfailed peer hmem id hid)
      have hwired : handshakesOf (m.arrived id) peer + streamsOf (m.actors id) peer +
          handshakesOf (m.dropped id) peer = (m.connectors peer id).greeting :=
        (h.wired peer id hlt).arrived
      rw [arrived_eq_nil hstuck, hdropped id hid peer hmem, hfinished, add_zero] at hwired
      intro hnone
      rw [hnone, add_zero] at hwired
      exact Multiset.singleton_ne_zero stream hwired.symm
  obtain hwaiting | hconnected := (h.has id peer).mpr hactor
  · rw [Meshed.waiting_eq_nil h hstuck hrunning] at hwaiting
    cases hwaiting
  · exact hconnected

theorem mesh_progress_connecting : ∃ m,
    run (PeerConnectors.step twoServers) (start twoServers) connecting = some m ∧
      (m.setups 2).returned = false ∧ CanAdvance twoServers m := by
  have hrun : (run (PeerConnectors.step twoServers) (start twoServers) connecting).any (fun m =>
      twoServers.nodes.all (fun id => twoServers.nodes.all (fun peer =>
          m.connectors id peer ≠ .failed ∧ handshakesOf (m.dropped id) peer = 0)) ∧
        (m.setups 2).network.clientConnections.keys.length = 1 ∧
        (m.setups 2).returned = false) = true := by
    decide +kernel
  obtain ⟨m, hm, hprop⟩ := (Option.any_eq_true _ _).mp hrun
  obtain ⟨hnone, hclients, hrunning⟩ := of_decide_eq_true hprop
  have hlost : ∀ id ∈ twoServers.nodes, ∀ peer ∈ twoServers.nodes,
      m.connectors id peer ≠ .failed ∧ handshakesOf (m.dropped id) peer = 0 :=
    fun id hid peer hpeer =>
      of_decide_eq_true (List.all_eq_true.mp (List.all_eq_true.mp hnone id hid) peer hpeer)
  exact ⟨m, hm, hrunning, mesh_progress hm
    (fun id hid peer hpeer => (hlost id hid peer hpeer).1)
    (fun id hid peer hpeer => (hlost id hid peer hpeer).2) (by decide) hclients.ge
    (.inr Nat.one_pos) hrunning⟩

end OmniPaxosJepsen.MeshReady
