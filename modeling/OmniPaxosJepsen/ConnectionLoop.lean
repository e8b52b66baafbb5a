import OmniPaxosJepsen.Connections
import OmniPaxosJepsen.Startup

namespace OmniPaxosJepsen.ConnectionLoop

open Common Connections
open Startup (Config)

variable {id : NodeId} {numClients : Nat} {s t : Setup} {event : Connections.Event}

def Has (s : Setup) (peer : NodeId) : Prop :=
  .toPeer ⟨peer⟩ ∈ s.waiting ∨ s.network.Connected peer

def Hands (event : Connections.Event) (peer : NodeId) : Prop :=
  event = .connector peer ∨ event = .handshake (.nodeRegister peer)

theorem connected_add {network network' : Network} {connection : NewConnection}
    (hplaced : Placed network) (hadd : network.add connection = some network') (peer : NodeId) :
    network'.Connected peer ↔ network.Connected peer ∨ connection = .toPeer ⟨peer⟩ := by
  cases connection with
  | toClient connection =>
    cases hadd
    simp [Network.Connected, Network.clusterIdToIdx]
  | toPeer connection =>
    obtain ⟨peerIdx, hidx, rfl⟩ := add_toPeer_eq_some hadd
    have hpeer := clusterIdToIdx_eq_some hidx
    have hlt : peerIdx < network.peerConnections.length := by
      rw [hplaced.length]
      exact (List.getElem?_eq_some_iff.mp hpeer).1
    constructor
    · rintro ⟨idx, held, hheldIdx, hheld, rfl⟩
      by_cases hi : peerIdx = idx
      · subst hi
        rw [List.getElem?_set_self hlt, Option.some.injEq, Option.some.injEq] at hheld
        exact .inr (by rw [hheld])
      · rw [List.getElem?_set_ne hi] at hheld
        exact .inl ⟨idx, held, hheldIdx, hheld, rfl⟩
    · intro h
      by_cases hid : connection.peerId = peer
      · subst hid
        exact ⟨peerIdx, connection, hidx, by rw [List.getElem?_set_self hlt], rfl⟩
      · obtain ⟨idx, held, hheldIdx, hheld, hheldId⟩ | hnew := h
        · have hne : peerIdx ≠ idx := by
            rintro rfl
            have hother := clusterIdToIdx_eq_some hheldIdx
            rw [hpeer, Option.some.injEq] at hother
            exact hid hother
          exact ⟨idx, held, hheldIdx, by rw [List.getElem?_set_ne hne, hheld], hheldId⟩
        · cases hnew
          exact absurd rfl hid

theorem add_peers {network network' : Network} {connection : NewConnection}
    (hadd : network.add connection = some network') : network'.peers = network.peers := by
  cases connection with
  | toClient connection =>
    cases hadd
    rfl
  | toPeer connection =>
    obtain ⟨_, _, rfl⟩ := add_toPeer_eq_some hadd
    rfl

theorem step_running (h : Connections.step id numClients s event = some t) :
    s.returned = false := by
  unfold Connections.step at h
  split at h
  · cases h
  · next hrunning => simpa using hrunning

theorem step_waiting (h : Connections.step id numClients s event = some t) :
    ((∃ connection maxClientId, t = ⟨{ s.network with maxClientId := maxClientId },
        s.waiting ++ [connection], false⟩ ∧
        ∀ peer, connection = .toPeer ⟨peer⟩ ↔ Hands event peer)) ∨
      ∃ connection, connection ∈ s.waiting ∧ event = .recv connection ∧
        s.network.add connection = some t.network ∧ t.waiting = s.waiting.erase connection ∧
        t.returned = t.network.allConnected numClients := by
  have hrunning := step_running h
  simp only [Connections.step, hrunning, Bool.false_eq_true, ↓reduceIte] at h
  cases event with
  | handshake registration =>
    cases h
    cases registration with
    | nodeRegister nodeId =>
      exact .inl ⟨.toPeer ⟨nodeId⟩, s.network.maxClientId, by rw [← hrunning]; rfl,
        fun peer => by simp [Hands]⟩
    | clientRegister =>
      exact .inl ⟨.toClient ⟨s.network.maxClientId + 1⟩, _, by rw [← hrunning]; rfl,
        fun peer => by simp [Hands]⟩
  | connector peer' =>
    obtain ⟨_, heq⟩ := Option.ite_none_right_eq_some.mp h
    cases heq
    exact .inl ⟨.toPeer ⟨peer'⟩, s.network.maxClientId, by rw [← hrunning],
      fun peer => by simp [Hands]⟩
  | recv connection =>
    obtain ⟨hmem, hadd⟩ := Option.ite_none_right_eq_some.mp h
    obtain ⟨network, hnetwork, rfl⟩ := Option.map_eq_some_iff.mp hadd
    exact .inr ⟨connection, hmem, rfl, hnetwork, rfl, rfl⟩

theorem has_step (hplaced : Placed s.network)
    (h : Connections.step id numClients s event = some t) (peer : NodeId) :
    Has t peer ↔ Has s peer ∨ Hands event peer := by
  obtain ⟨connection, maxClientId, rfl, hhands⟩ | ⟨connection, hmem, rfl, hadd, hwaiting, _⟩ :=
    step_waiting h
  · rw [← hhands]
    simp only [Has, List.mem_append, List.mem_singleton, or_right_comm, eq_comm (a := connection)]
    exact Iff.rfl
  · have hnone : ¬ Hands (.recv connection) peer := by simp [Hands]
    rw [or_iff_left hnone, Has, Has, connected_add hplaced hadd, hwaiting]
    by_cases heq : connection = .toPeer ⟨peer⟩
    · subst heq
      exact iff_of_true (.inr (.inr rfl)) (.inl hmem)
    · rw [or_iff_left heq, List.mem_erase_of_ne (Ne.symm heq)]

def Settled (numClients : Nat) (s : Setup) : Prop :=
  s.returned = s.network.allConnected numClients ∨
    (∀ connection ∈ s.network.peerConnections, connection = none) ∧
      s.network.clientConnections.keys = []

/-- What the loop of a server keeps. -/
structure Sound (config : Config) (id : NodeId) (s : Setup) : Prop where
  inv : Connections.Inv (config.numClients id) s
  settled : Settled (config.numClients id) s
  peers : s.network.peers = config.getPeers id
  waiting : ∀ peer, .toPeer ⟨peer⟩ ∈ s.waiting → peer ∈ config.getPeers id

theorem sound_start (config : Config) (id : NodeId) :
    Sound config id (Setup.start (config.getPeers id)) := by
  refine ⟨inv_start _ _, .inr ⟨?_, rfl⟩, rfl, fun peer hmem => by cases hmem⟩
  exact fun connection hmem => List.eq_of_mem_replicate hmem

theorem Sound.step {config : Config} (hs : Sound config id s)
    (h : Connections.step id (config.numClients id) s event = some t)
    (hhands : ∀ peer, Hands event peer → peer ∈ config.getPeers id) : Sound config id t := by
  have hinv := inv_step hs.inv h
  have hrunning := step_running h
  obtain ⟨connection, maxClientId, rfl, hnew⟩ |
      ⟨connection, hmem, rfl, hadd, hwaiting, hreturned⟩ := step_waiting h
  · refine ⟨hinv, hs.settled.imp_left (fun hsettled => hrunning.symm.trans hsettled), hs.peers,
      fun peer hmem => ?_⟩
    · obtain hmem | hmem := List.mem_append.mp hmem
      · exact hs.waiting peer hmem
      · exact hhands peer ((hnew peer).mp (List.mem_singleton.mp hmem).symm)
  · refine ⟨hinv, .inl hreturned, (add_peers hadd).trans hs.peers, fun peer hpeer => ?_⟩
    rw [hwaiting] at hpeer
    exact hs.waiting peer (List.mem_of_mem_erase hpeer)

theorem Sound.add_isSome {config : Config} (hs : Sound config id s) {connection : NewConnection}
    (hmem : connection ∈ s.waiting) : (s.network.add connection).isSome := by
  cases connection with
  | toClient connection => rfl
  | toPeer connection =>
    obtain ⟨peerIdx, hidx⟩ : ∃ idx, s.network.clusterIdToIdx connection.peerId = some idx := by
      rw [← Option.isSome_iff_exists, Network.clusterIdToIdx, List.findIdx?_isSome, hs.peers]
      exact List.any_eq_true.mpr ⟨_, hs.waiting _ hmem, by simp⟩
    simp [Network.add, hidx]

theorem Sound.has {config : Config} (hs : Sound config id s) (hreturned : s.returned = true)
    {peer : NodeId} (hpeer : peer ∈ config.getPeers id) : Has s peer := by
  have hall := (Bool.and_eq_true_iff.mp (hs.inv.2 hreturned)).2
  exact .inr (hs.inv.1.connected hall (hs.peers ▸ hpeer))

theorem all_isSome {network : Network} (hplaced : Placed network) (hnodup : network.peers.Nodup)
    (hpeers : ∀ peer ∈ network.peers, network.Connected peer) :
    network.peerConnections.all Option.isSome = true := by
  refine List.all_eq_true.mpr (fun place hplace => ?_)
  obtain ⟨idx, hidx⟩ := List.getElem?_of_mem hplace
  have hlt : idx < network.peers.length := by
    rw [← hplaced.length]
    exact (List.getElem?_eq_some_iff.mp hidx).1
  obtain ⟨idx', connection, hheldIdx, hheld, _⟩ := hpeers _ (List.getElem_mem hlt)
  have heq : idx = idx' := (List.getElem?_inj hlt hnodup).mp
    ((List.getElem?_eq_getElem hlt).trans (clusterIdToIdx_eq_some hheldIdx).symm)
  rw [← heq, hidx, Option.some.injEq] at hheld
  rw [hheld]
  rfl

theorem Sound.returned {config : Config} (hs : Sound config id s)
    (hpeers : ∀ peer ∈ config.getPeers id, s.network.Connected peer)
    (hclients : config.numClients id ≤ s.network.clientConnections.keys.length)
    (halone : config.getPeers id ≠ [] ∨ 0 < config.numClients id) : s.returned = true := by
  obtain hreturned | ⟨hplaces, hkeys⟩ := hs.settled
  · rw [hreturned, Network.allConnected, all_isSome hs.inv.1 (hs.peers ▸ config.nodup.filter _)
      (hs.peers ▸ hpeers), decide_eq_true hclients]
    rfl
  · obtain hpeer | hclient := halone
    · obtain ⟨peer, hpeer⟩ := List.exists_mem_of_ne_nil _ hpeer
      obtain ⟨idx, connection, _, hheld, _⟩ := hpeers peer hpeer
      cases hplaces _ (List.mem_of_getElem? hheld)
    · rw [hkeys] at hclients
      exact absurd hclients (Nat.not_le.mpr hclient)

end OmniPaxosJepsen.ConnectionLoop
