import Mathlib.Algebra.Group.Nat.Defs
import OmniPaxosJepsen.SessionIds
import OmniPaxosJepsen.Startup

namespace OmniPaxosJepsen.StartSignals

open Common Server Runs Flight ServerReplication ClientLoop SessionIds Startup
open Sessions (Session Request Deployment requestOf answers within sendToClients)

def clientSignals (id : NodeId) (numClients : Nat) (startTime : Timestamp) :
    List (Session × Timestamp) :=
  (List.range numClients).map (fun n => ((id, UInt64.ofNat (n + 1)), startTime))

theorem startSignals_append (id : NodeId) (sent sent' : Sent) :
    startSignals id (sent ++ sent') = startSignals id sent ++ startSignals id sent' :=
  List.filterMap_append

theorem startSignals_clientStartSignals (server : OmniPaxosServer) (id : NodeId)
    (startTime : Timestamp) :
    startSignals id (server.clientStartSignals startTime) =
      clientSignals id server.numClients startTime := by
  rw [startSignals, OmniPaxosServer.clientStartSignals, List.filterMap_map, clientSignals,
    ← List.filterMap_eq_map]
  rfl

theorem startSignals_sendToClients (connected : Session → Bool) (id : NodeId) (sent : Sent) :
    startSignals id (sendToClients connected id sent) =
      (startSignals id sent).filter (fun m => connected m.1) := by
  rw [startSignals, startSignals, sendToClients, List.filterMap_filter, List.filter_filterMap]
  congr 1
  funext ⟨client, msg⟩
  cases msg <;> simp [Option.filter]

theorem startSignals_commands (id : NodeId) {sent : Sent}
    (h : ∀ m ∈ sent, m.2.commandId.isSome) : startSignals id sent = [] := by
  apply List.filterMap_eq_nil_iff.mpr
  intro m hm
  obtain ⟨client, msg⟩ := m
  have hcommand := h _ hm
  cases msg with
  | write commandId | read commandId value => rfl
  | startSignal startTime => cases hcommand

theorem handleDecidedEntries_quiet (id : NodeId) (log : List Command) (server : OmniPaxosServer)
    (idx : Nat) : ∃ server' sent,
      server.handleDecidedEntries (decidedView log idx) = some (server', sent) ∧
        server'.id = server.id ∧ server'.numClients = server.numClients ∧
        startSignals id sent = [] := by
  refine ⟨_, _, handleDecidedEntries_decidedView server log idx, rfl, rfl, ?_⟩
  apply startSignals_commands
  rw [← commandMessages_exec]
  intro m hm
  simpa using (List.mem_filter.mp hm).2

/-- What a batch of cluster messages does about start signals: the server passes on those
in it, each to all of its clients, and says whether there were any. -/
structure PassesOn (id : NodeId) (server server' : OmniPaxosServer) (sent : Sent)
    (received : Bool) (signals : List Signal) : Prop where
  id_eq : server'.id = server.id
  numClients : server'.numClients = server.numClients
  sent : startSignals id sent =
    signals.flatMap (fun m => clientSignals id server.numClients m.startTime)
  received : received = true ↔ signals ≠ []

theorem handleClusterMessages_passesOn (id : NodeId) (log : List Command)
    (server : OmniPaxosServer) (batch : List (NodeId × ServerReplication.Event)) :
    ∃ server' sent received,
      server.handleClusterMessages (messages log batch) = some (server', sent, received) ∧
        PassesOn id server server' sent received (signalsOf id batch) := by
  induction batch generalizing server with
  | nil => exact ⟨server, [], false, rfl, rfl, rfl, rfl, by simp [signalsOf]⟩
  | cons m batch ih =>
    obtain ⟨sender, event⟩ := m
    cases event with
    | decided idx =>
      obtain ⟨server', sent, hfirst, hid, hclients, hnone⟩ :=
        handleDecidedEntries_quiet id log server idx
      obtain ⟨server'', sent', received, hrest, hpasses⟩ := ih server'
      have hcons : messages log ((sender, .decided idx) :: batch) =
          (sender, .omniPaxosMessage (decidedView log idx)) :: messages log batch := rfl
      refine ⟨server'', sent ++ sent', received, ?_, hpasses.id_eq.trans hid,
        hpasses.numClients.trans hclients, ?_, hpasses.received⟩
      · rw [hcons, OmniPaxosServer.handleClusterMessages, hfirst]
        simp [hrest]
      · rw [startSignals_append, hnone, hpasses.sent, hclients]
        rfl
    | startSignal startTime =>
      obtain ⟨server', sent', received, hrest, hpasses⟩ := ih server
      have hcons : messages log ((sender, .startSignal startTime) :: batch) =
          (sender, .leaderStartSignal startTime) :: messages log batch := rfl
      have hsignals : signalsOf id ((sender, .startSignal startTime) :: batch) =
          ⟨sender, id, startTime⟩ :: signalsOf id batch := rfl
      refine ⟨server', server.clientStartSignals startTime ++ sent', true, ?_, hpasses.id_eq,
        hpasses.numClients, ?_, by simp [hsignals]⟩
      · rw [hcons, OmniPaxosServer.handleClusterMessages]
        simp [hrest]
      · rw [startSignals_append, startSignals_clientStartSignals, hpasses.sent, hsignals,
          List.flatMap_cons]

theorem count_clientSignals (id : NodeId) {numClients : Nat} (hclients : numClients < 2 ^ 64)
    (startTime : Timestamp) (x : Session) :
    ((clientSignals id numClients startTime).map Prod.fst).count x ≤ 1 ∧
      (x.1 ≠ id → ((clientSignals id numClients startTime).map Prod.fst).count x = 0) := by
  have hmap : (clientSignals id numClients startTime).map Prod.fst =
      (List.range numClients).map (fun n => (id, UInt64.ofNat (n + 1))) := by
    rw [clientSignals, List.map_map]
    rfl
  rw [hmap]
  constructor
  · apply List.nodup_iff_count_le_one.mp
    refine List.nodup_range.map_on (fun n hn n' hn' heq => ?_)
    have hn := List.mem_range.mp hn
    have hn' := List.mem_range.mp hn'
    have hnat := congrArg UInt64.toNat (Prod.mk.inj heq).2
    rw [UInt64.toNat_ofNat_of_lt' (show n + 1 < 2 ^ 64 by omega),
      UInt64.toNat_ofNat_of_lt' (show n' + 1 < 2 ^ 64 by omega)] at hnat
    omega
  · intro hid
    apply List.count_eq_zero.mpr
    intro hmem
    obtain ⟨n, _, rfl⟩ := List.mem_map.mp hmem
    exact hid rfl

structure Relayed (config : Config) (s : Launch) : Prop where
  ids : ∀ id, (s.deployment.servers id).id = id
  numClients : ∀ id, (s.deployment.servers id).numClients = config.numClients id
  quiet : s.started = none → s.inFlight = [] ∧ s.lost = [] ∧ s.signalled = [] ∧
    ∀ id, s.establishing id = true
  carried : ∀ m ∈ s.inFlight ++ s.lost, m.source = config.initialLeader ∧ m.target ∈ config.nodes ∧
    m.target ≠ config.initialLeader ∧ s.started = some m.startTime
  agreed : ∀ m ∈ s.signalled, s.started = some m.2
  once : ∀ x, (s.signalled.map Prod.fst).count x +
    s.inFlight.countP (fun m => m.target = x.1) ≤ 1
  told : ∀ id, s.establishing id = false → ∀ startTime,
    s.started = some startTime → ∀ m ∈ clientSignals id (config.numClients id) startTime,
      s.deployment.connected m.1 = true → m ∈ s.signalled
  pending : ∀ startTime, s.started = some startTime → ∀ id ∈ config.nodes,
    s.establishing id = true →
      (⟨config.initialLeader, id, startTime⟩ : Signal) ∈ s.inFlight ++ s.lost

theorem relayed_init (config : Config) (connected : Session → Bool) :
    Relayed config (init config connected) := by
  constructor <;> simp [init, Sessions.init, OmniPaxosServer.new]

section Relayed

variable {config : Config} {s t : Launch}

theorem Relayed.of_eq (h : Relayed config s)
    (hservers : t.deployment.servers = s.deployment.servers)
    (hconnected : ∀ x, t.deployment.connected x = true → s.deployment.connected x = true)
    (hestablishing : t.establishing = s.establishing) (hinFlight : t.inFlight = s.inFlight)
    (hstarted : t.started = s.started) (hsignalled : t.signalled = s.signalled)
    (hlost : t.lost = s.lost) : Relayed config t := by
  constructor
  · rw [hservers]
    exact h.ids
  · rw [hservers]
    exact h.numClients
  · rw [hstarted, hinFlight, hlost, hsignalled, hestablishing]
    exact h.quiet
  · rw [hstarted, hinFlight, hlost]
    exact h.carried
  · rw [hstarted, hsignalled]
    exact h.agreed
  · rw [hsignalled, hinFlight]
    exact h.once
  · rw [hestablishing, hstarted, hsignalled]
    intro id hid startTime hstart m hm hconn
    exact h.told id hid startTime hstart m hm (hconnected m.1 hconn)
  · rw [hstarted, hestablishing, hinFlight, hlost]
    exact h.pending

/-- The leader starts once: a leader that still waits has not started. -/
theorem Relayed.not_started (h : Relayed config s) (hleader : config.initialLeader ∈ config.nodes)
    (hestablishing : s.establishing config.initialLeader = true) : s.started = none := by
  cases hstarted : s.started with
  | none => rfl
  | some startTime =>
    have hmem := h.pending startTime hstarted _ hleader hestablishing
    exact absurd rfl (h.carried _ hmem).2.2.1

theorem countP_getPeers (config : Config) (id : NodeId) (startTime : Timestamp) (x : NodeId) :
    ((config.getPeers id).map (fun peer => (⟨id, peer, startTime⟩ : Signal))).countP
      (fun m => m.target = x) ≤ if x = id then 0 else 1 := by
  have hpeers : ((config.getPeers id).map (fun peer => (⟨id, peer, startTime⟩ : Signal))).countP
      (fun m => m.target = x) = (config.getPeers id).count x := by
    rw [List.countP_map, List.count]
    apply List.countP_congr
    intro peer _
    simp
  have hnodup : (config.getPeers id).Nodup := config.nodup.filter _
  rw [hpeers]
  split
  case isTrue hx =>
    exact Nat.le_of_eq (List.count_eq_zero.mpr (fun hmem => (mem_getPeers.mp hmem).2 hx))
  case isFalse => exact List.nodup_iff_count_le_one.mp hnodup x

theorem Relayed.takeover (h : Relayed config s)
    (hclients : ∀ id, config.numClients id < 2 ^ 64)
    (hleader : config.initialLeader ∈ config.nodes)
    (hestablishing : s.establishing config.initialLeader = true) {sent : Sent}
    {startTime : Timestamp}
    (hsent : startSignals config.initialLeader sent =
      clientSignals config.initialLeader (config.numClients config.initialLeader) startTime) :
    Relayed config { s with
      deployment := s.deployment.respond config.initialLeader sent
      establishing := Function.update s.establishing config.initialLeader false
      inFlight := s.inFlight ++ (config.getPeers config.initialLeader).map
        (fun peer => ⟨config.initialLeader, peer, startTime⟩)
      started := some startTime
      signalled := s.signalled ++ startSignals config.initialLeader
        (sendToClients s.deployment.connected config.initialLeader sent) } := by
  obtain ⟨hinFlight, hlost, hsignalled, _⟩ := h.quiet (h.not_started hleader hestablishing)
  rw [hinFlight, hlost, hsignalled, startSignals_sendToClients, hsent, List.nil_append,
    List.nil_append]
  refine ⟨h.ids, h.numClients, by simp, fun m hm => ?_, fun m hm => ?_, fun x => ?_,
    fun id hid startTime' hstart m hm hconn => ?_, fun startTime' hstart id hid hwaits => ?_⟩
  · rw [List.append_nil] at hm
    obtain ⟨peer, hpeer, rfl⟩ := List.mem_map.mp hm
    exact ⟨rfl, (mem_getPeers.mp hpeer).1, (mem_getPeers.mp hpeer).2, rfl⟩
  · obtain ⟨n, _, rfl⟩ := List.mem_map.mp (List.mem_of_mem_filter hm)
    rfl
  · obtain ⟨hle, hother⟩ := count_clientSignals config.initialLeader
      (hclients config.initialLeader) startTime x
    have hpeers := countP_getPeers config config.initialLeader startTime x.1
    have hconnected := ((List.filter_sublist (p := fun m => s.deployment.connected m.1)
      (l := clientSignals config.initialLeader (config.numClients config.initialLeader)
        startTime)).map Prod.fst).count_le x
    simp only
    by_cases hx : x.1 = config.initialLeader
    · simp only [hx, ↓reduceIte] at hpeers ⊢
      omega
    · have hzero := hother hx
      simp only [hx, ↓reduceIte] at hpeers
      omega
  · by_cases heq : id = config.initialLeader
    · cases hstart
      rw [heq] at hm
      exact List.mem_filter.mpr ⟨hm, hconn⟩
    · simp only [Function.update_of_ne heq] at hid
      rw [(h.quiet (h.not_started hleader hestablishing)).2.2.2 id] at hid
      cases hid
  · cases hstart
    rw [List.append_nil]
    refine List.mem_map.mpr ⟨id, mem_getPeers.mpr ⟨hid, ?_⟩, rfl⟩
    rintro rfl
    simp at hwaits

theorem countP_diff {signals inFlight : List Signal} (h : signals.Subperm inFlight)
    (p : Signal → Bool) :
    inFlight.countP p = signals.countP p + (inFlight.diff signals).countP p := by
  have hperm := List.subperm_append_diff_self_of_count_le (fun m _ => h.count_le m)
  rw [← hperm.countP_eq p, List.countP_append]

theorem mem_diff_of_ne {signals inFlight : List Signal} (h : signals.Subperm inFlight) {m : Signal}
    (hm : m ∈ inFlight) (hother : m ∉ signals) : m ∈ inFlight.diff signals := by
  have hperm := List.subperm_append_diff_self_of_count_le (fun m _ => h.count_le m)
  exact (List.mem_append.mp (hperm.mem_iff.mpr hm)).resolve_left hother

theorem target_of_mem {id : NodeId} {batch : List (NodeId × ServerReplication.Event)} {m : Signal}
    (hm : m ∈ signalsOf id batch) : m.target = id := by
  obtain ⟨⟨sender, event⟩, _, heq⟩ := List.mem_filterMap.mp hm
  cases event with
  | decided idx => cases heq
  | startSignal startTime =>
    cases heq
    rfl

theorem count_passedOn (id : NodeId) {numClients : Nat} (hclients : numClients < 2 ^ 64)
    (signals : List Signal) (x : Session) :
    ((signals.flatMap (fun m => clientSignals id numClients m.startTime)).map Prod.fst).count x ≤
      if x.1 = id then signals.length else 0 := by
  induction signals with
  | nil => simp
  | cons m signals ih =>
    obtain ⟨hle, hother⟩ := count_clientSignals id hclients m.startTime x
    rw [List.flatMap_cons, List.map_append, List.count_append, List.length_cons]
    by_cases hx : x.1 = id
    · simp only [hx, ↓reduceIte] at ih ⊢
      omega
    · have hzero := hother hx
      simp only [hx, ↓reduceIte] at ih ⊢
      omega

section Batch

variable {id : NodeId} {batch : List (NodeId × ServerReplication.Event)}
  {server : OmniPaxosServer} {sent : Sent} {received : Bool}

theorem Relayed.started_batch (h : Relayed config s)
    (hsubperm : (signalsOf id batch).Subperm s.inFlight) :
    ∀ m ∈ signalsOf id batch, s.started = some m.startTime := by
  intro m hm
  exact (h.carried m (List.mem_append_left _ (hsubperm.subset hm))).2.2.2

theorem Relayed.sent_batch (h : Relayed config s)
    (hpasses : PassesOn id (s.deployment.servers id) server sent received (signalsOf id batch)) :
    startSignals id (sendToClients s.deployment.connected id sent) =
      ((signalsOf id batch).flatMap
        (fun m => clientSignals id (config.numClients id) m.startTime)).filter
          (fun m => s.deployment.connected m.1) := by
  rw [startSignals_sendToClients, hpasses.sent, h.numClients id]

theorem Relayed.quiet_batch (h : Relayed config s)
    (hsubperm : (signalsOf id batch).Subperm s.inFlight)
    (hpasses : PassesOn id (s.deployment.servers id) server sent received (signalsOf id batch))
    (hquiet : s.started = none) : signalsOf id batch = [] ∧ received = false ∧
      startSignals id (sendToClients s.deployment.connected id sent) = [] := by
  have hnone : signalsOf id batch = [] := by
    rw [(h.quiet hquiet).1] at hsubperm
    exact List.subperm_nil.mp hsubperm
  refine ⟨hnone, ?_, ?_⟩
  · rw [← Bool.not_eq_true, hpasses.received, hnone]
    simp
  · rw [h.sent_batch hpasses, hnone]
    rfl

theorem Relayed.once_batch (h : Relayed config s)
    (hclients : ∀ id, config.numClients id < 2 ^ 64)
    (hsubperm : (signalsOf id batch).Subperm s.inFlight)
    (hpasses : PassesOn id (s.deployment.servers id) server sent received (signalsOf id batch))
    (x : Session) :
    ((s.signalled ++ startSignals id (sendToClients s.deployment.connected id sent)).map
      Prod.fst).count x +
        (s.inFlight.diff (signalsOf id batch)).countP (fun m => m.target = x.1) ≤ 1 := by
  have hold := h.once x
  have hcount := count_passedOn id (hclients id) (signalsOf id batch) x
  have hconnected := ((List.filter_sublist (p := fun m => s.deployment.connected m.1)
    (l := (signalsOf id batch).flatMap
      (fun m => clientSignals id (config.numClients id) m.startTime))).map Prod.fst).count_le x
  have hdiff := countP_diff hsubperm (fun m => m.target = x.1)
  rw [List.map_append, List.count_append, h.sent_batch hpasses]
  by_cases hx : x.1 = id
  · have hall : (signalsOf id batch).countP (fun m => m.target = x.1) =
        (signalsOf id batch).length := by
      apply List.countP_eq_length.mpr
      intro m hm
      simp [target_of_mem hm, hx]
    simp only [hx, ↓reduceIte] at hcount hall hdiff hold ⊢
    omega
  · simp only [hx, ↓reduceIte] at hcount
    omega

theorem Relayed.told_batch (h : Relayed config s)
    (hsubperm : (signalsOf id batch).Subperm s.inFlight)
    (hpasses : PassesOn id (s.deployment.servers id) server sent received (signalsOf id batch))
    {id' : NodeId}
    (hid : (if received then Function.update s.establishing id false else s.establishing) id' =
      false)
    {startTime : Timestamp} (hstart : s.started = some startTime) {m : Session × Timestamp}
    (hm : m ∈ clientSignals id' (config.numClients id') startTime)
    (hconn : s.deployment.connected m.1 = true) :
    m ∈ s.signalled ++ startSignals id (sendToClients s.deployment.connected id sent) := by
  by_cases heq : id' = id ∧ signalsOf id batch ≠ []
  · obtain ⟨rfl, hne⟩ := heq
    obtain ⟨signal, rest, hcons⟩ := List.exists_cons_of_ne_nil hne
    have htime := h.started_batch hsubperm signal (by simp [hcons])
    rw [hstart, Option.some.injEq] at htime
    apply List.mem_append_right
    rw [h.sent_batch hpasses, hcons, List.flatMap_cons, ← htime]
    exact List.mem_filter.mpr ⟨List.mem_append_left _ hm, hconn⟩
  · apply List.mem_append_left
    refine h.told id' ?_ startTime hstart m hm hconn
    split at hid
    case isTrue hreceived =>
      have hne := hpasses.received.mp hreceived
      have hother : id' ≠ id := fun he => heq ⟨he, hne⟩
      simpa [hother] using hid
    case isFalse => exact hid

/-- A server that still waits found no signal in the batch, so the one meant for it is left. -/
theorem Relayed.pending_batch (h : Relayed config s)
    (hsubperm : (signalsOf id batch).Subperm s.inFlight)
    (hpasses : PassesOn id (s.deployment.servers id) server sent received (signalsOf id batch))
    {id' : NodeId} (hid : id' ∈ config.nodes)
    (hwaits : (if received then Function.update s.establishing id false else s.establishing) id' =
      true)
    {startTime : Timestamp} (hstart : s.started = some startTime) :
    (⟨config.initialLeader, id', startTime⟩ : Signal) ∈
      s.inFlight.diff (signalsOf id batch) ++ s.lost := by
  have hestablishing : s.establishing id' = true ∧ (id' = id → signalsOf id batch = []) := by
    split at hwaits
    case isTrue =>
      by_cases heq : id' = id
      · subst heq
        simp at hwaits
      · exact ⟨by simpa [heq] using hwaits, fun he => absurd he heq⟩
    case isFalse hnot =>
      refine ⟨hwaits, fun _ => ?_⟩
      by_contra hne
      exact hnot (hpasses.received.mpr hne)
  obtain hm | hm := List.mem_append.mp (h.pending startTime hstart id' hid hestablishing.1)
  · refine List.mem_append_left _ (mem_diff_of_ne hsubperm hm (fun hmem => ?_))
    have heq : id' = id := target_of_mem hmem
    rw [hestablishing.2 heq] at hmem
    exact List.not_mem_nil hmem
  · exact List.mem_append_right _ hm

theorem Relayed.clusterMessages (h : Relayed config s)
    (hclients : ∀ id, config.numClients id < 2 ^ 64)
    (hsubperm : (signalsOf id batch).Subperm s.inFlight)
    (hpasses : PassesOn id (s.deployment.servers id) server sent received (signalsOf id batch)) :
    Relayed config { s with
      deployment := { s.deployment with
        servers := Function.update s.deployment.servers id server }.respond id sent
      establishing :=
        if received then Function.update s.establishing id false else s.establishing
      inFlight := s.inFlight.diff (signalsOf id batch)
      signalled := s.signalled ++
        startSignals id (sendToClients s.deployment.connected id sent) } := by
  have hsub : s.inFlight.diff (signalsOf id batch) ⊆ s.inFlight := List.diff_subset _ _
  constructor
  · apply (Function.forall_update_iff s.deployment.servers (fun id server => server.id = id)).mpr
    exact ⟨hpasses.id_eq.trans (h.ids id), fun id' _ => h.ids id'⟩
  · apply (Function.forall_update_iff s.deployment.servers
      (fun id server => server.numClients = config.numClients id)).mpr
    exact ⟨hpasses.numClients.trans (h.numClients id), fun id' _ => h.numClients id'⟩
  · intro hquiet
    obtain ⟨hinFlight, hlost, hsignalled, hestablishing⟩ := h.quiet hquiet
    obtain ⟨hnone, hnot, hsent⟩ := h.quiet_batch hsubperm hpasses hquiet
    simp only [hinFlight, hnone, hsignalled, hsent, hnot]
    exact ⟨rfl, hlost, rfl, hestablishing⟩
  · intro m hm
    obtain hm | hm := List.mem_append.mp hm
    · exact h.carried m (List.mem_append_left _ (hsub hm))
    · exact h.carried m (List.mem_append_right _ hm)
  · intro m hm
    obtain hm | hm := List.mem_append.mp hm
    · exact h.agreed m hm
    · rw [h.sent_batch hpasses] at hm
      obtain ⟨signal, hsignal, hm⟩ := List.mem_flatMap.mp (List.mem_of_mem_filter hm)
      obtain ⟨n, _, rfl⟩ := List.mem_map.mp hm
      exact h.started_batch hsubperm signal hsignal
  · exact h.once_batch hclients hsubperm hpasses
  · intro id' hid startTime hstart m hm hconn
    exact h.told_batch hsubperm hpasses hid hstart hm hconn
  · intro startTime hstart id' hid hwaits
    exact h.pending_batch hsubperm hpasses hid hwaits hstart

end Batch

theorem Relayed.loseSignal (h : Relayed config s) {i : Nat} {signal : Signal}
    (hsignal : s.inFlight[i]? = some signal) :
    Relayed config { s with
      inFlight := s.inFlight.eraseIdx i
      lost := s.lost ++ [signal] } := by
  have hperm : (s.inFlight.eraseIdx i ++ (s.lost ++ [signal])).Perm (s.inFlight ++ s.lost) := by
    refine List.Perm.trans ?_ ((cons_eraseIdx_perm hsignal).append_right s.lost)
    rw [← List.append_assoc]
    exact List.perm_append_singleton signal _
  refine ⟨h.ids, h.numClients, fun hquiet => ?_, fun m hm => ?_, h.agreed, fun x => ?_, h.told,
    fun startTime hstart id hid hwaits => ?_⟩
  · have hinFlight := (h.quiet hquiet).1
    simp [hinFlight] at hsignal
  · exact h.carried m (hperm.mem_iff.mp hm)
  · have hold := h.once x
    have hle := (List.eraseIdx_sublist s.inFlight i).countP_le (p := fun m => m.target = x.1)
    simp only
    omega
  · exact hperm.mem_iff.mpr (h.pending startTime hstart id hid hwaits)

end Relayed

/-- An interval whose periods no timer refuses. -/
structure Regular (i : RequestInterval) : Prop where
  duration : 0 < i.durationSec
  delay : i.requestsPerSec ≤ 1000

section Regular

variable {i : RequestInterval}

theorem Regular.getIntervalDuration (h : Regular i) :
    interval i.getIntervalDuration = some i.getIntervalDuration := by
  have hpos : 0 < i.getIntervalDuration := Nat.mul_pos (by decide) h.duration
  rw [interval, if_pos hpos]

theorem Regular.getRequestDelay (h : Regular i) :
    ∃ delay, i.getRequestDelay = some delay ∧ interval delay = some delay := by
  rw [RequestInterval.getRequestDelay]
  split
  case isTrue => exact ⟨_, rfl, rfl⟩
  case isFalse hne =>
    have hpos : 0 < 1000 / i.requestsPerSec := Nat.div_pos h.delay (Nat.pos_of_ne_zero hne)
    exact ⟨_, if_pos (Nat.pos_iff_ne_zero.mp hpos), if_pos hpos⟩

theorem new_regular (id : NodeId) (intervals : List RequestInterval)
    (hregular : ∀ i' ∈ i :: intervals, Regular i') : (Client.new id (i :: intervals)).isSome := by
  have hi := hregular i List.mem_cons_self
  obtain ⟨delay, hdelay, hinterval⟩ := hi.getRequestDelay
  simp [Client.new, hdelay, hinterval, hi.getIntervalDuration]

theorem turn_intervalTick {client : Client} (hrunning : client.finished = false)
    (hregular : ∀ i ∈ client.intervals, Regular i) : (client.turn .intervalTick).isSome := by
  cases hi : client.intervals with
  | nil => simp [Client.turn, hrunning, hi]
  | cons i intervals =>
    have hfirst := hregular i (by simp [hi])
    obtain ⟨delay, hdelay, hinterval⟩ := hfirst.getRequestDelay
    simp [Client.turn, hrunning, hi, hdelay, hinterval, hfirst.getIntervalDuration]

end Regular

structure Begun (s : Launch) : Prop where
  announced : ∀ session startTime,
    (session, ServerMessage.startSignal startTime) ∈ s.deployment.responses →
      (session, startTime) ∈ s.signalled
  idle : ∀ x ∈ s.deployment.sent, s.status x.1 ≠ .waiting
  since : ∀ session syncTime since, s.status session = .started syncTime since →
    ∃ startTime, s.started = some startTime ∧ startTime ≤ since
  onTime : ∀ session client, s.deployment.clients session = some client →
    ∀ row ∈ client.clientData.requestData,
      ∃ startTime, s.started = some startTime ∧ startTime ≤ row.requestTime
  regular : ∀ session client, s.deployment.clients session = some client →
    ∀ i ∈ client.intervals, Regular i
  panics : ∀ session, s.status session ≠ .panicked

theorem new_eq_some {id : NodeId} {intervals : List RequestInterval} {client : Client}
    (h : Client.new id intervals = some client) :
    client.clientData.requestData = [] ∧ client.intervals ⊆ intervals := by
  cases intervals with
  | nil => cases h
  | cons i is =>
    simp only [Client.new, Option.bind_eq_bind, Option.bind_eq_some_iff, Option.pure_def,
      Option.some.injEq] at h
    obtain ⟨_, _, _, _, _, _, rfl⟩ := h
    exact ⟨rfl, List.subset_cons_self i is⟩

theorem begun_init (config : Config) (connected : Session → Bool)
    (hregular : ∀ session, ∀ i ∈ config.intervals session, Regular i) :
    Begun (init config connected) := by
  refine ⟨by simp [init, Sessions.init], by simp [init, Sessions.init], by simp [init],
    fun session client hclient row hrow => ?_, fun session client hclient i hi => ?_,
    fun session h => by cases h⟩
  · rw [(new_eq_some hclient).1] at hrow
    cases hrow
  · exact hregular session i ((new_eq_some hclient).2 hi)

section Begun

variable {config : Config} {s t : Launch}

theorem Begun.respond (h : Begun s) {id : NodeId} {sent : Sent}
    (hclients : t.deployment.clients = s.deployment.clients)
    (hresponses : t.deployment.responses = s.deployment.responses ++
      sent.map (fun m => ((id, m.1), m.2)))
    (hsent : t.deployment.sent = s.deployment.sent) (hstatus : t.status = s.status)
    (hsignalled : t.signalled = s.signalled ++ startSignals id sent)
    (hstarted : s.started = none ∨ t.started = s.started) : Begun t := by
  have htime : ∀ time, (∃ startTime, s.started = some startTime ∧ startTime ≤ time) →
      ∃ startTime, t.started = some startTime ∧ startTime ≤ time := by
    rintro time ⟨startTime, hs, hle⟩
    obtain hnone | hsame := hstarted
    · rw [hnone] at hs
      cases hs
    · exact ⟨startTime, hsame.trans hs, hle⟩
  constructor
  · intro session startTime hmem
    rw [hsignalled]
    rw [hresponses] at hmem
    obtain hold | hnew := List.mem_append.mp hmem
    · exact List.mem_append_left _ (h.announced session startTime hold)
    · obtain ⟨⟨client, msg⟩, hm, heq⟩ := List.mem_map.mp hnew
      obtain ⟨rfl, rfl⟩ := Prod.mk.inj heq
      apply List.mem_append_right
      exact List.mem_filterMap.mpr ⟨_, hm, rfl⟩
  · rw [hsent, hstatus]
    exact h.idle
  · intro session syncTime since hsince
    rw [hstatus] at hsince
    exact htime since (h.since session syncTime since hsince)
  · intro session client hclient row hrow
    rw [hclients] at hclient
    exact htime row.requestTime (h.onTime session client hclient row hrow)
  · rw [hclients]
    exact h.regular
  · rw [hstatus]
    exact h.panics

theorem Begun.of_flight (h : Begun s) {deployment : Deployment}
    (hclients : deployment.clients = s.deployment.clients)
    (hsent : deployment.sent = s.deployment.sent)
    (hresponses : deployment.responses ⊆ s.deployment.responses) :
    Begun { s with deployment := deployment } := by
  constructor
  · intro session startTime hmem
    exact h.announced session startTime (hresponses hmem)
  · simp only [hsent]
    exact h.idle
  · exact h.since
  · simp only [hclients]
    exact h.onTime
  · simp only [hclients]
    exact h.regular
  · exact h.panics

theorem Begun.of_client (h : Begun s) {session : Session} {client client' : Client}
    {deployment : Deployment} (hclient : s.deployment.clients session = some client)
    (hclients : deployment.clients =
      Function.update s.deployment.clients session (some client'))
    (hsent : ∀ x ∈ deployment.sent, x ∈ s.deployment.sent ∨ s.status x.1 ≠ .waiting)
    (hresponses : deployment.responses ⊆ s.deployment.responses)
    (hintervals : client'.intervals ⊆ client.intervals)
    (hrows : ∀ row ∈ client'.clientData.requestData,
      (∃ old ∈ client.clientData.requestData, row.requestTime = old.requestTime) ∨
        ∃ startTime, s.started = some startTime ∧ startTime ≤ row.requestTime) :
    Begun { s with deployment := deployment } := by
  have hother : ∀ other c, deployment.clients other = some c →
      other = session ∧ c = client' ∨ s.deployment.clients other = some c := by
    intro other c hc
    by_cases heq : other = session
    · rw [hclients, heq, Function.update_self] at hc
      exact .inl ⟨heq, (Option.some.inj hc).symm⟩
    · rw [hclients, Function.update_of_ne heq] at hc
      exact .inr hc
  constructor
  · intro other startTime hmem
    exact h.announced other startTime (hresponses hmem)
  · intro x hx
    obtain hold | hnew := hsent x hx
    · exact h.idle x hold
    · exact hnew
  · exact h.since
  · intro other c hc row hrow
    obtain ⟨rfl, rfl⟩ | hsame := hother other c hc
    · obtain ⟨old, hold, htime⟩ | hnew := hrows row hrow
      · rw [htime]
        exact h.onTime other client hclient old hold
      · exact hnew
    · exact h.onTime other c hsame row hrow
  · intro other c hc i hi
    obtain ⟨rfl, rfl⟩ | hsame := hother other c hc
    · exact h.regular other client hclient i (hintervals hi)
    · exact h.regular other c hsame i hi
  · exact h.panics

theorem requestTime_of_newResponse {data data' : ClientData} {id : CommandId} {now : Timestamp}
    (h : data.newResponse id now = some data') {row : RequestData}
    (hrow : row ∈ data'.requestData) :
    ∃ old ∈ data.requestData, row.requestTime = old.requestTime := by
  obtain ⟨_, rfl⟩ := ClientStep.newResponse_eq_some.mp h
  obtain ⟨i, hi⟩ := List.getElem?_of_mem hrow
  rw [List.getElem?_modify] at hi
  obtain ⟨old, hold, rfl⟩ := Option.map_eq_some_iff.mp hi
  refine ⟨old, List.mem_of_getElem? hold, ?_⟩
  split <;> rfl

theorem le_waitUntilSyncTime (scheduledStart now : Timestamp) :
    scheduledStart ≤ (waitUntilSyncTime scheduledStart now).2 := by
  simp only [waitUntilSyncTime]
  split
  case isTrue =>
    exact Int.le_of_eq (by rw [Int.add_comm, Int.sub_add_cancel])
  case isFalse hlate => exact Int.le_of_sub_nonpos (Int.not_lt.mp hlate)

theorem begin_cases (hregular : ∀ session, ∀ i ∈ config.intervals session, Regular i)
    (session : Session) (startTime now : Timestamp) :
    config.begin session startTime now = .ended ∨ ∃ syncTime since,
      config.begin session startTime now = .started syncTime since ∧ startTime ≤ since := by
  cases hi : config.intervals session with
  | nil => exact .inl (by simp [Config.begin, hi])
  | cons i intervals =>
    have hfirst := hregular session
    rw [hi] at hfirst
    have hnew := new_regular session.1 intervals hfirst
    refine .inr ⟨(waitUntilSyncTime startTime now).1, _, ?_, le_waitUntilSyncTime startTime now⟩
    simp [Config.begin, hi, hnew]

/-- The first message of a client is its start signal: nobody answers a client that has
sent nothing. -/
theorem Begun.startSignal (h : Begun s) (hmatched : Matched s.deployment)
    {m : Session × ServerMessage} (hm : m ∈ s.deployment.responses)
    (hwaiting : s.status m.1 = .waiting) : ∃ startTime, m.2 = .startSignal startTime := by
  cases hmsg : m.2 with
  | startSignal startTime => exact ⟨startTime, rfl⟩
  | write id | read id value =>
    have hanswers : answers m = some (m.1, id) := by simp [answers, hmsg, ServerMessage.commandId]
    exact absurd hwaiting (h.idle _ (hmatched.response hm hanswers).1)

theorem Begun.firstMessage (h : Begun s) (hmatched : Matched s.deployment)
    (hrelayed : Relayed config s)
    (hregular : ∀ session, ∀ i ∈ config.intervals session, Regular i) {i : Nat} {now : Timestamp}
    {m : Session × ServerMessage} (hm : s.deployment.responses[i]? = some m)
    (hwaiting : s.status m.1 = .waiting) :
    Begun { s with
      deployment := { s.deployment with responses := s.deployment.responses.eraseIdx i }
      status := Function.update s.status m.1 (config.firstMessage m.1 now m.2) } := by
  have hmem := List.mem_of_getElem? hm
  obtain ⟨startTime, hstart⟩ := h.startSignal hmatched hmem hwaiting
  have htime : s.started = some startTime := by
    apply hrelayed.agreed (m.1, startTime)
    apply h.announced
    rw [← hstart]
    exact hmem
  have hbegin : ∀ status, config.firstMessage m.1 now m.2 = status → status = .ended ∨
      ∃ syncTime since, status = .started syncTime since ∧ startTime ≤ since := by
    rintro _ rfl
    rw [hstart]
    exact begin_cases hregular m.1 startTime now
  have hstatus : ∀ other, other = m.1 ∨
      Function.update s.status m.1 (config.firstMessage m.1 now m.2) other = s.status other :=
    fun other => (em (other = m.1)).imp_right (fun hne => Function.update_of_ne hne _ _)
  constructor
  · intro other time hold
    exact h.announced other time (List.mem_of_mem_eraseIdx hold)
  · intro x hx
    obtain heq | hsame := hstatus x.1
    · exact absurd (heq ▸ hwaiting) (h.idle x hx)
    · simp only [hsame]
      exact h.idle x hx
  · intro other syncTime since hsince
    obtain rfl | hsame := hstatus other
    · simp only [Function.update_self] at hsince
      obtain hended | ⟨_, _, hstarted, hle⟩ := hbegin _ hsince
      · cases hended
      · cases hstarted
        exact ⟨startTime, htime, hle⟩
    · simp only [hsame] at hsince
      exact h.since other syncTime since hsince
  · exact h.onTime
  · exact h.regular
  · intro other
    obtain rfl | hsame := hstatus other
    · simp only [Function.update_self]
      obtain hended | ⟨_, _, hstarted, _⟩ := hbegin _ rfl
      · simp [hended]
      · simp [hstarted]
    · simp only [hsame]
      exact h.panics other

end Begun

structure Launched (config : Config) (s : Launch) : Prop where
  matched : Matched s.deployment
  relayed : Relayed config s
  begun : Begun s

/-- What is assumed of a configuration: the leader is one of the servers, client counts are
machine words, and the intervals of the clients have valid periods. -/
structure Valid (config : Config) : Prop where
  initialLeader : config.initialLeader ∈ config.nodes
  numClients : ∀ id, config.numClients id < 2 ^ 64
  intervals : ∀ session, ∀ i ∈ config.intervals session, Regular i

theorem launched_init {config : Config} (hvalid : Valid config) (connected : Session → Bool) :
    Launched config (init config connected) :=
  ⟨matched_init config.numClients connected config.intervals, relayed_init config connected,
    begun_init config connected hvalid.intervals⟩

section Steps

variable {config : Config} {s t : Launch}

theorem follow_eq_some {a : Sessions.Action} : s.follow a = some t ↔
    ∃ deployment, Sessions.step s.deployment a = some deployment ∧
      t = { s with deployment := deployment } := by
  simp only [Launch.follow, Option.map_eq_some_iff, eq_comm (a := t)]

theorem handle_eq_some {session : Session} {a : Sessions.Action}
    (h : s.handle session a = some t)
    (hok : ∀ client, s.deployment.clients session = some client → client.finished = false →
      (Sessions.step s.deployment a).isSome) : s.follow a = some t := by
  simp only [Launch.handle, Option.bind_eq_bind, Option.bind_eq_some_iff] at h
  obtain ⟨client, hclient, h⟩ := h
  split at h
  case isTrue => cases h
  case isFalse hrunning =>
    obtain ⟨deployment, hdeployment⟩ := Option.isSome_iff_exists.mp
      (hok client hclient (Bool.not_eq_true _ ▸ hrunning))
    have hfollow : s.follow a = some { s with deployment := deployment } :=
      follow_eq_some.mpr ⟨deployment, hdeployment, rfl⟩
    rwa [hfollow] at h ⊢

theorem Launched.follow (h : Launched config s) {a : Sessions.Action} {deployment : Deployment}
    (hstep : Sessions.step s.deployment a = some deployment)
    (hservers : deployment.servers = s.deployment.servers)
    (hconnected : ∀ x, deployment.connected x = true → s.deployment.connected x = true)
    (hbegun : Begun { s with deployment := deployment }) :
    Launched config { s with deployment := deployment } :=
  ⟨step_matched h.matched hstep, h.relayed.of_eq hservers hconnected rfl rfl rfl rfl rfl, hbegun⟩

theorem Launched.of_flight (h : Launched config s) {a : Sessions.Action} {deployment : Deployment}
    (hstep : Sessions.step s.deployment a = some deployment)
    (hservers : deployment.servers = s.deployment.servers)
    (hconnected : ∀ x, deployment.connected x = true → s.deployment.connected x = true)
    (hclients : deployment.clients = s.deployment.clients)
    (hsent : deployment.sent = s.deployment.sent)
    (hresponses : deployment.responses ⊆ s.deployment.responses) :
    Launched config { s with deployment := deployment } :=
  h.follow hstep hservers hconnected (h.begun.of_flight hclients hsent hresponses)

theorem Launched.takeoverTick (h : Launched config s) (hvalid : Valid config) {id : NodeId}
    {currentLeader : Option (NodeId × Bool)} {now : Timestamp}
    (hstep : Startup.step config s (.takeoverTick id currentLeader now) = some t) :
    Launched config t := by
  simp only [Startup.step, Option.ite_none_right_eq_some] at hstep
  obtain ⟨⟨_, hestablishing, rfl⟩, hstep⟩ := hstep
  split at hstep
  case isTrue =>
    cases hstep
    have hsent : startSignals config.initialLeader
        ((s.deployment.servers config.initialLeader).clientStartSignals (now + 2000)) =
          clientSignals config.initialLeader (config.numClients config.initialLeader)
            (now + 2000) := by
      rw [startSignals_clientStartSignals, h.relayed.numClients]
    have hmatched := h.matched.respond
      (passes_startSignals s.deployment.log (s.deployment.servers config.initialLeader)
        (now + 2000))
    rw [Function.update_eq_self] at hmatched
    have hnone := h.relayed.not_started hvalid.initialLeader hestablishing
    exact ⟨hmatched,
      h.relayed.takeover hvalid.numClients hvalid.initialLeader hestablishing hsent,
      h.begun.respond rfl rfl rfl rfl rfl (.inl hnone)⟩
  case isFalse =>
    cases hstep
    exact h

theorem Launched.clusterMessages (h : Launched config s) (hvalid : Valid config) {id : NodeId}
    {batch : List (NodeId × ServerReplication.Event)}
    (hstep : Startup.step config s (.clusterMessages id batch) = some t) : Launched config t := by
  simp only [Startup.step, Option.ite_none_right_eq_some] at hstep
  obtain ⟨⟨_, hbatch, hsubperm⟩, hstep⟩ := hstep
  obtain ⟨server, sent, received, hhandle, hpasses⟩ := handleClusterMessages_passesOn id
    s.deployment.log (s.deployment.servers id) batch
  simp only [hhandle, Option.bind_eq_bind, Option.bind_some, Option.pure_def,
    Option.some.injEq] at hstep
  subst hstep
  have hsessions : Sessions.step s.deployment (.clusterMessages id batch) =
      some ({ s.deployment with
        servers := Function.update s.deployment.servers id server }.respond id sent) := by
    simp only [Sessions.step, hbatch, hhandle, ↓reduceIte, Option.bind_eq_bind,
      Option.bind_some, Option.pure_def]
  exact ⟨step_matched h.matched hsessions,
    h.relayed.clusterMessages hvalid.numClients hsubperm hpasses,
    h.begun.respond rfl rfl rfl rfl rfl (.inr rfl)⟩

theorem Launched.deliver (h : Launched config s) {i : Nat} {now : Timestamp}
    (hstep : s.follow (.deliver i now) = some t) : Launched config t := by
  obtain ⟨deployment, hdeliver, rfl⟩ := follow_eq_some.mp hstep
  obtain ⟨m, client, client', hm, hclient, _, _, hintervals, hmsg, rfl⟩ := deliver_next hdeliver
  refine h.follow hdeliver rfl (fun _ hx => hx) (h.begun.of_client hclient rfl
    (fun x hx => .inl hx) (List.eraseIdx_subset) (hintervals ▸ List.Subset.refl _)
    (fun row hrow => .inl ?_))
  obtain ⟨_, hdata⟩ | ⟨id, _, hdata⟩ := hmsg
  · rw [hdata] at hrow
    exact ⟨row, hrow, rfl⟩
  · exact requestTime_of_newResponse hdata hrow

theorem Launched.receive (h : Launched config s) (hvalid : Valid config) {i : Nat}
    {now : Timestamp} (hstep : Startup.step config s (.receive i now) = some t) :
    Launched config t := by
  simp only [Startup.step, Option.bind_eq_bind, Option.bind_eq_some_iff] at hstep
  obtain ⟨m, hm, hstep⟩ := hstep
  split at hstep
  case h_1 hwaiting =>
    cases hstep
    have hdrop : Sessions.step s.deployment (.dropResponse i) =
        some { s.deployment with responses := s.deployment.responses.eraseIdx i } := by
      simp [Sessions.step, hm]
    exact ⟨step_matched h.matched hdrop,
      h.relayed.of_eq rfl (fun _ hx => hx) rfl rfl rfl rfl rfl,
      h.begun.firstMessage h.matched h.relayed hvalid.intervals hm hwaiting⟩
  case h_2 syncTime since hstarted =>
    refine h.deliver (handle_eq_some hstep (fun client hclient hrunning => ?_))
    exact h.matched.consistent.panics i now m client hm hclient hrunning
  case h_3 | h_4 => cases hstep

theorem Launched.requestTick (h : Launched config s) {session : Session} {isWrite : Bool}
    {now : Timestamp} (hstep : Startup.step config s (.requestTick session isWrite now) = some t) :
    Launched config t := by
  simp only [Startup.step] at hstep
  split at hstep
  case h_1 syncTime since hstarted =>
    simp only [Option.ite_none_right_eq_some] at hstep
    obtain ⟨hnow, hstep⟩ := hstep
    obtain ⟨deployment, hrequest, rfl⟩ := follow_eq_some.mp hstep
    obtain ⟨client, hclient, rfl⟩ := requestTick_next hrequest
    refine h.follow hrequest rfl (fun _ hx => hx) (h.begun.of_client hclient rfl (fun x hx => ?_)
      (List.Subset.refl _) (List.Subset.refl _) (fun row hrow => ?_))
    · obtain hold | hnew := List.mem_append.mp hx
      · exact .inl hold
      · obtain rfl := List.mem_singleton.mp hnew
        refine .inr ?_
        rw [(h.matched.rows session client hclient).active, hstarted]
        exact Status.noConfusion
    · obtain hold | hnew := List.mem_append.mp hrow
      · exact .inl ⟨row, hold, rfl⟩
      · obtain rfl := List.mem_singleton.mp hnew
        obtain ⟨startTime, hstart, hle⟩ := h.begun.since session syncTime since hstarted
        exact .inr ⟨startTime, hstart, Int.le_trans hle hnow⟩
  all_goals cases hstep

theorem Launched.intervalTick (h : Launched config s) {session : Session}
    (hstep : Startup.step config s (.intervalTick session) = some t) : Launched config t := by
  simp only [Startup.step] at hstep
  split at hstep
  case h_1 syncTime since hstarted =>
    have hfollow : s.follow (.intervalTick session) = some t := by
      refine handle_eq_some hstep (fun client hclient hrunning => ?_)
      obtain ⟨⟨client', out⟩, hturn⟩ := Option.isSome_iff_exists.mp
        (turn_intervalTick hrunning (h.begun.regular session client hclient))
      simp [Sessions.step, Deployment.clientTurn, hclient, hturn]
    obtain ⟨deployment, htick, rfl⟩ := follow_eq_some.mp hfollow
    obtain ⟨client, client', hclient, hdata, _, _, hintervals, rfl⟩ := intervalTick_next htick
    refine h.follow htick rfl (fun _ hx => hx) (h.begun.of_client hclient rfl
      (fun x hx => .inl hx) (List.Subset.refl _) hintervals (fun row hrow => .inl ⟨row, ?_, rfl⟩))
    rwa [hdata] at hrow
  all_goals cases hstep

theorem step_launched (hvalid : Valid config) (h : Launched config s) {a : Startup.Action}
    (hstep : Startup.step config s a = some t) : Launched config t := by
  cases a with
  | takeoverTick id currentLeader now => exact h.takeoverTick hvalid hstep
  | clusterMessages id batch => exact h.clusterMessages hvalid hstep
  | loseSignal i =>
    simp only [Startup.step, Option.bind_eq_bind, Option.bind_eq_some_iff, Option.pure_def,
      Option.some.injEq] at hstep
    obtain ⟨signal, hsignal, rfl⟩ := hstep
    exact ⟨h.matched, h.relayed.loseSignal hsignal, h.begun.announced, h.begun.idle,
      h.begun.since, h.begun.onTime, h.begun.regular, h.begun.panics⟩
  | receive i now => exact h.receive hvalid hstep
  | requestTick session isWrite now => exact h.requestTick hstep
  | intervalTick session => exact h.intervalTick hstep
  | dropResponse i =>
    obtain ⟨deployment, hflight, rfl⟩ := follow_eq_some.mp hstep
    obtain ⟨m, hm, rfl⟩ := dropResponse_next hflight
    exact h.of_flight hflight rfl (fun _ hx => hx) rfl rfl (List.eraseIdx_subset)
  | disconnect session =>
    obtain ⟨deployment, hflight, rfl⟩ := follow_eq_some.mp hstep
    have hnext := hflight
    cases hnext
    refine h.of_flight hflight rfl (fun x hx => ?_) rfl rfl (List.Subset.refl _)
    by_cases heq : x = session
    · simp [heq] at hx
    · simpa [heq] using hx
  | serve i | dropRequest i | decide i =>
    obtain ⟨deployment, hflight, rfl⟩ := follow_eq_some.mp hstep
    have hnext := hflight
    simp only [Sessions.step, Option.bind_eq_bind, Option.bind_eq_some_iff, Option.pure_def,
      Option.some.injEq] at hnext
    obtain ⟨m, hm, rfl⟩ := hnext
    exact h.of_flight hflight rfl (fun _ hx => hx) rfl rfl (List.Subset.refl _)

end Steps

/-- How a cluster starts: all clients are told the same time, each at most once; a server that
goes on has told those of its clients `1..=num_clients` that it is connected to, and one that
waits is to be told by a signal of the leader, unless that is lost; and no client panics or
sends before the time. -/
structure Synchronized (config : Config) (s : Launch) : Prop where
  once : (s.signalled.map Prod.fst).Nodup
  agreed : ∀ m ∈ s.signalled, s.started = some m.2
  told : ∀ id, s.establishing id = false → ∃ startTime, s.started = some startTime ∧
    ∀ n < config.numClients id, s.deployment.connected (id, UInt64.ofNat (n + 1)) = true →
      ((id, UInt64.ofNat (n + 1)), startTime) ∈ s.signalled
  pending : ∀ startTime, s.started = some startTime → ∀ id ∈ config.nodes,
    s.establishing id = true →
      (⟨config.initialLeader, id, startTime⟩ : Signal) ∈ s.inFlight ++ s.lost
  panics : ∀ session, s.status session ≠ .panicked
  onTime : ∀ session client, s.deployment.clients session = some client →
    ∀ row ∈ client.clientData.requestData,
      ∃ startTime, s.started = some startTime ∧ startTime ≤ row.requestTime

theorem Launched.synchronized {config : Config} {s : Launch} (h : Launched config s) :
    Synchronized config s := by
  refine ⟨List.nodup_iff_count_le_one.mpr (fun x => ?_), h.relayed.agreed, fun id hid => ?_,
    h.relayed.pending, h.begun.panics, h.begun.onTime⟩
  · exact Nat.le_trans (Nat.le_add_right _ _) (h.relayed.once x)
  · cases hstarted : s.started with
    | none =>
      rw [(h.relayed.quiet hstarted).2.2.2 id] at hid
      cases hid
    | some startTime =>
      refine ⟨startTime, rfl, fun n hn hconn => ?_⟩
      refine h.relayed.told id hid startTime hstarted _ ?_ hconn
      exact List.mem_map.mpr ⟨n, List.mem_range.mpr hn, rfl⟩

theorem handle_started {s t : Launch} {session : Session} {a : Sessions.Action}
    (h : s.handle session a = some t) : t.started = s.started := by
  simp only [Launch.handle, Option.bind_eq_bind, Option.bind_eq_some_iff] at h
  obtain ⟨_, _, h⟩ := h
  split at h
  · cases h
  split at h
  case h_1 hfollow =>
    cases h
    obtain ⟨_, _, rfl⟩ := follow_eq_some.mp hfollow
    rfl
  case h_2 =>
    cases h
    rfl

theorem step_started {config : Config} {s t : Launch} {a : Startup.Action}
    (hstep : Startup.step config s a = some t) {startTime : Timestamp}
    (hstart : t.started = some startTime) : s.started = some startTime ∨
      ∃ now, a = .takeoverTick config.initialLeader (some (config.initialLeader, true)) now ∧
        startTime = now + 2000 := by
  cases a with
  | takeoverTick id currentLeader now =>
    simp only [Startup.step, Option.ite_none_right_eq_some] at hstep
    obtain ⟨⟨_, _, rfl⟩, hstep⟩ := hstep
    split at hstep
    case isTrue hleader =>
      cases hstep
      cases hstart
      exact .inr ⟨now, by rw [hleader], rfl⟩
    case isFalse =>
      cases hstep
      exact .inl hstart
  | clusterMessages id batch =>
    simp only [Startup.step, Option.ite_none_right_eq_some, Option.bind_eq_bind,
      Option.bind_eq_some_iff, Option.pure_def, Option.some.injEq] at hstep
    obtain ⟨_, _, _, rfl⟩ := hstep
    exact .inl hstart
  | loseSignal i =>
    simp only [Startup.step, Option.bind_eq_bind, Option.bind_eq_some_iff, Option.pure_def,
      Option.some.injEq] at hstep
    obtain ⟨_, _, rfl⟩ := hstep
    exact .inl hstart
  | receive i now =>
    simp only [Startup.step, Option.bind_eq_bind, Option.bind_eq_some_iff] at hstep
    obtain ⟨m, _, hstep⟩ := hstep
    split at hstep
    · cases hstep
      exact .inl hstart
    · rw [handle_started hstep] at hstart
      exact .inl hstart
    · cases hstep
    · cases hstep
  | requestTick session isWrite now =>
    simp only [Startup.step] at hstep
    split at hstep
    · simp only [Option.ite_none_right_eq_some] at hstep
      obtain ⟨_, _, rfl⟩ := follow_eq_some.mp hstep.2
      exact .inl hstart
    all_goals cases hstep
  | intervalTick session =>
    simp only [Startup.step] at hstep
    split at hstep
    · rw [handle_started hstep] at hstart
      exact .inl hstart
    all_goals cases hstep
  | dropResponse i | disconnect session | serve i | dropRequest i | decide i =>
    obtain ⟨_, _, rfl⟩ := follow_eq_some.mp hstep
    exact .inl hstart

/-- Every run of the starting cluster is synchronized, whatever is lost or delayed, and
starts only when its leader is in the accept phase. -/
theorem start_synchronized {config : Config} (hvalid : Valid config)
    {connected : Session → Bool} {acts : List Startup.Action} {s : Launch}
    (hrun : run (Startup.step config) (init config connected) acts = some s) :
    Synchronized config s ∧ ∀ startTime, s.started = some startTime →
      ∃ now, .takeoverTick config.initialLeader (some (config.initialLeader, true)) now ∈ acts ∧
        startTime = now + 2000 := by
  have hboth := run_invariant (fun s => Launched config s ∧
      ∀ startTime, s.started = some startTime →
        ∃ now, .takeoverTick config.initialLeader (some (config.initialLeader, true)) now ∈ acts ∧
          startTime = now + 2000)
    (fun s a t ha h hstep => ⟨step_launched hvalid h.1 hstep, fun startTime hstart => by
      obtain hold | ⟨now, rfl, htime⟩ := step_started hstep hstart
      · exact h.2 startTime hold
      · exact ⟨now, ha, htime⟩⟩)
    ⟨launched_init hvalid connected, fun startTime hstart => by cases hstart⟩ hrun
  exact ⟨hboth.1.synchronized, hboth.2⟩

def twoServers : Config :=
  { nodes := [1, 2], nodup := nodup_one_two, initialLeader := 1,
    numClients := fun _ => 1, intervals := fun _ => [⟨10, 10⟩] }

/-- The leader starts at its second attempt, the other server passes its signal on, and the
client there sends a request. -/
def relayedStart : List Startup.Action :=
  [.takeoverTick 1 (some (1, false)) 50, .takeoverTick 1 (some (1, true)) 100,
    .clusterMessages 2 [(1, .decided 0), (1, .startSignal 2100)], .receive 1 900,
    .requestTick (2, 1) true 2150]

theorem start_synchronized_relayedStart :
    ∃ s, run (Startup.step twoServers) (init twoServers (fun _ => true)) relayedStart = some s ∧
      s.signalled = [((1, 1), 2100), ((2, 1), 2100)] ∧ s.status (2, 1) = .started 1200 2100 ∧
      s.deployment.sent.length = 1 ∧ Synchronized twoServers s := by
  have hghost : (run (Startup.step twoServers) (init twoServers (fun _ => true)) relayedStart).map
      (fun s => (s.signalled, s.status (2, 1), s.deployment.sent.length)) =
        some ([((1, 1), 2100), ((2, 1), 2100)], .started 1200 2100, 1) := by
    decide +kernel
  obtain ⟨s, hrun, hs⟩ := Option.map_eq_some_iff.mp hghost
  simp only [Prod.mk.injEq] at hs
  obtain ⟨hsignalled, hstatus, hsent⟩ := hs
  have hintervals : ∀ session, ∀ i ∈ twoServers.intervals session, Regular i := by
    intro session i hi
    rw [List.mem_singleton.mp hi]
    exact ⟨by decide, by decide⟩
  have hvalid : Valid twoServers :=
    ⟨by decide, fun _ => Nat.one_lt_two_pow (by decide), hintervals⟩
  exact ⟨s, hrun, hsignalled, hstatus, hsent, (start_synchronized hvalid hrun).1⟩

end OmniPaxosJepsen.StartSignals
