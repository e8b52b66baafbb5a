import OmniPaxosJepsen.Machine
import OmniPaxosJepsen.Runs
import OmniPaxosJepsen.Server

namespace OmniPaxosJepsen.ServerReplication

open Common Server Machine Runs

/-- What OmniPaxos answers at a server that knows the first `idx` entries of a log to be
decided: the suffix it is asked for, entry by entry. -/
def decidedView (log : List Command) (idx : Nat) : OmniPaxosView :=
  { decidedIdx := idx
    readDecidedSuffix := fun i => some (((log.take idx).drop i).map LogEntry.decided) }

def applyCommand (id : NodeId) (database : Database) (command : Command) : Database × Sent :=
  ((database.handleCommand command.kvCmd).1,
    if command.coordinatorId = id then
      [(command.clientId, response command.id (database.handleCommand command.kvCmd).2)]
    else [])

theorem updateDatabaseAndRespond_eq (self : OmniPaxosServer) (commands : List Command) :
    self.updateDatabaseAndRespond commands =
      ({ self with database := (exec (applyCommand self.id) self.database commands).1 },
        (exec (applyCommand self.id) self.database commands).2) := by
  induction commands generalizing self with
  | nil => rfl
  | cons command commands ih =>
    simp only [OmniPaxosServer.updateDatabaseAndRespond, ih, exec_cons, applyCommand]

theorem mapM_decided (commands : List Command) :
    (commands.map LogEntry.decided).mapM LogEntry.decidedCommand = some commands := by
  induction commands with
  | nil => rfl
  | cons command commands ih => simp [LogEntry.decidedCommand, ih]

theorem handleDecidedEntries_decidedView (self : OmniPaxosServer) (log : List Command) (idx : Nat) :
    self.handleDecidedEntries (decidedView log idx) =
      some ({ self with
          currentDecidedIdx := max self.currentDecidedIdx idx
          database := (exec (applyCommand self.id) self.database
            ((log.take idx).drop self.currentDecidedIdx)).1 },
        (exec (applyCommand self.id) self.database
          ((log.take idx).drop self.currentDecidedIdx)).2) := by
  by_cases hidx : self.currentDecidedIdx < idx
  · have hmax : max self.currentDecidedIdx idx = idx := Nat.max_eq_right (Nat.le_of_lt hidx)
    simp only [OmniPaxosServer.handleDecidedEntries, decidedView, hidx, ↓reduceIte, mapM_decided,
      updateDatabaseAndRespond_eq, hmax, Option.bind_eq_bind, Option.bind_some, Option.pure_def]
  · have hle : idx ≤ self.currentDecidedIdx := Nat.le_of_not_lt hidx
    simp [OmniPaxosServer.handleDecidedEntries, decidedView, hidx, drop_take_of_le hle,
      Nat.max_eq_left hle]

def commandMessages (sent : Sent) : Sent := sent.filter (fun m => m.2.commandId.isSome)

theorem commandMessages_append (sent sent' : Sent) :
    commandMessages (sent ++ sent') = commandMessages sent ++ commandMessages sent' :=
  List.filter_append sent sent'

theorem commandMessages_exec (id : NodeId) (database : Database) (commands : List Command) :
    commandMessages (exec (applyCommand id) database commands).2 =
      (exec (applyCommand id) database commands).2 := by
  apply List.filter_eq_self.mpr
  rw [exec_outputs]
  intro m hm
  obtain ⟨⟨command, n⟩, _, hm⟩ := List.mem_flatMap.mp hm
  simp only [applyCommand] at hm
  split at hm
  · rw [List.mem_singleton.mp hm]
    simp only [response]
    split <;> rfl
  · simp at hm

theorem commandMessages_startSignals (self : OmniPaxosServer) (startTime : Timestamp) :
    commandMessages (self.clientStartSignals startTime) = [] := by
  apply List.filter_eq_nil_iff.mpr
  intro m hm
  obtain ⟨n, _, rfl⟩ := List.mem_map.mp hm
  simp [ServerMessage.commandId]

/-- What reaches a server from the cluster: a message after which OmniPaxos knows that
the first `idx` entries are decided, or the leader's start signal. -/
inductive Event where
  | decided (idx : Nat)
  | startSignal (startTime : Timestamp)

def Event.message (log : List Command) : Event → ClusterMessage
  | .decided idx => .omniPaxosMessage (decidedView log idx)
  | .startSignal startTime => .leaderStartSignal startTime

def messages (log : List Command) (batch : List (NodeId × Event)) :
    List (NodeId × ClusterMessage) :=
  batch.map (fun m => (m.1, m.2.message log))

/-- What holds of handling one decided index or one start signal, and of doing nothing,
and can be chained, holds of every batch; and no batch makes the server panic. -/
theorem handleClusterMessages_rule (log : List Command)
    (P : OmniPaxosServer → OmniPaxosServer → Sent → Prop) (hnil : ∀ server, P server server [])
    (htrans : ∀ {server server' server'' sent sent'}, P server server' sent →
      P server' server'' sent' → P server server'' (sent ++ sent'))
    (hdecided : ∀ server idx, ∃ server' sent,
      server.handleDecidedEntries (decidedView log idx) = some (server', sent) ∧
        P server server' sent)
    (hstart : ∀ server startTime, P server server (server.clientStartSignals startTime))
    (server : OmniPaxosServer) (batch : List (NodeId × Event)) :
    ∃ server' sent received,
      server.handleClusterMessages (messages log batch) = some (server', sent, received) ∧
        P server server' sent := by
  induction batch generalizing server with
  | nil => exact ⟨server, [], false, rfl, hnil server⟩
  | cons m batch ih =>
    obtain ⟨sender, event⟩ := m
    cases event with
    | decided idx =>
      obtain ⟨server', sent, hhandle, hfirst⟩ := hdecided server idx
      obtain ⟨server'', sent', received, hrest, hsecond⟩ := ih server'
      refine ⟨server'', sent ++ sent', received, ?_, htrans hfirst hsecond⟩
      have hcons : messages log ((sender, .decided idx) :: batch) =
          (sender, .omniPaxosMessage (decidedView log idx)) :: messages log batch := rfl
      rw [hcons, OmniPaxosServer.handleClusterMessages, hhandle]
      simp [hrest]
    | startSignal startTime =>
      obtain ⟨server', sent', received, hrest, hsecond⟩ := ih server
      refine ⟨server', server.clientStartSignals startTime ++ sent', true, ?_,
        htrans (hstart server startTime) hsecond⟩
      have hcons : messages log ((sender, .startSignal startTime) :: batch) =
          (sender, .leaderStartSignal startTime) :: messages log batch := rfl
      rw [hcons, OmniPaxosServer.handleClusterMessages]
      simp [hrest]

/-- A server has taken in a prefix of the log, and its messages, start signals aside,
are those that the prefix calls for. -/
structure Replicates (log : List Command) (id : NodeId) (server : OmniPaxosServer)
    (sent : Sent) : Prop where
  id_eq : server.id = id
  caughtUp : CaughtUp (applyCommand id) Database.new log server.currentDecidedIdx server.database
    (commandMessages sent)

section Replicates

variable {log : List Command} {id : NodeId} {self : OmniPaxosServer} {sent : Sent}

theorem Replicates.startSignals (h : Replicates log id self sent) (startTime : Timestamp) :
    Replicates log id self (sent ++ self.clientStartSignals startTime) := by
  constructor
  · exact h.id_eq
  · rw [commandMessages_append, commandMessages_startSignals, List.append_nil]
    exact h.caughtUp

theorem Replicates.decided (h : Replicates log id self sent) (idx : Nat) :
    Replicates log id
      { self with
        currentDecidedIdx := max self.currentDecidedIdx idx
        database := (exec (applyCommand self.id) self.database
          ((log.take idx).drop self.currentDecidedIdx)).1 }
      (sent ++ (exec (applyCommand self.id) self.database
        ((log.take idx).drop self.currentDecidedIdx)).2) := by
  constructor
  · exact h.id_eq
  · rw [commandMessages_append, commandMessages_exec, h.id_eq]
    exact h.caughtUp.advance rfl

theorem Replicates.handleClusterMessages (h : Replicates log id self sent)
    (batch : List (NodeId × Event)) :
    ∃ self' sent' received,
      self.handleClusterMessages (messages log batch) = some (self', sent', received) ∧
        Replicates log id self' (sent ++ sent') := by
  obtain ⟨self', sent', received, hhandle, hP⟩ := handleClusterMessages_rule log
    (fun server server' sent' => ∀ sent, Replicates log id server sent →
      Replicates log id server' (sent ++ sent'))
    (fun server sent h => by rwa [List.append_nil])
    (fun hfirst hsecond sent h => by
      rw [← List.append_assoc]
      exact hsecond _ (hfirst sent h))
    (fun server idx => ⟨_, _, handleDecidedEntries_decidedView server log idx,
      fun sent h => h.decided idx⟩)
    (fun server startTime sent h => h.startSignals startTime) self batch
  exact ⟨self', sent', received, hhandle, hP sent h⟩

end Replicates

structure Replica where
  server : OmniPaxosServer
  sent : Sent

def start (numClients : NodeId → Nat) (id : NodeId) : Replica :=
  ⟨OmniPaxosServer.new id (numClients id), []⟩

inductive Action where
  | clusterMessages (id : NodeId) (batch : List (NodeId × Event))
  | clientStartSignals (id : NodeId) (startTime : Timestamp)

def step (log : List Command) (s : NodeId → Replica) : Action → Option (NodeId → Replica)
  | .clusterMessages id batch =>
    ((s id).server.handleClusterMessages (messages log batch)).map (fun (server, sent, _) =>
      Function.update s id ⟨server, (s id).sent ++ sent⟩)
  | .clientStartSignals id startTime =>
    some (Function.update s id
      ⟨(s id).server, (s id).sent ++ (s id).server.clientStartSignals startTime⟩)

theorem step_replicates {log : List Command} {s : NodeId → Replica}
    (h : ∀ id, Replicates log id (s id).server (s id).sent) (a : Action) :
    ∃ t, step log s a = some t ∧ ∀ id, Replicates log id (t id).server (t id).sent := by
  cases a with
  | clusterMessages id batch =>
    obtain ⟨self', sent', received, hhandle, h'⟩ := (h id).handleClusterMessages batch
    refine ⟨_, by rw [step, hhandle]; rfl, ?_⟩
    apply (Function.forall_update_iff s
      (fun id (r : Replica) => Replicates log id r.server r.sent)).mpr
    exact ⟨h', fun id' _ => h id'⟩
  | clientStartSignals id startTime =>
    refine ⟨_, rfl, ?_⟩
    apply (Function.forall_update_iff s
      (fun id (r : Replica) => Replicates log id r.server r.sent)).mpr
    exact ⟨(h id).startSignals startTime, fun id' _ => h id'⟩

theorem run_replicates {log : List Command} {s : NodeId → Replica}
    (h : ∀ id, Replicates log id (s id).server (s id).sent) (acts : List Action) :
    ∃ t, run (step log) s acts = some t ∧ ∀ id, Replicates log id (t id).server (t id).sent := by
  induction acts generalizing s with
  | nil => exact ⟨s, rfl, h⟩
  | cons a acts ih =>
    obtain ⟨t, ht, h⟩ := step_replicates h a
    obtain ⟨u, hu, h⟩ := ih h
    exact ⟨u, run_cons_eq_some.mpr ⟨t, ht, hu⟩, h⟩

theorem exec_applyCommand (id : NodeId) (database : Database) (log : List Command) :
    (exec (applyCommand id) database log).1 = database.replay log := by
  induction log generalizing database with
  | nil => rfl
  | cons command log ih =>
    rw [exec_cons, ih]
    rfl

def messageOf (log : List Command) (command : Command) (n : Nat) : ClientId × ServerMessage :=
  (command.clientId, match command.kvCmd with
    | .get key => .read command.id ((Database.new.replay (log.take n)).db.lookup key)
    | .put _ _ | .delete _ => .write command.id)

def messagesOf (id : NodeId) (log : List Command) : Sent :=
  (log.zipIdx.filter (fun (command, _) => command.coordinatorId = id)).map (fun (command, n) =>
    messageOf log command n)

theorem exec_messagesOf (id : NodeId) (log : List Command) :
    (exec (applyCommand id) Database.new log).2 = messagesOf id log := by
  have hentry : ∀ (command : Command) (n : Nat),
      (applyCommand id (exec (applyCommand id) Database.new (log.take n)).1 command).2 =
        if command.coordinatorId = id then [messageOf log command n] else [] := by
    intro command n
    rw [exec_applyCommand, applyCommand, messageOf]
    cases command.kvCmd <;> rfl
  rw [exec_outputs, messagesOf]
  simp only [hentry]
  induction log.zipIdx with
  | nil => rfl
  | cons p ps ih =>
    obtain ⟨command, n⟩ := p
    by_cases hid : command.coordinatorId = id
    · simp [hid, ih]
    · simp [hid, ih]

def reported (batch : List (NodeId × Event)) : List Nat :=
  batch.filterMap (fun
    | (_, .decided idx) => some idx
    | (_, .startSignal _) => none)

def reports (id : NodeId) (acts : List Action) : List Nat :=
  acts.flatMap (fun
    | .clusterMessages id' batch => if id' = id then reported batch else []
    | .clientStartSignals _ _ => [])

theorem handleClusterMessages_currentDecidedIdx {log : List Command} {self : OmniPaxosServer}
    {batch : List (NodeId × Event)} {r : OmniPaxosServer × Sent × Bool}
    (h : self.handleClusterMessages (messages log batch) = some r) :
    r.1.currentDecidedIdx = (reported batch).foldl max self.currentDecidedIdx := by
  induction batch generalizing self r with
  | nil =>
    cases h
    rfl
  | cons m batch ih =>
    obtain ⟨sender, event⟩ := m
    cases event with
    | decided idx =>
      have hcons : messages log ((sender, .decided idx) :: batch) =
          (sender, .omniPaxosMessage (decidedView log idx)) :: messages log batch := rfl
      rw [hcons, OmniPaxosServer.handleClusterMessages, handleDecidedEntries_decidedView] at h
      simp only [Option.bind_eq_bind, Option.bind_some, Option.bind_eq_some_iff, Option.pure_def,
        Option.some.injEq] at h
      obtain ⟨r', hrest, rfl⟩ := h
      exact ih hrest
    | startSignal startTime =>
      have hcons : messages log ((sender, .startSignal startTime) :: batch) =
          (sender, .leaderStartSignal startTime) :: messages log batch := rfl
      rw [hcons, OmniPaxosServer.handleClusterMessages] at h
      simp only [Option.bind_eq_bind, Option.bind_eq_some_iff, Option.pure_def,
        Option.some.injEq] at h
      obtain ⟨r', hrest, rfl⟩ := h
      have hlater := ih hrest
      exact hlater

theorem step_currentDecidedIdx {log : List Command} {s t : NodeId → Replica} {a : Action}
    (h : step log s a = some t) (id : NodeId) : (t id).server.currentDecidedIdx =
      (reports id [a]).foldl max (s id).server.currentDecidedIdx := by
  cases a with
  | clusterMessages id' batch =>
    obtain ⟨r, hhandle, rfl⟩ := Option.map_eq_some_iff.mp h
    by_cases hid : id' = id
    · subst hid
      simpa [reports] using handleClusterMessages_currentDecidedIdx hhandle
    · simp [reports, hid, Function.update_of_ne (Ne.symm hid)]
  | clientStartSignals id' startTime =>
    cases h
    by_cases hid : id' = id
    · subst hid
      simp [reports]
    · simp [reports, Function.update_of_ne (Ne.symm hid)]

theorem run_currentDecidedIdx {log : List Command} {s t : NodeId → Replica} {acts : List Action}
    (h : run (step log) s acts = some t) (id : NodeId) : (t id).server.currentDecidedIdx =
      (reports id acts).foldl max (s id).server.currentDecidedIdx := by
  induction acts generalizing s with
  | nil =>
    cases h
    rfl
  | cons a acts ih =>
    obtain ⟨u, hu, hrest⟩ := run_cons_eq_some.mp h
    have hcons : reports id (a :: acts) = reports id [a] ++ reports id acts := by
      simp [reports]
    rw [ih hrest, step_currentDecidedIdx hu id, hcons, List.foldl_append]

/-- Whatever batches reach the servers, each has applied the first `current_decided_idx`
entries of the log and has sent the messages they call for, and that index is the highest that
OmniPaxos has reported. A batch cut short is a batch, so this holds after each call of
`handle_decided_entries`. -/
theorem servers_replicate (log : List Command) (numClients : NodeId → Nat)
    (acts : List Action) :
    ∃ s, run (step log) (start numClients) acts = some s ∧
      (∀ id, (s id).server.database =
          Database.new.replay (log.take (s id).server.currentDecidedIdx) ∧
        commandMessages (s id).sent =
          messagesOf id (log.take (s id).server.currentDecidedIdx)) ∧
      (∀ id id', (s id).server.currentDecidedIdx = (s id').server.currentDecidedIdx →
        (s id).server.database = (s id').server.database) ∧
      ∀ id, (s id).server.currentDecidedIdx = (reports id acts).foldl max 0 := by
  obtain ⟨s, hs, h⟩ := run_replicates
    (fun id => (⟨rfl, CaughtUp.start _ _ _⟩ :
      Replicates log id (start numClients id).server (start numClients id).sent)) acts
  have hdatabase : ∀ id, (s id).server.database =
      Database.new.replay (log.take (s id).server.currentDecidedIdx) := by
    intro id
    rw [← exec_applyCommand id, (h id).caughtUp]
  have hsent : ∀ id, commandMessages (s id).sent =
      messagesOf id (log.take (s id).server.currentDecidedIdx) := by
    intro id
    rw [← exec_messagesOf, (h id).caughtUp]
  refine ⟨s, hs, fun id => ⟨hdatabase id, hsent id⟩, fun id id' hidx => ?_,
    fun id => run_currentDecidedIdx hs id⟩
  rw [hdatabase, hdatabase, hidx]

end OmniPaxosJepsen.ServerReplication
