import OmniPaxosJepsen.LoggedHistory
import OmniPaxosJepsen.SessionIds

namespace OmniPaxosJepsen.SessionHistory

open Common Server Machine Runs Flight ServerReplication ClientLoop SessionIds EventHistory
  LoggedHistory
open Sessions (Session Request Deployment requestOf answers within)

/-- What the clients see, in the order in which it happens: the requests that they send
and the messages of the servers that they handle. -/
inductive Observed where
  | request (session : Session) (msg : ClientMessage)
  | response (session : Session) (msg : ServerMessage)
  deriving DecidableEq

def observe (s t : Deployment) : Sessions.Action → List Observed
  | .requestTick _ _ _ | .intervalTick _ =>
    (t.requests.drop s.requests.length).map (fun m => .request m.1 m.2)
  | .deliver i _ => s.responses[i]?.toList.map (fun m => .response m.1 m.2)
  | _ => []

structure Watched where
  deployment : Deployment
  history : List Observed

def start (numClients : NodeId → Nat) (connected : Session → Bool)
    (intervals : Session → List RequestInterval) : Watched :=
  ⟨Sessions.init numClients connected intervals, []⟩

def step (s : Watched) (a : Sessions.Action) : Option Watched :=
  (Sessions.step s.deployment a).map (fun t => ⟨t, s.history ++ observe s.deployment t a⟩)

def call : Observed → Option (Request × KVCommand)
  | .request session (.append id kvCmd) => some ((session, id), kvCmd)
  | .response _ _ => none

def result : ServerMessage → Option (CommandId × Option (Option String))
  | .write id => some (id, none)
  | .read id value => some (id, some value)
  | .startSignal _ => none

def ret : Observed → Option (Request × Option (Option String))
  | .request _ _ => none
  | .response session msg => (result msg).map (fun r => ((session, r.1), r.2))

def entry (command : Command) : Request × KVCommand := (entryRequest command, command.kvCmd)

theorem replay_entry (database : Database) (log : List Command) :
    LoggedHistory.replay Database.handleCommand database (log.map entry) =
      database.replay log := by
  rw [LoggedHistory.replay, List.foldl_map]
  rfl

def Reply (log : List Command) (a : Request × Option (Option String)) : Prop :=
  ∃ (k : Nat) (command : Command), log[k]? = some command ∧
    a = (entryRequest command,
      ((Database.new.replay (log.take k)).handleCommand command.kvCmd).2)

theorem Reply.of_beginning {log log' : List Command} (hlog : log <+: log')
    {a : Request × Option (Option String)} (h : Reply log a) : Reply log' a := by
  obtain ⟨rest, rfl⟩ := hlog
  obtain ⟨k, command, hk, ha⟩ := h
  have hlt := (List.getElem?_eq_some_iff.mp hk).1
  refine ⟨k, command, ?_, ?_⟩
  · rw [List.getElem?_append_left hlt, hk]
  · rw [List.take_append_of_le_length (Nat.le_of_lt hlt), ha]

structure Synced (log : List Command) (server : OmniPaxosServer) : Prop where
  le : server.currentDecidedIdx ≤ log.length
  caughtUp : ∃ out, CaughtUp (applyCommand server.id) Database.new log
    server.currentDecidedIdx server.database out

theorem Synced.append {log : List Command} {server : OmniPaxosServer} (h : Synced log server)
    (rest : List Command) : Synced (log ++ rest) server := by
  obtain ⟨out, hout⟩ := h.caughtUp
  refine ⟨?_, out, ?_⟩
  · rw [List.length_append]
    exact Nat.le_add_right_of_le h.le
  · unfold CaughtUp at *
    rwa [List.take_append_of_le_length h.le]

theorem reply_of_messagesOf {id : NodeId} {log : List Command} {m : ClientId × ServerMessage}
    (hm : m ∈ messagesOf id log) {a : Request × Option (Option String)}
    (ha : ret (.response (id, m.1) m.2) = some a) : Reply log a := by
  obtain ⟨⟨command, n⟩, hmem, rfl⟩ := List.mem_map.mp hm
  obtain ⟨hzip, hcoord⟩ := List.mem_filter.mp hmem
  have hcoord : command.coordinatorId = id := of_decide_eq_true hcoord
  refine ⟨n, command, List.mem_zipIdx_iff_getElem?.mp hzip, ?_⟩
  simp only [ret, messageOf] at ha
  cases hcmd : command.kvCmd with
  | put key value | delete key | get key =>
    simp only [hcmd, result, Option.map_some, Option.some.injEq] at ha
    rw [← ha, entryRequest, hcoord]
    rfl

/-- A server goes on to `server'`, still in step with the log, and passes replies of the
log to `send_to_client`. -/
structure Goes (log : List Command) (server server' : OmniPaxosServer) (sent : Sent) : Prop where
  id_eq : server'.id = server.id
  synced : Synced log server → Synced log server'
  replies : Synced log server → ∀ m ∈ sent, ∀ a,
    ret (.response (server.id, m.1) m.2) = some a → Reply log a

theorem Goes.refl (log : List Command) (server : OmniPaxosServer) : Goes log server server [] :=
  ⟨rfl, id, by simp⟩

theorem Goes.trans {log : List Command} {server server' server'' : OmniPaxosServer}
    {sent sent' : Sent} (h : Goes log server server' sent)
    (h' : Goes log server' server'' sent') : Goes log server server'' (sent ++ sent') := by
  refine ⟨h'.id_eq.trans h.id_eq, fun hs => h'.synced (h.synced hs), fun hs m hm a ha => ?_⟩
  obtain hm | hm := List.mem_append.mp hm
  · exact h.replies hs m hm a ha
  · rw [← h.id_eq] at ha
    exact h'.replies (h.synced hs) m hm a ha

theorem goes_startSignals (log : List Command) (server : OmniPaxosServer)
    (startTime : Timestamp) : Goes log server server (server.clientStartSignals startTime) := by
  refine ⟨rfl, id, fun _ m hm a ha => ?_⟩
  obtain ⟨n, _, rfl⟩ := List.mem_map.mp hm
  simp [ret, result] at ha

theorem goes_handleDecidedEntries (log : List Command) (server : OmniPaxosServer) {idx : Nat}
    (hidx : idx ≤ log.length) : ∃ server' sent,
      server.handleDecidedEntries (decidedView log idx) = some (server', sent) ∧
        Goes log server server' sent := by
  refine ⟨_, _, handleDecidedEntries_decidedView server log idx, rfl, fun hs => ?_,
    fun hs m hm a ha => ?_⟩
  · obtain ⟨out, hout⟩ := hs.caughtUp
    exact ⟨Nat.max_le.mpr ⟨hs.le, hidx⟩, _, hout.advance rfl⟩
  · obtain ⟨out, hout⟩ := hs.caughtUp
    have hall : CaughtUp _ _ _ (max server.currentDecidedIdx idx) _ _ := hout.advance rfl
    have hmem : m ∈ messagesOf server.id (log.take (max server.currentDecidedIdx idx)) := by
      rw [← exec_messagesOf, hall]
      exact List.mem_append_right _ hm
    exact (reply_of_messagesOf hmem ha).of_beginning (List.take_prefix _ log)

/-- What holds of each event of a batch, and can be chained, holds of the batch. -/
theorem goes_handleClusterMessages (log : List Command) (server : OmniPaxosServer)
    {batch : List (NodeId × ServerReplication.Event)}
    (hbatch : ∀ m ∈ batch, within log m.2 = true) :
    ∃ server' sent received,
      server.handleClusterMessages (messages log batch) = some (server', sent, received) ∧
        Goes log server server' sent := by
  induction batch generalizing server with
  | nil => exact ⟨server, [], false, rfl, Goes.refl log server⟩
  | cons m batch ih =>
    obtain ⟨sender, event⟩ := m
    have hrest := fun server => ih server (fun m hm => hbatch m (List.mem_cons_of_mem _ hm))
    cases event with
    | decided idx =>
      have hidx : idx ≤ log.length := of_decide_eq_true (hbatch _ List.mem_cons_self)
      obtain ⟨server', sent, hhandle, hfirst⟩ := goes_handleDecidedEntries log server hidx
      obtain ⟨server'', sent', received, hlater, hsecond⟩ := hrest server'
      refine ⟨server'', sent ++ sent', received, ?_, hfirst.trans hsecond⟩
      have hcons : messages log ((sender, .decided idx) :: batch) =
          (sender, .omniPaxosMessage (decidedView log idx)) :: messages log batch := rfl
      simp [hcons, OmniPaxosServer.handleClusterMessages, hhandle, hlater]
    | startSignal startTime =>
      obtain ⟨server', sent', received, hlater, hsecond⟩ := hrest server
      refine ⟨server', server.clientStartSignals startTime ++ sent', true, ?_,
        (goes_startSignals log server startTime).trans hsecond⟩
      have hcons : messages log ((sender, .startSignal startTime) :: batch) =
          (sender, .leaderStartSignal startTime) :: messages log batch := rfl
      simp [hcons, OmniPaxosServer.handleClusterMessages, hlater]

/-- The log explains what the clients have seen, and what is in flight fits both. -/
structure Explained (s : Watched) : Prop where
  logged : Logged call ret Database.handleCommand Database.new s.history
    (s.deployment.log.map entry)
  sent : ∀ (i : Nat) c, s.history[i]?.bind call = some c → c.1 ∈ s.deployment.sent
  handled : ∀ (j : Nat) a, s.history[j]?.bind ret = some a → a.1 ∈ s.deployment.handled
  requests : ∀ m ∈ s.deployment.requests, ∀ c, call (.request m.1 m.2) = some c →
    ∃ i : Nat, s.history[i]?.bind call = some c
  proposed : ∀ command ∈ s.deployment.proposed,
    ∃ i : Nat, s.history[i]?.bind call = some (entry command)
  fresh : ∀ x, s.deployment.requests.countP (fun m => requestOf m = x) +
    s.deployment.proposed.countP (fun command => entryRequest command = x) +
    s.deployment.log.countP (fun command => entryRequest command = x) ≤
      s.deployment.sent.count x
  synced : ∀ id, Synced s.deployment.log (s.deployment.servers id)
  replies : ∀ m ∈ s.deployment.responses, ∀ a, ret (.response m.1 m.2) = some a →
    Reply s.deployment.log a

theorem explained_start (numClients : NodeId → Nat) (connected : Session → Bool)
    (intervals : Session → List RequestInterval) :
    Explained (start numClients connected intervals) := by
  refine ⟨logged_nil, by simp [start], by simp [start], by simp [start, Sessions.init],
    by simp [start, Sessions.init], by simp [start, Sessions.init], fun id => ⟨?_, [], ?_⟩,
    by simp [start, Sessions.init]⟩
  · exact Nat.zero_le _
  · exact CaughtUp.start _ _ _

theorem answers_of_ret {m : Session × ServerMessage} {a : Request × Option (Option String)}
    (h : ret (.response m.1 m.2) = some a) : answers m = some a.1 := by
  obtain ⟨session, msg⟩ := m
  cases msg with
  | write id | read id value =>
    cases h
    rfl
  | startSignal startTime => cases h

section Steps

variable {s : Watched}

theorem Explained.lose (h : Explained s) (clients : Session → Option Client)
    {requests : List (Session × ClientMessage)} {responses : List (Session × ServerMessage)}
    (hrequests : requests.Sublist s.deployment.requests)
    (hresponses : responses.Sublist s.deployment.responses) :
    Explained ⟨{ s.deployment with
        clients := clients
        requests := requests
        responses := responses }, s.history⟩ := by
  refine ⟨h.logged, h.sent, h.handled, fun m hm => h.requests m (hrequests.subset hm), h.proposed,
    fun x => ?_, h.synced, fun m hm => h.replies m (hresponses.subset hm)⟩
  have hold := h.fresh x
  have hle := hrequests.countP_le (p := fun m => requestOf m = x)
  simp only
  omega

theorem Explained.request (h : Explained s) {m : Session × ClientMessage}
    (clients : Session → Option Client) (hnew : requestOf m ∉ s.deployment.sent) :
    Explained ⟨{ s.deployment with
        clients := clients
        requests := s.deployment.requests ++ [m]
        sent := s.deployment.sent ++ [requestOf m] },
      s.history ++ [.request m.1 m.2]⟩ := by
  obtain ⟨session, id, kvCmd⟩ := m
  refine ⟨h.logged.event (fun c hc i c' hi heq => ?_) (fun a ha => ?_), fun i c hi => ?_,
    fun j a hj => ?_, fun m hm c hc => ?_, fun command hcommand => ?_, fun x => ?_, h.synced,
    h.replies⟩
  · cases hc
    apply hnew
    have hsent := h.sent i c' hi
    rwa [heq] at hsent
  · cases ha
  · obtain hi | ⟨_, hc⟩ := event_concat.mp hi
    · exact List.mem_append_left _ (h.sent i c hi)
    · cases hc
      exact List.mem_append_right _ (List.mem_singleton_self _)
  · obtain hj | ⟨_, ha⟩ := event_concat.mp hj
    · exact h.handled j a hj
    · cases ha
  · obtain hm | hm := List.mem_append.mp hm
    · obtain ⟨i, hi⟩ := h.requests m hm c hc
      exact ⟨i, event_concat.mpr (.inl hi)⟩
    · obtain rfl := List.mem_singleton.mp hm
      exact ⟨s.history.length, event_concat.mpr (.inr ⟨rfl, hc⟩)⟩
  · obtain ⟨i, hi⟩ := h.proposed command hcommand
    exact ⟨i, event_concat.mpr (.inl hi)⟩
  · have hold := h.fresh x
    simp only [List.countP_append, List.count_append, List.countP_singleton, List.count_singleton,
      decide_eq_true_eq, beq_iff_eq]
    omega

theorem Explained.response (h : Explained s) {m : Session × ServerMessage} {i : Nat}
    (clients : Session → Option Client) (hm : s.deployment.responses[i]? = some m)
    (hnew : ∀ x, answers m = some x → x ∉ s.deployment.handled) :
    Explained ⟨{ s.deployment with
        clients := clients
        responses := s.deployment.responses.eraseIdx i
        handled := s.deployment.handled ++ (answers m).toList },
      s.history ++ [.response m.1 m.2]⟩ := by
  refine ⟨h.logged.event (fun c hc => ?_) (fun a ha => ⟨fun j a' hj heq => ?_, ?_⟩),
    fun i c hi => ?_, fun j a hj => ?_, fun m' hm' c hc => ?_, fun command hcommand => ?_, h.fresh,
    h.synced, fun m' hm' => h.replies m' (List.mem_of_mem_eraseIdx hm')⟩
  · cases hc
  · have hhandled := h.handled j a' hj
    rw [heq] at hhandled
    exact hnew a.1 (answers_of_ret ha) hhandled
  · obtain ⟨k, command, hk, rfl⟩ := h.replies m (List.mem_of_getElem? hm) a ha
    refine ⟨k, entry command, by rw [List.getElem?_map, hk, Option.map_some], ?_⟩
    rw [← List.map_take, replay_entry]
    rfl
  · obtain hi | ⟨_, hc⟩ := event_concat.mp hi
    · exact h.sent i c hi
    · cases hc
  · obtain hj | ⟨_, ha⟩ := event_concat.mp hj
    · exact List.mem_append_left _ (h.handled j a hj)
    · simp [answers_of_ret ha]
  · obtain ⟨i, hi⟩ := h.requests m' hm' c hc
    exact ⟨i, event_concat.mpr (.inl hi)⟩
  · obtain ⟨i, hi⟩ := h.proposed command hcommand
    exact ⟨i, event_concat.mpr (.inl hi)⟩

theorem Explained.serve (h : Explained s) {session : Session} {id : CommandId}
    {kvCmd : KVCommand} {i : Nat} (hid : (s.deployment.servers session.1).id = session.1)
    (hm : s.deployment.requests[i]? = some (session, .append id kvCmd)) :
    Explained ⟨{ s.deployment with
        requests := s.deployment.requests.eraseIdx i
        proposed := s.deployment.proposed ++
          [(s.deployment.servers session.1).appendToLog session.2 id kvCmd] }, s.history⟩ := by
  have hentry : entry ((s.deployment.servers session.1).appendToLog session.2 id kvCmd) =
      ((session, id), kvCmd) := by
    simp [entry, entryRequest, OmniPaxosServer.appendToLog, hid]
  refine ⟨h.logged, h.sent, h.handled,
    fun m hm' => h.requests m (List.mem_of_mem_eraseIdx hm'), fun command hcommand => ?_,
    fun x => ?_, h.synced, h.replies⟩
  · obtain hold | hnew := List.mem_append.mp hcommand
    · exact h.proposed command hold
    · rw [List.mem_singleton.mp hnew, hentry]
      exact h.requests _ (List.mem_of_getElem? hm) _ rfl
  · have hold := h.fresh x
    have herase := countP_eraseIdx (fun m => requestOf m = x) hm
    have hrequest : requestOf (session, .append id kvCmd) = (session, id) := rfl
    have hname := congrArg Prod.fst hentry
    simp only [entry] at hname
    simp only [List.countP_append, List.countP_singleton, hname]
    rw [hrequest] at herase
    omega

theorem Explained.decide (h : Explained s) (hdistinct : s.deployment.sent.Nodup) {i : Nat}
    {command : Command} (hcommand : s.deployment.proposed[i]? = some command) :
    Explained ⟨{ s.deployment with
        proposed := s.deployment.proposed.eraseIdx i
        log := s.deployment.log ++ [command] }, s.history⟩ := by
  have herase := fun x => countP_eraseIdx (fun command => entryRequest command = x) hcommand
  refine ⟨?_, h.sent, h.handled, h.requests,
    fun command' hmem => h.proposed command' (List.mem_of_mem_eraseIdx hmem), fun x => ?_,
    fun id => (h.synced id).append [command],
    fun m hm a ha => (h.replies m hm a ha).of_beginning (List.prefix_append _ _)⟩
  · rw [List.map_append, List.map_singleton]
    refine h.logged.entry (h.proposed command (List.mem_of_getElem? hcommand)) (fun hmem => ?_)
    -- the name was sent once, so it is not both proposed and in the log
    obtain ⟨_, hlogged, heq⟩ := List.mem_map.mp hmem
    obtain ⟨command', hmem', rfl⟩ := List.mem_map.mp hlogged
    have hpos : 0 < s.deployment.log.countP
        (fun command' => entryRequest command' = entryRequest command) :=
      List.countP_pos_iff.mpr ⟨command', hmem', by simpa [entry] using heq⟩
    have hold := h.fresh (entryRequest command)
    have hone := List.nodup_iff_count_le_one.mp hdistinct (entryRequest command)
    have hthis := herase (entryRequest command)
    simp only [decide_true, ↓reduceIte] at hthis
    omega
  · have hold := h.fresh x
    have hthis := herase x
    simp only [List.countP_append, List.countP_singleton]
    omega

theorem Explained.disconnect (h : Explained s) (session : Session) :
    Explained ⟨{ s.deployment with
        connected := Function.update s.deployment.connected session false }, s.history⟩ :=
  ⟨h.logged, h.sent, h.handled, h.requests, h.proposed, h.fresh, h.synced, h.replies⟩

theorem Explained.respond (h : Explained s) {id : NodeId} {server : OmniPaxosServer}
    {sent : Sent} (hid : (s.deployment.servers id).id = id)
    (hgoes : Goes s.deployment.log (s.deployment.servers id) server sent) :
    Explained ⟨({ s.deployment with
        servers := Function.update s.deployment.servers id server }).respond id sent,
      s.history⟩ := by
  refine ⟨h.logged, h.sent, h.handled, h.requests, h.proposed, h.fresh, fun id' => ?_,
    fun m hm a ha => ?_⟩
  · simp only [Deployment.respond]
    by_cases heq : id' = id
    · subst heq
      rw [Function.update_self]
      exact hgoes.synced (h.synced id')
    · rw [Function.update_of_ne heq]
      exact h.synced id'
  · obtain hm | hm := List.mem_append.mp hm
    · exact h.replies m hm a ha
    · obtain ⟨m', hm', rfl⟩ := List.mem_map.mp hm
      refine hgoes.replies (h.synced id) m' (List.mem_of_mem_filter hm') a ?_
      rwa [hid]

/-- One step keeps what the clients have seen explained by the log. -/
theorem step_explained {t : Watched} {a : Sessions.Action} (hmatched : Matched s.deployment)
    (h : Explained s) (hstep : step s a = some t) : Explained t := by
  obtain ⟨u, hu, rfl⟩ := Option.map_eq_some_iff.mp hstep
  have hmatched' := step_matched hmatched hu
  cases a with
  | requestTick session isWrite now =>
    obtain ⟨client, hclient, rfl⟩ := requestTick_next hu
    have hname : requestOf ((client.activeServer, session.2), (client.sendRequest isWrite now).2) =
        ((client.activeServer, session.2), client.nextRequestId) := rfl
    have hnew : requestOf ((client.activeServer, session.2),
        (client.sendRequest isWrite now).2) ∉ s.deployment.sent := by
      intro hmem
      have hdisjoint := (List.nodup_append'.mp hmatched'.distinct).2.2
      exact hdisjoint hmem (List.mem_singleton_self _)
    simpa [observe, hname] using h.request _ hnew
  | intervalTick session =>
    obtain ⟨client, client', _, _, _, _, _, rfl⟩ := intervalTick_next hu
    simpa [observe] using h.lose _ (List.Sublist.refl _) (List.Sublist.refl _)
  | deliver i now =>
    obtain ⟨m, client, client', hm, _, _, _, _, _, rfl⟩ := deliver_next hu
    have hnew : ∀ x, answers m = some x → x ∉ s.deployment.handled :=
      fun x hx => (hmatched.response (List.mem_of_getElem? hm) hx).2
    simpa [observe, hm] using h.response _ hm hnew
  | dropResponse i =>
    obtain ⟨m, hm, rfl⟩ := dropResponse_next hu
    simpa [observe] using h.lose s.deployment.clients (List.Sublist.refl _)
      (List.eraseIdx_sublist _ i)
  | disconnect session =>
    cases hu
    simpa [observe] using h.disconnect session
  | serve i =>
    obtain ⟨session, id, kvCmd, hm, rfl⟩ := serve_next hu
    simpa [observe] using h.serve (hmatched.ids session.1) hm
  | dropRequest i =>
    obtain ⟨m, hm, rfl⟩ := dropRequest_next hu
    simpa [observe] using h.lose s.deployment.clients (List.eraseIdx_sublist _ i)
      (List.Sublist.refl _)
  | decide i =>
    obtain ⟨command, hcommand, rfl⟩ := decide_next hu
    simpa [observe] using h.decide hmatched.distinct hcommand
  | clusterMessages id batch =>
    simp only [Sessions.step] at hu
    split at hu
    case isTrue hbatch =>
      obtain ⟨server, sent, received, hhandle, hgoes⟩ := goes_handleClusterMessages
        s.deployment.log (s.deployment.servers id) (List.all_eq_true.mp hbatch)
      simp only [hhandle, Option.bind_eq_bind, Option.bind_some, Option.pure_def,
        Option.some.injEq] at hu
      subst hu
      simpa [observe] using h.respond (hmatched.ids id) hgoes
    case isFalse => cases hu
  | clientStartSignals id startTime =>
    cases hu
    have hrespond := h.respond (hmatched.ids id)
      (goes_startSignals s.deployment.log (s.deployment.servers id) startTime)
    rw [Function.update_eq_self] at hrespond
    simpa [observe] using hrespond

end Steps

/-- Linearizability of the servers for their clients: whatever is lost, delayed or
reordered, what the clients send and the responses that they handle are linearizable. -/
theorem clients_linearizable {numClients : NodeId → Nat} {connected : Session → Bool}
    {intervals : Session → List RequestInterval} {acts : List Sessions.Action} {s : Watched}
    (hrun : run step (start numClients connected intervals) acts = some s) :
    Linearizable call ret Database.handleCommand Database.new s.history := by
  have hboth := run_invariant (fun s => Matched s.deployment ∧ Explained s)
    (fun s a t _ h hstep => by
      refine ⟨?_, step_explained h.1 h.2 hstep⟩
      obtain ⟨u, hu, rfl⟩ := Option.map_eq_some_iff.mp hstep
      exact step_matched h.1 hu)
    ⟨matched_init numClients connected intervals,
      explained_start numClients connected intervals⟩ hrun
  exact hboth.2.logged.linearizable

theorem clients_linearizable_oneAnswered :
    ∃ s, run step (start (fun _ => 1) (fun _ => true) (fun _ => [⟨10, 10⟩])) oneAnswered = some s ∧
      s.history = [.request (2, 1) (.append 0 (.put "0" "0")),
        .request (2, 1) (.append 1 (.get "1")), .response (2, 1) (.read 1 none)] ∧
      Linearizable call ret Database.handleCommand Database.new s.history := by
  have hhistory : (run step (start (fun _ => 1) (fun _ => true) (fun _ => [⟨10, 10⟩]))
      oneAnswered).map Watched.history = some [.request (2, 1) (.append 0 (.put "0" "0")),
        .request (2, 1) (.append 1 (.get "1")), .response (2, 1) (.read 1 none)] := by
    decide +kernel
  obtain ⟨s, hrun, hs⟩ := Option.map_eq_some_iff.mp hhistory
  exact ⟨s, hrun, hs, clients_linearizable hrun⟩

end OmniPaxosJepsen.SessionHistory
