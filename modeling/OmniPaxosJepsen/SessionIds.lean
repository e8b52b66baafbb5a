import Mathlib.Data.List.Count
import OmniPaxosJepsen.ClientStep
import OmniPaxosJepsen.Flight
import OmniPaxosJepsen.Sessions

namespace OmniPaxosJepsen.SessionIds

open Common Server Machine Runs Flight ClientLoop ClientStep Sessions

def entryRequest (command : Command) : Request :=
  ((command.coordinatorId, command.clientId), command.id)

theorem count_answers (m : Session × ServerMessage) (x : Request) :
    (answers m).toList.count x = if decide (answers m = some x) then 1 else 0 := by
  cases answers m <;> simp [List.count_cons]

def answersTo (id : NodeId) (sent : Sent) (x : Request) : Nat :=
  sent.countP (fun m => answers ((id, m.1), m.2) = some x)

def undone (log : List Command) (server : OmniPaxosServer) (x : Request) : Nat :=
  if x.1.1 = server.id then
    (log.drop server.currentDecidedIdx).countP (fun command => entryRequest command = x)
  else 0

theorem answersTo_append (id : NodeId) (sent sent' : Sent) (x : Request) :
    answersTo id (sent ++ sent') x = answersTo id sent x + answersTo id sent' x :=
  List.countP_append

theorem answersTo_startSignals (server : OmniPaxosServer) (startTime : Timestamp) (id : NodeId)
    (x : Request) : answersTo id (server.clientStartSignals startTime) x = 0 := by
  apply List.countP_eq_zero.mpr
  intro m hm
  obtain ⟨n, _, rfl⟩ := List.mem_map.mp hm
  simp [answers, ServerMessage.commandId]

/-- A server answers each entry that it applies and coordinates, and no other. -/
theorem answersTo_exec (id : NodeId) (database : Database) (commands : List Command)
    (x : Request) :
    answersTo id (exec (ServerReplication.applyCommand id) database commands).2 x =
      if x.1.1 = id then commands.countP (fun command => entryRequest command = x) else 0 := by
  induction commands generalizing database with
  | nil => simp [answersTo]
  | cons command commands ih =>
    have hresponse : ∀ read, (response command.id read).commandId = some command.id := by
      intro read
      cases read <;> rfl
    rw [exec_cons, answersTo_append, ih, List.countP_cons]
    simp only [ServerReplication.applyCommand]
    by_cases hcoord : command.coordinatorId = id
    · by_cases hx : x.1.1 = id
      · by_cases heq : entryRequest command = x
        · have hanswers : answers ((id, command.clientId), response command.id
              (database.handleCommand command.kvCmd).2) = some x := by
            rw [answers, hresponse, ← heq, entryRequest, hcoord]
            rfl
          simp [answersTo, hcoord, hx, heq, hanswers, Nat.add_comm]
        · have hanswers : answers ((id, command.clientId), response command.id
              (database.handleCommand command.kvCmd).2) ≠ some x := by
            intro h
            apply heq
            rw [answers, hresponse] at h
            rw [← Option.some.inj h, entryRequest, hcoord]
          simp [answersTo, hcoord, hx, heq, hanswers]
      · have hanswers : answers ((id, command.clientId), response command.id
            (database.handleCommand command.kvCmd).2) ≠ some x := by
          intro h
          apply hx
          rw [answers, hresponse] at h
          rw [← Option.some.inj h]
        simp [answersTo, hcoord, hx, hanswers]
    · by_cases hx : x.1.1 = id
      · have heq : entryRequest command ≠ x := by
          intro h
          apply hcoord
          rw [← hx, ← h]
          rfl
        simp [answersTo, hcoord, hx, heq]
      · simp [answersTo, hcoord, hx]

structure Passes (log : List Command) (server server' : OmniPaxosServer) (sent : Sent) :
    Prop where
  id_eq : server'.id = server.id
  answered : ∀ x, answersTo server.id sent x + undone log server' x ≤ undone log server x

theorem Passes.refl (log : List Command) (server : OmniPaxosServer) :
    Passes log server server [] := by
  constructor
  · rfl
  · intro x
    simp [answersTo]

theorem Passes.trans {log : List Command} {server server' server'' : OmniPaxosServer}
    {sent sent' : Sent} (h : Passes log server server' sent)
    (h' : Passes log server' server'' sent') : Passes log server server'' (sent ++ sent') := by
  constructor
  · rw [h'.id_eq, h.id_eq]
  · intro x
    have hfirst := h.answered x
    have hsecond := h'.answered x
    rw [h.id_eq] at hsecond
    rw [answersTo_append]
    omega

theorem passes_startSignals (log : List Command) (server : OmniPaxosServer)
    (startTime : Timestamp) : Passes log server server (server.clientStartSignals startTime) := by
  constructor
  · rfl
  · intro x
    rw [answersTo_startSignals, Nat.zero_add]

theorem passes_handleDecidedEntries (log : List Command) (server : OmniPaxosServer) (idx : Nat) :
    ∃ server' sent, server.handleDecidedEntries (ServerReplication.decidedView log idx) =
      some (server', sent) ∧ Passes log server server' sent := by
  refine ⟨_, _, ServerReplication.handleDecidedEntries_decidedView server log idx, rfl, ?_⟩
  intro x
  rw [answersTo_exec]
  by_cases hx : x.1.1 = server.id
  · simp only [undone, hx, ↓reduceIte, ← List.countP_append]
    rw [← drop_eq_append log server.currentDecidedIdx idx]
  · simp [undone, hx]

theorem passes_handleClusterMessages (log : List Command) (server : OmniPaxosServer)
    (batch : List (NodeId × ServerReplication.Event)) :
    ∃ server' sent received,
      server.handleClusterMessages (ServerReplication.messages log batch) =
        some (server', sent, received) ∧ Passes log server server' sent := by
  apply ServerReplication.handleClusterMessages_rule log (Passes log)
  · exact Passes.refl log
  · exact Passes.trans
  · exact passes_handleDecidedEntries log
  · exact passes_startSignals log

/-- The places where a request or its answer can be. -/
def outstanding (s : Deployment) (x : Request) : Nat :=
  s.requests.countP (fun m => requestOf m = x) +
    s.proposed.countP (fun command => entryRequest command = x) +
    undone s.log (s.servers x.1.1) x + s.responses.countP (fun m => answers m = some x) +
    s.handled.count x

/-- The rows of a client are its requests, and those with a response time were answered. -/
structure Rows (handled : List Request) (session : Session) (client : Client) : Prop where
  active : client.activeServer = session.1
  next : client.nextRequestId = client.clientData.requestData.length
  marked : ∀ i row, client.clientData.requestData[i]? = some row →
    (row.responseTime.isSome ↔ (session, i) ∈ handled)
  counted : client.clientData.responseCount =
    client.clientData.requestData.countP (fun row => row.responseTime.isSome)

/-- Every request is in at most one place, and every client has rows for its own. -/
structure Matched (s : Deployment) : Prop where
  ids : ∀ id, (s.servers id).id = id
  once : ∀ x, outstanding s x ≤ s.sent.count x
  distinct : s.sent.Nodup
  sent : ∀ x ∈ s.sent, ∃ client, s.clients x.1 = some client ∧ x.2 < client.nextRequestId
  rows : ∀ session client, s.clients session = some client → Rows s.handled session client

theorem matched_init (numClients : NodeId → Nat) (connected : Session → Bool)
    (intervals : Session → List RequestInterval) :
    Matched (init numClients connected intervals) := by
  refine ⟨fun id => rfl, fun x => ?_, List.nodup_nil, fun x hx => ?_, fun session client h => ?_⟩
  · simp [outstanding, init, undone]
  · simp [init] at hx
  · have hnew : Client.new session.1 (intervals session) = some client := h
    cases hi : intervals session with
    | nil => simp [hi, Client.new] at hnew
    | cons i is =>
      simp only [hi, Client.new, Option.bind_eq_bind, Option.bind_eq_some_iff, Option.pure_def,
        Option.some.injEq] at hnew
      obtain ⟨_, _, _, _, _, _, rfl⟩ := hnew
      constructor <;> simp [ClientData.new, init]

section Matched

variable {s t : Deployment}

theorem Matched.mem_sent (h : Matched s) {x : Request} (hx : 0 < outstanding s x) : x ∈ s.sent :=
  List.count_pos_iff.mp (Nat.lt_of_lt_of_le hx (h.once x))

theorem Matched.outstanding_le_one (h : Matched s) (x : Request) : outstanding s x ≤ 1 :=
  Nat.le_trans (h.once x) (List.nodup_iff_count_le_one.mp h.distinct x)

theorem Matched.entryRequest_append (h : Matched s) (session : Session) (id : CommandId)
    (kvCommand : KVCommand) : entryRequest
      ((s.servers session.1).appendToLog session.2 id kvCommand) = (session, id) := by
  simp [entryRequest, OmniPaxosServer.appendToLog, h.ids]

/-- A response in flight answers a request that was sent and not answered before. -/
theorem Matched.response (h : Matched s) {m : Session × ServerMessage} {x : Request}
    (hm : m ∈ s.responses) (hx : answers m = some x) : x ∈ s.sent ∧ x ∉ s.handled := by
  have hpos : 0 < s.responses.countP (fun m => answers m = some x) := by
    apply List.countP_pos_iff.mpr
    exact ⟨m, hm, by simp [hx]⟩
  constructor
  · apply h.mem_sent
    simp only [outstanding]
    omega
  · intro hhandled
    have hcount := List.count_pos_iff.mpr hhandled
    have hone := h.outstanding_le_one x
    simp only [outstanding] at hone
    omega

theorem Matched.of_servers (h : Matched s) (hclients : t.clients = s.clients)
    (hsent : t.sent = s.sent) (hhandled : t.handled = s.handled)
    (hids : ∀ id, (t.servers id).id = id) (honce : ∀ x, outstanding t x ≤ outstanding s x) :
    Matched t := by
  constructor
  · exact hids
  · intro x
    rw [hsent]
    exact Nat.le_trans (honce x) (h.once x)
  · rw [hsent]
    exact h.distinct
  · rw [hsent, hclients]
    exact h.sent
  · rw [hclients, hhandled]
    exact h.rows

theorem Matched.of_flight (h : Matched s) (hclients : t.clients = s.clients)
    (hservers : t.servers = s.servers) (hsent : t.sent = s.sent) (hhandled : t.handled = s.handled)
    (honce : ∀ x, outstanding t x ≤ outstanding s x) : Matched t := by
  apply h.of_servers hclients hsent hhandled
  · rw [hservers]
    exact h.ids
  · exact honce

theorem Matched.of_client (h : Matched s) {session : Session} {client client' : Client}
    (new : List Request) (hclient : s.clients session = some client)
    (hclients : t.clients = Function.update s.clients session (some client'))
    (hservers : t.servers = s.servers) (hnext : client.nextRequestId ≤ client'.nextRequestId)
    (hsent : t.sent = s.sent ++ new) (hdistinct : new.Nodup)
    (hnew : ∀ x ∈ new, x.1 = session ∧ client.nextRequestId ≤ x.2 ∧ x.2 < client'.nextRequestId)
    (hhandled : ∀ session' i, session' ≠ session →
      ((session', i) ∈ t.handled ↔ (session', i) ∈ s.handled))
    (hrows : Rows t.handled session client')
    (honce : ∀ x, outstanding t x ≤ outstanding s x + new.count x) : Matched t := by
  constructor
  · rw [hservers]
    exact h.ids
  · intro x
    have hold := h.once x
    have hstep := honce x
    rw [hsent, List.count_append]
    omega
  · rw [hsent]
    apply List.nodup_append'.mpr
    refine ⟨h.distinct, hdistinct, fun x hx hx' => ?_⟩
    obtain ⟨rfl, hle, _⟩ := hnew x hx'
    obtain ⟨c, hc, hlt⟩ := h.sent x hx
    rw [hclient] at hc
    cases hc
    exact absurd hlt (Nat.not_lt.mpr hle)
  · rw [hsent, hclients]
    intro x hx
    by_cases hsession : x.1 = session
    · refine ⟨client', by rw [hsession, Function.update_self], ?_⟩
      obtain hx | hx := List.mem_append.mp hx
      · obtain ⟨c, hc, hlt⟩ := h.sent x hx
        rw [hsession, hclient] at hc
        cases hc
        exact Nat.lt_of_lt_of_le hlt hnext
      · exact (hnew x hx).2.2
    · obtain hx | hx := List.mem_append.mp hx
      · rw [Function.update_of_ne hsession]
        exact h.sent x hx
      · exact absurd (hnew x hx).1 hsession
  · rw [hclients]
    intro session' c hc
    by_cases hsession : session' = session
    · subst hsession
      rw [Function.update_self] at hc
      cases hc
      exact hrows
    · rw [Function.update_of_ne hsession] at hc
      have hold := h.rows session' c hc
      refine ⟨hold.active, hold.next, fun i row hrow => ?_, hold.counted⟩
      rw [hhandled session' i hsession]
      exact hold.marked i row hrow

theorem Matched.of_quiet_client (h : Matched s) {session : Session} {client client' : Client}
    (hclient : s.clients session = some client)
    (hclients : t.clients = Function.update s.clients session (some client'))
    (hservers : t.servers = s.servers) (hnext : client'.nextRequestId = client.nextRequestId)
    (hsent : t.sent = s.sent) (hhandled : ∀ session' i, session' ≠ session →
      ((session', i) ∈ t.handled ↔ (session', i) ∈ s.handled))
    (hrows : Rows t.handled session client')
    (honce : ∀ x, outstanding t x ≤ outstanding s x) : Matched t := by
  apply h.of_client [] hclient hclients hservers
  · exact Nat.le_of_eq hnext.symm
  · rw [hsent, List.append_nil]
  · exact List.nodup_nil
  · intro x hx
    simp at hx
  · exact hhandled
  · exact hrows
  · exact honce

theorem Rows.of_data {handled : List Request} {session : Session} {client client' : Client}
    (h : Rows handled session client) (hdata : client'.clientData = client.clientData)
    (hactive : client'.activeServer = client.activeServer)
    (hnext : client'.nextRequestId = client.nextRequestId) : Rows handled session client' := by
  constructor
  · rw [hactive, h.active]
  · rw [hnext, hdata, h.next]
  · rw [hdata]
    exact h.marked
  · rw [hdata, h.counted]

theorem clientTurn_eq_some {session : Session} {event : ClientLoop.Event}
    {out : List (Session × ClientMessage)} :
    s.clientTurn session event = some (t, out) ↔ ∃ client client' sent,
      s.clients session = some client ∧ client.turn event = some (client', sent) ∧
      t = { s with clients := Function.update s.clients session (some client') } ∧
      out = sent.map (fun msg => ((client'.activeServer, session.2), msg)) := by
  simp only [Deployment.clientTurn, Option.bind_eq_bind, Option.bind_eq_some_iff, Option.pure_def,
    Option.some.injEq, Prod.exists, Prod.mk.injEq]
  constructor
  · rintro ⟨client, hclient, client', sent, hturn, rfl, rfl⟩
    exact ⟨client, client', sent, hclient, hturn, rfl, rfl⟩
  · rintro ⟨client, client', sent, hclient, hturn, rfl, rfl⟩
    exact ⟨client, hclient, client', sent, hturn, rfl, rfl⟩

theorem Rows.request {handled : List Request} {session : Session} {client : Client}
    (h : Rows handled session client)
    (hhandled : ∀ i, (session, i) ∈ handled → i < client.nextRequestId) (isWrite : Bool)
    (now : Timestamp) : Rows handled session (client.sendRequest isWrite now).1 := by
  constructor
  · exact h.active
  · simp [Client.sendRequest, ClientData.newRequest, h.next]
  · intro i row hrow
    simp only [Client.sendRequest, ClientData.newRequest, List.getElem?_append] at hrow
    split at hrow
    · exact h.marked i row hrow
    · rename_i hi
      rw [List.getElem?_singleton] at hrow
      split at hrow
      · cases hrow
        have hnot : (session, i) ∉ handled := by
          intro hmem
          have hlt := hhandled i hmem
          rw [h.next] at hlt
          exact hi hlt
        simp [hnot]
      · cases hrow
  · simp [Client.sendRequest, ClientData.newRequest, h.counted]

theorem Rows.response {handled : List Request} {session : Session} {client : Client}
    (h : Rows handled session client) {id : CommandId} {now : Timestamp} {data : ClientData}
    (hnew : (session, id) ∉ handled) (hdata : client.clientData.newResponse id now = some data) :
    Rows (handled ++ [(session, id)]) session { client with clientData := data } := by
  obtain ⟨hlt, rfl⟩ := newResponse_eq_some.mp hdata
  constructor
  · exact h.active
  · simp [h.next]
  · intro i row hrow
    obtain ⟨old, hold, hsome⟩ := answered_row hrow
    rw [hsome, h.marked i old hold, List.mem_append, List.mem_singleton, or_comm]
    simp
  · have hnone : (client.clientData.requestData[id]).responseTime = none := by
      have hmarked := h.marked id _ (List.getElem?_eq_getElem hlt)
      simpa [hnew] using hmarked
    simp only [h.counted, countP_answered now hlt hnone]

end Matched

section ClientSteps

variable {s t : Deployment} {session : Session} {isWrite : Bool} {now : Timestamp} {i : Nat}

theorem requestTick_next (h : step s (.requestTick session isWrite now) = some t) :
    ∃ client, s.clients session = some client ∧ t = { s with
      clients := Function.update s.clients session (some (client.sendRequest isWrite now).1)
      requests := s.requests ++
        [((client.activeServer, session.2), (client.sendRequest isWrite now).2)]
      sent := s.sent ++ [((client.activeServer, session.2), client.nextRequestId)] } := by
  simp only [step, Option.bind_eq_bind, Option.bind_eq_some_iff, Option.pure_def,
    Option.some.injEq, Prod.exists, clientTurn_eq_some] at h
  obtain ⟨_, _, ⟨client, client', sent, hclient, hturn, rfl, rfl⟩, rfl⟩ := h
  obtain ⟨_, ⟨_, _, hevent, _⟩ | ⟨_, _, _, _, hevent, _⟩ | ⟨_, _, hevent, _, rfl, rfl⟩ |
    ⟨_, _, _, _, hevent, _⟩ | ⟨hevent, _⟩⟩ := turn_cases hturn
  all_goals cases hevent
  exact ⟨client, hclient, rfl⟩

theorem intervalTick_next (h : step s (.intervalTick session) = some t) :
    ∃ client client', s.clients session = some client ∧
      client'.clientData = client.clientData ∧ client'.activeServer = client.activeServer ∧
      client'.nextRequestId = client.nextRequestId ∧ client'.intervals ⊆ client.intervals ∧
      t = { s with clients := Function.update s.clients session (some client') } := by
  simp only [step, Option.bind_eq_bind, Option.bind_eq_some_iff, Option.pure_def,
    Option.some.injEq, Prod.exists, clientTurn_eq_some] at h
  obtain ⟨_, _, ⟨client, client', sent, hclient, hturn, rfl, rfl⟩, rfl⟩ := h
  obtain ⟨_, ⟨_, _, hevent, _⟩ | ⟨_, _, _, _, hevent, _⟩ | ⟨_, _, hevent, _⟩ |
    ⟨_, _, _, _, hevent, rfl, hintervals, ht⟩ | ⟨hevent, rfl, _, ht⟩⟩ := turn_cases hturn
  all_goals cases hevent
  · refine ⟨client, client', hclient, by rw [ht], by rw [ht], by rw [ht], ?_, ?_⟩
    · rw [hintervals, ht]
      exact List.subset_cons_self _ _
    · simp only [List.map_nil, List.append_nil]
  · refine ⟨client, client', hclient, by rw [ht]; rfl, by rw [ht]; rfl, by rw [ht]; rfl,
      by rw [ht]; exact List.Subset.refl _, ?_⟩
    simp only [List.map_nil, List.append_nil]

theorem deliver_next (h : step s (.deliver i now) = some t) :
    ∃ m client client', s.responses[i]? = some m ∧ s.clients m.1 = some client ∧
      client'.activeServer = client.activeServer ∧
      client'.nextRequestId = client.nextRequestId ∧ client'.intervals = client.intervals ∧
      (m.2.commandId = none ∧ client'.clientData = client.clientData ∨
        ∃ id, m.2.commandId = some id ∧
          client.clientData.newResponse id now = some client'.clientData) ∧
      t = { s with
        clients := Function.update s.clients m.1 (some client')
        responses := s.responses.eraseIdx i
        handled := s.handled ++ (answers m).toList } := by
  simp only [step, Option.bind_eq_bind, Option.bind_eq_some_iff, Option.pure_def,
    Option.some.injEq] at h
  obtain ⟨m, hm, ⟨u, out⟩, hturn, rfl⟩ := h
  obtain ⟨client, client', sent, hclient, hmessage, rfl, rfl⟩ := clientTurn_eq_some.mp hturn
  refine ⟨m, client, client', hm, hclient, ?_⟩
  obtain ⟨_, ⟨_, _, hevent, _, rfl⟩ | ⟨_, _, id, data, hevent, _, hid, hdata, rfl⟩ |
    ⟨_, _, hevent, _⟩ | ⟨_, _, _, _, hevent, _⟩ | ⟨hevent, _⟩⟩ := turn_cases hmessage
  · have hnone : m.2.commandId = none := by
      injection hevent with hmsg
      rw [hmsg]
      rfl
    exact ⟨rfl, rfl, rfl, .inl ⟨hnone, rfl⟩, rfl⟩
  · injection hevent with hmsg hnow
    subst hmsg hnow
    exact ⟨rfl, rfl, rfl, .inr ⟨id, hid, hdata⟩, rfl⟩
  all_goals cases hevent

theorem dropResponse_next (h : step s (.dropResponse i) = some t) :
    ∃ m, s.responses[i]? = some m ∧ t = { s with responses := s.responses.eraseIdx i } := by
  simp only [step, Option.bind_eq_bind, Option.bind_eq_some_iff, Option.pure_def,
    Option.some.injEq] at h
  obtain ⟨m, hm, rfl⟩ := h
  exact ⟨m, hm, rfl⟩

theorem serve_next (h : step s (.serve i) = some t) : ∃ session id kvCommand,
    s.requests[i]? = some (session, .append id kvCommand) ∧ t = { s with
      requests := s.requests.eraseIdx i
      proposed := s.proposed ++
        [(s.servers session.1).appendToLog session.2 id kvCommand] } := by
  simp only [step, Option.bind_eq_bind, Option.bind_eq_some_iff, Option.pure_def,
    Option.some.injEq] at h
  obtain ⟨⟨session, ⟨id, kvCommand⟩⟩, hm, rfl⟩ := h
  exact ⟨session, id, kvCommand, hm, rfl⟩

theorem dropRequest_next (h : step s (.dropRequest i) = some t) :
    ∃ m, s.requests[i]? = some m ∧ t = { s with requests := s.requests.eraseIdx i } := by
  simp only [step, Option.bind_eq_bind, Option.bind_eq_some_iff, Option.pure_def,
    Option.some.injEq] at h
  obtain ⟨m, hm, rfl⟩ := h
  exact ⟨m, hm, rfl⟩

theorem decide_next (h : step s (.decide i) = some t) :
    ∃ command, s.proposed[i]? = some command ∧ t = { s with
      proposed := s.proposed.eraseIdx i, log := s.log ++ [command] } := by
  simp only [step, Option.bind_eq_bind, Option.bind_eq_some_iff, Option.pure_def,
    Option.some.injEq] at h
  obtain ⟨command, hcommand, rfl⟩ := h
  exact ⟨command, hcommand, rfl⟩

end ClientSteps

section Steps

variable {s t : Deployment}

theorem Matched.requestTick (h : Matched s) {session : Session} {isWrite : Bool}
    {now : Timestamp} (hstep : step s (.requestTick session isWrite now) = some t) :
    Matched t := by
  obtain ⟨client, hclient, rfl⟩ := requestTick_next hstep
  have hrows := h.rows session client hclient
  have hsession : (client.activeServer, session.2) = session := by rw [hrows.active]
  have hhandled : ∀ i, (session, i) ∈ s.handled → i < client.nextRequestId := by
    intro i hi
    have hpos : 0 < outstanding s (session, i) := by
      have hcount := List.count_pos_iff.mpr hi
      simp only [outstanding]
      omega
    obtain ⟨c, hc, hlt⟩ := h.sent _ (h.mem_sent hpos)
    rw [hclient] at hc
    cases hc
    exact hlt
  rw [hsession]
  apply h.of_client [(session, client.nextRequestId)] hclient
  · rfl
  · rfl
  · exact Nat.le_succ _
  · rfl
  · exact List.nodup_singleton _
  · intro x hx
    rw [List.mem_singleton.mp hx]
    exact ⟨rfl, Nat.le_refl _, Nat.lt_succ_self _⟩
  · intro session' i _
    exact Iff.rfl
  · exact hrows.request hhandled isWrite now
  · intro x
    have hcount : [(session, client.nextRequestId)].count x =
        [(session, (client.sendRequest isWrite now).2)].countP (fun m => requestOf m = x) := by
      by_cases hx : (session, client.nextRequestId) = x <;>
        simp [hx, requestOf, Client.sendRequest]
    rw [hcount]
    simp only [outstanding, List.countP_append]
    omega

theorem Matched.intervalTick (h : Matched s) {session : Session}
    (hstep : step s (.intervalTick session) = some t) : Matched t := by
  obtain ⟨client, client', hclient, hdata, hactive, hnext, _, rfl⟩ := intervalTick_next hstep
  have hrows := h.rows session client hclient
  refine h.of_quiet_client hclient rfl rfl hnext rfl ?_ ?_ ?_
  · intro session' i _
    exact Iff.rfl
  · exact hrows.of_data hdata hactive hnext
  · intro x
    exact Nat.le_refl _

theorem Matched.deliver (h : Matched s) {i : Nat} {now : Timestamp}
    (hstep : step s (.deliver i now) = some t) : Matched t := by
  obtain ⟨m, client, client', hm, hclient, hactive, hnext, _, hmsg, rfl⟩ := deliver_next hstep
  have hrows := h.rows m.1 client hclient
  refine h.of_quiet_client hclient rfl rfl hnext rfl ?_ ?_ ?_
  · intro session' id hsession
    cases hid : m.2.commandId <;> simp [answers, hid, hsession]
  · obtain ⟨hnone, hdata⟩ | ⟨id, hid, hdata⟩ := hmsg
    · have hanswers : answers m = none := by simp [answers, hnone]
      rw [hanswers, Option.toList_none, List.append_nil]
      exact hrows.of_data hdata hactive hnext
    · have hanswers : answers m = some (m.1, id) := by simp [answers, hid]
      have hnew := (h.response (List.mem_of_getElem? hm) hanswers).2
      have hresponse := hrows.response hnew hdata
      constructor
      · rw [hactive, hrows.active]
      · rw [hnext]
        exact hresponse.next
      · rw [hanswers]
        exact hresponse.marked
      · exact hresponse.counted
  · intro x
    have herase := countP_eraseIdx (fun m => answers m = some x) hm
    simp only [outstanding, List.count_append, count_answers]
    omega

theorem Matched.respond (h : Matched s) {id : NodeId} {server : OmniPaxosServer} {sent : Sent}
    (hpasses : Passes s.log (s.servers id) server sent) :
    Matched ({ s with servers := Function.update s.servers id server }.respond id sent) := by
  have hserver : server.id = id := by rw [hpasses.id_eq, h.ids]
  apply h.of_servers
  · rfl
  · rfl
  · rfl
  · apply (Function.forall_update_iff s.servers (fun id server => server.id = id)).mpr
    exact ⟨hserver, fun id' _ => h.ids id'⟩
  · intro x
    have hanswered := hpasses.answered x
    have hresponses : ((sendToClients s.connected id sent).map (fun m => ((id, m.1), m.2))).countP
        (fun m => answers m = some x) ≤ answersTo id sent x := by
      rw [List.countP_map]
      exact List.filter_sublist.countP_le
    rw [h.ids] at hanswered
    simp only [outstanding, Deployment.respond, List.countP_append]
    by_cases hx : x.1.1 = id
    · subst hx
      rw [Function.update_self]
      omega
    · have hnone : answersTo id sent x = 0 := by
        have hundone : undone s.log (s.servers id) x = 0 := by simp [undone, h.ids, hx]
        omega
      rw [Function.update_of_ne hx]
      omega

theorem step_matched (h : Matched s) {a : Action} (hstep : step s a = some t) : Matched t := by
  cases a with
  | requestTick session isWrite now => exact h.requestTick hstep
  | intervalTick session => exact h.intervalTick hstep
  | deliver i now => exact h.deliver hstep
  | dropResponse i =>
    obtain ⟨m, hm, rfl⟩ := dropResponse_next hstep
    refine h.of_flight rfl rfl rfl rfl (fun x => ?_)
    have herase := countP_eraseIdx (fun m => answers m = some x) hm
    simp only [outstanding]
    omega
  | disconnect session =>
    cases hstep
    exact h.of_flight rfl rfl rfl rfl (fun _ => Nat.le_refl _)
  | serve i =>
    obtain ⟨session, id, kvCommand, hm, rfl⟩ := serve_next hstep
    refine h.of_flight rfl rfl rfl rfl (fun x => ?_)
    have herase := countP_eraseIdx (fun m => requestOf m = x) hm
    have hrequest : requestOf (session, .append id kvCommand) = (session, id) := rfl
    have hentry := h.entryRequest_append session id kvCommand
    simp only [outstanding, List.countP_append, List.countP_singleton, hentry]
    rw [hrequest] at herase
    omega
  | dropRequest i =>
    obtain ⟨m, hm, rfl⟩ := dropRequest_next hstep
    refine h.of_flight rfl rfl rfl rfl (fun x => ?_)
    have herase := countP_eraseIdx (fun m => requestOf m = x) hm
    simp only [outstanding]
    omega
  | decide i =>
    obtain ⟨command, hcommand, rfl⟩ := decide_next hstep
    refine h.of_flight rfl rfl rfl rfl (fun x => ?_)
    have herase := countP_eraseIdx (fun command => entryRequest command = x) hcommand
    have hundone : undone (s.log ++ [command]) (s.servers x.1.1) x ≤
        undone s.log (s.servers x.1.1) x + if entryRequest command = x then 1 else 0 := by
      simp only [undone, h.ids, ↓reduceIte, List.drop_append, List.countP_append]
      apply Nat.add_le_add_left
      apply Nat.le_trans (List.Sublist.countP_le (List.drop_sublist _ _))
      simp [List.countP_singleton]
    simp only [outstanding]
    simp only [decide_eq_true_eq] at herase
    omega
  | clusterMessages id batch =>
    obtain ⟨server, sent, received, hhandle, hpasses⟩ :=
      passes_handleClusterMessages s.log (s.servers id) batch
    simp only [step, hhandle, Option.bind_eq_bind, Option.bind_some, Option.pure_def] at hstep
    split at hstep
    · cases hstep
      exact h.respond hpasses
    · cases hstep
  | clientStartSignals id startTime =>
    cases hstep
    have hmatched := h.respond (passes_startSignals s.log (s.servers id) startTime)
    rwa [Function.update_eq_self] at hmatched

end Steps

theorem run_matched {s t : Deployment} (h : Matched s) {acts : List Action}
    (hrun : run step s acts = some t) : Matched t :=
  run_invariant Matched (fun _ _ _ _ h hstep => step_matched h hstep) h hrun

/-- What holds of the clients and their responses at any time: `response` of the
responses that can be handled next, `marked` that the rows with a response time are those whose
response was handled, `panics` that handling a response never panics. -/
structure Consistent (s : Deployment) : Prop where
  response : ∀ m ∈ s.responses, ∀ x, answers m = some x → x ∈ s.sent ∧ x ∉ s.handled
  handled : s.handled.Nodup ∧ ∀ x ∈ s.handled, x ∈ s.sent
  marked : ∀ session client, s.clients session = some client →
    ∀ i row, client.clientData.requestData[i]? = some row →
      (row.responseTime.isSome ↔ (session, i) ∈ s.handled)
  nextId : ∀ session client, s.clients session = some client →
    client.nextRequestId = client.clientData.requestData.length
  counted : ∀ session client, s.clients session = some client →
    client.clientData.responseCount =
      client.clientData.requestData.countP (fun row => row.responseTime.isSome)
  panics : ∀ i now m client, s.responses[i]? = some m → s.clients m.1 = some client →
    client.finished = false → (step s (.deliver i now)).isSome

theorem Matched.consistent {s : Deployment} (h : Matched s) : Consistent s := by
  have hhandled : ∀ x, s.handled.count x ≤ outstanding s x := by
    intro x
    simp only [outstanding]
    omega
  constructor
  · intro m hm x hx
    exact h.response hm hx
  · constructor
    · apply List.nodup_iff_count_le_one.mpr
      intro x
      exact Nat.le_trans (hhandled x) (h.outstanding_le_one x)
    · intro x hx
      exact h.mem_sent (Nat.lt_of_lt_of_le (List.count_pos_iff.mpr hx) (hhandled x))
  · intro session client hclient
    exact (h.rows session client hclient).marked
  · intro session client hclient
    exact (h.rows session client hclient).next
  · intro session client hclient
    exact (h.rows session client hclient).counted
  · intro i now m client hm hclient hrunning
    have hid : ∀ id, m.2.commandId = some id → id < client.clientData.requestData.length := by
      intro id hid
      have hanswers : answers m = some (m.1, id) := by simp [answers, hid]
      obtain ⟨c, hc, hlt⟩ := h.sent _ (h.response (List.mem_of_getElem? hm) hanswers).1
      rw [hclient] at hc
      cases hc
      rwa [← (h.rows m.1 client hclient).next]
    obtain ⟨client', hturn⟩ := turn_serverMessage hrunning hid now
    simp [step, hm, Deployment.clientTurn, hclient, hturn]

/-- Responses match requests in every run of the servers and the clients. -/
theorem responses_match {numClients : NodeId → Nat} {connected : Session → Bool}
    {intervals : Session → List RequestInterval} {acts : List Action} {s : Deployment}
    (hrun : run step (init numClients connected intervals) acts = some s) : Consistent s :=
  (run_matched (matched_init numClients connected intervals) hrun).consistent

def oneAnswered : List Action :=
  [.requestTick (2, 1) true 5, .requestTick (2, 1) false 6, .serve 0, .serve 0, .decide 1,
    .decide 0, .clusterMessages 1 [(2, .decided 2)],
    .clusterMessages 2 [(1, .startSignal 7), (1, .decided 1)], .clusterMessages 2 [(1, .decided 2)],
    .deliver 1 8]

theorem responses_match_oneAnswered :
    ∃ s, run step (init (fun _ => 1) (fun _ => true) (fun _ => [⟨10, 10⟩])) oneAnswered = some s ∧
      s.sent = [((2, 1), 0), ((2, 1), 1)] ∧ s.handled = [((2, 1), 1)] ∧ Consistent s := by
  have hghost : (run step (init (fun _ => 1) (fun _ => true) (fun _ => [⟨10, 10⟩])) oneAnswered).map
      (fun s => (s.sent, s.handled)) = some ([((2, 1), 0), ((2, 1), 1)], [((2, 1), 1)]) := by
    decide +kernel
  obtain ⟨s, hrun, hs⟩ := Option.map_eq_some_iff.mp hghost
  obtain ⟨hsent, hhandled⟩ := Prod.mk.inj hs
  exact ⟨s, hrun, hsent, hhandled, responses_match hrun⟩

end OmniPaxosJepsen.SessionIds
