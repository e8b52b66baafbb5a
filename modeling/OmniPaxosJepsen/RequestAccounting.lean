import OmniPaxosJepsen.SessionHistory

namespace OmniPaxosJepsen.RequestAccounting

open Common Server Machine Runs Flight ClientLoop ClientStep SessionIds SessionHistory
open Sessions (Session Request Deployment requestOf answers sendToClients within)

/-- A server that goes on to `server'` turns the entries that it applies into answers, one each. -/
structure Settles (log : List Command) (server server' : OmniPaxosServer) (sent : Sent) :
    Prop where
  id_eq : server'.id = server.id
  answered : ∀ x, answersTo server.id sent x + undone log server' x = undone log server x

theorem Settles.refl (log : List Command) (server : OmniPaxosServer) :
    Settles log server server [] :=
  ⟨rfl, fun _ => Nat.zero_add _⟩

theorem Settles.trans {log : List Command} {server server' server'' : OmniPaxosServer}
    {sent sent' : Sent} (h : Settles log server server' sent)
    (h' : Settles log server' server'' sent') : Settles log server server'' (sent ++ sent') := by
  refine ⟨h'.id_eq.trans h.id_eq, fun x => ?_⟩
  have hfirst := h.answered x
  have hsecond := h'.answered x
  rw [h.id_eq] at hsecond
  rw [answersTo_append]
  omega

theorem settles_startSignals (log : List Command) (server : OmniPaxosServer)
    (startTime : Timestamp) : Settles log server server (server.clientStartSignals startTime) := by
  refine ⟨rfl, fun x => ?_⟩
  rw [answersTo_startSignals, Nat.zero_add]

theorem settles_handleDecidedEntries (log : List Command) (server : OmniPaxosServer) (idx : Nat) :
    ∃ server' sent, server.handleDecidedEntries (ServerReplication.decidedView log idx) =
      some (server', sent) ∧ Settles log server server' sent := by
  refine ⟨_, _, ServerReplication.handleDecidedEntries_decidedView server log idx, rfl,
    fun x => ?_⟩
  rw [answersTo_exec]
  by_cases hx : x.1.1 = server.id
  · simp only [undone, hx, ↓reduceIte, ← List.countP_append]
    rw [← drop_eq_append log server.currentDecidedIdx idx]
  · simp [undone, hx]

theorem settles_handleClusterMessages (log : List Command) (server : OmniPaxosServer)
    (batch : List (NodeId × ServerReplication.Event)) :
    ∃ server' sent received,
      server.handleClusterMessages (ServerReplication.messages log batch) =
        some (server', sent, received) ∧ Settles log server server' sent := by
  apply ServerReplication.handleClusterMessages_rule log (Settles log)
  · exact Settles.refl log
  · exact Settles.trans
  · exact settles_handleDecidedEntries log
  · exact settles_startSignals log

def unsent (connected : Session → Bool) (id : NodeId) (sent : Sent) : List Request :=
  (sent.filter (fun m => !connected (id, m.1))).filterMap (fun m => answers ((id, m.1), m.2))

theorem answersTo_sendToClients (connected : Session → Bool) (id : NodeId) (sent : Sent)
    (x : Request) : answersTo id (sendToClients connected id sent) x +
      (unsent connected id sent).count x = answersTo id sent x := by
  have hunsent : (unsent connected id sent).count x =
      (sent.filter (fun m => !connected (id, m.1))).countP
        (fun m => answers ((id, m.1), m.2) = some x) := by
    rw [unsent, List.count, List.countP_filterMap]
    refine List.countP_congr (fun m _ => ?_)
    cases answers ((id, m.1), m.2) <;> simp
  rw [hunsent, answersTo, answersTo, sendToClients, ← List.countP_append]
  exact (List.filter_append_perm _ sent).countP_eq _

/-- The servers and the clients with what the clients have seen, and the requests that were lost
on their way or whose responses were. -/
structure Tally where
  watched : Watched
  lost : List Request

def lostBy (s : Deployment) : Sessions.Action → List Request
  | .dropRequest i => (s.requests[i]?.map requestOf).toList
  | .dropResponse i => (s.responses[i]?.bind answers).toList
  | .clusterMessages id batch =>
    match (s.servers id).handleClusterMessages (ServerReplication.messages s.log batch) with
    | some (_, sent, _) => unsent s.connected id sent
    | none => []
  | _ => []

def start (numClients : NodeId → Nat) (connected : Session → Bool)
    (intervals : Session → List RequestInterval) : Tally :=
  ⟨SessionHistory.start numClients connected intervals, []⟩

def step (s : Tally) (a : Sessions.Action) : Option Tally :=
  (SessionHistory.step s.watched a).map
    (fun watched => ⟨watched, s.lost ++ lostBy s.watched.deployment a⟩)

section Deployment

variable {s t : Deployment}

theorem outstanding_respond (h : Matched s) {id : NodeId} {server : OmniPaxosServer} {sent : Sent}
    (hsettles : Settles s.log (s.servers id) server sent) (x : Request) :
    outstanding ({ s with servers := Function.update s.servers id server }.respond id sent) x +
      (unsent s.connected id sent).count x = outstanding s x := by
  have hanswered := hsettles.answered x
  have hresponses : ((sendToClients s.connected id sent).map (fun m => ((id, m.1), m.2))).countP
      (fun m => answers m = some x) = answersTo id (sendToClients s.connected id sent) x :=
    List.countP_map
  have hsplit := answersTo_sendToClients s.connected id sent x
  rw [h.ids] at hanswered
  simp only [outstanding, Deployment.respond, List.countP_append, hresponses]
  by_cases hx : x.1.1 = id
  · subst hx
    rw [Function.update_self]
    omega
  · have hundone : undone s.log (s.servers id) x = 0 := by simp [undone, h.ids, hx]
    rw [Function.update_of_ne hx]
    omega

theorem undone_decide (hids : ∀ id, (s.servers id).id = id)
    (hdecided : ∀ id, (s.servers id).currentDecidedIdx ≤ s.log.length) (command : Command)
    (x : Request) : undone (s.log ++ [command]) (s.servers x.1.1) x =
      undone s.log (s.servers x.1.1) x + if entryRequest command = x then 1 else 0 := by
  simp only [undone, hids, ↓reduceIte, List.drop_append_of_le_length (hdecided x.1.1),
    List.countP_append, List.countP_singleton, decide_eq_true_eq]

/-- A step creates, moves or loses a request, and does nothing else to it. -/
theorem step_outstanding (h : Matched s)
    (hdecided : ∀ id, (s.servers id).currentDecidedIdx ≤ s.log.length) {a : Sessions.Action}
    (hstep : Sessions.step s a = some t) (x : Request) :
    outstanding t x + (lostBy s a).count x + s.sent.count x = outstanding s x + t.sent.count x := by
  cases a with
  | requestTick session isWrite now =>
    obtain ⟨client, hclient, rfl⟩ := requestTick_next hstep
    have hnew : requestOf ((client.activeServer, session.2), (client.sendRequest isWrite now).2) =
        ((client.activeServer, session.2), client.nextRequestId) := rfl
    simp only [outstanding, lostBy, List.countP_append, List.countP_singleton, List.count_append,
      List.count_singleton, List.count_nil, hnew, decide_eq_true_eq, beq_iff_eq]
    omega
  | intervalTick session =>
    obtain ⟨client, client', _, _, _, _, _, rfl⟩ := intervalTick_next hstep
    rfl
  | deliver i now =>
    obtain ⟨m, client, client', hm, _, _, _, _, _, rfl⟩ := deliver_next hstep
    have herase := countP_eraseIdx (fun m => answers m = some x) hm
    simp only [outstanding, lostBy, List.count_append, List.count_nil, count_answers]
    omega
  | dropResponse i =>
    obtain ⟨m, hm, rfl⟩ := dropResponse_next hstep
    have herase := countP_eraseIdx (fun m => answers m = some x) hm
    simp only [outstanding, lostBy, hm, Option.bind_some, count_answers]
    omega
  | disconnect session =>
    cases hstep
    rfl
  | serve i =>
    obtain ⟨session, id, kvCommand, hm, rfl⟩ := serve_next hstep
    have herase := countP_eraseIdx (fun m => requestOf m = x) hm
    have hrequest : requestOf (session, .append id kvCommand) = (session, id) := rfl
    have hentry := h.entryRequest_append session id kvCommand
    rw [hrequest] at herase
    simp only [outstanding, lostBy, List.countP_append, List.countP_singleton, hentry,
      List.count_nil]
    omega
  | dropRequest i =>
    obtain ⟨m, hm, rfl⟩ := dropRequest_next hstep
    have herase := countP_eraseIdx (fun m => requestOf m = x) hm
    have hcount : [requestOf m].count x = if decide (requestOf m = x) then 1 else 0 := by
      simp [List.count_singleton]
    simp only [outstanding, lostBy, hm, Option.map_some, Option.toList_some, hcount]
    omega
  | decide i =>
    obtain ⟨command, hcommand, rfl⟩ := decide_next hstep
    have herase := countP_eraseIdx (fun command => entryRequest command = x) hcommand
    simp only [decide_eq_true_eq] at herase
    simp only [outstanding, lostBy, undone_decide h.ids hdecided, List.count_nil]
    omega
  | clusterMessages id batch =>
    obtain ⟨server, sent, received, hhandle, hsettles⟩ :=
      settles_handleClusterMessages s.log (s.servers id) batch
    simp only [Sessions.step, hhandle, Option.bind_eq_bind, Option.bind_some, Option.pure_def,
      Option.ite_none_right_eq_some, Option.some.injEq] at hstep
    obtain ⟨_, rfl⟩ := hstep
    have hmoved := outstanding_respond h hsettles x
    simp only [lostBy, hhandle]
    rw [hmoved]
    rfl
  | clientStartSignals id startTime =>
    cases hstep
    have hmoved := outstanding_respond h (settles_startSignals s.log (s.servers id) startTime) x
    have hnone := answersTo_sendToClients s.connected id
      ((s.servers id).clientStartSignals startTime) x
    rw [Function.update_eq_self] at hmoved
    rw [answersTo_startSignals] at hnone
    simp only [lostBy, List.count_nil, Deployment.respond] at hmoved ⊢
    omega

theorem step_sent (h : Matched s) {a : Sessions.Action} (hstep : Sessions.step s a = some t)
    (hsent : ∀ session client, s.clients session = some client →
      ∀ i < client.nextRequestId, (session, i) ∈ s.sent) :
    ∀ session client, t.clients session = some client →
      ∀ i < client.nextRequestId, (session, i) ∈ t.sent := by
  have hturn : ∀ {session client client'} new, s.clients session = some client →
      (∀ i < client'.nextRequestId, i < client.nextRequestId ∨ (session, i) ∈ new) →
      ∀ session' c, Function.update s.clients session (some client') session' = some c →
        ∀ i < c.nextRequestId, (session', i) ∈ s.sent ++ new := by
    intro session client client' new hclient hnew session' c hc i hi
    by_cases hsession : session' = session
    · subst hsession
      rw [Function.update_self] at hc
      cases hc
      exact (hnew i hi).elim
        (fun hold => List.mem_append_left _ (hsent _ _ hclient i hold)) (List.mem_append_right _)
    · rw [Function.update_of_ne hsession] at hc
      exact List.mem_append_left _ (hsent session' c hc i hi)
  cases a with
  | requestTick session isWrite now =>
    obtain ⟨client, hclient, rfl⟩ := requestTick_next hstep
    refine hturn _ hclient (fun i hi => ?_)
    rw [(h.rows session client hclient).active]
    obtain hlt | rfl := Nat.lt_succ_iff_lt_or_eq.mp hi
    · exact .inl hlt
    · exact .inr (List.mem_singleton_self _)
  | intervalTick session =>
    obtain ⟨client, client', hclient, _, _, hnext, _, rfl⟩ := intervalTick_next hstep
    have hkeeps := hturn [] hclient (fun i hi => .inl (hnext ▸ hi))
    rwa [List.append_nil] at hkeeps
  | deliver i now =>
    obtain ⟨m, client, client', _, hclient, _, hnext, _, _, rfl⟩ := deliver_next hstep
    have hkeeps := hturn [] hclient (fun i hi => .inl (hnext ▸ hi))
    rwa [List.append_nil] at hkeeps
  | dropResponse i | dropRequest i | serve i | decide i =>
    simp only [Sessions.step, Option.bind_eq_bind, Option.bind_eq_some_iff, Option.pure_def,
      Option.some.injEq] at hstep
    obtain ⟨_, _, rfl⟩ := hstep
    exact hsent
  | clusterMessages id batch =>
    simp only [Sessions.step, Option.ite_none_right_eq_some, Option.bind_eq_bind,
      Option.bind_eq_some_iff, Option.pure_def, Option.some.injEq] at hstep
    obtain ⟨_, _, _, rfl⟩ := hstep
    exact hsent
  | disconnect session =>
    cases hstep
    exact hsent
  | clientStartSignals id startTime =>
    cases hstep
    exact hsent

end Deployment

structure Accounted (s : Tally) : Prop where
  matched : Matched s.watched.deployment
  explained : Explained s.watched
  places : ∀ x, outstanding s.watched.deployment x + s.lost.count x =
    s.watched.deployment.sent.count x
  sent : ∀ session client, s.watched.deployment.clients session = some client →
    ∀ i < client.nextRequestId, (session, i) ∈ s.watched.deployment.sent

theorem accounted_start (numClients : NodeId → Nat) (connected : Session → Bool)
    (intervals : Session → List RequestInterval) :
    Accounted (start numClients connected intervals) := by
  refine ⟨matched_init numClients connected intervals,
    explained_start numClients connected intervals, fun x => ?_,
    fun session client hclient i hi => ?_⟩
  · simp [start, SessionHistory.start, outstanding, undone, Sessions.init]
  · have hrows := (matched_init numClients connected intervals).rows session client hclient
    have hnew : Client.new session.1 (intervals session) = some client := hclient
    cases hintervals : intervals session with
    | nil => simp [hintervals, Client.new] at hnew
    | cons first rest =>
      simp only [hintervals, Client.new, Option.bind_eq_bind, Option.bind_eq_some_iff,
        Option.pure_def, Option.some.injEq] at hnew
      obtain ⟨_, _, _, _, _, _, rfl⟩ := hnew
      exact absurd hi (Nat.not_lt_zero i)

theorem step_accounted {s t : Tally} (h : Accounted s) {a : Sessions.Action}
    (hstep : step s a = some t) : Accounted t := by
  obtain ⟨w, hw, rfl⟩ := Option.map_eq_some_iff.mp hstep
  obtain ⟨u, hu, rfl⟩ := Option.map_eq_some_iff.mp hw
  refine ⟨step_matched h.matched hu, step_explained h.matched h.explained hw, fun x => ?_,
    step_sent h.matched hu h.sent⟩
  have hmoved := step_outstanding h.matched (fun id => (h.explained.synced id).le) hu x
  have hold := h.places x
  simp only [List.count_append]
  omega

variable {numClients : NodeId → Nat} {connected : Session → Bool}
  {intervals : Session → List RequestInterval} {acts : List Sessions.Action} {s : Tally}

theorem run_accounted (hrun : run step (start numClients connected intervals) acts = some s) :
    Accounted s :=
  run_invariant Accounted (fun _ _ _ _ h hstep => step_accounted h hstep)
    (accounted_start numClients connected intervals) hrun

/-- Every request that was sent is in exactly one place: on its way, taken by OmniPaxos, decided
and not applied by the server that it was sent to, answered and on its way back, handled by its
client, or lost; and no other request is anywhere. -/
theorem requests_accounted (hrun : run step (start numClients connected intervals) acts = some s)
    (x : Request) : outstanding s.watched.deployment x + s.lost.count x =
      if x ∈ s.watched.deployment.sent then 1 else 0 := by
  have h := run_accounted hrun
  rw [h.places x]
  split
  · next hmem => exact List.count_eq_one_of_mem h.matched.distinct hmem
  · next hnot => exact List.count_eq_zero_of_not_mem hnot

def oneLost : List Sessions.Action :=
  oneAnswered ++ [.dropResponse 1]

theorem requests_accounted_oneLost :
    ∃ s, run step (start (fun _ => 1) (fun _ => true) (fun _ => [⟨10, 10⟩])) oneLost = some s ∧
      s.lost = [((2, 1), 0)] ∧ ((2, 1), 0) ∈ s.watched.deployment.sent ∧
      outstanding s.watched.deployment ((2, 1), 0) + s.lost.count ((2, 1), 0) =
        if ((2, 1), 0) ∈ s.watched.deployment.sent then 1 else 0 := by
  have hghost : (run step (start (fun _ => 1) (fun _ => true) (fun _ => [⟨10, 10⟩])) oneLost).map
      (fun s => (s.lost, s.watched.deployment.sent)) =
        some ([((2, 1), 0)], [((2, 1), 0), ((2, 1), 1)]) := by
    decide +kernel
  obtain ⟨s, hrun, hs⟩ := Option.map_eq_some_iff.mp hghost
  obtain ⟨hlost, hsent⟩ := Prod.mk.inj hs
  exact ⟨s, hrun, hlost, by simp [hsent], requests_accounted hrun _⟩

/-- Nothing is on its way but messages for clients that have left their loops, and every server
has applied what it has to answer. -/
structure AtRest (s : Deployment) : Prop where
  requests : s.requests = []
  proposed : s.proposed = []
  applied : ∀ command ∈ s.log,
    s.log.length ≤ (s.servers command.coordinatorId).currentDecidedIdx
  responses : ∀ m ∈ s.responses, ∀ client, s.clients m.1 = some client → client.finished = true

theorem AtRest.outstanding {d : Deployment} (h : AtRest d) (hids : ∀ id, (d.servers id).id = id)
    (x : Request) : outstanding d x =
      d.responses.countP (fun m => answers m = some x) + d.handled.count x := by
  have hundone : undone d.log (d.servers x.1.1) x = 0 := by
    rw [undone, if_pos (hids x.1.1).symm]
    refine List.countP_eq_zero.mpr (fun command hmem hentry => ?_)
    have hcoordinator : command.coordinatorId = x.1.1 := by
      rw [← of_decide_eq_true hentry]
      rfl
    have happlied := h.applied command (List.mem_of_mem_drop hmem)
    rw [hcoordinator] at happlied
    rw [List.drop_of_length_le happlied] at hmem
    cases hmem
  rw [SessionIds.outstanding, h.requests, h.proposed, hundone]
  simp

/-- An answer on its way to a client that has not handled it. -/
def Unread (s : Deployment) (x : Request) : Prop := ∃ m ∈ s.responses, answers m = some x

/-- At rest each row of a client none of whose messages was lost has a response time, or its
answer is on its way and the client has left its loop. -/
theorem all_answered (hrun : run step (start numClients connected intervals) acts = some s)
    (hrest : AtRest s.watched.deployment) {session : Session} {client : Client}
    (hclient : s.watched.deployment.clients session = some client)
    (hlost : ∀ x ∈ s.lost, x.1 ≠ session) :
    (∀ i row, client.clientData.toCsv[i]? = some row →
      (row.responseTime = none ↔ Unread s.watched.deployment (session, i))) ∧
      (client.finished = false →
        client.clientData.responseCount = client.clientData.requestCount ∧
          ∀ row ∈ client.clientData.toCsv, row.responseTime.isSome) := by
  have h := run_accounted hrun
  have hrows := h.matched.rows session client hclient
  have hrow : ∀ i row, client.clientData.toCsv[i]? = some row →
      (row.responseTime = none ↔ Unread s.watched.deployment (session, i)) := by
    intro i row hi
    have hlt : i < client.nextRequestId := by
      rw [hrows.next]
      exact (List.getElem?_eq_some_iff.mp hi).1
    have hplaces := h.places (session, i)
    rw [hrest.outstanding h.matched.ids,
      List.count_eq_zero_of_not_mem (fun hmem => hlost _ hmem rfl),
      List.count_eq_one_of_mem h.matched.distinct (h.sent session client hclient i hlt)] at hplaces
    have hunread : Unread s.watched.deployment (session, i) ↔
        0 < s.watched.deployment.responses.countP (fun m => answers m = some (session, i)) := by
      simp [Unread, List.countP_pos_iff]
    have hmarked := hrows.marked i row hi
    rw [← List.count_pos_iff] at hmarked
    rw [hunread, ← Option.not_isSome_iff_eq_none, hmarked]
    omega
  refine ⟨hrow, fun hrunning => ?_⟩
  have hall : ∀ row ∈ client.clientData.toCsv, row.responseTime.isSome := by
    intro row hmem
    obtain ⟨i, hi⟩ := List.getElem?_of_mem hmem
    rw [Option.isSome_iff_ne_none, ne_eq, hrow i row hi]
    rintro ⟨m, hm, hanswers⟩
    have hsession : m.1 = session := by
      obtain ⟨id, _, hid⟩ := Option.map_eq_some_iff.mp hanswers
      exact congrArg Prod.fst hid
    have hfinished := hrest.responses m hm client (hsession ▸ hclient)
    rw [hrunning] at hfinished
    cases hfinished
  refine ⟨?_, hall⟩
  rw [hrows.counted, ClientData.requestCount]
  exact List.countP_eq_length.mpr hall

def oneUnread : List Sessions.Action :=
  oneAnswered ++ [.intervalTick (2, 1)]

theorem all_answered_oneUnread :
    ∃ s client row,
      run step (start (fun _ => 1) (fun _ => true) (fun _ => [⟨10, 10⟩])) oneUnread = some s ∧
      s.watched.deployment.clients (2, 1) = some client ∧ client.finished = true ∧
      client.clientData.toCsv[0]? = some row ∧ row.responseTime = none ∧
      Unread s.watched.deployment ((2, 1), 0) := by
  have hrest : (run step (start (fun _ => 1) (fun _ => true) (fun _ => [⟨10, 10⟩]))
      oneUnread).any (fun s => s.lost = [] ∧
        s.watched.deployment.requests.length = 0 ∧ s.watched.deployment.proposed.length = 0 ∧
        s.watched.deployment.log.all (fun command => s.watched.deployment.log.length ≤
          (s.watched.deployment.servers command.coordinatorId).currentDecidedIdx) ∧
        s.watched.deployment.responses.all (fun m =>
          (s.watched.deployment.clients m.1).all Client.finished) ∧
        (s.watched.deployment.clients (2, 1)).any (fun client => client.finished ∧
          client.clientData.toCsv[0]?.any (fun row => row.responseTime = none))) = true := by
    decide +kernel
  obtain ⟨s, hrun, hprop⟩ := (Option.any_eq_true _ _).mp hrest
  obtain ⟨hlost, hrequests, hproposed, happlied, hresponses, hclient⟩ := of_decide_eq_true hprop
  obtain ⟨client, hclient, hprop⟩ := (Option.any_eq_true _ _).mp hclient
  obtain ⟨hfinished, hrow⟩ := of_decide_eq_true hprop
  obtain ⟨row, hrow, hnone⟩ := (Option.any_eq_true _ _).mp hrow
  have hrest : AtRest s.watched.deployment :=
    ⟨List.eq_nil_of_length_eq_zero hrequests, List.eq_nil_of_length_eq_zero hproposed,
      fun command hmem => of_decide_eq_true (List.all_eq_true.mp happlied command hmem),
      fun m hm c hc => by simpa [hc] using List.all_eq_true.mp hresponses m hm⟩
  obtain ⟨hrows, _⟩ := all_answered hrun hrest hclient (by simp [hlost])
  exact ⟨s, client, row, hrun, hclient, hfinished, hrow, of_decide_eq_true hnone,
    (hrows 0 row hrow).mp (of_decide_eq_true hnone)⟩

end OmniPaxosJepsen.RequestAccounting
