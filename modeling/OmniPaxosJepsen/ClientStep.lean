import OmniPaxosJepsen.ClientLoop

namespace OmniPaxosJepsen.ClientStep

open Common ClientLoop

theorem handleServerMessage_response (s : Client) {msg : ServerMessage} {id : CommandId}
    (hid : msg.commandId = some id) (now : Timestamp) : s.handleServerMessage msg now =
      (s.clientData.newResponse id now).map (fun data => { s with clientData := data }) := by
  cases msg with
  | startSignal startTime => simp [ServerMessage.commandId] at hid
  | write id' =>
    cases hid
    cases hn : s.clientData.newResponse id now <;>
      simp [Client.handleServerMessage, ServerMessage.commandId, hn]
  | read id' value =>
    cases hid
    cases hn : s.clientData.newResponse id now <;>
      simp [Client.handleServerMessage, ServerMessage.commandId, hn]

/-- A turn handles a start signal, a response, a request tick, the tick that begins a
further interval or the tick that ends the last one; only a request tick sends. -/
theorem turn_cases {s t : Client} {e : Event} {out : List ClientMessage}
    (h : s.turn e = some (t, out)) : s.finished = false ∧
    ((∃ startTime now, e = .serverMessage (.startSignal startTime) now ∧ out = [] ∧
      t = s.breakIfFinished) ∨
    (∃ msg now id data, e = .serverMessage msg now ∧ out = [] ∧ msg.commandId = some id ∧
      s.clientData.newResponse id now = some data ∧
      t = { s with clientData := data }.breakIfFinished) ∨
    (∃ isWrite now, e = .requestTick isWrite now ∧ s.finalRequestCount = none ∧
      t = (s.sendRequest isWrite now).1 ∧ out = [(s.sendRequest isWrite now).2]) ∨
    (∃ i is delay duration, e = .intervalTick ∧ out = [] ∧ s.intervals = i :: is ∧
      t = { s with intervals := is, requestInterval := delay, nextInterval := duration }) ∨
    e = .intervalTick ∧ out = [] ∧ s.intervals = [] ∧
      t = { s with
        finalRequestCount := some s.clientData.requestCount }.breakIfFinished) := by
  by_cases hf : s.finished
  · simp [Client.turn, hf] at h
  · simp only [Client.turn, hf, Bool.false_eq_true, ↓reduceIte] at h
    have hrunning : s.finished = false := by simpa using hf
    refine ⟨hrunning, ?_⟩
    cases e with
    | serverMessage msg now =>
      cases hid : msg.commandId with
      | none =>
        cases msg with
        | startSignal startTime =>
          simp [Client.handleServerMessage] at h
          exact .inl ⟨startTime, now, rfl, h.2, h.1.symm⟩
        | write id => simp [ServerMessage.commandId] at hid
        | read id value => simp [ServerMessage.commandId] at hid
      | some id =>
        have hhandle := handleServerMessage_response s hid now
        cases hdata : s.clientData.newResponse id now with
        | none => simp [hhandle, hdata] at h
        | some data =>
          simp [hhandle, hdata] at h
          exact .inr (.inl ⟨msg, now, id, data, rfl, h.2, hid, hdata, h.1.symm⟩)
    | requestTick isWrite now =>
      cases hfinal : s.finalRequestCount with
      | some n => simp [hfinal] at h
      | none =>
        simp [hfinal] at h
        exact .inr (.inr (.inl ⟨isWrite, now, rfl, rfl, h.1.symm, h.2.symm⟩))
    | intervalTick =>
      cases hi : s.intervals with
      | nil =>
        simp [hi] at h
        exact .inr (.inr (.inr (.inr ⟨rfl, h.2, rfl, h.1.symm⟩)))
      | cons i is =>
        simp [hi, Option.bind_eq_some_iff] at h
        obtain ⟨duration, _, d, _, delay, _, ht, hout⟩ := h
        exact .inr (.inr (.inr (.inl ⟨i, is, delay, duration, rfl, hout, rfl,
          by simp [← ht, hrunning]⟩)))

theorem turn_serverMessage {s : Client} (hrunning : s.finished = false) {msg : ServerMessage}
    (hid : ∀ id, msg.commandId = some id → id < s.clientData.requestData.length)
    (now : Timestamp) : ∃ t, s.turn (.serverMessage msg now) = some (t, []) := by
  cases hcmd : msg.commandId with
  | none =>
    cases msg with
    | startSignal startTime =>
      exact ⟨s.breakIfFinished, by simp [Client.turn, hrunning, Client.handleServerMessage]⟩
    | write id => simp [ServerMessage.commandId] at hcmd
    | read id value => simp [ServerMessage.commandId] at hcmd
  | some id =>
    have hlt := hid id hcmd
    simp [Client.turn, hrunning, handleServerMessage_response s hcmd, ClientData.newResponse, hlt]

theorem newResponse_eq_some {data data' : ClientData} {id : CommandId} {now : Timestamp} :
    data.newResponse id now = some data' ↔ id < data.requestData.length ∧
      data' = {
        requestData := data.requestData.modify id
          (fun row => { row with responseTime := some now })
        responseCount := data.responseCount + 1 } := by
  by_cases hid : id < data.requestData.length
  · simp [ClientData.newResponse, hid, eq_comm]
  · simp [ClientData.newResponse, hid]

theorem answered_row {rows : List RequestData} {id i : Nat} {now : Timestamp} {row : RequestData}
    (h : (rows.modify id (fun row => { row with responseTime := some now }))[i]? = some row) :
    ∃ old, rows[i]? = some old ∧
      (row.responseTime.isSome ↔ i = id ∨ old.responseTime.isSome) := by
  rw [List.getElem?_modify] at h
  obtain ⟨old, hold, hrow⟩ := Option.map_eq_some_iff.mp h
  refine ⟨old, hold, ?_⟩
  by_cases hid : id = i
  · subst hid
    simp [← hrow]
  · simp [← hrow, hid, Ne.symm hid]

theorem countP_answered {rows : List RequestData} {id : Nat} (now : Timestamp)
    (hlt : id < rows.length) (hnone : (rows[id]).responseTime = none) :
    (rows.modify id (fun row => { row with responseTime := some now })).countP
      (fun row => row.responseTime.isSome) =
        rows.countP (fun row => row.responseTime.isSome) + 1 := by
  have hsplit : rows = rows.take id ++ rows[id] :: rows.drop (id + 1) := by simp
  rw [List.modify_eq_take_cons_drop hlt]
  conv => rhs; rw [hsplit]
  simp only [List.countP_append, List.countP_cons, hnone, Option.isSome_some, Option.isSome_none,
    Bool.false_eq_true, ↓reduceIte]
  omega

theorem breakIfFinished_running {s : Client} (hfinal : s.finalRequestCount = none)
    (hrunning : s.finished = false) : s.breakIfFinished = s := by
  have hfinished : s.runFinished = s.finished := by simp [Client.runFinished, hfinal, hrunning]
  simp only [Client.breakIfFinished, hfinished]

/-- Once it has ended the client is finished, whatever is still unanswered. -/
theorem breakIfFinished_last (s : Client) :
    { s with finalRequestCount := some s.clientData.requestCount }.breakIfFinished =
      { s with finalRequestCount := some s.clientData.requestCount, finished := true } := by
  simp [Client.breakIfFinished, Client.runFinished]

end OmniPaxosJepsen.ClientStep
