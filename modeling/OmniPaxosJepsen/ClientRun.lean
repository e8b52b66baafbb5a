import OmniPaxosJepsen.ClientStep
import OmniPaxosJepsen.Runs

namespace OmniPaxosJepsen.ClientRun

open Common ClientLoop ClientStep Runs

def answered (events : List Event) : List CommandId :=
  events.filterMap (fun
    | .serverMessage msg _ => msg.commandId
    | .requestTick _ _ | .intervalTick => none)

def requested (events : List Event) : Nat :=
  events.countP (fun
    | .requestTick _ _ => true
    | .serverMessage _ _ | .intervalTick => false)

def intervalTicks (events : List Event) : Nat := events.count .intervalTick

/-- What the events of a run say about the client. -/
structure Tracks (intervals : Nat) (events : List Event) (s : Client) : Prop where
  rows : s.clientData.requestData.length = requested events
  count : s.clientData.responseCount = (answered events).length
  sent : ∀ id ∈ answered events, id < requested events
  marked : ∀ i row, s.clientData.requestData[i]? = some row →
    (row.responseTime.isSome ↔ i ∈ answered events)
  running : s.finished = false → s.finalRequestCount = none ∧
    intervalTicks events + s.intervals.length + 1 = intervals
  finished : s.finished = true → ∃ before, events = before ++ [.intervalTick] ∧
    intervalTicks before + 1 = intervals

theorem tracks_new {serverId : NodeId} {intervals : List RequestInterval} {s : Client}
    (h : Client.new serverId intervals = some s) : Tracks intervals.length [] s := by
  cases intervals with
  | nil => simp [Client.new] at h
  | cons i is =>
    simp only [Client.new, Option.bind_eq_bind, Option.bind_eq_some_iff, Option.pure_def,
      Option.some.injEq] at h
    obtain ⟨_, _, _, _, _, _, rfl⟩ := h
    constructor <;> simp [ClientData.new, requested, answered, intervalTicks]

theorem Tracks.quiet {intervals : Nat} {events : List Event} {s t : Client}
    (h : Tracks intervals events s) {e : Event}
    (hanswered : answered (events ++ [e]) = answered events)
    (hrequested : requested (events ++ [e]) = requested events)
    (hdata : t.clientData = s.clientData)
    (hrunning : t.finished = false → t.finalRequestCount = none ∧
      intervalTicks (events ++ [e]) + t.intervals.length + 1 = intervals)
    (hfinished : t.finished = true → ∃ before, events ++ [e] = before ++ [.intervalTick] ∧
      intervalTicks before + 1 = intervals) :
    Tracks intervals (events ++ [e]) t := by
  constructor
  · rw [hrequested, hdata]
    exact h.rows
  · rw [hanswered, hdata]
    exact h.count
  · rw [hanswered, hrequested]
    exact h.sent
  · rw [hanswered, hdata]
    exact h.marked
  · exact hrunning
  · exact hfinished

theorem Tracks.response {intervals : Nat} {events : List Event} {s : Client}
    (h : Tracks intervals events s) (hrunning : s.finished = false) {msg : ServerMessage}
    {id : CommandId} (hid : msg.commandId = some id) {now : Timestamp} {data : ClientData}
    (hdata : s.clientData.newResponse id now = some data) :
    Tracks intervals (events ++ [.serverMessage msg now]) { s with clientData := data } := by
  obtain ⟨hlt, rfl⟩ := newResponse_eq_some.mp hdata
  have hanswered : answered (events ++ [.serverMessage msg now]) = answered events ++ [id] := by
    simp [answered, hid]
  have hrequested : requested (events ++ [.serverMessage msg now]) = requested events := by
    simp [requested]
  have hticks : intervalTicks (events ++ [.serverMessage msg now]) = intervalTicks events := by
    simp [intervalTicks]
  constructor
  · rw [hrequested, ← h.rows]
    exact List.length_modify _ _ _
  · rw [hanswered, List.length_append, ← h.count]
    rfl
  · rw [hanswered, hrequested]
    intro i hi
    obtain hi | hi := List.mem_append.mp hi
    · exact h.sent i hi
    · rw [List.mem_singleton.mp hi, ← h.rows]
      exact hlt
  · intro i row hrow
    obtain ⟨old, hold, hsome⟩ := answered_row hrow
    rw [hanswered, hsome, h.marked i old hold, List.mem_append, List.mem_singleton, or_comm]
  · rw [hticks]
    exact h.running
  · intro hf
    simp [hrunning] at hf

theorem Tracks.request {intervals : Nat} {events : List Event} {s : Client}
    (h : Tracks intervals events s) (hrunning : s.finished = false) (isWrite : Bool)
    (now : Timestamp) :
    Tracks intervals (events ++ [.requestTick isWrite now]) (s.sendRequest isWrite now).1 := by
  have hanswered : answered (events ++ [.requestTick isWrite now]) = answered events := by
    simp [answered]
  have hrequested : requested (events ++ [.requestTick isWrite now]) = requested events + 1 := by
    simp [requested]
  have hticks : intervalTicks (events ++ [.requestTick isWrite now]) = intervalTicks events := by
    simp [intervalTicks]
  constructor
  · simp [Client.sendRequest, ClientData.newRequest, hrequested, h.rows]
  · rw [hanswered]
    exact h.count
  · rw [hanswered, hrequested]
    intro i hi
    exact Nat.lt_succ_of_lt (h.sent i hi)
  · rw [hanswered]
    intro i row hrow
    simp only [Client.sendRequest, ClientData.newRequest, List.getElem?_append] at hrow
    split at hrow
    · exact h.marked i row hrow
    · -- the new row is beyond every answered request
      rename_i hi
      rw [List.getElem?_singleton] at hrow
      split at hrow
      · cases hrow
        have hnot : i ∉ answered events := by
          intro hmem
          exact hi (h.rows ▸ h.sent i hmem)
        simp [hnot]
      · cases hrow
  · rw [hticks]
    exact h.running
  · intro hf
    simp [Client.sendRequest, hrunning] at hf

theorem Tracks.step {intervals : Nat} {events : List Event} {s t : Client}
    (h : Tracks intervals events s) {e : Event} (hstep : s.step e = some t) :
    Tracks intervals (events ++ [e]) t := by
  obtain ⟨⟨t, out⟩, hturn, rfl⟩ := Option.map_eq_some_iff.mp hstep
  obtain ⟨hrunning, hcases⟩ := turn_cases hturn
  obtain ⟨hfinal, hleft⟩ := h.running hrunning
  have htick : answered (events ++ [.intervalTick]) = answered events ∧
      requested (events ++ [.intervalTick]) = requested events ∧
      intervalTicks (events ++ [.intervalTick]) = intervalTicks events + 1 := by
    simp [answered, requested, intervalTicks]
  obtain ⟨startTime, now, rfl, _, rfl⟩ | ⟨msg, now, id, data, rfl, _, hid, hdata, rfl⟩ |
    ⟨isWrite, now, rfl, _, rfl, _⟩ | ⟨i, is, delay, duration, rfl, _, hintervals, rfl⟩ |
    ⟨rfl, _, hintervals, rfl⟩ := hcases
  · rw [breakIfFinished_running hfinal hrunning]
    apply h.quiet
    · simp [answered, ServerMessage.commandId]
    · simp [requested]
    · rfl
    · intro _
      exact ⟨hfinal, by simpa [intervalTicks] using hleft⟩
    · intro hf
      simp [hrunning] at hf
  · have hbreak := breakIfFinished_running (s := { s with clientData := data }) hfinal hrunning
    rw [hbreak]
    exact h.response hrunning hid hdata
  · exact h.request hrunning isWrite now
  · apply h.quiet
    · exact htick.1
    · exact htick.2.1
    · rfl
    · intro _
      rw [hintervals, List.length_cons] at hleft
      exact ⟨hfinal, by rw [htick.2.2, ← hleft]; simp only; omega⟩
    · intro hf
      simp [hrunning] at hf
  · rw [breakIfFinished_last]
    apply h.quiet
    · exact htick.1
    · exact htick.2.1
    · rfl
    · intro hf
      simp at hf
    · intro _
      rw [hintervals, List.length_nil] at hleft
      exact ⟨events, rfl, by omega⟩

theorem run_tracks {intervals : Nat} {before events : List Event} {s t : Client}
    (h : Tracks intervals before s) (hrun : run Client.step s events = some t) :
    Tracks intervals (before ++ events) t := by
  induction events generalizing before s with
  | nil =>
    cases hrun
    rwa [List.append_nil]
  | cons e events ih =>
    obtain ⟨u, hu, hrun⟩ := run_cons_eq_some.mp hrun
    have hih := ih (h.step hu) hrun
    rwa [List.append_assoc] at hih

/-- The main loop ends at the tick that ends the last interval, and by then every request
has been answered exactly when every request sent before that tick was answered before
it. -/
theorem finished_iff {serverId : NodeId} {intervals : List RequestInterval} {c s : Client}
    {events : List Event} (hnew : Client.new serverId intervals = some c)
    (hrun : run Client.step c events = some s) (hfinished : s.finished = true)
    (honce : (answered events).Nodup) :
    ∃ before, events = before ++ [.intervalTick] ∧
      intervalTicks before + 1 = intervals.length ∧
      ((s.clientData.responseCount = s.clientData.requestCount ∧
          ∀ row ∈ s.clientData.toCsv, row.responseTime.isSome) ↔
        ∀ id < requested before, id ∈ answered before) := by
  have htracks : Tracks intervals.length events s := run_tracks (tracks_new hnew) hrun
  obtain ⟨before, rfl, hlast⟩ := htracks.finished hfinished
  have hanswered : answered (before ++ [.intervalTick]) = answered before := by simp [answered]
  have hrequested : requested (before ++ [.intervalTick]) = requested before := by
    simp [requested]
  have hrows := htracks.rows
  have hcount := htracks.count
  have hmarked := htracks.marked
  rw [hrequested] at hrows
  rw [hanswered] at hcount honce hmarked
  refine ⟨before, rfl, hlast, fun ⟨_, hall⟩ id hid => ?_, fun hall => ⟨?_, fun row hrow => ?_⟩⟩
  · have hlt : id < s.clientData.requestData.length := by rwa [hrows]
    have hrow := List.getElem?_eq_getElem hlt
    exact (hmarked id _ hrow).mp (hall _ (List.getElem_mem hlt))
  · -- the ids answered are distinct, and they are all the ids there are
    have hperm : (answered before).Perm (List.range (requested before)) := by
      apply (List.perm_ext_iff_of_nodup honce List.nodup_range).mpr
      intro id
      have hsent := htracks.sent id
      rw [hanswered, hrequested] at hsent
      rw [List.mem_range]
      exact ⟨hsent, hall id⟩
    rw [hcount, hperm.length_eq, List.length_range, ClientData.requestCount, hrows]
  · obtain ⟨i, hi⟩ := List.mem_iff_getElem?.mp hrow
    have hlt : i < requested before := by
      rw [← hrows]
      exact (List.getElem?_eq_some_iff.mp hi).1
    exact (hmarked i row hi).mpr (hall i hlt)

/-- One second in which the client is asked for no more than its first request. -/
def oneInterval : RequestInterval := ⟨1, 0⟩

def started : Client :=
  { clientData := ClientData.new, activeServer := 1, finalRequestCount := none,
    nextRequestId := 0, intervals := [], requestInterval := 999999000, nextInterval := 1000,
    finished := false }

def ended (responseTime : Option Timestamp) (responseCount : Nat) : Client :=
  { started with
    clientData := ⟨[⟨1, true, responseTime⟩], responseCount⟩
    finalRequestCount := some 1
    nextRequestId := 1
    finished := true }

def answeredInTime : List Event :=
  [.requestTick true 1, .serverMessage (.write 0) 2, .intervalTick]

theorem finished_iff_answeredInTime :
    ∃ before, answeredInTime = before ++ [.intervalTick] ∧
      intervalTicks before + 1 = [oneInterval].length ∧
      (((ended (some 2) 1).clientData.responseCount = (ended (some 2) 1).clientData.requestCount ∧
          ∀ row ∈ (ended (some 2) 1).clientData.toCsv, row.responseTime.isSome) ↔
        ∀ id < requested before, id ∈ answered before) :=
  @finished_iff 1 [oneInterval] started _ answeredInTime (by decide) (by decide) rfl (by decide)

/-- A client that sends one request in its only interval and ends before the response. -/
theorem finished_unanswered :
    ¬ ∀ (serverId : NodeId) (intervals : List RequestInterval) (events : List Event)
      (c s : Client), Client.new serverId intervals = some c →
      run Client.step c events = some s → s.finished = true → (answered events).Nodup →
      s.clientData.responseCount = s.clientData.requestCount ∧
        ∀ row ∈ s.clientData.toCsv, row.responseTime.isSome := by
  intro h
  obtain ⟨hcount, _⟩ := h 1 [oneInterval] [.requestTick true 1, .intervalTick] started
    (ended none 0) (by decide) (by decide) rfl (by decide)
  revert hcount
  decide

end OmniPaxosJepsen.ClientRun
