import OmniPaxosJepsen.HarnessIds
import OmniPaxosJepsen.Runs

namespace OmniPaxosJepsen.HarnessHistory

open Json KvSpec Node Checker Apply Cluster Replication Forwarding Harness Answers HistorySpec
  HarnessStep HarnessIds Runs

def recordedAs : Reply Value → String
  | .value _ | .written | .swapped => "ok"
  | .absent | .mismatch => "fail"

theorem eventType_ok {msg : Value} {type : String}
    (h : ((msg.get "body").get "type").asStr = some type)
    (hok : "_ok".toList.isSuffixOf type.toList = true) : eventType msg = "ok" := by
  simp only [eventType, h, Option.getD_some, hok, ↓reduceIte]

theorem eventType_fail {msg : Value} {code : Nat}
    (h : ((msg.get "body").get "type").asStr = some "error")
    (hcode : ((msg.get "body").get "code").asU64 = some code) (hc : code = 20 ∨ code = 22) :
    eventType msg = "fail" := by
  have hsuffix : "_ok".toList.isSuffixOf "error".toList = false := by decide
  simp only [eventType, h, Option.getD_some, hsuffix, hcode, hc, ↓reduceIte, Bool.false_eq_true]

theorem responseEntry_render (node : String) (cmd : MaelstromCommand) (r : Reply Value)
    (now : U128) : (responseEntry (render node cmd r) now).id = cmd.msgId ∧
      (responseEntry (render node cmd r) now).eventType = recordedAs r ∧
      (responseEntry (render node cmd r) now).value = r.value? := by
  refine ⟨?_, ?_, ?_⟩
  · cases r <;> rfl
  · cases r with
    | value v => exact eventType_ok rfl (by decide)
    | written => exact eventType_ok rfl (by decide)
    | swapped => exact eventType_ok rfl (by decide)
    | absent => exact eventType_fail rfl rfl (.inl rfl)
    | mismatch => exact eventType_fail rfl rfl (.inr rfl)
  · cases r <;> rfl

structure Recorded (s : HarnessState) : Prop where
  answered : ∀ e ∈ s.history, completes e →
    ∃ n, ∃ msg ∈ s.cluster.sent n, e = responseEntry msg e.timeNs
  sorted : s.history.Pairwise (fun a b => a.timeNs ≤ b.timeNs)
  past : ∀ e ∈ s.history, e.timeNs ≤ s.now
  inputs : ∀ i ∈ s.history, invokes i → (i.op = "write" → i.value.isSome) ∧
    (i.op = "cas" → i.casFrom.isSome ∧ i.casTo.isSome)
  invoked : ∀ n < s.history.length, ∀ e ∈ s.history[n]?, completes e →
    ∃ i ∈ s.history.take n, i.id = e.id ∧ invokes i
  precedes : s.history.Pairwise (fun e i => completes e → invokes i →
    ∃ k cmd, s.cluster.log[k]? = some cmd ∧ cmd.msgId = e.id ∧
      ∀ c ∈ s.cluster.log.take (k + 1), c.msgId < i.id)

theorem recorded_init : Recorded Harness.init := by
  constructor <;> simp [Harness.init]

theorem Recorded.of_cluster {s t : HarnessState} (hs : Recorded s) (hhist : t.history = s.history)
    (hnow : t.now = s.now) (hsent : ∀ n, ∀ msg ∈ s.cluster.sent n, msg ∈ t.cluster.sent n)
    (hlog : ∃ l, t.cluster.log = s.cluster.log ++ l) : Recorded t := by
  obtain ⟨l, hl⟩ := hlog
  refine ⟨fun e he hc => ?_, hhist ▸ hs.sorted, ?_, hhist ▸ hs.inputs, hhist ▸ hs.invoked, ?_⟩
  · obtain ⟨n, msg, hmsg, heq⟩ := hs.answered e (hhist ▸ he) hc
    exact ⟨n, msg, hsent n msg hmsg, heq⟩
  · rw [hhist, hnow]
    exact hs.past
  · rw [hhist]
    refine hs.precedes.imp (fun {e i} h hc hinv => ?_)
    obtain ⟨k, cmd, hk, hid, hlt⟩ := h hc hinv
    have hklog := (List.getElem?_eq_some_iff.mp hk).1
    refine ⟨k, cmd, by rw [hl, List.getElem?_append_left hklog, hk], hid, ?_⟩
    rwa [hl, List.take_append_of_le_length hklog]

theorem Recorded.record {s t : HarnessState} (hs : Recorded s) {e : HistoryEntry}
    (hhist : t.history = s.history ++ [e]) (hcluster : t.cluster = s.cluster)
    (htime : e.timeNs = t.now) (hnow : s.now ≤ t.now)
    (hans : completes e → ∃ n, ∃ msg ∈ s.cluster.sent n, e = responseEntry msg e.timeNs)
    (hinputs : invokes e → (e.op = "write" → e.value.isSome) ∧
      (e.op = "cas" → e.casFrom.isSome ∧ e.casTo.isSome))
    (hinvoked : completes e → ∃ i ∈ s.history, i.id = e.id ∧ invokes i)
    (hprec : ∀ c ∈ s.history, completes c → invokes e → ∃ k cmd, s.cluster.log[k]? = some cmd ∧
      cmd.msgId = c.id ∧ ∀ d ∈ s.cluster.log.take (k + 1), d.msgId < e.id) : Recorded t := by
  have hmem : ∀ a ∈ t.history, a ∈ s.history ∨ a = e := fun a ha => by simpa [hhist] using ha
  refine ⟨fun a ha hc => ?_, ?_, fun a ha => ?_, fun a ha hinv => ?_, fun n hn a ha hc => ?_, ?_⟩
  · rw [hcluster]
    obtain ha | rfl := hmem a ha
    · exact hs.answered a ha hc
    · exact hans hc
  · rw [hhist]
    refine List.pairwise_append.mpr ⟨hs.sorted, List.pairwise_singleton _ _, fun a ha b hb => ?_⟩
    rw [List.mem_singleton.mp hb, htime]
    exact (hs.past a ha).trans hnow
  · obtain ha | rfl := hmem a ha
    · exact (hs.past a ha).trans hnow
    · exact htime.le
  · obtain ha | rfl := hmem a ha
    · exact hs.inputs a ha hinv
    · exact hinputs hinv
  · rw [hhist] at hn ha ⊢
    by_cases hlt : n < s.history.length
    · rw [List.getElem?_append_left hlt] at ha
      rw [List.take_append_of_le_length hlt.le]
      exact hs.invoked n hlt a ha hc
    · have hn' : n = s.history.length := by
        rw [List.length_append, List.length_singleton] at hn
        omega
      subst hn'
      have hae : a = e := by simpa using ha.symm
      subst hae
      simpa using hinvoked hc
  · rw [hhist, hcluster]
    refine List.pairwise_append.mpr ⟨hs.precedes, List.pairwise_singleton _ _, fun a ha b hb => ?_⟩
    rw [List.mem_singleton.mp hb]
    exact hprec a ha

theorem log_known {members : Finset String} {s : HarnessState} (hg : Grounded members s)
    {cmd : MaelstromCommand} (h : cmd ∈ s.cluster.log) : cmd ∈ known s :=
  List.mem_append_right _ (Multiset.mem_coe.mp
    (Multiset.mem_of_le (log_le_accepted hg.conserved) (Multiset.mem_coe.mpr h)))

/-- A message to a client, recorded, names a log entry and carries its reply. -/
theorem sent_entry {members : Finset String} {s : HarnessState} (hg : Grounded members s)
    {n : String} {msg : Value} (hmsg : msg ∈ s.cluster.sent n) (now : U128) :
    ∃ k cmd, s.cluster.log[k]? = some cmd ∧ (responseEntry msg now).id = cmd.msgId ∧
      (responseEntry msg now).eventType = recordedAs (replyAt s.cluster.log k cmd) ∧
      (responseEntry msg now).value = (replyAt s.cluster.log k cmd).value? := by
  obtain ⟨k, cmd, hk, _, rfl⟩ := hg.answer hmsg
  exact ⟨k, cmd, hk, responseEntry_render n cmd _ now⟩

theorem requestFields_inputs {opType : String} {value casFrom casTo : Option Value}
    {fields : List (String × Value)} (h : requestFields opType value casFrom casTo = some fields) :
    (opType = "write" → value.isSome) ∧ (opType = "cas" → casFrom.isSome ∧ casTo.isSome) := by
  unfold requestFields at h
  split at h
  · obtain ⟨v, rfl, _⟩ := Option.map_eq_some_iff.mp h
    simp
  · obtain ⟨v, rfl, h⟩ := Option.bind_eq_some_iff.mp h
    obtain ⟨w, rfl, _⟩ := Option.map_eq_some_iff.mp h
    simp
  · next hwrite hcas => exact ⟨fun hw => (hwrite hw).elim, fun hc => (hcas hc).elim⟩

theorem step_recorded {members : Finset String} {s t : HarnessState} {a : Harness.Action}
    (hg : Grounded members s) (hn : Named s) (hs : Recorded s)
    (h : Harness.step members s a = some t) : Recorded t := by
  have hnext := HarnessStep.step_next h
  cases a with
  | sendOperation node client opType key value casFrom casTo now =>
    obtain ⟨hnow, fields, hfields, rfl⟩ := hnext
    refine hs.record rfl rfl rfl hnow (fun hc => by cases hc)
      (fun _ => requestFields_inputs hfields) (fun hc => by cases hc) (fun c hc hcomp _ => ?_)
    obtain ⟨n, msg, hmsg, heq⟩ := hs.answered c hc hcomp
    obtain ⟨k, cmd, hk, hid, _⟩ := sent_entry hg hmsg c.timeNs
    refine ⟨k, cmd, hk, by rw [← hid, ← heq], fun d hd => ?_⟩
    exact hn.msgId_lt (log_known hg (List.mem_of_mem_take hd))
  | handle i append =>
    obtain ⟨node, msg, cluster, _, hstep, rfl⟩ := hnext
    obtain ⟨l, hl, _⟩ := step_history hstep
    exact hs.of_cluster rfl rfl (fun n msg hmsg => mem_sent_of_append hl hmsg) (step_log hstep)
  | internal a =>
    obtain ⟨cluster, node, msgs, _, hstep, hl, rfl⟩ := hnext
    exact hs.of_cluster rfl rfl (fun n msg hmsg => mem_sent_of_append hl hmsg) (step_log hstep)
  | recordResponse i now =>
    obtain ⟨node, msg, hm, hnow, rfl⟩ := hnext
    have hsent := hg.unread _ (List.mem_of_getElem? hm)
    refine hs.record rfl rfl rfl hnow (fun _ => ⟨node, msg, hsent, rfl⟩)
      (fun hinv => ?_) (fun _ => ?_) (fun _ _ _ hinv => ?_)
    · rw [responseEntry_not_invoke] at hinv
      cases hinv
    · obtain ⟨k, cmd, hk, hid, _⟩ := sent_entry hg hsent now
      obtain ⟨i, hi, hinv, hiid, _⟩ := hn.requested cmd (log_known hg (List.mem_of_getElem? hk))
      exact ⟨i, hi, by rw [hiid, hid], hinv⟩
    · rw [responseEntry_not_invoke] at hinv
      cases hinv
  | discard i =>
    obtain rfl := hnext
    exact hs.of_cluster rfl rfl (fun _ _ hmsg => hmsg) ⟨[], (List.append_nil _).symm⟩
  | kill node =>
    obtain rfl := hnext
    exact hs.of_cluster rfl rfl (fun _ _ hmsg => hmsg) ⟨[], (List.append_nil _).symm⟩
  | restart node =>
    obtain ⟨_, rfl⟩ := hnext
    exact hs.of_cluster rfl rfl (fun _ _ hmsg => hmsg) ⟨[], (List.append_nil _).symm⟩

theorem run_recorded {members : Finset String} {acts : List Harness.Action} {s : HarnessState}
    (h : run (Harness.step members) Harness.init acts = some s) :
    Grounded members s ∧ Named s ∧ Recorded s :=
  run_invariant (fun u => Grounded members u ∧ Named u ∧ Recorded u)
    (fun _ _ _ _ hu hstep => ⟨step_grounded hu.1 hstep, step_named hu.1 hu.2.1 hstep,
      step_recorded hu.1 hu.2.1 hu.2.2 hstep⟩)
    ⟨grounded_init members, named_init, recorded_init⟩ h

end OmniPaxosJepsen.HarnessHistory
