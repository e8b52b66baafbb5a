import OmniPaxosJepsen.ProgramNodes

namespace OmniPaxosJepsen.ProgramHarness

open Json Node Checker Cluster Common EventLoop NodeLines Totals Refinement Traffic Program
  ProgramNodes
open Delivery (Delivers)
open FaultInjection (Enforced)
open Harness (HarnessState isClientResponse responseEntry)
open Routing (TestHarness NodeProcess NetworkSimulator src dest recvAll)

variable {lib : Library} {ids : List String} {s t : TestRun} {u v : HarnessState} {n : String}
  {hands lost : Multiset Value} {harness : TestHarness} {msg : Value}

def withHarness (s : TestRun) (harness : TestHarness) : TestRun := { s with harness := harness }

theorem Sane.delivers (h : Sane ids s) (hdelivers : Delivers s.harness t.harness)
    (hprocesses : t.processes = s.processes) : Sane ids t := by
  refine ⟨h.enforced.delivers hdelivers, h.faults.delivers hdelivers, fun m => ?_⟩
  obtain ⟨sent, hstdin, _⟩ := hdelivers.stdin m
  have hhandled := h.handled m
  rw [hprocesses, hstdin, List.length_append]
  omega

theorem Sane.alive (h : Sane ids s) (hn : n ∈ ids) :
    (s.harness.nodes n).alive = !s.harness.network.isKilled n :=
  h.enforced.alive n (h.faults.nodeIds ▸ hn)

theorem Refines.lose (hs : Refines lib ids (lost + hands) s u) :
    ∃ v, Reaches (Harness.step ids.toFinset) u v ∧ Refines lib ids hands s v := by
  obtain ⟨v, hreach, hquiet, hcarried⟩ := hs.carried.lose
  exact ⟨v, hreach, hs.same.quiet hquiet, hcarried⟩

theorem recvAll_filterMap (lines : List (Option Value)) :
    lines.filterMap id = (recvAll lines).1 ++ (recvAll lines).2.filterMap id := by
  induction lines with
  | nil => rfl
  | cons line lines ih =>
    cases line with
    | none => rfl
    | some msg => simpa [recvAll] using ih

theorem recv_unread (s : TestRun) (n : String) :
    unread s n = (s.harness.recv n).2 ++ unread (withHarness s (s.harness.recv n).1) n := by
  have hself : (s.harness.recv n).1.nodes n = { s.harness.nodes n with
      stdoutRx := (recvAll (s.harness.nodes n).stdoutRx).2 } := Function.update_self _ _ _
  rw [unread, List.filterMap_append, recvAll_filterMap, List.append_assoc]
  simp only [unread, withHarness, hself, List.filterMap_append]
  rfl

theorem recv_unread_of_ne {m : String} (hm : m ≠ n) :
    unread (withHarness s (s.harness.recv n).1) m = unread s m := by
  have hnodes : (s.harness.recv n).1.nodes m = s.harness.nodes m := Function.update_of_ne hm _ _
  simp [unread, withHarness, hnodes]

theorem recv_unhandled (s : TestRun) (n : String) :
    unhandled (withHarness s (s.harness.recv n).1) = unhandled s := by
  funext m
  by_cases hm : m = n
  · subst hm
    simp [unhandled, withHarness, TestHarness.recv]
  · simp [unhandled, withHarness, TestHarness.recv, Function.update_of_ne hm]

theorem recv_refines (hs : Refines lib ids hands s u) (hn : n ∈ ids) :
    Refines lib ids ((s.harness.recv n).2 + hands) (withHarness s (s.harness.recv n).1) u := by
  constructor
  · exact hs.same.of_eq (fun _ => ⟨rfl, rfl⟩) rfl rfl rfl rfl rfl
  · rw [recv_unhandled]
    exact hs.carried.read hn (fun m hm => recv_unread_of_ne hm) _
      (List.Perm.of_eq (recv_unread s n))

theorem send_unread (s : TestRun) (n : String) (msg : Value) :
    unread (withHarness s (s.harness.send n msg)) = unread s := by
  funext m
  by_cases hmem : n ∈ s.harness.nodeIds
  · by_cases hm : m = n
    · subst hm
      simp [unread, withHarness, TestHarness.send, hmem]
    · simp [unread, withHarness, TestHarness.send, hmem, Function.update_of_ne hm]
  · simp [unread, withHarness, TestHarness.send, hmem]

theorem send_unhandled (hsane : Sane ids s) (hn : n ∈ ids)
    (hkilled : s.harness.network.isKilled n = false) (msg : Value) :
    unhandled (withHarness s (s.harness.send n msg)) =
      Function.update (unhandled s) n (unhandled s n ++ [msg]) := by
  have hmem : n ∈ s.harness.nodeIds := hsane.faults.nodeIds ▸ hn
  have halive : (s.harness.nodes n).alive = true := by
    rw [Sane.alive hsane hn, hkilled, Bool.not_false]
  funext m
  by_cases hm : m = n
  · subst hm
    simp [unhandled, withHarness, TestHarness.send, hmem, halive,
      List.drop_append_of_le_length (hsane.handled _)]
  · simp [unhandled, withHarness, TestHarness.send, hmem, Function.update_of_ne hm]

theorem send_same (hs : Same lib ids s u) (n : String) (msg : Value) :
    Same lib ids (withHarness s (s.harness.send n msg)) u := by
  by_cases hmem : n ∈ s.harness.nodeIds
  · rw [TestHarness.send, if_pos hmem]
    exact hs.of_eq (fun _ => ⟨rfl, rfl⟩) rfl rfl rfl rfl rfl
  · rw [TestHarness.send, if_neg hmem]
    exact hs

theorem send_refines (hsane : Sane ids s) (hs : Refines lib ids (msg ::ₘ hands) s u)
    (hpasses : s.harness.passes msg = true) :
    ∃ v, Reaches (Harness.step ids.toFinset) u v ∧
      Refines lib ids hands (withHarness s (s.harness.send (dest msg) msg)) v := by
  by_cases hn : dest msg ∈ ids
  · simp only [TestHarness.passes, Bool.and_eq_true, Bool.not_eq_true'] at hpasses
    obtain ⟨v, hreach, hquiet, hcarried⟩ := hs.carried.send hn
      (fun m hm => Function.update_of_ne hm (unhandled s (dest msg) ++ [msg]) (unhandled s))
      (Function.update_self _ _ _) rfl
    refine ⟨v, hreach, send_same (hs.same.quiet hquiet) _ _, ?_⟩
    rw [send_unread, send_unhandled hsane hn hpasses.2]
    exact hcarried
  · have hsend : s.harness.send (dest msg) msg = s.harness :=
      if_neg (hsane.faults.nodeIds ▸ hn)
    rw [hsend]
    rw [← Multiset.singleton_add] at hs
    exact Refines.lose hs

theorem lastTime_append (history : List HistoryEntry) (e : HistoryEntry) :
    lastTime (history ++ [e]) = e.timeNs := by
  simp [lastTime]

theorem lastTime_le {history later : List HistoryEntry} {e : HistoryEntry}
    (h : ((history ++ e :: later).map HistoryEntry.timeNs).Pairwise (· ≤ ·)) :
    lastTime history ≤ e.timeNs := by
  rw [List.map_append, List.pairwise_append] at h
  cases hlast : history.getLast? with
  | none =>
    simp only [lastTime, hlast, Option.map_none, Option.getD_none]
    exact Fin.zero_le _
  | some last =>
    simp only [lastTime, hlast, Option.map_some, Option.getD_some]
    exact h.2.2 _ (List.mem_map.mpr ⟨last, List.mem_of_getLast? hlast, rfl⟩) _ (by simp)

theorem record_refines (hs : Refines lib ids (msg ::ₘ hands) s u)
    (hclient : isClientResponse msg = true) {now : U128} (hnow : lastTime s.harness.history ≤ now) :
    ∃ v, Reaches (Harness.step ids.toFinset) u v ∧
      Refines lib ids hands (withHarness s (s.harness.recordResponse msg now)) v := by
  rw [← hs.same.now] at hnow
  obtain ⟨stdout, hreach, hcarried⟩ := hs.carried.record hclient hnow
  refine ⟨_, hreach, ?_, hcarried⟩
  refine ⟨hs.same.nodes, hs.same.opDecidedIdx, hs.same.log, hs.same.appended, hs.same.killedNodes,
    ?_, hs.same.nextOpId, ?_⟩
  · exact congrArg (· ++ [responseEntry msg now]) hs.same.history
  · exact (lastTime_append s.harness.history (responseEntry msg now)).symm

theorem drain_refines (hsane : Sane ids s) (hs : Refines lib ids 0 s u)
    (order : IterOrder String) :
    Refines lib ids (s.harness.drainAllMessages order).2
      (withHarness s (s.harness.drainAllMessages order).1) u := by
  refine List.foldlRecOn (motive := fun p : TestHarness × List Value =>
    Refines lib ids p.2 (withHarness s p.1) u) _ _ hs ?_
  rintro ⟨harness, msgs⟩ hp n hn
  have hmem : n ∈ ids := hsane.faults.nodeIds ▸ (order.perm _).mem_iff.mp hn
  have hrecv := recv_refines hp hmem
  rw [add_comm, Multiset.coe_add] at hrecv
  exact hrecv

theorem deliver_refines (msgs : List Value) :
    ∀ {harness : TestHarness} {u : HarnessState} {responses : List Value},
      Sane ids (withHarness s harness) → (∀ msg ∈ responses, isClientResponse msg = true) →
      Refines lib ids (responses + msgs) (withHarness s harness) u →
      ∃ v, Reaches (Harness.step ids.toFinset) u v ∧
        Refines lib ids (msgs.foldl TestHarness.deliver (harness, responses)).2
          (withHarness s (msgs.foldl TestHarness.deliver (harness, responses)).1) v ∧
        ∀ msg ∈ (msgs.foldl TestHarness.deliver (harness, responses)).2,
          isClientResponse msg = true := by
  induction msgs with
  | nil =>
    intro harness u responses _ hresponses hs
    rw [Multiset.coe_nil, add_zero] at hs
    exact ⟨u, .refl u, hs, hresponses⟩
  | cons msg msgs ih =>
    intro harness u responses hsane hresponses hs
    rw [List.foldl_cons]
    by_cases hclient : isClientResponse msg = true
    · have hdeliver : TestHarness.deliver (harness, responses) msg =
          (harness, responses ++ [msg]) := if_pos hclient
      rw [hdeliver]
      apply ih hsane
      · simpa [or_imp, forall_and] using ⟨hresponses, hclient⟩
      · simpa only [Multiset.coe_add, List.append_assoc, List.singleton_append] using hs
    · have hhands : (responses : Multiset Value) + (msg :: msgs : List Value) =
          msg ::ₘ (responses + msgs) := by
        rw [← Multiset.cons_coe, Multiset.add_cons]
      rw [hhands] at hs
      by_cases hpasses : ("n".toList.isPrefixOf (dest msg).toList && harness.passes msg) = true
      · have hdeliver : TestHarness.deliver (harness, responses) msg =
            (harness.send (dest msg) msg, responses) := by
          rw [TestHarness.deliver, if_neg hclient, if_pos hpasses]
        rw [hdeliver]
        have hpass := ((Bool.and_eq_true _ _).mp hpasses).2
        obtain ⟨v, hreach, hv⟩ := send_refines hsane hs hpass
        have hsent : Sane ids (withHarness s (harness.send (dest msg) msg)) :=
          Sane.delivers (s := withHarness s harness) hsane (Delivery.delivers_passes hpass) rfl
        obtain ⟨w, hreach', hw⟩ := ih hsent hresponses hv
        exact ⟨w, hreach.trans hreach', hw⟩
      · have hdeliver : TestHarness.deliver (harness, responses) msg = (harness, responses) := by
          rw [TestHarness.deliver, if_neg hclient, if_neg hpasses]
        rw [hdeliver]
        rw [← Multiset.singleton_add] at hs
        obtain ⟨v, hreach, hv⟩ := Refines.lose hs
        obtain ⟨w, hreach', hw⟩ := ih hsane hresponses hv
        exact ⟨w, hreach.trans hreach', hw⟩

theorem recordResponses_history (responses : List (Value × U128)) (harness : TestHarness) :
    (harness.recordResponses responses).history =
      harness.history ++ responses.map (fun m => responseEntry m.1 m.2) := by
  induction responses generalizing harness with
  | nil => simp [TestHarness.recordResponses]
  | cons m responses ih =>
    have hcons : harness.recordResponses (m :: responses) =
        (harness.recordResponse m.1 m.2).recordResponses responses := rfl
    rw [hcons, ih]
    simp [TestHarness.recordResponse]

theorem recordAll_refines (responses : List (Value × U128)) :
    ∀ {harness : TestHarness} {u : HarnessState},
      (∀ m ∈ responses, isClientResponse m.1 = true) →
      ((harness.recordResponses responses).history.map HistoryEntry.timeNs).Pairwise (· ≤ ·) →
      Refines lib ids (responses.map Prod.fst : List Value) (withHarness s harness) u →
      ∃ v, Reaches (Harness.step ids.toFinset) u v ∧
        Refines lib ids 0 (withHarness s (harness.recordResponses responses)) v := by
  induction responses with
  | nil => exact fun _ _ hs => ⟨_, .refl _, hs⟩
  | cons m responses ih =>
    intro harness u hclient hclock hs
    have hcons : harness.recordResponses (m :: responses) =
        (harness.recordResponse m.1 m.2).recordResponses responses := rfl
    rw [List.map_cons, ← Multiset.cons_coe] at hs
    have hnow : lastTime harness.history ≤ m.2 := by
      rw [recordResponses_history] at hclock
      exact lastTime_le hclock
    obtain ⟨v, hreach, hv⟩ := record_refines hs (hclient m (by simp)) hnow
    obtain ⟨w, hreach', hw⟩ := ih (fun m hm => hclient m (by simp [hm])) (hcons ▸ hclock) hv
    exact ⟨w, hreach.trans hreach', hw⟩

theorem Refines.clientIdx (hs : Refines lib ids hands s u) (clientIdx : Option Nat) :
    Refines lib ids hands { s with clientIdx := clientIdx } u :=
  ⟨hs.same.of_eq (fun _ => ⟨rfl, rfl⟩) rfl rfl rfl rfl rfl, hs.carried⟩

theorem clocked_eq_some (h : s.clocked = some t) :
    (s.harness.history.map HistoryEntry.timeNs).Pairwise (· ≤ ·) ∧ t = s := by
  simp only [TestRun.clocked, Option.ite_none_right_eq_some, Option.some.injEq] at h
  exact ⟨h.1, h.2.symm⟩

theorem map_fst_clocked (responses : List Value) (clock : Nat → U128) :
    (responses.zipIdx.map (fun m => (m.1, clock m.2))).map Prod.fst = responses := by
  rw [List.map_map]
  exact List.zipIdx_map_fst 0 responses

/-- The first part of a turn: what was read is written to nodes, recorded or lost. -/
theorem turn_refines (hsane : Sane ids s) (hs : Refines lib ids 0 s u)
    {order : IterOrder String} {clock : Nat → U128} (h : s.drain order clock = some t) :
    ∃ v, Reaches (Harness.step ids.toFinset) u v ∧ Refines lib ids 0 t v := by
  simp only [TestRun.drain, Option.ite_none_right_eq_some] at h
  obtain ⟨hclock, rfl⟩ := clocked_eq_some h.2
  have hread := drain_refines hsane hs order
  have hsane' := Sane.delivers (t := withHarness s (s.harness.drainAllMessages order).1) hsane
    (Delivery.drainAllMessages_delivers s.harness order) rfl
  have hhands : Refines lib ids (([] : List Value) + (s.harness.drainAllMessages order).2)
      (withHarness s (s.harness.drainAllMessages order).1) u := by
    rwa [Multiset.coe_nil, zero_add]
  obtain ⟨v, hreach, hv, hclients⟩ := deliver_refines _ hsane' (by simp) hhands
  have hrecord : Refines lib ids ((((s.harness.drainAllMessages order).1.deliverMessages
      (s.harness.drainAllMessages order).2).2.zipIdx.map (fun m => (m.1, clock m.2))).map Prod.fst :
        List Value) (withHarness s ((s.harness.drainAllMessages order).1.deliverMessages
          (s.harness.drainAllMessages order).2).1) v := by
    rw [map_fst_clocked]
    exact hv
  have hresponses : ∀ m ∈ ((s.harness.drainAllMessages order).1.deliverMessages
      (s.harness.drainAllMessages order).2).2.zipIdx.map (fun m => (m.1, clock m.2)),
        isClientResponse m.1 = true := by
    intro m hm
    obtain ⟨x, hx, rfl⟩ := List.mem_map.mp hm
    exact hclients x.1 (List.fst_mem_of_mem_zipIdx hx)
  obtain ⟨w, hreach', hw⟩ := recordAll_refines _ hresponses hclock hrecord
  exact ⟨w, hreach.trans hreach', Refines.clientIdx hw (some 0)⟩

theorem sendOperation_eq (hsane : Sane ids s) (hn : n ∈ ids)
    (hkilled : s.harness.network.isKilled n = false) {client opType key : String}
    {value casFrom casTo : Option Value} {now : U128}
    (h : s.harness.sendOperation n client opType key value casFrom casTo now = some harness) :
    ∃ fields, Harness.requestFields opType value casFrom casTo = some fields ∧
      harness = { s.harness with
        nodes := harness.nodes
        written := harness.written
        history := s.harness.history ++ [HarnessStep.invokeEntry s.harness.nextOpId client opType
          key value casFrom casTo now]
        nextOpId := s.harness.nextOpId + 1 } ∧
      unread (withHarness s harness) = unread s ∧
      unhandled (withHarness s harness) = Function.update (unhandled s) n (unhandled s n ++
        [HarnessStep.requestMessage s.harness.nextOpId n client opType key fields]) := by
  obtain ⟨fields, hfields, rfl⟩ := Option.map_eq_some_iff.mp h
  generalize hmsg : HarnessStep.requestMessage s.harness.nextOpId n client opType key fields = msg
  generalize hrecorded : { s.harness with
    nextOpId := s.harness.nextOpId + 1
    history := s.harness.history ++ [HarnessStep.invokeEntry s.harness.nextOpId client
      opType key value casFrom casTo now] } = recorded
  have hsane' : Sane ids (withHarness s recorded) := by
    refine Sane.delivers hsane ?_ rfl
    rw [← hrecorded]
    exact Delivery.delivers_of_eq rfl rfl rfl (fun _ => ⟨rfl, rfl⟩) rfl
  have hmem : n ∈ recorded.nodeIds := hsane'.faults.nodeIds ▸ hn
  refine ⟨fields, hfields, ?_, ?_, ?_⟩
  · rw [TestHarness.send, if_pos hmem, ← hrecorded]
  · have hsame : unread (withHarness s recorded) = unread s := by
      rw [← hrecorded]
      rfl
    exact (send_unread (withHarness s recorded) n msg).trans hsame
  · have hsame : unhandled (withHarness s recorded) = unhandled s := by
      rw [← hrecorded]
      rfl
    have hsend := send_unhandled hsane' hn (by rw [← hrecorded]; exact hkilled) msg
    rw [hsame] at hsend
    rw [hmsg]
    exact hsend

theorem sendOperation_refines (hsane : Sane ids s) (hs : Refines lib ids 0 s u) (hn : n ∈ ids)
    (hkilled : s.harness.network.isKilled n = false) {client opType key : String}
    (htype : opType ∈ ["read", "write", "cas"]) {value casFrom casTo : Option Value} {now : U128}
    (hclock : (harness.history.map HistoryEntry.timeNs).Pairwise (· ≤ ·))
    (h : s.harness.sendOperation n client opType key value casFrom casTo now = some harness) :
    ∃ v, Reaches (Harness.step ids.toFinset) u v ∧
      Refines lib ids 0 (withHarness s harness) v := by
  obtain ⟨fields, hfields, hharness, hunread, hunhandled⟩ := sendOperation_eq hsane hn hkilled h
  have hhistory := congrArg TestHarness.history hharness
  have hnext := congrArg TestHarness.nextOpId hharness
  have hnetwork := congrArg TestHarness.network hharness
  have hkilled' : n ∉ u.killedNodes := by
    rw [← hs.same.killedNodes]
    exact of_decide_eq_false hkilled
  rw [hs.same.nextOpId] at hhistory hnext hunhandled
  generalize hentry : HarnessStep.invokeEntry u.nextOpId client opType key value casFrom casTo now =
    entry at hhistory
  have htime : entry.timeNs = now := by
    rw [← hentry]
    rfl
  have hnow : u.now ≤ now := by
    rw [hs.same.now, ← htime]
    rw [hhistory] at hclock
    exact lastTime_le hclock
  obtain ⟨hreach, hcarried⟩ := hs.carried.operate hn hkilled'
    (fun m hm => Function.update_of_ne hm (unhandled s n ++
      [HarnessStep.requestMessage u.nextOpId n client opType key fields]) (unhandled s))
    (Function.update_self _ _ _) htype hfields hnow rfl
  rw [hentry] at hreach hcarried
  refine ⟨_, hreach, ?_, ?_⟩
  · refine ⟨hs.same.nodes, hs.same.opDecidedIdx, hs.same.log, hs.same.appended, ?_, ?_, hnext, ?_⟩
    · exact (congrArg Routing.NetworkSimulator.killedNodes hnetwork).trans hs.same.killedNodes
    · exact hhistory.trans (congrArg (· ++ [entry]) hs.same.history)
    · exact (htime.symm.trans (lastTime_append s.harness.history entry).symm).trans
        (congrArg lastTime hhistory.symm)
  · rw [hunread, hunhandled]
    exact hcarried

theorem generateOne_cases (hsane : Sane ids s) {clientIdx : Nat} {choice : Routing.Choice}
    (h : s.harness.generateOne clientIdx choice = some harness) :
    harness = s.harness ∨ ∃ n ∈ ids, s.harness.network.isKilled n = false ∧
      ∃ opType key value casFrom casTo, opType ∈ ["read", "write", "cas"] ∧
        (KvModel.input opType key value casFrom casTo).isSome ∧
        s.harness.sendOperation n (Delivery.clientName clientIdx) opType key value casFrom casTo
          choice.now = some harness := by
  simp only [TestHarness.generateOne, Option.bind_eq_bind, Option.bind_eq_some_iff] at h
  obtain ⟨n, htarget, h⟩ := h
  have hn : n ∈ ids := hsane.faults.nodeIds ▸ List.mem_of_getElem? htarget
  split at h
  case isTrue =>
    cases h
    exact .inl rfl
  case isFalse hkilled =>
    rw [Bool.not_eq_true] at hkilled
    split at h
    · exact .inr ⟨n, hn, hkilled, _, _, _, _, _, by simp, rfl, h⟩
    · exact .inr ⟨n, hn, hkilled, _, _, _, _, _, by simp, rfl, h⟩
    · exact .inr ⟨n, hn, hkilled, _, _, _, _, _, by simp, rfl, h⟩

theorem generate_refines (hsane : Sane ids s) (hs : Refines lib ids 0 s u)
    {choice : Routing.Choice} (h : s.generate choice = some t) :
    ∃ v, Reaches (Harness.step ids.toFinset) u v ∧ Refines lib ids 0 t v := by
  simp only [TestRun.generate, Option.bind_eq_bind, Option.bind_eq_some_iff] at h
  obtain ⟨clientIdx, _, harness, hgenerate, h⟩ := h
  obtain ⟨hclock, rfl⟩ := clocked_eq_some h
  obtain rfl | ⟨n, hn, hkilled, opType, key, value, casFrom, casTo, htype, _, hsend⟩ :=
    generateOne_cases hsane hgenerate
  · exact ⟨u, .refl u, Refines.clientIdx hs _⟩
  · obtain ⟨v, hreach, hv⟩ := sendOperation_refines hsane hs hn hkilled htype hclock hsend
    exact ⟨v, hreach, Refines.clientIdx hv _⟩

theorem links_refines (hs : Refines lib ids hands s u) {network : Routing.NetworkSimulator}
    (hkilled : network.killedNodes = s.harness.network.killedNodes) :
    Refines lib ids hands (withHarness s { s.harness with network := network }) u :=
  ⟨hs.same.of_eq (fun _ => ⟨rfl, rfl⟩) rfl rfl hkilled rfl rfl, hs.carried⟩

theorem kill_refines (hs : Refines lib ids 0 s u) (hn : n ∈ ids) :
    ∃ v, Reaches (Harness.step ids.toFinset) u v ∧ Refines lib ids 0 (withHarness s
      { s.harness with
        nodes := Function.update s.harness.nodes n { s.harness.nodes n with alive := false }
        network := s.harness.network.killNode n }) v := by
  obtain ⟨inFlight, dropped, stdin, hreach, hcarried⟩ := hs.carried.kill hn
    (fun m hm => Function.update_of_ne hm [] (unhandled s)) (Function.update_self _ _ _)
  refine ⟨_, hreach, ?_, ?_⟩
  · refine ⟨hs.same.nodes, hs.same.opDecidedIdx, hs.same.log, hs.same.appended, ?_,
      hs.same.history, hs.same.nextOpId, hs.same.now⟩
    exact congrArg (· ++ [n]) hs.same.killedNodes
  · convert hcarried using 1
    · funext m
      by_cases hm : m = n
      · subst hm
        simp [unread, withHarness]
      · simp [unread, withHarness, Function.update_of_ne hm]
    · funext m
      by_cases hm : m = n
      · subst hm
        simp [unhandled, withHarness]
      · simp [unhandled, withHarness, Function.update_of_ne hm]

theorem respawn_of_alive (late : String → Bool) (h : ∀ m, (harness.nodes m).alive = true →
    (s.harness.nodes m).alive = true) : s.respawn lib harness late = withHarness s harness := by
  have hnone : s.anew harness = fun _ => false := by
    funext m
    cases hm : (harness.nodes m).alive with
    | false => simp [TestRun.anew, hm]
    | true => simp [TestRun.anew, h m hm]
  simp [TestRun.respawn, hnone, withHarness]

theorem attack_nodes {h h' : TestHarness} (hattack : Delivery.Attack h h') :
    (∀ m, (h'.nodes m).alive = true → (h.nodes m).alive = true) ∧
      ∀ m, (h'.nodes m).stdin = (h.nodes m).stdin := by
  cases hattack with
  | none => exact ⟨fun _ halive => halive, fun _ => rfl⟩
  | isolate _ => exact ⟨fun _ halive => halive, fun _ => rfl⟩
  | splitBrain => exact ⟨fun _ halive => halive, fun _ => rfl⟩
  | @kill node _ =>
    constructor
    · intro m halive
      by_cases hm : m = node
      · subst hm
        simp at halive
      · simpa [Function.update_of_ne hm] using halive
    · intro m
      by_cases hm : m = node
      · subst hm
        simp
      · simp [Function.update_of_ne hm]

theorem attack_refines (hs : Refines lib ids 0 s u) (hnodeIds : s.harness.nodeIds = ids)
    (h : Delivery.Attack s.harness harness) :
    ∃ v, Reaches (Harness.step ids.toFinset) u v ∧
      Refines lib ids 0 (withHarness s harness) v := by
  cases h with
  | none => exact ⟨u, .refl u, hs⟩
  | isolate hn => exact ⟨u, .refl u, links_refines hs rfl⟩
  | splitBrain => exact ⟨u, .refl u, links_refines hs rfl⟩
  | kill hn => exact kill_refines hs (hnodeIds ▸ hn)

/-- When the faults are healed, a killed node is started anew. -/
theorem heal_anew (hsane : Sane ids s) (hn : n ∈ s.harness.network.killedNodes) :
    s.anew s.harness.healAndRestart n = true := by
  have hdead : (s.harness.nodes n).alive = false := by
    rw [Sane.alive hsane (hsane.faults.faults.mem_of_killed hn), Bool.not_eq_false']
    exact decide_eq_true hn
  rw [TestRun.anew, hdead, Nemesis.healAndRestart_nodes, if_pos hn]
  rfl

theorem heal_refines (hsane : Sane ids s) (hs : Refines lib ids 0 s u) (late : String → Bool)
    (hrestarted : (s.respawn lib s.harness.healAndRestart late).restarted = false) :
    Refines lib ids 0 (s.respawn lib s.harness.healAndRestart late) u := by
  by_cases hkilled : ∃ n, n ∈ s.harness.network.killedNodes
  · obtain ⟨n, hn⟩ := hkilled
    have hanew : s.harness.healAndRestart.nodeIds.any (s.anew s.harness.healAndRestart) = true := by
      refine List.any_eq_true.mpr ⟨n, ?_, heal_anew hsane hn⟩
      rw [Nemesis.healAndRestart_nodeIds, hsane.faults.nodeIds]
      exact hsane.faults.faults.mem_of_killed hn
    simp [TestRun.respawn, hanew] at hrestarted
  · have hnone : s.harness.network.killedNodes = [] :=
      List.eq_nil_iff_forall_not_mem.mpr (fun n hn => hkilled ⟨n, hn⟩)
    have hheal : s.harness.healAndRestart =
        { s.harness with network := s.harness.network.healAll } := by
      simp [TestHarness.healAndRestart, hnone]
    rw [respawn_of_alive late (fun _ halive => by rwa [hheal] at halive), hheal]
    exact links_refines hs rfl

theorem nemesis_refines (hsane : Sane ids s) (hs : Refines lib ids 0 s u) {nemesisType : String}
    {choice : Option (Routing.NemesisChoice × (String → Bool))}
    (h : s.nemesis lib nemesisType choice = some t) (hrestarted : t.restarted = false) :
    ∃ v, Reaches (Harness.step ids.toFinset) u v ∧ Refines lib ids 0 t v := by
  simp only [TestRun.nemesis, Option.bind_eq_bind, Option.bind_eq_some_iff] at h
  obtain ⟨_, _, h⟩ := h
  split at h
  · cases h
    exact ⟨u, .refl u, Refines.clientIdx hs none⟩
  · split at h
    · cases h
      exact ⟨u, .refl u, Refines.clientIdx hs none⟩
    · next choice late =>
      simp only [Option.bind_eq_some_iff, Option.pure_def, Option.some.injEq] at h
      obtain ⟨harness, hrun, rfl⟩ := h
      obtain ⟨_, rfl⟩ | ⟨harness, _, hattack, rfl⟩ := Delivery.runNemesis_cases hrun
      · have hheal := heal_refines hsane hs late hrestarted
        exact ⟨u, .refl u, hheal.same.of_eq (fun _ => ⟨rfl, rfl⟩) rfl rfl rfl rfl rfl,
          hheal.carried⟩
      · obtain ⟨v, hreach, hv⟩ := attack_refines hs hsane.faults.nodeIds hattack
        have hrespawn : s.respawn lib { harness with nemesisActive := true } late =
            withHarness s _ := respawn_of_alive late (attack_nodes hattack).1
        rw [hrespawn]
        exact ⟨v, hreach, hv.same.of_eq (fun _ => ⟨rfl, rfl⟩) rfl rfl rfl rfl rfl, hv.carried⟩

theorem routeFrom_refines {toDeliver : List (String × Value)} (hn : n ∈ ids)
    (hs : Refines lib ids (toDeliver.map Prod.snd : List Value) (withHarness s harness) u) :
    ∃ v, Reaches (Harness.step ids.toFinset) u v ∧
      Refines lib ids ((TestHarness.routeFrom (harness, toDeliver) n).2.map Prod.snd : List Value)
        (withHarness s (TestHarness.routeFrom (harness, toDeliver) n).1) v := by
  by_cases hkilled : harness.network.isKilled n = true
  · have hroute : TestHarness.routeFrom (harness, toDeliver) n = (harness, toDeliver) :=
      if_pos hkilled
    rw [hroute]
    exact ⟨u, .refl u, hs⟩
  · generalize hkept : (harness.recv n).2.filter
      (fun msg => isClientResponse msg || (harness.recv n).1.passes msg) = kept
    generalize hlost : (harness.recv n).2.filter
      (fun msg => !(isClientResponse msg || (harness.recv n).1.passes msg)) = lost
    have hroute : TestHarness.routeFrom (harness, toDeliver) n =
        ((harness.recv n).1, toDeliver ++ kept.map (fun msg => (dest msg, msg))) := by
      rw [← hkept]
      exact if_neg hkilled
    have hsplit : ((harness.recv n).2 : Multiset Value) = lost + kept := by
      rw [← hkept, ← hlost, add_comm, Multiset.coe_add]
      exact (Multiset.coe_eq_coe.mpr (List.filter_append_perm _ _)).symm
    have hrecv := recv_refines hs hn
    have hmap : (toDeliver ++ kept.map (fun msg => (dest msg, msg))).map Prod.snd =
        toDeliver.map Prod.snd ++ kept := by
      simp [List.map_map, Function.comp_def]
    rw [hroute, hmap, ← Multiset.coe_add, add_comm]
    have hhands : Refines lib ids _ (withHarness s (harness.recv n).1) u := hrecv
    rw [show (withHarness s harness).harness = harness from rfl, hsplit, add_assoc] at hhands
    exact Refines.lose hhands

theorem forwardAll_refines (toDeliver : List (String × Value)) :
    ∀ {harness : TestHarness} {u : HarnessState}, Sane ids (withHarness s harness) →
      (∀ m ∈ toDeliver, m.1 = dest m.2 ∧ (isClientResponse m.2 || harness.passes m.2) = true) →
      Refines lib ids (toDeliver.map Prod.snd : List Value) (withHarness s harness) u →
      ∃ v, Reaches (Harness.step ids.toFinset) u v ∧
        Refines lib ids 0 (withHarness s (toDeliver.foldl (fun self m =>
          if isClientResponse m.2 then self else self.send m.1 m.2) harness)) v := by
  induction toDeliver with
  | nil => exact fun _ _ hs => ⟨_, .refl _, hs⟩
  | cons m toDeliver ih =>
    intro harness u hsane hpasses hs
    obtain ⟨hdest, hpass⟩ := hpasses m (by simp)
    have hrest := fun m' hm' => hpasses m' (List.mem_cons_of_mem m hm')
    rw [List.map_cons, ← Multiset.cons_coe] at hs
    rw [List.foldl_cons]
    by_cases hclient : isClientResponse m.2 = true
    · rw [← Multiset.singleton_add] at hs
      obtain ⟨v, hreach, hv⟩ := Refines.lose hs
      obtain ⟨w, hreach', hw⟩ := ih hsane hrest hv
      rw [if_pos hclient]
      exact ⟨w, hreach.trans hreach', hw⟩
    · rw [Bool.or_eq_true, or_iff_right hclient] at hpass
      have hdelivers := Delivery.delivers_passes hpass
      have hsent : Sane ids (withHarness s (harness.send (dest m.2) m.2)) :=
        Sane.delivers (s := withHarness s harness) hsane hdelivers rfl
      obtain ⟨v, hreach, hv⟩ := send_refines hsane hs hpass
      obtain ⟨w, hreach', hw⟩ := ih hsent
        (fun m' hm' => by rw [hdelivers.passes]; exact hrest m' hm') hv
      rw [if_neg hclient, hdest]
      exact ⟨w, hreach.trans hreach', hw⟩

theorem routeMessages_refines (hsane : Sane ids s) (hs : Refines lib ids 0 s u)
    (order : IterOrder String) :
    ∃ v, Reaches (Harness.step ids.toFinset) u v ∧
      Refines lib ids 0 (withHarness s (s.harness.routeMessages order)) v := by
  have hrouted : ∃ v, Reaches (Harness.step ids.toFinset) u v ∧ Refines lib ids
      (((order.order s.harness.nodeIds).foldl TestHarness.routeFrom (s.harness, [])).2.map
        Prod.snd : List Value) (withHarness s ((order.order s.harness.nodeIds).foldl
          TestHarness.routeFrom (s.harness, [])).1) v := by
    refine List.foldlRecOn (motive := fun p : TestHarness × List (String × Value) =>
      ∃ v, Reaches (Harness.step ids.toFinset) u v ∧
        Refines lib ids (p.2.map Prod.snd : List Value) (withHarness s p.1) v) _ _
      ⟨u, .refl u, hs⟩ ?_
    rintro ⟨harness, toDeliver⟩ ⟨v, hreach, hv⟩ n hn
    have hmem : n ∈ ids := hsane.faults.nodeIds ▸ (order.perm _).mem_iff.mp hn
    obtain ⟨w, hreach', hw⟩ := routeFrom_refines hmem hv
    exact ⟨w, hreach.trans hreach', hw⟩
  obtain ⟨hdelivers, hpasses⟩ :=
    Delivery.routeFrom_delivers s.harness (order.order s.harness.nodeIds)
  unfold TestHarness.routeMessages
  generalize (order.order s.harness.nodeIds).foldl TestHarness.routeFrom (s.harness, []) = routed
    at hrouted hdelivers hpasses ⊢
  obtain ⟨routed, toDeliver⟩ := routed
  obtain ⟨v, hreach, hv⟩ := hrouted
  have hsane' := Sane.delivers (t := withHarness s routed) hsane hdelivers rfl
  have hpasses' : ∀ m ∈ toDeliver, m.1 = dest m.2 ∧
      (isClientResponse m.2 || routed.passes m.2) = true := by
    intro m hm
    rw [hdelivers.passes]
    exact hpasses m hm
  obtain ⟨w, hreach', hw⟩ := forwardAll_refines toDeliver hsane' hpasses' hv
  exact ⟨w, hreach.trans hreach', hw⟩

end OmniPaxosJepsen.ProgramHarness
