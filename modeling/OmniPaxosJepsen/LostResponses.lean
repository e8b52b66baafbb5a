import Mathlib.Data.List.Nodup
import OmniPaxosJepsen.Delivery

namespace OmniPaxosJepsen.LostResponses

open Json Checker Common Routing Runs Delivery
open Harness (eventType responseEntry isClientResponse)
open HarnessStep (invokeEntry)

def answered (s : TestHarness) : List HistoryEntry :=
  s.history.filter (fun e => e.eventType ≠ "invoke")

/-- A part of the program that reads some messages and records no response. -/
structure Reads (msgs : List Value) (s t : TestHarness) : Prop where
  read : t.read = s.read ++ msgs
  recorded : t.recorded = s.recorded
  nodeIds : t.nodeIds = s.nodeIds
  answered : answered t = answered s

abbrev Kept (s t : TestHarness) : Prop := Reads [] s t

theorem Reads.trans {msgs msgs' : List Value} {s t u : TestHarness} (h : Reads msgs s t)
    (h' : Reads msgs' t u) : Reads (msgs ++ msgs') s u := by
  constructor
  · rw [h'.read, h.read, List.append_assoc]
  · exact h'.recorded.trans h.recorded
  · exact h'.nodeIds.trans h.nodeIds
  · exact h'.answered.trans h.answered

theorem Reads.kept {msgs : List Value} {s t u : TestHarness} (h : Reads msgs s t)
    (h' : Kept t u) : Reads msgs s u := by
  have htrans := h.trans h'
  rwa [List.append_nil] at htrans

theorem kept_of_eq {s t : TestHarness} (hread : t.read = s.read)
    (hrecorded : t.recorded = s.recorded) (hnodeIds : t.nodeIds = s.nodeIds)
    (hanswered : answered t = answered s) : Kept s t :=
  ⟨by rw [hread, List.append_nil], hrecorded, hnodeIds, hanswered⟩

theorem kept_refl (s : TestHarness) : Kept s s := kept_of_eq rfl rfl rfl rfl

theorem kept_foldl {α : Type} {f : TestHarness → α → TestHarness} (h : ∀ s a, Kept s (f s a))
    (l : List α) (s : TestHarness) : Kept s (l.foldl f s) :=
  List.foldlRecOn (motive := Kept s) l f (kept_refl s) (fun t hkept a _ => hkept.kept (h t a))

theorem kept_send (s : TestHarness) (nodeId : String) (msg : Value) :
    Kept s (s.send nodeId msg) := by
  unfold TestHarness.send
  split
  · exact kept_of_eq rfl rfl rfl rfl
  · exact kept_refl s

theorem kept_sendOperation {s t : TestHarness} {nodeId clientId opType key : String}
    {value casFrom casTo : Option Value} {now : U128}
    (h : s.sendOperation nodeId clientId opType key value casFrom casTo now = some t) :
    Kept s t := by
  obtain ⟨fields, _, rfl⟩ := Option.map_eq_some_iff.mp h
  refine Reads.kept ?_ (kept_send _ nodeId _)
  apply kept_of_eq
  · rfl
  · rfl
  · rfl
  · simp [answered, invokeEntry]

theorem kept_generateOne {s t : TestHarness} {clientIdx : Nat} {choice : Choice}
    (h : s.generateOne clientIdx choice = some t) : Kept s t := by
  simp only [TestHarness.generateOne, Option.bind_eq_bind, Option.bind_eq_some_iff] at h
  obtain ⟨targetNode, _, h⟩ := h
  split at h
  · cases h
    exact kept_refl s
  · split at h <;> exact kept_sendOperation h

theorem kept_generate {s t : TestHarness} {choices : List Choice}
    (h : s.generate choices = some t) : Kept s t := by
  unfold TestHarness.generate at h
  rw [foldlM_eq_run] at h
  exact run_invariant (Kept s) (fun _ _ _ _ hkept hone => hkept.kept (kept_generateOne hone))
    (kept_refl s) h

theorem kept_healAndRestart (s : TestHarness) : Kept s s.healAndRestart := by
  have hheal : Kept s { s with network := s.network.healAll } := kept_of_eq rfl rfl rfl rfl
  apply hheal.kept
  apply kept_foldl
  intro t nodeId
  exact kept_of_eq rfl rfl rfl rfl

theorem kept_attack {s t : TestHarness} (h : Attack s t) : Kept s t := by
  cases h with
  | none => exact kept_refl s
  | isolate hnode => exact kept_of_eq rfl rfl rfl rfl
  | splitBrain => exact kept_of_eq rfl rfl rfl rfl
  | kill hnode => exact kept_of_eq rfl rfl rfl rfl

theorem kept_runNemesis {s t : TestHarness} {nemesisType : String} {choice : NemesisChoice}
    (h : s.runNemesis nemesisType choice = some t) : Kept s t := by
  obtain ⟨_, rfl⟩ | ⟨u, _, hattack, rfl⟩ := runNemesis_cases h
  · exact (kept_healAndRestart s).kept (kept_of_eq rfl rfl rfl rfl)
  · exact (kept_attack hattack).kept (kept_of_eq rfl rfl rfl rfl)

def readable (s : TestHarness) (nodeId : String) : List Value :=
  (recvAll (s.nodes nodeId).stdoutRx).1

theorem recv_reads (s : TestHarness) (nodeId : String) :
    Reads (readable s nodeId) s (s.recv nodeId).1 := ⟨rfl, rfl, rfl, rfl⟩

theorem readable_recv_ne (s : TestHarness) {nodeId other : String} (h : other ≠ nodeId) :
    readable (s.recv nodeId).1 other = readable s other := by
  simp [readable, TestHarness.recv, Function.update_of_ne h]

theorem drainFrom_reads (ids : List String) (p : TestHarness × List Value) :
    ∃ msgs, (ids.foldl TestHarness.drainFrom p).2 = p.2 ++ msgs ∧
      Reads msgs p.1 (ids.foldl TestHarness.drainFrom p).1 := by
  induction ids generalizing p with
  | nil => exact ⟨[], (List.append_nil _).symm, kept_refl p.1⟩
  | cons nodeId ids ih =>
    obtain ⟨msgs, hout, hreads⟩ := ih (TestHarness.drainFrom p nodeId)
    refine ⟨readable p.1 nodeId ++ msgs, ?_, (recv_reads p.1 nodeId).trans hreads⟩
    rw [List.foldl_cons, hout, ← List.append_assoc]
    rfl

theorem drainAllMessages_reads (s : TestHarness) (order : IterOrder String) :
    Reads (s.drainAllMessages order).2 s (s.drainAllMessages order).1 := by
  obtain ⟨msgs, hout, hreads⟩ := drainFrom_reads (order.order s.nodeIds) (s, [])
  rw [List.nil_append] at hout
  unfold TestHarness.drainAllMessages
  rwa [hout]

theorem deliver_kept (msgs : List Value) (p : TestHarness × List Value) :
    (msgs.foldl TestHarness.deliver p).2 = p.2 ++ msgs.filter isClientResponse ∧
      Kept p.1 (msgs.foldl TestHarness.deliver p).1 := by
  induction msgs generalizing p with
  | nil => exact ⟨(List.append_nil _).symm, kept_refl p.1⟩
  | cons msg msgs ih =>
    obtain ⟨hout, hkept⟩ := ih (TestHarness.deliver p msg)
    rw [List.foldl_cons, hout]
    by_cases hclient : isClientResponse msg
    · have hdeliver : TestHarness.deliver p msg = (p.1, p.2 ++ [msg]) := by
        simp [TestHarness.deliver, hclient]
      rw [hdeliver] at hkept ⊢
      exact ⟨by simp [hclient], hkept⟩
    · have hdeliver : Kept p.1 (TestHarness.deliver p msg).1 ∧
          (TestHarness.deliver p msg).2 = p.2 := by
        simp only [TestHarness.deliver, hclient, Bool.false_eq_true, ↓reduceIte]
        split
        · exact ⟨kept_send _ _ _, rfl⟩
        · exact ⟨kept_refl _, rfl⟩
      rw [hdeliver.2]
      exact ⟨by simp [hclient], hdeliver.1.kept hkept⟩

theorem deliverMessages_kept (s : TestHarness) (msgs : List Value) :
    (s.deliverMessages msgs).2 = msgs.filter isClientResponse ∧
      Kept s (s.deliverMessages msgs).1 := deliver_kept msgs (s, [])

def routed (s : TestHarness) (ids : List String) : List Value :=
  (ids.filter (fun nodeId => !s.network.isKilled nodeId)).flatMap (readable s)

theorem routeFrom_reads {ids : List String} (hnodup : ids.Nodup)
    (p : TestHarness × List (String × Value)) :
    Reads (routed p.1 ids) p.1 (ids.foldl TestHarness.routeFrom p).1 := by
  induction ids generalizing p with
  | nil => exact kept_refl p.1
  | cons nodeId ids ih =>
    obtain ⟨hnew, hnodup⟩ := List.nodup_cons.mp hnodup
    have hih := ih hnodup (TestHarness.routeFrom p nodeId)
    rw [List.foldl_cons]
    by_cases hkilled : p.1.network.isKilled nodeId
    · have hroute : TestHarness.routeFrom p nodeId = p := by
        simp [TestHarness.routeFrom, hkilled]
      have hrouted : routed p.1 (nodeId :: ids) = routed p.1 ids := by simp [routed, hkilled]
      rw [hroute] at hih ⊢
      rwa [hrouted]
    · have hroute : (TestHarness.routeFrom p nodeId).1 = (p.1.recv nodeId).1 := by
        simp [TestHarness.routeFrom, hkilled]
      have hrouted : routed p.1 (nodeId :: ids) =
          readable p.1 nodeId ++ routed (p.1.recv nodeId).1 ids := by
        have hsame : routed (p.1.recv nodeId).1 ids = routed p.1 ids := by
          apply List.flatMap_congr
          intro other hother
          apply readable_recv_ne
          rintro rfl
          exact hnew (List.mem_of_mem_filter hother)
        rw [hsame]
        simp [routed, hkilled]
      rw [hrouted]
      rw [hroute] at hih
      exact (recv_reads p.1 nodeId).trans hih

theorem routeMessages_reads (s : TestHarness) (order : IterOrder String)
    (hnodup : s.nodeIds.Nodup) :
    Reads (routed s (order.order s.nodeIds)) s (s.routeMessages order) := by
  apply (routeFrom_reads ((order.perm s.nodeIds).nodup_iff.mpr hnodup) (s, [])).kept
  apply kept_foldl
  intro t m
  split
  · exact kept_refl t
  · exact kept_send _ _ _

theorem eventType_ne_invoke (msg : Value) : eventType msg ≠ "invoke" := by
  unfold eventType
  dsimp only
  split
  · decide
  · split
    · split <;> decide
    · decide

theorem toClient_response {msg : Value} (h : toClient msg = true) :
    isClientResponse msg = true := by
  have hprefix : "c".toList.isPrefixOf ((msg.get "dest").asStr.getD "").toList = true := h
  simp only [isClientResponse, hprefix, Bool.true_or]

/-- The messages read and the responses recorded on the way from one state to another. -/
structure Account (msgs responses : List Value) (s t : TestHarness) : Prop where
  read : t.read = s.read ++ msgs
  recorded : t.recorded = s.recorded ++ responses
  nodeIds : t.nodeIds = s.nodeIds
  answered : ∃ times : List U128, times.length = responses.length ∧
    answered t = answered s ++ List.zipWith responseEntry responses times

theorem Reads.account {msgs : List Value} {s t : TestHarness} (h : Reads msgs s t) :
    Account msgs [] s t :=
  ⟨h.read, by rw [h.recorded, List.append_nil], h.nodeIds, [], rfl, by simp [h.answered]⟩

theorem Account.trans {msgs msgs' responses responses' : List Value} {s t u : TestHarness}
    (h : Account msgs responses s t) (h' : Account msgs' responses' t u) :
    Account (msgs ++ msgs') (responses ++ responses') s u := by
  obtain ⟨times, hlen, hanswered⟩ := h.answered
  obtain ⟨times', hlen', hanswered'⟩ := h'.answered
  constructor
  · rw [h'.read, h.read, List.append_assoc]
  · rw [h'.recorded, h.recorded, List.append_assoc]
  · rw [h'.nodeIds, h.nodeIds]
  · refine ⟨times ++ times', by simp [hlen, hlen'], ?_⟩
    rw [hanswered', hanswered, List.append_assoc, List.zipWith_append hlen.symm]

theorem Account.kept {msgs responses : List Value} {s t u : TestHarness}
    (h : Account msgs responses s t) (h' : Kept t u) : Account msgs responses s u := by
  have htrans := h.trans h'.account
  rwa [List.append_nil, List.append_nil] at htrans

theorem recordResponse_account (s : TestHarness) (msg : Value) (now : U128) :
    Account [] [msg] s (s.recordResponse msg now) := by
  have hne : (responseEntry msg now).eventType ≠ "invoke" := eventType_ne_invoke msg
  refine ⟨(List.append_nil _).symm, rfl, rfl, [now], rfl, ?_⟩
  simp [answered, TestHarness.recordResponse, hne]

theorem recordResponses_account (responses : List (Value × U128)) (s : TestHarness) :
    Account [] (responses.map Prod.fst) s (s.recordResponses responses) := by
  induction responses generalizing s with
  | nil => exact (kept_refl s).account
  | cons m responses ih =>
    exact (recordResponse_account s m.1 m.2).trans (ih (s.recordResponse m.1 m.2))

theorem nemesisTurn_account {s t : TestHarness} {nemesisType : String} {turn : Turn}
    (h : s.nemesisTurn nemesisType turn = some t) :
    ∃ msgs, Account msgs (msgs.filter isClientResponse) s t := by
  simp only [TestHarness.nemesisTurn, Option.bind_eq_bind, Option.bind_eq_some_iff] at h
  obtain ⟨u, hgenerate, hrest⟩ := h
  have hnemesis : Kept u t := by
    split at hrest
    · cases hrest
      exact kept_refl _
    · split at hrest
      · exact kept_runNemesis hrest
      · cases hrest
        exact kept_refl _
  have hdrain := drainAllMessages_reads s turn.order
  obtain ⟨hresponses, hdeliver⟩ := deliverMessages_kept (s.drainAllMessages turn.order).1
    (s.drainAllMessages turn.order).2
  rw [hresponses] at hgenerate
  have hrecord := recordResponses_account
    (((s.drainAllMessages turn.order).2.filter isClientResponse).zipIdx.map
      (fun m => (m.1, turn.clock m.2)))
    ((s.drainAllMessages turn.order).1.deliverMessages (s.drainAllMessages turn.order).2).1
  have haccount := (hdrain.kept hdeliver).account.trans hrecord
  have hmap : ∀ l : List Value, (l.zipIdx.map (fun m => (m.1, turn.clock m.2))).map Prod.fst =
      l := by
    intro l
    rw [List.map_map]
    exact List.zipIdx_map_fst 0 l
  rw [hmap, List.append_nil, List.nil_append] at haccount
  exact ⟨_, (haccount.kept (kept_generate hgenerate)).kept hnemesis⟩

def NothingForClients (s : TestHarness) : Prop :=
  ∀ nodeId ∈ s.nodeIds, s.network.isKilled nodeId = false →
    ∀ msg ∈ readable s nodeId, toClient msg = false

theorem routed_filter_eq_nil (s : TestHarness) (order : IterOrder String) :
    (routed s (order.order s.nodeIds)).filter toClient = [] ↔ NothingForClients s := by
  simp only [List.filter_eq_nil_iff, routed, List.mem_flatMap, List.mem_filter,
    (order.perm s.nodeIds).mem_iff, NothingForClients, Bool.not_eq_true', Bool.not_eq_true]
  constructor
  · intro h nodeId hid hkilled msg hmsg
    exact h msg ⟨nodeId, ⟨hid, hkilled⟩, hmsg⟩
  · rintro h msg ⟨nodeId, ⟨hid, hkilled⟩, hmsg⟩
    exact h nodeId hid hkilled msg hmsg

/-- Every step but a call of `route_messages` records the client messages it reads. -/
theorem step_account {nemesisType : String} {s t : TestHarness} (hnodup : s.nodeIds.Nodup)
    {a : Action} (h : step nemesisType s a = some t) :
    ∃ msgs responses, Account msgs responses s t ∧
      ((∃ order, a = .route order) ∧ responses = [] ∧
          (msgs.filter toClient = [] ↔ NothingForClients s) ∨
        (∀ order, a ≠ .route order) ∧ responses.filter toClient = msgs.filter toClient) := by
  cases a with
  | emit nodeId line =>
    cases h
    have hkept : Kept s { s with
        nodes := Function.update s.nodes nodeId
          { s.nodes nodeId with stdoutRx := (s.nodes nodeId).stdoutRx ++ [line] } } :=
      kept_of_eq rfl rfl rfl rfl
    exact ⟨[], [], hkept.account, .inr ⟨by simp, rfl⟩⟩
  | route order =>
    have hroute : Reads (routed s (order.order s.nodeIds)) s t := by
      have hreads := routeMessages_reads s order hnodup
      simp only [step] at h
      split at h <;> cases h
      all_goals exact hreads.kept (kept_of_eq rfl rfl rfl rfl)
    exact ⟨_, [], hroute.account, .inl ⟨⟨order, rfl⟩, rfl, routed_filter_eq_nil s order⟩⟩
  | turn turn =>
    simp only [step, Option.ite_none_right_eq_some] at h
    obtain ⟨msgs, haccount⟩ := nemesisTurn_account h.2
    refine ⟨msgs, _, haccount, .inr ⟨by simp, ?_⟩⟩
    rw [List.filter_filter]
    apply List.filter_congr
    intro msg _
    cases hclient : toClient msg with
    | false => rfl
    | true => simp [toClient_response hclient]
  | stop =>
    simp only [step, Option.ite_none_right_eq_some, Option.some.injEq] at h
    obtain ⟨_, rfl⟩ := h
    have hkept : Kept s { s with network := s.network.healAll, phase := .waiting } :=
      kept_of_eq rfl rfl rfl rfl
    exact ⟨[], [], hkept.account, .inr ⟨by simp, rfl⟩⟩

/-- Whenever `route_messages` is called in a run, no message to a client is there for it to
read. -/
def QuietRoutes (nemesisType : String) (s : TestHarness) (acts : List Action) : Prop :=
  ∀ before order after t, acts = before ++ .route order :: after →
    run (step nemesisType) s before = some t → NothingForClients t

theorem quietRoutes_cons {nemesisType : String} {s u : TestHarness} {a : Action}
    {acts : List Action} (hstep : step nemesisType s a = some u) :
    QuietRoutes nemesisType s (a :: acts) ↔
      ((∃ order, a = .route order) → NothingForClients s) ∧ QuietRoutes nemesisType u acts := by
  constructor
  · intro h
    constructor
    · rintro ⟨order, rfl⟩
      exact h [] order acts s rfl rfl
    · intro before order after t hacts hrun
      exact h (a :: before) order after t (by rw [hacts, List.cons_append])
        (run_cons_eq_some.mpr ⟨u, hstep, hrun⟩)
  · rintro ⟨hfirst, hrest⟩ before order after t hacts hrun
    cases before with
    | nil =>
      cases hrun
      exact hfirst ⟨order, (List.cons.inj hacts).1⟩
    | cons b before =>
      obtain ⟨rfl, htail⟩ := List.cons.inj hacts
      obtain ⟨v, hv, hrest'⟩ := run_cons_eq_some.mp hrun
      rw [hstep] at hv
      cases hv
      exact hrest before order after t htail hrest'

/-- Over a run the client messages recorded are some of those read, and all of them
exactly when the calls of `route_messages` found none. -/
theorem run_account {nemesisType : String} {s t : TestHarness} (hnodup : s.nodeIds.Nodup)
    {acts : List Action} (hrun : run (step nemesisType) s acts = some t) :
    ∃ msgs responses, Account msgs responses s t ∧
      (responses.filter toClient).Sublist (msgs.filter toClient) ∧
      ((responses.filter toClient).length = (msgs.filter toClient).length ↔
        QuietRoutes nemesisType s acts) := by
  induction acts generalizing s with
  | nil =>
    cases hrun
    refine ⟨[], [], (kept_refl _).account, List.Sublist.refl _, fun _ => ?_, fun _ => rfl⟩
    intro before order after t hacts
    cases before <;> cases hacts
  | cons a acts ih =>
    obtain ⟨u, hstep, hrun⟩ := run_cons_eq_some.mp hrun
    obtain ⟨msgs, responses, haccount, hkind⟩ := step_account hnodup hstep
    obtain ⟨msgs', responses', haccount', hsub, hiff⟩ := ih (haccount.nodeIds ▸ hnodup) hrun
    refine ⟨_, _, haccount.trans haccount', ?_⟩
    rw [quietRoutes_cons hstep, List.filter_append, List.filter_append]
    have hle := hsub.length_le
    obtain ⟨hroute, rfl, hnothing⟩ | ⟨hother, hsame⟩ := hkind
    · refine ⟨hsub.trans (List.sublist_append_right _ _), ?_⟩
      rw [← hiff, ← hnothing, ← List.length_eq_zero_iff]
      simp only [List.filter_nil, List.nil_append, List.length_append]
      constructor
      · intro hlen
        exact ⟨fun _ => by omega, by omega⟩
      · rintro ⟨hzero, hlen⟩
        rw [hzero hroute, hlen, Nat.zero_add]
    · have hnot : ¬ ∃ order, a = .route order := fun ⟨order, h⟩ => hother order h
      rw [hsame]
      refine ⟨hsub.append_left _, ?_⟩
      simp only [hnot, false_implies, true_and, List.length_append, Nat.add_left_cancel_iff, hiff]

theorem nodeName_injective : Function.Injective nodeName := by
  intro i j h
  have hdigits : Nat.toDigits 10 i = Nat.toDigits 10 j := by
    have hlist := congrArg String.toList h
    simpa [nodeName] using hlist
  rw [← Nat.ofDigitChars_ten_toDigits (n := i), hdigits, Nat.ofDigitChars_ten_toDigits]

theorem new_nodup (nodeCount : Nat) : (TestHarness.new nodeCount).nodeIds.Nodup :=
  List.nodup_range.map nodeName_injective

/-- The history records the messages passed to `record_response`, each once, and every
client message read is among them exactly when `route_messages` never finds one. -/
theorem responses_recorded_iff {nemesisType : String} {nodeCount : Nat} {acts : List Action}
    {s : TestHarness}
    (hrun : run (step nemesisType) (TestHarness.new nodeCount) acts = some s) :
    (∃ times : List U128, times.length = s.recorded.length ∧
      s.history.filter (fun e => e.eventType ≠ "invoke") =
        List.zipWith responseEntry s.recorded times) ∧
    ((s.recorded.filter toClient).Perm (s.read.filter toClient) ↔
      QuietRoutes nemesisType (TestHarness.new nodeCount) acts) := by
  obtain ⟨msgs, responses, haccount, hsub, hiff⟩ := run_account (new_nodup nodeCount) hrun
  have hread : s.read = msgs := by rw [haccount.read]; rfl
  have hrecorded : s.recorded = responses := by rw [haccount.recorded]; rfl
  rw [hread, hrecorded, ← hiff]
  refine ⟨haccount.answered, fun hperm => hperm.length_eq, fun hlen => ?_⟩
  rw [hsub.eq_of_length hlen]

def sameOrder : IterOrder String := ⟨id, fun _ => .refl _⟩

def writeTurn : Turn :=
  { order := sameOrder, clock := fun _ => 0, choices := [⟨0, 0, .write 5, 1⟩], nemesis := none }

def idleTurn : Turn := { order := sameOrder, clock := fun _ => 2, choices := [], nemesis := none }

def writeOk : Value :=
  Node.message "n0" "c0" [("type", .string "write_ok"), ("in_reply_to", .u64 1)]

def answeredEarly : List Action :=
  [.route sameOrder, .route sameOrder, .turn writeTurn, .emit "n0" (some writeOk),
    .turn idleTurn, .stop, .route sameOrder]

def answeredLate : List Action :=
  [.route sameOrder, .route sameOrder, .turn writeTurn, .stop, .emit "n0" (some writeOk),
    .route sameOrder]

theorem responses_recorded_iff_answeredEarly :
    ∃ s, run (step "none") (TestHarness.new 3) answeredEarly = some s ∧
      s.phase = .checking ∧ s.recorded = [writeOk] ∧
      ((s.recorded.filter toClient).Perm (s.read.filter toClient) ↔
        QuietRoutes "none" (TestHarness.new 3) answeredEarly) := by
  have hghost : (run (step "none") (TestHarness.new 3) answeredEarly).map
      (fun s => (s.phase, s.recorded)) = some (.checking, [writeOk]) := by
    decide +kernel
  obtain ⟨s, hrun, hs⟩ := Option.map_eq_some_iff.mp hghost
  obtain ⟨hphase, hrecorded⟩ := Prod.mk.inj hs
  exact ⟨s, hrun, hphase, hrecorded, (responses_recorded_iff hrun).2⟩

/-- A response that the last call of `route_messages` reads is in no history. -/
theorem late_response_lost :
    ¬ ∀ (nemesisType : String) (nodeCount : Nat) (acts : List Action) (s : TestHarness),
      run (step nemesisType) (TestHarness.new nodeCount) acts = some s → s.phase = .checking →
      (s.recorded.filter toClient).Perm (s.read.filter toClient) := by
  intro h
  have hghost : (run (step "none") (TestHarness.new 3) answeredLate).map
      (fun s => (s.phase, s.recorded.filter toClient, s.read.filter toClient)) =
        some (.checking, [], [writeOk]) := by
    decide +kernel
  obtain ⟨s, hrun, hs⟩ := Option.map_eq_some_iff.mp hghost
  simp only [Prod.mk.injEq] at hs
  obtain ⟨hphase, hrecorded, hread⟩ := hs
  have hperm := h "none" 3 answeredLate s hrun hphase
  rw [hrecorded, hread] at hperm
  exact List.cons_ne_nil _ _ hperm.symm.eq_nil

end OmniPaxosJepsen.LostResponses
