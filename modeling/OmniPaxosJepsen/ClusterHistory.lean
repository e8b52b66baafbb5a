import OmniPaxosJepsen.EventHistory
import OmniPaxosJepsen.Forwarding

namespace OmniPaxosJepsen.ClusterHistory

open Json KvSpec Node Apply Cluster Runs Replication Transport Forwarding EventHistory Linearization

/-- How a client that follows the protocol means its request: the name of the request
and the operation. Keys are strings. -/
def decodeRequest (msg : Value) : Option ((String × Nat) × KVOp) :=
  match (msg.get "src").asStr, ((msg.get "body").get "msg_id").asU64,
    ((msg.get "body").get "key").asStr, ((msg.get "body").get "type").asStr with
  | some src, some msgId, some key, some "read" => some ((src, msgId), .read key)
  | some src, some msgId, some key, some "write" =>
    some ((src, msgId), .write key ((msg.get "body").get "value"))
  | some src, some msgId, some key, some "cas" =>
    some ((src, msgId), .cas key ((msg.get "body").get "from") ((msg.get "body").get "to"))
  | _, _, _, _ => none

def decodeResponse (msg : Value) : Option ((String × Nat) × Reply Value) :=
  match (msg.get "dest").asStr, ((msg.get "body").get "in_reply_to").asU64,
    ((msg.get "body").get "type").asStr with
  | some dest, some msgId, some "read_ok" =>
    some ((dest, msgId), .value ((msg.get "body").get "value"))
  | some dest, some msgId, some "write_ok" => some ((dest, msgId), .written)
  | some dest, some msgId, some "cas_ok" => some ((dest, msgId), .swapped)
  | some dest, some msgId, some "error" =>
    match ((msg.get "body").get "code").asU64 with
    | some 20 => some ((dest, msgId), .absent)
    | some 22 => some ((dest, msgId), .mismatch)
    | _ => none
  | _, _, _ => none

theorem decode_render (node : String) (cmd : MaelstromCommand) (r : Reply Value) :
    decodeResponse (render node cmd r) = some ((cmd.clientSrc, cmd.msgId), r) := by
  cases r <;> rfl

def StringKey (msg : Value) : Prop := ∃ key, (msg.get "body").get "key" = .string key

theorem decode_clientCommand {node : String} {msg : Value} {cmd : MaelstromCommand}
    (hkey : StringKey msg) (h : clientCommand node msg = some cmd) :
    decodeRequest msg = some ((cmd.clientSrc, cmd.msgId), cmd.op) ∧ cmd.coordinator = node := by
  obtain ⟨key, hkey⟩ := hkey
  simp only [clientCommand, MaelstromNode.requestCommand, Option.bind_eq_bind, Option.pure_def,
    Option.bind_eq_some_iff, Option.some.injEq] at h
  obtain ⟨_, ⟨src, hsrc, msgId, hid, rfl⟩, hop⟩ := h
  simp only [Option.map_eq_some_iff] at hop
  obtain ⟨op, hop, rfl⟩ := hop
  simp only [decodeRequest, hsrc, hid, hkey, Value.asStr_string]
  rw [hkey, Value.asStr_string, Option.getD_some] at hop
  cases htype : ((msg.get "body").get "type").asStr with
  | none => simp [htype] at hop
  | some ty =>
    rw [htype, Option.getD_some] at hop
    split at hop <;> simp_all [MaelstromNode.new]

def call : Observed → Option ((String × Nat) × KVOp)
  | .request _ msg => decodeRequest msg
  | .response _ _ => none

def ret : Observed → Option ((String × Nat) × Reply Value)
  | .request _ _ => none
  | .response _ msg => decodeResponse msg

def commandAt (s : ClusterState) (i : Nat) : Option MaelstromCommand :=
  s.history[i]?.bind (fun
    | .request node msg => clientCommand node msg
    | .response _ _ => none)

theorem accepted_eq_range (s : ClusterState) :
    s.accepted = (List.range s.history.length).filterMap (commandAt s) :=
  filterMap_eq_range _ _

def responseTo (log : List MaelstromCommand) (k : Nat) (cmd : MaelstromCommand) : Observed :=
  .response cmd.coordinator (render cmd.coordinator cmd
    (apply (replay emptyStore ((log.take k).map MaelstromCommand.op)) cmd.op).2)

/-- The log entries are matched with requests of the history, and every response
answers the request of the log entry that it was sent for. `order` lists the matched
requests in log order. -/
structure Matched (s : ClusterState) (order : List Nat) (answer : Nat → Option Nat) : Prop where
  entries : order.map (commandAt s) = s.log.map some
  nodup : order.Nodup
  answered : ∀ j node msg, s.history[j]? = some (.response node msg) →
    ∃ i ∈ order, answer i = some j
  spec : ∀ i j, answer i = some j → ∃ k cmd, order[k]? = some i ∧ s.log[k]? = some cmd ∧
    s.history[j]? = some (responseTo s.log k cmd) ∧ k < (s.nodes cmd.coordinator).decidedIdx ∧
    ∀ k' i', k' ≤ k → order[k']? = some i' → i' < j
  once : ∀ i i' j, answer i = some j → answer i' = some j → i = i'

theorem Matched.entry {s : ClusterState} {order : List Nat} {answer : Nat → Option Nat}
    (hm : Matched s order answer) {k : Nat} {cmd : MaelstromCommand}
    (hk : s.log[k]? = some cmd) : ∃ i, order[k]? = some i ∧ commandAt s i = some cmd := by
  have h := congrArg (·[k]?) hm.entries
  simp only [List.getElem?_map, hk, Option.map_some, Option.map_eq_some_iff] at h
  exact h

theorem commandAt_lt {s : ClusterState} {i : Nat} {cmd : MaelstromCommand}
    (h : commandAt s i = some cmd) : i < s.history.length := by
  obtain ⟨e, he, _⟩ := Option.bind_eq_some_iff.mp h
  exact (List.getElem?_eq_some_iff.mp he).1

theorem Matched.mem_order {s : ClusterState} {order : List Nat} {answer : Nat → Option Nat}
    (hm : Matched s order answer) {i : Nat} (hi : i ∈ order) :
    ∃ cmd ∈ s.log, commandAt s i = some cmd := by
  have hmem : commandAt s i ∈ s.log.map some := by
    rw [← hm.entries]
    exact List.mem_map_of_mem hi
  obtain ⟨cmd, hcmd, he⟩ := List.mem_map.mp hmem
  exact ⟨cmd, hcmd, he.symm⟩

theorem matched_init : Matched Cluster.init [] (fun _ => none) := by
  constructor <;> simp [Cluster.init]

theorem commandAt_append {s t : ClusterState} {l : List Observed}
    (hh : t.history = s.history ++ l) {i : Nat} (hi : i < s.history.length) :
    commandAt t i = commandAt s i := by
  simp only [commandAt, hh, List.getElem?_append_left hi]

theorem Matched.map_commandAt {s t : ClusterState} {order : List Nat} {answer : Nat → Option Nat}
    (hm : Matched s order answer) {l : List Observed} (hh : t.history = s.history ++ l) :
    order.map (commandAt t) = s.log.map some := by
  rw [← hm.entries]
  apply List.map_congr_left
  intro i hi
  obtain ⟨cmd, _, hcmd⟩ := hm.mem_order hi
  exact commandAt_append hh (commandAt_lt hcmd)

theorem Matched.extend {s t : ClusterState} {order : List Nat} {answer : Nat → Option Nat}
    (hm : Matched s order answer) {l : List Observed} (hh : t.history = s.history ++ l)
    (hreq : ∀ e ∈ l, ∃ node msg, e = .request node msg) (hlog : t.log = s.log)
    (hidx : ∀ n, (s.nodes n).decidedIdx ≤ (t.nodes n).decidedIdx) : Matched t order answer := by
  refine ⟨by rw [hm.map_commandAt hh, hlog], hm.nodup, fun j node msg hj => ?_,
    fun i j hij => ?_, hm.once⟩
  · rw [hh] at hj
    by_cases hlt : j < s.history.length
    · rw [List.getElem?_append_left hlt] at hj
      exact hm.answered j node msg hj
    · rw [List.getElem?_append_right (Nat.le_of_not_lt hlt)] at hj
      obtain ⟨_, _, he⟩ := hreq _ (List.mem_of_getElem? hj)
      cases he
  · obtain ⟨k, cmd, hk, hcmd, hresp, hlt, hbefore⟩ := hm.spec i j hij
    refine ⟨k, cmd, hk, by rw [hlog, hcmd], ?_, hlt.trans_le (hidx _), hbefore⟩
    rw [hh, hlog, List.getElem?_append_left (List.getElem?_eq_some_iff.mp hresp).1, hresp]

/-- An entry that enters the log finds a request of its own: it had been accepted more
often than it occurs in the log. -/
theorem Matched.decide {members : Finset String} {s : ClusterState} {order : List Nat}
    {answer : Nat → Option Nat} (hm : Matched s order answer) (hc : Conserved members s) {n : Nat}
    {cmd : MaelstromCommand} (hcmd : s.appended[n]? = some cmd) :
    ∃ i, Matched { s with log := s.log ++ [cmd], appended := s.appended.eraseIdx n }
      (order ++ [i]) answer := by
  have hcount : s.log.count cmd < s.accepted.count cmd := by
    have h := congrArg (Multiset.count cmd) hc
    have hpos : 0 < s.appended.count cmd := List.count_pos_iff.mpr (List.mem_of_getElem? hcmd)
    simp only [places, taken, Multiset.count_add, Multiset.coe_count] at h
    omega
  rw [accepted_eq_range] at hcount
  obtain ⟨i, hi, hnew, hat⟩ := exists_unchosen hm.entries hcount
  refine ⟨i, ?_, ?_, fun j node msg hj => ?_, fun i' j hij => ?_, hm.once⟩
  · have hmap := hm.entries
    simp only [List.map_append, List.map_cons, List.map_nil]
    exact congrArg₂ (· ++ ·) hmap (congrArg (fun c => [c]) hat)
  · refine List.nodup_append.mpr ⟨hm.nodup, List.nodup_singleton i, ?_⟩
    intro a ha b hb
    rw [List.mem_singleton.mp hb]
    exact fun he => hnew (he ▸ ha)
  · obtain ⟨i', hi', ha⟩ := hm.answered j node msg hj
    exact ⟨i', List.mem_append_left _ hi', ha⟩
  · obtain ⟨k, c, hk, hlogk, hresp, hlt, hbefore⟩ := hm.spec i' j hij
    have hklog : k < s.log.length := (List.getElem?_eq_some_iff.mp hlogk).1
    have hkorder : k < order.length := (List.getElem?_eq_some_iff.mp hk).1
    refine ⟨k, c, ?_, ?_, ?_, hlt, fun k' i'' hk' hi'' => hbefore k' i'' hk' ?_⟩
    · rw [List.getElem?_append_left hkorder, hk]
    · dsimp only
      rw [List.getElem?_append_left hklog, hlogk]
    · simpa only [responseTo, List.take_append_of_le_length hklog.le] using hresp
    · rwa [List.getElem?_append_left (by omega)] at hi''

theorem Matched.answer_lt {s : ClusterState} {order : List Nat} {answer : Nat → Option Nat}
    (hm : Matched s order answer) {i j : Nat} (h : answer i = some j) : j < s.history.length := by
  obtain ⟨_, _, _, _, hr, _⟩ := hm.spec i j h
  exact (List.getElem?_eq_some_iff.mp hr).1

/-- The request of an entry that its coordinator has not applied has no answer: an
answer would be for the same log entry. -/
theorem Matched.unanswered {s : ClusterState} {order : List Nat} {answer : Nat → Option Nat}
    (hm : Matched s order answer) {node : String} {cmd : MaelstromCommand}
    (hget : s.log[(s.nodes node).decidedIdx]? = some cmd) (hnode : cmd.coordinator = node)
    {i : Nat} (hi : order[(s.nodes node).decidedIdx]? = some i) (j : Nat) : answer i ≠ some j := by
  intro hj
  obtain ⟨k, c, hk, hlogk, _, hlt, _⟩ := hm.spec i j hj
  have hkk : k = (s.nodes node).decidedIdx :=
    (List.getElem?_inj (List.getElem?_eq_some_iff.mp hk).1 hm.nodup).mp (hk.trans hi.symm)
  subst hkk
  rw [hget, Option.some.injEq] at hlogk
  subst hlogk
  rw [hnode] at hlt
  exact lt_irrefl _ hlt

theorem Matched.respond {s : ClusterState} {order : List Nat} {answer : Nat → Option Nat}
    {old : String → List Value} (hrep : Replicated old s) (hm : Matched s order answer)
    {node : String} {cmd : MaelstromCommand} (hget : s.log[(s.nodes node).decidedIdx]? = some cmd)
    (hnode : cmd.coordinator = node) :
    ∃ answer', Matched (s.applyNext node cmd) order answer' := by
  obtain ⟨i, hi, hat⟩ := hm.entry hget
  have hresp : (s.applyNext node cmd).history =
      s.history ++ [responseTo s.log (s.nodes node).decidedIdx cmd] := by
    simp [ClusterState.applyNext, response, responseTo, hrep.nodeId node, hnode, hrep.kvStore node]
  have hidx : ∀ n, (s.nodes n).decidedIdx ≤ ((s.applyNext node cmd).nodes n).decidedIdx := by
    intro n
    by_cases hn : n = node
    · subst hn
      simp [ClusterState.applyNext]
    · simp [ClusterState.applyNext, Function.update_of_ne hn]
  have hself : ((s.applyNext node cmd).nodes node).decidedIdx = (s.nodes node).decidedIdx + 1 := by
    simp [ClusterState.applyNext]
  have hfree := hm.unanswered hget hnode hi
  refine ⟨Function.update answer i (some s.history.length), hm.map_commandAt hresp, hm.nodup,
    fun j n msg hj => ?_, fun i' j hij => ?_, fun i₁ i₂ j h₁ h₂ => ?_⟩
  · rw [hresp] at hj
    by_cases hlt : j < s.history.length
    · rw [List.getElem?_append_left hlt] at hj
      obtain ⟨i', hi', ha⟩ := hm.answered j n msg hj
      have hne : i' ≠ i := by
        rintro rfl
        exact hfree j ha
      exact ⟨i', hi', by rw [Function.update_of_ne hne, ha]⟩
    · have hj' : j = s.history.length := by
        have hlen := (List.getElem?_eq_some_iff.mp hj).1
        simp only [List.length_append, List.length_singleton] at hlen
        omega
      exact ⟨i, List.mem_of_getElem? hi, by rw [hj', Function.update_self]⟩
  · by_cases he : i' = i
    · subst he
      rw [Function.update_self, Option.some.injEq] at hij
      subst hij
      refine ⟨_, cmd, hi, hget, ?_, ?_, ?_⟩
      · rw [hresp, List.getElem?_concat_length]
        rfl
      · rw [hnode, hself]
        exact Nat.lt_succ_self _
      · intro k' i'' _ hi''
        obtain ⟨c, _, hc⟩ := hm.mem_order (List.mem_of_getElem? hi'')
        exact commandAt_lt hc
    · rw [Function.update_of_ne he] at hij
      obtain ⟨k, c, hk, hlogk, hr, hlt, hbefore⟩ := hm.spec i' j hij
      refine ⟨k, c, hk, hlogk, ?_, hlt.trans_le (hidx _), hbefore⟩
      rw [hresp, List.getElem?_append_left (List.getElem?_eq_some_iff.mp hr).1, hr]
      rfl
  · have hold : ∀ i', answer i' ≠ some s.history.length :=
      fun i' ha => lt_irrefl _ (hm.answer_lt ha)
    by_cases e₁ : i₁ = i <;> by_cases e₂ : i₂ = i
    · rw [e₁, e₂]
    · subst e₁
      rw [Function.update_self] at h₁
      rw [Function.update_of_ne e₂, ← h₁] at h₂
      exact absurd h₂ (hold i₂)
    · subst e₂
      rw [Function.update_self] at h₂
      rw [Function.update_of_ne e₁, ← h₂] at h₁
      exact absurd h₁ (hold i₁)
    · rw [Function.update_of_ne e₁] at h₁
      rw [Function.update_of_ne e₂] at h₂
      exact hm.once i₁ i₂ j h₁ h₂

def Explained (s : ClusterState) : Prop := ∃ order answer, Matched s order answer

theorem Explained.applyNext {s : ClusterState} {old : String → List Value}
    (hrep : Replicated old s) (hs : Explained s) {node : String} {cmd : MaelstromCommand}
    (hget : s.log[(s.nodes node).decidedIdx]? = some cmd) : Explained (s.applyNext node cmd) := by
  obtain ⟨order, answer, hm⟩ := hs
  by_cases hnode : cmd.coordinator = node
  · obtain ⟨answer', hm'⟩ := hm.respond hrep hget hnode
    exact ⟨order, answer', hm'⟩
  · refine ⟨order, answer, hm.extend (l := []) ?_ (by simp) rfl (fun n => ?_)⟩
    · simp [ClusterState.applyNext, response, hrep.nodeId node, hnode]
    · by_cases hn : n = node
      · subst hn
        simp [ClusterState.applyNext]
      · simp [ClusterState.applyNext, Function.update_of_ne hn]

theorem step_explained {members : Finset String} {old : String → List Value} {s t : ClusterState}
    {a : Action} (hrep : Replicated old s) (hc : Conserved members s) (hs : Explained s)
    (h : step members s a = some t) : Explained t := by
  have hnext := step_next h
  have hcore : ∀ {u : ClusterState} {n : String}, core (u.nodes n) = core (s.nodes n) →
      (s.nodes n).decidedIdx ≤ (u.nodes n).decidedIdx :=
    fun hu => (congrArg (·.2.2) hu).ge
  obtain ⟨order, answer, hm⟩ := hs
  cases a with
  | clientRequest node append msg =>
    obtain ⟨_, cmd, _, rfl⟩ := hnext
    exact ⟨order, answer, hm.extend rfl (by simp) rfl
      (fun n => hcore (perform_core (tryAppend_core _ _ _) n))⟩
  | deliver i append =>
    obtain ⟨dest, cmd, _, _, rfl⟩ := hnext
    exact ⟨order, answer, hm.extend (l := []) (by simp [ClusterState.perform]) (by simp) rfl
      (fun n => hcore (perform_core (s := { s with inFlight := s.inFlight.eraseIdx i })
        (tryAppend_core _ _ _) n))⟩
  | drop i =>
    obtain ⟨dest, cmd, _, rfl⟩ := hnext
    exact ⟨order, answer, hm.extend (l := []) (by simp) (by simp) rfl (fun n => le_rfl)⟩
  | tick node append =>
    obtain ⟨_, rfl⟩ := hnext
    exact ⟨order, answer, hm.extend (l := []) (by simp [ClusterState.perform]) (by simp) rfl
      (fun n => hcore (perform_core (tick_core _ _) n))⟩
  | decide i =>
    obtain ⟨cmd, hcmd, rfl⟩ := hnext
    obtain ⟨i', hm'⟩ := hm.decide hc hcmd
    exact ⟨_, _, hm'⟩
  | advance node idx =>
    obtain ⟨_, _, _, rfl⟩ := hnext
    exact ⟨order, answer, hm.extend (l := []) (by simp) (by simp) rfl (fun n => le_rfl)⟩
  | process node =>
    have hboth := process_induction (fun u => Replicated old u ∧ Explained u)
      (hrep.decided_le node) h
      (fun u cmd _ _ hget hlt hu => ⟨hu.1.applyNext hget hlt, hu.2.applyNext hu.1 hget⟩)
      ⟨hrep, order, answer, hm⟩
    exact hboth.2

theorem call_of_commandAt {s : ClusterState}
    (hkeys : ∀ node msg, Observed.request node msg ∈ s.history → StringKey msg) {i : Nat}
    {cmd : MaelstromCommand} (h : commandAt s i = some cmd) :
    s.history[i]?.bind call = some ((cmd.clientSrc, cmd.msgId), cmd.op) := by
  obtain ⟨e, he, hcmd⟩ := Option.bind_eq_some_iff.mp h
  cases e with
  | request node msg =>
    have hdecode := (decode_clientCommand (hkeys node msg (List.mem_of_getElem? he)) hcmd).1
    simp only [he, Option.bind_some, call, hdecode]
  | response node msg => cases hcmd

theorem Matched.effect_eq {s : ClusterState} {order : List Nat} {answer : Nat → Option Nat}
    (hm : Matched s order answer)
    (hkeys : ∀ node msg, Observed.request node msg ∈ s.history → StringKey msg)
    {k i : Nat} {cmd : MaelstromCommand} (hi : order[k]? = some i) (hk : s.log[k]? = some cmd) :
    effect call ret apply s.history answer
        (replay emptyStore ((s.log.take k).map MaelstromCommand.op)) i =
      some (replay emptyStore ((s.log.take (k + 1)).map MaelstromCommand.op)) := by
  obtain ⟨i', hi', hat⟩ := hm.entry hk
  obtain rfl : i = i' := Option.some.inj (hi.symm.trans hi')
  have hnext : replay emptyStore ((s.log.take (k + 1)).map MaelstromCommand.op) =
      (apply (replay emptyStore ((s.log.take k).map MaelstromCommand.op)) cmd.op).1 := by
    rw [List.take_add_one, hk]
    simp only [Option.toList_some, List.map_append, List.map_cons, List.map_nil, replay_concat]
  simp only [effect, call_of_commandAt hkeys hat, Option.bind_some, hnext]
  cases ha : answer i with
  | none => rfl
  | some j =>
    obtain ⟨k', c, hk', hlog', hresp, _, _⟩ := hm.spec i j ha
    obtain rfl : k' = k :=
      (List.getElem?_inj (List.getElem?_eq_some_iff.mp hk').1 hm.nodup).mp (hk'.trans hi.symm)
    obtain rfl : cmd = c := Option.some.inj (hk.symm.trans hlog')
    simp only [hresp, responseTo, Option.bind_some, ret, decode_render, ↓reduceIte]

theorem Matched.legal {s : ClusterState} {order : List Nat} {answer : Nat → Option Nat}
    (hm : Matched s order answer)
    (hkeys : ∀ node msg, Observed.request node msg ∈ s.history → StringKey msg)
    (k : Nat) (hk : k ≤ order.length) :
    Legal (effect call ret apply s.history answer)
      (replay emptyStore ((s.log.take k).map MaelstromCommand.op)) (order.drop k) := by
  have hlen : order.length = s.log.length := by simpa using congrArg List.length hm.entries
  induction hn : order.length - k generalizing k with
  | zero =>
    rw [List.drop_eq_nil_of_le (by omega)]
    exact legal_nil _ _
  | succ n ih =>
    have hlt : k < order.length := by omega
    have hi : order[k]? = some order[k] := List.getElem?_eq_getElem hlt
    have hlog : k < s.log.length := by omega
    have hcmd : s.log[k]? = some s.log[k] := List.getElem?_eq_getElem hlog
    rw [List.drop_eq_getElem_cons hlt]
    exact legal_cons.mpr ⟨_, hm.effect_eq hkeys hi hcmd, ih (k + 1) hlt (by omega)⟩

end OmniPaxosJepsen.ClusterHistory
