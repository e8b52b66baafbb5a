import Mathlib.Algebra.BigOperators.Group.Finset.Basic
import OmniPaxosJepsen.Answers
import OmniPaxosJepsen.EventLoop
import OmniPaxosJepsen.FaultInjection

namespace OmniPaxosJepsen.NodeLines

open Json KvSpec Node Cluster Apply EventLoop
open Harness (isClientResponse requestFields)
open HarnessStep (requestMessage)
open NodeNames (Outgoing outgoingLine sendOutgoingMessages)
open Routing (src dest)

def isResponse (msg : Value) : Bool := msgType msg ∈ ["read_ok", "write_ok", "cas_ok", "error"]

def request (msg : Value) : Option (String × Value) :=
  if isClientRequest msg then some (dest msg, msg) else none

def response (msg : Value) : Option (String × Value) :=
  if isResponse msg then some (src msg, msg) else none

def forward (lib : Library) (msg : Value) : Option (String × MaelstromCommand) :=
  if msgType msg = "forward" then ((data msg).bind lib.fromStr).map (fun cmd => (dest msg, cmd))
  else none

/-- The event loop handles the line without a panic. -/
def Readable (lib : Library) (msg : Value) : Prop :=
  ∀ self append, (handleLine lib self append msg).isSome

structure Written (lib : Library) (nodeId : String) (msg : Value) : Prop where
  src : src msg = nodeId
  request : isClientRequest msg = false
  client : isClientResponse msg = true → isResponse msg = true
  readable : Readable lib msg

variable {lib : Library}

@[simp] theorem src_message (source target : String) (body : List (String × Value)) :
    src (message source target body) = source := by
  simp [Routing.src, message, Value.get]

@[simp] theorem dest_message (source target : String) (body : List (String × Value)) :
    dest (message source target body) = target := by
  simp [Routing.dest, message, Value.get, List.lookup_cons]

@[simp] theorem msgType_message (source target type : String) (body : List (String × Value)) :
    msgType (message source target (("type", .string type) :: body)) = type := by
  simp [msgType, message, Value.get, List.lookup_cons]

theorem isClientResponse_opToMaelstromId {msg : Value} {id : NodeId}
    (h : dest msg = opToMaelstromId id) : isClientResponse msg = false := by
  have hlist : (dest msg).toList = 'n' :: (toString (id - 1).toNat).toList := by
    rw [h, opToMaelstromId, String.toList_append]
    rfl
  have hname : dest msg ≠ "harness" := by
    intro heq
    rw [heq] at hlist
    have hhead := congrArg List.head? hlist
    simp at hhead
  have hclient : "c".toList.isPrefixOf (dest msg).toList = false := by
    rw [hlist]
    rfl
  change ("c".toList.isPrefixOf (dest msg).toList || dest msg = "harness") = false
  rw [hclient, Bool.false_or, decide_eq_false hname]

theorem isResponse_iff (msg : Value) : isResponse msg = true ↔ msgType msg = "read_ok" ∨
    msgType msg = "write_ok" ∨ msgType msg = "cas_ok" ∨ msgType msg = "error" := by
  simp [isResponse]

theorem readable_of_isResponse {msg : Value} (h : isResponse msg = true) : Readable lib msg := by
  intro self append
  obtain htype | htype | htype | htype := (isResponse_iff msg).mp h <;>
    simp [handleLine, htype]

theorem isClientRequest_of_isResponse {msg : Value} (h : isResponse msg = true) :
    isClientRequest msg = false := by
  rw [← Bool.not_eq_true, isClientRequest_iff]
  obtain htype | htype | htype | htype := (isResponse_iff msg).mp h <;> simp [htype]

theorem forward_of_isResponse {msg : Value} (h : isResponse msg = true) :
    forward lib msg = none := by
  obtain htype | htype | htype | htype := (isResponse_iff msg).mp h <;> simp [forward, htype]

theorem isResponse_render (nodeId : String) (cmd : MaelstromCommand) (reply : Reply Value) :
    isResponse (render nodeId cmd reply) = true := by
  cases reply <;> simp [isResponse, render, sendError]

theorem src_render (nodeId : String) (cmd : MaelstromCommand) (reply : Reply Value) :
    src (render nodeId cmd reply) = nodeId := by
  cases reply <;> simp [render, sendError]

theorem written_render (nodeId : String) (cmd : MaelstromCommand) (reply : Reply Value) :
    Written lib nodeId (render nodeId cmd reply) :=
  have hresponse := isResponse_render nodeId cmd reply
  ⟨src_render nodeId cmd reply, isClientRequest_of_isResponse hresponse, fun _ => hresponse,
    readable_of_isResponse hresponse⟩

theorem written_forward (nodeId : String) (id : NodeId) {cmd : MaelstromCommand}
    (hlib : lib.fromStr (lib.render cmd) = some cmd) :
    Written lib nodeId (toValue lib (.forward nodeId (opToMaelstromId id) cmd)) := by
  constructor
  · exact src_message _ _ _
  · rw [← Bool.not_eq_true, isClientRequest_iff, toValue, msgType_message]
    decide
  · intro hclient
    rw [toValue, isClientResponse_opToMaelstromId (dest_message _ _ _)] at hclient
    cases hclient
  · intro self append
    rw [toValue, handleLine_forward (msgType_message _ _ _ _)]
    simp [data, message, Value.get, List.lookup_cons, hlib]

theorem forward_toValue (nodeId target : String) {cmd : MaelstromCommand}
    (hlib : lib.fromStr (lib.render cmd) = some cmd) :
    forward lib (toValue lib (.forward nodeId target cmd)) = some (target, cmd) := by
  simp [forward, toValue, data, message, Value.get, List.lookup_cons, hlib, Routing.dest,
    msgType]

theorem response_toValue (nodeId target : String) (cmd : MaelstromCommand) :
    response (toValue lib (.forward nodeId target cmd)) = none := by
  simp [response, isResponse, toValue]

theorem written_outgoingLine (self : MaelstromNode) {msg : Outgoing}
    (h : lib.isMessage msg.data = true) :
    Written lib self.nodeId (outgoingLine self msg) := by
  constructor
  · exact src_message _ _ _
  · rw [← Bool.not_eq_true, isClientRequest_iff, outgoingLine, msgType_message]
    decide
  · intro hclient
    rw [outgoingLine, isClientResponse_opToMaelstromId (dest_message _ _ _)] at hclient
    cases hclient
  · intro node append
    simp [handleLine, outgoingLine, handleOmnipaxosMessage, data, message, Value.get,
      List.lookup_cons, msgType, h]

theorem forward_outgoingLine (self : MaelstromNode) (msg : Outgoing) :
    forward lib (outgoingLine self msg) = none := by
  simp [forward, outgoingLine]

theorem response_outgoingLine (self : MaelstromNode) (msg : Outgoing) :
    response (outgoingLine self msg) = none := by
  simp [response, isResponse, outgoingLine]

theorem filterMap_forward_outgoing (self : MaelstromNode) (outgoing : List Outgoing) :
    (sendOutgoingMessages self outgoing).filterMap (forward lib) = [] := by
  rw [List.filterMap_eq_nil_iff]
  intro msg hmsg
  obtain ⟨m, _, rfl⟩ := List.mem_map.mp hmsg
  exact forward_outgoingLine self m

theorem filterMap_response_outgoing (self : MaelstromNode) (outgoing : List Outgoing) :
    (sendOutgoingMessages self outgoing).filterMap response = [] := by
  rw [List.filterMap_eq_nil_iff]
  intro msg hmsg
  obtain ⟨m, _, rfl⟩ := List.mem_map.mp hmsg
  exact response_outgoingLine self m

def Forwards (nodeId : String) (sent : List Line) : Prop :=
  ∀ line ∈ sent, ∃ id cmd, line = .forward nodeId (opToMaelstromId id) cmd

theorem forwards_tryAppend (self : MaelstromNode) (append : AppendResult)
    (cmd : MaelstromCommand) : Forwards self.nodeId (self.tryAppend append cmd).2.sent := by
  intro line hline
  cases append with
  | ok => cases hline
  | err leader =>
    cases leader with
    | none => cases hline
    | some leaderId =>
      by_cases hself : opToMaelstromId leaderId = self.nodeId
      · simp [MaelstromNode.tryAppend, hself, Effects.none] at hline
      · simp only [MaelstromNode.tryAppend, ne_eq, hself, not_false_eq_true, ↓reduceIte,
          List.mem_singleton] at hline
        exact ⟨leaderId, cmd, hline⟩

theorem tryAppend_nodeId (self : MaelstromNode) (append : AppendResult)
    (cmd : MaelstromCommand) : (self.tryAppend append cmd).1.nodeId = self.nodeId :=
  congrArg Prod.fst (Replication.tryAppend_core self append cmd)

theorem forwards_retry (self : MaelstromNode) (append : Nat → AppendResult)
    (pending : List MaelstromCommand) :
    Forwards self.nodeId (self.retry append pending).2.sent := by
  induction pending generalizing self append with
  | nil => exact fun line hline => (List.not_mem_nil hline).elim
  | cons cmd pending ih =>
    intro line hline
    obtain hline | hline := List.mem_append.mp hline
    · exact forwards_tryAppend self (append 0) cmd line hline
    · rw [← tryAppend_nodeId self (append 0) cmd]
      exact ih _ _ line hline

theorem forwards_tick (self : MaelstromNode) (append : Nat → AppendResult) :
    Forwards self.nodeId (self.tick append).2.sent :=
  forwards_retry { self with pendingForwards := [] } append self.pendingForwards

theorem Forwards.faithful {nodeId : String} {sent : List Line} (h : Forwards nodeId sent)
    (hlib : Faithful lib ((forwards sent).map Prod.snd)) {line : Line} (hline : line ∈ sent) :
    ∃ id cmd, line = .forward nodeId (opToMaelstromId id) cmd ∧
      lib.fromStr (lib.render cmd) = some cmd := by
  obtain ⟨id, cmd, rfl⟩ := h line hline
  refine ⟨id, cmd, rfl, hlib cmd (List.mem_map.mpr ⟨(opToMaelstromId id, cmd), ?_, rfl⟩)⟩
  exact List.mem_filterMap.mpr ⟨_, hline, rfl⟩

theorem Forwards.written {nodeId : String} {sent : List Line} (h : Forwards nodeId sent)
    (hlib : Faithful lib ((forwards sent).map Prod.snd)) :
    ∀ msg ∈ sent.map (toValue lib), Written lib nodeId msg := by
  intro msg hmsg
  obtain ⟨line, hline, rfl⟩ := List.mem_map.mp hmsg
  obtain ⟨id, cmd, rfl, hcmd⟩ := h.faithful hlib hline
  exact written_forward nodeId id hcmd

theorem Forwards.filterMap_forward {nodeId : String} {sent : List Line} (h : Forwards nodeId sent)
    (hlib : Faithful lib ((forwards sent).map Prod.snd)) :
    (sent.map (toValue lib)).filterMap (forward lib) = forwards sent := by
  rw [forwards, List.filterMap_map]
  apply List.filterMap_congr
  intro line hline
  obtain ⟨id, cmd, rfl, hcmd⟩ := h.faithful hlib hline
  exact forward_toValue nodeId _ hcmd

theorem Forwards.filterMap_response {nodeId : String} {sent : List Line}
    (h : Forwards nodeId sent) : (sent.map (toValue lib)).filterMap response = [] := by
  rw [List.filterMap_eq_nil_iff]
  intro msg hmsg
  obtain ⟨line, hline, rfl⟩ := List.mem_map.mp hmsg
  obtain ⟨id, cmd, rfl⟩ := h line hline
  exact response_toValue nodeId _ cmd

section Responses

variable {nodeId : String} {kv : Store} {cmds : List MaelstromCommand} {msg : Value}

theorem mem_responses (h : msg ∈ responses nodeId kv cmds) :
    ∃ cmd reply, msg = render nodeId cmd reply := by
  obtain ⟨_, cmd, _, _, hmsg⟩ := Answers.mem_responses h
  exact ⟨cmd, _, hmsg⟩

theorem written_responses (h : msg ∈ responses nodeId kv cmds) : Written lib nodeId msg := by
  obtain ⟨cmd, reply, rfl⟩ := mem_responses h
  exact written_render nodeId cmd reply

theorem filterMap_forward_responses :
    (responses nodeId kv cmds).filterMap (forward lib) = [] := by
  rw [List.filterMap_eq_nil_iff]
  intro msg hmsg
  obtain ⟨cmd, reply, rfl⟩ := mem_responses hmsg
  exact forward_of_isResponse (isResponse_render nodeId cmd reply)

theorem filterMap_response_responses : (responses nodeId kv cmds).filterMap response =
    (responses nodeId kv cmds).map (fun msg => (nodeId, msg)) := by
  rw [← List.filterMap_eq_map]
  apply List.filterMap_congr
  intro msg hmsg
  obtain ⟨cmd, reply, rfl⟩ := mem_responses hmsg
  simp [response, isResponse_render, src_render]

end Responses

theorem readable_requestMessage {opType : String} (htype : opType ∈ ["read", "write", "cas"])
    (id : Nat) (nodeId client key : String) (fields : List (String × Value)) :
    isClientRequest (requestMessage id nodeId client opType key fields) = true ∧
      Readable lib (requestMessage id nodeId client opType key fields) := by
  have hrequest : isClientRequest (requestMessage id nodeId client opType key fields) = true := by
    simp only [List.mem_cons, List.not_mem_nil, or_false] at htype
    rw [isClientRequest_iff, requestMessage, List.cons_append, msgType_message]
    exact htype
  refine ⟨hrequest, fun self append => ?_⟩
  rw [handleLine_request hrequest]
  have hcommand : (self.requestCommand
      (requestMessage id nodeId client opType key fields)).isSome := by
    simp [MaelstromNode.requestCommand, requestMessage, message, Value.get, List.lookup_cons]
  obtain ⟨⟨client', msgId, command⟩, hsome⟩ := Option.isSome_iff_exists.mp hcommand
  cases command <;> simp [MaelstromNode.handleClientRequest, hsome]

end OmniPaxosJepsen.NodeLines
