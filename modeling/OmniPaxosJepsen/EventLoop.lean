import OmniPaxosJepsen.ClusterStep
import OmniPaxosJepsen.NodeNames

namespace OmniPaxosJepsen.EventLoop

open Json Node Cluster Apply KvSpec
open Harness (isClientResponse)
open NodeNames (maelstromToOpId maelstromToOpId_index opId_toNat Outgoing outgoingLine)
open Routing (src dest initMessage nodeName)

def msgType (msg : Value) : String := ((msg.get "body").get "type").asStr.getD ""

def data (msg : Value) : Option String := ((msg.get "body").get "data").asStr

def asArray : Value → Option (List Value)
  | .array xs => some xs
  | _ => none

/-- What `main` makes of its first line: its answer, and the node unless a name does not parse or
OmniPaxos cannot be built. `none` is a panic before the answer. -/
def startup (lib : Library) (initMsg : Value) : Option (Value × Option MaelstromNode) := do
  let myNodeId ← ((initMsg.get "body").get "node_id").asStr
  let nodeIds ← (← asArray ((initMsg.get "body").get "node_ids")).mapM Value.asStr
  let sender ← (initMsg.get "src").asStr
  let initOk := message myNodeId sender [("type", .string "init_ok"),
    ("in_reply_to", (initMsg.get "body").get "msg_id")]
  let node := do
    let myOpId ← maelstromToOpId myNodeId
    let allOpIds ← nodeIds.mapM maelstromToOpId
    if lib.build myOpId allOpIds then some (MaelstromNode.new myNodeId) else none
  return (initOk, node)

def handleOmnipaxosMessage (lib : Library) (self : MaelstromNode) (msg : Value) :
    Option MaelstromNode :=
  (data msg).bind (fun text => if lib.isMessage text then some self else none)

/-- The handler that `main` hands a line to. `none` is the panic of an `unwrap`. -/
def handleLine (lib : Library) (self : MaelstromNode) (append : AppendResult) (msg : Value) :
    Option (MaelstromNode × Effects) :=
  match msgType msg with
  | "read" | "write" | "cas" => self.handleClientRequest append msg
  | "omnipaxos" => (handleOmnipaxosMessage lib self msg).map (fun self => (self, Effects.none))
  | "forward" =>
    ((data msg).bind lib.fromStr).map (fun command => self.handleForwardedRequest append command)
  | _ => some (self, Effects.none)

def toValue (lib : Library) : Line → Value
  | .json msg => msg
  | .forward source target command => message source target
      [("type", .string "forward"), ("data", .string (lib.render command))]

theorem isClientRequest_iff (msg : Value) :
    isClientRequest msg = true ↔ msgType msg = "read" ∨ msgType msg = "write" ∨
      msgType msg = "cas" := by
  simp [isClientRequest, msgType]

theorem handleLine_request {lib : Library} {msg : Value} (h : isClientRequest msg = true)
    (self : MaelstromNode) (append : AppendResult) :
    handleLine lib self append msg = self.handleClientRequest append msg := by
  obtain htype | htype | htype := (isClientRequest_iff msg).mp h <;>
    simp only [handleLine, htype]

theorem handleLine_forward {lib : Library} {msg : Value} (h : msgType msg = "forward")
    (self : MaelstromNode) (append : AppendResult) :
    handleLine lib self append msg = ((data msg).bind lib.fromStr).map
      (fun command => self.tryAppend append command) := by
  simp only [handleLine, h]
  rfl

/-- No other line changes the node: what OmniPaxos makes of its messages is told apart. -/
theorem handleLine_other {lib : Library} {self : MaelstromNode} {append : AppendResult}
    {msg : Value} {r : MaelstromNode × Effects} (hrequest : isClientRequest msg = false)
    (hforward : msgType msg ≠ "forward") (h : handleLine lib self append msg = some r) :
    r = (self, Effects.none) := by
  have hnot := mt (isClientRequest_iff msg).mpr (by simp [hrequest])
  simp only [not_or] at hnot
  unfold handleLine at h
  split at h
  case h_1 heq => exact absurd heq hnot.1
  case h_2 heq => exact absurd heq hnot.2.1
  case h_3 heq => exact absurd heq hnot.2.2
  case h_4 =>
    simp only [handleOmnipaxosMessage, Option.map_eq_some_iff, Option.bind_eq_some_iff,
      Option.ite_none_right_eq_some, Option.some.injEq] at h
    obtain ⟨_, ⟨_, _, _, rfl⟩, rfl⟩ := h
    rfl
  case h_5 heq => exact absurd heq hforward
  case h_6 =>
    cases h
    rfl

/-- OmniPaxos can be built for a node of a cluster of two or more, whose ids are different and not
zero. -/
def Builds (lib : Library) : Prop :=
  ∀ id ids, id ∈ ids → 0 ∉ ids → ids.Nodup → 1 < ids.length → lib.build id ids = true

theorem mapM_asStr (ids : List String) : ids.mapM (Value.asStr ∘ Value.string) = some ids := by
  induction ids with
  | nil => rfl
  | cons id ids ih => simp [ih]

theorem startup_initMessage (lib : Library) (nodeId : String) (nodeIds : List String) :
    startup lib (initMessage nodeId nodeIds) =
      some (message nodeId "harness" [("type", .string "init_ok"), ("in_reply_to", .u64 0)],
        (maelstromToOpId nodeId).bind (fun myOpId => (nodeIds.mapM maelstromToOpId).bind
          (fun allOpIds =>
            if lib.build myOpId allOpIds then some (MaelstromNode.new nodeId) else none))) := by
  simp [startup, initMessage, message, Value.get, asArray, mapM_asStr, List.lookup_cons]

theorem mapM_nodeName {size : UInt64} {is : List Nat} (h : ∀ i ∈ is, i < size.toNat) :
    (is.map nodeName).mapM maelstromToOpId = some (is.map (fun i => UInt64.ofNat i + 1)) := by
  induction is with
  | nil => rfl
  | cons i is ih =>
    have hfirst := (maelstromToOpId_index (h i (by simp))).1
    simp [hfirst, ih (fun i hi => h i (by simp [hi]))]

theorem build_nodeName {lib : Library} (hbuild : Builds lib) {size : UInt64} (hsize : 1 < size)
    {i : Nat} (hi : i < size.toNat) : lib.build (UInt64.ofNat i + 1)
      ((List.range size.toNat).map (fun i => UInt64.ofNat i + 1)) = true := by
  apply hbuild
  · exact List.mem_map.mpr ⟨i, List.mem_range.mpr hi, rfl⟩
  · intro hzero
    obtain ⟨j, hj, heq⟩ := List.mem_map.mp hzero
    have hnat := opId_toNat (List.mem_range.mp hj)
    rw [heq] at hnat
    cases hnat
  · refine List.nodup_range.map_on (fun j hj k hk heq => ?_)
    have hnat := congrArg UInt64.toNat heq
    rw [opId_toNat (List.mem_range.mp hj), opId_toNat (List.mem_range.mp hk)] at hnat
    exact Nat.succ.inj hnat
  · rw [List.length_map, List.length_range]
    exact UInt64.lt_iff_toNat_lt.mp hsize

end OmniPaxosJepsen.EventLoop
