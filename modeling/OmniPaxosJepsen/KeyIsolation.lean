import OmniPaxosJepsen.Apply
import OmniPaxosJepsen.Cluster

namespace OmniPaxosJepsen.KeyIsolation

open Json KvSpec Node Apply Cluster

def requestKey (msg : Value) : Value := (msg.get "body").get "key"

/-- The key under which the node keeps the value. -/
def storeKey (key : Value) : String := key.asStr.getD ""

/-- Apply decided requests, each accepted at the node it is paired with. Every request
is listed with the responses that `self` sends for it. -/
def respond (self : MaelstromNode) : List (String × Value) → List (Value × List Value)
  | [] => []
  | (coordinator, msg) :: reqs =>
    match clientCommand coordinator msg with
    | none => respond self reqs
    | some cmd =>
      let (self, sent) := self.applyAndRespond cmd
      (msg, sent) :: respond self reqs

def responsesOn (key : Value) (self : MaelstromNode) (reqs : List (String × Value)) :
    List (Value × List Value) :=
  (respond self reqs).filter (fun r => requestKey r.1 = key)

/-- Leaving out the requests on `k₂` changes no response to a request on `k₁`. -/
def Isolated (k₁ k₂ : Value) : Prop :=
  ∀ node reqs, responsesOn k₁ (MaelstromNode.new node) reqs =
    responsesOn k₁ (MaelstromNode.new node) (reqs.filter (fun r => requestKey r.2 ≠ k₂))

theorem clientCommand_key {node : String} {msg : Value} {cmd : MaelstromCommand}
    (h : clientCommand node msg = some cmd) : cmd.op.key = storeKey (requestKey msg) := by
  simp only [clientCommand, MaelstromNode.requestCommand, Option.bind_eq_bind, Option.pure_def,
    Option.bind_eq_some_iff, Option.some.injEq] at h
  obtain ⟨_, ⟨src, _, msgId, _, rfl⟩, hop⟩ := h
  simp only [Option.map_eq_some_iff] at hop
  obtain ⟨op, hop, rfl⟩ := hop
  split at hop <;> cases hop <;> rfl

theorem response_agree {kv kv' : Store} {node : String} {cmd : MaelstromCommand}
    (h : kv cmd.op.key = kv' cmd.op.key) : response node kv cmd = response node kv' cmd := by
  simp only [response, apply, h]

/-- Stores that agree on one store key answer its requests alike, with and without
the requests that go to another store key. -/
theorem responsesOn_filter {k₁ k₂ : Value} (hkey : storeKey k₁ ≠ storeKey k₂)
    (reqs : List (String × Value)) {self self' : MaelstromNode} (hid : self.nodeId = self'.nodeId)
    (hkv : self.kvStore (storeKey k₁) = self'.kvStore (storeKey k₁)) :
    responsesOn k₁ self reqs =
      responsesOn k₁ self' (reqs.filter (fun r => requestKey r.2 ≠ k₂)) := by
  induction reqs generalizing self self' with
  | nil => rfl
  | cons r reqs ih =>
    obtain ⟨coordinator, msg⟩ := r
    cases hcmd : clientCommand coordinator msg with
    | none =>
      by_cases hk₂ : requestKey msg = k₂
      · simpa [responsesOn, respond, hcmd, hk₂] using ih hid hkv
      · simpa [responsesOn, respond, hcmd, hk₂] using ih hid hkv
    | some cmd =>
      have hop := clientCommand_key hcmd
      by_cases hk₂ : requestKey msg = k₂
      · have hk₁ : k₂ ≠ k₁ := by
          rintro rfl
          exact hkey rfl
        have hother : storeKey k₁ ≠ cmd.op.key := by rwa [hop, hk₂]
        have hnext := @ih { self with kvStore := (apply self.kvStore cmd.op).1 } self' hid
          (by rw [← hkv, ← apply_other self.kvStore cmd.op hother])
        simpa [responsesOn, respond, hcmd, hk₁, hk₂, applyAndRespond_eq] using hnext
      · have hnext := @ih { self with kvStore := (apply self.kvStore cmd.op).1 }
          { self' with kvStore := (apply self'.kvStore cmd.op).1 } hid (apply_congr hkv cmd.op)
        by_cases hk₁ : requestKey msg = k₁
        · have hresp : response self.nodeId self.kvStore cmd =
              response self'.nodeId self'.kvStore cmd := by
            rw [hid]
            exact response_agree (by rw [hop, hk₁, hkv])
          rw [hk₁] at hk₂
          simpa [responsesOn, respond, hcmd, hk₁, hk₂, applyAndRespond_eq, hresp] using hnext
        · simpa [responsesOn, respond, hcmd, hk₁, hk₂, applyAndRespond_eq] using hnext

theorem storeKey_eq_empty_iff (key : Value) :
    storeKey key = "" ↔ ∀ s, key = .string s → s = "" := by
  cases key with
  | string s => simp [storeKey]
  | _ => simp [storeKey, Value.asStr]

theorem storeKey_ne_iff {k₁ k₂ : Value} (hne : k₁ ≠ k₂) :
    storeKey k₁ ≠ storeKey k₂ ↔ ∃ s, s ≠ "" ∧ (k₁ = .string s ∨ k₂ = .string s) := by
  refine ⟨fun h => ?_, ?_⟩
  · by_contra hnone
    have hempty : ∀ key, key = k₁ ∨ key = k₂ → storeKey key = "" := by
      intro key hkey
      apply (storeKey_eq_empty_iff key).mpr
      intro s hs
      by_contra hs'
      refine hnone ⟨s, hs', ?_⟩
      obtain rfl | rfl := hkey
      · exact .inl hs
      · exact .inr hs
    exact h ((hempty k₁ (.inl rfl)).trans (hempty k₂ (.inr rfl)).symm)
  · -- A nonempty store key comes from one wire key only.
    have honly : ∀ {key : Value} {s : String}, s ≠ "" → storeKey key = s → key = .string s := by
      intro key s hs hkey
      cases key with
      | string s' => exact congrArg Value.string hkey
      | _ => exact absurd hkey.symm hs
    rintro ⟨s, hs, rfl | rfl⟩ heq
    · exact hne (honly hs heq.symm).symm
    · exact hne (honly hs heq)

def request (type : String) (msgId : Nat) (key : Value) (fields : List (String × Value)) : Value :=
  message "c1" "n0" ([("type", .string type), ("msg_id", .u64 msgId), ("key", key)] ++ fields)

theorem not_isolated {k₁ k₂ : Value} (hne : k₁ ≠ k₂) (hkey : storeKey k₁ = storeKey k₂) :
    ¬ Isolated k₁ k₂ := by
  intro h
  have hrun := h "n0" [("n0", request "write" 1 k₂ [("value", .null)]),
    ("n0", request "read" 2 k₁ [])]
  have hwrite : clientCommand "n0" (request "write" 1 k₂ [("value", .null)]) =
      some ⟨"n0", "c1", 1, .write (storeKey k₂) .null⟩ := rfl
  have hread : clientCommand "n0" (request "read" 2 k₁ []) =
      some ⟨"n0", "c1", 2, .read (storeKey k₁)⟩ := rfl
  have hkw : requestKey (request "write" 1 k₂ [("value", .null)]) = k₂ := rfl
  have hkr : requestKey (request "read" 2 k₁ []) = k₁ := rfl
  simp [responsesOn, respond, hwrite, hread, hkw, hkr, hne, Ne.symm hne, hkey, applyAndRespond_eq,
    response, apply, applyCell, Op.key, MaelstromNode.new, render, emptyStore, message,
    sendError] at hrun

/-- Two different JSON keys are isolated from each other exactly when one of them is a
nonempty string: all other keys are stored under the empty string. -/
theorem isolated_iff (k₁ k₂ : Value) (hne : k₁ ≠ k₂) :
    Isolated k₁ k₂ ↔ ∃ s, s ≠ "" ∧ (k₁ = .string s ∨ k₂ = .string s) := by
  rw [← storeKey_ne_iff hne]
  refine ⟨fun h hkey => not_isolated hne hkey h, fun h node reqs => ?_⟩
  exact responsesOn_filter h reqs rfl rfl

theorem isolated_strings : Isolated (.string "x") (.string "y") :=
  (isolated_iff (.string "x") (.string "y") (by decide)).mpr ⟨"x", by decide, .inl rfl⟩

/-- The number keys 0 and 1 collide: a read of 0 sees a write to 1. -/
theorem number_keys_collide :
    (Value.u64 0 ≠ Value.u64 1) ∧
    responsesOn (.u64 0) (MaelstromNode.new "n0")
        [("n0", request "write" 1 (.u64 1) [("value", .u64 5)]),
          ("n0", request "read" 2 (.u64 0) [])] ≠
      responsesOn (.u64 0) (MaelstromNode.new "n0")
        ([("n0", request "write" 1 (.u64 1) [("value", .u64 5)]),
          ("n0", request "read" 2 (.u64 0) [])].filter (fun r => requestKey r.2 ≠ .u64 1)) := by
  decide

end OmniPaxosJepsen.KeyIsolation
