import OmniPaxosJepsen.Routing

namespace OmniPaxosJepsen.NodeNames

open Json Node Harness Routing

/-- `none` is the panic of an `expect`: the name does not start with `n`, or what follows
is no 64-bit number. The sum wraps, as in the release build. -/
def maelstromToOpId (s : String) : Option NodeId :=
  match s.toList with
  | 'n' :: number => (parseUsize number).map (fun n => UInt64.ofNat n + 1)
  | _ => none

/-- A message that OmniPaxos hands over: its receiver, and its rendering as JSON text. -/
structure Outgoing where
  receiver : NodeId
  data : String

def outgoingLine (self : MaelstromNode) (msg : Outgoing) : Value :=
  message self.nodeId (opToMaelstromId msg.receiver)
    [("type", .string "omnipaxos"), ("data", .string msg.data)]

/-- `outgoing` is what `take_outgoing_messages` puts into the buffer. -/
def sendOutgoingMessages (self : MaelstromNode) (outgoing : List Outgoing) : List Value :=
  outgoing.map (outgoingLine self)

theorem parseUsize_toDigits {n : Nat} (hn : n < 2 ^ 64) :
    parseUsize (Nat.toDigits 10 n) = some n := by
  have hdigit : ∀ c ∈ Nat.toDigits 10 n, c.isDigit :=
    fun c hc => Nat.isDigit_of_mem_toDigits (by decide) (by decide) hc
  have hvalue : (Nat.toDigits 10 n).foldl (fun n c => 10 * n + (c.toNat - '0'.toNat)) 0 = n := by
    rw [← Nat.ofDigitChars_eq_foldl, Nat.ofDigitChars_ten_toDigits]
  cases hdigits : Nat.toDigits 10 n with
  | nil => exact absurd hdigits Nat.toDigits_ne_nil
  | cons c rest =>
    rw [hdigits] at hdigit hvalue
    -- a digit is not the sign that a number may start with
    have hsign : c ≠ '+' := by
      rintro rfl
      exact absurd (hdigit '+' (by simp)) (by decide)
    unfold parseUsize
    split
    · next heq =>
      cases heq
      exact absurd rfl hsign
    · rw [if_pos ⟨by simp, List.all_eq_true.mpr hdigit⟩, hvalue]
      exact if_pos hn

theorem maelstromToOpId_nodeName {i : Nat} (hi : i < 2 ^ 64) :
    maelstromToOpId (nodeName i) = some (UInt64.ofNat i + 1) := by
  have hname : (nodeName i).toList = 'n' :: Nat.toDigits 10 i := by simp [nodeName]
  rw [maelstromToOpId, hname]
  simp [parseUsize_toDigits hi]

theorem opId_toNat {size : UInt64} {i : Nat} (hi : i < size.toNat) :
    (UInt64.ofNat i + 1).toNat = i + 1 := by
  have hsize := size.toNat_lt
  rw [UInt64.toNat_add, UInt64.toNat_ofNat']
  simp only [UInt64.toNat_one]
  omega

theorem opToMaelstromId_succ {i : Nat} (hi : i < 2 ^ 64) :
    opToMaelstromId (UInt64.ofNat i + 1) = nodeName i := by
  rw [opToMaelstromId, UInt64.add_sub_cancel, UInt64.toNat_ofNat_of_lt' hi, nodeName]

theorem maelstromToOpId_index {size : UInt64} {i : Nat} (hi : i < size.toNat) :
    maelstromToOpId (nodeName i) = some (UInt64.ofNat i + 1) ∧
      opToMaelstromId (UInt64.ofNat i + 1) = nodeName i :=
  have hlt : i < 2 ^ 64 := hi.trans size.toNat_lt
  ⟨maelstromToOpId_nodeName hlt, opToMaelstromId_succ hlt⟩

theorem tryAppend_leader (self : MaelstromNode) (leaderId : NodeId) (command : MaelstromCommand) :
    self.tryAppend (.err (some leaderId)) command =
      if opToMaelstromId leaderId = self.nodeId then
        ({ self with pendingForwards := self.pendingForwards ++ [command] }, Effects.none)
      else (self, ⟨[], [.forward self.nodeId (opToMaelstromId leaderId) command]⟩) := by
  rw [MaelstromNode.tryAppend]
  by_cases hself : opToMaelstromId leaderId = self.nodeId <;> simp [hself]

/-- Node names and OmniPaxos ids translate into each other: no name panics and no sum
or difference wraps, different names have different ids, and a message to an id is sent
to the node with that id, a command for the leader only if that is another node. -/
theorem names_translate (size : UInt64) :
    (∀ i < size.toNat, ∃ p, maelstromToOpId (nodeName i) = some p ∧ p.toNat = i + 1 ∧
      (p - 1).toNat = p.toNat - 1 ∧ opToMaelstromId p = nodeName i ∧
      maelstromToOpId (opToMaelstromId p) = some p) ∧
    (∀ i < size.toNat, ∀ j < size.toNat,
      maelstromToOpId (nodeName i) = maelstromToOpId (nodeName j) → nodeName i = nodeName j) ∧
    (∀ (self : MaelstromNode) (outgoing : List Outgoing) (dest : Outgoing → Nat),
      (∀ msg ∈ outgoing, dest msg < size.toNat ∧
        maelstromToOpId (nodeName (dest msg)) = some msg.receiver) →
      sendOutgoingMessages self outgoing = outgoing.map (fun msg =>
        message self.nodeId (nodeName (dest msg))
          [("type", .string "omnipaxos"), ("data", .string msg.data)])) ∧
    ∀ (self : MaelstromNode) (command : MaelstromCommand), ∀ i < size.toNat, ∀ p,
      maelstromToOpId (nodeName i) = some p →
      self.tryAppend (.err (some p)) command =
        if nodeName i = self.nodeId then
          ({ self with pendingForwards := self.pendingForwards ++ [command] }, Effects.none)
        else (self, ⟨[], [.forward self.nodeId (nodeName i) command]⟩) := by
  have hback : ∀ i < size.toNat, ∀ p, maelstromToOpId (nodeName i) = some p →
      opToMaelstromId p = nodeName i := by
    intro i hi p hp
    obtain ⟨hid, hname⟩ := maelstromToOpId_index hi
    rw [hid] at hp
    cases hp
    exact hname
  refine ⟨fun i hi => ?_, fun i hi j hj hij => ?_, fun self outgoing dest hdest => ?_,
    fun self command i hi p hp => ?_⟩
  · obtain ⟨hid, hname⟩ := maelstromToOpId_index hi
    have hnat := opId_toNat hi
    refine ⟨_, hid, hnat, ?_, hname, by rw [hname, hid]⟩
    rw [hnat, UInt64.add_sub_cancel, UInt64.toNat_ofNat_of_lt' (hi.trans size.toNat_lt)]
    rfl
  · obtain ⟨hid, _⟩ := maelstromToOpId_index hj
    rw [← hback i hi _ (hij.trans hid), ← hback j hj _ hid]
  · apply List.map_congr_left
    intro msg hmsg
    obtain ⟨hlt, hid⟩ := hdest msg hmsg
    rw [outgoingLine, hback _ hlt _ hid]
  · rw [tryAppend_leader, hback i hi p hp]

/-- In a cluster of three, `n0` sends to `n2` and forwards to it as the leader. -/
theorem names_translate_three :
    (∃ p, maelstromToOpId "n2" = some p ∧ p.toNat = 3 ∧ (p - 1).toNat = p.toNat - 1 ∧
      opToMaelstromId p = "n2" ∧ maelstromToOpId (opToMaelstromId p) = some p) ∧
    maelstromToOpId "n1" ≠ maelstromToOpId "n2" ∧
    sendOutgoingMessages (MaelstromNode.new "n0") [⟨3, "Prepare"⟩] =
      [message "n0" "n2" [("type", .string "omnipaxos"), ("data", .string "Prepare")]] ∧
    ∀ command, (MaelstromNode.new "n0").tryAppend (.err (some 3)) command =
      (MaelstromNode.new "n0", ⟨[], [.forward "n0" "n2" command]⟩) := by
  obtain ⟨hids, hinj, hsent, hforward⟩ := names_translate 3
  refine ⟨hids 2 (by decide), fun h => ?_, ?_, fun command => ?_⟩
  · exact absurd (hinj 1 (by decide) 2 (by decide) h) (by decide)
  · exact hsent (MaelstromNode.new "n0") [⟨3, "Prepare"⟩] (fun _ => 2)
      (by simp only [List.forall_mem_singleton]; decide)
  · exact hforward (MaelstromNode.new "n0") command 2 (by decide) 3 (by decide)

end OmniPaxosJepsen.NodeNames
