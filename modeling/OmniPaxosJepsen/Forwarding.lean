import Mathlib.Tactic.Abel
import Mathlib.Data.List.Perm.Basic
import OmniPaxosJepsen.Flight
import OmniPaxosJepsen.Replication
import OmniPaxosJepsen.Transport

namespace OmniPaxosJepsen.Forwarding

open Cluster Node Json KvSpec Runs Apply Replication Transport

def given (e : Effects) : Multiset MaelstromCommand :=
  (e.appended : Multiset MaelstromCommand) + ((forwards e.sent).map Prod.snd : Multiset _)

theorem forwards_append (l l' : List Line) : forwards (l ++ l') = forwards l ++ forwards l' :=
  List.filterMap_append

theorem given_append (e e' : Effects) : given (e.append e') = given e + given e' := by
  simp only [given, Effects.append, forwards_append, List.map_append, ← Multiset.coe_add]
  abel

@[simp] theorem given_none : given Effects.none = 0 := rfl

/-- A command handed to `try_append` ends up in exactly one place. -/
theorem tryAppend_conserves (self : MaelstromNode) (append : AppendResult)
    (command : MaelstromCommand) :
    ((self.tryAppend append command).1.pendingForwards : Multiset MaelstromCommand) +
      given (self.tryAppend append command).2 = self.pendingForwards + {command} := by
  cases append with
  | ok => rfl
  | err leader =>
    cases leader with
    | none => simp [MaelstromNode.tryAppend, ← Multiset.coe_add]
    | some leaderId =>
      by_cases h : opToMaelstromId leaderId = self.nodeId
      · simp [MaelstromNode.tryAppend, h, ← Multiset.coe_add]
      · simp [MaelstromNode.tryAppend, h, given, forwards]

theorem retry_conserves (self : MaelstromNode) (append : Nat → AppendResult)
    (pending : List MaelstromCommand) :
    ((self.retry append pending).1.pendingForwards : Multiset MaelstromCommand) +
      given (self.retry append pending).2 = self.pendingForwards + pending := by
  induction pending generalizing self append with
  | nil => simp [MaelstromNode.retry]
  | cons cmd pending ih =>
    have hfirst := tryAppend_conserves self (append 0) cmd
    have hrest := ih (self.tryAppend (append 0) cmd).1 (fun i => append (i + 1))
    simp only [MaelstromNode.retry, given_append, ← Multiset.cons_coe, ← Multiset.singleton_add]
    rw [← add_assoc (self.pendingForwards : Multiset MaelstromCommand), ← hfirst, add_left_comm,
      hrest]
    abel

theorem tick_conserves (self : MaelstromNode) (append : Nat → AppendResult) :
    ((self.tick append).1.pendingForwards : Multiset MaelstromCommand) +
      given (self.tick append).2 = self.pendingForwards := by
  have h := retry_conserves { self with pendingForwards := [] } append self.pendingForwards
  simpa [MaelstromNode.tick] using h

/-- Where an accepted request can be: buffered at a node, on its way in a forward
message, or taken by OmniPaxos. -/
def pending (members : Finset String) (s : ClusterState) : Multiset MaelstromCommand :=
  ∑ n ∈ members, ((s.nodes n).pendingForwards : Multiset MaelstromCommand)

def carried (s : ClusterState) : Multiset MaelstromCommand := (s.inFlight.map Prod.snd : Multiset _)

def taken (s : ClusterState) : Multiset MaelstromCommand :=
  (s.appended : Multiset MaelstromCommand) + s.log

def places (members : Finset String) (s : ClusterState) : Multiset MaelstromCommand :=
  pending members s + carried s + taken s

theorem pending_update {members : Finset String} {node : String} (hn : node ∈ members)
    (s : ClusterState) (self : MaelstromNode) :
    pending members { s with nodes := Function.update s.nodes node self } +
        (s.nodes node).pendingForwards = pending members s + self.pendingForwards := by
  have hrest : ∑ n ∈ members.erase node,
      ((Function.update s.nodes node self n).pendingForwards : Multiset MaelstromCommand) =
      ∑ n ∈ members.erase node, ((s.nodes n).pendingForwards : Multiset MaelstromCommand) := by
    apply Finset.sum_congr rfl
    intro n hmem
    rw [Function.update_of_ne (Finset.ne_of_mem_erase hmem)]
  simp only [pending, ← Finset.add_sum_erase members _ hn, hrest, Function.update_self]
  abel

theorem perform_places {members : Finset String} {node : String} (hn : node ∈ members)
    (s : ClusterState) (r : MaelstromNode × Effects) (new : Multiset MaelstromCommand)
    (h : (r.1.pendingForwards : Multiset MaelstromCommand) + given r.2 =
      (s.nodes node).pendingForwards + new) :
    places members (s.perform node r) = places members s + new := by
  have hp := pending_update hn s r.1
  apply add_right_cancel (b := ((s.nodes node).pendingForwards : Multiset MaelstromCommand))
  have hl : places members (s.perform node r) + (s.nodes node).pendingForwards =
      (pending members { s with nodes := Function.update s.nodes node r.1 } +
        (s.nodes node).pendingForwards) + carried s + taken s + given r.2 := by
    simp only [places, pending, carried, taken, ClusterState.perform, given, List.map_append,
      ← Multiset.coe_add]
    abel
  rw [hl, hp]
  calc
    _ = places members s + ((r.1.pendingForwards : Multiset MaelstromCommand) + given r.2) := by
      simp only [places]
      abel
    _ = _ := by
      rw [h]
      abel

/-- Every accepted request is in one place or was in a dropped forward message. -/
def Conserved (members : Finset String) (s : ClusterState) : Prop :=
  places members s + (s.dropped : Multiset MaelstromCommand) = s.accepted

theorem Conserved.applyNext {members : Finset String} {s : ClusterState} {node : String}
    {cmd : MaelstromCommand} (hn : node ∈ members) (hs : Conserved members s) :
    Conserved members (s.applyNext node cmd) := by
  have hp := pending_update hn s { s.nodes node with
    kvStore := (apply (s.nodes node).kvStore cmd.op).1
    decidedIdx := (s.nodes node).decidedIdx + 1 }
  have hpending : pending members (s.applyNext node cmd) = pending members s :=
    add_right_cancel hp
  have hacc : (s.applyNext node cmd).accepted = s.accepted := by
    simp [ClusterState.accepted, ClusterState.applyNext, List.filterMap_append,
      List.filterMap_map]
  rw [Conserved, places, hpending, hacc]
  exact hs

theorem coe_eraseIdx {β : Type} {l : List β} {i : Nat} {b : β} (h : l[i]? = some b) :
    ({b} : Multiset β) + (l.eraseIdx i : Multiset β) = l :=
  Multiset.coe_eq_coe.mpr (Flight.cons_eraseIdx_perm h)

theorem carried_eraseIdx {s : ClusterState} {i : Nat} {dest : String} {cmd : MaelstromCommand}
    (h : s.inFlight[i]? = some (dest, cmd)) :
    carried { s with inFlight := s.inFlight.eraseIdx i } + {cmd} = carried s := by
  have hmap := congrArg (Multiset.map Prod.snd) (coe_eraseIdx h)
  rw [Multiset.map_add, Multiset.map_singleton, Multiset.map_coe, Multiset.map_coe] at hmap
  rw [add_comm]
  exact hmap

theorem step_conserved {members : Finset String} {old : String → List Value}
    {s t : ClusterState} {a : Action} (hrep : Replicated old s) (hs : Conserved members s)
    (h : step members s a = some t) : Conserved members t := by
  have hnext := step_next h
  have hplaces : places members s + (s.dropped : Multiset MaelstromCommand) = s.accepted := hs
  cases a with
  | clientRequest node append msg =>
    obtain ⟨hmem, cmd, hcmd, rfl⟩ := hnext
    have hp := perform_places hmem s _ _ (tryAppend_conserves (s.nodes node) append cmd)
    have hacc : ClusterState.accepted { s.perform node ((s.nodes node).tryAppend append cmd) with
        history := s.history ++ [.request node msg] } = s.accepted ++ [cmd] := by
      rw [hrep.nodeId node] at hcmd
      simp [ClusterState.accepted, hcmd]
    rw [Conserved, hacc, ← Multiset.coe_add, ← hplaces]
    change places members (s.perform node ((s.nodes node).tryAppend append cmd)) + _ = _
    rw [hp, add_right_comm]
    rfl
  | deliver i append =>
    obtain ⟨dest, cmd, hm, hmem, rfl⟩ := hnext
    have hp := perform_places hmem { s with inFlight := s.inFlight.eraseIdx i } _ _
      (tryAppend_conserves (s.nodes dest) append cmd)
    have hc : places members { s with inFlight := s.inFlight.eraseIdx i } + {cmd} =
        places members s := by
      simp only [places, ← carried_eraseIdx hm]
      rw [add_right_comm, add_assoc (pending members _)]
      rfl
    rw [Conserved, hp, hc]
    exact hplaces
  | drop i =>
    obtain ⟨dest, cmd, hm, rfl⟩ := hnext
    refine Eq.trans ?_ hplaces
    simp only [places, ← carried_eraseIdx hm, ← Multiset.coe_add, Multiset.coe_singleton]
    simp only [pending, carried, taken]
    abel
  | tick node append =>
    obtain ⟨hmem, rfl⟩ := hnext
    have ht := tick_conserves (s.nodes node) append
    have hp := perform_places hmem s _ 0 (by rw [ht, add_zero])
    rw [Conserved, hp, add_zero]
    exact hplaces
  | decide i =>
    obtain ⟨cmd, hcmd, rfl⟩ := hnext
    refine Eq.trans ?_ hplaces
    simp only [places, taken, ← coe_eraseIdx hcmd, ← Multiset.coe_add, Multiset.coe_singleton]
    simp only [pending, carried]
    abel
  | advance node idx =>
    obtain ⟨_, _, _, rfl⟩ := hnext
    exact hs
  | process node =>
    refine process_induction (Conserved members) (hrep.decided_le node) h ?_ hs
    exact fun u cmd _ _ _ _ hu => hu.applyNext hnext.1

theorem conserved_init (members : Finset String) : Conserved members Cluster.init := by
  simp [Conserved, places, pending, carried, taken, Cluster.init, MaelstromNode.new,
    ClusterState.accepted]

end OmniPaxosJepsen.Forwarding
