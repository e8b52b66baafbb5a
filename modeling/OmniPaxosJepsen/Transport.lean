import OmniPaxosJepsen.ClusterStep
import OmniPaxosJepsen.Runs

namespace OmniPaxosJepsen.Transport

open Cluster Node Apply Runs

variable {lib : Library} {members : Finset String} {s t : ClusterState} {a : Action}

def Travels (s : ClusterState) : Prop := ∀ m ∈ s.inFlight, m.2 ∈ s.forwarded

theorem Travels.perform (h : Travels s) (node : String) (r : MaelstromNode × Effects) :
    Travels (s.perform node r) := by
  intro m hm
  obtain hm | hm := List.mem_append.mp hm
  · exact List.mem_append_left _ (h m hm)
  · exact List.mem_append_right _ (List.mem_map_of_mem hm)

theorem Travels.eraseIdx (h : Travels s) (i : Nat) (dropped : List MaelstromCommand) :
    Travels { s with inFlight := s.inFlight.eraseIdx i, dropped := dropped } :=
  fun m hm => h m (List.mem_of_mem_eraseIdx hm)

def writeText : String :=
  "\x7b\"coordinator\":\"n1\",\"client_src\":\"c1\",\"msg_id\":1,\"op\":" ++
    "\x7b\"Write\":[\"x\",5]\x7d\x7d"

def writeCommand : MaelstromCommand := ⟨"n1", "c1", 1, .write "x" (.u64 5)⟩

def writeLibrary : Library :=
  { render := fun cmd => if cmd = writeCommand then writeText else ""
    fromStr := fun text => if text = writeText then some writeCommand else none
    isMessage := fun _ => false
    build := fun _ ids => 1 < ids.length }

theorem forwardedWrite_run : ∃ s,
    run (stepVia writeLibrary {"n0", "n1"}) Cluster.init forwardedWrite = some s ∧
      s.forwarded = [writeCommand] ∧ Faithful writeLibrary s.forwarded := by
  have hrun : (run (stepVia writeLibrary {"n0", "n1"}) Cluster.init forwardedWrite).any
      (fun s => s.forwarded = [writeCommand]) = true := by
    decide +kernel
  obtain ⟨s, hs, hforwarded⟩ := (Option.any_eq_true _ _).mp hrun
  have hforwarded : s.forwarded = [writeCommand] := of_decide_eq_true hforwarded
  refine ⟨s, hs, hforwarded, ?_⟩
  rw [hforwarded]
  intro cmd hcmd
  obtain rfl := List.mem_singleton.mp hcmd
  decide +kernel

end OmniPaxosJepsen.Transport
