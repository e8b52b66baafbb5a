import OmniPaxosJepsen.NodeSnapshots

namespace OmniPaxosJepsen.NodeSnapshotMerge

open Json KvSpec Node NodeSnapshots

variable (a b : List MaelstromCommand)

theorem create_append_data : (MaelstromKVSnapshot.create (a ++ b)).data =
    replay (MaelstromKVSnapshot.create a).data (b.map MaelstromCommand.op) := by
  rw [create_data, create_data, List.map_append, replay_append]

theorem merge_data_iff (k : String) :
    ((MaelstromKVSnapshot.create a).merge (MaelstromKVSnapshot.create b)).data k =
        (MaelstromKVSnapshot.create (a ++ b)).data k ↔
      ∀ v, (MaelstromKVSnapshot.create a).data k = some v →
        (∃ op ∈ b.map MaelstromCommand.op, op.writes k = true) ∨
          (b.map MaelstromCommand.op).foldl (Op.swap k) v = v := by
  rw [create_append_data, MaelstromKVSnapshot.merge_data, create_data b]
  generalize (MaelstromKVSnapshot.create a).data = base
  generalize b.map MaelstromCommand.op = ops
  by_cases hwrites : ∃ op ∈ ops, op.writes k = true
  · -- The delta holds the key, with the value it has on any base.
    obtain ⟨v, hv⟩ := Option.isSome_iff_exists.mp (replay_isSome_of_writes hwrites emptyStore)
    have hbase : replay base ops k = some v := by rw [replay_of_writes hwrites base emptyStore, hv]
    simp [hv, hbase, hwrites]
  · have hno : ∀ op ∈ ops, op.writes k = false := by
      simpa only [not_exists, not_and, Bool.not_eq_true] using hwrites
    -- A key without a write is absent from the delta, whatever is swapped.
    have hdelta : replay emptyStore ops k = none := replay_of_not_writes hno emptyStore
    rw [hdelta, replay_of_not_writes hno base]
    cases hv : base k with
    | none => simp
    | some v => simpa [hwrites] using eq_comm

/-- Merging the snapshot of `b` into that of `a` gives the snapshot of both exactly when
`b` writes each key that has a value after `a`, or swaps that value back to itself. -/
theorem merge_data_eq_iff :
    ((MaelstromKVSnapshot.create a).merge (MaelstromKVSnapshot.create b)).data =
        (MaelstromKVSnapshot.create (a ++ b)).data ↔
      ∀ k v, replay emptyStore (a.map MaelstromCommand.op) k = some v →
        (∃ op ∈ b.map MaelstromCommand.op, op.writes k = true) ∨
          (b.map MaelstromCommand.op).foldl (Op.swap k) v = v := by
  rw [funext_iff, ← create_data a]
  exact forall_congr' (merge_data_iff a b)

/-- A compare-and-swap on a value that only the base holds is lost. -/
theorem merge_loses_cas : ¬ ∀ a b : List MaelstromCommand,
    ((MaelstromKVSnapshot.create a).merge (MaelstromKVSnapshot.create b)).data =
      (MaelstromKVSnapshot.create (a ++ b)).data := by
  intro h
  have hx := congrFun (h [⟨"n0", "c1", 1, .write "x" (.u64 1)⟩]
    [⟨"n0", "c1", 2, .cas "x" (.u64 1) (.u64 2)⟩]) "x"
  revert hx
  decide

end OmniPaxosJepsen.NodeSnapshotMerge
