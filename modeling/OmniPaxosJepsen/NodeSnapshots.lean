import OmniPaxosJepsen.Apply

namespace OmniPaxosJepsen.NodeSnapshots

open Json KvSpec Node Apply

structure MaelstromKVSnapshot where
  data : Store

namespace MaelstromKVSnapshot

def record (data : Store) (cmd : MaelstromCommand) : Store :=
  match cmd.op with
  | .write key value => Function.update data key (some value)
  | .cas key expected replacement =>
    let current := data key
    if current = some expected then Function.update data key (some replacement) else data
  | .read _ => data

def create (entries : List MaelstromCommand) : MaelstromKVSnapshot :=
  ⟨entries.foldl record emptyStore⟩

/-- Every entry of `delta.data` is inserted. -/
def merge (self delta : MaelstromKVSnapshot) : MaelstromKVSnapshot :=
  ⟨fun k => (delta.data k).or (self.data k)⟩

@[simp] theorem merge_data (self delta : MaelstromKVSnapshot) (k : String) :
    (self.merge delta).data k = (delta.data k).or (self.data k) := rfl

end MaelstromKVSnapshot

open MaelstromKVSnapshot

theorem record_eq (data : Store) (cmd : MaelstromCommand) :
    record data cmd = (apply data cmd.op).1 := by
  obtain ⟨coordinator, clientSrc, msgId, op⟩ := cmd
  cases op with
  | read key =>
    have hcell : (applyCell (data key) (.read key : KVOp)).1 = data key := by
      cases hv : data key <;> rfl
    simp [record, apply, Op.key, hcell]
  | write key v => rfl
  | cas key expected replacement =>
    cases hv : data key with
    | none =>
      have hsame : Function.update data key none = data := by rw [← hv, Function.update_eq_self]
      simp [record, apply, applyCell, Op.key, hv, hsame]
    | some v =>
      have hsame : Function.update data key (some v) = data := by rw [← hv, Function.update_eq_self]
      by_cases hc : v = expected <;> simp [record, apply, applyCell, Op.key, hv, hc, hsame]

theorem create_data (entries : List MaelstromCommand) :
    (create entries).data = replay emptyStore (entries.map MaelstromCommand.op) := by
  have hrecord : record = fun data cmd => (apply data cmd.op).1 :=
    funext (fun data => funext (fun cmd => record_eq data cmd))
  simp only [create, replay, List.foldl_map, hrecord]

theorem record_applyAndRespond (self : MaelstromNode) (cmd : MaelstromCommand) :
    record self.kvStore cmd = (self.applyAndRespond cmd).1.kvStore := by
  rw [record_eq, applyAndRespond_eq]

theorem applyEntries_snapshotted (self : MaelstromNode) (data : Store) (entries : List LogEntry) :
    self.applyEntries (.snapshotted data :: entries) =
      { self with kvStore := data }.applyEntries entries := rfl

/-- A snapshot of the beginning of a log and the commands after it, whatever the store of
the node was before. -/
theorem applyEntries_snapshot (self : MaelstromNode) (log : List MaelstromCommand) (i : Nat) :
    (self.applyEntries (.snapshotted (create (log.take i)).data ::
        (log.drop i).map LogEntry.decided)).1 =
      { self with kvStore := replay emptyStore (log.map MaelstromCommand.op) } := by
  rw [applyEntries_snapshotted, applyEntries_decided, create_data, ← replay_append,
    ← List.map_append, List.take_append_drop]

theorem applyEntries_new (nodeId : String) (log : List MaelstromCommand) :
    ((MaelstromNode.new nodeId).applyEntries (log.map LogEntry.decided)).1.kvStore =
      replay emptyStore (log.map MaelstromCommand.op) := by
  rw [applyEntries_decided]
  rfl

theorem processDecidedEntries_of_lt {self : MaelstromNode} {idx : Nat} (h : self.decidedIdx < idx)
    (entries : List LogEntry) : self.processDecidedEntries idx (fun _ => some entries) =
      some ({ self with decidedIdx := idx }.applyEntries entries) := by
  simp [MaelstromNode.processDecidedEntries, Nat.not_le.mpr h]

/-- A snapshot and the commands after it lead where all the commands do: each command
does the same to a snapshot as to a node, the loop over the entries ends with the same
store, and a node that has applied a beginning of what the snapshot covers ends there. -/
theorem snapshot_agrees :
    (∀ (self : MaelstromNode) (cmd : MaelstromCommand),
      record self.kvStore cmd = (self.applyAndRespond cmd).1.kvStore) ∧
    (∀ (self : MaelstromNode) (nodeId : String) (log : List MaelstromCommand) (i : Nat),
      (self.applyEntries (.snapshotted (create (log.take i)).data ::
          (log.drop i).map LogEntry.decided)).1.kvStore =
        ((MaelstromNode.new nodeId).applyEntries (log.map LogEntry.decided)).1.kvStore) ∧
    ∀ (self : MaelstromNode) (log : List MaelstromCommand) (i : Nat), i ≤ log.length →
      self.decidedIdx ≤ i →
      self.kvStore = ((MaelstromNode.new self.nodeId).applyEntries
        ((log.take self.decidedIdx).map LogEntry.decided)).1.kvStore →
      ∃ self' sent, self.processDecidedEntries log.length
          (fun _ => some (.snapshotted (create (log.take i)).data ::
            (log.drop i).map LogEntry.decided)) = some (self', sent) ∧
        self'.decidedIdx = log.length ∧
        self'.kvStore = ((MaelstromNode.new self.nodeId).applyEntries
          (log.map LogEntry.decided)).1.kvStore := by
  refine ⟨record_applyAndRespond, fun self nodeId log i => ?_,
    fun self log i hi hself hkv => ?_⟩
  · rw [applyEntries_snapshot, applyEntries_new]
  · obtain hlt | hge := Nat.lt_or_ge self.decidedIdx log.length
    · have hnode := applyEntries_snapshot { self with decidedIdx := log.length } log i
      refine ⟨_, _, processDecidedEntries_of_lt hlt _, ?_, ?_⟩
      · exact congrArg MaelstromNode.decidedIdx hnode
      · rw [applyEntries_new]
        exact congrArg MaelstromNode.kvStore hnode
    · -- The node has applied the whole log already.
      have hidx : self.decidedIdx = log.length := (hself.trans hi).antisymm hge
      refine ⟨self, [], by simp [MaelstromNode.processDecidedEntries, hidx], hidx, ?_⟩
      rw [hkv, hidx, List.take_length]

/-- A node that has applied a write gets a snapshot that covers it and the
compare-and-swap after it. -/
theorem snapshot_agrees_writeCas : ∃ self' sent,
    MaelstromNode.processDecidedEntries
        ⟨"n0", Function.update emptyStore "x" (some (.u64 1)), 1, []⟩ 3
        (fun _ => some [.snapshotted (create [⟨"n0", "c1", 1, .write "x" (.u64 1)⟩,
          ⟨"n1", "c2", 2, .cas "x" (.u64 1) (.u64 2)⟩]).data,
          .decided ⟨"n0", "c1", 3, .read "x"⟩]) = some (self', sent) ∧
      self'.kvStore "x" = some (.u64 2) := by
  obtain ⟨self', sent, hrun, _, hkv⟩ := snapshot_agrees.2.2
    ⟨"n0", Function.update emptyStore "x" (some (.u64 1)), 1, []⟩
    [⟨"n0", "c1", 1, .write "x" (.u64 1)⟩, ⟨"n1", "c2", 2, .cas "x" (.u64 1) (.u64 2)⟩,
      ⟨"n0", "c1", 3, .read "x"⟩] 2 (by decide) (by decide) rfl
  exact ⟨self', sent, hrun, by rw [hkv]; decide⟩

end OmniPaxosJepsen.NodeSnapshots
