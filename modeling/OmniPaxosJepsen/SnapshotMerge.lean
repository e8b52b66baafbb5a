import OmniPaxosJepsen.Snapshots

namespace OmniPaxosJepsen.SnapshotMerge

open Common Updates Snapshots

/-- What a snapshot, taken as a delta, says about each key. -/
def delta (d : KVSnapshot) : Patch String String := fun k =>
  if k ∈ d.deletedKeys then some none else (contents d.snapshotted k).map some

theorem contents_foldl_insert (m : HashMap) {l : List (Σ _ : String, String)} (hl : l.NodupKeys)
    (k : String) : contents (l.foldl (fun m e => m.insert e.1 e.2) m) k =
      (l.dlookup k).or (contents m k) := by
  induction l generalizing m with
  | nil => rfl
  | cons e l ih =>
    obtain ⟨key, value⟩ := e
    obtain ⟨hkey, hl⟩ := List.nodupKeys_cons.mp hl
    rw [List.foldl_cons, ih _ hl, contents_insert]
    by_cases hk : k = key
    · subst hk
      have hnone : l.dlookup k = none := List.dlookup_eq_none.mpr hkey
      simp [hnone, apply_self, List.dlookup_cons_eq]
    · rw [List.dlookup_cons_ne _ _ hk, apply_ne _ hk]

theorem contents_foldl_erase (m : HashMap) (keys : List String) (k : String) :
    contents (keys.foldl (fun m key => m.erase key) m) k =
      if k ∈ keys then none else contents m k := by
  induction keys generalizing m with
  | nil => simp
  | cons key keys ih =>
    rw [List.foldl_cons, ih, contents_erase]
    by_cases hk : k = key
    · subst hk
      simp [apply_self]
    · simp [hk, apply_ne _ hk]

/-- `merge` applies the delta as a patch. -/
theorem contents_merge (iter : IterOrder (Σ _ : String, String)) (s d : KVSnapshot) :
    contents (s.merge iter d).snapshotted = (delta d).apply (contents s.snapshotted) := by
  funext k
  have hperm := iter.perm d.snapshotted.entries
  have hnodup : (iter.order d.snapshotted.entries).NodupKeys :=
    (List.perm_nodupKeys hperm).mpr d.snapshotted.nodupKeys
  have hlookup : (iter.order d.snapshotted.entries).dlookup k = contents d.snapshotted k :=
    List.perm_dlookup k hnodup hperm
  simp only [KVSnapshot.merge, contents_foldl_erase, contents_foldl_insert _ hnodup, hlookup,
    delta, Patch.apply]
  by_cases hk : k ∈ d.deletedKeys
  · simp [hk]
  · cases contents d.snapshotted k <;> simp [hk]

/-- The delta of a log is the patch of its updates, but for the keys whose tombstone
`create` has missed. -/
theorem delta_create (b : List Command) (k : String) :
    delta (KVSnapshot.create b) k =
      if (updatesTo k b).getLast? = some none ∧ ¬ DeletesAbsent (updatesTo k b) then none
      else patch (updates b) k := by
  have hpatch : patch (updates b) k = (updatesTo k b).getLast? := rfl
  simp only [delta, mem_deletedKeys_create, contents_create, hpatch]
  cases hlast : (updatesTo k b).getLast? with
  | none => simp
  | some u =>
    cases u with
    | none => by_cases hdel : DeletesAbsent (updatesTo k b) <;> simp [hdel]
    | some v => simp

theorem lookup_merge_iff (iter : IterOrder (Σ _ : String, String)) (s : KVSnapshot)
    (b : List Command) (k : String) :
    (s.merge iter (KVSnapshot.create b)).snapshotted.lookup k =
        ((Database.mk s.snapshotted).replay b).db.lookup k ↔
      (k ∈ s.snapshotted → (updatesTo k b).getLast? = some none →
        DeletesAbsent (updatesTo k b)) := by
  have hmerge : (s.merge iter (KVSnapshot.create b)).snapshotted.lookup k =
      (delta (KVSnapshot.create b) k).getD (contents s.snapshotted k) :=
    congrFun (contents_merge iter s (KVSnapshot.create b)) k
  have hreplay : ((Database.mk s.snapshotted).replay b).db.lookup k =
      ((updatesTo k b).getLast?).getD (contents s.snapshotted k) :=
    congrFun ((contents_replay ⟨s.snapshotted⟩ b).trans (replay_eq_patch _ _)) k
  have hpatch : patch (updates b) k = (updatesTo k b).getLast? := rfl
  have hheld : k ∈ s.snapshotted ↔ contents s.snapshotted k ≠ none := by
    rw [Ne, contents_eq_none, not_not]
  rw [hmerge, hreplay, delta_create, hpatch, hheld]
  by_cases hlast : (updatesTo k b).getLast? = some none
  · by_cases hdel : DeletesAbsent (updatesTo k b)
    · simp [hlast, hdel]
    · simp [hlast, hdel]
  · simp [hlast]

theorem mem_create (a : List Command) (k : String) :
    k ∈ (KVSnapshot.create a).snapshotted ↔
      ∃ v, (updatesTo k a).getLast? = some (some v) := by
  rw [← not_iff_not, ← contents_eq_none, contents_create]
  cases (updatesTo k a).getLast? with
  | none => simp
  | some u => cases u <;> simp

/-- Merging the delta of a log replays it exactly when no key that the base holds is
deleted last by a log that deletes it only right after putting it. -/
theorem merge_create_iff (iter : IterOrder (Σ _ : String, String)) :
    (∀ (s : KVSnapshot) (b : List Command),
      (∀ k, (s.merge iter (KVSnapshot.create b)).snapshotted.lookup k =
        ((Database.mk s.snapshotted).replay b).db.lookup k) ↔
      ∀ k ∈ s.snapshotted, (updatesTo k b).getLast? = some none →
        DeletesAbsent (updatesTo k b)) ∧
    ∀ a b : List Command,
      (∀ k, ((KVSnapshot.create a).merge iter (KVSnapshot.create b)).snapshotted.lookup k =
        (KVSnapshot.create (a ++ b)).snapshotted.lookup k) ↔
      ∀ k, (∃ v, (updatesTo k a).getLast? = some (some v)) →
        (updatesTo k b).getLast? = some none → DeletesAbsent (updatesTo k b) := by
  constructor
  · intro s b
    simp only [lookup_merge_iff]
  · intro a b
    have hheld : ∀ k, k ∈ (KVSnapshot.create a).snapshotted ↔
        ∃ v, (updatesTo k a).getLast? = some (some v) := mem_create a
    have hwhole : ∀ k, (KVSnapshot.create (a ++ b)).snapshotted.lookup k =
        ((Database.mk (KVSnapshot.create a).snapshotted).replay b).db.lookup k := by
      intro k
      have hreplay : ((Database.mk (KVSnapshot.create a).snapshotted).replay b).db.lookup k =
          ((updatesTo k b).getLast?).getD (contents (KVSnapshot.create a).snapshotted k) :=
        congrFun ((contents_replay _ b).trans (replay_eq_patch _ _)) k
      have hcreate : (KVSnapshot.create (a ++ b)).snapshotted.lookup k =
          (updatesTo k (a ++ b)).getLast?.join := contents_create (a ++ b) k
      rw [hreplay, hcreate, contents_create, updatesTo_append, List.getLast?_append]
      cases (updatesTo k b).getLast? <;> simp
    simp only [hwhole, lookup_merge_iff, hheld]

def sameOrder : IterOrder (Σ _ : String, String) := ⟨id, fun _ => .refl _⟩

def command (kvCmd : KVCommand) : Command := ⟨1, 1, 0, kvCmd⟩

/-- A key of the base that the delta puts and then deletes comes back. -/
theorem merge_keeps_deleted :
    ¬ (∀ (s : KVSnapshot) (b : List Command) (k : String),
      (s.merge sameOrder (KVSnapshot.create b)).snapshotted.lookup k =
        ((Database.mk s.snapshotted).replay b).db.lookup k) ∧
    ¬ (∀ (a b : List Command) (k : String),
      ((KVSnapshot.create a).merge sameOrder (KVSnapshot.create b)).snapshotted.lookup k =
        (KVSnapshot.create (a ++ b)).snapshotted.lookup k) := by
  constructor
  · intro h
    have hx := h (KVSnapshot.create [command (.put "x" "1")])
      [command (.put "x" "2"), command (.delete "x")] "x"
    revert hx
    decide
  · intro h
    have hx := h [command (.put "x" "1")] [command (.put "x" "2"), command (.delete "x")] "x"
    revert hx
    decide

end OmniPaxosJepsen.SnapshotMerge
