import Mathlib.Data.List.Induction
import Mathlib.Data.List.Infix
import OmniPaxosJepsen.Common
import OmniPaxosJepsen.Updates

namespace OmniPaxosJepsen.Snapshots

open Common Updates

def contents (m : HashMap) : String → Option String := fun k => m.lookup k

@[simp] theorem contents_empty : contents ∅ = fun _ => none := rfl

@[simp] theorem contents_insert (m : HashMap) (key value : String) :
    contents (m.insert key value) = apply (contents m) (key, some value) := by
  funext k
  by_cases hk : k = key
  · subst hk
    simp [contents, apply_self]
  · simp [contents, apply_ne _ hk, AList.lookup_insert_ne hk]

@[simp] theorem contents_erase (m : HashMap) (key : String) :
    contents (m.erase key) = apply (contents m) (key, none) := by
  funext k
  by_cases hk : k = key
  · subst hk
    simp [contents, apply_self]
  · simp [contents, apply_ne _ hk, AList.lookup_erase_ne hk]

theorem contents_eq_none {m : HashMap} {k : String} : contents m k = none ↔ k ∉ m :=
  AList.lookup_eq_none

def update : KVCommand → Option (Update String String)
  | .put key value => some (key, some value)
  | .delete key => some (key, none)
  | .get _ => none

def updates (log : List Command) : List (Update String String) :=
  log.filterMap (fun e => update e.kvCmd)

def updatesTo (k : String) (log : List Command) : List (Option String) := updatesOf k (updates log)

theorem updates_append (a b : List Command) : updates (a ++ b) = updates a ++ updates b :=
  List.filterMap_append

theorem contents_handleCommand (self : Database) (c : KVCommand) :
    contents (self.handleCommand c).1.db = replay (contents self.db) (update c).toList := by
  cases c with
  | put key value => exact contents_insert self.db key value
  | delete key => exact contents_erase self.db key
  | get key => rfl

theorem contents_replay (self : Database) (log : List Command) :
    contents (self.replay log).db = replay (contents self.db) (updates log) := by
  induction log generalizing self with
  | nil => rfl
  | cons e log ih =>
    have hcons : updates (e :: log) = (update e.kvCmd).toList ++ updates log := by
      cases hu : update e.kvCmd <;> simp [updates, hu]
    have hreplay : self.replay (e :: log) = (self.handleCommand e.kvCmd).1.replay log := rfl
    rw [hreplay, ih, hcons, replay_append, contents_handleCommand]

/-- Among the updates of a key there is a `Delete` that no `Put` comes directly before. -/
def DeletesAbsent (us : List (Option String)) : Prop :=
  us.head? = some none ∨ [none, none] <:+: us

instance (us : List (Option String)) : Decidable (DeletesAbsent us) :=
  inferInstanceAs (Decidable (_ ∨ _))

theorem deletesAbsent_concat (us : List (Option String)) (u : Option String) :
    DeletesAbsent (us ++ [u]) ↔ DeletesAbsent us ∨ u = none ∧ us.getLast?.join = none := by
  cases us using List.reverseRecOn with
  | nil => cases u <;> simp [DeletesAbsent, List.infix_cons_iff]
  | append_singleton us v =>
    have hhead : (us ++ [v] ++ [u]).head? = (us ++ [v]).head? := by cases us <;> rfl
    have hsuffix : [none, none] <:+ us ++ [v] ++ [u] ↔ u = none ∧ v = none := by
      constructor
      · rintro ⟨t, ht⟩
        have h : t ++ [none] ++ [none] = us ++ [v] ++ [u] := by simpa using ht
        obtain ⟨h, hu⟩ := List.append_inj' h rfl
        obtain ⟨_, hv⟩ := List.append_inj' h rfl
        simp_all
      · rintro ⟨rfl, rfl⟩
        exact ⟨us, by simp⟩
    rw [DeletesAbsent, DeletesAbsent, hhead, List.infix_concat_iff, hsuffix]
    simp only [List.getLast?_concat, Option.join_some]
    rw [or_assoc]
    exact or_congr_right or_comm

theorem updatesTo_append (k : String) (a b : List Command) :
    updatesTo k (a ++ b) = updatesTo k a ++ updatesTo k b := by
  simp only [updatesTo, updates_append, updatesOf_append]

theorem updatesTo_singleton (k : String) (e : Command) :
    updatesTo k [e] =
      ((update e.kvCmd).bind (fun u => if u.1 = k then some u.2 else none)).toList := by
  cases hu : update e.kvCmd with
  | none => simp [updatesTo, updates, updatesOf, hu]
  | some u => by_cases hk : u.1 = k <;> simp [updatesTo, updates, updatesOf, hu, hk]

/-- What the loop of `create` knows of each key after a list of entries. -/
structure Built (log : List Command) (s : KVSnapshot) : Prop where
  held : ∀ k, contents s.snapshotted k = (updatesTo k log).getLast?.join
  deleted : ∀ k, k ∈ s.deletedKeys ↔ DeletesAbsent (updatesTo k log)

theorem built_nil : Built [] ⟨∅, []⟩ := by
  constructor
  · intro k
    rfl
  · intro k
    simp [DeletesAbsent, updatesTo, updates]

/-- An entry that does not update a key leaves what is known of it as it was, and one
that does adds to its updates. -/
theorem Built.record {log : List Command} {s : KVSnapshot} (h : Built log s) (e : Command) :
    Built (log ++ [e]) (s.record e) := by
  obtain ⟨clientId, coordinatorId, id, c⟩ := e
  cases c with
  | get key =>
    have hsame : ∀ k, updatesTo k (log ++ [⟨clientId, coordinatorId, id, .get key⟩]) =
        updatesTo k log := by
      intro k
      simp [updatesTo_append, updatesTo_singleton, update]
    constructor
    · intro k
      rw [hsame]
      exact h.held k
    · intro k
      rw [hsame]
      exact h.deleted k
  | put key value =>
    constructor
    · intro k
      by_cases hk : key = k
      · subst hk
        simp [KVSnapshot.record, updatesTo_append, updatesTo_singleton, update, apply_self]
      · simp [KVSnapshot.record, updatesTo_append, updatesTo_singleton, update, hk,
          apply_ne _ (Ne.symm hk), h.held k]
    · intro k
      have hnot : DeletesAbsent (updatesTo k log ++ [some value]) ↔
          DeletesAbsent (updatesTo k log) := by
        simp [deletesAbsent_concat]
      by_cases hk : key = k
      · simp [KVSnapshot.record, updatesTo_append, updatesTo_singleton, update, hk, hnot,
          h.deleted k]
      · simp [KVSnapshot.record, updatesTo_append, updatesTo_singleton, update, hk, h.deleted k]
  | delete key =>
    have hrec : s.record ⟨clientId, coordinatorId, id, .delete key⟩ =
        ⟨s.snapshotted.erase key,
          if s.snapshotted.lookup key = none then s.deletedKeys ++ [key] else s.deletedKeys⟩ := by
      simp only [KVSnapshot.record, AList.extract_eq_lookup_erase]
      cases hkey : s.snapshotted.lookup key <;> simp
    rw [hrec]
    constructor
    · intro k
      by_cases hk : key = k
      · subst hk
        simp [updatesTo_append, updatesTo_singleton, update, apply_self]
      · simp [updatesTo_append, updatesTo_singleton, update, hk, apply_ne _ (Ne.symm hk), h.held k]
    · intro k
      have hheld : s.snapshotted.lookup k = none ↔ (updatesTo k log).getLast?.join = none := by
        rw [← h.held k]
        rfl
      by_cases hk : key = k
      · subst hk
        by_cases hnone : s.snapshotted.lookup key = none
        · simp [updatesTo_append, updatesTo_singleton, update, deletesAbsent_concat, hnone,
            hheld.mp hnone]
        · simp [updatesTo_append, updatesTo_singleton, update, deletesAbsent_concat, hnone,
            mt hheld.mpr hnone, h.deleted key]
      · have hmem : k ∈ (if s.snapshotted.lookup key = none then s.deletedKeys ++ [key]
            else s.deletedKeys) ↔ k ∈ s.deletedKeys := by
          split <;> simp [Ne.symm hk]
        rw [hmem, h.deleted k]
        simp [updatesTo_append, updatesTo_singleton, update, hk]

theorem built_foldl (log : List Command) : Built log (log.foldl KVSnapshot.record ⟨∅, []⟩) := by
  induction log using List.reverseRecOn with
  | nil => exact built_nil
  | append_singleton log e ih =>
    rw [List.foldl_append]
    exact ih.record e

theorem contents_create (log : List Command) (k : String) :
    contents (KVSnapshot.create log).snapshotted k = (updatesTo k log).getLast?.join :=
  (built_foldl log).held k

theorem mem_deletedKeys_create (log : List Command) (k : String) :
    k ∈ (KVSnapshot.create log).deletedKeys ↔
      DeletesAbsent (updatesTo k log) ∧ (updatesTo k log).getLast? = some none := by
  have hbuilt := built_foldl log
  have hmem : k ∈ (KVSnapshot.create log).deletedKeys ↔ DeletesAbsent (updatesTo k log) ∧
      (updatesTo k log).getLast?.join = none := by
    simp only [KVSnapshot.create, List.mem_filter, decide_eq_true_eq, hbuilt.deleted k,
      ← hbuilt.held k, contents_eq_none]
  rw [hmem]
  apply and_congr_right
  intro hdel
  cases hlast : (updatesTo k log).getLast? with
  | none =>
    rw [List.getLast?_eq_none_iff] at hlast
    simp [DeletesAbsent, hlast] at hdel
  | some u => simp

/-- A snapshot of a whole log holds what replaying it would, and its tombstones are of
keys that the log deleted last. -/
theorem create_eq_replay (log : List Command) :
    (∀ k, (KVSnapshot.create log).snapshotted.lookup k =
      (Database.new.replay log).db.lookup k) ∧
    (∀ k ∈ (KVSnapshot.create log).snapshotted, k ∉ (KVSnapshot.create log).deletedKeys) ∧
    ∀ k ∈ (KVSnapshot.create log).deletedKeys, (updatesTo k log).getLast? = some none := by
  refine ⟨fun k => ?_, fun k hk hdel => ?_, fun k hdel => ?_⟩
  · have hreplay : contents (Database.new.replay log).db k = (updatesTo k log).getLast?.join := by
      rw [contents_replay, replay_eq_patch]
      simp only [Patch.apply, patch, Database.new, contents_empty, updatesTo]
      cases (updatesOf k (updates log)).getLast? <;> rfl
    exact (contents_create log k).trans hreplay.symm
  · obtain ⟨_, hlast⟩ := (mem_deletedKeys_create log k).mp hdel
    have hnone : contents (KVSnapshot.create log).snapshotted k = none := by
      rw [contents_create, hlast]
      rfl
    exact contents_eq_none.mp hnone hk
  · exact ((mem_deletedKeys_create log k).mp hdel).2

end OmniPaxosJepsen.Snapshots
