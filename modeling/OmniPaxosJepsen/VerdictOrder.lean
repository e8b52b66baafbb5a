import OmniPaxosJepsen.Verdict

namespace OmniPaxosJepsen.VerdictOrder

open Json Checker KvModel HistorySpec Pairing Verdict

/-- Operation ids are unique, each operation is completed at most once and never before
it is invoked, writes have a value and compare-and-swaps both of theirs. -/
structure Ordered (history : List HistoryEntry) : Prop where
  invocations : ((history.filter invokes).map HistoryEntry.id).Nodup
  completions : ((history.filter completes).map HistoryEntry.id).Nodup
  before : history.Pairwise (fun e i => completes e → invokes i → e.id ≠ i.id)
  write : ∀ i ∈ history, invokes i → i.op = "write" → i.value.isSome
  cas : ∀ i ∈ history, invokes i → i.op = "cas" → i.casFrom.isSome ∧ i.casTo.isSome

variable {history history' : List HistoryEntry}

theorem Ordered.inOrder (h : Ordered history) : InOrder history := ⟨h.invocations, h.before⟩

theorem Ordered.safe (h : Ordered history) : ∀ op ∈ recorded history, Safe op := by
  intro op hop
  obtain ⟨i, hi, e, _, hinv, _, _, rfl⟩ := mem_recorded hop
  exact ⟨h.write i hi hinv, h.cas i hi hinv⟩

theorem completionOf_eq_some_iff
    (hunique : ((history.filter completes).map HistoryEntry.id).Nodup) {id : Nat}
    {e : HistoryEntry} :
    completionOf history id = some e ↔ e ∈ history ∧ completes e ∧ e.id = id := by
  constructor
  · exact completionOf_some
  · rintro ⟨hmem, hc, rfl⟩
    have hsome : (completionOf history e.id).isSome :=
      List.find?_isSome.mpr ⟨e, hmem, by simp [hc]⟩
    obtain ⟨c, hfound⟩ := Option.isSome_iff_exists.mp hsome
    obtain ⟨hcmem, hcc, hcid⟩ := completionOf_some hfound
    have hsame : c = e := List.inj_on_of_nodup_map hunique (List.mem_filter.mpr ⟨hcmem, hcc⟩)
      (List.mem_filter.mpr ⟨hmem, hc⟩) hcid
    rw [hfound, hsame]

theorem completionOf_perm (hunique : ((history.filter completes).map HistoryEntry.id).Nodup)
    (hperm : history.Perm history') (id : Nat) :
    completionOf history id = completionOf history' id := by
  have hunique' : ((history'.filter completes).map HistoryEntry.id).Nodup :=
    ((hperm.filter _).map _).nodup_iff.mp hunique
  ext e
  rw [completionOf_eq_some_iff hunique, completionOf_eq_some_iff hunique', hperm.mem_iff]

/-- The same events pair up to the same operations. -/
theorem recorded_perm (hunique : ((history.filter completes).map HistoryEntry.id).Nodup)
    (hperm : history.Perm history') : (recorded history).Perm (recorded history') := by
  have hsame : recorded history =
      (history.filter invokes).filterMap
        (fun i => (completionOf history' i.id).map (linearOp i)) := by
    unfold recorded
    simp only [completionOf_perm hunique hperm]
  rw [hsame]
  exact (hperm.filter invokes).filterMap _

/-- The verdict on a history is the verdict on every other order of its events in which
no operation is completed before it is invoked. -/
theorem verdict_perm (iter iter' : IterOrder) (h : Ordered history) (h' : Ordered history')
    (hperm : history.Perm history') :
    checkLinearizability iter history = some (.ok ()) ↔
      checkLinearizability iter' history' = some (.ok ()) := by
  rw [checkLinearizability_iff_recorded iter h.inOrder h.safe,
    checkLinearizability_iff_recorded iter' h'.inOrder h'.safe]
  apply forall_congr'
  intro key
  have hrecorded := recorded_perm h.completions hperm
  exact TryLinearize.tryLinearize_perm_iff (fun op hop => h.safe op (onKey_recorded op hop))
    (hrecorded.filter _)

def readFirst : List HistoryEntry :=
  [⟨1, "invoke", 0, "write", "x", some (.u64 5), none, none, 1⟩,
    ⟨2, "invoke", 1, "read", "x", none, none, none, 1⟩,
    ⟨2, "ok", 1, "read", "", some (.u64 5), none, none, 3⟩,
    ⟨1, "ok", 0, "write", "", none, none, none, 4⟩]

def writeFirst : List HistoryEntry :=
  [⟨2, "invoke", 1, "read", "x", none, none, none, 1⟩,
    ⟨1, "invoke", 0, "write", "x", some (.u64 5), none, none, 1⟩,
    ⟨1, "ok", 0, "write", "", none, none, none, 4⟩,
    ⟨2, "ok", 1, "read", "", some (.u64 5), none, none, 3⟩]

theorem verdict_perm_readFirst : Ordered readFirst ∧ Ordered writeFirst ∧
    readFirst.Perm writeFirst ∧
    (checkLinearizability ⟨id, fun _ => .refl _⟩ readFirst = some (.ok ()) ↔
      checkLinearizability ⟨List.reverse, List.reverse_perm⟩ writeFirst = some (.ok ())) := by
  have hread : Ordered readFirst := ⟨by decide, by decide, by decide, by decide, by decide⟩
  have hwrite : Ordered writeFirst := ⟨by decide, by decide, by decide, by decide, by decide⟩
  have hperm : readFirst.Perm writeFirst := by decide
  exact ⟨hread, hwrite, hperm, verdict_perm _ _ hread hwrite hperm⟩

end OmniPaxosJepsen.VerdictOrder
