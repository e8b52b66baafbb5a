import OmniPaxosJepsen.EventHistory

namespace OmniPaxosJepsen.LoggedHistory

open EventHistory Linearization Runs

variable {ε ι ο ρ σ : Type}

def replay (spec : σ → ο → σ × ρ) (s : σ) (log : List (ι × ο)) : σ :=
  log.foldl (fun s c => (spec s c.2).1) s

/-- A log of named operations explains a history: its entries are calls, and every return
names an entry, carries the reply that the entry has in the log, and comes after the calls
of the entries up to that one. -/
structure Logged (call : ε → Option (ι × ο)) (ret : ε → Option (ι × ρ)) (spec : σ → ο → σ × ρ)
    (s : σ) (H : List ε) (log : List (ι × ο)) : Prop where
  distinct : (log.map Prod.fst).Nodup
  called : ∀ c ∈ log, ∃ i : Nat, H[i]?.bind call = some c
  unique : ∀ (i i' : Nat) c c', H[i]?.bind call = some c → H[i']?.bind call = some c' →
    c.1 = c'.1 → i = i'
  single : ∀ (j j' : Nat) a a', H[j]?.bind ret = some a → H[j']?.bind ret = some a' →
    a.1 = a'.1 → j = j'
  returned : ∀ (j : Nat) a, H[j]?.bind ret = some a → ∃ (k : Nat) (c : ι × ο), log[k]? = some c ∧
    a = (c.1, (spec (replay spec s (log.take k)) c.2).2) ∧
    ∀ k' ≤ k, ∀ c', log[k']? = some c' → ∃ i < j, H[i]?.bind call = some c'

section Rules

variable {call : ε → Option (ι × ο)} {ret : ε → Option (ι × ρ)} {spec : σ → ο → σ × ρ} {s : σ}
  {H : List ε} {log : List (ι × ο)}

theorem replay_concat (spec : σ → ο → σ × ρ) (s : σ) (log : List (ι × ο)) (c : ι × ο) :
    replay spec s (log ++ [c]) = (spec (replay spec s log) c.2).1 := by
  simp only [replay, List.foldl_append, List.foldl_cons, List.foldl_nil]

theorem logged_nil : Logged call ret spec s [] [] := by
  constructor <;> simp

theorem event_concat {β : Type} {f : ε → Option β} {e : ε} {i : Nat} {b : β} :
    (H ++ [e])[i]?.bind f = some b ↔
      H[i]?.bind f = some b ∨ i = H.length ∧ f e = some b := by
  obtain hlt | rfl | hgt := Nat.lt_trichotomy i H.length
  · rw [List.getElem?_append_left hlt]
    simp [Nat.ne_of_lt hlt]
  · simp
  · rw [List.getElem?_eq_none (by simp; omega), List.getElem?_eq_none (Nat.le_of_lt hgt)]
    simp [Nat.ne_of_gt hgt]

theorem event_lt {β : Type} {f : ε → Option β} {i : Nat} {b : β} (h : H[i]?.bind f = some b) :
    i < H.length := by
  obtain ⟨e, he, _⟩ := Option.bind_eq_some_iff.mp h
  exact (List.getElem?_eq_some_iff.mp he).1

/-- The history goes on with a call of a new name, with the first return for an entry of
the log, or with neither. -/
theorem Logged.event (h : Logged call ret spec s H log) {e : ε}
    (hcall : ∀ c, call e = some c → ∀ (i : Nat) c', H[i]?.bind call = some c' → c'.1 ≠ c.1)
    (hret : ∀ a, ret e = some a → (∀ (j : Nat) a', H[j]?.bind ret = some a' → a'.1 ≠ a.1) ∧
      ∃ (k : Nat) (c : ι × ο), log[k]? = some c ∧
        a = (c.1, (spec (replay spec s (log.take k)) c.2).2)) :
    Logged call ret spec s (H ++ [e]) log := by
  constructor
  · exact h.distinct
  · intro c hc
    obtain ⟨i, hi⟩ := h.called c hc
    exact ⟨i, event_concat.mpr (.inl hi)⟩
  · intro i i' c c' hi hi' hname
    obtain hold | ⟨rfl, hnew⟩ := event_concat.mp hi <;>
      obtain hold' | ⟨rfl, hnew'⟩ := event_concat.mp hi'
    · exact h.unique i i' c c' hold hold' hname
    · exact absurd hname (hcall c' hnew' i c hold)
    · exact absurd hname.symm (hcall c hnew i' c' hold')
    · rfl
  · intro j j' a a' hj hj' hname
    obtain hold | ⟨rfl, hnew⟩ := event_concat.mp hj <;>
      obtain hold' | ⟨rfl, hnew'⟩ := event_concat.mp hj'
    · exact h.single j j' a a' hold hold' hname
    · exact absurd hname ((hret a' hnew').1 j a hold)
    · exact absurd hname.symm ((hret a hnew).1 j' a' hold')
    · rfl
  · intro j a hj
    obtain hold | ⟨rfl, hnew⟩ := event_concat.mp hj
    · obtain ⟨k, c, hk, ha, hbefore⟩ := h.returned j a hold
      refine ⟨k, c, hk, ha, fun k' hk' c' hc' => ?_⟩
      obtain ⟨i, hlt, hi⟩ := hbefore k' hk' c' hc'
      exact ⟨i, hlt, event_concat.mpr (.inl hi)⟩
    · obtain ⟨k, c, hk, ha⟩ := (hret a hnew).2
      refine ⟨k, c, hk, ha, fun k' _ c' hc' => ?_⟩
      obtain ⟨i, hi⟩ := h.called c' (List.mem_of_getElem? hc')
      exact ⟨i, event_lt hi, event_concat.mpr (.inl hi)⟩

theorem Logged.entry (h : Logged call ret spec s H log) {c : ι × ο}
    (hcalled : ∃ i : Nat, H[i]?.bind call = some c) (hnew : c.1 ∉ log.map Prod.fst) :
    Logged call ret spec s H (log ++ [c]) := by
  refine ⟨?_, fun c' hc' => ?_, h.unique, h.single, fun j a hj => ?_⟩
  · rw [List.map_append, List.map_singleton]
    refine List.nodup_append'.mpr ⟨h.distinct, List.nodup_singleton c.1, ?_⟩
    intro n hn hn'
    obtain rfl := List.mem_singleton.mp hn'
    exact hnew hn
  · obtain hc' | hc' := List.mem_append.mp hc'
    · exact h.called c' hc'
    · rw [List.mem_singleton.mp hc']
      exact hcalled
  · obtain ⟨k, c', hk, ha, hbefore⟩ := h.returned j a hj
    have hlt := (List.getElem?_eq_some_iff.mp hk).1
    refine ⟨k, c', ?_, ?_, fun k' hk' c'' hc'' => hbefore k' hk' c'' ?_⟩
    · rw [List.getElem?_append_left hlt, hk]
    · rw [List.take_append_of_le_length (Nat.le_of_lt hlt), ha]
    · rwa [List.getElem?_append_left (by omega)] at hc''

theorem Logged.entry_inj (h : Logged call ret spec s H log) {k k' : Nat} {c c' : ι × ο}
    (hk : log[k]? = some c) (hk' : log[k']? = some c') (hname : c.1 = c'.1) :
    k = k' ∧ c = c' := by
  have hlt : k < (log.map Prod.fst).length := by
    simpa using (List.getElem?_eq_some_iff.mp hk).1
  have heq : k = k' := by
    refine (List.getElem?_inj hlt h.distinct).mp ?_
    rw [List.getElem?_map, List.getElem?_map, hk, hk', Option.map_some, Option.map_some, hname]
  subst heq
  exact ⟨rfl, Option.some.inj (hk.symm.trans hk')⟩

end Rules

section Linearizable

variable [DecidableEq ι] [DecidableEq ρ] {call : ε → Option (ι × ο)} {ret : ε → Option (ι × ρ)}
  {spec : σ → ο → σ × ρ} {s : σ} {H : List ε} {log : List (ι × ο)}

def answerOf (call : ε → Option (ι × ο)) (ret : ε → Option (ι × ρ)) (H : List ε) (i : Nat) :
    Option Nat :=
  (H[i]?.bind call).bind (fun c => H.findIdx? (fun e => (ret e).map Prod.fst = some c.1))

omit [DecidableEq ρ] in
theorem answerOf_eq_some (h : Logged call ret spec s H log) {i j : Nat} :
    answerOf call ret H i = some j ↔
      ∃ c a, H[i]?.bind call = some c ∧ H[j]?.bind ret = some a ∧ c.1 = a.1 := by
  rw [answerOf, Option.bind_eq_some_iff]
  constructor
  · rintro ⟨c, hc, hj⟩
    obtain ⟨hlt, hname, _⟩ := List.findIdx?_eq_some_iff_getElem.mp hj
    obtain ⟨a, ha, hac⟩ := Option.map_eq_some_iff.mp (of_decide_eq_true hname)
    exact ⟨c, a, hc, by rw [List.getElem?_eq_getElem hlt, Option.bind_some, ha], hac.symm⟩
  · rintro ⟨c, a, hc, ha, hca⟩
    refine ⟨c, hc, ?_⟩
    obtain ⟨e, he, hea⟩ := Option.bind_eq_some_iff.mp ha
    obtain ⟨hlt, rfl⟩ := List.getElem?_eq_some_iff.mp he
    refine List.findIdx?_eq_some_iff_getElem.mpr ⟨hlt, by simp [hea, hca], fun j' hj' => ?_⟩
    simp only [decide_eq_true_eq, Option.map_eq_some_iff, not_exists, not_and]
    intro a' ha' hname
    have hget : H[j']?.bind ret = some a' := by
      rw [List.getElem?_eq_getElem (Nat.lt_trans hj' hlt), Option.bind_some, ha']
    exact absurd (h.single j' j a' a hget ha (hname.trans hca)) (Nat.ne_of_lt hj')

theorem Logged.legal (h : Logged call ret spec s H log) {pos : ι × ο → Nat}
    (hpos : ∀ c ∈ log, H[pos c]?.bind call = some c) :
    Legal (effect call ret spec H (answerOf call ret H)) s (log.map pos) := by
  have hprefix : ∀ n ≤ log.length, run (effect call ret spec H (answerOf call ret H)) s
      ((log.take n).map pos) = some (replay spec s (log.take n)) := by
    intro n hn
    induction n with
    | zero => rfl
    | succ n ih =>
      have hlt : n < log.length := hn
      have hmem : log[n] ∈ log := List.getElem_mem hlt
      have htake : log.take (n + 1) = log.take n ++ [log[n]] := by
        rw [List.take_add_one, List.getElem?_eq_getElem hlt, Option.toList_some]
      rw [htake, List.map_append, List.map_singleton, replay_concat, ← foldlM_eq_run,
        List.foldlM_append, foldlM_eq_run, ih (Nat.le_of_lt hlt)]
      have heffect : effect call ret spec H (answerOf call ret H) (replay spec s (log.take n))
          (pos log[n]) = some (spec (replay spec s (log.take n)) log[n].2).1 := by
        simp only [effect, hpos _ hmem, Option.bind_some]
        cases hanswer : answerOf call ret H (pos log[n]) with
        | none => rfl
        | some j =>
          obtain ⟨c, a, hc, ha, hca⟩ := (answerOf_eq_some h).mp hanswer
          obtain rfl : log[n] = c := Option.some.inj ((hpos _ hmem).symm.trans hc)
          obtain ⟨k, c', hk, rfl, _⟩ := h.returned j a ha
          obtain ⟨rfl, rfl⟩ := h.entry_inj hk (List.getElem?_eq_getElem hlt) hca.symm
          simp only [ha, ↓reduceIte]
      simp [heffect]
  exact ⟨_, by simpa using hprefix log.length (Nat.le_refl _)⟩

/-- What a log explains is linearizable: the log order is an order of the calls. -/
theorem Logged.linearizable (h : Logged call ret spec s H log) :
    Linearizable call ret spec s H := by
  have hcalled : ∀ c, ∃ i : Nat, c ∈ log → H[i]?.bind call = some c := by
    intro c
    by_cases hc : c ∈ log
    · obtain ⟨i, hi⟩ := h.called c hc
      exact ⟨i, fun _ => hi⟩
    · exact ⟨0, fun hmem => absurd hmem hc⟩
  choose pos hpos using hcalled
  refine ⟨log.map pos, answerOf call ret H, ?_, h.legal hpos, ?_, fun j e hj hsome => ?_,
    fun i j hij => ?_, fun i i' j hij hij' => ?_⟩
  · refine List.Nodup.map_on (fun c hc c' hc' heq => ?_) h.distinct.of_map
    have hcall := hpos c hc
    rw [heq, hpos c' hc'] at hcall
    exact (Option.some.inj hcall).symm
  · refine List.pairwise_map.mpr (List.pairwise_iff_getElem.mpr (fun k k' hk hk' hlt => ?_))
    cases hanswer : answerOf call ret H (pos log[k']) with
    | none => simp [completion, hanswer]
    | some j =>
      obtain ⟨c, a, hc, ha, hca⟩ := (answerOf_eq_some h).mp hanswer
      obtain rfl : log[k'] = c :=
        Option.some.inj ((hpos _ (List.getElem_mem hk')).symm.trans hc)
      obtain ⟨n, c', hn, rfl, hbefore⟩ := h.returned j a ha
      obtain ⟨rfl, rfl⟩ := h.entry_inj hn (List.getElem?_eq_getElem hk') hca.symm
      obtain ⟨i, hij, hi⟩ := hbefore k (Nat.le_of_lt hlt) log[k] (List.getElem?_eq_getElem hk)
      have heq := h.unique i _ _ _ hi (hpos _ (List.getElem_mem hk)) rfl
      rw [← heq]
      simpa [completion, hanswer] using Nat.le_of_lt hij
  · obtain ⟨a, ha⟩ := Option.isSome_iff_exists.mp hsome
    have hget : H[j]?.bind ret = some a := by rw [hj, Option.bind_some, ha]
    obtain ⟨k, c, hk, rfl, _⟩ := h.returned j a hget
    have hc := List.mem_of_getElem? hk
    exact ⟨pos c, List.mem_map_of_mem hc, (answerOf_eq_some h).mpr ⟨c, _, hpos c hc, hget, rfl⟩⟩
  · obtain ⟨c, a, hc, ha, hca⟩ := (answerOf_eq_some h).mp hij
    obtain ⟨k, c', hk, rfl, hbefore⟩ := h.returned j a ha
    obtain ⟨i', hlt, hi'⟩ := hbefore k (Nat.le_refl k) c' hk
    rwa [h.unique i i' c c' hc hi' hca]
  · obtain ⟨c, a, hc, ha, hca⟩ := (answerOf_eq_some h).mp hij
    obtain ⟨c', a', hc', ha', hca'⟩ := (answerOf_eq_some h).mp hij'
    rw [ha] at ha'
    cases ha'
    exact h.unique i i' c c' hc hc' (hca.trans hca'.symm)

end Linearizable

end OmniPaxosJepsen.LoggedHistory
