import Mathlib.Data.List.FinRange
import Mathlib.Order.MinMax
import OmniPaxosJepsen.KvModel

namespace OmniPaxosJepsen.TryLinearize

open Checker KvModel Linearization Runs

theorem anyM_some_true {β : Type} {f : β → Option Bool} {l : List β}
    (h : l.anyM f = some true) : ∃ b ∈ l, f b = some true := by
  induction l with
  | nil => cases h
  | cons b l ih =>
    obtain ⟨x, hx, hrest⟩ := Option.bind_eq_some_iff.mp h
    cases x with
    | true => exact ⟨b, by simp, hx⟩
    | false =>
      obtain ⟨c, hc, hf⟩ := ih hrest
      exact ⟨c, by simp [hc], hf⟩

theorem anyM_eq {β : Type} {f : β → Option Bool} {l : List β} (h : ∀ b ∈ l, (f b).isSome) :
    (l.anyM f).isSome ∧ ((∃ b ∈ l, f b = some true) → l.anyM f = some true) := by
  induction l with
  | nil => simp [List.anyM]
  | cons b l ih =>
    obtain ⟨x, hx⟩ := Option.isSome_iff_exists.mp (h b (by simp))
    obtain ⟨hsome, htrue⟩ := ih (fun c hc => h c (by simp [hc]))
    cases x with
    | true => simp [List.anyM, hx]
    | false =>
      have hloop : (b :: l).anyM f = l.anyM f := by simp [List.anyM, hx]
      rw [hloop]
      refine ⟨hsome, ?_⟩
      rintro ⟨c, hc, hf⟩
      obtain rfl | hc := List.mem_cons.mp hc
      · rw [hx] at hf
        cases hf
      · exact htrue ⟨c, hc, hf⟩

def attempt (remaining : List LinearOp) (model : KVModel) (depth : Nat)
    (i : Fin remaining.length) : Option Bool :=
  if ∀ b ∈ remaining, ¬ b.completeTime < (remaining.get i).invokeTime then
    (model.apply (remaining.get i)).bind (fun r =>
      if r.2 then tryLinearize (remaining.eraseIdx i) r.1 (depth + 1) else some false)
  else some false

instance : Std.LawfulOrderInf U128 := ⟨fun _ _ _ => le_min_iff⟩

theorem min_complete {remaining : List LinearOp} (hne : remaining ≠ []) :
    ∃ m, (remaining.map LinearOp.completeTime).min? = some m ∧
      ∀ t, t ≤ m ↔ ∀ b ∈ remaining, ¬ b.completeTime < t := by
  cases hmin : (remaining.map LinearOp.completeTime).min? with
  | none => exact absurd (List.min?_eq_none_iff.mp hmin) (by simpa using hne)
  | some m =>
    refine ⟨m, rfl, fun t => ?_⟩
    rw [List.le_min?_iff hmin]
    simp

theorem tryLinearize_nil (model : KVModel) (depth : Nat) :
    tryLinearize [] model depth = some true := by
  rw [tryLinearize]
  rfl

theorem tryLinearize_deep (remaining : List LinearOp) (model : KVModel) {depth : Nat}
    (h : depth > 100) : tryLinearize remaining model depth = some true := by
  rw [tryLinearize]
  simp [h]

theorem tryLinearize_eq {remaining : List LinearOp} (hne : remaining ≠ []) (model : KVModel)
    {depth : Nat} (h : depth ≤ 100) : tryLinearize remaining model depth =
      (List.finRange remaining.length).anyM (attempt remaining model depth) := by
  obtain ⟨m, hm, hle⟩ := min_complete hne
  rw [tryLinearize]
  simp only [List.isEmpty_iff, hne, ↓reduceIte, Nat.not_lt.mpr h, hm]
  simp only [Option.bind_eq_bind, Option.bind_some]
  congr 1
  funext i
  simp only [attempt, hle]
  congr 1

/-- The search ends with nothing remaining or too deep, and else goes on with one
operation less. -/
theorem search_induction {P : List LinearOp → KVModel → Nat → Prop}
    (nil : ∀ model depth, P [] model depth)
    (deep : ∀ remaining model depth, depth > 100 → P remaining model depth)
    (step : ∀ remaining model depth, remaining ≠ [] → depth ≤ 100 →
      (∀ (i : Fin remaining.length) (model' : KVModel),
        P (remaining.eraseIdx i) model' (depth + 1)) → P remaining model depth)
    (remaining : List LinearOp) (model : KVModel) (depth : Nat) : P remaining model depth := by
  induction hn : remaining.length generalizing remaining model depth with
  | zero =>
    rw [List.length_eq_zero_iff.mp hn]
    exact nil model depth
  | succ n ih =>
    by_cases hdeep : depth > 100
    · exact deep remaining model depth hdeep
    · refine step remaining model depth (List.ne_nil_of_length_eq_add_one hn)
        (Nat.le_of_not_lt hdeep) (fun i model' => ih _ model' (depth + 1) ?_)
      rw [List.length_eraseIdx_of_lt i.isLt, hn, Nat.add_sub_cancel]

variable {remaining : List LinearOp} {model : KVModel} {depth : Nat}

theorem attempt_eq_true {i : Fin remaining.length}
    (h : attempt remaining model depth i = some true) :
    (∀ b ∈ remaining, ¬ b.completeTime < (remaining.get i).invokeTime) ∧
      ∃ model', accept model (remaining.get i) = some model' ∧
        tryLinearize (remaining.eraseIdx i) model' (depth + 1) = some true := by
  rw [attempt] at h
  split at h
  · next hmin =>
    obtain ⟨⟨model', ok⟩, happly, hrest⟩ := Option.bind_eq_some_iff.mp h
    cases ok with
    | false => cases hrest
    | true => exact ⟨hmin, model', accept_eq_some.mpr happly, hrest⟩
  · cases h

/-- An accepted search has placed all operations, or as many as its depth allows. -/
theorem tryLinearize_sound (h : tryLinearize remaining model depth = some true) :
    HasBeginning LinearOp.invokeTime LinearOp.completeTime accept (101 - depth) model
      remaining := by
  induction remaining, model, depth using search_induction with
  | nil model depth => exact hasBeginning_nil _ _
  | deep remaining model depth hdeep =>
    rw [Nat.sub_eq_zero_of_le hdeep]
    exact hasBeginning_zero _ _
  | step remaining model depth hne hdepth ih =>
    rw [tryLinearize_eq hne model hdepth] at h
    obtain ⟨i, _, hi⟩ := anyM_some_true h
    obtain ⟨hmin, model', hstep, hrest⟩ := attempt_eq_true hi
    have hleft : 101 - depth = 101 - (depth + 1) + 1 := by omega
    rw [hleft]
    exact hasBeginning_cons (List.getElem_cons_eraseIdx_perm i.isLt) hmin hstep
      (ih i model' hrest)

theorem attempt_isSome (hsafe : ∀ op ∈ remaining, Safe op) (i : Fin remaining.length)
    (ih : ∀ model', (tryLinearize (remaining.eraseIdx i) model' (depth + 1)).isSome) :
    (attempt remaining model depth i).isSome := by
  unfold attempt
  split
  · obtain ⟨⟨model', ok⟩, happly⟩ := Option.isSome_iff_exists.mp
      (apply_isSome (hsafe _ (List.get_mem remaining i)) model)
    rw [happly]
    cases ok with
    | false => rfl
    | true => exact ih model'
  · rfl

theorem tryLinearize_isSome (hsafe : ∀ op ∈ remaining, Safe op) :
    (tryLinearize remaining model depth).isSome := by
  induction remaining, model, depth using search_induction with
  | nil model depth =>
    rw [tryLinearize_nil]
    rfl
  | deep remaining model depth hdeep =>
    rw [tryLinearize_deep remaining model hdeep]
    rfl
  | step remaining model depth hne hdepth ih =>
    rw [tryLinearize_eq hne model hdepth]
    refine (anyM_eq (fun i _ => attempt_isSome hsafe i (fun model' => ih i model' ?_))).1
    exact fun op hop => hsafe op (List.mem_of_mem_eraseIdx hop)

theorem attempt_eq_some_true {i : Fin remaining.length} {model' : KVModel}
    (hmin : ∀ b ∈ remaining, ¬ b.completeTime < (remaining.get i).invokeTime)
    (haccept : accept model (remaining.get i) = some model')
    (hrest : tryLinearize (remaining.eraseIdx i) model' (depth + 1) = some true) :
    attempt remaining model depth i = some true := by
  rw [attempt, if_pos hmin, accept_eq_some.mp haccept]
  exact hrest

theorem tryLinearize_of_attempt (hsafe : ∀ op ∈ remaining, Safe op) {i : Fin remaining.length}
    (h : attempt remaining model depth i = some true) :
    tryLinearize remaining model depth = some true := by
  by_cases hdeep : depth > 100
  · exact tryLinearize_deep remaining model hdeep
  · have hne : remaining ≠ [] := List.length_pos_iff.mp (Nat.zero_lt_of_lt i.isLt)
    rw [tryLinearize_eq hne model (Nat.le_of_not_lt hdeep)]
    refine (anyM_eq (fun j _ => attempt_isSome hsafe j (fun model' => ?_))).2
      ⟨i, List.mem_finRange i, h⟩
    exact tryLinearize_isSome (fun op hop => hsafe op (List.mem_of_mem_eraseIdx hop))

theorem tryLinearize_of_perm {ops ops' : List LinearOp} (hsafe : ∀ op ∈ ops, Safe op)
    (hperm : ops.Perm ops') (h : tryLinearize ops model depth = some true) :
    tryLinearize ops' model depth = some true := by
  induction ops, model, depth using search_induction generalizing ops' with
  | nil model depth => rw [hperm.nil_eq.symm, tryLinearize_nil]
  | deep ops model depth hdeep => exact tryLinearize_deep ops' model hdeep
  | step ops model depth hne hdepth ih =>
    rw [tryLinearize_eq hne model hdepth] at h
    obtain ⟨i, _, hi⟩ := anyM_some_true h
    obtain ⟨hmin, model', haccept, hrest⟩ := attempt_eq_true hi
    obtain ⟨j, hj⟩ := List.mem_iff_get.mp (hperm.subset (List.get_mem ops i))
    -- The same operation is put next, and the rests are permutations of each other.
    have hrests : (ops.eraseIdx i).Perm (ops'.eraseIdx j) := by
      apply List.Perm.cons_inv (a := ops.get i)
      calc (ops.get i :: ops.eraseIdx i).Perm ops := List.getElem_cons_eraseIdx_perm i.isLt
        List.Perm _ ops' := hperm
        List.Perm _ (ops'.get j :: ops'.eraseIdx j) :=
          (List.getElem_cons_eraseIdx_perm j.isLt).symm
        List.Perm _ (ops.get i :: ops'.eraseIdx j) := by rw [hj]
    have hfound := ih i model' (fun op hop => hsafe op (List.mem_of_mem_eraseIdx hop)) hrests hrest
    rw [← hj] at haccept hmin
    exact tryLinearize_of_attempt (fun op hop => hsafe op (hperm.symm.subset hop))
      (attempt_eq_some_true (fun b hb => hmin b (hperm.symm.subset hb)) haccept hfound)

theorem tryLinearize_perm_iff {ops ops' : List LinearOp} (hsafe : ∀ op ∈ ops, Safe op)
    (hperm : ops.Perm ops') : tryLinearize ops model depth = some true ↔
      tryLinearize ops' model depth = some true :=
  ⟨tryLinearize_of_perm hsafe hperm,
    tryLinearize_of_perm (fun op hop => hsafe op (hperm.symm.subset hop)) hperm.symm⟩

/-- The search finds every legal order. -/
theorem tryLinearize_complete (hsafe : ∀ op ∈ remaining, Safe op)
    (hwf : ∀ op ∈ remaining, op.invokeTime ≤ op.completeTime)
    (h : HasBeginning LinearOp.invokeTime LinearOp.completeTime accept (101 - depth) model
      remaining) : tryLinearize remaining model depth = some true := by
  induction remaining, model, depth using search_induction with
  | nil model depth => exact tryLinearize_nil model depth
  | deep remaining model depth hdeep => exact tryLinearize_deep remaining model hdeep
  | step remaining model depth hne hdepth ih =>
    have hleft : 101 - depth = 101 - (depth + 1) + 1 := by omega
    rw [hleft] at h
    obtain ⟨a, rest, model', hperm, hmin, hstep, hrest⟩ := hasBeginning_succ hne hwf h
    obtain ⟨i, hi⟩ := List.mem_iff_get.mp (hperm.subset (List.mem_cons_self))
    subst hi
    have hsub : ∀ op ∈ remaining.eraseIdx i, op ∈ remaining :=
      fun op hop => List.mem_of_mem_eraseIdx hop
    have herase : rest.Perm (remaining.eraseIdx i) :=
      List.Perm.cons_inv (hperm.trans (List.getElem_cons_eraseIdx_perm i.isLt).symm)
    have hfound := ih i model' (fun op hop => hsafe op (hsub op hop))
      (fun op hop => hwf op (hsub op hop)) ((hasBeginning_congr herase).mp hrest)
    exact tryLinearize_of_attempt hsafe (attempt_eq_some_true hmin hstep hfound)

/-- The search accepts exactly the operations that have a legal order, or a legal
beginning of one that is as long as the search goes. -/
theorem tryLinearize_iff (hsafe : ∀ op ∈ remaining, Safe op)
    (hwf : ∀ op ∈ remaining, op.invokeTime ≤ op.completeTime) :
    tryLinearize remaining model depth = some true ↔
      HasBeginning LinearOp.invokeTime LinearOp.completeTime accept (101 - depth) model
        remaining :=
  ⟨tryLinearize_sound, tryLinearize_complete hsafe hwf⟩

theorem safe_of_accept {op : LinearOp} {model' : KVModel} (h : accept model op = some model') :
    Safe op := by
  rw [accept_eq] at h
  obtain ⟨i, hi, _⟩ := Option.bind_eq_some_iff.mp h
  constructor
  · intro htype
    rw [opInput, htype] at hi
    obtain ⟨v, hv, _⟩ := Option.map_eq_some_iff.mp hi
    simp [hv]
  · intro htype
    rw [opInput, htype] at hi
    obtain ⟨expected, hexpected, hi⟩ := Option.bind_eq_some_iff.mp hi
    obtain ⟨replacement, hreplacement, _⟩ := Option.map_eq_some_iff.mp hi
    simp [hexpected, hreplacement]

theorem safe_of_legal {l : List LinearOp} (h : Legal accept model l) : ∀ op ∈ l, Safe op := by
  induction l generalizing model with
  | nil => simp
  | cons op l ih =>
    obtain ⟨model', haccept, hrest⟩ := legal_cons.mp h
    intro op' hop'
    obtain rfl | hop' := List.mem_cons.mp hop'
    · exact safe_of_accept haccept
    · exact ih hrest op' hop'

/-- The search finds an order that is legal where there is one, and up to the depth at
which it gives up it finds nothing else. -/
theorem tryLinearize_exact (model : KVModel) (ops : List LinearOp)
    (hwf : ∀ op ∈ ops, op.invokeTime ≤ op.completeTime) :
    (HasOrder LinearOp.invokeTime LinearOp.completeTime accept model ops →
      tryLinearize ops model 0 = some true) ∧
    (ops.length ≤ 101 → tryLinearize ops model 0 = some true →
      HasOrder LinearOp.invokeTime LinearOp.completeTime accept model ops) := by
  constructor
  · intro horder
    have hbeginning := horder.hasBeginning 101
    obtain ⟨l, hperm, _, hlegal⟩ := horder
    have hsafe : ∀ op ∈ ops, Safe op := fun op hop =>
      safe_of_legal hlegal op (hperm.mem_iff.mpr hop)
    exact tryLinearize_complete hsafe hwf hbeginning
  · intro hlen htrue
    exact (tryLinearize_sound htrue).hasOrder hlen

def readOverlappingWrite : List LinearOp :=
  [⟨2, "read", "x", none, some (.u64 5), none, none, true, 1, 3⟩,
    ⟨1, "write", "x", some (.u64 5), none, none, none, true, 0, 2⟩]

theorem tryLinearize_exact_readOverlappingWrite :
    tryLinearize readOverlappingWrite KVModel.new 0 = some true ∧
      HasOrder LinearOp.invokeTime LinearOp.completeTime accept KVModel.new
        readOverlappingWrite := by
  obtain ⟨hcomplete, hsound⟩ := tryLinearize_exact KVModel.new readOverlappingWrite (by decide)
  have horder : HasOrder LinearOp.invokeTime LinearOp.completeTime accept KVModel.new
      readOverlappingWrite :=
    ⟨readOverlappingWrite.reverse, List.reverse_perm _, by decide, _, rfl⟩
  have htrue := hcomplete horder
  exact ⟨htrue, hsound (by decide) htrue⟩

end OmniPaxosJepsen.TryLinearize
