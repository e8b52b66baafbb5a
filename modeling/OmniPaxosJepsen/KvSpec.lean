import Mathlib.Logic.Function.Basic
import OmniPaxosJepsen.Runs

namespace OmniPaxosJepsen.KvSpec

variable {K V : Type} [DecidableEq K] [DecidableEq V]

inductive Op (K V : Type) where
  | read (key : K)
  | write (key : K) (value : V)
  | cas (key : K) (expected replacement : V)
  deriving DecidableEq

inductive Reply (V : Type) where
  | value (v : V)
  | written
  | swapped
  | absent
  | mismatch
  deriving DecidableEq

def Reply.value? : Reply V → Option V
  | .value v => some v
  | _ => none

def Op.key : Op K V → K
  | .read k | .write k _ | .cas k _ _ => k

def applyCell (c : Option V) : Op K V → Option V × Reply V
  | .read _ =>
    match c with
    | some v => (some v, .value v)
    | none => (none, .absent)
  | .write _ v => (some v, .written)
  | .cas _ expected replacement =>
    match c with
    | none => (none, .absent)
    | some v => if v = expected then (some replacement, .swapped) else (some v, .mismatch)

/-- The sequential specification: an operation sees and changes one key. -/
def apply (s : K → Option V) (op : Op K V) : (K → Option V) × Reply V :=
  (Function.update s op.key (applyCell (s op.key) op).1, (applyCell (s op.key) op).2)

def replay (s : K → Option V) (ops : List (Op K V)) : K → Option V :=
  ops.foldl (fun s op => (apply s op).1) s

@[simp] theorem replay_nil (s : K → Option V) : replay s [] = s := rfl

@[simp] theorem replay_cons (s : K → Option V) (op : Op K V) (ops : List (Op K V)) :
    replay s (op :: ops) = replay (apply s op).1 ops := rfl

theorem replay_append (s : K → Option V) (ops ops' : List (Op K V)) :
    replay s (ops ++ ops') = replay (replay s ops) ops' := List.foldl_append

@[simp] theorem replay_concat (s : K → Option V) (ops : List (Op K V)) (op : Op K V) :
    replay s (ops ++ [op]) = (apply (replay s ops) op).1 := by
  simp only [replay_append, replay_cons, replay_nil]

theorem apply_other (s : K → Option V) (op : Op K V) {k : K} (hk : k ≠ op.key) :
    (apply s op).1 k = s k := Function.update_of_ne hk _ _

/-- What happens to a key depends on what it held before, and on no other key. -/
theorem apply_congr {s s' : K → Option V} {k : K} (h : s k = s' k) (op : Op K V) :
    (apply s op).1 k = (apply s' op).1 k := by
  by_cases hk : k = op.key
  · subst hk
    simp only [apply, Function.update_self, h]
  · rw [apply_other s op hk, apply_other s' op hk, h]

theorem replay_congr {s s' : K → Option V} {k : K} (h : s k = s' k) (ops : List (Op K V)) :
    replay s ops k = replay s' ops k := by
  induction ops generalizing s s' with
  | nil => exact h
  | cons op ops ih => exact ih (apply_congr h op)

omit [DecidableEq K] in
theorem applyCell_isSome {c : Option V} (h : c.isSome) (op : Op K V) :
    (applyCell c op).1.isSome := by
  obtain ⟨v, rfl⟩ := Option.isSome_iff_exists.mp h
  cases op with
  | read key => rfl
  | write key value => rfl
  | cas key expected replacement => by_cases hv : v = expected <;> simp [applyCell, hv]

theorem replay_isSome {s : K → Option V} {k : K} (h : (s k).isSome) (ops : List (Op K V)) :
    (replay s ops k).isSome := by
  induction ops generalizing s with
  | nil => exact h
  | cons op ops ih =>
    have hnext : ((apply s op).1 k).isSome := by
      by_cases hk : k = op.key
      · subst hk
        simpa only [apply, Function.update_self] using applyCell_isSome h op
      · rwa [apply_other s op hk]
    exact ih hnext

def Op.writes (k : K) : Op K V → Bool
  | .write key _ => key = k
  | _ => false

def Op.swap (k : K) (v : V) : Op K V → V
  | .cas key expected replacement => if key = k ∧ v = expected then replacement else v
  | _ => v

/-- A write makes up for all differences before it. -/
theorem replay_of_writes {k : K} {ops : List (Op K V)} (h : ∃ op ∈ ops, op.writes k = true)
    (s s' : K → Option V) : replay s ops k = replay s' ops k := by
  induction ops generalizing s s' with
  | nil => simp at h
  | cons op ops ih =>
    obtain ⟨op', hop', hwrites⟩ := h
    obtain rfl | hop' := List.mem_cons.mp hop'
    · have hnext : (apply s op').1 k = (apply s' op').1 k := by
        cases op' with
        | read key => cases hwrites
        | write key value =>
          have hkey : key = k := by simpa [Op.writes] using hwrites
          subst hkey
          simp [apply, applyCell, Op.key]
        | cas key expected replacement => cases hwrites
      exact replay_congr hnext ops
    · exact ih ⟨op', hop', hwrites⟩ _ _

theorem replay_isSome_of_writes {k : K} {ops : List (Op K V)}
    (h : ∃ op ∈ ops, op.writes k = true) (s : K → Option V) : (replay s ops k).isSome := by
  obtain ⟨op, hop, hwrites⟩ := h
  cases op with
  | read key => cases hwrites
  | write key value =>
    rw [replay_of_writes ⟨_, hop, hwrites⟩ s (fun _ => some value)]
    exact replay_isSome rfl ops
  | cas key expected replacement => cases hwrites

theorem apply_of_not_writes {k : K} {op : Op K V} (h : op.writes k = false)
    (s : K → Option V) : (apply s op).1 k = (s k).map (fun v => op.swap k v) := by
  by_cases hk : k = op.key
  · subst hk
    simp only [apply, Function.update_self]
    cases op with
    | read key => cases hv : s key <;> simp [applyCell, Op.swap, Op.key, hv]
    | write key value => simp [Op.writes, Op.key] at h
    | cas key expected replacement =>
      cases hv : s key with
      | none => simp [applyCell, Op.key, hv]
      | some v => by_cases hc : v = expected <;> simp [applyCell, Op.swap, Op.key, hv, hc]
  · rw [apply_other s op hk]
    have hsame : ∀ v, op.swap k v = v := by
      intro v
      cases op with
      | read key => rfl
      | write key value => rfl
      | cas key expected replacement =>
        have hne : key ≠ k := Ne.symm hk
        simp [Op.swap, hne]
    simp [hsame]

theorem replay_of_not_writes {k : K} {ops : List (Op K V)}
    (h : ∀ op ∈ ops, op.writes k = false) (s : K → Option V) :
    replay s ops k = (s k).map (fun v => ops.foldl (Op.swap k) v) := by
  induction ops generalizing s with
  | nil => simp
  | cons op ops ih =>
    rw [replay_cons, ih (fun op' hop' => h op' (by simp [hop'])),
      apply_of_not_writes (h op (by simp)), Option.map_map]
    rfl

end OmniPaxosJepsen.KvSpec
