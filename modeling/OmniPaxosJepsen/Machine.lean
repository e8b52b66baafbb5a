import Mathlib.Data.List.Basic
import Mathlib.Data.List.Induction

namespace OmniPaxosJepsen.Machine

variable {σ α β : Type}

/-- Read a log: each entry changes the state and emits some outputs. -/
def exec (step : σ → α → σ × List β) : σ → List α → σ × List β
  | s, [] => (s, [])
  | s, a :: log =>
    let (t, out) := step s a
    let (u, out') := exec step t log
    (u, out ++ out')

@[simp] theorem exec_nil (step : σ → α → σ × List β) (s : σ) : exec step s [] = (s, []) := rfl

theorem exec_cons (step : σ → α → σ × List β) (s : σ) (a : α) (log : List α) :
    exec step s (a :: log) = ((exec step (step s a).1 log).1,
      (step s a).2 ++ (exec step (step s a).1 log).2) := rfl

theorem exec_append (step : σ → α → σ × List β) (s : σ) (log log' : List α) :
    exec step s (log ++ log') = ((exec step (exec step s log).1 log').1,
      (exec step s log).2 ++ (exec step (exec step s log).1 log').2) := by
  induction log generalizing s with
  | nil => simp
  | cons a log ih => simp only [List.cons_append, exec_cons, ih, List.append_assoc]

theorem exec_concat (step : σ → α → σ × List β) (s : σ) (log : List α) (a : α) :
    exec step s (log ++ [a]) = ((step (exec step s log).1 a).1,
      (exec step s log).2 ++ (step (exec step s log).1 a).2) := by
  simp only [exec_append, exec_cons, exec_nil, List.append_nil]

theorem exec_outputs (step : σ → α → σ × List β) (s : σ) (log : List α) :
    (exec step s log).2 =
      log.zipIdx.flatMap (fun (a, n) => (step (exec step s (log.take n)).1 a).2) := by
  induction log using List.reverseRecOn with
  | nil => rfl
  | append_singleton log a ih =>
    have hold : log.zipIdx.flatMap
          (fun (a', n) => (step (exec step s ((log ++ [a]).take n)).1 a').2) =
        log.zipIdx.flatMap (fun (a', n) => (step (exec step s (log.take n)).1 a').2) := by
      apply List.flatMap_congr
      intro p hp
      have hn : p.2 ≤ log.length := by
        have hlt := List.snd_lt_of_mem_zipIdx hp
        omega
      simp only [List.take_append_of_le_length hn]
    simp only [exec_concat, List.zipIdx_append, List.flatMap_append, hold, ← ih, List.zipIdx_cons,
      List.zipIdx_nil, List.flatMap_cons, List.flatMap_nil, Nat.zero_add, List.take_left,
      List.append_nil]

theorem drop_take_of_le {idx idx' : Nat} (h : idx' ≤ idx) (log : List α) :
    (log.take idx').drop idx = [] := by
  apply List.drop_eq_nil_of_le
  exact Nat.le_trans (List.length_take_le idx' log) h

theorem drop_eq_append (log : List α) (idx idx' : Nat) :
    log.drop idx = (log.take idx').drop idx ++ log.drop (max idx idx') := by
  obtain h | h := Nat.le_total idx idx'
  · have hrest : log.drop idx' = (log.drop idx).drop (idx' - idx) := by
      rw [List.drop_drop, Nat.add_sub_cancel' h]
    rw [Nat.max_eq_right h, List.drop_take, hrest, List.take_append_drop]
  · rw [Nat.max_eq_left h, drop_take_of_le h, List.nil_append]

/-- A reader that has taken in the first `idx` entries of a log. -/
def CaughtUp (step : σ → α → σ × List β) (s : σ) (log : List α) (idx : Nat) (t : σ)
    (out : List β) : Prop := exec step s (log.take idx) = (t, out)

section CaughtUp

variable {step : σ → α → σ × List β} {s t t' : σ} {log : List α} {idx idx' : Nat}
  {out out' : List β}

theorem CaughtUp.start (step : σ → α → σ × List β) (s : σ) (log : List α) :
    CaughtUp step s log 0 s [] := by
  simp [CaughtUp]

/-- Reading on from where it stands brings the reader to any later index. -/
theorem CaughtUp.advance (h : CaughtUp step s log idx t out)
    (hexec : exec step t ((log.take idx').drop idx) = (t', out')) :
    CaughtUp step s log (max idx idx') t' (out ++ out') := by
  obtain hidx | hidx := Nat.le_total idx idx'
  · have hsplit : log.take idx' = log.take idx ++ (log.take idx').drop idx := by
      conv => lhs; rw [← List.take_append_drop idx (log.take idx')]
      rw [List.take_take, Nat.min_eq_left hidx]
    unfold CaughtUp at *
    rw [Nat.max_eq_right hidx, hsplit, exec_append, h, hexec]
  · rw [drop_take_of_le hidx, exec_nil] at hexec
    cases hexec
    rw [Nat.max_eq_left hidx, List.append_nil]
    exact h

end CaughtUp

end OmniPaxosJepsen.Machine
