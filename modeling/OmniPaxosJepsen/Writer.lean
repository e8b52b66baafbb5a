import Mathlib.Data.List.Infix
import Mathlib.Data.List.Nodup

namespace OmniPaxosJepsen.Writer

variable {α : Type}

/-- A batch returned by `recv_many`, each message with whether feeding it succeeds, and
whether the flush after it does. If the connection ends with this batch, the first `cut`
of the frames fed may have gone out all the same. -/
structure Round (α : Type) where
  batch : List (α × Bool)
  flushed : Bool
  cut : Nat

def fed : List (α × Bool) → List α
  | [] => []
  | (msg, true) :: rest => msg :: fed rest
  | (_, false) :: _ => []

def failed (batch : List (α × Bool)) : Bool := batch.any (fun m => !m.2)

/-- The messages that a writer actor writes. A failed flush ends the actor. A failed feed
ends the loop over the batch, whose drained rest is lost, and the actor itself only if
`returns`. -/
def writerTask (returns : Bool) : List (Round α) → List α
  | [] => []
  | round :: rounds =>
    if returns && failed round.batch then (fed round.batch).take round.cut
    else if round.flushed then fed round.batch ++ writerTask returns rounds
    else (fed round.batch).take round.cut

/-- Server to server: a failed feed only breaks the inner loop. -/
def PeerConnection.writerTask : List (Round α) → List α := Writer.writerTask false

/-- Server to client: a failed feed returns. -/
def ClientConnection.writerTask : List (Round α) → List α := Writer.writerTask true

/-- Client to server: a failed feed only breaks the inner loop. -/
def ServerConnection.writerTask : List (Round α) → List α := Writer.writerTask false

def handed (rounds : List (Round α)) : List α :=
  rounds.flatMap (fun round => round.batch.map Prod.fst)

def number (n : Nat) : List (Round α) → List (Round (α × Nat))
  | [] => []
  | round :: rounds =>
    { round with batch := (round.batch.zipIdx n).map (fun m => ((m.1.1, m.2), m.1.2)) } ::
      number (n + round.batch.length) rounds

def Silent (round : Round α) : Prop :=
  (∀ m ∈ round.batch.head?, m.2 = false) ∨ round.flushed = false ∧ round.cut = 0

def Reaches (rounds : List (Round α)) (j : Nat) : Prop :=
  ∀ k < j, ∀ round ∈ rounds[k]?, round.flushed = true

def SilentAfterFailure (rounds : List (Round α)) : Prop :=
  ∀ i j, i < j → Reaches rounds j → ∀ dropped ∈ rounds[i]?, failed dropped.batch →
    ∀ later ∈ rounds[j]?, Silent later

theorem fed_isBeginning (batch : List (α × Bool)) : fed batch <+: batch.map Prod.fst := by
  induction batch with
  | nil => exact List.prefix_rfl
  | cons m batch ih =>
    obtain ⟨msg, ok⟩ := m
    cases ok with
    | true => simpa [fed, List.cons_prefix_cons] using ih
    | false => exact List.nil_prefix

theorem fed_eq_iff (batch : List (α × Bool)) :
    fed batch = batch.map Prod.fst ↔ failed batch = false := by
  induction batch with
  | nil => simp [fed, failed]
  | cons m batch ih =>
    obtain ⟨msg, ok⟩ := m
    cases ok with
    | true => simpa [fed, failed] using ih
    | false => simp [fed, failed]

theorem fed_eq_nil_iff (batch : List (α × Bool)) :
    fed batch = [] ↔ ∀ m ∈ batch.head?, m.2 = false := by
  cases batch with
  | nil => simp [fed]
  | cons m batch =>
    obtain ⟨msg, ok⟩ := m
    cases ok <;> simp [fed]

theorem written_subset (returns : Bool) (rounds : List (Round α)) :
    writerTask returns rounds ⊆ handed rounds := by
  induction rounds with
  | nil => exact List.Subset.refl _
  | cons round rounds ih =>
    have hfed : fed round.batch ⊆ handed (round :: rounds) := by
      intro m hm
      exact List.mem_append_left _ ((fed_isBeginning round.batch).subset hm)
    have hcut : (fed round.batch).take round.cut ⊆ handed (round :: rounds) :=
      fun m hm => hfed (List.mem_of_mem_take hm)
    simp only [writerTask]
    split
    · exact hcut
    · split
      · intro m hm
        obtain hm | hm := List.mem_append.mp hm
        · exact hfed hm
        · exact List.mem_append_right _ (ih hm)
      · exact hcut

/-- The writer to a client leaves no gap. -/
theorem client_prefix (rounds : List (Round α)) :
    ClientConnection.writerTask rounds <+: handed rounds := by
  induction rounds with
  | nil => exact List.prefix_rfl
  | cons round rounds ih =>
    have hfed : fed round.batch <+: handed (round :: rounds) :=
      (fed_isBeginning round.batch).trans (List.prefix_append _ _)
    have hcut : (fed round.batch).take round.cut <+: handed (round :: rounds) :=
      (List.take_prefix _ _).trans hfed
    simp only [ClientConnection.writerTask, writerTask, Bool.true_and]
    split
    · exact hcut
    · split
      · rename_i hok _
        have hall : fed round.batch = round.batch.map Prod.fst := by
          rw [fed_eq_iff]
          simpa using hok
        rw [hall]
        exact (List.prefix_append_right_inj _).mpr ih
      · exact hcut

def Quiet (rounds : List (Round α)) : Prop :=
  ∀ j, Reaches rounds j → ∀ round ∈ rounds[j]?, Silent round

theorem reaches_zero (rounds : List (Round α)) : Reaches rounds 0 := by
  intro k hk
  exact absurd hk (Nat.not_lt_zero k)

theorem reaches_succ (round : Round α) (rounds : List (Round α)) (j : Nat) :
    Reaches (round :: rounds) (j + 1) ↔ round.flushed = true ∧ Reaches rounds j := by
  constructor
  · intro h
    refine ⟨h 0 (Nat.succ_pos j) round rfl, fun k hk r hr => ?_⟩
    exact h (k + 1) (Nat.succ_lt_succ hk) r (by simpa using hr)
  · rintro ⟨hflushed, h⟩ k hk r hr
    cases k with
    | zero =>
      cases hr
      exact hflushed
    | succ k => exact h k (Nat.lt_of_succ_lt_succ hk) r (by simpa using hr)

theorem quiet_cons (round : Round α) (rounds : List (Round α)) :
    Quiet (round :: rounds) ↔ Silent round ∧ (round.flushed = true → Quiet rounds) := by
  constructor
  · intro h
    refine ⟨h 0 (reaches_zero _) round rfl, fun hflushed j hj r hr => ?_⟩
    exact h (j + 1) ((reaches_succ round rounds j).mpr ⟨hflushed, hj⟩) r (by simpa using hr)
  · rintro ⟨hsilent, h⟩ j hj r hr
    cases j with
    | zero =>
      cases hr
      exact hsilent
    | succ j =>
      obtain ⟨hflushed, hj⟩ := (reaches_succ round rounds j).mp hj
      exact h hflushed j hj r (by simpa using hr)

theorem silentAfterFailure_cons (round : Round α) (rounds : List (Round α)) :
    SilentAfterFailure (round :: rounds) ↔ (round.flushed = true →
      (failed round.batch → Quiet rounds) ∧ SilentAfterFailure rounds) := by
  constructor
  · intro h hflushed
    refine ⟨fun hfailed j hj r hr => ?_, fun i j hij hj dropped hd hfailed r hr => ?_⟩
    · exact h 0 (j + 1) (Nat.succ_pos j) ((reaches_succ round rounds j).mpr ⟨hflushed, hj⟩)
        round rfl hfailed r (by simpa using hr)
    · exact h (i + 1) (j + 1) (Nat.succ_lt_succ hij)
        ((reaches_succ round rounds j).mpr ⟨hflushed, hj⟩) dropped (by simpa using hd) hfailed r
        (by simpa using hr)
  · intro h i j hij hj dropped hd hfailed r hr
    cases j with
    | zero => exact absurd hij (Nat.not_lt_zero i)
    | succ j =>
      obtain ⟨hflushed, hj⟩ := (reaches_succ round rounds j).mp hj
      obtain ⟨hquiet, hrest⟩ := h hflushed
      cases i with
      | zero =>
        cases hd
        exact hquiet hfailed j hj r (by simpa using hr)
      | succ i =>
        exact hrest i j (Nat.lt_of_succ_lt_succ hij) hj dropped (by simpa using hd) hfailed r
          (by simpa using hr)

theorem written_eq_nil_iff (rounds : List (Round α)) :
    writerTask false rounds = [] ↔ Quiet rounds := by
  induction rounds with
  | nil => simp [writerTask, Quiet]
  | cons round rounds ih =>
    rw [quiet_cons, Silent, ← fed_eq_nil_iff, ← ih]
    simp only [writerTask, Bool.false_and, Bool.false_eq_true, ↓reduceIte]
    cases round.flushed with
    | true => simp
    | false => simp [List.take_eq_nil_iff, or_comm]

/-- Messages that are told apart are written without a gap exactly when nothing is
written after a failed feed. -/
theorem written_prefix_iff {rounds : List (Round α)} (hnodup : (handed rounds).Nodup) :
    writerTask false rounds <+: handed rounds ↔ SilentAfterFailure rounds := by
  induction rounds with
  | nil => simp [writerTask, SilentAfterFailure]
  | cons round rounds ih =>
    have hhanded : handed (round :: rounds) = round.batch.map Prod.fst ++ handed rounds := rfl
    rw [hhanded] at hnodup ⊢
    obtain ⟨_, hrest, hdisjoint⟩ := List.nodup_append'.mp hnodup
    rw [silentAfterFailure_cons]
    simp only [writerTask, Bool.false_and, Bool.false_eq_true, ↓reduceIte]
    cases hflushed : round.flushed with
    | false =>
      have hcut : (fed round.batch).take round.cut <+:
          round.batch.map Prod.fst ++ handed rounds :=
        (List.take_prefix _ _).trans ((fed_isBeginning round.batch).trans (List.prefix_append _ _))
      simpa using hcut
    | true =>
      cases hfailed : failed round.batch with
      | false =>
        have hall : fed round.batch = round.batch.map Prod.fst := (fed_eq_iff _).mpr hfailed
        simp [hall, List.prefix_append_right_inj, ih hrest]
      | true =>
        -- the message that failed is still in the way of whatever comes after it
        have hnil : fed round.batch ++ writerTask false rounds <+:
            round.batch.map Prod.fst ++ handed rounds ↔ writerTask false rounds = [] := by
          obtain ⟨lost, hlost⟩ := fed_isBeginning round.batch
          constructor
          · intro h
            rw [← hlost, List.append_assoc, List.prefix_append_right_inj] at h
            cases lost with
            | nil =>
              have hall := (fed_eq_iff round.batch).mp (by simpa using hlost)
              simp [hfailed] at hall
            | cons y lost =>
              cases hw : writerTask false rounds with
              | nil => rfl
              | cons x w =>
                rw [hw] at h
                have hxy : x = y := (List.cons_prefix_cons.mp h).1
                have hx : x ∈ handed rounds := written_subset false rounds (by simp [hw])
                have hy : y ∈ round.batch.map Prod.fst := by simp [← hlost]
                exact absurd hx (hdisjoint (hxy ▸ hy))
          · intro h
            rw [h, List.append_nil]
            exact (fed_isBeginning round.batch).trans (List.prefix_append _ _)
        have hquiet : Quiet rounds → SilentAfterFailure rounds :=
          fun h i j _ hj _ _ _ => h j hj
        simp only [↓reduceIte, hnil, written_eq_nil_iff, true_implies]
        exact ⟨fun h => ⟨h, hquiet h⟩, And.left⟩

theorem failed_number (n : Nat) (batch : List (α × Bool)) :
    failed ((batch.zipIdx n).map (fun m => ((m.1.1, m.2), m.1.2))) = failed batch := by
  induction batch generalizing n with
  | nil => rfl
  | cons m batch ih =>
    have hih := ih (n + 1)
    simp only [failed, List.any_map] at hih
    simp [failed, hih]

theorem fed_number (n : Nat) (batch : List (α × Bool)) :
    (fed ((batch.zipIdx n).map (fun m => ((m.1.1, m.2), m.1.2)))).map Prod.fst = fed batch := by
  induction batch generalizing n with
  | nil => rfl
  | cons m batch ih =>
    obtain ⟨msg, ok⟩ := m
    cases ok with
    | true => simp [fed, ih]
    | false => rfl

theorem silent_number (n : Nat) (round : Round α) :
    Silent { round with
      batch := (round.batch.zipIdx n).map (fun m => ((m.1.1, m.2), m.1.2)) } ↔ Silent round := by
  have hhead : (∀ m ∈ ((round.batch.zipIdx n).map
      (fun m => ((m.1.1, m.2), m.1.2))).head?, m.2 = false) ↔
      ∀ m ∈ round.batch.head?, m.2 = false := by
    cases round.batch <;> simp
  simp only [Silent, hhead]

theorem quiet_number (n : Nat) (rounds : List (Round α)) :
    Quiet (number n rounds) ↔ Quiet rounds := by
  induction rounds generalizing n with
  | nil => simp [number, Quiet]
  | cons round rounds ih => simp only [number, quiet_cons, silent_number, ih]

theorem silentAfterFailure_number (n : Nat) (rounds : List (Round α)) :
    SilentAfterFailure (number n rounds) ↔ SilentAfterFailure rounds := by
  induction rounds generalizing n with
  | nil => simp [number, SilentAfterFailure]
  | cons round rounds ih =>
    simp only [number, silentAfterFailure_cons, failed_number, quiet_number, ih]

theorem handed_number (n : Nat) (rounds : List (Round α)) :
    handed (number n rounds) = (handed rounds).zipIdx n := by
  induction rounds generalizing n with
  | nil => rfl
  | cons round rounds ih =>
    have hcons : handed (round :: rounds) = round.batch.map Prod.fst ++ handed rounds := rfl
    rw [hcons, List.zipIdx_append, List.length_map, ← ih, List.zipIdx_map]
    simp only [number, handed, List.flatMap_cons, List.map_map]
    rfl

theorem handed_number_nodup (rounds : List (Round α)) : (handed (number 0 rounds)).Nodup := by
  rw [handed_number]
  apply List.Nodup.of_map Prod.snd
  rw [List.zipIdx_map_snd]
  exact List.nodup_range'

theorem written_number (returns : Bool) (n : Nat) (rounds : List (Round α)) :
    (writerTask returns (number n rounds)).map Prod.fst = writerTask returns rounds := by
  induction rounds generalizing n with
  | nil => rfl
  | cons round rounds ih =>
    simp only [number, writerTask, failed_number]
    split
    · rw [List.map_take, fed_number]
    · split
      · rw [List.map_append, fed_number, ih]
      · rw [List.map_take, fed_number]

/-- A session of a peer or of a client's server has no gap exactly when nothing that the
writer gets to after a failed feed is written. The messages are told apart by numbers,
which change nothing of what is written. -/
theorem session_prefix_iff (rounds : List (Round α)) :
    ((PeerConnection.writerTask (number 0 rounds)).map Prod.fst =
        PeerConnection.writerTask rounds ∧
      (PeerConnection.writerTask (number 0 rounds) <+: handed (number 0 rounds) ↔
        SilentAfterFailure rounds)) ∧
    (ServerConnection.writerTask (number 0 rounds)).map Prod.fst =
        ServerConnection.writerTask rounds ∧
      (ServerConnection.writerTask (number 0 rounds) <+: handed (number 0 rounds) ↔
        SilentAfterFailure rounds) := by
  have hprefix := written_prefix_iff (handed_number_nodup rounds)
  rw [silentAfterFailure_number] at hprefix
  have hsame := written_number false 0 rounds
  exact ⟨⟨hsame, hprefix⟩, hsame, hprefix⟩

/-- The frame of the first message is too long; the second goes out. -/
theorem session_gap :
    ¬ ∀ rounds : List (Round String),
      PeerConnection.writerTask (number 0 rounds) <+: handed (number 0 rounds) ∧
      ServerConnection.writerTask (number 0 rounds) <+: handed (number 0 rounds) := by
  intro h
  have hgap := (h [⟨[("long", false)], true, 0⟩, ⟨[("short", true)], true, 0⟩]).1
  revert hgap
  decide

end OmniPaxosJepsen.Writer
