import Mathlib.Data.Finset.Card
import Mathlib.Data.Finset.Filter
import OmniPaxosJepsen.Runs

namespace OmniPaxosJepsen.Ballots

variable {N E : Type}

/-- What a node keeps: the highest ballot it has promised, and a log with the ballot
of the leader it was accepted from. -/
structure Storage (E : Type) where
  promised : Nat
  accepted : Nat
  log : List E

def Storage.empty : Storage E := ⟨0, 0, []⟩

/-- A leader starts from the log that it adopted, which was accepted in ballot `source`. -/
structure Leader (E : Type) where
  ballot : Nat
  source : Nat
  adopted : List E
  log : List E

/-- Storages, the leaders there have been, and the prefixes decided so far with the
ballots in which they were decided. -/
structure State (N E : Type) where
  storages : N → Storage E
  leaders : List (Leader E)
  decided : List (Nat × List E)

def init : State N E := ⟨fun _ => Storage.empty, [], []⟩

inductive Action (N E : Type) where
  | elect (ballot : Nat) (voters : Finset N) (best : N)
  | append (ballot : Nat) (entry : E)
  | accept (node : N) (ballot length : Nat)
  | decide (ballot length : Nat)
  | reset (node : N)

def Majority (members X : Finset N) : Prop := X ⊆ members ∧ members.card < 2 * X.card

instance [DecidableEq N] (members X : Finset N) : Decidable (Majority members X) :=
  inferInstanceAs (Decidable (_ ∧ _))

theorem majority_inter [DecidableEq N] {members X Y : Finset N} (hX : Majority members X)
    (hY : Majority members Y) : ∃ i, i ∈ X ∧ i ∈ Y := by
  have hcard : members.card < X.card + Y.card := by
    have := hX.2
    have := hY.2
    omega
  obtain ⟨i, hi⟩ := Finset.inter_nonempty_of_card_lt_card_add_card hX.1 hY.1 hcard
  exact ⟨i, Finset.mem_inter.mp hi⟩

theorem Majority.mono {members X Y : Finset N} (hX : Majority members X) (hXY : X ⊆ Y)
    (hY : Y ⊆ members) : Majority members Y :=
  ⟨hY, hX.2.trans_le (Nat.mul_le_mul_left 2 (Finset.card_le_card hXY))⟩

/-- A log accepted in ballot `b` is at least as up to date as one accepted in `a`. -/
def UpToDate (a : Nat) (x : List E) (b : Nat) (y : List E) : Prop :=
  a < b ∨ a = b ∧ x.length ≤ y.length

instance (a : Nat) (x : List E) (b : Nat) (y : List E) : Decidable (UpToDate a x b y) :=
  inferInstanceAs (Decidable (_ ∨ _))

def Leader.extend (ballot : Nat) (entry : E) (l : Leader E) : Leader E :=
  if l.ballot = ballot then { l with log := l.log ++ [entry] } else l

@[simp] theorem Leader.extend_ballot (ballot : Nat) (entry : E) (l : Leader E) :
    (l.extend ballot entry).ballot = l.ballot := by
  rw [extend]
  split <;> rfl

@[simp] theorem Leader.extend_source (ballot : Nat) (entry : E) (l : Leader E) :
    (l.extend ballot entry).source = l.source := by
  rw [extend]
  split <;> rfl

@[simp] theorem Leader.extend_adopted (ballot : Nat) (entry : E) (l : Leader E) :
    (l.extend ballot entry).adopted = l.adopted := by
  rw [extend]
  split <;> rfl

theorem Leader.log_prefix_extend (ballot : Nat) (entry : E) (l : Leader E) :
    l.log <+: (l.extend ballot entry).log := by
  rw [extend]
  split
  · exact List.prefix_append _ _
  · exact List.prefix_refl _

def State.leader (s : State N E) (ballot : Nat) : Option (Leader E) :=
  s.leaders.find? (fun l => l.ballot = ballot)

theorem State.leader_eq_some {s : State N E} {ballot : Nat} {l : Leader E}
    (h : s.leader ballot = some l) : l ∈ s.leaders ∧ l.ballot = ballot :=
  ⟨List.mem_of_find?_eq_some h, by simpa using List.find?_some h⟩

def Backed (leaders : List (Leader E)) (ballot : Nat) (log : List E) : Prop :=
  (ballot = 0 ∧ log = []) ∨ ∃ l ∈ leaders, l.ballot = ballot ∧ l.adopted <+: log ∧ log <+: l.log

theorem Backed.cons {leaders : List (Leader E)} {ballot : Nat} {x : List E}
    (h : Backed leaders ballot x) (l : Leader E) : Backed (l :: leaders) ballot x := by
  obtain h | ⟨l', hl', hrest⟩ := h
  · exact .inl h
  · exact .inr ⟨l', List.mem_cons_of_mem l hl', hrest⟩

theorem Backed.extend {leaders : List (Leader E)} {b : Nat} {x : List E} (h : Backed leaders b x)
    (ballot : Nat) (entry : E) : Backed (leaders.map (Leader.extend ballot entry)) b x := by
  obtain h | ⟨l, hl, hb, hadopted, hlog⟩ := h
  · exact .inl h
  · refine .inr ⟨l.extend ballot entry, List.mem_map_of_mem hl, ?_, ?_, ?_⟩
    · rw [Leader.extend_ballot, hb]
    · rwa [Leader.extend_adopted]
    · exact hlog.trans (l.log_prefix_extend ballot entry)

theorem adopted_prefix_take {l : Leader E} (hpre : l.adopted <+: l.log) {length : Nat}
    (hlen : l.adopted.length ≤ length) : l.adopted <+: l.log.take length := by
  apply List.prefix_of_prefix_length_le hpre (List.take_prefix _ _)
  rw [List.length_take]
  exact le_min hlen hpre.length_le

/-- A log that is at least as up to date as one that holds a prefix holds the prefix
too, as long as the leaders of later ballots have adopted it. -/
theorem upToDate_holds {leaders : List (Leader E)} {ballot a b : Nat} {p x y : List E}
    (hunique : ∀ l ∈ leaders, ∀ l' ∈ leaders, l.ballot = l'.ballot → l = l')
    (hx : Backed leaders a x) (hy : Backed leaders b y) (hpos : 0 < ballot) (hle : ballot ≤ a)
    (hp : p <+: x) (hup : UpToDate a x b y)
    (hlater : ∀ l ∈ leaders, l.ballot = b → ballot < b → p <+: l.adopted) : p <+: y := by
  obtain ⟨rfl, _⟩ | ⟨l, hl, hlb, hadopted, hlog⟩ := hy
  · obtain hlt | ⟨rfl, _⟩ := hup <;> omega
  · by_cases hb : ballot < b
    · exact (hlater l hl hlb hb).trans hadopted
    · have hab : a = b ∧ x.length ≤ y.length := by
        obtain hlt | heq := hup
        · omega
        · exact heq
      obtain ⟨rfl, _⟩ | ⟨l', hl', hla, _, hlog'⟩ := hx
      · omega
      · obtain rfl : l' = l := hunique l' hl' l hl (by rw [hla, hlb, hab.1])
        exact hp.trans (List.prefix_of_prefix_length_le hlog' hlog hab.2)

/-- The nodes that a leader can count on: they take nothing from earlier leaders any
more, and what they had taken was no better than what the leader adopted. -/
def State.bound (s : State N E) (members : Finset N) (l : Leader E) : Finset N :=
  members.filter (fun i => l.ballot ≤ (s.storages i).promised ∧
    ((s.storages i).accepted < l.ballot →
      UpToDate (s.storages i).accepted (s.storages i).log l.source l.adopted))

section

variable [DecidableEq E]

def State.holders (s : State N E) (members : Finset N) (d : Nat × List E) : Finset N :=
  members.filter (fun i => d.1 ≤ (s.storages i).accepted ∧ d.2 <+: (s.storages i).log)

theorem mem_holders {s : State N E} {members : Finset N} {d : Nat × List E} {i : N} :
    i ∈ s.holders members d ↔
      i ∈ members ∧ d.1 ≤ (s.storages i).accepted ∧ d.2 <+: (s.storages i).log := by
  simp only [State.holders, Finset.mem_filter]

structure Inv (members : Finset N) (s : State N E) : Prop where
  promised : ∀ i, (s.storages i).accepted ≤ (s.storages i).promised
  storage : ∀ i, Backed s.leaders (s.storages i).accepted (s.storages i).log
  unique : ∀ l ∈ s.leaders, ∀ l' ∈ s.leaders, l.ballot = l'.ballot → l = l'
  leader : ∀ l ∈ s.leaders, l.source < l.ballot ∧ l.adopted <+: l.log ∧
    Backed s.leaders l.source l.adopted
  votes : ∀ l ∈ s.leaders, Majority members (s.bound members l)
  decided : ∀ d ∈ s.decided, (∃ l ∈ s.leaders, l.ballot = d.1 ∧ d.2 <+: l.log) ∧
    Majority members (s.holders members d) ∧ ∀ l ∈ s.leaders, d.1 < l.ballot → d.2 <+: l.adopted

theorem Inv.decided_pos {members : Finset N} {s : State N E} (h : Inv members s)
    {d : Nat × List E} (hd : d ∈ s.decided) : 0 < d.1 := by
  obtain ⟨⟨l, hl, hb, _⟩, _⟩ := h.decided d hd
  have hlt := (h.leader l hl).1
  omega

end

variable [DecidableEq N] [DecidableEq E]

def step (members : Finset N) (s : State N E) : Action N E → Option (State N E)
  | .elect ballot voters best =>
    if Majority members voters ∧ best ∈ voters ∧ (∀ l ∈ s.leaders, l.ballot ≠ ballot) ∧
        ∀ i ∈ voters, (s.storages i).promised < ballot ∧ UpToDate (s.storages i).accepted
          (s.storages i).log (s.storages best).accepted (s.storages best).log then
      some { s with
        storages := fun i =>
          if i ∈ voters then { s.storages i with promised := ballot } else s.storages i
        leaders := ⟨ballot, (s.storages best).accepted, (s.storages best).log,
          (s.storages best).log⟩ :: s.leaders }
    else none
  | .append ballot entry => some { s with leaders := s.leaders.map (Leader.extend ballot entry) }
  | .accept node ballot length =>
    (s.leader ballot).bind (fun l =>
      if (s.storages node).promised ≤ ballot ∧ l.adopted.length ≤ length ∧
          ((s.storages node).accepted = ballot → (s.storages node).log.length ≤ length) then
        some { s with storages :=
          Function.update s.storages node ⟨ballot, ballot, l.log.take length⟩ }
      else none)
  | .decide ballot length =>
    (s.leader ballot).bind (fun l =>
      if Majority members (members.filter (fun i => (s.storages i).accepted = ballot ∧
          l.log.take length <+: (s.storages i).log)) then
        some { s with decided := (ballot, l.log.take length) :: s.decided }
      else none)
  | .reset node => some { s with storages := Function.update s.storages node Storage.empty }

/-- What an election does: the voters promise the ballot and keep their logs. -/
structure Elected (members : Finset N) (s t : State N E) (ballot : Nat) (voters : Finset N)
    (best : N) : Prop where
  majority : Majority members voters
  best_mem : best ∈ voters
  fresh : ∀ l ∈ s.leaders, l.ballot ≠ ballot
  promise : ∀ i ∈ voters, (s.storages i).promised < ballot ∧ UpToDate (s.storages i).accepted
    (s.storages i).log (s.storages best).accepted (s.storages best).log
  accepted : ∀ i, (t.storages i).accepted = (s.storages i).accepted
  log : ∀ i, (t.storages i).log = (s.storages i).log
  promised_le : ∀ i, (s.storages i).promised ≤ (t.storages i).promised
  promised : ∀ i ∈ voters, (t.storages i).promised = ballot
  leaders : t.leaders =
    ⟨ballot, (s.storages best).accepted, (s.storages best).log, (s.storages best).log⟩ :: s.leaders
  decided : t.decided = s.decided

def Next (members : Finset N) (s : State N E) : Action N E → State N E → Prop
  | .elect ballot voters best, t => Elected members s t ballot voters best
  | .append ballot entry, t => t = { s with leaders := s.leaders.map (Leader.extend ballot entry) }
  | .accept node ballot length, t =>
    ∃ l ∈ s.leaders, l.ballot = ballot ∧ (s.storages node).promised ≤ l.ballot ∧
      l.adopted.length ≤ length ∧
      ((s.storages node).accepted = l.ballot → (s.storages node).log.length ≤ length) ∧
      t = { s with storages :=
        Function.update s.storages node ⟨l.ballot, l.ballot, l.log.take length⟩ }
  | .decide ballot length, t =>
    ∃ l ∈ s.leaders, l.ballot = ballot ∧
      Majority members (members.filter (fun i => (s.storages i).accepted = l.ballot ∧
        l.log.take length <+: (s.storages i).log)) ∧
      t = { s with decided := (l.ballot, l.log.take length) :: s.decided }
  | .reset node, t => t = { s with storages := Function.update s.storages node Storage.empty }

variable {members : Finset N} {s t : State N E}

theorem step_next {a : Action N E} (h : step members s a = some t) : Next members s a t := by
  cases a with
  | elect ballot voters best =>
    obtain ⟨⟨hmaj, hbest, hfresh, hpromise⟩, heq⟩ := Option.ite_none_right_eq_some.mp h
    cases heq
    refine ⟨hmaj, hbest, hfresh, hpromise, fun i => ?_, fun i => ?_, fun i => ?_, fun i hi => ?_,
      rfl, rfl⟩
    · by_cases hi : i ∈ voters <;> simp [hi]
    · by_cases hi : i ∈ voters <;> simp [hi]
    · by_cases hi : i ∈ voters
      · simpa [hi] using (hpromise i hi).1.le
      · simp [hi]
    · simp [hi]
  | append ballot entry =>
    cases h
    rfl
  | accept node ballot length =>
    obtain ⟨l, hfind, hguard⟩ := Option.bind_eq_some_iff.mp h
    obtain ⟨hl, rfl⟩ := State.leader_eq_some hfind
    obtain ⟨⟨hprom, hlen, hgrow⟩, heq⟩ := Option.ite_none_right_eq_some.mp hguard
    cases heq
    exact ⟨l, hl, rfl, hprom, hlen, hgrow, rfl⟩
  | decide ballot length =>
    obtain ⟨l, hfind, hguard⟩ := Option.bind_eq_some_iff.mp h
    obtain ⟨hl, rfl⟩ := State.leader_eq_some hfind
    obtain ⟨hmaj, heq⟩ := Option.ite_none_right_eq_some.mp hguard
    cases heq
    exact ⟨l, hl, rfl, hmaj, rfl⟩
  | reset node =>
    cases h
    rfl

/-- A majority holds what was decided, so the best log of a majority of voters has it. -/
theorem Inv.best_holds (h : Inv members s) {ballot : Nat} {voters : Finset N} {best : N}
    (hmaj : Majority members voters) (hpromise : ∀ i ∈ voters, (s.storages i).promised < ballot ∧
      UpToDate (s.storages i).accepted (s.storages i).log (s.storages best).accepted
        (s.storages best).log) {d : Nat × List E} (hd : d ∈ s.decided) :
    d.1 < ballot ∧ d.2 <+: (s.storages best).log := by
  obtain ⟨_, hhold, hlater⟩ := h.decided d hd
  obtain ⟨i, hi, hvote⟩ := majority_inter hhold hmaj
  obtain ⟨_, hle, hp⟩ := mem_holders.mp hi
  obtain ⟨hlt, hup⟩ := hpromise i hvote
  refine ⟨(hle.trans (h.promised i)).trans_lt hlt, ?_⟩
  exact upToDate_holds h.unique (h.storage i) (h.storage best) (h.decided_pos hd) hle hp hup
    (fun l hl hlb hb => hlater l hl (hlb ▸ hb))

omit [DecidableEq N] in
theorem Inv.accept_keeps (h : Inv members s) {d : Nat × List E} (hd : d ∈ s.decided)
    {l : Leader E} (hl : l ∈ s.leaders) {node : N} {length : Nat} {p : List E}
    (hprom : (s.storages node).promised ≤ l.ballot) (hlen : l.adopted.length ≤ length)
    (hgrow : (s.storages node).accepted = l.ballot → (s.storages node).log.length ≤ length)
    (hle : d.1 ≤ (s.storages node).accepted) (hpd : p <+: d.2)
    (hp : p <+: (s.storages node).log) : d.1 ≤ l.ballot ∧ p <+: l.log.take length := by
  have hdb : d.1 ≤ l.ballot := hle.trans ((h.promised node).trans hprom)
  refine ⟨hdb, ?_⟩
  obtain heq | hlt := hdb.eq_or_lt
  · have hacc : (s.storages node).accepted = l.ballot :=
      le_antisymm ((h.promised node).trans hprom) (heq ▸ hle)
    obtain ⟨hzero, _⟩ | ⟨l', hl', hb', _, hlog⟩ := h.storage node
    · have hpos := h.decided_pos hd
      omega
    · obtain rfl := h.unique l' hl' l hl (hb'.trans hacc)
      refine hp.trans (List.prefix_of_prefix_length_le hlog (List.take_prefix _ _) ?_)
      rw [List.length_take]
      exact le_min (hgrow hacc) hlog.length_le
  · have hadopted := ((h.decided d hd).2.2 l hl hlt).trans
      (adopted_prefix_take (h.leader l hl).2.1 hlen)
    exact hpd.trans hadopted

theorem Inv.elect (h : Inv members s) {ballot : Nat} {voters : Finset N} {best : N}
    (he : Elected members s t ballot voters best) : Inv members t := by
  have hback : ∀ {b : Nat} {x : List E}, Backed s.leaders b x → Backed t.leaders b x := by
    intro b x hx
    rw [he.leaders]
    exact hx.cons _
  have hmem : ∀ l ∈ t.leaders, l = ⟨ballot, (s.storages best).accepted, (s.storages best).log,
      (s.storages best).log⟩ ∨ l ∈ s.leaders := by
    intro l hl
    rw [he.leaders] at hl
    exact List.mem_cons.mp hl
  refine ⟨fun i => ?_, fun i => ?_, fun l hl l' hl' hb => ?_, fun l hl => ?_, fun l hl => ?_,
    fun d hd => ?_⟩
  · rw [he.accepted]
    exact (h.promised i).trans (he.promised_le i)
  · rw [he.accepted, he.log]
    exact hback (h.storage i)
  · obtain rfl | hl := hmem l hl <;> obtain rfl | hl' := hmem l' hl'
    · rfl
    · exact absurd hb.symm (he.fresh l' hl')
    · exact absurd hb (he.fresh l hl)
    · exact h.unique l hl l' hl' hb
  · obtain rfl | hl := hmem l hl
    · refine ⟨(h.promised best).trans_lt (he.promise best he.best_mem).1, List.prefix_refl _, ?_⟩
      exact hback (h.storage best)
    · exact ⟨(h.leader l hl).1, (h.leader l hl).2.1, hback (h.leader l hl).2.2⟩
  · obtain rfl | hl := hmem l hl
    · refine he.majority.mono (fun i hi => ?_) (Finset.filter_subset _ _)
      refine Finset.mem_filter.mpr ⟨he.majority.1 hi, (he.promised i hi).ge, fun _ => ?_⟩
      rw [he.accepted, he.log]
      exact (he.promise i hi).2
    · refine (h.votes l hl).mono (fun i hi => ?_) (Finset.filter_subset _ _)
      obtain ⟨hmem, hle, hup⟩ := Finset.mem_filter.mp hi
      refine Finset.mem_filter.mpr ⟨hmem, hle.trans (he.promised_le i), ?_⟩
      rwa [he.accepted, he.log]
  · rw [he.decided] at hd
    obtain ⟨⟨l, hl, hb, hp⟩, hhold, hlater⟩ := h.decided d hd
    refine ⟨⟨l, he.leaders ▸ List.mem_cons_of_mem _ hl, hb, hp⟩, ?_, fun l hl hlt => ?_⟩
    · refine hhold.mono (fun i hi => mem_holders.mpr ?_) (Finset.filter_subset _ _)
      rw [he.accepted, he.log]
      exact mem_holders.mp hi
    · obtain rfl | hl := hmem l hl
      · exact (h.best_holds he.majority he.promise hd).2
      · exact hlater l hl hlt

omit [DecidableEq N] in
theorem Inv.append (h : Inv members s) (ballot : Nat) (entry : E) :
    Inv members { s with leaders := s.leaders.map (Leader.extend ballot entry) } := by
  refine ⟨h.promised, fun i => (h.storage i).extend ballot entry, fun l hl l' hl' hb => ?_,
    fun l hl => ?_, fun l hl => ?_, fun d hd => ?_⟩
  · obtain ⟨m, hm, rfl⟩ := List.mem_map.mp hl
    obtain ⟨m', hm', rfl⟩ := List.mem_map.mp hl'
    rw [Leader.extend_ballot, Leader.extend_ballot] at hb
    rw [h.unique m hm m' hm' hb]
  · obtain ⟨m, hm, rfl⟩ := List.mem_map.mp hl
    obtain ⟨hlt, hpre, hback⟩ := h.leader m hm
    rw [Leader.extend_ballot, Leader.extend_source, Leader.extend_adopted]
    exact ⟨hlt, hpre.trans (m.log_prefix_extend ballot entry), hback.extend ballot entry⟩
  · obtain ⟨m, hm, rfl⟩ := List.mem_map.mp hl
    rw [State.bound, Leader.extend_ballot, Leader.extend_source, Leader.extend_adopted]
    exact h.votes m hm
  · obtain ⟨⟨m, hm, hb, hp⟩, hhold, hlater⟩ := h.decided d hd
    refine ⟨⟨m.extend ballot entry, List.mem_map_of_mem hm, (m.extend_ballot ballot entry).trans hb,
      hp.trans (m.log_prefix_extend ballot entry)⟩, hhold, fun l hl hlt => ?_⟩
    obtain ⟨m', hm', rfl⟩ := List.mem_map.mp hl
    rw [Leader.extend_ballot] at hlt
    rw [Leader.extend_adopted]
    exact hlater m' hm' hlt

theorem Inv.accept (h : Inv members s) {l : Leader E} (hl : l ∈ s.leaders) {node : N}
    {length : Nat} (hprom : (s.storages node).promised ≤ l.ballot)
    (hlen : l.adopted.length ≤ length)
    (hgrow : (s.storages node).accepted = l.ballot → (s.storages node).log.length ≤ length) :
    Inv members { s with
      storages := Function.update s.storages node ⟨l.ballot, l.ballot, l.log.take length⟩ } := by
  have hadopted := adopted_prefix_take (h.leader l hl).2.1 hlen
  refine ⟨?_, ?_, h.unique, h.leader, fun m hm => ?_, fun d hd => ?_⟩
  · apply (Function.forall_update_iff s.storages (fun _ x => x.accepted ≤ x.promised)).mpr
    exact ⟨le_rfl, fun i _ => h.promised i⟩
  · apply (Function.forall_update_iff s.storages
      (fun _ x => Backed s.leaders x.accepted x.log)).mpr
    exact ⟨.inr ⟨l, hl, rfl, hadopted, List.take_prefix _ _⟩, fun i _ => h.storage i⟩
  · refine (h.votes m hm).mono (fun i hi => ?_) (Finset.filter_subset _ _)
    obtain ⟨hmem, hvote, hup⟩ := Finset.mem_filter.mp hi
    refine Finset.mem_filter.mpr ⟨hmem, ?_⟩
    by_cases hin : i = node
    · subst hin
      simp only [Function.update_self]
      exact ⟨hvote.trans hprom, fun hlt => absurd hlt (not_lt.mpr (hvote.trans hprom))⟩
    · simpa [Function.update_of_ne hin] using ⟨hvote, hup⟩
  · obtain ⟨hled, hhold, hlater⟩ := h.decided d hd
    refine ⟨hled, hhold.mono (fun i hi => mem_holders.mpr ?_) (Finset.filter_subset _ _), hlater⟩
    obtain ⟨hmem, hle, hp⟩ := mem_holders.mp hi
    by_cases hin : i = node
    · subst hin
      simp only [Function.update_self]
      exact ⟨hmem, h.accept_keeps hd hl hprom hlen hgrow hle (List.prefix_refl _) hp⟩
    · simpa [Function.update_of_ne hin] using ⟨hmem, hle, hp⟩

/-- What a majority has taken from a leader was adopted by the leaders of all later ballots. -/
theorem Inv.adopted_later (h : Inv members s) {l : Leader E} (hl : l ∈ s.leaders) {p : List E}
    (hmaj : Majority members (members.filter (fun i => (s.storages i).accepted = l.ballot ∧
      p <+: (s.storages i).log))) {m : Leader E} (hm : m ∈ s.leaders)
    (hlt : l.ballot < m.ballot) : p <+: m.adopted := by
  have hpos : 0 < l.ballot := by
    have hsource := (h.leader l hl).1
    omega
  induction hn : m.ballot using Nat.strong_induction_on generalizing m with
  | _ n ih =>
    subst hn
    obtain ⟨i, hi, hbound⟩ := majority_inter hmaj (h.votes m hm)
    obtain ⟨_, hacc, hp⟩ := Finset.mem_filter.mp hi
    obtain ⟨_, _, hup⟩ := Finset.mem_filter.mp hbound
    obtain ⟨hsource, _, hback⟩ := h.leader m hm
    -- `m` adopted its log from a leader before it, for which the claim holds already.
    exact upToDate_holds h.unique (h.storage i) hback hpos hacc.ge hp (hup (hacc ▸ hlt))
      (fun m' hm' hb hlt' => ih m'.ballot (hb ▸ hsource) hm' (hb ▸ hlt') rfl)

theorem Inv.decide (h : Inv members s) {l : Leader E} (hl : l ∈ s.leaders) {length : Nat}
    (hmaj : Majority members (members.filter (fun i => (s.storages i).accepted = l.ballot ∧
      l.log.take length <+: (s.storages i).log))) :
    Inv members { s with decided := (l.ballot, l.log.take length) :: s.decided } := by
  refine ⟨h.promised, h.storage, h.unique, h.leader, h.votes, fun d hd => ?_⟩
  obtain rfl | hd := List.mem_cons.mp hd
  · refine ⟨⟨l, hl, rfl, List.take_prefix _ _⟩, ?_, fun m hm hlt => h.adopted_later hl hmaj hm hlt⟩
    refine hmaj.mono (fun i hi => mem_holders.mpr ?_) (Finset.filter_subset _ _)
    obtain ⟨hmem, hacc, hp⟩ := Finset.mem_filter.mp hi
    exact ⟨hmem, hacc.ge, hp⟩
  · exact h.decided d hd

/-- A node can be spared: without it, everything decided is still held by a majority,
and every leader can still count on one. -/
def Spared (members : Finset N) (s : State N E) (node : N) : Prop :=
  (∀ d ∈ s.decided, Majority members ((s.holders members d).erase node)) ∧
    ∀ l ∈ s.leaders, Majority members ((s.bound members l).erase node)

instance (members : Finset N) (s : State N E) (node : N) : Decidable (Spared members s node) :=
  inferInstanceAs (Decidable (_ ∧ _))

theorem Inv.reset (h : Inv members s) {node : N} (hspared : Spared members s node) :
    Inv members { s with storages := Function.update s.storages node Storage.empty } := by
  refine ⟨?_, ?_, h.unique, h.leader, fun l hl => ?_, fun d hd => ?_⟩
  · apply (Function.forall_update_iff s.storages (fun _ x => x.accepted ≤ x.promised)).mpr
    exact ⟨le_rfl, fun i _ => h.promised i⟩
  · apply (Function.forall_update_iff s.storages
      (fun _ x => Backed s.leaders x.accepted x.log)).mpr
    exact ⟨.inl ⟨rfl, rfl⟩, fun i _ => h.storage i⟩
  · refine (hspared.2 l hl).mono (fun i hi => ?_) (Finset.filter_subset _ _)
    obtain ⟨hne, hi⟩ := Finset.mem_erase.mp hi
    simpa [State.bound, Function.update_of_ne hne] using hi
  · obtain ⟨hled, _, hlater⟩ := h.decided d hd
    refine ⟨hled, (hspared.1 d hd).mono (fun i hi => ?_) (Finset.filter_subset _ _), hlater⟩
    obtain ⟨hne, hi⟩ := Finset.mem_erase.mp hi
    simpa [State.holders, Function.update_of_ne hne] using hi

theorem step_inv (h : Inv members s) {a : Action N E}
    (hreset : ∀ node, a = .reset node → Spared members s node)
    (hstep : step members s a = some t) : Inv members t := by
  have hnext := step_next hstep
  cases a with
  | elect ballot voters best => exact h.elect hnext
  | append ballot entry =>
    obtain rfl := hnext
    exact h.append ballot entry
  | accept node ballot length =>
    obtain ⟨l, hl, rfl, hprom, hlen, hgrow, rfl⟩ := hnext
    exact h.accept hl hprom hlen hgrow
  | decide ballot length =>
    obtain ⟨l, hl, rfl, hmaj, rfl⟩ := hnext
    exact h.decide hl hmaj
  | reset node =>
    obtain rfl := hnext
    exact h.reset (hreset node rfl)

theorem step_decided {a : Action N E} (hstep : step members s a = some t) {d : Nat × List E}
    (hd : d ∈ s.decided) : d ∈ t.decided := by
  have hnext := step_next hstep
  cases a with
  | elect ballot voters best => exact hnext.decided ▸ hd
  | append ballot entry =>
    obtain rfl := hnext
    exact hd
  | accept node ballot length =>
    obtain ⟨l, _, _, _, _, _, rfl⟩ := hnext
    exact hd
  | decide ballot length =>
    obtain ⟨l, _, _, _, rfl⟩ := hnext
    exact List.mem_cons_of_mem _ hd
  | reset node =>
    obtain rfl := hnext
    exact hd

def State.Learned (s : State N E) (node : N) (k : Nat) : Prop :=
  k ≤ (s.storages node).log.length ∧
    ∃ d ∈ s.decided, d.1 ≤ (s.storages node).accepted ∧ (s.storages node).log.take k <+: d.2

instance (s : State N E) (node : N) (k : Nat) : Decidable (s.Learned node k) :=
  inferInstanceAs (Decidable (_ ∧ _))

omit [DecidableEq N] [DecidableEq E] in
theorem State.Learned.of_storage {node : N} {k : Nat} (hk : s.Learned node k)
    (hacc : (t.storages node).accepted = (s.storages node).accepted)
    (hlog : (t.storages node).log = (s.storages node).log)
    (hdecided : ∀ d ∈ s.decided, d ∈ t.decided) :
    t.Learned node k ∧ (t.storages node).log.take k = (s.storages node).log.take k := by
  obtain ⟨hlen, d, hd, hle, hp⟩ := hk
  rw [State.Learned, hlog, hacc]
  exact ⟨⟨hlen, d, hdecided d hd, hle, hp⟩, rfl⟩

omit [DecidableEq N] in
theorem Inv.accept_learned (h : Inv members s) {l : Leader E} (hl : l ∈ s.leaders) {node : N}
    {length : Nat} (hprom : (s.storages node).promised ≤ l.ballot)
    (hlen : l.adopted.length ≤ length)
    (hgrow : (s.storages node).accepted = l.ballot → (s.storages node).log.length ≤ length)
    (ht : t.storages node = ⟨l.ballot, l.ballot, l.log.take length⟩)
    (hdecided : ∀ d ∈ s.decided, d ∈ t.decided) {k : Nat} (hk : s.Learned node k) :
    t.Learned node k ∧ (t.storages node).log.take k = (s.storages node).log.take k := by
  obtain ⟨hklen, d, hd, hle, hp⟩ := hk
  obtain ⟨hdb, hnew⟩ := h.accept_keeps hd hl hprom hlen hgrow hle hp (List.take_prefix _ _)
  have htake : (l.log.take length).take k = (s.storages node).log.take k := by
    have heq := List.prefix_iff_eq_take.mp hnew
    rw [List.length_take, Nat.min_eq_left hklen] at heq
    exact heq.symm
  have hlen' : k ≤ (l.log.take length).length := by
    have hle' := hnew.length_le
    rwa [List.length_take, Nat.min_eq_left hklen] at hle'
  rw [State.Learned, ht, htake]
  exact ⟨⟨hlen', d, hdecided d hd, hdb, hp⟩, rfl⟩

theorem step_learned (h : Inv members s) {a : Action N E} (hstep : step members s a = some t)
    {node : N} (hnode : a ≠ .reset node) {k : Nat} (hk : s.Learned node k) :
    t.Learned node k ∧ (t.storages node).log.take k = (s.storages node).log.take k := by
  have hdecided : ∀ d ∈ s.decided, d ∈ t.decided := fun d hd => step_decided hstep hd
  have hnext := step_next hstep
  cases a with
  | elect ballot voters best => exact hk.of_storage (hnext.accepted node) (hnext.log node) hdecided
  | append ballot entry =>
    obtain rfl := hnext
    exact hk.of_storage rfl rfl hdecided
  | accept i ballot length =>
    obtain ⟨l, hl, rfl, hprom, hlen, hgrow, rfl⟩ := hnext
    by_cases hi : node = i
    · subst hi
      exact h.accept_learned hl hprom hlen hgrow (Function.update_self _ _ _) hdecided hk
    · exact hk.of_storage (by simp [hi]) (by simp [hi]) hdecided
  | decide ballot length =>
    obtain ⟨l, _, rfl, _, rfl⟩ := hnext
    exact hk.of_storage rfl rfl hdecided
  | reset i =>
    have hi : node ≠ i := fun heq => hnode (heq ▸ rfl)
    obtain rfl := hnext
    exact hk.of_storage (by simp [hi]) (by simp [hi]) hdecided

/-- Since an earlier state nothing decided was forgotten, and leaders have been elected
in higher ballots than anything had been decided in. -/
structure Since (s₁ s : State N E) : Prop where
  decided : ∀ d ∈ s₁.decided, d ∈ s.decided
  elected : ∀ l ∈ s.leaders,
    (∃ l₁ ∈ s₁.leaders, l₁.ballot = l.ballot) ∨ ∀ d ∈ s₁.decided, d.1 < l.ballot

omit [DecidableEq N] [DecidableEq E] in
theorem Since.refl (s : State N E) : Since s s :=
  ⟨fun _ hd => hd, fun l hl => .inl ⟨l, hl, rfl⟩⟩

theorem step_since (h : Inv members s) {s₁ : State N E} (hs : Since s₁ s) {a : Action N E}
    (hstep : step members s a = some t) : Since s₁ t := by
  refine ⟨fun d hd => step_decided hstep (hs.decided d hd), fun l hl => ?_⟩
  have hnext := step_next hstep
  cases a with
  | elect ballot voters best =>
    rw [hnext.leaders] at hl
    obtain rfl | hl := List.mem_cons.mp hl
    · exact .inr (fun d hd => (h.best_holds hnext.majority hnext.promise (hs.decided d hd)).1)
    · exact hs.elected l hl
  | append ballot entry =>
    obtain rfl := hnext
    obtain ⟨m, hm, rfl⟩ := List.mem_map.mp hl
    rw [Leader.extend_ballot]
    exact hs.elected m hm
  | accept node ballot length =>
    obtain ⟨m, _, _, _, _, _, rfl⟩ := hnext
    exact hs.elected l hl
  | decide ballot length =>
    obtain ⟨m, _, _, _, rfl⟩ := hnext
    exact hs.elected l hl
  | reset node =>
    obtain rfl := hnext
    exact hs.elected l hl

end OmniPaxosJepsen.Ballots
