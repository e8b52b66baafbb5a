import OmniPaxosJepsen.NodeLines
import OmniPaxosJepsen.Refinement
import OmniPaxosJepsen.Totals

namespace OmniPaxosJepsen.Traffic

open Json Node Checker Cluster EventLoop NodeLines Totals Refinement
open Harness (HarnessState isClientResponse responseEntry isInternal actor)
open HarnessStep (requestMessage invokeEntry)
open Routing (src dest)

/-- The abstract harness accounts for the lines on their way: `hands` are those that the
harness has read and not dealt with, `out` those that the nodes have written and it has not
read, `inp` those written to the nodes and not handled. -/
structure Carried (lib : Library) (ids : List String) (hands : Multiset Value)
    (out inp : String → List Value) (u : HarnessState) : Prop where
  stdin : (u.stdin : Multiset (String × Value)) = (total ids inp).filterMap request
  stdout : (u.stdout : Multiset (String × Value)) = (hands + total ids out).filterMap response
  inFlight : (u.cluster.inFlight : Multiset (String × MaelstromCommand)) =
    (hands + total ids out + total ids inp).filterMap (forward lib)
  inHands : ∀ msg ∈ hands, ∃ n, Written lib n msg
  written : ∀ n ∈ ids, ∀ msg ∈ out n, Written lib n msg
  readable : ∀ n ∈ ids, ∀ msg ∈ inp n, dest msg = n ∧ Readable lib msg

/-- Nothing but lines on their way is lost. -/
def Quiet (u v : HarnessState) : Prop :=
  ∃ inFlight dropped stdout, v = { u with
    cluster := { u.cluster with inFlight := inFlight, dropped := dropped }
    stdout := stdout }

section Steps

variable {members : Finset String} {u : HarnessState}

theorem step_internal (node : String) (msgs : List Value) {a : Cluster.Action}
    {cluster : ClusterState} (hinternal : isInternal a = true)
    (halive : ∀ n, actor u.cluster a = some n → n ∉ u.killedNodes)
    (hstep : Cluster.step members u.cluster a = some cluster)
    (hhistory : cluster.history = u.cluster.history ++ msgs.map (Observed.response node)) :
    Harness.step members u (.internal a) = some { u with
      cluster := cluster, stdout := u.stdout ++ msgs.map (fun msg => (node, msg)) } := by
  have hall : (actor u.cluster a).all (fun n => n ∉ u.killedNodes) = true := by
    cases hactor : actor u.cluster a with
    | none => rfl
    | some n => simpa using halive n hactor
  rw [Harness.step, if_pos hinternal, HarnessState.advance, if_pos hall, hstep, Option.map_some,
    hhistory, List.drop_left, List.filterMap_map]
  congr 2
  exact congrArg _ (List.filterMap_eq_map (f := fun msg => (node, msg)) ▸ rfl)

theorem step_unseen {a : Cluster.Action} {cluster : ClusterState} (hinternal : isInternal a = true)
    (halive : ∀ n, actor u.cluster a = some n → n ∉ u.killedNodes)
    (hstep : Cluster.step members u.cluster a = some cluster)
    (hhistory : cluster.history = u.cluster.history) :
    Harness.step members u (.internal a) = some { u with cluster := cluster } := by
  have h := step_internal "" [] hinternal halive hstep (by simp [hhistory])
  rwa [List.map_nil, List.append_nil] at h

theorem reaches_drop {i : Nat} {m : String × MaelstromCommand}
    (hm : u.cluster.inFlight[i]? = some m) : Reaches (Harness.step members) u { u with
      cluster := { u.cluster with
        inFlight := u.cluster.inFlight.eraseIdx i, dropped := u.cluster.dropped ++ [m.2] } } := by
  have hdrop : Cluster.step members u.cluster (.drop i) = some { u.cluster with
      inFlight := u.cluster.inFlight.eraseIdx i, dropped := u.cluster.dropped ++ [m.2] } := by
    simp only [Cluster.step, hm, Option.map_some]
  exact .single (step_unseen rfl (fun n hn => by cases hn) hdrop rfl)

theorem exists_drops (members : Finset String) (lost : Multiset (String × MaelstromCommand)) :
    ∀ {u : HarnessState} {kept : Multiset (String × MaelstromCommand)},
      (u.cluster.inFlight : Multiset (String × MaelstromCommand)) = lost + kept →
      ∃ inFlight dropped, Reaches (Harness.step members) u { u with
          cluster := { u.cluster with inFlight := inFlight, dropped := dropped } } ∧
        (inFlight : Multiset (String × MaelstromCommand)) = kept := by
  induction lost using Multiset.induction_on with
  | empty =>
    intro u kept h
    exact ⟨u.cluster.inFlight, u.cluster.dropped, .refl u, by rw [h, zero_add]⟩
  | cons m lost ih =>
    intro u kept h
    rw [Multiset.cons_add] at h
    obtain ⟨i, hm, hrest⟩ := exists_eraseIdx h
    obtain ⟨inFlight, dropped, hreach, hkept⟩ := ih (u := { u with
      cluster := { u.cluster with
        inFlight := u.cluster.inFlight.eraseIdx i, dropped := u.cluster.dropped ++ [m.2] } }) hrest
    exact ⟨inFlight, dropped, (reaches_drop hm).trans hreach, hkept⟩

theorem exists_discards (members : Finset String) (lost : Multiset (String × Value)) :
    ∀ {u : HarnessState} {kept : Multiset (String × Value)},
      (u.stdout : Multiset (String × Value)) = lost + kept →
      ∃ stdout, Reaches (Harness.step members) u { u with stdout := stdout } ∧
        (stdout : Multiset (String × Value)) = kept := by
  induction lost using Multiset.induction_on with
  | empty =>
    intro u kept h
    exact ⟨u.stdout, .refl u, by rw [h, zero_add]⟩
  | cons m lost ih =>
    intro u kept h
    rw [Multiset.cons_add] at h
    obtain ⟨i, hm, hrest⟩ := exists_eraseIdx h
    have hstep : Harness.step members u (.discard i) =
        some { u with stdout := u.stdout.eraseIdx i } := by
      simp [Harness.step, hm]
    obtain ⟨stdout, hreach, hkept⟩ := ih (u := { u with stdout := u.stdout.eraseIdx i }) hrest
    exact ⟨stdout, (Reaches.single hstep).trans hreach, hkept⟩

end Steps

section Moves

variable {lib : Library} {ids : List String} {hands lost : Multiset Value}
  {out out' inp inp' : String → List Value} {u v : HarnessState} {n : String} {msg : Value}

theorem Carried.of_eq (h : Carried lib ids hands out inp u) (hstdin : v.stdin = u.stdin)
    (hstdout : v.stdout = u.stdout) (hinFlight : v.cluster.inFlight = u.cluster.inFlight) :
    Carried lib ids hands out inp v :=
  ⟨by rw [hstdin, h.stdin], by rw [hstdout, h.stdout], by rw [hinFlight, h.inFlight], h.inHands,
    h.written, h.readable⟩

/-- The harness loses lines that it has read. -/
theorem Carried.lose (h : Carried lib ids (lost + hands) out inp u) :
    ∃ v, Reaches (Harness.step ids.toFinset) u v ∧ Quiet u v ∧
      Carried lib ids hands out inp v := by
  have hflight := h.inFlight
  have hstdout := h.stdout
  rw [add_assoc, add_assoc, ← add_assoc hands, Multiset.filterMap_add] at hflight
  rw [add_assoc, Multiset.filterMap_add] at hstdout
  obtain ⟨inFlight, dropped, hdrops, hinFlight⟩ := exists_drops ids.toFinset _ hflight
  obtain ⟨stdout, hdiscards, hstdout'⟩ := exists_discards ids.toFinset _ (u := { u with
    cluster := { u.cluster with inFlight := inFlight, dropped := dropped } }) hstdout
  refine ⟨_, hdrops.trans hdiscards, ⟨inFlight, dropped, stdout, rfl⟩, ?_⟩
  exact ⟨h.stdin, hstdout', hinFlight,
    fun msg hmsg => h.inHands msg (Multiset.mem_add.mpr (.inr hmsg)), h.written, h.readable⟩

theorem Carried.read (h : Carried lib ids hands out inp u) (hn : n ∈ ids)
    (hother : ∀ m, m ≠ n → out' m = out m) (msgs : List Value)
    (hself : (out n).Perm (msgs ++ out' n)) : Carried lib ids (msgs + hands) out' inp u := by
  have htotal : total ids out' + msgs = total ids out := by
    have hchange := total_change (a := (msgs : Multiset Value)) (b := 0) hn hother (by
      rw [add_zero, add_comm, Multiset.coe_add]
      exact (Multiset.coe_eq_coe.mpr hself).symm)
    rwa [add_zero] at hchange
  have hsum : (msgs : Multiset Value) + hands + total ids out' = hands + total ids out := by
    rw [← htotal, add_comm (msgs : Multiset Value), add_assoc, add_comm (msgs : Multiset Value)]
  have hsub : ∀ m ∈ ids, ∀ msg ∈ out' m, msg ∈ out m := by
    intro m _ msg hmsg
    by_cases hm : m = n
    · subst hm
      exact hself.mem_iff.mpr (List.mem_append_right _ hmsg)
    · rwa [hother m hm] at hmsg
  refine ⟨h.stdin, by rw [hsum, h.stdout], by rw [hsum, h.inFlight], fun msg hmsg => ?_,
    fun m hm msg hmsg => h.written m hm msg (hsub m hm msg hmsg), h.readable⟩
  obtain hmsg | hmsg := Multiset.mem_add.mp hmsg
  · exact ⟨n, h.written n hn msg (hself.mem_iff.mpr (List.mem_append_left _ hmsg))⟩
  · exact h.inHands msg hmsg

theorem Carried.send (h : Carried lib ids (msg ::ₘ hands) out inp u) (hn : n ∈ ids)
    (hother : ∀ m, m ≠ n → inp' m = inp m) (hself : inp' n = inp n ++ [msg])
    (hdest : dest msg = n) :
    ∃ v, Reaches (Harness.step ids.toFinset) u v ∧ Quiet u v ∧
      Carried lib ids hands out inp' v := by
  obtain ⟨sender, hwritten⟩ := h.inHands msg (Multiset.mem_cons_self msg hands)
  have htotal : total ids inp' = total ids inp + {msg} := total_append hn hother hself
  have hrequest : request msg = none := by simp [request, hwritten.request]
  have hstdin : (u.stdin : Multiset (String × Value)) = (total ids inp').filterMap request := by
    rw [h.stdin, htotal, Multiset.filterMap_add, ← Multiset.cons_zero,
      Multiset.filterMap_cons_none msg 0 hrequest, Multiset.filterMap_zero, add_zero]
  have hinFlight : (u.cluster.inFlight : Multiset (String × MaelstromCommand)) =
      (hands + total ids out + total ids inp').filterMap (forward lib) := by
    rw [h.inFlight, htotal, ← Multiset.singleton_add]
    congr 1
    abel
  have hlost : ((msg ::ₘ hands) + total ids out).filterMap response =
      Multiset.filterMap response {msg} + (hands + total ids out).filterMap response := by
    rw [← Multiset.filterMap_add, ← Multiset.singleton_add, add_assoc]
  -- a response that is not for a client is lost at the node
  obtain ⟨stdout, hreach, hstdout⟩ :=
    exists_discards ids.toFinset _ (h.stdout.trans hlost)
  refine ⟨_, hreach, ⟨_, _, stdout, rfl⟩, hstdin, hstdout, hinFlight,
    fun m hm => h.inHands m (Multiset.mem_cons_of_mem hm), h.written, fun m hm line hline => ?_⟩
  by_cases hmn : m = n
  · subst hmn
    rw [hself, List.mem_append, List.mem_singleton] at hline
    obtain hline | rfl := hline
    · exact h.readable m hm line hline
    · exact ⟨hdest, hwritten.readable⟩
  · rw [hother m hmn] at hline
    exact h.readable m hm line hline

theorem Carried.record (h : Carried lib ids (msg ::ₘ hands) out inp u)
    (hclient : isClientResponse msg = true) {now : U128} (hnow : u.now ≤ now) :
    ∃ stdout, Reaches (Harness.step ids.toFinset) u { u with
        stdout := stdout, history := u.history ++ [responseEntry msg now], now := now } ∧
      Carried lib ids hands out inp { u with
        stdout := stdout, history := u.history ++ [responseEntry msg now], now := now } := by
  obtain ⟨sender, hwritten⟩ := h.inHands msg (Multiset.mem_cons_self msg hands)
  have hresponse := hwritten.client hclient
  have hsome : response msg = some (src msg, msg) := by simp [response, hresponse]
  have hforward : forward lib msg = none := forward_of_isResponse hresponse
  have hstdout := h.stdout
  rw [Multiset.cons_add, Multiset.filterMap_cons_some _ _ _ hsome] at hstdout
  obtain ⟨i, hm, hrest⟩ := exists_eraseIdx hstdout
  have hstep : Harness.step ids.toFinset u (.recordResponse i now) = some { u with
      stdout := u.stdout.eraseIdx i
      history := u.history ++ [responseEntry msg now]
      now := now } := by
    simp [Harness.step, hm, hclient, hnow, HarnessState.recordResponse]
  have hinFlight := h.inFlight
  rw [Multiset.cons_add, Multiset.cons_add, Multiset.filterMap_cons_none _ _ hforward] at hinFlight
  exact ⟨u.stdout.eraseIdx i, .single hstep, h.stdin, hrest, hinFlight,
    fun m hm => h.inHands m (Multiset.mem_cons_of_mem hm), h.written, h.readable⟩

theorem Carried.write (h : Carried lib ids hands out inp u) (hn : n ∈ ids)
    (hother : ∀ m, m ≠ n → out' m = out m) (msgs : List Value) (hself : out' n = out n ++ msgs)
    (hmsgs : ∀ msg ∈ msgs, Written lib n msg) (hstdin : v.stdin = u.stdin)
    (hstdout : v.stdout = u.stdout ++ msgs.filterMap response)
    (hinFlight : v.cluster.inFlight = u.cluster.inFlight ++ msgs.filterMap (forward lib)) :
    Carried lib ids hands out' inp v := by
  have htotal : total ids out' = total ids out + msgs := total_append hn hother hself
  refine ⟨by rw [hstdin, h.stdin], ?_, ?_, h.inHands, fun m hm line hline => ?_, h.readable⟩
  · rw [hstdout, ← Multiset.coe_add, h.stdout, ← Multiset.filterMap_coe, ← Multiset.filterMap_add,
      htotal, add_assoc]
  · rw [hinFlight, ← Multiset.coe_add, h.inFlight, ← Multiset.filterMap_coe,
      ← Multiset.filterMap_add, htotal, ← add_assoc hands, add_right_comm]
  · by_cases hmn : m = n
    · subst hmn
      rw [hself, List.mem_append] at hline
      exact hline.elim (h.written m hm line) (hmsgs line)
    · rw [hother m hmn] at hline
      exact h.written m hm line hline

theorem Carried.take (h : Carried lib ids hands out inp u) (hn : n ∈ ids)
    (hother : ∀ m, m ≠ n → inp' m = inp m) (hself : inp n = msg :: inp' n)
    (hstdin : (u.stdin : Multiset (String × Value)) = Multiset.filterMap request {msg} + v.stdin)
    (hstdout : v.stdout = u.stdout)
    (hinFlight : (u.cluster.inFlight : Multiset (String × MaelstromCommand)) =
      Multiset.filterMap (forward lib) {msg} + v.cluster.inFlight) :
    Carried lib ids hands out inp' v := by
  have htotal : total ids inp = {msg} + total ids inp' := by
    have hchange := total_change (a := ({msg} : Multiset Value)) (b := 0) hn hother (by
      rw [hself, add_zero, add_comm, ← Multiset.cons_coe, Multiset.singleton_add])
    rw [← add_zero (total ids inp), ← hchange, add_comm]
  refine ⟨?_, by rw [hstdout, h.stdout], ?_, h.inHands, h.written, fun m hm line hline => ?_⟩
  · have hall := h.stdin
    rw [htotal, Multiset.filterMap_add, hstdin] at hall
    exact add_left_cancel hall
  · have hall := h.inFlight
    rw [htotal, add_left_comm, Multiset.filterMap_add, hinFlight] at hall
    exact add_left_cancel hall
  · apply h.readable m hm
    by_cases hmn : m = n
    · subst hmn
      rw [hself]
      exact List.mem_cons_of_mem _ hline
    · rwa [hother m hmn] at hline

theorem Carried.operate (h : Carried lib ids hands out inp u) (hn : n ∈ ids)
    (hkilled : n ∉ u.killedNodes) (hother : ∀ m, m ≠ n → inp' m = inp m)
    {client opType key : String} {value casFrom casTo : Option Value}
    {fields : List (String × Value)}
    (hself : inp' n = inp n ++ [requestMessage u.nextOpId n client opType key fields])
    (htype : opType ∈ ["read", "write", "cas"])
    (hfields : Harness.requestFields opType value casFrom casTo = some fields) {now : U128}
    (hnow : u.now ≤ now) (hv : v = { u with
      nextOpId := u.nextOpId + 1
      history := u.history ++ [invokeEntry u.nextOpId client opType key value casFrom casTo now]
      stdin := u.stdin ++ [(n, requestMessage u.nextOpId n client opType key fields)]
      now := now }) :
    Reaches (Harness.step ids.toFinset) u v ∧ Carried lib ids hands out inp' v := by
  subst hv
  obtain ⟨hrequest, hreadable⟩ : _ ∧ Readable lib _ :=
    readable_requestMessage htype u.nextOpId n client key fields
  have hdest : dest (requestMessage u.nextOpId n client opType key fields) = n := dest_message _ _ _
  generalize hmsg : requestMessage u.nextOpId n client opType key fields = msg at *
  have hstep : Harness.step ids.toFinset u
      (.sendOperation n client opType key value casFrom casTo now) = some { u with
        nextOpId := u.nextOpId + 1
        history := u.history ++ [invokeEntry u.nextOpId client opType key value casFrom casTo now]
        stdin := u.stdin ++ [(n, msg)]
        now := now } := by
    rw [Harness.step, if_pos ⟨List.mem_toFinset.mpr hn, hkilled, hnow⟩,
      HarnessState.sendOperation, hfields, ← hmsg]
    rfl
  have htotal : total ids inp' = total ids inp + {msg} := total_append hn hother hself
  have hforward : forward lib msg = none := by
    obtain ht | ht | ht := (isClientRequest_iff msg).mp hrequest <;> simp [forward, ht]
  refine ⟨.single hstep, ?_, h.stdout, ?_, h.inHands, h.written, fun m hm line hline => ?_⟩
  · rw [← Multiset.coe_add, h.stdin, htotal, Multiset.filterMap_add]
    simp [← Multiset.cons_zero, Multiset.filterMap_cons_some request msg 0
      (show request msg = some (n, msg) by simp [request, hrequest, hdest])]
  · rw [h.inFlight, htotal, ← add_assoc, Multiset.filterMap_add _ _ {msg}, ← Multiset.cons_zero,
      Multiset.filterMap_cons_none _ _ hforward, Multiset.filterMap_zero, add_zero]
  · by_cases hmn : m = n
    · subst hmn
      rw [hself, List.mem_append, List.mem_singleton] at hline
      obtain hline | rfl := hline
      · exact h.readable m hm line hline
      · exact ⟨hdest, hreadable⟩
    · rw [hother m hmn] at hline
      exact h.readable m hm line hline

theorem Carried.kill (h : Carried lib ids hands out inp u) (hn : n ∈ ids)
    (hother : ∀ m, m ≠ n → inp' m = inp m) (hself : inp' n = []) :
    ∃ inFlight dropped stdin, Reaches (Harness.step ids.toFinset) u { u with
        cluster := { u.cluster with inFlight := inFlight, dropped := dropped }
        killedNodes := u.killedNodes ++ [n]
        stdin := stdin } ∧
      Carried lib ids hands out inp' { u with
        cluster := { u.cluster with inFlight := inFlight, dropped := dropped }
        killedNodes := u.killedNodes ++ [n]
        stdin := stdin } := by
  have htotal : total ids inp = inp n + total ids inp' := by
    have hchange := total_change (a := (inp n : Multiset Value)) (b := 0) hn hother
      (by rw [hself, Multiset.coe_nil, zero_add, add_zero])
    rw [← add_zero (total ids inp), ← hchange, add_comm]
  have hflight := h.inFlight
  rw [htotal, add_left_comm, Multiset.filterMap_add] at hflight
  obtain ⟨inFlight, dropped, hdrops, hinFlight⟩ :=
    exists_drops ids.toFinset _ hflight
  have hstep : Harness.step ids.toFinset { u with
      cluster := { u.cluster with inFlight := inFlight, dropped := dropped } } (.kill n) =
      some { u with
        cluster := { u.cluster with inFlight := inFlight, dropped := dropped }
        killedNodes := u.killedNodes ++ [n]
        stdin := u.stdin.filter (fun m => m.1 ≠ n) } := if_pos (List.mem_toFinset.mpr hn)
  have hsub : ∀ m ∈ ids, ∀ msg ∈ inp' m, m ≠ n ∧ msg ∈ inp m := by
    intro m _ msg hmsg
    have hne : m ≠ n := by
      rintro rfl
      rw [hself] at hmsg
      cases hmsg
    exact ⟨hne, hother m hne ▸ hmsg⟩
  have hgone : ((inp n : Multiset Value).filterMap request).filter (fun m => m.1 ≠ n) = 0 := by
    rw [Multiset.filter_eq_nil]
    intro m hm
    obtain ⟨msg, hmsg, hrequest⟩ := (Multiset.mem_filterMap _ _).mp hm
    simp only [request, Option.ite_none_right_eq_some, Option.some.injEq] at hrequest
    obtain ⟨_, rfl⟩ := hrequest
    exact not_not.mpr (h.readable n hn msg hmsg).1
  have hkept : ((total ids inp').filterMap request).filter (fun m => m.1 ≠ n) =
      (total ids inp').filterMap request := by
    rw [Multiset.filter_eq_self]
    intro m hm
    obtain ⟨msg, hmsg, hrequest⟩ := (Multiset.mem_filterMap _ _).mp hm
    obtain ⟨k, hk, hmsg⟩ := mem_total.mp hmsg
    obtain ⟨hne, hmem⟩ := hsub k hk msg hmsg
    simp only [request, Option.ite_none_right_eq_some, Option.some.injEq] at hrequest
    obtain ⟨_, rfl⟩ := hrequest
    rwa [(h.readable k hk msg hmem).1]
  refine ⟨inFlight, dropped, _, hdrops.trans (.single hstep), ?_, h.stdout, hinFlight, h.inHands,
    h.written, fun m hm line hline => h.readable m hm line (hsub m hm line hline).2⟩
  rw [← Multiset.filter_coe, h.stdin, htotal, Multiset.filterMap_add, Multiset.filter_add, hgone,
    hkept, zero_add]

end Moves

end OmniPaxosJepsen.Traffic
