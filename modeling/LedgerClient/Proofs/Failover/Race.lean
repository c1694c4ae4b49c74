import LedgerClient.Proofs.Failover.Sequential
import Mathlib.Data.List.Perm.Basic
import Mathlib.Logic.Relation
/-!
# Races, whatever the order in which attempts end

* `Race.Step`         the next waiting node starts, or an attempt under way fails;
* `Race.Reachable`    the states that steps lead to from the start of a call;
* `Race.Sound`        what holds in all of them: at most `c` attempts are under way, every node
                      waits, is under way or has failed, and no node got more than one request;
* `Race.run_eq_ok`, `Race.run_eq_error`   a run ends with a success under way in a reachable state,
                      or in a reachable state where nothing waits and nothing is under way;
* `FailoverClient.race_keeps_contract`    the result of a call, and how it compares to asking one
                      node after the other.
-/

namespace LedgerClient

open Attempt (Succeeds Fails resultOf)

/-- what an attempt may come to whose node's next reply is `reply` -/
inductive Attempt.Outcome (web : Transport) (budget : Budget) (node : String) (reply : Reply) :
    Except NodeError Json → Prop
  | tooLate : budget.deadline ≠ none → Outcome web budget node reply (.error .deadline)
  | replied {limit : Nat} : limit ≤ budget.timeout →
    (budget.deadline = none → limit = budget.timeout) →
    Outcome web budget node reply (resultOf web limit node reply)

namespace Attempt

variable {web : Transport} {budget : Budget} {call : RpcCall} {node : String} {i : Nat}
  {net : Network} {reply : Reply}

theorem start_cases (budget : Budget) (call : RpcCall) (node : String) (i : Nat) (net : Network) :
    (start budget call node i net).1.target = (node, i) ∧
      Outcome net.transport budget node (net.nextReply i) (start budget call node i net).1.result ∧
      ((start budget call node i net).2 = net ∨
        (start budget call node i net).2 = net.asked node i call) := by
  cases hlimit : budget.limit net.now with
  | none =>
    rw [start_of_limit_none call node i hlimit]
    refine ⟨rfl, .tooLate fun hnone => ?_, .inl rfl⟩
    rw [Budget.limit, hnone] at hlimit
    cases hlimit
  | some limit =>
    obtain ⟨time, hstart⟩ := start_of_limit call node i hlimit
    rw [hstart]
    refine ⟨rfl, .replied (Budget.limit_le hlimit) fun hnone => ?_, .inr rfl⟩
    rw [Budget.limit, hnone] at hlimit
    exact (Option.some_inj.1 hlimit).symm

theorem Outcome.succeeds {v : Json} (h : Outcome web budget node reply (.ok v)) :
    ∃ limit ≤ budget.timeout, Succeeds web limit node reply v := by
  generalize hr : (Except.ok v : Except NodeError Json) = r at h
  cases h with
  | tooLate => cases hr
  | replied hle _ => exact ⟨_, hle, resultOf_eq_ok_iff.1 hr.symm⟩

theorem Outcome.fails {e : NodeError} (h : Outcome web budget node reply (.error e))
    (hnone : budget.deadline = none) : Fails web budget.timeout node reply e := by
  generalize hr : (Except.error e : Except NodeError Json) = r at h
  cases h with
  | tooLate hsome => exact absurd hnone hsome
  | replied _ hlimit =>
    rw [hlimit hnone] at hr
    exact resultOf_eq_error_iff.1 hr.symm

end Attempt

namespace Race

/-- the next waiting node starts while there is room, or an attempt under way fails -/
inductive Step (budget : Budget) (call : RpcCall) (c : Nat) : Race → Race → Prop
  | launch {node : String} {i : Nat} {waiting : List (String × Nat)} {inFlight : List Attempt}
    {failures : List NodeFailure} {net : Network} : inFlight.length < c →
    Step budget call c ⟨(node, i) :: waiting, inFlight, failures, net⟩
      ⟨waiting, inFlight ++ [(Attempt.start budget call node i net).1], failures,
        (Attempt.start budget call node i net).2⟩
  | fail {r : Race} {k : Nat} {a : Attempt} {e : NodeError} :
    r.inFlight[k]? = some a → a.result = .error e →
    Step budget call c r ⟨r.waiting, r.inFlight.eraseIdx k, a.failure e :: r.failures,
      r.net.waitUntil a.finish⟩

/-- the states between the start of a call and its first success -/
def Reachable (budget : Budget) (call : RpcCall) (c : Nat) (targets : List (String × Nat))
    (net : Network) : Race → Prop :=
  Relation.ReflTransGen (Step budget call c) (start targets net)

/-- what holds between the start of a call on the network `net` and its first success -/
structure Sound (budget : Budget) (call : RpcCall) (c : Nat) (targets : List (String × Nat))
    (net : Network) (r : Race) : Prop where
  room : r.inFlight.length ≤ c
  partition : (r.waiting ++ (r.inFlight.map Attempt.target ++
    r.failures.map NodeFailure.target)).Perm targets
  untouched : ∀ x ∈ r.waiting, r.net.server x.2 = net.server x.2
  transport : r.net.transport = net.transport
  script : ∀ i, (r.net.server i).script = (net.server i).script
  once : ∀ i, (r.net.server i).sent = (net.server i).sent ∨
    (r.net.server i).sent = (net.server i).sent ++ [call]
  attempted : ∀ a ∈ r.inFlight,
    Attempt.Outcome net.transport budget a.node (net.nextReply a.index) a.result
  failed : ∀ f ∈ r.failures,
    Attempt.Outcome net.transport budget f.node (net.nextReply f.index) (.error f.cause)

variable {budget : Budget} {call : RpcCall} {c : Nat} {targets : List (String × Nat)}
  {net : Network} {r r' : Race}

/-! ## what a step preserves -/

theorem Sound.start (budget : Budget) (call : RpcCall) (c : Nat) (targets : List (String × Nat))
    (net : Network) : Sound budget call c targets net (start targets net) where
  room := Nat.zero_le c
  partition := List.Perm.of_eq (List.append_nil targets)
  untouched := fun _ _ => rfl
  transport := rfl
  script := fun _ => rfl
  once := fun _ => .inl rfl
  attempted := fun _ h => absurd h List.not_mem_nil
  failed := fun _ h => absurd h List.not_mem_nil

theorem Sound.launch {node : String} {i : Nat} {waiting : List (String × Nat)}
    {inFlight : List Attempt} {failures : List NodeFailure} {net' : Network}
    (hnodup : (targets.map Prod.snd).Nodup) (hroom : inFlight.length < c)
    (h : Sound budget call c targets net ⟨(node, i) :: waiting, inFlight, failures, net'⟩) :
    Sound budget call c targets net
      ⟨waiting, inFlight ++ [(Attempt.start budget call node i net').1], failures,
        (Attempt.start budget call node i net').2⟩ := by
  obtain ⟨htarget, houtcome, hnet⟩ := Attempt.start_cases budget call node i net'
  have hfresh : net'.server i = net.server i := h.untouched (node, i) List.mem_cons_self
  have hother : ∀ x ∈ waiting, i ≠ x.2 := by
    have hpart := (h.partition.map Prod.snd).nodup_iff.2 hnodup
    intro x hx heq
    rw [List.cons_append, List.map_cons, List.nodup_cons, List.map_append] at hpart
    exact hpart.1 (List.mem_append_left _ (List.mem_map.2 ⟨x, hx, heq.symm⟩))
  have hweb : net'.transport = net.transport := h.transport
  refine ⟨?_, ?_, ?_, ?_, ?_, ?_, ?_, h.failed⟩
  · rw [List.length_append]
    exact hroom
  · have hmoved : (waiting ++ (inFlight.map Attempt.target ++ (node, i) ::
        failures.map NodeFailure.target)).Perm targets := by
      rw [← List.append_assoc]
      refine List.perm_middle.trans ?_
      rw [List.append_assoc]
      exact h.partition
    rw [List.map_append, List.map_singleton, htarget, List.append_assoc]
    exact hmoved
  · intro x hx
    show (Attempt.start budget call node i net').2.server x.2 = _
    rcases hnet with heq | heq
    · rw [heq]
      exact h.untouched x (List.mem_cons_of_mem _ hx)
    · rw [heq, Network.server_asked_of_ne (hother x hx)]
      exact h.untouched x (List.mem_cons_of_mem _ hx)
  · show (Attempt.start budget call node i net').2.transport = _
    rcases hnet with heq | heq
    · rw [heq]
      exact hweb
    · rw [heq, Network.transport_asked]
      exact hweb
  · intro j
    show ((Attempt.start budget call node i net').2.server j).script = _
    rcases hnet with heq | heq
    · rw [heq]
      exact h.script j
    · rw [heq, Network.script_asked]
      exact h.script j
  · intro j
    show ((Attempt.start budget call node i net').2.server j).sent = _ ∨
      ((Attempt.start budget call node i net').2.server j).sent = _
    rcases hnet with heq | heq
    · rw [heq]
      exact h.once j
    · rw [heq]
      by_cases hij : i = j
      · subst hij
        rw [← hfresh]
        exact Network.sent_asked net' node i call
      · rw [Network.server_asked_of_ne hij]
        exact h.once j
  · intro a ha
    rcases List.mem_append.1 ha with ha | ha
    · exact h.attempted a ha
    · obtain rfl := List.mem_singleton.1 ha
      have hnode : (Attempt.start budget call node i net').1.node = node :=
        congrArg Prod.fst htarget
      have hindex : (Attempt.start budget call node i net').1.index = i :=
        congrArg Prod.snd htarget
      have hreply : net'.nextReply i = net.nextReply i := by
        unfold Network.nextReply
        rw [hfresh]
      rw [hnode, hindex, ← hreply, ← hweb]
      exact houtcome

theorem Sound.fail {k : Nat} {a : Attempt} {e : NodeError} (ha : r.inFlight[k]? = some a)
    (he : a.result = .error e) (h : Sound budget call c targets net r) :
    Sound budget call c targets net ⟨r.waiting, r.inFlight.eraseIdx k, a.failure e :: r.failures,
      r.net.waitUntil a.finish⟩ := by
  obtain ⟨hk, rfl⟩ := List.getElem?_eq_some_iff.1 ha
  have hsub : (r.inFlight.eraseIdx k).Sublist r.inFlight := List.eraseIdx_sublist _ _
  refine ⟨Nat.le_trans hsub.length_le h.room, ?_, h.untouched, h.transport, h.script, h.once,
    fun b hb => h.attempted b (hsub.subset hb), ?_⟩
  · refine List.Perm.trans (List.Perm.append_left _ ?_) h.partition
    have hperm : (r.inFlight[k].target :: (r.inFlight.eraseIdx k).map Attempt.target).Perm
        (r.inFlight.map Attempt.target) :=
      (List.getElem_cons_eraseIdx_perm hk).map Attempt.target
    rw [List.map_cons]
    exact List.perm_middle.trans (hperm.append_right _)
  · intro f hf
    rcases List.mem_cons.1 hf with rfl | hf
    · have hattempted := h.attempted r.inFlight[k] (List.getElem_mem hk)
      rw [he] at hattempted
      exact hattempted
    · exact h.failed f hf

theorem Sound.step (hnodup : (targets.map Prod.snd).Nodup) (hstep : Step budget call c r r')
    (h : Sound budget call c targets net r) : Sound budget call c targets net r' := by
  cases hstep with
  | launch hroom => exact h.launch hnodup hroom
  | fail ha he => exact h.fail ha he

theorem Reachable.sound (hnodup : (targets.map Prod.snd).Nodup)
    (h : Reachable budget call c targets net r) : Sound budget call c targets net r := by
  induction h with
  | refl => exact .start budget call c targets net
  | tail _ hstep ih => exact ih.step hnodup hstep

/-! ## runs -/

theorem length_launch (budget : Budget) (call : RpcCall) (started : List (String × Nat))
    (net : Network) : (launch budget call started net).1.length = started.length := by
  induction started generalizing net with
  | nil => rfl
  | cons x rest ih => exact congrArg (· + 1) (ih (Attempt.start budget call x.1 x.2 net).2)

/-- starting several nodes is starting one after the other -/
theorem launch_steps (budget : Budget) (call : RpcCall) (started waiting : List (String × Nat))
    (inFlight : List Attempt) (failures : List NodeFailure) (net : Network)
    (hroom : started.length ≤ c - inFlight.length) :
    Relation.ReflTransGen (Step budget call c) ⟨started ++ waiting, inFlight, failures, net⟩
      ⟨waiting, inFlight ++ (launch budget call started net).1, failures,
        (launch budget call started net).2⟩ := by
  induction started generalizing inFlight net with
  | nil =>
    show Relation.ReflTransGen (Step budget call c) (Race.mk waiting inFlight failures net)
      ⟨waiting, inFlight ++ [], failures, net⟩
    rw [List.append_nil]
  | cons x rest ih =>
    obtain ⟨node, i⟩ := x
    rw [List.length_cons] at hroom
    have hfirst : Step budget call c ⟨(node, i) :: (rest ++ waiting), inFlight, failures, net⟩ _ :=
      .launch (by omega)
    have hrest := ih (inFlight ++ [(Attempt.start budget call node i net).1])
      (Attempt.start budget call node i net).2
      (by rw [List.length_append, List.length_singleton]; omega)
    rw [List.append_assoc] at hrest
    exact .head hfirst hrest

theorem fill_steps (budget : Budget) (call : RpcCall) (c : Nat) (r : Race) :
    Relation.ReflTransGen (Step budget call c) r (r.fill budget call c) := by
  obtain ⟨waiting, inFlight, failures, net⟩ := r
  have hsteps := launch_steps budget call (waiting.take (c - inFlight.length))
    (waiting.drop (c - inFlight.length)) inFlight failures net
    (List.length_take_le (c - inFlight.length) waiting)
  rw [List.take_append_drop] at hsteps
  exact hsteps

/-- the nodes that have not yet failed -/
def left (r : Race) : Nat := r.waiting.length + r.inFlight.length

theorem left_fill (budget : Budget) (call : RpcCall) (c : Nat) (r : Race) :
    (r.fill budget call c).left = r.left := by
  show (r.waiting.drop _).length + (r.inFlight ++ (launch budget call _ r.net).1).length =
    r.waiting.length + r.inFlight.length
  rw [List.length_drop, List.length_append, length_launch, List.length_take]
  omega

/-- nothing is under way only when nothing is left -/
theorem left_eq_zero_of_fill (hc : 0 < c) (h : (r.fill budget call c).inFlight = []) :
    r.left = 0 := by
  have hlength : (r.inFlight ++ (launch budget call (r.waiting.take (c - r.inFlight.length))
      r.net).1).length = 0 := congrArg List.length h
  rw [List.length_append, length_launch, List.length_take] at hlength
  show r.waiting.length + r.inFlight.length = 0
  omega

theorem finish_cases (k : Nat) (r : Race) :
    (r.inFlight[k]? = none ∧ r.finish k = .error r) ∨
    (∃ a v, r.inFlight[k]? = some a ∧ a.result = .ok v ∧
      r.finish k = .ok (v, r.net.waitUntil a.finish)) ∨
    (∃ a e, r.inFlight[k]? = some a ∧ a.result = .error e ∧ r.finish k = .error ⟨r.waiting,
      r.inFlight.eraseIdx k, a.failure e :: r.failures, r.net.waitUntil a.finish⟩) := by
  unfold finish
  cases ha : r.inFlight[k]? with
  | none => exact .inl ⟨rfl, rfl⟩
  | some a =>
    cases he : a.result with
    | ok v => exact .inr (.inl ⟨a, v, rfl, he, by simp [he]⟩)
    | error e => exact .inr (.inr ⟨a, e, rfl, he, by simp [he]⟩)

variable {order : Order} {rounds : Nat} {net' : Network}

/-- a run that succeeds, at the attempt that ended it -/
theorem run_eq_ok {v : Json} (h : run budget call c order rounds r = (.ok v, net')) :
    ∃ s a, Relation.ReflTransGen (Step budget call c) r s ∧ a ∈ s.inFlight ∧ a.result = .ok v := by
  induction rounds generalizing r with
  | zero => cases h
  | succ n ih =>
    have hfill := fill_steps budget call c r
    rw [run] at h
    rcases finish_cases (order (r.fill budget call c) % max (r.fill budget call c).inFlight.length 1)
      (r.fill budget call c) with ⟨-, hf⟩ | ⟨a, v', ha, hv, hf⟩ | ⟨a, e, ha, he, hf⟩
    · rw [hf] at h
      obtain ⟨s, b, hs, hb⟩ := ih h
      exact ⟨s, b, hfill.trans hs, hb⟩
    · rw [hf] at h
      cases h
      exact ⟨_, a, hfill, List.mem_of_getElem? ha, hv⟩
    · rw [hf] at h
      obtain ⟨s, b, hs, hb⟩ := ih h
      exact ⟨s, b, (hfill.tail (.fail ha he)).trans hs, hb⟩

/-- a run that fails has nothing left to do -/
theorem run_eq_error (hc : 0 < c) {failures : List NodeFailure}
    (h : run budget call c order rounds r = (.error failures, net')) (hrounds : r.left ≤ rounds) :
    ∃ s, Relation.ReflTransGen (Step budget call c) r s ∧ s.waiting = [] ∧ s.inFlight = [] ∧
      failures = s.failures.reverse := by
  induction rounds generalizing r with
  | zero =>
    cases h
    have hleft : r.waiting.length + r.inFlight.length = 0 := Nat.le_zero.1 hrounds
    exact ⟨r, .refl, List.eq_nil_of_length_eq_zero (by omega),
      List.eq_nil_of_length_eq_zero (by omega), rfl⟩
  | succ n ih =>
    have hfill := fill_steps budget call c r
    have hleft := left_fill budget call c r
    rw [run] at h
    rcases finish_cases (order (r.fill budget call c) % max (r.fill budget call c).inFlight.length 1)
      (r.fill budget call c) with ⟨hnone, hf⟩ | ⟨a, v', ha, hv, hf⟩ | ⟨a, e, ha, he, hf⟩
    · -- there is no such position only when nothing is under way
      have hnil : (r.fill budget call c).inFlight = [] := by
        by_contra hne
        have hpos : 0 < (r.fill budget call c).inFlight.length := List.length_pos_iff.2 hne
        have hlt : order (r.fill budget call c) % max (r.fill budget call c).inFlight.length 1 <
            (r.fill budget call c).inFlight.length := by
          rw [Nat.max_eq_left hpos]
          exact Nat.mod_lt _ hpos
        exact absurd (List.getElem?_eq_none_iff.1 hnone) (Nat.not_le.2 hlt)
      have hzero := left_eq_zero_of_fill hc hnil
      rw [hf] at h
      obtain ⟨s, hs, hend⟩ := ih h (by omega)
      exact ⟨s, hfill.trans hs, hend⟩
    · rw [hf] at h
      cases h
    · rw [hf] at h
      obtain ⟨hk, -⟩ := List.getElem?_eq_some_iff.1 ha
      obtain ⟨s, hs, hend⟩ := ih h (by
        show (r.fill budget call c).waiting.length + ((r.fill budget call c).inFlight.eraseIdx _).length ≤ n
        rw [List.length_eraseIdx_of_lt hk]
        unfold left at hleft hrounds
        omega)
      exact ⟨s, (hfill.tail (.fail ha he)).trans hs, hend⟩

end Race

/-! ## calls -/

namespace FailoverClient

variable {c : FailoverClient} {n : Nat} {order : Race.Order} {call : RpcCall}
  {deadline : Option Nat} {net : Network}

theorem callIn_race (c : FailoverClient) (n : Nat) (order : Race.Order) (call : RpcCall)
    (deadline : Option Nat) (net : Network) :
    ((c.withMode (.race n)).callIn order call deadline net).1 =
      (Race.run ⟨c.timeout, deadline⟩ call (max n 1) order c.targets.length
        (Race.start c.targets net)).1.mapError (FailoverError.ofFailures call.method) := by
  cases n with
  | zero => rfl
  | succ n => rfl

/-- a success is that of an attempt under way -/
theorem race_eq_ok {v : Json}
    (h : ((c.withMode (.race n)).callIn order call deadline net).1 = .ok v) :
    ∃ s a, Race.Reachable ⟨c.timeout, deadline⟩ call (max n 1) c.targets net s ∧
      a ∈ s.inFlight ∧ a.result = .ok v := by
  rw [callIn_race] at h
  cases hrun : Race.run ⟨c.timeout, deadline⟩ call (max n 1) order c.targets.length
      (Race.start c.targets net) with
  | mk r net' =>
    rw [hrun] at h
    cases r with
    | ok w =>
      cases h
      exact Race.run_eq_ok hrun
    | error failures => cases h

/-- a failure comes when nothing is left -/
theorem race_eq_error {e : FailoverError}
    (h : ((c.withMode (.race n)).callIn order call deadline net).1 = .error e) :
    ∃ s, Race.Reachable ⟨c.timeout, deadline⟩ call (max n 1) c.targets net s ∧
      s.waiting = [] ∧ s.inFlight = [] ∧
      e = FailoverError.ofFailures call.method s.failures.reverse := by
  rw [callIn_race] at h
  cases hrun : Race.run ⟨c.timeout, deadline⟩ call (max n 1) order c.targets.length
      (Race.start c.targets net) with
  | mk r net' =>
    rw [hrun] at h
    cases r with
    | ok w => cases h
    | error failures =>
      cases h
      obtain ⟨s, hs, hw, hi, rfl⟩ :=
        Race.run_eq_error (Nat.lt_of_lt_of_le Nat.zero_lt_one (Nat.le_max_right n 1)) hrun
          (Nat.le_refl _)
      exact ⟨s, hs, hw, hi, rfl⟩

theorem target_mem_of_inFlight {s : Race} {a : Attempt} {budget : Budget} {m : Nat}
    (h : Race.Sound budget call m c.targets net s) (ha : a ∈ s.inFlight) : a.target ∈ c.targets :=
  h.partition.subset
    (List.mem_append_right _ (List.mem_append_left _ (List.mem_map_of_mem ha)))

/-- every node stands among the failures, in the order of the nodes -/
theorem map_target_of_race {e : FailoverError}
    (h : ((c.withMode (.race n)).callIn order call deadline net).1 = .error e) :
    e.failures.map NodeFailure.target = c.targets := by
  obtain ⟨s, hs, hw, hi, rfl⟩ := race_eq_error h
  have hpart := (hs.sound c.nodup_targets).partition
  rw [hw, hi] at hpart
  refine FailoverError.map_target_ofFailures ?_
  rw [List.map_reverse]
  exact (List.reverse_perm _).trans hpart

/-- without a deadline a race fails only when every node does -/
theorem race_fails_iff (c : FailoverClient) (n : Nat) (order : Race.Order) (call : RpcCall)
    (net : Network) :
    (∃ e, ((c.withMode (.race n)).callIn order call none net).1 = .error e) ↔
      ∀ x ∈ c.targets, ∃ e, Fails net.transport c.timeout x.1 (net.nextReply x.2) e := by
  constructor
  · rintro ⟨e, h⟩ x hx
    have htargets := map_target_of_race h
    obtain ⟨s, hs, -, -, rfl⟩ := race_eq_error h
    rw [← htargets] at hx
    obtain ⟨f, hf, rfl⟩ := List.mem_map.1 hx
    have hmem : f ∈ s.failures :=
      List.mem_reverse.1 ((FailoverError.perm_ofFailures call.method s.failures.reverse).subset hf)
    exact ⟨f.cause, ((hs.sound c.nodup_targets).failed f hmem).fails rfl⟩
  · intro hfails
    cases h : ((c.withMode (.race n)).callIn order call none net).1 with
    | error e => exact ⟨e, rfl⟩
    | ok v =>
      obtain ⟨s, a, hs, ha, hv⟩ := race_eq_ok h
      have hsound := hs.sound c.nodup_targets
      have hattempted := hsound.attempted a ha
      rw [hv] at hattempted
      obtain ⟨limit, hle, hsucceeds⟩ := hattempted.succeeds
      obtain ⟨e, he⟩ := hfails a.target (target_mem_of_inFlight hsound ha)
      exact absurd he (hsucceeds.mono hle).not_fails

/-- a call in race mode, for all nodes, all numbers of attempts at once, all orders in which they
end, and all networks -/
theorem race_keeps_contract (c : FailoverClient) (n : Nat) (order : Race.Order) (call : RpcCall)
    (deadline : Option Nat) (net : Network) :
    let budget : Budget := ⟨c.timeout, deadline⟩
    let Reached := Race.Reachable budget call (max n 1) c.targets net
    let result := ((c.withMode (.race n)).callIn order call deadline net).1
    (∀ s, Reached s → Race.Sound budget call (max n 1) c.targets net s) ∧
    (∀ v, result = .ok v → ∃ s a limit, Reached s ∧ a ∈ s.inFlight ∧ a.result = .ok v ∧
      a.target ∈ c.targets ∧ limit ≤ c.timeout ∧
      Succeeds net.transport limit a.node (net.nextReply a.index) v) ∧
    (∀ e, result = .error e → e.failures.map NodeFailure.target = c.targets ∧
      ∃ s, Reached s ∧ s.waiting = [] ∧ s.inFlight = [] ∧
        e = FailoverError.ofFailures call.method s.failures.reverse) ∧
    (deadline = none → ((∃ e, result = .error e) ↔
      ∀ x ∈ c.targets, ∃ e, Fails net.transport c.timeout x.1 (net.nextReply x.2) e)) ∧
    (∀ e e' net', result = .error e →
      ((c.withMode .sequential).call call none net').1 = .error e' →
      (∀ f ∈ e.failures, ∀ f' ∈ e'.failures, f.index = f'.index → f.message = f'.message) →
      e.attempts = e'.attempts ∧ e.message = e'.message) := by
  intro budget Reached result
  refine ⟨fun s hs => hs.sound c.nodup_targets, ?_, ?_, ?_, ?_⟩
  · intro v hv
    obtain ⟨s, a, hs, ha, hav⟩ := race_eq_ok hv
    have hsound := hs.sound c.nodup_targets
    have hattempted := hsound.attempted a ha
    rw [hav] at hattempted
    obtain ⟨limit, hle, hsucceeds⟩ := hattempted.succeeds
    exact ⟨s, a, limit, hs, ha, hav, target_mem_of_inFlight hsound ha, hle, hsucceeds⟩
  · intro e he
    exact ⟨map_target_of_race he, race_eq_error he⟩
  · rintro rfl
    exact race_fails_iff c n order call net
  · intro e e' net' he he' hmessages
    have hsequential : e'.failures.map NodeFailure.target = c.targets :=
      map_target_of_call (c := c.withMode .sequential) rfl he'
    have hattempts := FailoverError.attempts_eq ((map_target_of_race he).trans hsequential.symm)
      hmessages
    exact ⟨hattempts, FailoverError.message_eq_of_attempts_eq hattempts⟩

end FailoverClient

end LedgerClient
