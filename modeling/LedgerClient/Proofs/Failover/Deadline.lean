import LedgerClient.Proofs.Failover.Race
import LedgerClient.Proofs.Failover.Turns
/-!
# One attempt at a time, and the deadline

A race with one attempt at a time starts a node when the one before it has failed, as a call does
that asks one node after the other. They part at the deadline: the call stops there, the race goes
on to record for each node left that the deadline has been reached. No time passes and no request
is sent while it does, so what either leaves behind on the network is the same.

* `NodeError.message_eq_iff`            only a reached deadline is told as one;
* `Race.run_one`                        a race with one attempt at a time, by the other call;
* `Race.run_of_reachable`               all states of such a race lead to one end;
* `Race.servers_run_of_deadline`        from the deadline on it sends nothing;
* `FailoverClient.race_one_as_sequential`   both calls side by side.
-/

namespace LedgerClient

/-! ## the message of a reached deadline -/

namespace NodeError

/-- the letter that a message starts with -/
def initial : NodeError → Char
  | .url _ => 'b'
  | .connection _ _ => 'e'
  | .status _ _ => 'H'
  | .badResponse _ => 'i'
  | .rpc _ => 'R'
  | .timedOut _ => 'r'
  | .deadline => 'd'

theorem head?_append {s t : String} {c : Char} (h : s.toList.head? = some c) :
    (s ++ t).toList.head? = some c := by
  rw [String.toList_append, List.head?_append, h]
  rfl

theorem head?_message (e : NodeError) : e.message.toList.head? = some e.initial := by
  cases e with
  | url detail => exact head?_append (show "builder error".toList.head? = some 'b' by decide)
  | connection url reason =>
    exact head?_append (head?_append (head?_append
      (show "error sending request for url (".toList.head? = some 'e' by decide)))
  | status code body =>
    exact head?_append (head?_append (head?_append
      (show "HTTP ".toList.head? = some 'H' by decide)))
  | badResponse reason =>
    exact head?_append (show "invalid JSON-RPC response: ".toList.head? = some 'i' by decide)
  | rpc e =>
    exact head?_append (head?_append (head?_append
      (head?_append (show "RPC error ".toList.head? = some 'R' by decide))))
  | timedOut n =>
    exact head?_append (show "request timed out after ".toList.head? = some 'r' by decide)
  | deadline => decide

/-- no other error is shown as a reached deadline -/
theorem message_eq_iff {e : NodeError} : e.message = "deadline exceeded" ↔ e = .deadline := by
  constructor
  · intro h
    have hletter : e.message.toList.head? = some 'd' := by
      rw [h]
      decide
    rw [head?_message] at hletter
    cases e with
    | deadline => rfl
    | _ => simp [initial] at hletter
  · rintro rfl
    rfl

end NodeError

/-! ## the failures of a call -/

namespace Sequential

open Attempt (Succeeds Fails)

variable {budget : Budget} {call : RpcCall} {net : Network} {targets : List (String × Nat)}
  {failures : List NodeFailure}

/-- the failures of a call are those of the first nodes; if nodes are left, the last failure is
that the deadline has been reached, and no other failure is -/
structure Recorded (targets : List (String × Nat)) (failures : List NodeFailure) : Prop where
  target : failures.map NodeFailure.target = targets.take failures.length
  early : ∀ f ∈ failures.dropLast, f.cause ≠ .deadline
  late : failures.length < targets.length → ∃ f, failures.getLast? = some f ∧ f.cause = .deadline

theorem Recorded.cons {f : NodeFailure} {rest : List (String × Nat)} (hf : f.cause ≠ .deadline)
    (h : Recorded rest failures) : Recorded (f.target :: rest) (f :: failures) where
  target := by
    rw [List.map_cons, h.target]
    rfl
  early := by
    intro g hg
    cases failures with
    | nil => cases hg
    | cons f' failures =>
      rw [List.dropLast_cons_cons] at hg
      rcases List.mem_cons.1 hg with rfl | hg
      · exact hf
      · exact h.early g hg
  late := by
    intro hlt
    obtain ⟨g, hg, hcause⟩ := h.late (Nat.lt_of_succ_lt_succ hlt)
    refine ⟨g, ?_, hcause⟩
    rw [List.getLast?_cons, hg]
    rfl

/-- induction on the nodes; only the deadline ends a call before the last one -/
theorem recorded_of_run (h : (run budget call targets net).1 = .error failures) :
    Recorded targets failures := by
  induction targets generalizing net failures with
  | nil =>
    cases h
    exact ⟨rfl, fun _ h => (List.not_mem_nil h).elim, fun h => absurd h (Nat.lt_irrefl _)⟩
  | cons x rest ih =>
    obtain ⟨node, i⟩ := x
    rw [run] at h
    cases hlimit : budget.limit net.now with
    | none =>
      rw [Attempt.start_of_limit_none call node i hlimit] at h
      cases h
      exact ⟨rfl, fun _ h => (List.not_mem_nil h).elim, fun _ => ⟨_, rfl, rfl⟩⟩
    | some limit =>
      obtain ⟨time, hstart⟩ := Attempt.start_of_limit call node i hlimit
      rw [hstart] at h
      rcases Attempt.succeeds_or_fails net.transport limit node (net.nextReply i)
        with ⟨v, hv⟩ | ⟨e, he⟩
      · simp only [Attempt.resultOf_of_succeeds hv] at h
        cases h
      · simp only [Attempt.resultOf_of_fails he, he.isDeadline_eq, Bool.false_eq_true,
          if_false] at h
        cases hrest : (run budget call rest ((net.asked node i call).waitUntil time)).1 with
        | ok v =>
          rw [hrest] at h
          cases h
        | error failures' =>
          rw [hrest] at h
          cases h
          have hne : e ≠ .deadline := by
            intro hdeadline
            have hno := he.isDeadline_eq
            rw [hdeadline] at hno
            cases hno
          exact Recorded.cons (f := ⟨i, node, e⟩) hne (ih hrest)

end Sequential

/-! ## one attempt at a time -/

/-- the failure of a node that the deadline leaves no time for -/
def NodeFailure.tooLate (x : String × Nat) : NodeFailure := ⟨x.2, x.1, .deadline⟩

namespace Race

variable {budget : Budget} {call : RpcCall} {order : Order} {net : Network}

/-- one round with an attempt under way: it ends -/
theorem run_one_inFlight (budget : Budget) (call : RpcCall) (order : Order) (n : Nat)
    (waiting : List (String × Nat)) (a : Attempt) (failures : List NodeFailure) (net : Network) :
    run budget call 1 order (n + 1) ⟨waiting, [a], failures, net⟩ =
      match a.result with
      | .ok v => (.ok v, net.waitUntil a.finish)
      | .error e => run budget call 1 order n
          ⟨waiting, [], a.failure e :: failures, net.waitUntil a.finish⟩ := by
  have hfill : fill budget call 1 ⟨waiting, [a], failures, net⟩ =
      ⟨waiting, [a], failures, net⟩ := rfl
  have hfirst (k : Nat) : k % max [a].length 1 = 0 := Nat.mod_one k
  rw [run, hfill]
  simp only [hfirst]
  unfold finish
  cases ha : a.result with
  | ok v => simp [ha]
  | error e => simp [ha]

/-- one round with nothing under way: the next node starts and ends -/
theorem run_one_cons (budget : Budget) (call : RpcCall) (order : Order) (n : Nat) (node : String)
    (i : Nat) (rest : List (String × Nat)) (failures : List NodeFailure) (net : Network) :
    run budget call 1 order (n + 1) ⟨(node, i) :: rest, [], failures, net⟩ =
      let (a, net) := Attempt.start budget call node i net
      match a.result with
      | .ok v => (.ok v, net.waitUntil a.finish)
      | .error e => run budget call 1 order n
          ⟨rest, [], a.failure e :: failures, net.waitUntil a.finish⟩ :=
  -- the round starts the node, and goes on as a round with that attempt under way
  run_one_inFlight budget call order n rest (Attempt.start budget call node i net).1 failures
    (Attempt.start budget call node i net).2

/-- at the deadline the nodes left are told off one by one -/
theorem run_one_of_limit_none (call : RpcCall) (order : Order) (targets : List (String × Nat))
    (failures : List NodeFailure) (h : budget.limit net.now = none) :
    run budget call 1 order targets.length ⟨targets, [], failures, net⟩ =
      (.error (failures.reverse ++ targets.map NodeFailure.tooLate), net) := by
  induction targets generalizing failures with
  | nil =>
    rw [List.map_nil, List.append_nil]
    rfl
  | cons x rest ih =>
    obtain ⟨node, i⟩ := x
    have hstart := Attempt.start_of_limit_none call node i h
    rw [List.length_cons, run_one_cons, hstart]
    show run budget call 1 order rest.length
      ⟨rest, [], ⟨i, node, .deadline⟩ :: failures, net.waitUntil net.now⟩ = _
    rw [net.waitUntil_now, ih, List.reverse_cons, List.append_assoc]
    rfl

/-- a race with one attempt at a time ends as the other call does; when that fails, the nodes that
it did not come to are too late -/
theorem run_one (budget : Budget) (call : RpcCall) (order : Order)
    (targets : List (String × Nat)) (failures : List NodeFailure) (net : Network) :
    run budget call 1 order targets.length ⟨targets, [], failures, net⟩ =
      ((Sequential.run budget call targets net).1.mapError fun fs =>
          failures.reverse ++ (fs ++ (targets.drop fs.length).map NodeFailure.tooLate),
        (Sequential.run budget call targets net).2) := by
  induction targets generalizing failures net with
  | nil =>
    show (Except.error failures.reverse, net) = (Except.error (failures.reverse ++ ([] ++ [])), net)
    rw [List.append_nil, List.append_nil]
  | cons x rest ih =>
    obtain ⟨node, i⟩ := x
    rw [List.length_cons, run_one_cons, Sequential.run]
    cases hlimit : budget.limit net.now with
    | none =>
      rw [Attempt.start_of_limit_none call node i hlimit]
      show run budget call 1 order rest.length
        ⟨rest, [], ⟨i, node, .deadline⟩ :: failures, net.waitUntil net.now⟩ = _
      rw [net.waitUntil_now, run_one_of_limit_none call order rest _ hlimit, List.reverse_cons,
        List.append_assoc]
      show _ = (Except.error _, net.waitUntil net.now)
      rw [net.waitUntil_now]
      rfl
    | some limit =>
      obtain ⟨time, hstart⟩ := Attempt.start_of_limit call node i hlimit
      rw [hstart]
      rcases Attempt.succeeds_or_fails net.transport limit node (net.nextReply i)
        with ⟨v, hv⟩ | ⟨e, he⟩
      · simp only [Attempt.resultOf_of_succeeds hv]
        rfl
      · simp only [Attempt.resultOf_of_fails he, he.isDeadline_eq, Bool.false_eq_true, if_false]
        rw [ih]
        cases (Sequential.run budget call rest ((net.asked node i call).waitUntil time)).1 with
        | ok v => rfl
        | error fs =>
          have hlist (late : List NodeFailure) : (⟨i, node, e⟩ :: failures).reverse ++ late =
              failures.reverse ++ ⟨i, node, e⟩ :: late := by
            rw [List.reverse_cons, List.append_assoc]
            rfl
          exact congrArg (fun l => (Except.error l, _)) (hlist _)

/-! ## the states of a race with one attempt at a time -/

variable {r r' : Race} {targets : List (String × Nat)} {d : Nat}

theorem inFlight_cases (hroom : r.inFlight.length ≤ 1) :
    r.inFlight = [] ∨ ∃ a, r.inFlight = [a] := by
  cases h : r.inFlight with
  | nil => exact .inl rfl
  | cons a rest =>
    rw [h] at hroom
    obtain rfl : rest = [] :=
      List.eq_nil_of_length_eq_zero (Nat.le_zero.1 (Nat.le_of_succ_le_succ hroom))
    exact .inr ⟨a, rfl⟩

/-- a step leads to a state from which the race ends in the same way -/
theorem run_of_step (order : Order) (hroom : r.inFlight.length ≤ 1)
    (h : Step budget call 1 r r') :
    run budget call 1 order r'.left r' = run budget call 1 order r.left r := by
  cases h with
  | @launch node i waiting inFlight failures net hlt =>
    obtain rfl : inFlight = [] := List.eq_nil_of_length_eq_zero (Nat.lt_one_iff.1 hlt)
    -- the node that has started is the one that the next round starts
    rfl
  | @fail _ k a e ha he =>
    obtain ⟨waiting, inFlight, failures, net⟩ := r
    rcases inFlight_cases hroom with hnil | ⟨b, hone⟩
    · obtain rfl : inFlight = [] := hnil
      cases ha
    · obtain rfl : inFlight = [b] := hone
      cases k with
      | succ k => cases ha
      | zero =>
        cases ha
        show run budget call 1 order waiting.length
            ⟨waiting, [], a.failure e :: failures, net.waitUntil a.finish⟩ =
          run budget call 1 order (waiting.length + 1) ⟨waiting, [a], failures, net⟩
        rw [run_one_inFlight, he]

theorem run_of_reachable (order : Order) (hnodup : (targets.map Prod.snd).Nodup)
    (h : Reachable budget call 1 targets net r) :
    run budget call 1 order r.left r =
      run budget call 1 order targets.length (start targets net) := by
  induction h with
  | refl => rfl
  | tail hsteps hstep ih =>
    have hroom := (Reachable.sound hnodup hsteps).room
    exact (run_of_step order hroom hstep).trans ih

/-- from the deadline on a race sends nothing -/
theorem servers_run_of_deadline (order : Order) (hd : budget.deadline = some d)
    (hroom : r.inFlight.length ≤ 1) (hnow : d ≤ r.net.now) :
    (run budget call 1 order r.left r).2.servers = r.net.servers := by
  obtain ⟨waiting, inFlight, failures, net⟩ := r
  rcases inFlight_cases hroom with hnil | ⟨a, hone⟩
  · obtain rfl : inFlight = [] := hnil
    show (run budget call 1 order waiting.length ⟨waiting, [], failures, net⟩).2.servers = _
    rw [run_one_of_limit_none call order waiting failures (Budget.limit_eq_none hd hnow)]
  · obtain rfl : inFlight = [a] := hone
    show (run budget call 1 order (waiting.length + 1)
      ⟨waiting, [a], failures, net⟩).2.servers = net.servers
    rw [run_one_inFlight]
    cases a.result with
    | ok v => rfl
    | error e =>
      have hlate : d ≤ (net.waitUntil a.finish).now :=
        Nat.le_trans hnow (net.now_le_now_waitUntil a.finish)
      have hlimit := Budget.limit_eq_none hd hlate
      simp only [run_one_of_limit_none call order waiting (a.failure e :: failures) hlimit]
      rfl

end Race

/-! ## calls -/

namespace FailoverError

variable {method : String} {failures : List NodeFailure} {nodes : List String}

/-- failures that stand in the order of the nodes stay where they are -/
theorem failures_ofFailures {n : Nat}
    (h : failures.map NodeFailure.target = nodes.zipIdx.take n) :
    (ofFailures method failures).failures = failures := by
  have hlt : (nodes.zipIdx.map Prod.snd).Pairwise (· < ·) := by
    rw [List.zipIdx_map_snd]
    exact List.pairwise_lt_range'
  have htake : (failures.map NodeFailure.target).Pairwise (fun x y => x.2 ≤ y.2) := by
    rw [h]
    exact ((List.pairwise_map.1 hlt).imp Nat.le_of_lt).sublist (List.take_sublist n _)
  have hsorted : failures.Pairwise (fun a b => decide (a.index ≤ b.index) = true) :=
    (List.pairwise_map.1 htake).imp fun h => decide_eq_true h
  exact List.mergeSort_of_pairwise hsorted

end FailoverError

namespace FailoverClient

theorem callIn_sequential (c : FailoverClient) (order : Race.Order) (call : RpcCall)
    (deadline : Option Nat) (net : Network) :
    (c.withMode .sequential).callIn order call deadline net =
      ((Sequential.run ⟨c.timeout, deadline⟩ call c.targets net).1.mapError
          (FailoverError.ofFailures call.method),
        (Sequential.run ⟨c.timeout, deadline⟩ call c.targets net).2) := rfl

theorem callIn_race_one (c : FailoverClient) (order : Race.Order) (call : RpcCall)
    (deadline : Option Nat) (net : Network) :
    (c.withMode (.race 1)).callIn order call deadline net =
      ((Sequential.run ⟨c.timeout, deadline⟩ call c.targets net).1.mapError fun fs =>
          FailoverError.ofFailures call.method
            (fs ++ (c.targets.drop fs.length).map NodeFailure.tooLate),
        (Sequential.run ⟨c.timeout, deadline⟩ call c.targets net).2) := by
  have hrun := Race.run_one ⟨c.timeout, deadline⟩ call order c.targets [] net
  show ((Race.run ⟨c.timeout, deadline⟩ call 1 order c.targets.length
      ⟨c.targets, [], [], net⟩).1.mapError (FailoverError.ofFailures call.method),
    (Race.run ⟨c.timeout, deadline⟩ call 1 order c.targets.length ⟨c.targets, [], [], net⟩).2) = _
  rw [hrun]
  cases (Sequential.run ⟨c.timeout, deadline⟩ call c.targets net).1 with
  | ok v => rfl
  | error fs => rfl

/-- what a race with one attempt at a time reports, against what the other call reports -/
theorem exhausted_race_one {c : FailoverClient} {failures : List NodeFailure} (method : String)
    (h : Sequential.Recorded c.targets failures) :
    let late := (c.targets.drop failures.length).map NodeFailure.tooLate
    let e := FailoverError.ofFailures method failures
    let e' := FailoverError.ofFailures method (failures ++ late)
    e.failures = failures ∧ e'.failures = failures ++ late ∧ e'.message = e.message := by
  intro late e e'
  have he : e.failures = failures := FailoverError.failures_ofFailures h.target
  have htargets : (failures ++ late).map NodeFailure.target = c.targets := by
    have hlate : late.map NodeFailure.target = c.targets.drop failures.length := by
      rw [List.map_map]
      exact List.map_id _
    rw [List.map_append, h.target, hlate, List.take_append_drop]
  have he' : e'.failures = failures ++ late := by
    have hall : (failures ++ late).map NodeFailure.target =
        c.nodes.zipIdx.take c.targets.length := by
      rw [htargets]
      exact (List.take_length).symm
    exact FailoverError.failures_ofFailures hall
  refine ⟨he, he', ?_⟩
  unfold FailoverError.message
  rw [he, he', List.getLast?_append]
  cases hlast : late.getLast? with
  | none => rfl
  | some f =>
    -- the last nodes were too late, and so was the last one that the other call came to
    have hmem : f ∈ late := List.mem_of_getLast? hlast
    obtain ⟨x, hx, rfl⟩ := List.mem_map.1 hmem
    have hshort : failures.length < c.targets.length := by
      refine Nat.lt_of_not_le fun hle => ?_
      rw [List.drop_eq_nil_of_le hle] at hx
      cases hx
    obtain ⟨g, hg, hcause⟩ := h.late hshort
    rw [hg]
    show FailoverError.lastSegment (NodeError.message .deadline) =
      FailoverError.lastSegment g.cause.message
    rw [hcause]

/-- a race with one attempt at a time, and a call that asks one node after the other: for all
nodes, replies, limits and deadlines -/
theorem race_one_as_sequential (c : FailoverClient) (order : Race.Order) (call : RpcCall)
    (deadline : Option Nat) (net : Network) :
    let budget : Budget := ⟨c.timeout, deadline⟩
    let asked := (c.withMode .sequential).callIn order call deadline net
    let raced := (c.withMode (.race 1)).callIn order call deadline net
    raced.2 = asked.2 ∧
    (∀ v, raced.1 = .ok v ↔ asked.1 = .ok v) ∧
    (∀ e, asked.1 = .error e → ∃ e' late, raced.1 = .error e' ∧ e'.message = e.message ∧
      e'.attempts = e.attempts ++ late ∧ (∀ a ∈ late, a.2.2 = "deadline exceeded") ∧
      ∀ a ∈ e.attempts.dropLast, a.2.2 ≠ "deadline exceeded") ∧
    ∀ d, deadline = some d →
      (∀ k, d ≤ (Sequential.turn budget call c.targets k net).now →
        asked.2 = Sequential.turn budget call c.targets k net) ∧
      ∀ s, Race.Reachable budget call 1 c.targets net s → d ≤ s.net.now →
        raced.2.servers = s.net.servers := by
  intro budget asked raced
  have hasked : asked = _ := callIn_sequential c order call deadline net
  have hraced : raced = _ := callIn_race_one c order call deadline net
  rw [hasked, hraced]
  refine ⟨rfl, fun v => ?_, fun e he => ?_, fun d hd => ⟨fun k hk => ?_, ?_⟩⟩
  · cases (Sequential.run ⟨c.timeout, deadline⟩ call c.targets net).1 with
    | ok w => exact Iff.rfl
    | error failures => exact ⟨fun h => (nomatch h), fun h => (nomatch h)⟩
  · cases hrun : (Sequential.run ⟨c.timeout, deadline⟩ call c.targets net).1 with
    | ok v =>
      rw [hrun] at he
      cases he
    | error failures =>
      rw [hrun] at he
      cases he
      have hrecorded := Sequential.recorded_of_run hrun
      obtain ⟨hfailures, hfailures', hmessage⟩ := exhausted_race_one call.method hrecorded
      refine ⟨_, ((c.targets.drop failures.length).map NodeFailure.tooLate).map
        fun f => (f.index, f.node, f.message), rfl, hmessage, ?_, ?_, ?_⟩
      · unfold FailoverError.attempts
        rw [hfailures, hfailures', List.map_append]
      · intro a ha
        obtain ⟨f, hf, rfl⟩ := List.mem_map.1 ha
        obtain ⟨x, -, rfl⟩ := List.mem_map.1 hf
        rfl
      · intro a ha
        unfold FailoverError.attempts at ha
        rw [hfailures, ← List.map_dropLast] at ha
        obtain ⟨f, hf, rfl⟩ := List.mem_map.1 ha
        exact fun hlate => hrecorded.early f hf (NodeError.message_eq_iff.1 hlate)
  · exact Sequential.run_of_deadline hd hk
  · intro s hs hnow
    rw [← hraced]
    show (Race.run budget call 1 order c.targets.length (Race.start c.targets net)).2.servers = _
    rw [← Race.run_of_reachable order c.nodup_targets hs]
    exact Race.servers_run_of_deadline order hd (hs.sound c.nodup_targets).room hnow

end FailoverClient

end LedgerClient
