import LedgerClient.Proofs.Failover.Sequential
/-!
# The turns of a call

A call that asks one node after the other leaves a network behind after each of them. Asking the
nodes `before ++ after` is asking `before`, and then `after` on the network that is left, unless
the call is over by then. So the networks that a call passes through are those that its first
nodes leave behind.

* `Sequential.run_append`       a call in two parts;
* `Sequential.turn k`           the network once the first `k` nodes have had their turn;
* `Sequential.run_of_deadline`  a call that has come to its deadline changes the network no more;
* `Sequential.asked_turn`, `Sequential.asked_turn_of_fails`   without a deadline the first `k` nodes
                                have got the call after `k` turns, and no node behind the first
                                one that answers ever gets it.
-/

namespace LedgerClient

theorem Budget.limit_eq_none {b : Budget} {d now : Nat} (hd : b.deadline = some d) (h : d ≤ now) :
    b.limit now = none := by
  unfold Budget.limit
  rw [hd]
  exact if_pos h

theorem mem_take_of_lt {α : Type} {l : List α} {x : α} {j n : Nat} (h : l[j]? = some x)
    (hlt : j < n) : x ∈ l.take n :=
  List.mem_of_getElem? ((List.getElem?_take_of_lt hlt).trans h)

theorem Network.waitUntil_now (n : Network) : n.waitUntil n.now = n := by
  show { n with now := max n.now n.now } = n
  rw [Nat.max_self]

namespace Sequential

open Attempt (Succeeds Fails)

variable {budget : Budget} {timeout : Nat} {call : RpcCall} {net net' : Network}
  {targets : List (String × Nat)} {r : Except (List NodeFailure) Json}

/-- the deadline had been reached when a node was to be asked -/
def stopped (failures : List NodeFailure) : Bool := failures.any (·.cause.isDeadline)

/-- the nodes behind are asked when those in front have failed before the deadline -/
theorem run_append (budget : Budget) (call : RpcCall) (before after : List (String × Nat))
    (net : Network) :
    run budget call (before ++ after) net =
      match run budget call before net with
      | (.ok v, net') => (.ok v, net')
      | (.error failures, net') =>
        if stopped failures then (.error failures, net')
        else ((run budget call after net').1.mapError (failures ++ ·),
          (run budget call after net').2) := by
  induction before generalizing net with
  | nil =>
    show run budget call after net = ((run budget call after net).1.mapError ([] ++ ·), _)
    cases h : run budget call after net with
    | mk r net' => cases r <;> rfl
  | cons x before ih =>
    obtain ⟨node, i⟩ := x
    rw [List.cons_append, run, run]
    generalize Attempt.start budget call node i net = started
    obtain ⟨a, net₁⟩ := started
    cases ha : a.result with
    | ok v => simp only [ha]
    | error e =>
      cases he : e.isDeadline with
      | true => simp [ha, he, stopped, Attempt.failure]
      | false =>
        simp only [ha, he, ih, Bool.false_eq_true, if_false]
        cases hrun : run budget call before (net₁.waitUntil a.finish) with
        | mk r net' =>
          cases r with
          | ok v => rfl
          | error failures =>
            have hstop : stopped (a.failure e :: failures) = stopped failures := by
              simp [stopped, Attempt.failure, he]
            show _ = if stopped (a.failure e :: failures) then _ else _
            rw [hstop]
            dsimp only
            cases stopped failures with
            | true => rfl
            | false =>
              cases hafter : run budget call after net' with
              | mk r net'' => cases r <;> rfl

/-- the network once the first `k` nodes have had their turn -/
def turn (budget : Budget) (call : RpcCall) (targets : List (String × Nat)) (k : Nat)
    (net : Network) : Network :=
  (run budget call (targets.take k) net).2

/-! ## at the deadline -/

/-- no node is asked any more -/
theorem run_of_limit_none (call : RpcCall) (targets : List (String × Nat))
    (h : budget.limit net.now = none) : (run budget call targets net).2 = net := by
  cases targets with
  | nil => rfl
  | cons x rest =>
    obtain ⟨node, i⟩ := x
    unfold run
    rw [Attempt.start_of_limit_none call node i h]
    exact net.waitUntil_now

theorem run_of_deadline {d k : Nat} (hd : budget.deadline = some d)
    (h : d ≤ (turn budget call targets k net).now) :
    (run budget call targets net).2 = turn budget call targets k net := by
  have hsplit := run_append budget call (targets.take k) (targets.drop k) net
  rw [List.take_append_drop] at hsplit
  unfold turn at h ⊢
  rw [hsplit]
  cases hrun : run budget call (targets.take k) net with
  | mk r net' =>
    rw [hrun] at h
    cases r with
    | ok v => rfl
    | error failures =>
      cases hstop : stopped failures with
      | true => simp [hstop]
      | false =>
        have hlate := run_of_limit_none call (targets.drop k) (Budget.limit_eq_none hd h)
        simp only [hstop, Bool.false_eq_true, if_false]
        exact hlate

/-! ## without a deadline -/

/-- when every node fails, every node is asked -/
theorem Ends.asked_of_fails (h : Ends timeout targets call net r net')
    (hfails : ∀ x ∈ targets, ∃ e, Fails net.transport timeout x.1 (net.nextReply x.2) e) :
    Network.Asked targets call net net' := by
  cases h with
  | failed _ _ hasked => exact hasked
  | @answered k node i v _ hk hv _ _ =>
    obtain ⟨e, he⟩ := hfails (node, i) (List.mem_of_getElem? hk)
    exact absurd he hv.not_fails

/-- when a node answers and those in front of it fail, these nodes are asked and its answer is
the result -/
theorem Ends.of_first {k i : Nat} {node : String} {v : Json}
    (h : Ends timeout targets call net r net') (hk : targets[k]? = some (node, i))
    (hv : Succeeds net.transport timeout node (net.nextReply i) v)
    (hbefore : ∀ x ∈ targets.take k, ∃ e, Fails net.transport timeout x.1 (net.nextReply x.2) e) :
    r = .ok v ∧ Network.Asked (targets.take (k + 1)) call net net' := by
  cases h with
  | @failed failures _ htargets hfails _ =>
    have hmem : (node, i) ∈ failures.map NodeFailure.target := htargets ▸ List.mem_of_getElem? hk
    obtain ⟨f, hf, heq⟩ := List.mem_map.1 hmem
    obtain ⟨rfl, rfl⟩ : f.node = node ∧ f.index = i := Prod.mk.inj heq
    exact absurd (hfails f hf) hv.not_fails
  | @answered k' node' i' v' _ hk' hv' hbefore' hasked =>
    -- neither of the two answers can come in front of the other
    have hle : k ≤ k' := by
      refine Nat.le_of_not_lt fun hlt => ?_
      obtain ⟨e, he⟩ := hbefore _ (mem_take_of_lt hk' hlt)
      exact hv'.not_fails he
    have hge : k' ≤ k := by
      refine Nat.le_of_not_lt fun hlt => ?_
      obtain ⟨e, he⟩ := hbefore' _ (mem_take_of_lt hk hlt)
      exact hv.not_fails he
    obtain rfl : k = k' := Nat.le_antisymm hle hge
    obtain ⟨rfl, rfl⟩ : node = node' ∧ i = i' :=
      Prod.mk.inj (Option.some_inj.1 (hk.symm.trans hk'))
    exact ⟨congrArg Except.ok (hv'.eq hv), hasked⟩

theorem asked_turn_of_fails (hnodup : (targets.map Prod.snd).Nodup)
    (hlt : ∀ x ∈ targets, x.2 < net.servers.length)
    (hfails : ∀ x ∈ targets, ∃ e, Fails net.transport timeout x.1 (net.nextReply x.2) e) (j : Nat) :
    Network.Asked (targets.take j) call net (turn ⟨timeout, none⟩ call targets j net) := by
  have hsub : (targets.take j).Sublist targets := List.take_sublist j targets
  have hends := run_ends timeout call (targets.take j) net ((hsub.map Prod.snd).nodup hnodup)
    fun x hx => hlt x (hsub.subset hx)
  exact hends.asked_of_fails fun x hx => hfails x (hsub.subset hx)

theorem asked_turn {k i : Nat} {node : String} {v : Json} (hnodup : (targets.map Prod.snd).Nodup)
    (hlt : ∀ x ∈ targets, x.2 < net.servers.length) (hk : targets[k]? = some (node, i))
    (hv : Succeeds net.transport timeout node (net.nextReply i) v)
    (hbefore : ∀ x ∈ targets.take k, ∃ e, Fails net.transport timeout x.1 (net.nextReply x.2) e)
    (j : Nat) :
    Network.Asked (targets.take (min j (k + 1))) call net
      (turn ⟨timeout, none⟩ call targets j net) := by
  have hsub : (targets.take j).Sublist targets := List.take_sublist j targets
  have hends := run_ends timeout call (targets.take j) net ((hsub.map Prod.snd).nodup hnodup)
    fun x hx => hlt x (hsub.subset hx)
  by_cases hjk : j ≤ k
  · rw [Nat.min_eq_left (Nat.le_succ_of_le hjk)]
    refine hends.asked_of_fails fun x hx => hbefore x ?_
    exact (List.take_sublist_take_left hjk).subset hx
  · have hkj : k < j := Nat.lt_of_not_le hjk
    obtain ⟨-, hasked⟩ := hends.of_first (k := k)
      ((List.getElem?_take_of_lt hkj).trans hk) hv
      (by rw [List.take_take, Nat.min_eq_left (Nat.le_of_lt hkj)]; exact hbefore)
    rw [List.take_take, Nat.min_comm] at hasked
    exact hasked

end Sequential

end LedgerClient
