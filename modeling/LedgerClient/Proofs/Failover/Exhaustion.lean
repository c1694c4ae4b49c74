import LedgerClient.Proofs.Failover.Attempt
import LedgerClient.Proofs.Text.Blank
/-!
# What a call reports when every node failed

* `FailoverError.attempts`               position, node and message of every failure;
* `FailoverError.map_target_ofFailures`  failures of all nodes, recorded in any order, stand in the
                                         order of the nodes;
* `FailoverError.LastSegment s t`        `t` is the text behind the last colon of `s`, trimmed;
* `FailoverError.lastSegment_message`    the message of the whole comes from the last failure.
-/

namespace LedgerClient

/-- the node with its position -/
def Attempt.target (a : Attempt) : String × Nat := (a.node, a.index)

def NodeFailure.target (f : NodeFailure) : String × Nat := (f.node, f.index)

namespace FailoverError

/-- what a caller sees of the failures -/
def attempts (e : FailoverError) : List (Nat × String × String) :=
  e.failures.map fun f => (f.index, f.node, f.message)

/-! ## the order of the failures -/

variable {method : String} {failures : List NodeFailure} {nodes : List String}

theorem perm_ofFailures (method : String) (failures : List NodeFailure) :
    (ofFailures method failures).failures.Perm failures :=
  List.mergeSort_perm _ _

theorem pairwise_ofFailures (method : String) (failures : List NodeFailure) :
    (ofFailures method failures).failures.Pairwise (fun a b => a.index ≤ b.index) := by
  have hsorted : (ofFailures method failures).failures.Pairwise
      (fun a b => decide (a.index ≤ b.index) = true) := by
    refine List.pairwise_mergeSort (fun a b c hab hbc => ?_) (fun a b => ?_) failures
    · exact decide_eq_true (Nat.le_trans (of_decide_eq_true hab) (of_decide_eq_true hbc))
    · simp only [Bool.or_eq_true, decide_eq_true_eq]
      exact Nat.le_total a.index b.index
  exact hsorted.imp fun h => of_decide_eq_true h

/-- a position has one node -/
theorem eq_of_mem_zipIdx {x y : String × Nat} (hx : x ∈ nodes.zipIdx) (hy : y ∈ nodes.zipIdx)
    (h : x.2 = y.2) : x = y := by
  have hx' := List.mem_zipIdx_iff_getElem?.1 hx
  have hy' := List.mem_zipIdx_iff_getElem?.1 hy
  rw [h, hy'] at hx'
  exact Prod.ext (Option.some_inj.1 hx').symm h

/-- whatever the order in which the nodes failed -/
theorem map_target_ofFailures (h : (failures.map NodeFailure.target).Perm nodes.zipIdx) :
    (ofFailures method failures).failures.map NodeFailure.target = nodes.zipIdx := by
  have hperm : ((ofFailures method failures).failures.map NodeFailure.target).Perm nodes.zipIdx :=
    ((perm_ofFailures method failures).map _).trans h
  have hsorted : ((ofFailures method failures).failures.map NodeFailure.target).Pairwise
      (fun x y => x.2 ≤ y.2) :=
    List.pairwise_map.2 (pairwise_ofFailures method failures)
  have hnodes : nodes.zipIdx.Pairwise (fun x y => x.2 ≤ y.2) := by
    have hlt : (nodes.zipIdx.map Prod.snd).Pairwise (· < ·) := by
      rw [List.zipIdx_map_snd]
      exact List.pairwise_lt_range'
    exact (List.pairwise_map.1 hlt).imp Nat.le_of_lt
  refine hperm.eq_of_pairwise (fun x y hx hy hxy hyx => ?_) hsorted hnodes
  exact eq_of_mem_zipIdx (hperm.subset hx) hy (Nat.le_antisymm hxy hyx)

/-! ## the message -/

/-- `t` is what stands behind the last colon of `s`, without the blanks at both ends -/
structure LastSegment (s t : String) : Prop where
  split : ∃ front segment, s.toList = front ++ segment ∧
    (front = [] ∨ front.getLast? = some ':') ∧ ':' ∉ segment ∧ Text.Trimmed segment t.toList
  colon_not_mem : ':' ∉ t.toList

/-- trimming a segment without a colon -/
theorem lastSegment_trimmed {s : String} {front segment : List Char}
    (hs : s.toList = front ++ segment) (hfront : front = [] ∨ front.getLast? = some ':')
    (hcolon : ':' ∉ segment) : LastSegment s (String.ofList (Text.trimChars segment)) := by
  have htrim := Text.trimmed_trimChars segment
  have hin : ':' ∉ Text.trimChars segment := by
    obtain ⟨lead, trail, heq, -⟩ := htrim.between
    intro hmem
    rw [heq] at hcolon
    exact hcolon (List.mem_append_left _ (List.mem_append_right _ hmem))
  rw [← String.toList_ofList (l := Text.trimChars segment)] at htrim hin
  exact ⟨⟨front, segment, hs, hfront, hcolon, htrim⟩, hin⟩

theorem lastSegment_lastSegment (s : String) : LastSegment s (lastSegment s) := by
  have hne := Text.fields_ne_nil ':' s.toList
  obtain ⟨front, hs, hfront⟩ := Text.exists_front_joined hne
  rw [Text.joined_fields] at hs
  have hmem : (Text.fields ':' s.toList).getLastD [] ∈ Text.fields ':' s.toList := by
    rw [List.getLastD_eq_getLast?, List.getLast?_eq_some_getLast hne]
    exact List.getLast_mem hne
  exact lastSegment_trimmed hs hfront (Text.not_mem_of_mem_fields hmem)

/-- there is no other message than that of the last failure, if there is one -/
theorem lastSegment_message {e : FailoverError} {f : NodeFailure}
    (h : e.failures.getLast? = some f) : LastSegment f.message e.message := by
  unfold message
  rw [h]
  exact lastSegment_lastSegment f.message

theorem exists_lastSegment {e : FailoverError} (h : e.failures ≠ []) :
    ∃ f, e.failures.getLast? = some f ∧ LastSegment f.message e.message :=
  ⟨_, List.getLast?_eq_some_getLast h, lastSegment_message (List.getLast?_eq_some_getLast h)⟩

/-! ## what two callers see -/

/-- the same nodes with the same message each -/
theorem attempts_eq {e e' : FailoverError}
    (htargets : e.failures.map NodeFailure.target = e'.failures.map NodeFailure.target)
    (hmessages : ∀ f ∈ e.failures, ∀ f' ∈ e'.failures, f.index = f'.index → f.message = f'.message) :
    e.attempts = e'.attempts := by
  unfold attempts
  generalize e.failures = fs at *
  generalize e'.failures = fs' at *
  induction fs generalizing fs' with
  | nil =>
    obtain rfl : fs' = [] := List.map_eq_nil_iff.1 htargets.symm
    rfl
  | cons f fs ih =>
    cases fs' with
    | nil => cases htargets
    | cons f' fs' =>
      rw [List.map_cons, List.map_cons] at htargets
      obtain ⟨htarget, hrest⟩ := List.cons_eq_cons.1 htargets
      have hnode : f.node = f'.node := congrArg Prod.fst htarget
      have hindex : f.index = f'.index := congrArg Prod.snd htarget
      have hmessage := hmessages f List.mem_cons_self f' List.mem_cons_self hindex
      have htail := ih fs' hrest fun g hg g' hg' =>
        hmessages g (List.mem_cons_of_mem _ hg) g' (List.mem_cons_of_mem _ hg')
      rw [List.map_cons, List.map_cons, htail, hnode, hindex, hmessage]

/-- the message shows nothing that the attempts do not show -/
theorem message_eq_of_attempts_eq {e e' : FailoverError} (h : e.attempts = e'.attempts) :
    e.message = e'.message := by
  have hlast : e.failures.getLast?.map NodeFailure.message =
      e'.failures.getLast?.map NodeFailure.message := by
    have h' := congrArg (fun l => l.getLast?.map fun a => a.2.2) h
    simp only [attempts, List.getLast?_map, Option.map_map] at h'
    exact h'
  unfold message
  cases hf : e.failures.getLast? with
  | none =>
    rw [hf] at hlast
    rw [Option.map_eq_none_iff.1 hlast.symm]
  | some f =>
    rw [hf] at hlast
    obtain ⟨f', hf', hm⟩ := Option.map_eq_some_iff.1 hlast.symm
    rw [hf']
    exact congrArg lastSegment hm.symm

end FailoverError

end LedgerClient
