import LedgerClient.Failover.Ledger
import LedgerClient.Proofs.Failover.Response
import LedgerClient.Proofs.Rpc.Lenient
/-!
# Submitting an envelope

An envelope goes to the nodes in their order, to each of them at most once, and to nobody behind
the first one that answers with a result, whatever is wrong with that result. A result that shows
the commit is returned; otherwise the first part that it lacks is named.

* `CommitPart.Shown`            a part that is there and not `null`;
* `CommitReply.Shown`           the replies to a commit, and what stands in them;
* `CommitReply.Settles`         what a commit makes of a result;
* `FailoverClient.Committed`    who has got the envelope after so many turns and in the end, and
                                what is returned;
* `FailoverClient.commit_committed`   every commit is of this form.
-/

namespace LedgerClient

open Attempt (Succeeds Fails)

/-! ## the parts of a commit -/

namespace CommitPart

/-- where a part stands in an array -/
def place : CommitPart → Nat
  | check => 0
  | deliver => 1
  | height => 3

/-- the parts that are looked for first -/
def before : CommitPart → List CommitPart
  | check => []
  | deliver => [check]
  | height => [check, deliver]

theorem before_or_eq (p q : CommitPart) : p ∈ q.before ∨ p = q ∨ q ∈ p.before := by
  cases p <;> cases q <;> decide

/-- the part is there and not `null` -/
def Shown (p : CommitPart) (v : Json) : Prop := ∃ w, v.slot? p.name p.place = some w ∧ w ≠ .null

end CommitPart

namespace CommitReply

def has (r : CommitReply) : CommitPart → Prop
  | .check => r.check.isSome
  | .deliver => r.deliver.isSome
  | .height => r.height.isSome

/-- the part is missing, and the parts before it are there -/
def FirstMissing (r : CommitReply) (p : CommitPart) : Prop := ¬ r.has p ∧ ∀ q ∈ p.before, r.has q

variable {v : Json} {reply : CommitReply}

theorem FirstMissing.eq {p q : CommitPart} (hp : reply.FirstMissing p)
    (hq : reply.FirstMissing q) : p = q := by
  rcases p.before_or_eq q with hlt | rfl | hlt
  · exact absurd (hq.2 p hlt) hp.1
  · rfl
  · exact absurd (hp.2 q hlt) hq.1

/-- the value is a reply to a commit: a record of its parts, where a phase or the height that is
missing or `null` counts as none -/
def Shown (v : Json) (reply : CommitReply) : Prop :=
  v.IsRecord fieldNames ∧ reply.Rest 126 v ∧ Rpc.SpellsOptional (v.slot? "height" 3) reply.height

theorem readValue_eq_some_iff : Document.readValue read v = some reply ↔ Shown v reply :=
  CommitReply.read_eq_some_iff

theorem readValue_eq_none_iff : Document.readValue read v = none ↔ ∀ reply, ¬ Shown v reply := by
  simp only [← readValue_eq_some_iff, Option.eq_none_iff_forall_ne_some, ne_eq]

theorem ofValue_eq_null_iff {w : Json} : Document.ofValue w = .null ↔ w = .null := by
  constructor
  · intro h
    cases w with
    | null => rfl
    | _ => cases h
  · rintro rfl
    rfl

/-- a phase is there when its field is and does not hold `null` -/
theorem isSome_phase_iff {α : Type} {shows : Document.Shows α} {slot : Option Json} {x : Option α}
    (h : Document.Defaulted (Document.Optional shows) none 126 (slot.map Document.ofValue) x) :
    x.isSome ↔ ∃ w, slot = some w ∧ w ≠ .null := by
  rw [h.isSome_iff]
  cases slot with
  | none => simp
  | some w => simp [ofValue_eq_null_iff]

theorem isSome_height_iff {slot : Option Json} {x : Option Nat} (h : Rpc.SpellsOptional slot x) :
    x.isSome ↔ ∃ w, slot = some w ∧ w ≠ .null := by
  cases h with
  | absent => simp
  | null => simp
  | given h => cases h <;> simp [Json.nat]

theorem has_iff (h : Shown v reply) (p : CommitPart) : reply.has p ↔ p.Shown v := by
  obtain ⟨-, hrest, hheight⟩ := h
  cases p with
  | check => exact isSome_phase_iff hrest.check
  | deliver => exact isSome_phase_iff hrest.deliver
  | height => exact isSome_height_iff hheight

end CommitReply

namespace FailoverClient

variable {reply : CommitReply} {v : Json}

/-! ## what a commit makes of a result -/

/-- a reply is complete, or its first missing part is named -/
theorem complete_cases (reply : CommitReply) :
    (∃ r : CommitResult, reply = ⟨some r.check, some r.deliver, r.hash, some r.height⟩ ∧
      complete reply = .ok r) ∨
    ∃ p, reply.FirstMissing p ∧ complete reply = .error (.incomplete p) := by
  obtain ⟨check, deliver, hash, height⟩ := reply
  cases check with
  | none => exact .inr ⟨.check, ⟨nofun, nofun⟩, rfl⟩
  | some check =>
    cases deliver with
    | none =>
      refine .inr ⟨.deliver, ⟨nofun, fun q hq => ?_⟩, rfl⟩
      obtain rfl : q = .check := List.mem_singleton.1 hq
      rfl
    | some deliver =>
      cases height with
      | none =>
        refine .inr ⟨.height, ⟨nofun, fun q hq => ?_⟩, rfl⟩
        rcases List.mem_cons.1 hq with rfl | hq
        · rfl
        · obtain rfl : q = .deliver := List.mem_singleton.1 hq
          rfl
      | some height => exact .inl ⟨⟨check, deliver, hash, height⟩, rfl, rfl⟩

theorem complete_eq_ok_iff {r : CommitResult} :
    complete reply = .ok r ↔ reply = ⟨some r.check, some r.deliver, r.hash, some r.height⟩ := by
  constructor
  · intro h
    rcases complete_cases reply with ⟨r', hreply, h'⟩ | ⟨p, -, h'⟩
    · obtain rfl : r = r' := Except.ok.inj (h.symm.trans h')
      exact hreply
    · cases h.symm.trans h'
  · rintro rfl
    rfl

theorem exists_complete_iff : (∃ r, complete reply = .ok r) ↔ ∀ p, reply.has p := by
  constructor
  · rintro ⟨r, h⟩ p
    rw [complete_eq_ok_iff.1 h]
    cases p <;> rfl
  · intro h
    rcases complete_cases reply with ⟨r, -, hr⟩ | ⟨p, hp, -⟩
    · exact ⟨r, hr⟩
    · exact absurd (h p) hp.1

/-- the part that is named is the first one missing -/
theorem complete_eq_incomplete_iff {p : CommitPart} :
    complete reply = .error (.incomplete p) ↔ reply.FirstMissing p := by
  rcases complete_cases reply with ⟨r, hreply, hr⟩ | ⟨q, hq, hfirst⟩
  · have hall := exists_complete_iff.1 ⟨r, hr⟩
    rw [hr]
    exact ⟨nofun, fun h => absurd (hall p) h.1⟩
  · rw [hfirst]
    constructor
    · intro h
      cases h
      exact hq
    · intro h
      rw [hq.eq h]

theorem complete_ne_decode (reply : CommitReply) (m : RpcMethod) :
    complete reply ≠ .error (.decode m) := by
  intro h
  rcases complete_cases reply with ⟨r, -, hr⟩ | ⟨p, -, hp⟩
  · cases h.symm.trans hr
  · cases h.symm.trans hp

end FailoverClient

/-- what a commit makes of a result `v`: the parts it shows if it shows them all, the first one it
lacks, or that it is no reply to a commit -/
structure CommitReply.Settles (v : Json) (result : Except ClientError CommitResult) : Prop where
  complete : (∃ r, result = .ok r) ↔
    (∃ reply, Shown v reply) ∧ ∀ p : CommitPart, p.Shown v
  carried : ∀ r, result = .ok r ↔ Shown v ⟨some r.check, some r.deliver, r.hash, some r.height⟩
  incomplete : ∀ p, result = .error (.incomplete p) ↔
    (∃ reply, Shown v reply) ∧ ¬ p.Shown v ∧ ∀ q ∈ p.before, q.Shown v
  undecoded : result = .error (.decode .broadcastTxCommit) ↔ ∀ reply, ¬ Shown v reply

theorem CommitReply.settles (v : Json) : Settles v
    ((FailoverClient.decoded .broadcastTxCommit read v).bind FailoverClient.complete) := by
  unfold FailoverClient.decoded
  cases hread : Document.readValue read v with
  | none =>
    have hnone := readValue_eq_none_iff.1 hread
    refine ⟨?_, ?_, ?_, ?_⟩ <;> simp [Except.bind, hnone]
  | some reply =>
    have hshown := readValue_eq_some_iff.1 hread
    have hex : ∃ reply, Shown v reply := ⟨reply, hshown⟩
    have hunique (reply' : CommitReply) : Shown v reply' ↔ reply = reply' := by
      rw [← readValue_eq_some_iff, hread, Option.some_inj]
    have hhas := has_iff hshown
    show Settles v (FailoverClient.complete reply)
    refine ⟨?_, fun r => ?_, fun p => ?_, ?_⟩
    · rw [FailoverClient.exists_complete_iff]
      simp only [hhas, hex, true_and]
    · rw [FailoverClient.complete_eq_ok_iff, hunique]
    · rw [FailoverClient.complete_eq_incomplete_iff]
      simp only [FirstMissing, hhas, hex, true_and]
    · simp [FailoverClient.complete_ne_decode, hunique]

/-! ## who gets an envelope -/

namespace FailoverClient

/-- the call that submits an envelope -/
def submission (envelope : String) : RpcCall :=
  ⟨RpcMethod.broadcastTxCommit.wire, [("tx", .string envelope)]⟩

/-- the network once the first `j` nodes have had their turn with an envelope -/
def submitted (c : FailoverClient) (envelope : String) (net : Network) (j : Nat) : Network :=
  Sequential.turn ⟨c.timeout, none⟩ (submission envelope) c.targets j net

/-- a commit on the network `net` returns `result` and leaves the network `net'` -/
inductive Committed (c : FailoverClient) (envelope : String) (net : Network) :
    (result : Except ClientError CommitResult) → (net' : Network) → Prop
  /-- node `k` is the first one to answer with a result -/
  | answered {k : Nat} {node : String} {v : Json} {result : Except ClientError CommitResult}
    {net' : Network} :
    c.nodes[k]? = some node → Succeeds net.transport c.timeout node (net.nextReply k) v → v ≠ .null →
    (∀ x ∈ c.targets.take k, ∃ e, Fails net.transport c.timeout x.1 (net.nextReply x.2) e) →
    (∀ j, Network.Asked (c.targets.take (min j (k + 1))) (submission envelope) net
      (c.submitted envelope net j)) →
    Network.Asked (c.targets.take (k + 1)) (submission envelope) net net' →
    CommitReply.Settles v result → Committed c envelope net result net'
  /-- no node answers with a result -/
  | exhausted {e : FailoverError} {net' : Network} :
    (∀ x ∈ c.targets, ∃ e, Fails net.transport c.timeout x.1 (net.nextReply x.2) e) →
    (∀ j, Network.Asked (c.targets.take j) (submission envelope) net
      (c.submitted envelope net j)) →
    Network.Asked c.targets (submission envelope) net net' →
    e.failures.map NodeFailure.target = c.targets →
    Committed c envelope net (.error (.exhausted e)) net'

variable {c : FailoverClient} {net : Network}

theorem commit_eq (c : FailoverClient) (envelope : String) (net : Network) :
    c.commit envelope net =
      (((c.call (submission envelope) none net).1.mapError ClientError.exhausted).bind fun v =>
          (decoded .broadcastTxCommit CommitReply.read v).bind complete,
        (c.call (submission envelope) none net).2) := by
  show ((((c.call (submission envelope) none net).1.mapError ClientError.exhausted).bind
      (decoded .broadcastTxCommit CommitReply.read)).bind complete, _) = _
  cases (c.call (submission envelope) none net).1 with
  | ok v => rfl
  | error e => rfl

/-- every commit, whatever the nodes are and whatever they answer -/
theorem commit_committed (hmode : c.mode = .sequential)
    (hlen : c.nodes.length ≤ net.servers.length) (envelope : String) :
    Committed c envelope net (c.commit envelope net).1 (c.commit envelope net).2 := by
  have hsettled := call_settled hmode hlen (submission envelope)
  have hlt : ∀ x ∈ c.targets, x.2 < net.servers.length :=
    fun x hx => Nat.lt_of_lt_of_le (lt_of_mem_targets hx) hlen
  rw [commit_eq]
  generalize c.call (submission envelope) none net = out at hsettled ⊢
  obtain ⟨r, net'⟩ := out
  cases hsettled with
  | @answered k node v _ hnode hv hbefore hasked =>
    have hturns (j : Nat) : Network.Asked (c.targets.take (min j (k + 1))) (submission envelope)
        net (c.submitted envelope net j) :=
      Sequential.asked_turn c.nodup_targets hlt (getElem?_targets.2 ⟨hnode, rfl⟩) hv hbefore j
    exact .answered hnode hv hv.ne_null hbefore hturns hasked (CommitReply.settles v)
  | @exhausted e last _ _ htargets hfails _ _ hasked =>
    have hall : ∀ x ∈ c.targets, ∃ e, Fails net.transport c.timeout x.1 (net.nextReply x.2) e := by
      intro x hx
      rw [← htargets] at hx
      obtain ⟨f, hf, rfl⟩ := List.mem_map.1 hx
      exact ⟨f.cause, hfails f hf⟩
    have hturns (j : Nat) : Network.Asked (c.targets.take j) (submission envelope) net
        (c.submitted envelope net j) :=
      Sequential.asked_turn_of_fails c.nodup_targets hlt hall j
    exact .exhausted hall hturns hasked htargets

/-- a reply whose second phase failed -/
def rejection : String :=
  "\x7b\"check_tx\":\x7b\"log\":\"admitted\",\"gas_used\":\"21000\"\x7d," ++
  "\"deliver_tx\":\x7b\"code\":5,\"log\":\"out of gas\",\"data\":\"AQ==\",\"gasUsed\":25000," ++
  "\"fee\":[1]\x7d,\"hash\":\"C0FFEE\",\"height\":\" 12\"\x7d"

set_option maxRecDepth 8000 in
/-- the second node answers with all that a commit is told by, or without the second phase, and the
third one never gets the envelope -/
theorem commit_committed_two_answers :
    let net (reply : String) := Network.ofScripts web
      [[.after 5 .refused], [.after 5 (.answer 200 (bodyOf reply))], [.silent]]
    let whole := threeNodes.commit "envelope" (net rejection)
    let half := threeNodes.commit "envelope" (net "\x7b\"check_tx\":\x7b\x7d,\"height\":\"12\"\x7d")
    threeNodes.Committed "envelope" (net rejection) whole.1 whole.2 ∧
      whole.1 = .ok ⟨⟨0, "admitted", "", some (.string "21000"), none⟩,
        ⟨5, "out of gas", "AQ==", some (.nat 25000), some (.array [.nat 1])⟩, "C0FFEE", 12⟩ ∧
      (whole.2.server 2).sent = [] ∧ half.1 = .error (.incomplete .deliver) ∧
      (half.2.server 2).sent = [] :=
  ⟨commit_committed rfl (by decide) "envelope", rfl, rfl, rfl, rfl⟩

end FailoverClient

end LedgerClient
