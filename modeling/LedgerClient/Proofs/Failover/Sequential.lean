import LedgerClient.Failover.Call
import LedgerClient.Proofs.Failover.Exhaustion
/-!
# Calls that ask one node after the other

* `Network.Asked targets call net net'`  the nodes `targets` got the call once each, nobody else did;
* `Sequential.Ends`             how asking nodes in their order ends: with the first success, or with
                                the failure of each one;
* `Sequential.run_ends`         so does every run without a deadline;
* `FailoverClient.Settled`      the same for a call, with what it reports;
* `FailoverClient.callAll`      calls that follow each other on one network;
* `FailoverClient.callAll_settled`  each of them is settled by the replies that are next in turn;
* `Server.NthReply`             which reply of a script that is.
-/

namespace LedgerClient

namespace Server

/-- the reply to request number `n`; the last one of the script repeats -/
def NthReply (script : List Reply) (n : Nat) (r : Reply) : Prop :=
  script[n]? = some r ∨ script.length ≤ n ∧ script.getLast? = some r

theorem nthReply (s : Server) (n : Nat) (h : s.script ≠ []) : NthReply s.script n (s.reply n) := by
  unfold reply
  cases hn : s.script[n]? with
  | some r => exact .inl hn
  | none =>
    refine .inr ⟨List.getElem?_eq_none_iff.1 hn, ?_⟩
    rw [List.getLast?_eq_some_getLast h]
    rfl

end Server

/-- the nodes `targets` got the call once each, one whose text is no URL aside, and nobody else -/
structure Network.Asked (targets : List (String × Nat)) (call : RpcCall) (net net' : Network) :
    Prop where
  transport : net'.transport = net.transport
  length : net'.servers.length = net.servers.length
  script : ∀ i, (net'.server i).script = (net.server i).script
  sent : ∀ x ∈ targets,
    (net'.server x.2).sent = (net.server x.2).sent ++ net.requests x.1 call
  spared : ∀ i, (∀ x ∈ targets, x.2 ≠ i) → (net'.server i).sent = (net.server i).sent

namespace Network

variable {node : String} {i j : Nat} {call : RpcCall} {net net' : Network}
  {rest : List (String × Nat)}

theorem script_asked (net : Network) (node : String) (i : Nat) (call : RpcCall) (j : Nat) :
    ((net.asked node i call).server j).script = (net.server j).script := by
  by_cases hij : i = j
  · subst hij
    by_cases hi : i < net.servers.length
    · rw [server_asked_self hi]
    · unfold asked
      split
      · rw [server_send_of_le (Nat.le_of_not_lt hi)]
      · rfl
  · rw [server_asked_of_ne hij]

@[simp] theorem transport_waitUntil (n : Network) (time : Nat) :
    (n.waitUntil time).transport = n.transport := rfl

theorem requests_asked (net : Network) (node : String) (i : Nat) (call : RpcCall) (time : Nat)
    (node' : String) :
    ((net.asked node i call).waitUntil time).requests node' call = net.requests node' call := by
  unfold requests
  rw [transport_waitUntil, transport_asked]

theorem nextReply_asked_of_ne (h : i ≠ j) (time : Nat) :
    ((net.asked node i call).waitUntil time).nextReply j = net.nextReply j := by
  unfold nextReply
  rw [server_waitUntil, server_asked_of_ne h]

theorem Asked.nil (call : RpcCall) (net : Network) : Asked [] call net net :=
  ⟨rfl, rfl, fun _ => rfl, fun _ h => absurd h List.not_mem_nil, fun _ _ => rfl⟩

/-- one node more in front, provided it is none of the others -/
theorem Asked.cons {time : Nat} (hi : i < net.servers.length) (hrest : ∀ x ∈ rest, x.2 ≠ i)
    (h : Asked rest call ((net.asked node i call).waitUntil time) net') :
    Asked ((node, i) :: rest) call net net' where
  transport := h.transport.trans (transport_asked net node i call)
  length := h.length.trans (length_servers_asked net node i call)
  script := fun j => (h.script j).trans (script_asked net node i call j)
  sent := by
    intro x hx
    rcases List.mem_cons.1 hx with rfl | hx
    · rw [h.spared i hrest, server_waitUntil, server_asked_self hi]
    · rw [h.sent x hx, server_waitUntil, server_asked_of_ne (Ne.symm (hrest x hx)),
        requests_asked]
  spared := by
    intro j hj
    have hij : i ≠ j := hj (node, i) List.mem_cons_self
    rw [h.spared j (fun x hx => hj x (List.mem_cons_of_mem _ hx)), server_waitUntil,
      server_asked_of_ne hij]

end Network

/-! ## one call -/

namespace Sequential

open Attempt (Succeeds Fails)

/-- asking `targets` in their order ends with the first success, or with the failure of each -/
inductive Ends (timeout : Nat) (targets : List (String × Nat)) (call : RpcCall) (net : Network) :
    Except (List NodeFailure) Json → Network → Prop
  | answered {k : Nat} {node : String} {i : Nat} {v : Json} {net' : Network} :
    targets[k]? = some (node, i) → Succeeds net.transport timeout node (net.nextReply i) v →
    (∀ x ∈ targets.take k, ∃ e, Fails net.transport timeout x.1 (net.nextReply x.2) e) →
    Network.Asked (targets.take (k + 1)) call net net' → Ends timeout targets call net (.ok v) net'
  | failed {failures : List NodeFailure} {net' : Network} :
    failures.map NodeFailure.target = targets →
    (∀ f ∈ failures, Fails net.transport timeout f.node (net.nextReply f.index) f.cause) →
    Network.Asked targets call net net' → Ends timeout targets call net (.error failures) net'

variable {timeout : Nat} {call : RpcCall} {node : String} {i : Nat} {net : Network}
  {rest : List (String × Nat)}

theorem run_cons_of_succeeds (call : RpcCall) (rest : List (String × Nat)) {v : Json}
    (h : Succeeds net.transport timeout node (net.nextReply i) v) :
    ∃ time, run ⟨timeout, none⟩ call ((node, i) :: rest) net =
      (.ok v, (net.asked node i call).waitUntil time) := by
  obtain ⟨time, hstart⟩ := Attempt.start_without_deadline timeout call node i net
  rw [Attempt.resultOf_of_succeeds h] at hstart
  refine ⟨time, ?_⟩
  unfold run
  rw [hstart]

theorem run_cons_of_fails (call : RpcCall) (rest : List (String × Nat)) {e : NodeError}
    (h : Fails net.transport timeout node (net.nextReply i) e) :
    ∃ time, run ⟨timeout, none⟩ call ((node, i) :: rest) net =
      ((run ⟨timeout, none⟩ call rest ((net.asked node i call).waitUntil time)).1.mapError
          (⟨i, node, e⟩ :: ·),
        (run ⟨timeout, none⟩ call rest ((net.asked node i call).waitUntil time)).2) := by
  obtain ⟨time, hstart⟩ := Attempt.start_without_deadline timeout call node i net
  rw [Attempt.resultOf_of_fails h] at hstart
  refine ⟨time, ?_⟩
  rw [run, hstart]
  show (if e.isDeadline = true then _ else _) = _
  rw [h.isDeadline_eq]
  rfl

/-- one node more in front, which fails -/
theorem Ends.cons {e : NodeError} {r : Except (List NodeFailure) Json} {net' : Network} {time : Nat}
    (hi : i < net.servers.length) (hrest : ∀ x ∈ rest, x.2 ≠ i)
    (hfail : Fails net.transport timeout node (net.nextReply i) e)
    (h : Ends timeout rest call ((net.asked node i call).waitUntil time) r net') :
    Ends timeout ((node, i) :: rest) call net (r.mapError (⟨i, node, e⟩ :: ·)) net' := by
  have hreply : ∀ x ∈ rest,
      ((net.asked node i call).waitUntil time).nextReply x.2 = net.nextReply x.2 :=
    fun x hx => Network.nextReply_asked_of_ne (Ne.symm (hrest x hx)) time
  have hweb : ((net.asked node i call).waitUntil time).transport = net.transport :=
    Network.transport_asked net node i call
  cases h with
  | @answered k node' j v _ hk hv hbefore hasked =>
    refine .answered (k := k + 1) hk ?_ ?_ ?_
    · rw [← hreply (node', j) (List.mem_of_getElem? hk), ← hweb]
      exact hv
    · intro x hx
      rcases List.mem_cons.1 hx with rfl | hx
      · exact ⟨e, hfail⟩
      · rw [← hreply x (List.mem_of_mem_take hx), ← hweb]
        exact hbefore x hx
    · exact .cons hi (fun x hx => hrest x (List.mem_of_mem_take hx)) hasked
  | @failed failures _ htargets hfails hasked =>
    refine .failed ?_ ?_ (.cons hi hrest hasked)
    · rw [List.map_cons, htargets]
      rfl
    · intro f hf
      rcases List.mem_cons.1 hf with rfl | hf
      · exact hfail
      · have hmem : f.target ∈ rest := htargets ▸ List.mem_map_of_mem hf
        have hf' := hfails f hf
        rw [show f.index = f.target.2 from rfl, hreply f.target hmem, hweb] at hf'
        exact hf'

/-- induction on the nodes; what the first one is asked does not change the replies of the others -/
theorem run_ends (timeout : Nat) (call : RpcCall) (targets : List (String × Nat)) (net : Network)
    (hnodup : (targets.map Prod.snd).Nodup) (hlt : ∀ x ∈ targets, x.2 < net.servers.length) :
    Ends timeout targets call net (run ⟨timeout, none⟩ call targets net).1
      (run ⟨timeout, none⟩ call targets net).2 := by
  induction targets generalizing net with
  | nil => exact .failed rfl (fun _ h => nomatch h) (.nil call net)
  | cons x rest ih =>
    obtain ⟨node, i⟩ := x
    rw [List.map_cons, List.nodup_cons] at hnodup
    have hi : i < net.servers.length := hlt (node, i) List.mem_cons_self
    have hrest : ∀ x ∈ rest, x.2 ≠ i := fun x hx he =>
      hnodup.1 (List.mem_map.2 ⟨x, hx, he⟩)
    rcases Attempt.succeeds_or_fails net.transport timeout node (net.nextReply i)
      with ⟨v, hv⟩ | ⟨e, he⟩
    · obtain ⟨time, hrun⟩ := run_cons_of_succeeds call rest hv
      rw [hrun]
      exact .answered (k := 0) rfl hv (fun x hx => nomatch hx)
        (.cons hi (fun x hx => nomatch hx) (.nil call _))
    · obtain ⟨time, hrun⟩ := run_cons_of_fails call rest he
      rw [hrun]
      refine Ends.cons hi hrest he (ih _ hnodup.2 fun x hx => ?_)
      show x.2 < (net.asked node i call).servers.length
      rw [Network.length_servers_asked]
      exact hlt x (List.mem_cons_of_mem _ hx)

/-- no node is left out of the failures -/
theorem map_target_of_run {targets : List (String × Nat)} {failures : List NodeFailure}
    (h : (run ⟨timeout, none⟩ call targets net).1 = .error failures) :
    failures.map NodeFailure.target = targets := by
  induction targets generalizing net failures with
  | nil =>
    cases h
    rfl
  | cons x rest ih =>
    obtain ⟨node, i⟩ := x
    rcases Attempt.succeeds_or_fails net.transport timeout node (net.nextReply i)
      with ⟨v, hv⟩ | ⟨e, he⟩
    · obtain ⟨time, hrun⟩ := run_cons_of_succeeds call rest hv
      rw [hrun] at h
      cases h
    · obtain ⟨time, hrun⟩ := run_cons_of_fails call rest he
      rw [hrun] at h
      cases hr : (run ⟨timeout, none⟩ call rest ((net.asked node i call).waitUntil time)).1 with
      | ok v =>
        rw [hr] at h
        cases h
      | error failures' =>
        rw [hr] at h
        cases h
        rw [List.map_cons, ih hr]
        rfl

end Sequential

/-! ## runs of calls -/

namespace FailoverClient

open Attempt (Succeeds Fails)

/-- how a call ends that finds the network as `net` and leaves it as `net'`: with the result of the
first node whose next reply is a success, or with one failure per node -/
inductive Settled (c : FailoverClient) (call : RpcCall) (net : Network) :
    Except FailoverError Json → Network → Prop
  | answered {k : Nat} {node : String} {v : Json} {net' : Network} :
    c.nodes[k]? = some node → Succeeds net.transport c.timeout node (net.nextReply k) v →
    (∀ x ∈ c.targets.take k, ∃ e, Fails net.transport c.timeout x.1 (net.nextReply x.2) e) →
    Network.Asked (c.targets.take (k + 1)) call net net' → Settled c call net (.ok v) net'
  | exhausted {e : FailoverError} {last : NodeFailure} {net' : Network} :
    e.method = call.method → e.failures.map NodeFailure.target = c.targets →
    (∀ f ∈ e.failures, Fails net.transport c.timeout f.node (net.nextReply f.index) f.cause) →
    e.failures.getLast? = some last → FailoverError.LastSegment last.message e.message →
    Network.Asked c.targets call net net' → Settled c call net (.error e) net'

/-- calls without a deadline, one after the other -/
def callAll (c : FailoverClient) :
    List RpcCall → Network → List (Except FailoverError Json) × Network
  | [], net => ([], net)
  | call :: rest, net =>
    let (r, net) := c.call call none net
    let (rs, net) := c.callAll rest net
    (r :: rs, net)

variable {c : FailoverClient} {call : RpcCall} {net net' : Network}

theorem Settled.asked {r : Except FailoverError Json} (h : c.Settled call net r net') :
    ∃ k, Network.Asked (c.targets.take k) call net net' := by
  cases h with
  | answered _ _ _ hasked => exact ⟨_, hasked⟩
  | exhausted _ _ _ _ _ hasked =>
    refine ⟨c.targets.length, ?_⟩
    rw [List.take_length]
    exact hasked

theorem nodup_targets (c : FailoverClient) : (c.targets.map Prod.snd).Nodup := by
  unfold targets
  rw [List.zipIdx_map_snd]
  exact List.nodup_range'

theorem lt_of_mem_targets {x : String × Nat} (h : x ∈ c.targets) : x.2 < c.nodes.length :=
  List.snd_lt_of_mem_zipIdx h

theorem targets_ne_nil (c : FailoverClient) : c.targets ≠ [] := by
  intro h
  exact c.nodes_ne_nil (List.zipIdx_eq_nil_iff.1 h)

theorem call_eq_run (hmode : c.mode = .sequential) (call : RpcCall) (net : Network) :
    c.call call none net =
      ((Sequential.run ⟨c.timeout, none⟩ call c.targets net).1.mapError
        (FailoverError.ofFailures call.method),
        (Sequential.run ⟨c.timeout, none⟩ call c.targets net).2) := by
  unfold FailoverClient.call callIn
  rw [hmode]

theorem map_target_of_call {e : FailoverError} (hmode : c.mode = .sequential)
    (h : (c.call call none net).1 = .error e) :
    e.failures.map NodeFailure.target = c.targets := by
  rw [call_eq_run hmode] at h
  cases hrun : (Sequential.run ⟨c.timeout, none⟩ call c.targets net).1 with
  | ok v =>
    rw [hrun] at h
    cases h
  | error failures =>
    rw [hrun] at h
    cases h
    exact FailoverError.map_target_ofFailures (List.Perm.of_eq (Sequential.map_target_of_run hrun))

theorem call_settled (hmode : c.mode = .sequential) (hlen : c.nodes.length ≤ net.servers.length)
    (call : RpcCall) : c.Settled call net (c.call call none net).1 (c.call call none net).2 := by
  have hends := Sequential.run_ends c.timeout call c.targets net c.nodup_targets
    fun x hx => Nat.lt_of_lt_of_le (lt_of_mem_targets hx) hlen
  rw [call_eq_run hmode]
  generalize Sequential.run ⟨c.timeout, none⟩ call c.targets net = out at hends ⊢
  obtain ⟨r, net'⟩ := out
  cases hends with
  | @answered k node i v _ hk hv hbefore hasked =>
    obtain ⟨_, hnode, rfl, rfl⟩ : ∃ a, c.nodes[k]? = some a ∧ a = node ∧ k = i := by
      simpa [targets, List.getElem?_zipIdx] using hk
    exact .answered hnode hv hbefore hasked
  | @failed failures _ htargets hfails hasked =>
    have hperm := FailoverError.perm_ofFailures call.method failures
    have hall : (FailoverError.ofFailures call.method failures).failures.map NodeFailure.target =
        c.targets :=
      FailoverError.map_target_ofFailures (List.Perm.of_eq htargets)
    obtain ⟨last, hlast, hmessage⟩ := FailoverError.exists_lastSegment fun h =>
      c.targets_ne_nil (hall ▸ congrArg (List.map NodeFailure.target) h)
    exact .exhausted rfl hall (fun f hf => hfails f (hperm.subset hf)) hlast hmessage hasked

/-- induction on the calls: each one leaves as many servers as it finds -/
theorem callAll_settled (hmode : c.mode = .sequential)
    (hlen : c.nodes.length ≤ net.servers.length) {calls : List RpcCall} {k : Nat}
    (h : calls[k]? = some call) :
    ∃ r, (c.callAll calls net).1[k]? = some r ∧
      c.Settled call (c.callAll (calls.take k) net).2 r (c.callAll (calls.take (k + 1)) net).2 := by
  induction calls generalizing k net with
  | nil => cases h
  | cons first rest ih =>
    have hfirst := call_settled hmode hlen first
    cases k with
    | zero =>
      obtain rfl : first = call := by simpa using h
      exact ⟨_, rfl, hfirst⟩
    | succ k =>
      obtain ⟨_, hasked⟩ := hfirst.asked
      exact ih (hasked.length.symm ▸ hlen) h

/-- no call changes what the nodes have to say, nor who reads it -/
theorem kept_callAll (hmode : c.mode = .sequential)
    (hlen : c.nodes.length ≤ net.servers.length) (calls : List RpcCall) :
    (c.callAll calls net).2.transport = net.transport ∧
      ∀ i, ((c.callAll calls net).2.server i).script = (net.server i).script := by
  induction calls generalizing net with
  | nil => exact ⟨rfl, fun _ => rfl⟩
  | cons first rest ih =>
    obtain ⟨_, hasked⟩ := (call_settled hmode hlen first).asked
    obtain ⟨htransport, hscript⟩ := ih (hasked.length.symm ▸ hlen)
    exact ⟨htransport.trans hasked.transport, fun i => (hscript i).trans (hasked.script i)⟩

variable {files : Files} {nodes : List String} {tls : TlsPolicy} {timeout : Nat}

theorem ofNodes_eq_ok (h : ofNodes files nodes tls timeout = .ok c) :
    c.nodes = nodes ∧ c.timeout = timeout ∧ c.mode = .sequential := by
  unfold ofNodes at h
  split at h
  · cases h
  · split at h
    · cases h
    · cases hb : checkBundle files tls with
      | error e => rw [hb] at h; cases h
      | ok u => rw [hb] at h; cases h; exact ⟨rfl, rfl, rfl⟩

/-- whatever the nodes are and whatever they have to say, whoever reads their URLs and however the
clock goes on: each call of a run is settled by the replies that are next in turn after the calls
before it -/
theorem run_settled {nodes : List (String × List Reply)}
    (h : ofNodes files (nodes.map Prod.fst) tls timeout = .ok c) (web : Transport)
    (calls : List RpcCall) {k : Nat} (hk : calls[k]? = some call) :
    let start := Network.ofScripts web (nodes.map Prod.snd)
    let before := fun k => (c.callAll (calls.take k) start).2
    c.nodes = nodes.map Prod.fst ∧ c.timeout = timeout ∧ (before k).transport = web ∧
    (∀ i, ((before k).server i).script = (nodes[i]?.map Prod.snd).getD []) ∧
    (∀ i node script, nodes[i]? = some (node, script) → script ≠ [] →
      Server.NthReply script ((before k).server i).sent.length ((before k).nextReply i)) ∧
    ∃ r, (c.callAll calls start).1[k]? = some r ∧
      c.Settled call (before k) r (before (k + 1)) := by
  obtain ⟨hnodes, htimeout, hmode⟩ := ofNodes_eq_ok h
  intro start before
  have hlen : c.nodes.length ≤ start.servers.length := by
    simp [start, hnodes, Network.ofScripts]
  obtain ⟨htransport, hkept⟩ := kept_callAll hmode hlen (calls.take k)
  have hscript (i : Nat) : ((before k).server i).script = (nodes[i]?.map Prod.snd).getD [] := by
    refine (hkept i).trans ?_
    cases hi : nodes[i]? <;> simp [start, Network.server, Network.ofScripts, hi]
  refine ⟨hnodes, htimeout, htransport, hscript, ?_, callAll_settled hmode hlen hk⟩
  intro i node script hi hne
  have hown : ((before k).server i).script = script := by
    rw [hscript, hi]
    rfl
  have hreply := Server.nthReply ((before k).server i) ((before k).server i).sent.length
    (hown.symm ▸ hne)
  rwa [hown] at hreply

/-- what is wrong with a body is told in the same words for all of them -/
def web : Transport := .standard fun _ => "expected value at line 1 column 1"

/-- the text of a response with this result -/
def bodyOf (result : String) : Bytes :=
  Text.utf8 ("\x7b\"jsonrpc\":\"2.0\",\"id\":\"1\",\"result\":" ++ result ++ "\x7d")

/-- nobody is at the first node, the second one is no URL, and the third one answers the second call
with `8` -/
theorem run_settled_eight :
    let nodes : List (String × List Reply) := [("http://127.0.0.1:26657", [.after 5 .refused]),
      ("nowhere", []), ("http://127.0.0.1:26659", [.after 5 (.answer 200 (bodyOf "7")),
        .after 5 (.answer 500 (bodyOf "8"))])]
    let start := Network.ofScripts web (nodes.map Prod.snd)
    ∃ c, ofNodes (fun _ => .ok []) (nodes.map Prod.fst) .insecure 1000 = .ok c ∧
      (c.callAll [⟨"health", []⟩, ⟨"status", []⟩] start).1 = [.ok (.nat 7), .ok (.nat 8)] ∧
      c.Settled ⟨"status", []⟩ (c.callAll [⟨"health", []⟩] start).2 (.ok (.nat 8))
        (c.callAll [⟨"health", []⟩, ⟨"status", []⟩] start).2 := by
  intro nodes start
  have h : ofNodes (fun _ => .ok []) (nodes.map Prod.fst) .insecure 1000 =
      .ok ⟨nodes.map Prod.fst, 1000, .sequential, by decide, by decide⟩ := rfl
  obtain ⟨-, -, -, -, -, r, hr, hsettled⟩ :=
    run_settled h web [⟨"health", []⟩, ⟨"status", []⟩] (k := 1) rfl
  have hr' : some (Except.ok (.nat 8)) = some r := hr
  cases hr'
  exact ⟨_, h, rfl, hsettled⟩

end FailoverClient

end LedgerClient
