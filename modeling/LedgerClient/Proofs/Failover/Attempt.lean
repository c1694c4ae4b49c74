import LedgerClient.Failover.Attempt
import LedgerClient.Proofs.Json.Reader
import LedgerClient.Proofs.Rpc.Message
/-!
# What an attempt comes to

An attempt that may start ends as its node's next reply says. There is one way to succeed, and
everything else is a failure of some kind.

* `Delivery.Carries`       a body is the text of a document that shows a response;
* `Attempt.Succeeds`, `Attempt.Fails`   a reply that carries a result in time, and all other replies;
* `Attempt.resultOf`       the result of an attempt; `resultOf_eq_ok_iff` and `resultOf_eq_error_iff`
                           tell the two apart;
* `Network.nextReply`      what the next request to a node gets;
* `Network.asked`          the network after a request to a node;
* `Attempt.start_of_limit` an attempt that may start, without looking inside again.
-/

namespace LedgerClient

/-! ## bodies -/

namespace Delivery

/-- the body is the text of a document, and the document shows the response -/
def Carries (body : Bytes) (r : RpcResponse) : Prop :=
  ∃ d, Document.IsElement (Document.sourceOfBytes body) d ∧
    RpcResponse.Shown Document.depthLimit d r

variable {body : Bytes} {r : RpcResponse}

theorem response?_eq_some_iff : response? body = some r ↔ Carries body r := by
  unfold response?
  rw [Option.bind_eq_some_iff]
  constructor
  · rintro ⟨d, hd, hr⟩
    exact ⟨d, Document.isElement_of_parse hd, (RpcResponse.reads _ d r).1 hr⟩
  · rintro ⟨d, hd, hr⟩
    exact ⟨d, Document.parse_of_isElement hd, (RpcResponse.reads _ d r).2 hr⟩

theorem response?_eq_none_iff : response? body = none ↔ ∀ r, ¬ Carries body r := by
  simp only [← response?_eq_some_iff, Option.eq_none_iff_forall_ne_some, ne_eq]

end Delivery

/-! ## attempts -/

namespace Attempt

open Delivery (Carries)

/-- the node's text is a URL, and a response with a result arrives in time -/
inductive Succeeds (web : Transport) (limit : Nat) (node : String) : Reply → Json → Prop
  | result {url : NodeUrl} {delay status : Nat} {body : Bytes} {r : RpcResponse} {v : Json} :
    web.url node = .ok url → delay ≤ limit → Carries body r → r.error = none →
    r.result = some v → Succeeds web limit node (.after delay (.answer status body)) v

/-- why an attempt fails: the text is no URL of a web server, the connection is refused, closed or
never made, nothing arrives in time, the body is no response, or the response is an error -/
inductive Fails (web : Transport) (limit : Nat) (node : String) : Reply → NodeError → Prop
  | url {detail : String} {reply : Reply} :
    web.url node = .error detail → Fails web limit node reply (.url detail)
  | silent {url : NodeUrl} :
    web.url node = .ok url → Fails web limit node .silent (.timedOut limit)
  | late {url : NodeUrl} {delay : Nat} {d : Delivery} :
    web.url node = .ok url → limit < delay →
    Fails web limit node (.after delay d) (.timedOut limit)
  | connection {url : NodeUrl} {delay : Nat} {fault : ConnectionFault} {reason : String} :
    web.url node = .ok url → delay ≤ limit →
    Fails web limit node (.after delay (.failed fault reason)) (.connection url.text reason)
  | status {url : NodeUrl} {delay status : Nat} {body : Bytes} :
    web.url node = .ok url → delay ≤ limit → (∀ r, ¬ Carries body r) →
    Delivery.isSuccess status = false → Fails web limit node (.after delay (.answer status body))
      (.status status (Text.ofUtf8Lossy (body.take Delivery.snippetSize)))
  | body {url : NodeUrl} {delay status : Nat} {body : Bytes} :
    web.url node = .ok url → delay ≤ limit → (∀ r, ¬ Carries body r) →
    Delivery.isSuccess status = true →
    Fails web limit node (.after delay (.answer status body)) (.badResponse (web.bodyFault body))
  | rpc {url : NodeUrl} {delay status : Nat} {body : Bytes} {r : RpcResponse} {e : RpcError} :
    web.url node = .ok url → delay ≤ limit → Carries body r →
    r.error = some e → Fails web limit node (.after delay (.answer status body)) (.rpc e)
  | neither {url : NodeUrl} {delay status : Nat} {body : Bytes} {r : RpcResponse} :
    web.url node = .ok url → delay ≤ limit → Carries body r →
    r.error = none → r.result = none → Fails web limit node (.after delay (.answer status body))
      (.rpc (.internal "response carries neither result nor error"))

/-- how an attempt ends that may take `limit` and gets `reply` -/
def resultOf (web : Transport) (limit : Nat) (node : String) (reply : Reply) :
    Except NodeError Json :=
  match web.url node with
  | .error detail => .error (.url detail)
  | .ok url => (ending web url.text 0 limit reply).2

variable {web : Transport} {limit : Nat} {node : String} {reply : Reply} {v : Json} {e : NodeError}

/-- what an answer in time comes to -/
theorem resultOf_answer {url : NodeUrl} {delay : Nat} (hu : web.url node = .ok url)
    (hd : delay ≤ limit) (status : Nat) (body : Bytes) :
    resultOf web limit node (.after delay (.answer status body)) =
      Delivery.outcome web url.text (.answer status body) := by
  simp [resultOf, hu, ending, hd]

theorem outcome_of_carries {body : Bytes} {r : RpcResponse} (h : Carries body r) (url : String)
    (status : Nat) :
    Delivery.outcome web url (.answer status body) = r.outcome.mapError .rpc := by
  unfold Delivery.outcome
  simp only [Delivery.response?_eq_some_iff.2 h]
  cases r.outcome <;> rfl

theorem resultOf_of_succeeds (h : Succeeds web limit node reply v) :
    resultOf web limit node reply = .ok v := by
  cases h with
  | result hu hd hr he hv =>
    rw [resultOf_answer hu hd, outcome_of_carries hr, RpcResponse.outcome, he, hv]
    rfl

theorem resultOf_of_fails (h : Fails web limit node reply e) :
    resultOf web limit node reply = .error e := by
  cases h with
  | url hu => simp [resultOf, hu]
  | silent hu => simp [resultOf, hu, ending]
  | late hu hd => simp [resultOf, hu, ending, Nat.not_le.2 hd]
  | connection hu hd => simp [resultOf, hu, ending, hd, Delivery.outcome]
  | status hu hd hr hs =>
    rw [resultOf_answer hu hd]
    simp [Delivery.outcome, Delivery.response?_eq_none_iff.2 hr, hs]
  | body hu hd hr hs =>
    rw [resultOf_answer hu hd]
    simp [Delivery.outcome, Delivery.response?_eq_none_iff.2 hr, hs]
  | rpc hu hd hr he =>
    rw [resultOf_answer hu hd, outcome_of_carries hr, RpcResponse.outcome, he]
    rfl
  | neither hu hd hr he hv =>
    rw [resultOf_answer hu hd, outcome_of_carries hr, RpcResponse.outcome, he, hv]
    rfl

/-- no answer in time is left undecided -/
theorem answer_succeeds_or_fails {url : NodeUrl} {delay : Nat} (hu : web.url node = .ok url)
    (hd : delay ≤ limit) (status : Nat) (body : Bytes) :
    (∃ v, Succeeds web limit node (.after delay (.answer status body)) v) ∨
      ∃ e, Fails web limit node (.after delay (.answer status body)) e := by
  by_cases hcarries : ∃ r, Carries body r
  · obtain ⟨r, hr⟩ := hcarries
    cases he : r.error with
    | some x => exact .inr ⟨_, .rpc hu hd hr he⟩
    | none =>
      cases hv : r.result with
      | some v => exact .inl ⟨v, .result hu hd hr he hv⟩
      | none => exact .inr ⟨_, .neither hu hd hr he hv⟩
  · have hr : ∀ r, ¬ Carries body r := fun r h => hcarries ⟨r, h⟩
    cases hs : Delivery.isSuccess status with
    | false => exact .inr ⟨_, .status hu hd hr hs⟩
    | true => exact .inr ⟨_, .body hu hd hr hs⟩

/-- no reply is left undecided -/
theorem succeeds_or_fails (web : Transport) (limit : Nat) (node : String) (reply : Reply) :
    (∃ v, Succeeds web limit node reply v) ∨ ∃ e, Fails web limit node reply e := by
  cases hu : web.url node with
  | error detail => exact .inr ⟨_, .url hu⟩
  | ok url =>
    cases reply with
    | silent => exact .inr ⟨_, .silent hu⟩
    | after delay d =>
      by_cases hd : delay ≤ limit
      · cases d with
        | failed fault reason => exact .inr ⟨_, .connection hu hd⟩
        | answer status body => exact answer_succeeds_or_fails hu hd status body
      · exact .inr ⟨_, .late hu (Nat.lt_of_not_le hd)⟩

theorem resultOf_eq_ok_iff :
    resultOf web limit node reply = .ok v ↔ Succeeds web limit node reply v := by
  refine ⟨fun h => ?_, resultOf_of_succeeds⟩
  rcases succeeds_or_fails web limit node reply with ⟨w, hw⟩ | ⟨e, he⟩
  · obtain rfl : w = v := by simpa using (resultOf_of_succeeds hw).symm.trans h
    exact hw
  · cases (resultOf_of_fails he).symm.trans h

theorem resultOf_eq_error_iff :
    resultOf web limit node reply = .error e ↔ Fails web limit node reply e := by
  refine ⟨fun h => ?_, resultOf_of_fails⟩
  rcases succeeds_or_fails web limit node reply with ⟨w, hw⟩ | ⟨x, hx⟩
  · cases (resultOf_of_succeeds hw).symm.trans h
  · obtain rfl : x = e := by simpa using (resultOf_of_fails hx).symm.trans h
    exact hx

theorem Succeeds.not_fails (h : Succeeds web limit node reply v) :
    ¬ Fails web limit node reply e :=
  fun hf => nomatch (resultOf_of_succeeds h).symm.trans (resultOf_of_fails hf)

theorem Succeeds.eq {w : Json} (hv : Succeeds web limit node reply v)
    (hw : Succeeds web limit node reply w) : v = w :=
  Except.ok.inj ((resultOf_of_succeeds hv).symm.trans (resultOf_of_succeeds hw))

/-- more time does no harm -/
theorem Succeeds.mono {limit' : Nat} (h : Succeeds web limit node reply v) (hl : limit ≤ limit') :
    Succeeds web limit' node reply v := by
  cases h with
  | result hu hd hr he hv => exact .result hu (Nat.le_trans hd hl) hr he hv

/-- only an attempt that may not start exceeds the deadline -/
theorem Fails.isDeadline_eq (h : Fails web limit node reply e) : e.isDeadline = false := by
  cases h <;> rfl

theorem ending_snd (web : Transport) (url : String) (now limit : Nat) (reply : Reply) :
    (ending web url now limit reply).2 = (ending web url 0 limit reply).2 := by
  cases reply with
  | silent => rfl
  | after delay d =>
    show (if delay ≤ limit then _ else _ : Nat × Except NodeError Json).2 =
      (if delay ≤ limit then _ else _ : Nat × Except NodeError Json).2
    by_cases h : delay ≤ limit
    · rw [if_pos h, if_pos h]
    · rw [if_neg h, if_neg h]

end Attempt

/-! ## requests -/

namespace Network

/-- the reply that the next request to the node at a position gets -/
def nextReply (n : Network) (index : Nat) : Reply :=
  (n.server index).reply (n.server index).sent.length

/-- the requests that an attempt at a node makes: one, unless its text is no URL -/
def requests (n : Network) (node : String) (call : RpcCall) : List RpcCall :=
  match n.transport.url node with
  | .ok _ => [call]
  | .error _ => []

/-- the network after an attempt at a node has begun -/
def asked (n : Network) (node : String) (index : Nat) (call : RpcCall) : Network :=
  match n.transport.url node with
  | .ok _ => (n.send index call).2
  | .error _ => n

variable {n : Network} {node : String} {index i : Nat} {call : RpcCall}

@[simp] theorem server_waitUntil (n : Network) (time i : Nat) :
    (n.waitUntil time).server i = n.server i := rfl

theorem server_send_self (h : index < n.servers.length) :
    (n.send index call).2.server index =
      { n.server index with sent := (n.server index).sent ++ [call] } := by
  show ((n.servers.set index _)[index]?).getD _ = _
  rw [List.getElem?_set_self h]
  rfl

theorem server_send_of_ne (h : index ≠ i) : (n.send index call).2.server i = n.server i := by
  show ((n.servers.set index _)[i]?).getD _ = (n.servers[i]?).getD _
  rw [List.getElem?_set_ne h]

/-- there is no server to keep a request -/
theorem server_send_of_le (h : n.servers.length ≤ index) :
    (n.send index call).2.server i = n.server i := by
  show ((n.servers.set index _)[i]?).getD _ = (n.servers[i]?).getD _
  rw [List.set_eq_of_length_le h]

theorem server_asked_of_ne (h : index ≠ i) : (n.asked node index call).server i = n.server i := by
  unfold asked
  split
  · exact server_send_of_ne h
  · rfl

theorem server_asked_self (h : index < n.servers.length) :
    (n.asked node index call).server index =
      { n.server index with sent := (n.server index).sent ++ n.requests node call } := by
  unfold asked requests
  split
  · exact server_send_self h
  · rw [List.append_nil]

/-- whether a server is there or not, it gets no more than one request -/
theorem sent_asked (n : Network) (node : String) (index : Nat) (call : RpcCall) :
    ((n.asked node index call).server index).sent = (n.server index).sent ∨
      ((n.asked node index call).server index).sent = (n.server index).sent ++ [call] := by
  unfold asked
  split
  · by_cases h : index < n.servers.length
    · exact .inr (by rw [server_send_self h])
    · exact .inl (by rw [server_send_of_le (Nat.le_of_not_lt h)])
  · exact .inl rfl

@[simp] theorem length_servers_asked (n : Network) (node : String) (index : Nat) (call : RpcCall) :
    (n.asked node index call).servers.length = n.servers.length := by
  unfold asked
  split
  · exact List.length_set
  · rfl

@[simp] theorem transport_asked (n : Network) (node : String) (index : Nat) (call : RpcCall) :
    (n.asked node index call).transport = n.transport := by
  unfold asked
  split <;> rfl

end Network

theorem Budget.limit_le {b : Budget} {now limit : Nat} (h : b.limit now = some limit) :
    limit ≤ b.timeout := by
  unfold Budget.limit at h
  split at h
  · cases h
    exact Nat.le_refl _
  · split at h
    · cases h
    · cases h
      exact Nat.min_le_right _ _

namespace Attempt

variable {budget : Budget} {net : Network}

/-- an attempt that may not start asks nobody -/
theorem start_of_limit_none (call : RpcCall) (node : String) (index : Nat)
    (h : budget.limit net.now = none) :
    start budget call node index net = (⟨index, node, net.now, .error .deadline⟩, net) := by
  unfold start
  rw [h]

/-- an attempt that may start gets the next reply of its node -/
theorem start_of_limit (call : RpcCall) (node : String) (index : Nat) {limit : Nat}
    (h : budget.limit net.now = some limit) :
    ∃ finish, start budget call node index net =
      (⟨index, node, finish, resultOf net.transport limit node (net.nextReply index)⟩,
        net.asked node index call) := by
  unfold start resultOf Network.asked
  rw [h]
  cases net.transport.url node with
  | error f => exact ⟨_, rfl⟩
  | ok url =>
    refine ⟨(ending net.transport url.text net.now limit (net.nextReply index)).1 + net.lag index,
      ?_⟩
    show ((⟨index, node, _, (ending _ url.text net.now limit _).2⟩ : Attempt), _) = _
    rw [ending_snd]
    rfl

theorem start_without_deadline (timeout : Nat) (call : RpcCall) (node : String) (index : Nat)
    (net : Network) :
    ∃ finish, start ⟨timeout, none⟩ call node index net =
      (⟨index, node, finish, resultOf net.transport timeout node (net.nextReply index)⟩,
        net.asked node index call) :=
  start_of_limit call node index rfl

end Attempt

end LedgerClient
