import LedgerClient.Proofs.Failover.Turns
/-!
# The result that a node gives

The first node that succeeds settles a call: its value is returned, and nobody behind it is asked.
Whether a node succeeds that gives a result lies with the result. A result that is `null` counts as
none, so the call goes on to the next node; and a response whose result is nested too deep is not
read at all.

* `FailoverClient.returns_iff`          a node's value is returned when the node succeeds;
* `RpcResponse.Gives`                   objects that are responses with a result and no error;
* `RpcResponse.shows_result_iff`        the results that they show;
* `FailoverClient.result_returned_iff`  which results are returned.
-/

namespace LedgerClient

open Attempt (Succeeds Fails)

/-! ## the call -/

theorem Attempt.Succeeds.requests_eq {net : Network} {limit : Nat} {node : String} {reply : Reply}
    {v : Json} (h : Succeeds net.transport limit node reply v) (call : RpcCall) :
    net.requests node call = [call] := by
  cases h with
  | result hurl =>
    unfold Network.requests
    rw [hurl]

namespace FailoverClient

variable {c : FailoverClient} {call : RpcCall} {net : Network} {i : Nat} {node : String} {v : Json}

theorem getElem?_targets {k : Nat} {x : String × Nat} :
    c.targets[k]? = some x ↔ c.nodes[k]? = some x.1 ∧ x.2 = k := by
  unfold targets
  rw [List.getElem?_zipIdx, Option.map_eq_some_iff, Nat.zero_add]
  constructor
  · rintro ⟨node, hnode, rfl⟩
    exact ⟨hnode, rfl⟩
  · rintro ⟨hnode, rfl⟩
    exact ⟨x.1, hnode, rfl⟩

theorem snd_lt_of_mem_take {n : Nat} {x : String × Nat} (h : x ∈ c.targets.take n) : x.2 < n := by
  obtain ⟨k, hk⟩ := List.mem_iff_getElem?.1 h
  rw [List.getElem?_take] at hk
  split at hk
  · rename_i hlt
    rw [(getElem?_targets.1 hk).2]
    exact hlt
  · cases hk

/-- when those in front of a node fail, its value is returned and nobody behind it is asked exactly
when it succeeds -/
theorem returns_iff (hmode : c.mode = .sequential) (hlen : c.nodes.length ≤ net.servers.length)
    (hnode : c.nodes[i]? = some node)
    (hbefore : ∀ x ∈ c.targets.take i,
      ∃ e, Fails net.transport c.timeout x.1 (net.nextReply x.2) e) :
    ((c.call call none net).1 = .ok v ∧
      ∀ j, i < j → ((c.call call none net).2.server j).sent = (net.server j).sent) ↔
      Succeeds net.transport c.timeout node (net.nextReply i) v := by
  have htarget : c.targets[i]? = some (node, i) := getElem?_targets.2 ⟨hnode, rfl⟩
  have hends := Sequential.run_ends c.timeout call c.targets net c.nodup_targets
    fun x hx => Nat.lt_of_lt_of_le (lt_of_mem_targets hx) hlen
  rw [call_eq_run hmode]
  generalize Sequential.run ⟨c.timeout, none⟩ call c.targets net = out at hends ⊢
  obtain ⟨r, net'⟩ := out
  constructor
  · rintro ⟨hv, hspared⟩
    rcases Attempt.succeeds_or_fails net.transport c.timeout node (net.nextReply i)
      with ⟨w, hw⟩ | ⟨e, he⟩
    · obtain ⟨rfl, -⟩ := hends.of_first htarget hw hbefore
      cases hv
      exact hw
    · -- then the value is that of a node behind, which has been asked
      cases hends with
      | failed _ _ _ => cases hv
      | @answered k node' i' v' _ hk hv' hbefore' hasked =>
        obtain ⟨-, rfl⟩ := getElem?_targets.1 hk
        rcases Nat.lt_trichotomy i' i with hlt | rfl | hlt
        · obtain ⟨e', he'⟩ := hbefore _ (mem_take_of_lt hk hlt)
          exact absurd he' hv'.not_fails
        · rw [htarget] at hk
          cases hk
          exact absurd he hv'.not_fails
        · have hsent : (net'.server i').sent = (net.server i').sent ++ _ :=
            hasked.sent (node', i') (mem_take_of_lt hk (Nat.lt_succ_self i'))
          rw [hspared i' hlt, hv'.requests_eq] at hsent
          have hlength := congrArg List.length hsent
          rw [List.length_append, List.length_singleton] at hlength
          omega
  · intro hv
    obtain ⟨rfl, hasked⟩ := hends.of_first htarget hv hbefore
    refine ⟨rfl, fun j hj => hasked.spared j fun x hx heq => ?_⟩
    have hlt := snd_lt_of_mem_take hx
    omega

end FailoverClient

/-! ## responses -/

namespace RpcResponse

open Document (given Shows Optional Defaulted)

variable {ms : List (Option String × Document)} {d : Document}

/-- the members of a response with the result `d` and no error; there may be others beside them -/
structure Gives (ms : List (Option String × Document)) (d : Document) : Prop where
  names : ∀ m ∈ ms, m.1 ≠ none
  result : given ["result"] ms = [d]
  error : given ["error"] ms = []
  version_once : (given ["jsonrpc"] ms).length ≤ 1
  version : ∀ e ∈ given ["jsonrpc"] ms, ∃ s, e = .string (some s)
  id_once : (given ["id"] ms).length ≤ 1
  id : ∀ e ∈ given ["id"] ms, ∃ w, e.Denotes w ∧ e.nesting < Document.depthLimit

theorem Gives.isRecord (h : Gives ms d) : (Document.object ms).IsRecord fieldNames := by
  refine ⟨h.names, fun names hnames => ?_⟩
  simp only [fieldNames, List.mem_cons, List.not_mem_nil, or_false] at hnames
  rcases hnames with rfl | rfl | rfl | rfl
  · exact h.version_once
  · exact h.id_once
  · rw [h.result]
    exact Nat.le_refl 1
  · rw [h.error]
    exact Nat.zero_le 1

theorem Gives.exists_version (h : Gives ms d) (room : Nat) :
    ∃ s, Defaulted Shows.text "" room ((Document.object ms).slot? ["jsonrpc"] 0) s := by
  show ∃ s, Defaulted Shows.text "" room (given ["jsonrpc"] ms).head? s
  cases hgiven : given ["jsonrpc"] ms with
  | nil => exact ⟨"", .missing⟩
  | cons e rest =>
    obtain ⟨s, hs⟩ := h.version e (hgiven ▸ List.mem_cons_self)
    exact ⟨s, .given hs⟩

theorem Gives.exists_id (h : Gives ms d) :
    ∃ w, Defaulted Shows.value .null 126 ((Document.object ms).slot? ["id"] 1) w := by
  show ∃ w, Defaulted Shows.value .null 126 (given ["id"] ms).head? w
  cases hgiven : given ["id"] ms with
  | nil => exact ⟨.null, .missing⟩
  | cons e rest =>
    obtain ⟨w, hw, hnesting⟩ := h.id e (hgiven ▸ List.mem_cons_self)
    exact ⟨w, .given ⟨hw, Nat.le_of_lt_succ hnesting⟩⟩

/-- such a response shows its result, unless that is `null` or nested too deep -/
theorem shows_result_iff (h : Gives ms d) {v : Json} :
    (∃ r, Shown Document.depthLimit (.object ms) r ∧ r.error = none ∧ r.result = some v) ↔
      d ≠ .null ∧ Shows.value 126 d v := by
  have hresult : (Document.object ms).slot? ["result"] 2 = some d := by
    show (given ["result"] ms).head? = some d
    rw [h.result]
    rfl
  have herror : (Document.object ms).slot? ["error"] 3 = none := by
    show (given ["error"] ms).head? = none
    rw [h.error]
    rfl
  constructor
  · rintro ⟨r, hr, -, hv⟩
    have hshown : Defaulted (Optional Shows.value) none 126 (some d) (some v) := by
      rw [← hresult, ← hv]
      exact hr.result
    cases hshown with
    | given hgiven =>
      cases hgiven with
      | given hne hvalue => exact ⟨hne, hvalue⟩
  · rintro ⟨hne, hvalue⟩
    obtain ⟨version, hversion⟩ := h.exists_version 126
    obtain ⟨id, hid⟩ := h.exists_id
    refine ⟨⟨version, id, some v, none⟩, ⟨by decide, h.isRecord, hversion, hid, ?_, ?_⟩, rfl, rfl⟩
    · rw [hresult]
      exact .given (.given hne hvalue)
    · rw [herror]
      exact .missing

end RpcResponse

/-- no node succeeds with `null` -/
theorem Attempt.Succeeds.ne_null {web : Transport} {limit : Nat} {node : String} {reply : Reply}
    {v : Json} (h : Succeeds web limit node reply v) : v ≠ .null := by
  cases h with
  | result _ _ hcarries _ hresult =>
    obtain ⟨d, -, hshown⟩ := hcarries
    exact hshown.result_ne_null hresult

/-- a node that answers in time with such a response succeeds, unless its result is `null` or
nested too deep -/
theorem Attempt.succeeds_iff_of_gives {web : Transport} {limit delay status : Nat} {node : String}
    {url : NodeUrl} {body : Bytes} {ms : List (Option String × Document)} {d : Document} {v : Json}
    (hurl : web.url node = .ok url) (hdelay : delay ≤ limit)
    (hbody : Document.parse (Document.sourceOfBytes body) = some (.object ms))
    (hgives : RpcResponse.Gives ms d) (hv : d.Denotes v) :
    Succeeds web limit node (.after delay (.answer status body)) v ↔
      v ≠ .null ∧ d.nesting < Document.depthLimit := by
  constructor
  · intro h
    have hnull := h.ne_null
    cases h with
    | result _ _ hcarries herror hresult =>
      obtain ⟨d', hd', hshown⟩ := hcarries
      obtain rfl : .object ms = d' :=
        Option.some_inj.1 (hbody.symm.trans (Document.parse_of_isElement hd'))
      obtain ⟨-, -, hnesting⟩ :=
        (RpcResponse.shows_result_iff hgives).1 ⟨_, hshown, herror, hresult⟩
      exact ⟨hnull, Nat.lt_succ_of_le hnesting⟩
  · rintro ⟨hnull, hnesting⟩
    have hne : d ≠ .null := by
      rintro rfl
      exact hnull (hv.eq .null)
    obtain ⟨r, hshown, herror, hresult⟩ :=
      (RpcResponse.shows_result_iff hgives).2 ⟨hne, hv, Nat.le_of_lt_succ hnesting⟩
    exact .result hurl hdelay ⟨_, Document.isElement_of_parse hbody, hshown⟩ herror hresult

namespace FailoverClient

/-- the nodes in front fail, and a node answers in time with a response that has a result and no
error: the call returns that result and asks nobody behind exactly when the result is not `null`
and nested no deeper than values may be -/
theorem result_returned_iff {c : FailoverClient} {call : RpcCall} {net : Network}
    (hmode : c.mode = .sequential) (hlen : c.nodes.length ≤ net.servers.length)
    {i delay status : Nat} {node : String} {url : NodeUrl} {body : Bytes}
    {ms : List (Option String × Document)} {d : Document} {v : Json}
    (hnode : c.nodes[i]? = some node) (hurl : net.transport.url node = .ok url)
    (hbefore : ∀ x ∈ c.targets.take i, ∃ e, Fails net.transport c.timeout x.1 (net.nextReply x.2) e)
    (hreply : net.nextReply i = .after delay (.answer status body)) (hdelay : delay ≤ c.timeout)
    (hbody : Document.parse (Document.sourceOfBytes body) = some (.object ms))
    (hgives : RpcResponse.Gives ms d) (hv : d.Denotes v) :
    ((c.call call none net).1 = .ok v ∧
      ∀ j, i < j → ((c.call call none net).2.server j).sent = (net.server j).sent) ↔
      v ≠ .null ∧ d.nesting < Document.depthLimit := by
  rw [returns_iff hmode hlen hnode hbefore, hreply]
  exact Attempt.succeeds_iff_of_gives hurl hdelay hbody hgives hv

/-! ## three nodes -/

def threeNodes : FailoverClient :=
  ⟨["http://127.0.0.1:26657", "http://127.0.0.1:26658", "http://127.0.0.1:26659"], 1000,
    .sequential, by decide, by decide⟩

def membersOf (d : Document) : List (Option String × Document) :=
  [(some "jsonrpc", .string (some "2.0")), (some "id", .string (some "1")), (some "result", d)]

theorem gives_membersOf (d : Document) : RpcResponse.Gives (membersOf d) d where
  names := by
    intro m hm
    simp only [membersOf, List.mem_cons, List.not_mem_nil, or_false] at hm
    rcases hm with rfl | rfl | rfl <;> exact Option.some_ne_none _
  result := rfl
  error := rfl
  version_once := Nat.le_refl 1
  version := by
    intro e he
    obtain rfl : e = .string (some "2.0") := List.mem_singleton.1 he
    exact ⟨"2.0", rfl⟩
  id_once := Nat.le_refl 1
  id := by
    intro e he
    obtain rfl : e = .string (some "1") := List.mem_singleton.1 he
    exact ⟨.string "1", .string "1", by decide⟩

/-- nobody is at the first node, and the second one answers `7` -/
theorem result_returned_seven :
    let net := Network.ofScripts web
      [[.after 5 .refused], [.after 5 (.answer 200 (bodyOf "7"))], [.silent]]
    let out := threeNodes.call ⟨"status", []⟩ none net
    out.1 = .ok (.nat 7) ∧ ∀ j, 1 < j → (out.2.server j).sent = (net.server j).sent := by
  intro net out
  have hbefore : ∀ x ∈ threeNodes.targets.take 1,
      ∃ e, Fails net.transport 1000 x.1 (net.nextReply x.2) e := by
    intro x hx
    obtain rfl : x = ("http://127.0.0.1:26657", 0) := List.mem_singleton.1 hx
    exact ⟨_, .connection rfl (by decide)⟩
  have hiff : (out.1 = .ok (.nat 7) ∧
      ∀ j, 1 < j → (out.2.server j).sent = (net.server j).sent) ↔ _ :=
    result_returned_iff rfl (by decide) rfl rfl hbefore rfl (by decide) rfl
      (gives_membersOf (.number (some (.whole 7)))) (.number (.whole 7))
  exact hiff.2 ⟨nofun, by decide⟩

/-- the first node answers `null`, and the call returns what the second one answers -/
theorem null_result_passed_over :
    let net := Network.ofScripts web
      [[.after 5 (.answer 200 (bodyOf "null"))], [.after 5 (.answer 200 (bodyOf "7"))], [.silent]]
    let out := threeNodes.call ⟨"status", []⟩ none net
    (∃ ms, Document.parse (Document.sourceOfBytes (bodyOf "null")) = some (.object ms) ∧
      RpcResponse.Gives ms .null) ∧
    out.1 = .ok (.nat 7) ∧ (out.2.server 1).sent = [⟨"status", []⟩] := by
  exact ⟨⟨_, rfl, gives_membersOf .null⟩, rfl, rfl⟩

end FailoverClient

end LedgerClient
