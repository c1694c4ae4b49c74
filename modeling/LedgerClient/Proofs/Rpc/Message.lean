import LedgerClient.Proofs.Json.Record
import LedgerClient.Rpc.Message
/-!
# Which documents are responses

A response is an object that gives none of its fields twice, or an array of no more items than it
has fields. Every field may be missing, a result or an error may be `null`, and members of other
names may hold anything.

* `RpcError.Shown`, `RpcResponse.Shown`   what stands in the fields of an error and of a response;
* `RpcError.reads`, `RpcResponse.reads`   the readers take these documents and no others;
* `RpcResponse.Shown.result_ne_null`      a result is never `null`.
-/

namespace LedgerClient

open Document (Shows Optional Defaulted Reads)

namespace RpcError

def fieldNames : List (List String) := [["code"], ["message"], ["data"]]

/-- the document shows the error, whose fields have `room - 1` levels -/
structure Shown (room : Nat) (d : Document) (e : RpcError) : Prop where
  room_pos : 0 < room
  record : d.IsRecord fieldNames
  code : ∃ x, d.slot? ["code"] 0 = some x ∧
    Shows.whole (-0x80000000) 0x7fffffff (room - 1) x e.code
  message : ∃ x, d.slot? ["message"] 1 = some x ∧ Shows.text (room - 1) x e.message
  data : Defaulted (Optional Shows.value) none (room - 1) (d.slot? ["data"] 2) e.data

theorem reads : Reads read Shown := by
  intro room d e
  have hrecord : read room d = some e ↔ _ :=
    Document.record_eq_some_iff (show fieldNames.Pairwise _ by decide)
  rw [hrecord]
  constructor
  · rintro ⟨hroom, hd, h⟩
    obtain ⟨code, hcode, h⟩ := (Document.reads_whole _ _).required_bind.1 h
    obtain ⟨message, hmessage, h⟩ := Document.reads_text.required_bind.1 h
    obtain ⟨data, hdata, ⟨⟩⟩ := Document.reads_value.optional.defaulted_bind.1 h
    exact ⟨hroom, hd, hcode, hmessage, hdata⟩
  · rintro ⟨hroom, hd, hcode, hmessage, hdata⟩
    refine ⟨hroom, hd, ?_⟩
    refine (Document.reads_whole _ _).required_bind.2 ⟨_, hcode, ?_⟩
    refine Document.reads_text.required_bind.2 ⟨_, hmessage, ?_⟩
    exact Document.reads_value.optional.defaulted_bind.2 ⟨_, hdata, rfl⟩

end RpcError

namespace RpcResponse

def fieldNames : List (List String) := [["jsonrpc"], ["id"], ["result"], ["error"]]

/-- the document shows the response, whose fields have `room - 1` levels -/
structure Shown (room : Nat) (d : Document) (r : RpcResponse) : Prop where
  room_pos : 0 < room
  record : d.IsRecord fieldNames
  version : Defaulted Shows.text "" (room - 1) (d.slot? ["jsonrpc"] 0) r.version
  id : Defaulted Shows.value .null (room - 1) (d.slot? ["id"] 1) r.id
  result : Defaulted (Optional Shows.value) none (room - 1) (d.slot? ["result"] 2) r.result
  error : Defaulted (Optional RpcError.Shown) none (room - 1) (d.slot? ["error"] 3) r.error

theorem reads : Reads read Shown := by
  intro room d r
  have hrecord : read room d = some r ↔ _ :=
    Document.record_eq_some_iff (show fieldNames.Pairwise _ by decide)
  rw [hrecord]
  constructor
  · rintro ⟨hroom, hd, h⟩
    obtain ⟨version, hversion, h⟩ := Document.reads_text.defaulted_bind.1 h
    obtain ⟨id, hid, h⟩ := Document.reads_value.defaulted_bind.1 h
    obtain ⟨result, hresult, h⟩ := Document.reads_value.optional.defaulted_bind.1 h
    obtain ⟨error, herror, ⟨⟩⟩ := RpcError.reads.optional.defaulted_bind.1 h
    exact ⟨hroom, hd, hversion, hid, hresult, herror⟩
  · rintro ⟨hroom, hd, hversion, hid, hresult, herror⟩
    refine ⟨hroom, hd, ?_⟩
    refine Document.reads_text.defaulted_bind.2 ⟨_, hversion, ?_⟩
    refine Document.reads_value.defaulted_bind.2 ⟨_, hid, ?_⟩
    refine Document.reads_value.optional.defaulted_bind.2 ⟨_, hresult, ?_⟩
    exact RpcError.reads.optional.defaulted_bind.2 ⟨_, herror, rfl⟩

/-- a result is never `null` -/
theorem Shown.result_ne_null {room : Nat} {d : Document} {r : RpcResponse} {v : Json}
    (h : Shown room d r) (hv : r.result = some v) : v ≠ .null := by
  have hresult := h.result
  rw [hv] at hresult
  generalize d.slot? ["result"] 2 = slot at hresult
  cases hresult with
  | given hgiven =>
    cases hgiven with
    | given hne hvalue =>
      rintro rfl
      exact hne (Document.denotes_null_iff.1 hvalue.1)

end RpcResponse

end LedgerClient
