import LedgerClient.Proofs.Json.Record
import LedgerClient.Rpc.Result
/-!
# Which documents are results of a phase

A node tells how it took a transaction in a record of which every field may be missing. The gas may
stand under either of two names, but not under both.

* `PhaseResult.Shown`   what stands in the fields, defaults included;
* `PhaseResult.reads`   the reader takes these documents and no others.
-/

namespace LedgerClient.PhaseResult

open Document (Shows Optional Defaulted Reads)

def fieldNames : List (List String) :=
  [["code"], ["log"], ["data"], ["gas_used", "gasUsed"], ["fee"]]

/-- the document shows the result, whose fields have `room - 1` levels -/
structure Shown (room : Nat) (d : Document) (r : PhaseResult) : Prop where
  room_pos : 0 < room
  record : d.IsRecord fieldNames
  code : Defaulted (Shows.unsigned 32) 0 (room - 1) (d.slot? ["code"] 0) r.code
  log : Defaulted Shows.text "" (room - 1) (d.slot? ["log"] 1) r.log
  data : Defaulted Shows.text "" (room - 1) (d.slot? ["data"] 2) r.data
  gasUsed : Defaulted (Optional Shows.value) none (room - 1)
    (d.slot? ["gas_used", "gasUsed"] 3) r.gasUsed
  fee : Defaulted (Optional Shows.value) none (room - 1) (d.slot? ["fee"] 4) r.fee

theorem reads : Reads read Shown := by
  intro room d r
  have hrecord : read room d = some r ↔ _ :=
    Document.record_eq_some_iff (show fieldNames.Pairwise _ by decide)
  rw [hrecord]
  have hvalue := Document.reads_value.optional
  constructor
  · rintro ⟨hroom, hd, h⟩
    obtain ⟨code, hcode, h⟩ := (Document.reads_unsigned 32).defaulted_bind.1 h
    obtain ⟨log, hlog, h⟩ := Document.reads_text.defaulted_bind.1 h
    obtain ⟨data, hdata, h⟩ := Document.reads_text.defaulted_bind.1 h
    obtain ⟨gasUsed, hgas, h⟩ := hvalue.defaulted_bind.1 h
    obtain ⟨fee, hfee, ⟨⟩⟩ := hvalue.defaulted_bind.1 h
    exact ⟨hroom, hd, hcode, hlog, hdata, hgas, hfee⟩
  · rintro ⟨hroom, hd, hcode, hlog, hdata, hgas, hfee⟩
    refine ⟨hroom, hd, ?_⟩
    refine (Document.reads_unsigned 32).defaulted_bind.2 ⟨_, hcode, ?_⟩
    refine Document.reads_text.defaulted_bind.2 ⟨_, hlog, ?_⟩
    refine Document.reads_text.defaulted_bind.2 ⟨_, hdata, ?_⟩
    refine hvalue.defaulted_bind.2 ⟨_, hgas, ?_⟩
    exact hvalue.defaulted_bind.2 ⟨_, hfee, rfl⟩

end LedgerClient.PhaseResult
